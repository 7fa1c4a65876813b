import PluginConsent.Manifest
import PluginConsent.Proofs.Files.Lasting
import PluginConsent.Proofs.Settings.Text

namespace PluginConsent.Manifest

/-- What a manifest with some members declares for a plugin in a directory of some name. -/
structure Declared (fields : Json.Object) (directory : String) (d : Declaration) : Prop where
  permissions : Entries.find? "permissions" fields = some (.object d.permissions)
  nonempty : d.permissions ≠ []
  named : ∀ s, Entries.find? "name" fields = some (.string s) → Text.trim s ≠ "" → d.name = Text.trim s
  unnamed : (∀ s, Entries.find? "name" fields = some (.string s) → Text.trim s = "") → d.name = directory

/-- A plugin has a manifest, in a real file in a real directory: text of limited length that is an object.
Its path may have to meet a condition. -/
structure Holds (t : Tree) (who : Account) (usable : Location → Bool) (plugin : Location)
    (fields : Json.Object) : Prop where
  marker : t.isDirectoryAt (marker plugin) = true
  usable : usable (location plugin) = true
  file : ∃ text mode, t.lookup? (location plugin) = some (.file text.toUTF8 mode) ∧
    who.mayRead mode = true ∧ text.utf8ByteSize ≤ maxBytes ∧
    Json.ofString? text = some (.object fields)

theorem isPathName_markerName : Location.IsPathName markerName := by decide

theorem isPathName_fileName : Location.IsPathName fileName := by decide

section

variable {t : Tree} {who : Account} {cache dir plugin loc : Location} {name : String}
  {fields : Json.Object} {bytes : ByteArray} {d : Declaration}

def checkPlace (t : Tree) (loc : Location) : Except SkipReason Unit :=
  if loc.fits then
    match t.lookup? loc with
    | none => .error (.unreadable loc .notFound)
    | some (.link _) => .error (.link loc)
    | some _ => .ok ()
  else .error (.unreadable loc .nameTooLong)

def fileIn (t : Tree) (who : Account) (plugin : Location) : Except SkipReason ByteArray :=
  match checkPlace t (location plugin), t.lookup? (location plugin) with
  | .error reason, _ => .error reason
  | .ok _, some (.file content mode) =>
    if who.mayRead mode then .ok content
    else .error (.unreadable (location plugin) .permissionDenied)
  | .ok _, _ => .error (.notAFile (location plugin))

def contentIn (t : Tree) (who : Account) (plugin : Location) : Except SkipReason ByteArray :=
  match checkPlace t (marker plugin) with
  | .error reason => .error reason
  | .ok _ =>
    if t.isDirectoryAt (marker plugin) then fileIn t who plugin
    else .error (.unreadable (location plugin)
      (if (location plugin).fits then .notDirectory else .nameTooLong))

theorem checkInside_place (ht : t.Proper) (hd : t.isDirectoryAt dir = true)
    (hname : Location.IsPathName name) (hcache : cache <+: dir ++ [name]) :
    checkInside t cache (dir ++ [name]) = checkPlace t (dir ++ [name]) := by
  rw [checkInside, checkPlace, ht.linkStatus_place hd hname]
  cases hfits : Location.fits (dir ++ [name]) with
  | false => rfl
  | true =>
      have hprefix : cache.isPrefixOf (dir ++ [name]) = true := by simpa using hcache
      have hfound {e : Entry} (he : t.lookup? (dir ++ [name]) = some e) (hlink : e.isLink = false) :
          t.canonical .root (Location.text (dir ++ [name])) = .ok (dir ++ [name]) :=
        ht.canonical_place hd hname hfits he hlink
      cases he : t.lookup? (dir ++ [name]) with
      | none => simp [Tree.entryAt, he]
      | some e =>
          cases e with
          | link => simp [Tree.entryAt, he]
          | file => simp [Tree.entryAt, he, hfound he rfl, hprefix]
          | directory => simp [Tree.entryAt, he, hfound he rfl, hprefix]
          | pipe => simp [Tree.entryAt, he, hfound he rfl, hprefix]

theorem checkPlace_ok_iff : checkPlace t loc = .ok () ↔
    loc.fits = true ∧ ∃ e, t.lookup? loc = some e ∧ e.isLink = false := by
  rw [checkPlace]
  cases loc.fits with
  | false => simp
  | true =>
      cases t.lookup? loc with
      | none => simp
      | some e => cases e <;> simp [Entry.isLink]

theorem checkPlace_directory (hfits : loc.fits = true) (hd : t.isDirectoryAt loc = true) :
    checkPlace t loc = .ok () := by
  obtain ⟨mode, he⟩ := Tree.isDirectoryAt_iff.mp hd
  exact checkPlace_ok_iff.mpr ⟨hfits, _, he, rfl⟩

theorem fileContent_file {mode : Nat} (h : t.linkStatus .root loc.text = .ok (.file bytes mode)) :
    fileContent t who loc =
      if who.mayRead mode then .ok bytes else .error (.unreadable loc .permissionDenied) := by
  rw [fileContent, h]
  dsimp only
  rw [Tree.readFile_of_status (Tree.status_of_linkStatus h)]
  cases who.mayRead mode <;> rfl

theorem fileContent_place (ht : t.Proper) (hm : t.isDirectoryAt (marker plugin) = true)
    (hcheck : checkPlace t (location plugin) = .ok ()) :
    fileContent t who (location plugin) = fileIn t who plugin := by
  obtain ⟨hfits, e, he, hlink⟩ := checkPlace_ok_iff.mp hcheck
  have hstatus : t.linkStatus .root (location plugin).text = .ok e := by
    rw [location, ht.linkStatus_place hm isPathName_fileName, ← location, if_pos hfits, Tree.entryAt, he]
  rw [fileIn, hcheck, he]
  cases e with
  | file content mode => exact fileContent_file hstatus
  | directory | pipe => rw [fileContent, hstatus]
  | link => cases hlink

theorem checkInside_below (ht : t.Proper) (hp : t.isDirectoryAt plugin = true)
    (hcheck : checkPlace t (marker plugin) = .ok ()) (hm : t.isDirectoryAt (marker plugin) = false) :
    checkInside t cache (location plugin) = .error (.unreadable (location plugin)
      (if (location plugin).fits then .notDirectory else .nameTooLong)) := by
  obtain ⟨_, e, he, hlink⟩ := checkPlace_ok_iff.mp hcheck
  have hpasses : ¬ Tree.Passes e := by
    rw [Tree.isDirectoryAt, he] at hm
    simp [Tree.Passes, hm, hlink]
  have hstatus : t.linkStatus .root (location plugin).text = _ :=
    ht.linkStatus_below hp isPathName_markerName isPathName_fileName he hpasses
  rw [checkInside, hstatus]
  rfl

/-- In a proper tree, the manifest of a plugin in the cache is found at its place. -/
theorem content_eq (ht : t.Proper) (hp : t.isDirectoryAt plugin = true) (hne : plugin ≠ [])
    (hfits : plugin.fits = true) (hcache : cache <+: plugin) :
    content t who cache plugin = contentIn t who plugin := by
  have hinside : checkInside t cache plugin = .ok () := by
    rcases List.eq_nil_or_concat plugin with rfl | ⟨up, name, rfl⟩
    · exact absurd rfl hne
    rw [List.concat_eq_append] at hp hfits hcache ⊢
    obtain ⟨mode, he⟩ := Tree.isDirectoryAt_iff.mp hp
    rw [checkInside_place ht (ht.rooted up name _ he) (ht.named_of_directory hp name (by simp)) hcache]
    exact checkPlace_directory hfits hp
  have hmarker : checkInside t cache (marker plugin) = checkPlace t (marker plugin) :=
    checkInside_place ht hp isPathName_markerName (hcache.trans (List.prefix_append _ _))
  rw [content, contentIn, hinside, hmarker]
  cases hcheck : checkPlace t (marker plugin) with
  | error reason => rfl
  | ok _ =>
      cases hm : t.isDirectoryAt (marker plugin) with
      -- No path leads below a marker that is no directory, and nothing stands there either.
      | false =>
          rw [checkInside_below ht hp hcheck hm]
          rfl
      | true =>
          have hlocation : checkInside t cache (location plugin) = checkPlace t (location plugin) :=
            checkInside_place ht hm isPathName_fileName
              (hcache.trans ((List.prefix_append _ _).trans (List.prefix_append _ _)))
          rw [hlocation, if_pos rfl]
          cases hfile : checkPlace t (location plugin) with
          | error reason =>
              rw [fileIn, hfile]
              rfl
          | ok _ => exact fileContent_place ht hm hfile

theorem fileIn_ok_iff : fileIn t who plugin = .ok bytes ↔ (location plugin).fits = true ∧
    ∃ mode, t.lookup? (location plugin) = some (.file bytes mode) ∧ who.mayRead mode = true := by
  rw [fileIn]
  cases hcheck : checkPlace t (location plugin) with
  | error reason =>
      refine ⟨nofun, fun ⟨hfits, mode, he, _⟩ => ?_⟩
      rw [checkPlace_ok_iff.mpr ⟨hfits, _, he, rfl⟩] at hcheck
      cases hcheck
  | ok _ =>
      rw [(checkPlace_ok_iff.mp hcheck).1]
      cases t.lookup? (location plugin) with
      | none => simp
      | some e =>
          cases e with
          | file content mode => cases hmay : who.mayRead mode <;> simp [hmay]
          | _ => simp

theorem contentIn_ok_iff : contentIn t who plugin = .ok bytes ↔
    t.isDirectoryAt (marker plugin) = true ∧ (location plugin).fits = true ∧
      ∃ mode, t.lookup? (location plugin) = some (.file bytes mode) ∧ who.mayRead mode = true := by
  rw [contentIn, ← fileIn_ok_iff]
  cases hm : t.isDirectoryAt (marker plugin) with
  | false => cases checkPlace t (marker plugin) <;> simp
  | true =>
      cases hcheck : checkPlace t (marker plugin) with
      | ok _ => simp
      | error reason =>
          refine ⟨nofun, fun ⟨_, h⟩ => ?_⟩
          have hfits : (marker plugin).fits = true :=
            Location.fits_of_prefix (List.prefix_append _ _) (fileIn_ok_iff.mp h).1
          rw [checkPlace_directory hfits hm] at hcheck
          cases hcheck

theorem ofText_ok_iff {text : String} : ofText loc text = .ok fields ↔
    Json.ofString? text = some (.object fields) := by
  rw [ofText]
  cases Json.ofString? text with
  | none => simp
  | some v => cases v <;> simp

theorem ofContent_ok_iff : ofContent loc bytes = .ok fields ↔
    ∃ text, bytes = text.toUTF8 ∧ text.utf8ByteSize ≤ maxBytes ∧
      Json.ofString? text = some (.object fields) := by
  rw [ofContent]
  constructor
  · intro h
    split at h
    · cases h
    split at h
    · cases h
    · cases h
    next text hread =>
    obtain ⟨rfl, hle⟩ := readBounded_ok_iff.mp hread
    exact ⟨text, rfl, hle, ofText_ok_iff.mp h⟩
  · rintro ⟨text, rfl, hle, hjson⟩
    have hsize : text.toUTF8.size = text.utf8ByteSize := rfl
    rw [hsize, if_neg (Nat.not_lt.mpr hle), readBounded_ok_iff.mpr ⟨rfl, hle⟩]
    exact ofText_ok_iff.mpr hjson

theorem eq_pluginName_iff : name = pluginName plugin fields ↔
    (∀ s, Entries.find? "name" fields = some (.string s) → Text.trim s ≠ "" → name = Text.trim s) ∧
      ((∀ s, Entries.find? "name" fields = some (.string s) → Text.trim s = "") →
        name = plugin.getLastD "") := by
  rw [pluginName]
  cases Entries.find? "name" fields with
  | none => simp
  | some v =>
      cases v with
      | string s => by_cases hs : Text.trim s = "" <;> simp [Json.string?, hs]
      | _ => simp [Json.string?]

theorem declaration_ok_iff : declaration plugin fields = .ok d ↔
    Declared fields (plugin.getLastD "") d := by
  obtain ⟨name, permissions⟩ := d
  constructor
  · intro h
    rw [declaration] at h
    split at h
    · next p ps hfind =>
      cases h
      obtain ⟨hnamed, hunnamed⟩ := eq_pluginName_iff.mp (rfl : pluginName plugin fields = _)
      exact ⟨hfind, by simp, hnamed, hunnamed⟩
    · cases h
  · rintro ⟨hfind, hne, hnamed, hunnamed⟩
    cases permissions with
    | nil => exact absurd rfl hne
    | cons p ps =>
        have hname : name = pluginName plugin fields := eq_pluginName_iff.mpr ⟨hnamed, hunnamed⟩
        rw [declaration, hfind, hname]

theorem read_ok_iff (ht : t.Proper) (hp : t.isDirectoryAt plugin = true) (hne : plugin ≠ [])
    (hfits : plugin.fits = true) (hcache : cache <+: plugin) : read t who cache plugin = .ok d ↔
      ∃ fields, Holds t who Location.fits plugin fields ∧ Declared fields (plugin.getLastD "") d := by
  have hread : read t who cache plugin = .ok d ↔ ∃ bytes, contentIn t who plugin = .ok bytes ∧
      ∃ fields, ofContent (location plugin) bytes = .ok fields ∧ declaration plugin fields = .ok d := by
    rw [read, content_eq ht hp hne hfits hcache]
    cases contentIn t who plugin with
    | error reason => simp [bind, Except.bind]
    | ok bytes => cases hc : ofContent (location plugin) bytes <;> simp [bind, Except.bind, hc]
  rw [hread]
  constructor
  · rintro ⟨bytes, hcontent, fields, hof, hd⟩
    obtain ⟨hm, hfile, mode, he, hmay⟩ := contentIn_ok_iff.mp hcontent
    obtain ⟨text, rfl, hle, hjson⟩ := ofContent_ok_iff.mp hof
    exact ⟨fields, ⟨hm, hfile, text, mode, he, hmay, hle, hjson⟩, declaration_ok_iff.mp hd⟩
  · rintro ⟨fields, ⟨hm, hfile, text, mode, he, hmay, hle, hjson⟩, hd⟩
    exact ⟨_, contentIn_ok_iff.mpr ⟨hm, hfile, mode, he, hmay⟩, fields,
      ofContent_ok_iff.mpr ⟨text, rfl, hle, hjson⟩, declaration_ok_iff.mpr hd⟩

end

end PluginConsent.Manifest
