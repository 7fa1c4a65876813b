import PluginConsent.Proofs.Files.Route
import PluginConsent.Proofs.Index
import PluginConsent.Proofs.Json.Lists
import PluginConsent.Proofs.Settings.Layout
import PluginConsent.Proofs.Settings.Text

namespace PluginConsent

namespace Document

def IsBucket (field : String × Json) : Prop :=
  ∃ (a : Action) (rules : List String), field = (a.name, Json.ofStrings rules) ∧ IsAscending rules ∧
    ∀ rule ∈ rules, Rule.check rule = .ok ()

structure Clean (d : Document) : Prop where
  nodup : (Entries.keys d).Nodup
  buckets : ∀ field ∈ d, IsBucket field

variable {d : Document} {p : Policy} {s : Strategy} {a : Action} {written : List String}

theorem clean_nil : Clean [] := ⟨.nil, by simp⟩

theorem Clean.put (h : d.Clean) (ha : IsAscending written)
    (hr : ∀ rule ∈ written, Rule.check rule = .ok ()) (a : Action) :
    Clean (Entries.put a.name (Json.ofStrings written) d) := by
  refine ⟨Entries.nodup_keys_put h.nodup, fun field hf => ?_⟩
  rcases Entries.mem_put hf with rfl | hf
  · exact ⟨a, written, rfl, ha, hr⟩
  · exact h.buckets field hf

theorem Clean.check_rules (h : d.Clean) {rule : String} (hr : rule ∈ rules d a) :
    Rule.check rule = .ok () := by
  rw [rules, bucket?] at hr
  split at hr
  · next items hfind =>
    obtain ⟨b, stored, hfield, _, hcheck⟩ := h.buckets _ (Entries.mem_of_find? hfind)
    obtain ⟨_, hitems⟩ := Prod.mk.inj hfield
    obtain rfl : items = stored.map .string := Json.array.inj hitems
    rw [strings_ofStrings] at hr
    exact hcheck rule hr
  · cases hr

theorem Clean.of_written? (h : d.Clean) (hp : p.Storable) (hw : written? d p s a = some written) :
    IsAscending written ∧ ∀ rule ∈ written, Rule.check rule = .ok () := by
  obtain ⟨_, howes⟩ := written?_eq_some_iff.mp hw
  refine ⟨howes.ascending, fun rule hr => ?_⟩
  rcases (howes.mem rule).mp hr with hnew | ⟨_, hold⟩
  · refine hp (a, rule) ?_
    simp [Policy.filed, Action.mem_all, hnew]
  · exact h.check_rules (mem_rules.mpr hold)

theorem Clean.applyAction (h : d.Clean) (hp : p.Storable) : (applyAction p s d a).Clean := by
  unfold Document.applyAction
  split
  · next written hw =>
    obtain ⟨ha, hr⟩ := h.of_written? hp hw
    exact h.put ha hr a
  · exact h

theorem Clean.apply (h : d.Clean) (hp : p.Storable) : (d.apply p s).Clean := by
  rw [apply_eq_foldl]
  generalize Action.all = as
  induction as generalizing d with
  | nil => exact h
  | cons a as ih => exact ih (h.applyAction hp)

theorem Clean.eq_ofLists (h : d.Clean) : ∃ fs, d = Json.ofLists fs ∧ (Entries.keys fs).Nodup := by
  have hlists : ∃ fs, d = Json.ofLists fs := by
    have hbuckets := h.buckets
    clear h
    induction d with
    | nil => exact ⟨[], rfl⟩
    | cons field d ih =>
        obtain ⟨a, rules, rfl, _⟩ := hbuckets field List.mem_cons_self
        obtain ⟨fs, rfl⟩ := ih fun f hf => hbuckets f (List.mem_cons_of_mem _ hf)
        exact ⟨(a.name, rules) :: fs, rfl⟩
  obtain ⟨fs, rfl⟩ := hlists
  refine ⟨fs, rfl, ?_⟩
  simpa [Entries.keys, Json.ofLists, Function.comp_def] using h.nodup

theorem Clean.ofString?_pretty (h : d.Clean) :
    Json.ofString? (Json.object d).pretty = some (.object d) := by
  obtain ⟨fs, rfl, hn⟩ := h.eq_ofLists
  exact Json.ofString?_pretty_ofLists hn

end Document

namespace Places

def fileNames : List String := ["settings.json", "settings.local.json"]

theorem isName_of_mem_fileNames : ∀ name ∈ fileNames, Location.IsName name := by decide

/-- Whatever has the name of a settings file is a directory, or a file with the text of a clean
document. -/
def SettingsClean (t : Tree) : Prop :=
  ∀ dir, ∀ name ∈ fileNames, ∀ e, t.lookup? (dir ++ [name]) = some e →
    e.isDirectory = true ∨ ∃ d mode, Document.Clean d ∧ e = .file (Document.text d).toUTF8 mode

section

variable {p : Places} {env : Surroundings} {t t' : Tree} {scope : Scope} {path : String}
  {who : Account} {cwd : WorkingDirectory} {u : Update} {s : Strategy} {content : ByteArray} {mode : Nat}

theorem path_eq_settingsFile (h : p.path env t scope = .ok path) :
    ∃ dir, ∃ name ∈ fileNames, path = settingsFile dir name := by
  have hmap {name : String} {dir : Except PlaceError String} (hname : name ∈ fileNames)
      (hd : dir.map (settingsFile · name) = .ok path) :
      ∃ dir, ∃ name ∈ fileNames, path = settingsFile dir name := by
    cases dir with
    | error e => cases hd
    | ok dir => exact ⟨dir, name, hname, (Except.ok.inj hd).symm⟩
  cases scope with
  | user => exact hmap (by decide) h
  | project => exact hmap (by decide) h
  | «local» => exact hmap (by decide) h

theorem walk_settingsFile {dir name : String} (h : name ∈ fileNames) :
    ∃ names, (Route.ofString (settingsFile dir name)).walk = names ++ [name] := by
  refine Route.walk_join (fun he => ?_) (isName_of_mem_fileNames name h)
  have hrelative : Path.isAbsolute settingsDirectory = false := by decide
  rw [Path.join, hrelative, if_neg Bool.false_ne_true] at he
  split at he <;> simp [settingsDirectory] at he

theorem name_of_slot {slot : Tree.Slot} (h : p.path env t' scope = .ok path)
    (hs : t.slot cwd (.ofString path) = .ok (some slot)) (hslash : slot.slash = false) :
    slot.name ∈ fileNames := by
  obtain ⟨dir, name, hname, rfl⟩ := path_eq_settingsFile h
  obtain ⟨names, hwalk⟩ : ∃ names, (Route.ofString (settingsFile dir name)).walk = names ++ [name] :=
    walk_settingsFile hname
  obtain ⟨_, _, hnames, _, hend, _⟩ := Tree.slot_eq_some_iff.mp hs
  rw [Route.walk, if_neg (by simp [← hend, hslash]), hnames] at hwalk
  rwa [List.head_eq_of_cons_eq (List.append_inj' hwalk rfl).2]

theorem SettingsClean.file (h : SettingsClean t) (hpath : p.path env t' scope = .ok path)
    (hfile : t.status cwd path = .ok (.file content mode)) :
    ∃ d, Document.Clean d ∧ content = (Document.text d).toUTF8 := by
  obtain ⟨dir, name, hname, rfl⟩ := path_eq_settingsFile hpath
  obtain ⟨names, hwalk⟩ : ∃ names, (Route.ofString (settingsFile dir name)).walk = names ++ [name] :=
    walk_settingsFile hname
  obtain ⟨loc, htarget, he⟩ := Tree.status_file hfile
  have hdot := (isName_of_mem_fileNames name hname).2.2.1
  rw [Tree.target, hwalk] at htarget
  rcases Tree.last_of_walkFrom hdot htarget with ⟨up, rfl⟩ | ⟨up, target, hlink⟩
  · rcases h up name hname _ he with hd | ⟨d, _, hd, hentry⟩
    · cases hd
    · cases hentry
      exact ⟨d, hd, rfl⟩
  · rcases h up name hname _ hlink with hd | ⟨_, _, _, hentry⟩
    · cases hd
    · cases hentry

theorem SettingsClean.read? (h : SettingsClean t) (hpath : p.path env t' scope = .ok path) :
    ((Document.read? t who cwd path).getD []).Clean := by
  rcases Document.read?_cases t who cwd path with hempty | ⟨content, mode, hfile, _, hread⟩
  · rw [hempty]
    exact Document.clean_nil
  · obtain ⟨d, hd, rfl⟩ := h.file hpath hfile
    rw [hread, Option.getD_some, Document.ofContent_text hd.ofString?_pretty]
    split
    · exact hd
    · exact Document.clean_nil

theorem SettingsClean.grown (h : SettingsClean t) (hg : t.Grown t') : SettingsClean t' := by
  intro dir name hname e he
  rcases hg (dir ++ [name]) with hsame | ⟨_, hd⟩
  · exact h dir name hname e (hsame ▸ he)
  · rw [hd] at he
    cases he
    exact .inl rfl

theorem SettingsClean.replaced {d : Document} {slot : Tree.Slot} (h : SettingsClean t) (hd : d.Clean)
    (hr : t.Replaced cwd path (Document.text d).toUTF8 slot t') : SettingsClean t' := by
  intro dir name hname e he
  by_cases hloc : dir ++ [name] = slot.location
  · rw [hloc, hr.self] at he
    cases he
    exact .inr ⟨d, _, hd, rfl⟩
  · rw [hr.other _ hloc] at he
    exact h dir name hname e he

theorem SettingsClean.store (h : SettingsClean t) (hu : u.after.Clean) :
    SettingsClean (u.store t cwd).1 := by
  rcases hs : u.store t cwd with ⟨t', _ | written⟩
  · exact h.grown (Update.store_error hs).2
  cases written with
  | false =>
      have hsame := (Update.store_ok_false (congrArg Prod.snd hs)).1
      rw [hs] at hsame
      rwa [hsame]
  | true =>
      obtain ⟨_, _, slot, hr⟩ := Update.store_ok_true (congrArg Prod.snd hs)
      rw [hs] at hr
      exact (h.grown (Tree.grown_makeDirectories t cwd _)).replaced hu hr

theorem SettingsClean.write (h : SettingsClean t) (p : Places) (env : Surroundings) (scope : Scope)
    (rules : Policy) (s : Strategy) : SettingsClean (p.write env t scope rules s).1 := by
  rcases write_cases p env t scope rules s with
    ⟨a, rule, fault, _, hw⟩ | ⟨_, e, _, hw⟩ | ⟨hs, path, hpath, hw⟩
  · rwa [hw]
  · rwa [hw]
  · rw [hw]
    exact h.store ((h.read? hpath).apply hs)

end

end Places

end PluginConsent
