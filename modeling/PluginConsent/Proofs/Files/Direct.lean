import PluginConsent.Proofs.Files.Proper

namespace PluginConsent

theorem Location.fits_of_prefix {loc loc' : Location} (h : loc <+: loc') (hf : loc'.fits = true) :
    loc.fits = true := by
  obtain ⟨rest, rfl⟩ := h
  simp only [fits, decide_eq_true_eq, bytes_append] at hf ⊢
  omega

namespace Tree

section

variable {t : Tree} {cwd : WorkingDirectory} {followLast : Bool} {dir loc : Location}
  {name below : String} {e : Entry}

theorem checkText_text (h : ∀ n ∈ loc, Location.IsPathName n) : checkText loc.text = .ok () := by
  have hnul : loc.text.toList.contains '\x00' = false := by
    cases loc with
    | nil => decide
    | cons n loc =>
        rw [Location.toList_text (by simp), List.contains_eq_mem, decide_eq_false_iff_not,
          List.mem_flatMap]
        rintro ⟨part, hpart, hmem⟩
        rcases List.mem_cons.mp hmem with he | hmem
        · exact absurd he (by decide)
        · exact (h part hpart).2 hmem
  rw [checkText, hnul, if_neg Bool.false_ne_true, if_neg (Location.text_ne_empty loc)]

theorem fits_text (loc : Location) : Path.fits loc.text = loc.fits := by
  cases loc with
  | nil => decide
  | cons n loc => rw [Path.fits, Location.utf8ByteSize_text (by simp), Location.fits]

theorem route_text (hne : loc ≠ []) (h : ∀ n ∈ loc, Location.IsPathName n) :
    (Route.ofString loc.text).isAbsolute = true ∧ (Route.ofString loc.text).walk = loc := by
  have hend : Route.endsInSlash ⟨.root, loc.reverse⟩ = false := by
    rw [Route.endsInSlash, beq_eq_false_iff_ne]
    intro he
    exact (h "" (List.mem_reverse.mp (List.mem_of_mem_head? he))).1.1 rfl
  rw [Route.ofString_text hne fun n hn => (h n hn).1.2.1, Route.walk, hend,
    if_neg Bool.false_ne_true]
  exact ⟨rfl, Route.names_reverse fun n hn => (h n hn).1.1⟩

theorem target_text (h : ∀ n ∈ loc, Location.IsPathName n) :
    t.target cwd followLast (.ofString loc.text) = t.walk followLast maxLinks [] loc := by
  have hroot (names : List String) : t.walkFrom .root followLast names =
      t.walk followLast maxLinks [] names := by
    simp [walkFrom, WorkingDirectory.root, WorkingDirectory.ofLocation, climb]
  by_cases hne : loc = []
  · subst hne
    have hof : Route.ofString (Location.text []) = ⟨.root, [""]⟩ := by decide
    rw [target, hof]
    exact (hroot ["."]).trans walk_dot
  · obtain ⟨habs, hwalk⟩ := route_text hne h
    rw [target, origin, habs, if_pos rfl, hwalk]
    exact hroot loc

theorem resolve_text (h : ∀ n ∈ loc, Location.IsPathName n) :
    t.resolve cwd followLast loc.text =
      if loc.fits then t.walk followLast maxLinks [] loc else .error .nameTooLong := by
  rw [resolve, checkPath, checkText_text h, fits_text, target_text h]
  cases loc.fits <;> rfl

theorem Proper.locate_directory (ht : t.Proper) (hd : t.isDirectoryAt dir = true) :
    t.locate cwd dir.text = if dir.fits then .ok dir else .error .nameTooLong := by
  have hwalk : t.walk true maxLinks [] dir = .ok (.present dir) := by
    have hall := walk_standing true maxLinks (ht.standing hd) []
    rwa [List.append_nil, walk_nil] at hall
  rw [locate, resolve_text (ht.named_of_directory hd), hwalk]
  cases dir.fits <;> rfl

theorem Proper.names_place (ht : t.Proper) (hd : t.isDirectoryAt dir = true)
    (hname : Location.IsPathName name) : ∀ n ∈ dir ++ [name], Location.IsPathName n := by
  intro n hn
  rcases List.mem_append.mp hn with hn | hn
  · exact ht.named_of_directory hd n hn
  · rwa [List.mem_singleton.mp hn]

theorem Proper.walk_place (ht : t.Proper) (hd : t.isDirectoryAt dir = true)
    (hname : Location.IsPathName name)
    (hlink : followLast = true → ∀ target, t.lookup? (dir ++ [name]) ≠ some (.link target)) :
    (t.walk followLast maxLinks [] (dir ++ [name]) >>= t.entryAt) =
      t.entryAt (.present (dir ++ [name])) := by
  obtain ⟨_, _, hdot, hlen⟩ := hname.1
  rw [walk_standing followLast maxLinks (ht.standing hd), walk_name hdot hlen]
  cases he : t.lookup? (dir ++ [name]) with
  | none => simp [bind, Except.bind, entryAt, he]
  | some e =>
      cases e with
      | directory => simp [bind, Except.bind, walk_nil]
      | file => simp [bind, Except.bind]
      | pipe => simp [bind, Except.bind]
      | link target =>
          cases followLast with
          | false => simp [bind, Except.bind]
          | true => exact absurd he (hlink rfl target)

theorem Proper.linkStatus_place (ht : t.Proper) (hd : t.isDirectoryAt dir = true)
    (hname : Location.IsPathName name) :
    t.linkStatus cwd (Location.text (dir ++ [name])) =
      if Location.fits (dir ++ [name]) then t.entryAt (.present (dir ++ [name]))
      else .error .nameTooLong := by
  rw [linkStatus, resolve_text (ht.names_place hd hname)]
  cases Location.fits (dir ++ [name]) with
  | false => rfl
  | true => exact ht.walk_place hd hname fun h => absurd h Bool.false_ne_true

theorem Proper.linkStatus_below (ht : t.Proper) (hd : t.isDirectoryAt dir = true)
    (hname : Location.IsPathName name) (hbelow : Location.IsPathName below)
    (he : t.lookup? (dir ++ [name]) = some e) (hp : ¬ Passes e) :
    t.linkStatus cwd (Location.text (dir ++ [name] ++ [below])) =
      .error (if Location.fits (dir ++ [name] ++ [below]) then .notDirectory else .nameTooLong) := by
  have hnames : ∀ n ∈ dir ++ [name] ++ [below], Location.IsPathName n := by
    intro n hn
    rcases List.mem_append.mp hn with hn | hn
    · exact ht.names_place hd hname n hn
    · rwa [List.mem_singleton.mp hn]
  obtain ⟨_, _, hdot, hlen⟩ := hname.1
  rw [linkStatus, resolve_text hnames]
  cases Location.fits (dir ++ [name] ++ [below]) with
  | false => rfl
  | true =>
      rw [if_pos rfl, List.append_assoc, walk_standing false maxLinks (ht.standing hd),
        List.singleton_append, walk_name hdot hlen, he]
      cases e with
      | directory => exact absurd (.inl rfl) hp
      | link => exact absurd (.inr rfl) hp
      | file => rfl
      | pipe => rfl

end

section

variable {t : Tree} {dir loc : Location} {name : String} {e : Entry} {cwd : WorkingDirectory}

theorem within_empty (bytes : Nat) : empty.within bytes = empty := rfl

theorem child_within (bytes : Nat) (t : Tree) (name : String) : (t.within bytes).child name =
    if name.utf8ByteSize + 1 ≤ bytes then (t.child name).within (bytes - (name.utf8ByteSize + 1))
    else empty := by
  obtain ⟨entry, ts⟩ := t
  rw [within, child, child, branches, branches]
  induction ts with
  | nil => simp [belowWithin, Entries.find?, within_empty]
  | cons branch ts ih =>
      obtain ⟨name', t'⟩ := branch
      rw [belowWithin, Entries.find?]
      by_cases hname : name' = name
      · subst hname
        split
        · simp [Entries.find?]
        · next hlong => simpa [hlong] using ih
      · rw [if_neg hname]
        split
        · rw [Entries.find?, if_neg hname, ih]
        · exact ih

theorem entry_within (bytes : Nat) (t : Tree) (loc : Location) :
    ((t.within bytes).subtree loc).entry =
      if loc.bytes ≤ bytes then (t.subtree loc).entry else none := by
  induction loc generalizing bytes t with
  | nil =>
      obtain ⟨entry, ts⟩ := t
      simp [subtree, within, Location.bytes, Tree.entry]
  | cons name loc ih =>
      rw [subtree_cons, subtree_cons, child_within, Location.bytes_cons]
      by_cases hname : name.utf8ByteSize + 1 ≤ bytes
      · rw [if_pos hname, ih]
        congr 1
        rw [eq_iff_iff]
        omega
      · have hsub : empty.subtree loc = empty := by
          clear ih
          induction loc with
          | nil => rfl
          | cons n loc ih => exact ih
        rw [if_neg hname, if_neg (by omega), hsub]
        rfl

theorem lookup?_reachable (t : Tree) (loc : Location) :
    t.reachable.lookup? loc = if loc.fits then t.lookup? loc else none := by
  rw [lookup?, lookup?]
  by_cases hloc : loc = []
  · subst hloc
    rfl
  · rw [if_neg hloc, if_neg hloc, reachable, entry_within, Location.fits]
    simp

theorem Standing.reachable (h : t.Standing loc) (hfits : loc.fits = true) : t.reachable.Standing loc := by
  refine ⟨fun up hup => ?_, h.named⟩
  rw [isDirectoryAt, lookup?_reachable, if_pos (Location.fits_of_prefix hup hfits), ← isDirectoryAt]
  exact h.directory up hup

theorem Proper.canonical_place (ht : t.Proper) (hd : t.isDirectoryAt dir = true)
    (hname : Location.IsPathName name) (hfits : Location.fits (dir ++ [name]) = true)
    (he : t.lookup? (dir ++ [name]) = some e) (hlink : e.isLink = false) :
    t.canonical cwd (Location.text (dir ++ [name])) = .ok (dir ++ [name]) := by
  have hnames := ht.names_place hd hname
  obtain ⟨_, _, hdot, hlen⟩ := hname.1
  have hstanding := (ht.standing hd).reachable
    (Location.fits_of_prefix (List.prefix_append dir [name]) hfits)
  have hwalk : t.reachable.walk true maxLinks [] (dir ++ [name]) = .ok (.present (dir ++ [name])) := by
    rw [walk_standing true maxLinks hstanding, walk_name hdot hlen, lookup?_reachable, if_pos hfits, he]
    cases e with
    | directory => exact walk_nil
    | file => rfl
    | pipe => rfl
    | link => cases hlink
  obtain ⟨habs, hroute⟩ := route_text (by simp) hnames
  simp only [canonical, checkText_text hnames, bind, Except.bind, origin, habs, if_true,
    WorkingDirectory.location?, WorkingDirectory.root, WorkingDirectory.ofLocation, hroute, hwalk]
  rfl

end

end Tree

end PluginConsent
