import PluginConsent.Proofs.Files.Change
import PluginConsent.Proofs.Files.Route

namespace PluginConsent.Tree

/-- All on the way down to a location are directories, with names that a path can have as parts. -/
structure Standing (t : Tree) (loc : Location) : Prop where
  directory : ∀ up, up <+: loc → t.isDirectoryAt up = true
  named : ∀ name ∈ loc, Location.IsName name

theorem isDirectoryAt_iff {t : Tree} {loc : Location} :
    t.isDirectoryAt loc = true ↔ ∃ mode, t.lookup? loc = some (.directory mode) := by
  rw [isDirectoryAt]
  rcases t.lookup? loc with _ | e
  · simp
  · cases e <;> simp [Entry.isDirectory]

section

variable {t t' : Tree} {dir loc : Location} {name : String}

theorem Standing.initial (h : t.Standing loc) (hp : dir <+: loc) : t.Standing dir :=
  ⟨fun up hup => h.directory up (hup.trans hp), fun name hn => h.named name (hp.subset hn)⟩

theorem Standing.mono (hd : ∀ loc, t.isDirectoryAt loc = true → t'.isDirectoryAt loc = true)
    (h : t.Standing loc) : t'.Standing loc :=
  ⟨fun up hup => hd up (h.directory up hup), h.named⟩

theorem standing_root (t : Tree) : t.Standing [] := by
  refine ⟨fun up hup => ?_, by simp⟩
  rw [List.prefix_nil.mp hup]
  rfl

theorem Standing.concat (h : t.Standing loc) (hname : Location.IsName name)
    (hd : t.isDirectoryAt (loc ++ [name]) = true) : t.Standing (loc ++ [name]) := by
  refine ⟨fun up hup => ?_, Location.isName_of_mem_append h.named hname⟩
  rcases List.prefix_concat_iff.mp hup with rfl | hup
  · exact hd
  · exact h.directory up hup

theorem Grown.isDirectoryAt (h : Grown t t') (hd : t.isDirectoryAt loc = true) :
    t'.isDirectoryAt loc = true := by
  obtain ⟨mode, he⟩ := isDirectoryAt_iff.mp hd
  exact isDirectoryAt_iff.mpr ⟨mode, h.kept he⟩

theorem Replaced.isDirectoryAt {cwd : WorkingDirectory} {path : String} {content : ByteArray} {s : Slot}
    (h : t.Replaced cwd path content s t') (hd : t.isDirectoryAt loc = true) :
    t'.isDirectoryAt loc = true := by
  have hloc : loc ≠ s.location := by
    rintro rfl
    rw [h.free] at hd
    cases hd
  obtain ⟨mode, he⟩ := isDirectoryAt_iff.mp hd
  exact isDirectoryAt_iff.mpr ⟨mode, (h.other loc hloc).trans he⟩

theorem Standing.grown (h : t.Standing loc) (hg : Grown t t') : t'.Standing loc :=
  h.mono fun _ => hg.isDirectoryAt

theorem leads_of_standing (dir : Location) (links : Nat) (h : t.Standing (dir ++ loc)) :
    t.Leads links dir loc links (dir ++ loc) := by
  induction loc generalizing dir with
  | nil => simpa using Leads.here links dir
  | cons name loc ih =>
      obtain ⟨_, _, hdot, hlen⟩ := h.named name (by simp)
      rw [List.append_cons] at h ⊢
      obtain ⟨mode, he⟩ := isDirectoryAt_iff.mp (h.directory (dir ++ [name]) (List.prefix_append _ _))
      exact .down hdot hlen he (ih _ h)

theorem walk_directories (dir : Location) (followLast : Bool) (links : Nat)
    (h : t.Standing (dir ++ loc)) (rest : List String) :
    t.walk followLast links dir (loc ++ rest) = t.walk followLast links (dir ++ loc) rest := by
  induction loc generalizing dir with
  | nil => rw [List.nil_append, List.append_nil]
  | cons name loc ih =>
      obtain ⟨_, _, hdot, hlen⟩ := h.named name (by simp)
      rw [List.append_cons] at h
      obtain ⟨mode, he⟩ := isDirectoryAt_iff.mp (h.directory (dir ++ [name]) (List.prefix_append _ _))
      rw [List.cons_append, walk_name hdot hlen, he]
      refine (ih (dir ++ [name]) h).trans ?_
      rw [← List.append_cons]

theorem walk_standing (followLast : Bool) (links : Nat) (h : t.Standing loc) (rest : List String) :
    t.walk followLast links [] (loc ++ rest) = t.walk followLast links loc rest :=
  walk_directories [] followLast links h rest

theorem slot_standing (cwd : WorkingDirectory) (h : t.Standing loc) (hname : Location.IsName name) :
    t.slot cwd (.ofString (Location.text (loc ++ [name]))) = .ok (some ⟨loc, name, false⟩) := by
  have hall := Location.isName_of_mem_append h.named hname
  rw [Route.ofString_text (by simp) fun n hn => (hall n hn).2.1]
  refine slot_eq_some_iff.mpr ⟨loc, maxLinks, ?_, hname.2.2.1, ?_, ?_⟩
  · rw [Route.names_reverse fun n hn => (hall n hn).1]
  · simp [Route.endsInSlash, hname.1]
  · exact leadsFrom_root_iff.mpr (leads_of_standing [] maxLinks h)

theorem standsApart_of_standing {path : String} (cwd : WorkingDirectory) (h : t.Standing loc)
    (hname : Location.IsName name) (hpath : Location.text (loc ++ [name]) = path)
    (he : ∀ e, t.lookup? (loc ++ [name]) = some e → ¬ Passes e) : t.StandsApart cwd path := by
  refine standsApart_of_not_passes fun s e hs hlook => ?_
  rw [← hpath, slot_standing cwd h hname] at hs
  cases hs
  exact he e hlook

theorem lookup?_makeDirectory_of_ne {cwd : WorkingDirectory} {route : Route} {s : Slot}
    (hs : t.slot cwd route = .ok (some s)) (h : t.makeDirectory cwd route = .ok t')
    {loc' : Location} (hne : loc' ≠ s.location) : t'.lookup? loc' = t.lookup? loc' := by
  obtain ⟨s', hs', _, _, rfl⟩ := makeDirectory_ok h
  rw [hs] at hs'
  cases hs'
  exact lookup?_put_of_ne t hne _

theorem makeDirectory_ne_notFound {cwd : WorkingDirectory} {route : Route} {s : Slot}
    (hs : t.slot cwd route = .ok (some s)) : t.makeDirectory cwd route ≠ .error .notFound := by
  intro h
  simp only [makeDirectory, hs, bind, Except.bind, pure, Except.pure, throw, throwThe,
    MonadExceptOf.throw] at h
  split at h
  · cases h
  · split at h <;> cases h

theorem lookup?_makeDirectories_of_ne {cwd : WorkingDirectory} {path : String} {s : Slot}
    (hs : t.slot cwd (.ofString path) = .ok (some s)) {loc' : Location} (hne : loc' ≠ s.location) :
    (t.makeDirectories cwd path).1.lookup? loc' = t.lookup? loc' := by
  rw [makeDirectories]
  split
  · rfl
  · split
    · rfl
    · rw [Route.ancestors, Route.ancestorsWithin, makeAncestors]
      split
      · rfl
      · split
        · next h => exact lookup?_makeDirectory_of_ne hs h hne
        · next h => exact absurd h (makeDirectory_ne_notFound hs)
        · rfl

end

end PluginConsent.Tree
