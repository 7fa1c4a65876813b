import PluginConsent.Files.Change
import PluginConsent.Proofs.Files.Walk

namespace PluginConsent.Tree

theorem lookup?_erase_self (t : Tree) {loc : Location} (h : loc ≠ []) :
    (t.erase loc).lookup? loc = none := by
  simp [lookup?, erase, h, entry_set]

theorem Slot.location_ne_nil (s : Slot) : s.location ≠ [] := by simp [Slot.location]

/-- Some directories more, and all else as it was. -/
def Grown (t t' : Tree) : Prop :=
  ∀ loc, t'.lookup? loc = t.lookup? loc ∨
    t.lookup? loc = none ∧ t'.lookup? loc = some (.directory directoryMode)

theorem Grown.refl (t : Tree) : Grown t t := fun _ => .inl rfl

theorem Grown.trans {t t' t'' : Tree} (h : Grown t t') (h' : Grown t' t'') : Grown t t'' := by
  intro loc
  rcases h' loc with he | ⟨hn, hd⟩
  · rw [he]
    exact h loc
  · rcases h loc with he | ⟨_, hd'⟩
    · exact .inr ⟨he ▸ hn, hd⟩
    · rw [hd'] at hn
      exact absurd hn (Option.some_ne_none _)

theorem Grown.kept {t t' : Tree} (h : Grown t t') {loc : Location} {e : Entry}
    (he : t.lookup? loc = some e) : t'.lookup? loc = some e := by
  rcases h loc with heq | ⟨hn, _⟩
  · rw [heq, he]
  · rw [he] at hn
    exact absurd hn (Option.some_ne_none _)

theorem Grown.within {t t' : Tree} (h : Grown t t') : Within t t' := fun _ _ he _ => h.kept he

theorem grown_put {t : Tree} {loc : Location} (hne : loc ≠ []) (h : t.lookup? loc = none) :
    Grown t (t.put loc (.directory directoryMode)) := by
  intro loc'
  by_cases heq : loc' = loc
  · subst heq
    exact .inr ⟨h, lookup?_put_self t hne _⟩
  · exact .inl (lookup?_put_of_ne t heq _)

theorem makeDirectory_ok {t t' : Tree} {cwd : WorkingDirectory} {route : Route}
    (h : t.makeDirectory cwd route = .ok t') :
    ∃ s, t.slot cwd route = .ok (some s) ∧ s.name.utf8ByteSize ≤ maxNameBytes ∧
      t.lookup? s.location = none ∧ t' = t.put s.location (.directory directoryMode) := by
  unfold makeDirectory at h
  cases hs : t.slot cwd route with
  | error e => simp [hs, bind, Except.bind] at h
  | ok slot =>
      cases slot with
      | none => simp [hs, bind, Except.bind, throw, throwThe, MonadExceptOf.throw] at h
      | some s =>
          refine ⟨s, rfl, ?_⟩
          simp only [hs, bind, Except.bind, pure, Except.pure, throw, throwThe,
            MonadExceptOf.throw] at h
          split at h
          · cases h
          · next hlen =>
            split at h
            · cases h
            · next hn => exact ⟨Nat.not_lt.mp hlen, hn, (Except.ok.inj h).symm⟩

theorem grown_makeDirectory {t t' : Tree} {cwd : WorkingDirectory} {route : Route}
    (h : t.makeDirectory cwd route = .ok t') : Grown t t' := by
  obtain ⟨s, _, _, hn, rfl⟩ := makeDirectory_ok h
  exact grown_put s.location_ne_nil hn

theorem grown_makeAncestors (t : Tree) (cwd : WorkingDirectory) (routes : List Route) :
    Grown t (t.makeAncestors cwd routes).1 := by
  induction routes with
  | nil => exact .refl t
  | cons route up ih =>
      rw [makeAncestors]
      split
      · exact .refl t
      · split
        · next h => exact grown_makeDirectory h
        · split
          · next h => rw [h] at ih; exact ih
          · next h =>
            rw [h] at ih
            split
            · next h' => exact ih.trans (grown_makeDirectory h')
            · exact ih
        · exact .refl t

theorem grown_makeDirectories (t : Tree) (cwd : WorkingDirectory) (path : String) :
    Grown t (t.makeDirectories cwd path).1 := by
  unfold makeDirectories
  split
  · exact .refl t
  · split
    · exact .refl t
    · exact grown_makeAncestors t cwd _

theorem le_foldl_max {n : Nat} {ns : List Nat} (m : Nat) (h : n ≤ m ∨ n ∈ ns) :
    n ≤ ns.foldl max m := by
  induction ns generalizing m with
  | nil => simpa using h
  | cons k ns ih =>
      refine ih (max m k) ?_
      rcases h with h | h
      · exact .inl (by omega)
      · rcases List.mem_cons.mp h with rfl | h
        · exact .inl (by omega)
        · exact .inr h

theorem lookup?_freshName (t : Tree) (dir : Location) :
    t.lookup? (dir ++ [t.freshName dir]) = none := by
  have hlen : (t.freshName dir).length = ((t.names dir).map String.length).foldl max 0 + 1 := by
    simp [freshName]
  by_cases h : t.freshName dir ∈ t.names dir
  · have hmem : (t.freshName dir).length ∈ (t.names dir).map String.length :=
      List.mem_map.mpr ⟨_, h, rfl⟩
    have hle := le_foldl_max 0 (.inr hmem)
    omega
  · simp only [names, Ascending.mem_ofList, List.mem_filter, not_and, Bool.not_eq_true,
      Option.isSome_eq_false_iff, Option.isNone_iff_eq_none] at h
    have hsub : t.subtree (dir ++ [t.freshName dir]) = (t.subtree dir).child (t.freshName dir) := by
      simp [subtree]
    rw [lookup?, if_neg (by simp), hsub]
    by_cases hk : t.freshName dir ∈ Entries.keys (t.subtree dir).branches
    · exact h hk
    · rw [child, Entries.find?_eq_none_iff.mpr hk]
      rfl

theorem stage_error {t t' : Tree} {cwd : WorkingDirectory} {path : String} {content : ByteArray}
    {dir : Location} {e : ReplaceError} (h : t.stage cwd path content dir = (t', .error e))
    (loc : Location) : t'.lookup? loc = t.lookup? loc := by
  dsimp only [stage] at h
  split at h
  · cases h
  · cases h
    by_cases hl : loc = dir ++ [t.freshName dir]
    · subst hl
      rw [lookup?_erase_self _ (by simp), lookup?_freshName]
    · rw [lookup?_erase_of_ne _ hl, lookup?_put_of_ne _ hl]

theorem grown_replaceFile_error {t t' : Tree} {cwd : WorkingDirectory} {path : String}
    {content : ByteArray} {e : ReplaceError} (h : t.replaceFile cwd path content = (t', .error e)) :
    Grown t t' := by
  have hm := grown_makeDirectories t cwd (parentOf path)
  unfold replaceFile at h
  split at h
  · next he => cases h; rw [he] at hm; exact hm
  · next hok =>
    rw [hok] at hm
    split at h
    · cases h; exact hm
    · exact fun loc => stage_error h loc ▸ hm loc

/-- The way to a path's place does not lead through what stands there. -/
def StandsApart (t : Tree) (cwd : WorkingDirectory) (path : String) : Prop :=
  ∀ s, t.slot cwd (.ofString path) = .ok (some s) →
    (t.erase s.location).slot cwd (.ofString path) = .ok (some s)

theorem standsApart_of_not_passes {t : Tree} {cwd : WorkingDirectory} {path : String}
    (h : ∀ s e, t.slot cwd (.ofString path) = .ok (some s) → t.lookup? s.location = some e →
      ¬ Passes e) : t.StandsApart cwd path := by
  intro s hs
  refine slot_mono (fun loc e he hp => ?_) hs
  have hne : loc ≠ s.location := by
    rintro rfl
    exact h s e hs he hp
  rw [lookup?_erase_of_ne t hne, he]

theorem moveTo_ok {t t' : Tree} {cwd : WorkingDirectory} {source : Location} {path : String}
    (h : t.moveTo cwd source path = .ok t') :
    ∃ s e, checkPath path = .ok () ∧ t.slot cwd (.ofString path) = .ok (some s) ∧
      s.name.utf8ByteSize ≤ maxNameBytes ∧ s.slash = false ∧ t.isDirectoryAt s.location = false ∧
      t.lookup? source = some e ∧ t' = (t.erase source).put s.location e := by
  simp only [moveTo, bind, Except.bind, pure, Except.pure, throw, throwThe,
    MonadExceptOf.throw] at h
  split at h
  · cases h
  · split at h
    · cases h
    · next hcheck =>
      split at h
      · cases h
      · next hslot =>
        split at h
        · cases h
        · next s =>
          split at h
          · cases h
          · split at h
            · cases h
            · split at h
              · cases h
              · split at h
                · cases h
                · next hlen hslash hdir _ e he =>
                  cases h
                  exact ⟨s, e, hcheck, hslot, by omega, by simpa using hslash, by simpa using hdir,
                    he, rfl⟩

/-- One tree is another with a file at the place a path names, whatever but a directory stood there. -/
structure Replaced (t : Tree) (cwd : WorkingDirectory) (path : String) (content : ByteArray)
    (s : Slot) (t' : Tree) : Prop where
  usable : checkPath path = .ok ()
  slot : t.slot cwd (.ofString path) = .ok (some s)
  slash : s.slash = false
  short : s.name.utf8ByteSize ≤ maxNameBytes
  free : t.isDirectoryAt s.location = false
  self : t'.lookup? s.location = some (.file content (t.modeFor cwd path))
  other : ∀ loc, loc ≠ s.location → t'.lookup? loc = t.lookup? loc

theorem Replaced.slot_after {t t' : Tree} {cwd : WorkingDirectory} {path : String}
    {content : ByteArray} {s : Slot} (h : t.Replaced cwd path content s t')
    (ha : t.StandsApart cwd path) : t'.slot cwd (.ofString path) = .ok (some s) := by
  refine slot_mono (fun loc e he _ => ?_) (ha s h.slot)
  by_cases hloc : loc = s.location
  · rw [hloc, lookup?_erase_self t s.location_ne_nil] at he
    cases he
  · rw [h.other loc hloc, ← lookup?_erase_of_ne t hloc, he]

theorem Replaced.status_after {t t' : Tree} {cwd : WorkingDirectory} {path : String}
    {content : ByteArray} {s : Slot} (h : t.Replaced cwd path content s t')
    (ha : t.StandsApart cwd path) :
    t'.status cwd path = .ok (.file content (t.modeFor cwd path)) := by
  have htarget := target_of_slot (h.slot_after ha) h.slash h.short h.self
  simp only [status, resolve, h.usable, htarget, bind, Except.bind, entryAt, h.self]

theorem replaced_of_stage {t t' : Tree} {cwd : WorkingDirectory} {path : String}
    {content : ByteArray} {dir : Location} (h : t.stage cwd path content dir = (t', .ok ())) :
    ∃ s, Replaced t cwd path content s t' := by
  dsimp only [stage] at h
  split at h
  · next hmove =>
    cases h
    have hfresh := lookup?_freshName t dir
    have htemp : dir ++ [t.freshName dir] ≠ [] := by simp
    obtain ⟨s, e, hcheck, hslot, hlen, hslash, hdir, he, rfl⟩ := moveTo_ok hmove
    rw [lookup?_put_self t htemp] at he
    cases he
    refine ⟨s, hcheck, slot_mono (within_of_put_file htemp _ _) hslot, hslash, hlen, ?_,
      lookup?_put_self _ s.location_ne_nil _, fun loc hloc => ?_⟩
    · by_cases heq : s.location = dir ++ [t.freshName dir]
      · rw [isDirectoryAt, heq, hfresh]
      · rwa [isDirectoryAt, lookup?_put_of_ne t heq, ← isDirectoryAt] at hdir
    · rw [lookup?_put_of_ne _ hloc]
      by_cases heq : loc = dir ++ [t.freshName dir]
      · rw [heq, lookup?_erase_self _ htemp, hfresh]
      · rw [lookup?_erase_of_ne _ heq, lookup?_put_of_ne t heq]
  · cases h

theorem replaceFile_ok {t t' : Tree} {cwd : WorkingDirectory} {path : String}
    {content : ByteArray} (h : t.replaceFile cwd path content = (t', .ok ())) :
    (t.makeDirectories cwd (parentOf path)).2 = .ok () ∧
      ∃ s, Replaced (t.makeDirectories cwd (parentOf path)).1 cwd path content s t' := by
  rw [replaceFile] at h
  split at h
  · cases h
  · next made hmade =>
    rw [hmade]
    split at h
    · cases h
    · exact ⟨rfl, replaced_of_stage h⟩

end PluginConsent.Tree
