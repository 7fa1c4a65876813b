import Mathlib.Data.List.Sort
import PluginConsent.Index

namespace PluginConsent

namespace Entries

variable {κ α : Type} [DecidableEq κ] {k : κ} {a : α} {es : Entries κ α}

theorem put_of_notMem (h : k ∉ keys es) (a : α) : put k a es = es ++ [(k, a)] := by
  induction es with
  | nil => rfl
  | cons e es ih =>
      obtain ⟨k', b⟩ := e
      have hk : k' ≠ k ∧ k ∉ keys es := by simpa [keys, eq_comm] using h
      rw [put, if_neg hk.1, ih hk.2, List.cons_append]

theorem put_eq_self (h : find? k es = some a) : put k a es = es := by
  induction es with
  | nil => cases h
  | cons e es ih =>
      obtain ⟨k', b⟩ := e
      rw [find?] at h
      rw [put]
      split at h
      · next hk =>
        subst hk
        cases h
        rw [if_pos rfl]
      · next hk => rw [if_neg hk, ih h]

theorem nodup_keys_put (h : (keys es).Nodup) : (keys (put k a es)).Nodup := by
  rw [keys_put]
  split
  · exact h
  · next hk =>
    refine List.nodup_append.mpr ⟨h, by simp, fun k' hk' k'' hk'' he => hk ?_⟩
    rwa [← List.mem_singleton.mp hk'', ← he]

theorem mem_put {e : κ × α} (h : e ∈ put k a es) : e = (k, a) ∨ e ∈ es := by
  induction es with
  | nil => exact .inl (by simpa [put] using h)
  | cons e' es ih =>
      obtain ⟨k', b⟩ := e'
      rw [put] at h
      split at h
      · rcases List.mem_cons.mp h with he | hm
        · exact .inl he
        · exact .inr (List.mem_cons_of_mem _ hm)
      · rcases List.mem_cons.mp h with he | hm
        · exact .inr (he ▸ List.mem_cons_self)
        · exact (ih hm).imp id (List.mem_cons_of_mem _)

theorem find?_of_mem (hn : (keys es).Nodup) (h : (k, a) ∈ es) : find? k es = some a := by
  induction es with
  | nil => cases h
  | cons e es ih =>
      obtain ⟨k', b⟩ := e
      obtain ⟨hk', hn⟩ := List.nodup_cons.mp hn
      rcases List.mem_cons.mp h with he | hm
      · cases he
        simp [find?]
      · have hne : k' ≠ k := by
          rintro rfl
          exact hk' (List.mem_map.mpr ⟨_, hm, rfl⟩)
        rw [find?, if_neg hne]
        exact ih hn hm

omit [DecidableEq κ] in
theorem keys_tabulate (ks : List κ) (f : κ → α) : keys (ks.map fun k => (k, f k)) = ks := by
  rw [keys, List.map_map]
  exact List.map_id' ks

theorem find?_tabulate (ks : List κ) (f : κ → α) (k : κ) :
    find? k (ks.map fun k => (k, f k)) = if k ∈ ks then some (f k) else none := by
  induction ks with
  | nil => rfl
  | cons k' ks ih =>
      rw [List.map_cons, find?, ih]
      by_cases hk : k' = k
      · subst hk; simp
      · simp [hk, Ne.symm hk]

theorem length_eq_of_find? {es' : Entries κ α} (hn : (keys es).Nodup) (hn' : (keys es').Nodup)
    (h : ∀ k, find? k es = find? k es') : es.length = es'.length := by
  have hkeys (k : κ) : k ∈ keys es ↔ k ∈ keys es' := by
    rw [← Decidable.not_iff_not, ← find?_eq_none_iff, ← find?_eq_none_iff, h k]
  have hperm := (List.perm_ext_iff_of_nodup hn hn').mpr hkeys
  simpa [keys] using hperm.length_eq

end Entries

namespace Ascending

theorem lt_of_not_lt_of_ne {s t : String} (h : ¬ s < t) (hne : s ≠ t) : t < s := by
  rcases String.le_total s t with hle | hle
  · exact absurd (String.le_antisymm hle (String.not_lt.mp h)) hne
  · exact String.not_le.mp fun hst => hne (String.le_antisymm hst hle)

theorem isAscending_insert {ss : List String} (s : String) (h : IsAscending ss) :
    IsAscending (insert s ss) := by
  induction ss with
  | nil => exact List.pairwise_singleton _ _
  | cons t ts ih =>
      obtain ⟨hlt, hts⟩ := List.pairwise_cons.mp h
      rw [insert]
      split
      · next hst =>
        refine List.pairwise_cons.mpr ⟨fun u hu => ?_, h⟩
        rcases List.mem_cons.mp hu with rfl | hu
        · exact hst
        · exact String.lt_trans hst (hlt u hu)
      · split
        · exact h
        · next hst hne =>
          refine List.pairwise_cons.mpr ⟨fun u hu => ?_, ih hts⟩
          rcases mem_insert.mp hu with rfl | hu
          · exact lt_of_not_lt_of_ne hst hne
          · exact hlt u hu

theorem nodup_of_isAscending {ss : List String} (h : IsAscending ss) : ss.Nodup :=
  List.Pairwise.imp String.ne_of_lt h

/-- Lists in strict order of a text of their members are told by which these are. -/
theorem eq_of_mem_iff {α : Type} {text : α → String} {xs ys : List α} (hx : IsAscending (xs.map text))
    (hy : IsAscending (ys.map text)) (h : ∀ a, a ∈ xs ↔ a ∈ ys) : xs = ys := by
  have hpairs {zs : List α} (hz : IsAscending (zs.map text)) :
      zs.Pairwise fun a b => text a < text b := List.pairwise_map.mp hz
  have hnodup {zs : List α} (hz : IsAscending (zs.map text)) : zs.Nodup :=
    (hpairs hz).imp fun hlt he => String.ne_of_lt hlt (congrArg text he)
  refine List.Perm.eq_of_pairwise (fun a b _ _ hlt hlt' => absurd hlt' (String.lt_asymm hlt))
    (hpairs hx) (hpairs hy) ?_
  exact (List.perm_ext_iff_of_nodup (hnodup hx) (hnodup hy)).mpr h

theorem isAscending_ofList (ss : List String) : IsAscending (ofList ss) := by
  induction ss with
  | nil => exact List.Pairwise.nil
  | cons s ss ih => exact isAscending_insert s ih

theorem ofList_congr {ss ss' : List String} (h : ∀ s, s ∈ ss ↔ s ∈ ss') : ofList ss = ofList ss' := by
  refine List.Pairwise.eq_of_mem_iff (isAscending_ofList ss) (isAscending_ofList ss') fun s => ?_
  rw [mem_ofList, mem_ofList, h]

theorem find?_eq_some_iff {ss : List String} (h : IsAscending ss) {q : String → Bool}
    {s : String} :
    ss.find? q = some s ↔ s ∈ ss ∧ q s = true ∧ ∀ t ∈ ss, q t = true → s ≤ t := by
  induction ss with
  | nil => simp
  | cons t ts ih =>
      obtain ⟨hlt, hts⟩ := List.pairwise_cons.mp h
      by_cases hq : q t = true
      · rw [List.find?_cons_of_pos hq, Option.some.injEq]
        constructor
        · rintro rfl
          refine ⟨List.mem_cons_self, hq, fun u hu _ => ?_⟩
          rcases List.mem_cons.mp hu with rfl | hu
          · exact String.le_refl _
          · exact String.not_lt.mp (String.lt_asymm (hlt u hu))
        · rintro ⟨hs, _, hleast⟩
          rcases List.mem_cons.mp hs with rfl | hs
          · rfl
          · exact absurd (hlt s hs) (String.not_lt.mpr (hleast t List.mem_cons_self hq))
      · rw [List.find?_cons_of_neg hq, ih hts]
        constructor
        · rintro ⟨hs, hqs, hleast⟩
          refine ⟨List.mem_cons_of_mem _ hs, hqs, fun u hu hqu => ?_⟩
          rcases List.mem_cons.mp hu with rfl | hu
          · exact absurd hqu hq
          · exact hleast u hu hqu
        · rintro ⟨hs, hqs, hleast⟩
          rcases List.mem_cons.mp hs with rfl | hs
          · exact absurd hqs hq
          · exact ⟨hs, hqs, fun u hu => hleast u (List.mem_cons_of_mem _ hu)⟩

end Ascending

namespace Index

variable {α : Type}

theorem mem_keys_put {k k' : String} {a : α} {i : Index α} :
    k' ∈ Entries.keys (put k a i) ↔ k' = k ∨ k' ∈ Entries.keys i := by
  induction i with
  | nil => simp [put, Entries.keys]
  | cons e es ih =>
      rcases e with ⟨k'', b⟩
      simp only [Entries.keys, put, List.map_cons, List.mem_cons] at ih ⊢
      split
      · simp
      · split
        · next h => subst h; simp
        · simp only [List.map_cons, List.mem_cons, ih]
          exact or_left_comm

theorem put_ascending (k : String) (a : α) {i : Index α} (h : IsAscending (Entries.keys i)) :
    IsAscending (Entries.keys (put k a i)) := by
  induction i with
  | nil => simp [put, Entries.keys, IsAscending]
  | cons e es ih =>
      rcases e with ⟨k', b⟩
      have hparts : (∀ k'' ∈ Entries.keys es, k' < k'') ∧ IsAscending (Entries.keys es) :=
        List.pairwise_cons.mp h
      rw [put]
      split
      · next hlt =>
        refine List.pairwise_cons.mpr ⟨fun k'' hk => ?_, h⟩
        rcases List.mem_cons.mp hk with rfl | hk
        · exact hlt
        · exact String.lt_trans hlt (hparts.1 k'' hk)
      · split
        · next he => subst he; exact h
        · next hlt hne =>
          refine List.pairwise_cons.mpr ⟨fun k'' hk => ?_, ih hparts.2⟩
          rcases mem_keys_put.mp hk with rfl | hk
          · exact Ascending.lt_of_not_lt_of_ne hlt hne
          · exact hparts.1 k'' hk

theorem foldl_put_ascending (es : List (String × α)) {i : Index α}
    (h : IsAscending (Entries.keys i)) :
    IsAscending (Entries.keys (es.foldl (fun i e => put e.1 e.2 i) i)) := by
  induction es generalizing i with
  | nil => exact h
  | cons e es ih => exact ih (put_ascending e.1 e.2 h)

theorem ofList_ascending (es : List (String × α)) : IsAscending (Entries.keys (ofList es)) :=
  foldl_put_ascending es List.Pairwise.nil

theorem eq_of_find? {i i' : Index α} (h : IsAscending (Entries.keys i))
    (h' : IsAscending (Entries.keys i')) (hf : ∀ k, Entries.find? k i = Entries.find? k i') :
    i = i' := by
  have hmem {j : Index α} (hj : IsAscending (Entries.keys j)) (e : String × α) :
      e ∈ j ↔ Entries.find? e.1 j = some e.2 :=
    ⟨Entries.find?_of_mem (Ascending.nodup_of_isAscending hj), Entries.mem_of_find?⟩
  refine Ascending.eq_of_mem_iff h h' fun e => ?_
  rw [hmem h, hmem h', hf]

theorem find?_foldl_put_map (k : String) (ks : List String) (a : α) (i : Index α) :
    Entries.find? k ((ks.map fun k => (k, a)).foldl (fun i e => put e.1 e.2 i) i) =
      if k ∈ ks then some a else Entries.find? k i := by
  induction ks generalizing i with
  | nil => simp
  | cons k' ks ih =>
      rw [List.map_cons, List.foldl_cons, ih]
      by_cases hk : k = k'
      · subst hk; simp
      · simp [hk, find?_put_of_ne hk]

end Index

end PluginConsent
