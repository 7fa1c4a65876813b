import Mathlib.Data.List.Induction
import PluginConsent.Proofs.Files.Standing

namespace PluginConsent

def Location.IsPathName (name : String) : Prop := IsName name ∧ '\x00' ∉ name.toList

instance (name : String) : Decidable (Location.IsPathName name) :=
  inferInstanceAs (Decidable (_ ∧ _))

namespace Tree

structure Proper (t : Tree) : Prop where
  named : ∀ loc e, t.lookup? loc = some e → ∀ name ∈ loc, Location.IsPathName name
  rooted : ∀ dir name e, t.lookup? (dir ++ [name]) = some e → t.isDirectoryAt dir = true

section

variable {t : Tree} {dir loc : Location} {name : String} {e : Entry}

theorem Proper.named_of_directory (h : t.Proper) (hd : t.isDirectoryAt loc = true) :
    ∀ name ∈ loc, Location.IsPathName name := by
  obtain ⟨mode, he⟩ := isDirectoryAt_iff.mp hd
  exact h.named loc _ he

theorem Proper.standing (h : t.Proper) (hd : t.isDirectoryAt loc = true) : t.Standing loc := by
  induction loc using List.reverseRecOn with
  | nil => exact standing_root t
  | append_singleton up name ih =>
      obtain ⟨mode, he⟩ := isDirectoryAt_iff.mp hd
      exact (ih (h.rooted up name _ he)).concat (h.named_of_directory hd name (by simp)).1 hd

theorem Proper.lookup?_below (h : t.Proper) (hd : t.isDirectoryAt dir = false) (name : String) :
    t.lookup? (dir ++ [name]) = none := by
  cases he : t.lookup? (dir ++ [name]) with
  | none => rfl
  | some e =>
      rw [h.rooted dir name e he] at hd
      cases hd

theorem isDirectoryAt_put_of_ne (h : loc ≠ dir) (e : Entry) :
    (t.put dir e).isDirectoryAt loc = t.isDirectoryAt loc := by
  rw [isDirectoryAt, lookup?_put_of_ne t h, isDirectoryAt]

theorem isDirectoryAt_put_self (h : loc ≠ []) (e : Entry) :
    (t.put loc e).isDirectoryAt loc = e.isDirectory := by
  rw [isDirectoryAt, lookup?_put_self t h]

theorem lookup?_empty (h : loc ≠ []) : empty.lookup? loc = none := by
  have hsub : empty.subtree loc = empty := by
    clear h
    induction loc with
    | nil => rfl
    | cons name loc ih => exact ih
  rw [lookup?, if_neg h, hsub]
  rfl

theorem lookup?_foldl_put {es : List (Location × Entry)} (h : loc ∉ es.map Prod.fst) :
    (es.foldl (fun t e => t.put e.1 e.2) t).lookup? loc = t.lookup? loc := by
  induction es generalizing t with
  | nil => rfl
  | cons e es ih =>
      rw [List.map_cons, List.mem_cons, not_or] at h
      rw [List.foldl_cons, ih h.2, lookup?_put_of_ne t h.1]

theorem lookup?_ofList_of_notMem {es : List (Location × Entry)} (hne : loc ≠ [])
    (h : loc ∉ es.map Prod.fst) : (ofList es).lookup? loc = none := by
  rw [ofList, lookup?_foldl_put h, lookup?_empty hne]

theorem proper_empty : empty.Proper := by
  constructor
  · intro loc e he name hn
    rw [lookup?_empty (List.ne_nil_of_mem hn)] at he
    cases he
  · intro dir name e he
    rw [lookup?_empty (by simp)] at he
    cases he

theorem Proper.put (h : t.Proper) (hd : t.isDirectoryAt dir = true)
    (hname : Location.IsPathName name)
    (hkeep : t.isDirectoryAt (dir ++ [name]) = true → e.isDirectory = true) :
    (t.put (dir ++ [name]) e).Proper := by
  have hne : dir ++ [name] ≠ [] := by simp
  constructor
  · intro loc e' he n hn
    by_cases hloc : loc = dir ++ [name]
    · rw [hloc] at hn
      rcases List.mem_append.mp hn with hn | hn
      · exact h.named_of_directory hd n hn
      · rwa [List.mem_singleton.mp hn]
    · rw [lookup?_put_of_ne t hloc] at he
      exact h.named loc e' he n hn
  · intro dir' name' e' he
    have hold : t.isDirectoryAt dir' = true := by
      by_cases hloc : dir' ++ [name'] = dir ++ [name]
      · rwa [(List.append_inj' hloc rfl).1]
      · rw [lookup?_put_of_ne t hloc] at he
        exact h.rooted dir' name' e' he
    by_cases hdir : dir' = dir ++ [name]
    · rw [hdir] at hold ⊢
      rw [isDirectoryAt_put_self hne, hkeep hold]
    · rwa [isDirectoryAt_put_of_ne hdir]

def admits (t : Tree) : List (Location × Entry) → Bool
  | [] => true
  | (loc, e) :: es =>
    match loc.getLast? with
    | none => false
    | some name =>
      t.isDirectoryAt loc.dropLast && decide (Location.IsPathName name) &&
        (!t.isDirectoryAt loc || e.isDirectory) && admits (t.put loc e) es

theorem Proper.foldl_put {es : List (Location × Entry)} (h : t.Proper)
    (hes : t.admits es = true) : (es.foldl (fun t e => t.put e.1 e.2) t).Proper := by
  induction es generalizing t with
  | nil => exact h
  | cons e es ih =>
      obtain ⟨loc, e⟩ := e
      rcases List.eq_nil_or_concat loc with rfl | ⟨dir, name, rfl⟩
      · cases hes
      · simp only [admits, List.getLast?_concat, List.dropLast_concat, Bool.and_eq_true,
          decide_eq_true_eq, List.concat_eq_append] at hes
        obtain ⟨⟨⟨hdir, hname⟩, hkeep⟩, hes⟩ := hes
        have hput : (t.put (dir ++ [name]) e).Proper := by
          refine h.put hdir hname fun hd => ?_
          simpa [hd] using hkeep
        rw [List.foldl_cons, List.concat_eq_append]
        exact ih hput hes

theorem proper_ofList {es : List (Location × Entry)} (h : empty.admits es = true) :
    (ofList es).Proper := proper_empty.foldl_put h

end

end Tree

end PluginConsent
