namespace PluginConsent

/-- In the order of insertion: a key that is put again keeps its place and takes the new value. -/
abbrev Entries (κ α : Type) := List (κ × α)

namespace Entries

variable {κ α : Type} [DecidableEq κ]

def keys (es : Entries κ α) : List κ := es.map Prod.fst

def find? (k : κ) : Entries κ α → Option α
  | [] => none
  | (k', a) :: es => if k' = k then some a else find? k es

def put (k : κ) (a : α) : Entries κ α → Entries κ α
  | [] => [(k, a)]
  | (k', b) :: es => if k' = k then (k, a) :: es else (k', b) :: put k a es

@[simp] theorem find?_put_self (k : κ) (a : α) (es : Entries κ α) : find? k (put k a es) = some a := by
  induction es with
  | nil => simp [put, find?]
  | cons e es ih =>
    obtain ⟨k', b⟩ := e
    by_cases h : k' = k <;> simp [put, find?, h, ih]

theorem find?_put_of_ne {k k' : κ} (h : k' ≠ k) (a : α) (es : Entries κ α) :
    find? k' (put k a es) = find? k' es := by
  induction es with
  | nil => simp [put, find?, Ne.symm h]
  | cons e es ih =>
    obtain ⟨k'', b⟩ := e
    by_cases hk : k'' = k
    · subst hk; simp [put, find?, Ne.symm h]
    · by_cases hk' : k'' = k'
      · subst hk'; simp [put, find?, hk]
      · simp [put, find?, hk, hk', ih]

theorem keys_put (k : κ) (a : α) (es : Entries κ α) :
    keys (put k a es) = if k ∈ keys es then keys es else keys es ++ [k] := by
  induction es with
  | nil => simp [put, keys]
  | cons e es ih =>
    obtain ⟨k', b⟩ := e
    by_cases hk : k' = k
    · subst hk; simp [put, keys]
    · simp only [keys, put, hk, if_false, List.map_cons, List.mem_cons, Ne.symm hk, false_or] at ih ⊢
      rw [ih]
      by_cases hm : k ∈ List.map Prod.fst es <;> simp [hm]

theorem find?_eq_none_iff {k : κ} {es : Entries κ α} : find? k es = none ↔ k ∉ keys es := by
  induction es with
  | nil => simp [find?, keys]
  | cons e es ih =>
    obtain ⟨k', a⟩ := e
    by_cases hk : k' = k
    · simp [find?, keys, hk]
    · simpa [find?, keys, hk, Ne.symm hk] using ih

theorem mem_of_find? {k : κ} {a : α} {es : Entries κ α} (h : find? k es = some a) : (k, a) ∈ es := by
  induction es with
  | nil => simp [find?] at h
  | cons e es ih =>
    obtain ⟨k', b⟩ := e
    rw [find?] at h
    split at h
    · next hk => cases h; simp [hk]
    · exact List.mem_cons_of_mem _ (ih h)

end Entries

end PluginConsent
