import PluginConsent.Entries
import PluginConsent.Text.Ascending

namespace PluginConsent

/-- In strictly ascending order of the keys. -/
abbrev Index (α : Type) := Entries String α

namespace Index

variable {α : Type}

def put (k : String) (a : α) : Index α → Index α
  | [] => [(k, a)]
  | (k', b) :: es =>
    if k < k' then (k, a) :: (k', b) :: es
    else if k = k' then (k, a) :: es
    else (k', b) :: put k a es

def ofList (es : List (String × α)) : Index α := es.foldl (fun i e => i.put e.1 e.2) []

@[simp] theorem find?_put_self (k : String) (a : α) (i : Index α) :
    Entries.find? k (put k a i) = some a := by
  induction i with
  | nil => simp [put, Entries.find?]
  | cons e es ih =>
    obtain ⟨k', b⟩ := e
    rw [put]
    split
    · simp [Entries.find?]
    · split
      · simp [Entries.find?]
      · next h => simp [Entries.find?, Ne.symm h, ih]

theorem find?_put_of_ne {k k' : String} (h : k' ≠ k) (a : α) (i : Index α) :
    Entries.find? k' (put k a i) = Entries.find? k' i := by
  induction i with
  | nil => simp [put, Entries.find?, Ne.symm h]
  | cons e es ih =>
    obtain ⟨k'', b⟩ := e
    rw [put]
    split
    · simp [Entries.find?, Ne.symm h]
    · split
      · next hk => subst hk; simp [Entries.find?, Ne.symm h]
      · by_cases hk : k'' = k' <;> simp [Entries.find?, hk, ih]

end Index

end PluginConsent
