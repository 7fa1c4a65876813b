namespace PluginConsent

namespace Ascending

def insert (s : String) : List String → List String
  | [] => [s]
  | t :: ts => if s < t then s :: t :: ts else if s = t then t :: ts else t :: insert s ts

def ofList (ss : List String) : List String := ss.foldr insert []

end Ascending

/-- In the order of code points, which is also the order of the UTF-8 bytes. -/
def IsAscending (ss : List String) : Prop := ss.Pairwise (· < ·)

instance (ss : List String) : Decidable (IsAscending ss) :=
  inferInstanceAs (Decidable (ss.Pairwise (· < ·)))

namespace Ascending

theorem mem_insert {s t : String} {ss : List String} : t ∈ insert s ss ↔ t = s ∨ t ∈ ss := by
  induction ss with
  | nil => simp [insert]
  | cons u us ih =>
    rw [insert]
    split
    · simp
    · split
      · next h => subst h; simp
      · simp [ih, or_left_comm]

theorem mem_ofList {t : String} {ss : List String} : t ∈ ofList ss ↔ t ∈ ss := by
  induction ss with
  | nil => simp [ofList]
  | cons s ss ih => rw [show ofList (s :: ss) = insert s (ofList ss) from rfl, mem_insert, ih, List.mem_cons]

end Ascending

end PluginConsent
