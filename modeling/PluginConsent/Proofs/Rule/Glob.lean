import PluginConsent.Rule.Meaning

namespace PluginConsent.Rule

theorem globMatches_star (s : List Char) : GlobMatches ['*'] s := by
  have h := GlobMatches.star s GlobMatches.nil
  rwa [List.append_nil] at h

theorem GlobMatches.append {p q u v : List Char} (hp : GlobMatches p u) (hq : GlobMatches q v) :
    GlobMatches (p ++ q) (u ++ v) := by
  induction hp with
  | nil => exact hq
  | star t _ ih =>
      rw [List.append_assoc]
      exact .star t ih
  | char hc _ ih => exact .char hc ih

theorem GlobMatches.split {p q s : List Char} (h : GlobMatches (p ++ q) s) :
    ∃ u v, s = u ++ v ∧ GlobMatches p u ∧ GlobMatches q v := by
  induction p generalizing s with
  | nil => exact ⟨[], s, rfl, .nil, h⟩
  | cons c p ih =>
      cases h with
      | star t h =>
          obtain ⟨u, v, rfl, hu, hv⟩ := ih h
          exact ⟨t ++ u, v, by rw [List.append_assoc], .star t hu, hv⟩
      | char hc h =>
          obtain ⟨u, v, rfl, hu, hv⟩ := ih h
          exact ⟨c :: u, v, rfl, .char hc hu, hv⟩

/-- The texts that start with a match of a glob. -/
def Opens (p s : List Char) : Prop := ∃ u v, s = u ++ v ∧ GlobMatches p u

theorem GlobMatches.opens {p s : List Char} (h : GlobMatches p s) : Opens p s :=
  ⟨s, [], (List.append_nil s).symm, h⟩

theorem Opens.of_initial {p q s : List Char} (h : Opens q s) (hp : p <+: q) : Opens p s := by
  obtain ⟨r, rfl⟩ := hp
  obtain ⟨u, v, rfl, hu⟩ := h
  obtain ⟨u, w, rfl, hu, _⟩ := hu.split
  exact ⟨u, w ++ v, by rw [List.append_assoc], hu⟩

theorem opens_iff_star {p s : List Char} : Opens p s ↔ GlobMatches (p ++ ['*']) s := by
  constructor
  · rintro ⟨u, v, rfl, hu⟩
    exact hu.append (globMatches_star v)
  · intro h
    obtain ⟨u, v, rfl, hu, _⟩ := h.split
    exact ⟨u, v, rfl, hu⟩

theorem patternMatches_colonStar {p s : List Char} :
    PatternMatches (p ++ [':', '*']) s ↔ Opens p s := by
  constructor
  · rintro (⟨q, u, v, hq, hs, hu⟩ | ⟨hq, _⟩)
    · exact ⟨u, v, hs, List.append_cancel_right hq ▸ hu⟩
    · exact absurd rfl (hq p)
  · rintro ⟨u, v, hs, hu⟩
    exact .inl ⟨p, u, v, rfl, hs, hu⟩

theorem patternMatches_glob {p s : List Char} (h : ∀ q, p ≠ q ++ [':', '*']) :
    PatternMatches p s ↔ GlobMatches p s := by
  constructor
  · rintro (⟨q, _, _, hq, _⟩ | ⟨_, hs⟩)
    · exact absurd hq (h q)
    · exact hs
  · exact fun hs => .inr ⟨h, hs⟩

theorem patternMatches_of_opens {p s : List Char} (h : Opens p s) : PatternMatches (p ++ ['*']) s := by
  by_cases hc : ∃ q, p = q ++ [':']
  · obtain ⟨q, rfl⟩ := hc
    rw [List.append_assoc]
    exact patternMatches_colonStar.mpr (h.of_initial (List.prefix_append q [':']))
  · rw [patternMatches_glob]
    · exact opens_iff_star.mp h
    · intro q hq
      rw [show q ++ [':', '*'] = (q ++ [':']) ++ ['*'] by simp] at hq
      exact hc ⟨q, List.append_cancel_right hq⟩

end PluginConsent.Rule
