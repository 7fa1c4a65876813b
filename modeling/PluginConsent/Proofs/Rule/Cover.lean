import PluginConsent.Proofs.Rule.Glob
import PluginConsent.Rule.Cover

namespace PluginConsent.Rule

theorem stem?_eq_some_iff {ending cs s : List Char} : stem? ending cs = some s ↔ cs = s ++ ending := by
  unfold stem?
  split
  · next h =>
    obtain ⟨t, rfl⟩ := List.isSuffixOf_iff_suffix.mp h
    simp
  · next h =>
    simp only [reduceCtorEq, false_iff]
    rintro rfl
    exact h (List.isSuffixOf_iff_suffix.mpr (List.suffix_append s ending))

namespace Pattern

def Covers (broad narrow : List Char) : Prop := (ofChars broad).covers (ofChars narrow) = true

theorem Covers.cases {b n : List Char} (h : Covers b n) :
    b = ['*'] ∨
      (∃ p q, b = p ++ [':', '*'] ∧ n = q ++ [':', '*'] ∧ p <+: q) ∨
      ∃ p, b = p ++ ['*'] ∧ p <+: n ∧ ∀ q r, b = q ++ [':', '*'] → n ≠ r ++ [':', '*'] := by
  unfold Covers covers ofChars at h
  simp only [Bool.or_eq_true, beq_iff_eq] at h
  rcases h with h | h
  · exact .inl h
  · right
    split at h
    · next p q hp hq =>
      exact .inl ⟨p, q, stem?_eq_some_iff.mp hp, stem?_eq_some_iff.mp hq,
        List.isPrefixOf_iff_prefix.mp h⟩
    · next hne =>
      split at h
      · next p hp =>
        refine .inr ⟨p, stem?_eq_some_iff.mp hp, List.isPrefixOf_iff_prefix.mp h, ?_⟩
        intro q r hq hr
        exact hne q r (stem?_eq_some_iff.mpr hq) (stem?_eq_some_iff.mpr hr)
      · exact absurd h Bool.false_ne_true

theorem doubled_ne_colonStar (p q : List Char) : p ++ ['*', '*'] ≠ q ++ [':', '*'] := by
  intro h
  have hend := (List.append_inj' h rfl).2
  exact absurd hend (by decide)

theorem covers_append_star {p : List Char} : Covers (p ++ ['*']) (p ++ ['*', '*']) := by
  have hb : stem? ['*'] (p ++ ['*']) = some p := stem?_eq_some_iff.mpr rfl
  have hn : stem? [':', '*'] (p ++ ['*', '*']) = none := by
    rw [Option.eq_none_iff_forall_ne_some]
    exact fun q hq => doubled_ne_colonStar p q (stem?_eq_some_iff.mp hq)
  unfold Covers covers ofChars
  simp [hb, hn]

/-- Twice the length of what stands before a star at the end; without a star, one more than twice
the length. -/
def weight (cs : List Char) : Nat :=
  match stem? ['*'] cs with
  | some p => 2 * p.length
  | none => 2 * cs.length + 1

theorem weight_star (p : List Char) : weight (p ++ ['*']) = 2 * p.length := by
  rw [weight, stem?_eq_some_iff.mpr rfl]

theorem weight_of_not_star {cs : List Char} (h : ∀ p, cs ≠ p ++ ['*']) :
    weight cs = 2 * cs.length + 1 := by
  rw [weight, Option.eq_none_iff_forall_ne_some.mpr fun p hp => h p (stem?_eq_some_iff.mp hp)]

def Doubles (narrow broad : List Char) : Prop := ∃ p, narrow = p ++ ['*'] ∧ broad = p ++ ['*', '*']

theorem weight_lt_of_prefix {p n : List Char} (hp : p <+: n) (hne : p ++ ['*'] ≠ n)
    (hd : ¬ Doubles n (p ++ ['*'])) : weight (p ++ ['*']) < weight n := by
  rw [weight_star]
  by_cases hn : ∃ q, n = q ++ ['*']
  · obtain ⟨q, rfl⟩ := hn
    rw [weight_star]
    rcases List.prefix_concat_iff.mp hp with rfl | hpq
    · exact absurd ⟨q, rfl, by simp⟩ hd
    · have hle := hpq.length_le
      have hlen : p.length ≠ q.length := fun he => hne (by rw [hpq.eq_of_length he])
      omega
  · rw [weight_of_not_star fun q hq => hn ⟨q, hq⟩]
    have hle := hp.length_le
    omega

theorem Covers.weight_lt {b n : List Char} (h : Covers b n) (hne : b ≠ n) (hd : ¬ Doubles n b) :
    weight b < weight n := by
  rcases h.cases with rfl | ⟨p, q, rfl, rfl, hpq⟩ | ⟨p, rfl, hp, _⟩
  · exact weight_lt_of_prefix (p := []) List.nil_prefix hne hd
  · rw [show p ++ [':', '*'] = (p ++ [':']) ++ ['*'] by simp,
      show q ++ [':', '*'] = (q ++ [':']) ++ ['*'] by simp, weight_star, weight_star]
    have hle := hpq.length_le
    have hlen : p.length ≠ q.length := fun he => hne (by rw [hpq.eq_of_length he])
    simp only [List.length_append, List.length_singleton]
    omega
  · exact weight_lt_of_prefix hp hne hd

theorem opens_of_patternMatches {p n s : List Char} (hp : p <+: n)
    (hd : ¬ Doubles n (p ++ ['*'])) (hc : ∀ q r, p ++ ['*'] = q ++ [':', '*'] → n ≠ r ++ [':', '*'])
    (h : PatternMatches n s) : Opens p s := by
  by_cases hn : ∃ q, n = q ++ [':', '*']
  · obtain ⟨q, rfl⟩ := hn
    rw [show q ++ [':', '*'] = (q ++ [':']) ++ ['*'] by simp] at hp
    rcases List.prefix_concat_iff.mp hp with rfl | hp
    · exact absurd ⟨q ++ [':'], by simp, by simp⟩ hd
    · rcases List.prefix_concat_iff.mp hp with rfl | hp
      · exact absurd rfl (hc q q (by simp))
      · exact (patternMatches_colonStar.mp h).of_initial hp
  · exact ((patternMatches_glob fun q hq => hn ⟨q, hq⟩).mp h).opens.of_initial hp

theorem Covers.patternMatches {b n s : List Char} (h : Covers b n) (hd : ¬ Doubles n b)
    (hs : PatternMatches n s) : PatternMatches b s := by
  rcases h.cases with rfl | ⟨p, q, rfl, rfl, hpq⟩ | ⟨p, rfl, hp, hc⟩
  · exact patternMatches_of_opens (p := []) ⟨[], s, rfl, .nil⟩
  · exact patternMatches_colonStar.mpr ((patternMatches_colonStar.mp hs).of_initial hpq)
  · exact patternMatches_of_opens (opens_of_patternMatches hp hd hc hs)

end Pattern

end PluginConsent.Rule
