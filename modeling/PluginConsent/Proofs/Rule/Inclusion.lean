import PluginConsent.Proofs.Rule.Reduce

namespace PluginConsent.Rule

def literals (p : List Char) : List Char := p.filter (· ≠ '*')

theorem literals_star (p : List Char) : literals ('*' :: p) = literals p := by
  simp [literals]

theorem literals_char {c : Char} (h : c ≠ '*') (p : List Char) :
    literals (c :: p) = c :: literals p := by
  simp [literals, h]

theorem globMatches_literals (p : List Char) : GlobMatches p (literals p) := by
  induction p with
  | nil => exact .nil
  | cons c p ih =>
      by_cases hc : c = '*'
      · subst hc
        rw [literals_star]
        exact .star [] ih
      · rw [literals_char hc]
        exact .char hc ih

theorem GlobMatches.length_literals_le {p s : List Char} (h : GlobMatches p s) :
    (literals p).length ≤ s.length := by
  induction h with
  | nil => exact Nat.le_refl _
  | star t _ ih =>
      rw [literals_star, List.length_append]
      omega
  | char hc _ ih =>
      rw [literals_char hc]
      exact Nat.succ_le_succ ih

namespace Pattern

variable {b n p s : List Char}

/-- A pattern that ends in a colon and a star, and the same with one more star. -/
def ColonDoubles (narrow broad : List Char) : Prop :=
  ∃ p, narrow = p ++ [':', '*'] ∧ broad = p ++ [':', '*', '*']

theorem patternMatches_of_doubles (h : Doubles n b) (hc : ¬ ColonDoubles n b)
    (hs : PatternMatches n s) : PatternMatches b s := by
  obtain ⟨p, rfl, rfl⟩ := h
  have hglob (q : List Char) : p ++ ['*'] ≠ q ++ [':', '*'] := by
    intro hq
    rw [List.append_cons q] at hq
    obtain rfl := List.append_cancel_right hq
    exact hc ⟨q, by simp, by simp⟩
  have hopens : Opens (p ++ ['*']) s := ((patternMatches_glob hglob).mp hs).opens
  rw [List.append_cons p]
  exact patternMatches_of_opens hopens

/-- The second star makes a glob of the pattern, and the colon a character of that glob. -/
theorem not_patternMatches_literals (p : List Char) :
    ¬ PatternMatches (p ++ [':', '*', '*']) (literals p) := by
  rw [List.append_cons p, patternMatches_glob (doubled_ne_colonStar _)]
  intro h
  have hle := h.length_literals_le
  simp only [literals, List.filter_append, List.length_append] at hle
  have hcolon : ([':'].filter fun c => decide (c ≠ '*')).length = 1 := rfl
  omega

theorem Covers.includes_iff (h : Covers b n) :
    (∀ s, PatternMatches n s → PatternMatches b s) ↔ ¬ ColonDoubles n b := by
  constructor
  · rintro hall ⟨p, rfl, rfl⟩
    have hshort : PatternMatches (p ++ [':', '*']) (literals p) :=
      patternMatches_colonStar.mpr (globMatches_literals p).opens
    exact not_patternMatches_literals p (hall _ hshort)
  · intro hc s hs
    by_cases hd : Doubles n b
    · exact patternMatches_of_doubles hd hc hs
    · exact h.patternMatches hd hs

end Pattern

/-- A rule that covers another one is for the same tool, and permits all that the other one does unless it
only adds a star to a colon and a star. -/
theorem covers_includes {broad narrow : String} (h : covers broad narrow = true) :
    ∃ b n, Clause.ofRule? broad = some b ∧ Clause.ofRule? narrow = some n ∧ b.tool = n.tool ∧
      ((∀ argument : String, PatternMatches n.pattern.toList argument.toList →
          PatternMatches b.pattern.toList argument.toList) ↔
        ¬ Pattern.ColonDoubles n.pattern.toList b.pattern.toList) := by
  obtain ⟨b, n, hb, hn, ht, hc⟩ := covers_iff.mp h
  refine ⟨b, n, hb, hn, ht, ?_⟩
  rw [← hc.includes_iff]
  refine ⟨fun hall s hs => ?_, fun hall argument => hall argument.toList⟩
  rw [← String.toList_ofList (l := s)] at hs ⊢
  exact hall (String.ofList s) hs

theorem covers_includes_doubled : covers "Read(src/**)" "Read(src/*)" = true ∧
    ∀ argument, Permits "Read(src/*)" "Read" argument → Permits "Read(src/**)" "Read" argument := by
  have hcov : covers "Read(src/**)" "Read(src/*)" = true := by decide
  refine ⟨hcov, ?_⟩
  rintro argument ⟨c, hc, -, hm⟩
  obtain ⟨b, n, hb, hn, ht, hiff⟩ := covers_includes hcov
  obtain rfl : n = ⟨"Read", "src/*"⟩ := Option.some.inj (hn.symm.trans (by decide))
  obtain rfl : c = ⟨"Read", "src/*"⟩ := Option.some.inj (hc.symm.trans (by decide))
  have hcolon : ¬ [':', '*'] <:+ "src/*".toList := by decide
  exact ⟨b, hb, ht, hiff.mpr (fun ⟨p, hp, _⟩ => hcolon ⟨p, hp.symm⟩) argument hm⟩

theorem not_covers_includes : ¬ ∀ broad narrow : String, covers broad narrow = true →
    ∃ b n, Clause.ofRule? broad = some b ∧ Clause.ofRule? narrow = some n ∧ b.tool = n.tool ∧
      ∀ argument : String, PatternMatches n.pattern.toList argument.toList →
        PatternMatches b.pattern.toList argument.toList := by
  intro h
  obtain ⟨b, n, hb, hn, -, hall⟩ := h "Bash(git:**)" "Bash(git:*)" (by decide)
  obtain rfl : b = ⟨"Bash", "git:**"⟩ := Option.some.inj (hb.symm.trans (by decide))
  obtain rfl : n = ⟨"Bash", "git:*"⟩ := Option.some.inj (hn.symm.trans (by decide))
  have hgit : PatternMatches "git:*".toList "git".toList :=
    patternMatches_colonStar.mpr (globMatches_literals ['g', 'i', 't']).opens
  exact Pattern.not_patternMatches_literals ['g', 'i', 't'] (hall "git" hgit)

end PluginConsent.Rule
