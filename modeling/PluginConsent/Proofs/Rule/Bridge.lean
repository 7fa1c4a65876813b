import PluginConsent.Proofs.Rule.Reduce

namespace PluginConsent.Rule

namespace Pattern

variable {b c k m n p q : List Char}

theorem covers_of_colonStar (h : p <+: q) : Covers (p ++ [':', '*']) (q ++ [':', '*']) := by
  have hb : stem? [':', '*'] (p ++ [':', '*']) = some p := stem?_eq_some_iff.mpr rfl
  have hn : stem? [':', '*'] (q ++ [':', '*']) = some q := stem?_eq_some_iff.mpr rfl
  unfold Covers covers ofChars
  simp [hb, hn, h]

theorem initial_of_colon (h : p ++ [':'] <+: q ++ [':', '*']) : p <+: q := by
  rw [List.append_cons q] at h
  rcases List.prefix_concat_iff.mp h with he | h
  · have hlast := List.head_eq_of_cons_eq (List.append_inj' he rfl).2
    exact absurd hlast (by decide)
  · rcases List.prefix_concat_iff.mp h with he | h
    · obtain rfl := List.append_cancel_right he
      exact List.prefix_rfl
    · exact (List.prefix_append p [':']).trans h

theorem covers_of_stem (h : p <+: n) : Covers (p ++ ['*']) n := by
  by_cases hboth : (∃ q, p ++ ['*'] = q ++ [':', '*']) ∧ ∃ r, n = r ++ [':', '*']
  · obtain ⟨⟨q, hq⟩, r, rfl⟩ := hboth
    rw [List.append_cons q] at hq
    obtain rfl := List.append_cancel_right hq
    rw [List.append_assoc]
    exact covers_of_colonStar (initial_of_colon h)
  · have hb : stem? ['*'] (p ++ ['*']) = some p := stem?_eq_some_iff.mpr rfl
    unfold Covers covers ofChars
    rw [Bool.or_eq_true]
    right
    split
    · next q r hq hr =>
      exact absurd ⟨⟨q, stem?_eq_some_iff.mp hq⟩, r, stem?_eq_some_iff.mp hr⟩ hboth
    · simp [hb, h]

theorem covers_iff : Covers b n ↔ (∃ p, b = p ++ ['*'] ∧ p <+: n) ∨
    ∃ p q, b = p ++ [':', '*'] ∧ n = q ++ [':', '*'] ∧ p <+: q := by
  constructor
  · intro h
    rcases h.cases with rfl | hcolon | ⟨p, rfl, hp, _⟩
    · exact .inl ⟨[], rfl, List.nil_prefix⟩
    · exact .inr hcolon
    · exact .inl ⟨p, rfl, hp⟩
  · rintro (⟨p, rfl, hp⟩ | ⟨p, q, rfl, rfl, hpq⟩)
    · exact covers_of_stem hp
    · exact covers_of_colonStar hpq

/-- Of three patterns each covers the next one, and the last is of another kind than the first two. -/
structure Bridges (b m n : List Char) : Prop where
  first : Covers b m
  second : Covers m n
  broad : ∃ p, b = p ++ [':', '*']
  middle : ∃ p, m = p ++ [':', '*']
  narrow : ∀ p, n ≠ p ++ [':', '*']

theorem covers_or_bridges (hpq : p <+: q) (hqn : q ++ [':'] <+: n) :
    Covers (p ++ [':', '*']) n ∨ Bridges (p ++ [':', '*']) (q ++ [':', '*']) n := by
  by_cases hn : ∃ r, n = r ++ [':', '*']
  · obtain ⟨r, rfl⟩ := hn
    exact .inl (covers_of_colonStar (hpq.trans (initial_of_colon hqn)))
  · refine .inr ⟨covers_of_colonStar hpq, ?_, ⟨p, rfl⟩, ⟨q, rfl⟩, fun r hr => hn ⟨r, hr⟩⟩
    rw [List.append_cons q]
    exact covers_of_stem hqn

/-- Two steps are one unless they lead from patterns with a colon to one without. -/
theorem Covers.trans (hkb : Covers k b) (hbc : Covers b c) (hd : ¬ Doubles b k) :
    Covers k c ∨ Bridges k b c := by
  rcases covers_iff.mp hkb with ⟨p, rfl, hp⟩ | ⟨p, q, rfl, rfl, hpq⟩
  · left
    rcases covers_iff.mp hbc with ⟨q, rfl, hq⟩ | ⟨q, r, rfl, rfl, hqr⟩
    · rcases List.prefix_concat_iff.mp hp with rfl | hp
      · exact absurd ⟨q, rfl, by simp⟩ hd
      · exact covers_of_stem (hp.trans hq)
    · rw [List.append_cons q] at hp hd
      rcases List.prefix_concat_iff.mp hp with rfl | hp
      · exact absurd ⟨q ++ [':'], rfl, by simp⟩ hd
      · rcases List.prefix_concat_iff.mp hp with rfl | hp
        · rw [List.append_assoc]
          exact covers_of_colonStar hqr
        · exact covers_of_stem (hp.trans (hqr.trans (List.prefix_append _ _)))
  · rcases covers_iff.mp hbc with ⟨r, hr, hrc⟩ | ⟨r, s, hr, rfl, hrs⟩
    · rw [List.append_cons q] at hr
      obtain rfl := List.append_cancel_right hr
      exact covers_or_bridges hpq hrc
    · obtain rfl := List.append_cancel_right hr
      exact .inl (covers_of_colonStar (hpq.trans hrs))

theorem Bridges.trans (h : Bridges k m b) (hbc : Covers b c) : Covers k c ∨ Bridges k m c := by
  obtain ⟨hkm, hmb, ⟨p, rfl⟩, ⟨q, rfl⟩, hb⟩ := h
  have hpq : p <+: q := by
    rcases covers_iff.mp hkm with ⟨r, hr, hrq⟩ | ⟨r, s, hr, hs, hrs⟩
    · rw [List.append_cons p] at hr
      obtain rfl := List.append_cancel_right hr
      exact initial_of_colon hrq
    · rwa [List.append_cancel_right hr, List.append_cancel_right hs]
  have hqb : q ++ [':'] <+: b := by
    rcases covers_iff.mp hmb with ⟨r, hr, hrb⟩ | ⟨_, r, _, hr, _⟩
    · rw [List.append_cons q] at hr
      rwa [List.append_cancel_right hr]
    · exact absurd hr (hb r)
  rcases covers_iff.mp hbc with ⟨r, rfl, hrc⟩ | ⟨r, _, hr, _⟩
  · rcases List.prefix_concat_iff.mp hqb with he | hqr
    · have hlast := List.head_eq_of_cons_eq (List.append_inj' he rfl).2
      exact absurd hlast (by decide)
    · exact covers_or_bridges hpq (hqr.trans hrc)
  · exact absurd hr (hb r)

end Pattern

def Bridges (broad middle narrow : String) : Prop :=
  ∃ b m n, Clause.ofRule? broad = some b ∧ Clause.ofRule? middle = some m ∧
    Clause.ofRule? narrow = some n ∧ b.tool = m.tool ∧ m.tool = n.tool ∧
    Pattern.Bridges b.pattern.toList m.pattern.toList n.pattern.toList

variable {rules : List String} {kept middle rule : String}

theorem not_doubles_of_mem_reduce {k b : Clause} (hk : kept ∈ reduce rules) (hm : middle ∈ rules)
    (hkc : Clause.ofRule? kept = some k) (hbc : Clause.ofRule? middle = some b) (ht : k.tool = b.tool) :
    ¬ Pattern.Doubles b.pattern.toList k.pattern.toList := by
  intro hd
  have hcov : covers middle kept = true := covers_of_doubles hkc hbc ht hd
  have hle : ¬ kept < middle := by
    rw [← Clause.text_of_ofRule? hkc, ← Clause.text_of_ofRule? hbc]
    exact not_lt_of_doubles ht hd
  have hne : middle ≠ kept := by
    rintro rfl
    obtain rfl := Option.some.inj (hkc.symm.trans hbc)
    obtain ⟨p, hbp, hkp⟩ := hd
    have hlen := congrArg List.length (hbp.symm.trans hkp)
    simp only [List.length_append, List.length_cons, List.length_nil] at hlen
    omega
  exact (mem_reduce.mp hk).2 middle hm ⟨hcov, hne, fun _ => Ascending.lt_of_not_lt_of_ne hle hne.symm⟩

theorem covers_or_bridges (hk : kept ∈ reduce rules) (hm : middle ∈ rules)
    (hkm : covers kept middle = true) (hmr : covers middle rule = true) :
    covers kept rule = true ∨ Bridges kept middle rule := by
  obtain ⟨k, m, hkc, hmc, htk, hkm⟩ := covers_iff.mp hkm
  obtain ⟨m', r, hmc', hrc, htm, hmr⟩ := covers_iff.mp hmr
  obtain rfl : m' = m := Option.some.inj (hmc'.symm.trans hmc)
  rcases hkm.trans hmr (not_doubles_of_mem_reduce hk hm hkc hmc htk) with h | h
  · exact .inl (covers_iff.mpr ⟨k, r, hkc, hrc, htk.trans htm, h⟩)
  · exact .inr ⟨k, m', r, hkc, hmc, hrc, htk, htm, h⟩

theorem Bridges.trans {broad through : String} (h : Bridges broad middle through)
    (hc : covers through rule = true) : covers broad rule = true ∨ Bridges broad middle rule := by
  obtain ⟨b, m, n, hb, hm, hn, htb, htm, h⟩ := h
  obtain ⟨n', r, hn', hr, htn, hc⟩ := covers_iff.mp hc
  obtain rfl : n' = n := Option.some.inj (hn'.symm.trans hn)
  rcases h.trans hc with h | h
  · exact .inl (covers_iff.mpr ⟨b, r, hb, hr, (htb.trans htm).trans htn, h⟩)
  · exact .inr ⟨b, m, r, hb, hm, hr, htb, htm.trans htn, h⟩

theorem exists_kept {c : Clause} (h : rule ∈ rules) (hc : Clause.ofRule? rule = some c) :
    ∃ kept ∈ reduce rules, kept = rule ∨ covers kept rule = true ∨
      ∃ middle ∈ rules, Bridges kept middle rule := by
  -- A rule that supersedes another is lighter, so the chain of such rules ends in one that stays.
  induction hw : Pattern.weight c.pattern.toList using Nat.strongRecOn generalizing rule c with
  | _ w ih =>
      by_cases hs : ∃ b ∈ rules, Supersedes b rule
      · obtain ⟨b, hb, hbr⟩ := hs
        obtain ⟨d, hd, _, hlt, _⟩ := hbr.clause hc
        obtain ⟨kept, hk, rfl | hcov | ⟨middle, hm, hbridge⟩⟩ := ih _ (hw ▸ hlt) hb hd rfl
        · exact ⟨kept, hk, .inr (.inl hbr.1)⟩
        · rcases covers_or_bridges hk hb hcov hbr.1 with hcov | hbridge
          · exact ⟨kept, hk, .inr (.inl hcov)⟩
          · exact ⟨kept, hk, .inr (.inr ⟨b, hb, hbridge⟩)⟩
        · rcases hbridge.trans hbr.1 with hcov | hbridge
          · exact ⟨kept, hk, .inr (.inl hcov)⟩
          · exact ⟨kept, hk, .inr (.inr ⟨middle, hm, hbridge⟩)⟩
      · exact ⟨rule, mem_reduce.mpr ⟨h, fun b hb hbr => hs ⟨b, hb, hbr⟩⟩, .inl rfl⟩

/-- A rule that does not stay is covered by one that does, or in two steps by way of another one. -/
theorem reduce_covers (lists : List (List String)) : ∀ rule ∈ lists.flatten,
    rule ∈ reduce lists.flatten ∨ ∃ kept ∈ reduce lists.flatten, covers kept rule = true ∨
      ∃ middle ∈ lists.flatten, Bridges kept middle rule := by
  intro rule h
  cases hc : Clause.ofRule? rule with
  | none => exact .inl (mem_reduce_of_ofRule?_eq_none h hc)
  | some c =>
      obtain ⟨kept, hk, rfl | hcov | hbridge⟩ := exists_kept h hc
      · exact .inl hk
      · exact .inr ⟨kept, hk, .inl hcov⟩
      · exact .inr ⟨kept, hk, .inr hbridge⟩

def gitLists : List (List String) :=
  [["Bash(git:*)", "Bash(git commit:x)"], ["Bash(git commit:*)"]]

theorem reduce_gitLists : reduce gitLists.flatten = ["Bash(git:*)"] := by decide

theorem reduce_covers_git : "Bash(git commit:x)" ∈ gitLists.flatten ∧
    "Bash(git commit:x)" ∉ reduce gitLists.flatten ∧
    ∃ middle ∈ gitLists.flatten, Bridges "Bash(git:*)" middle "Bash(git commit:x)" := by
  have hm : "Bash(git commit:x)" ∈ gitLists.flatten := by decide
  have hout : "Bash(git commit:x)" ∉ reduce gitLists.flatten := by
    rw [reduce_gitLists]
    decide
  rcases reduce_covers gitLists _ hm with h | ⟨kept, hk, hkept⟩
  · exact absurd h hout
  · rw [reduce_gitLists, List.mem_singleton] at hk
    subst hk
    exact ⟨hm, hout, hkept.resolve_left (by decide)⟩

theorem not_covered_by_kept : ¬ ∀ (lists : List (List String)), ∀ rule ∈ lists.flatten,
    rule ∈ reduce lists.flatten ∨ ∃ kept ∈ reduce lists.flatten, covers kept rule = true := by
  intro h
  have hgit := h gitLists "Bash(git commit:x)" (by decide)
  rw [reduce_gitLists] at hgit
  revert hgit
  decide

end PluginConsent.Rule
