import PluginConsent.Proofs.Rule.Bridge
import PluginConsent.Proofs.Rule.Canonical

namespace PluginConsent.Rule

namespace Pattern

variable {b n : List Char}

theorem covers_of_doubles (h : Doubles b n) : Covers b n ∧ Covers n b := by
  obtain ⟨p, rfl, rfl⟩ := h
  have hlonger : Covers (p ++ ['*'] ++ ['*']) (p ++ ['*']) := covers_of_stem List.prefix_rfl
  rw [List.append_assoc] at hlonger
  exact ⟨covers_append_star, hlonger⟩

theorem covers_mutually_iff (hne : b ≠ n) : Covers b n ∧ Covers n b ↔ Doubles b n ∨ Doubles n b := by
  constructor
  · rintro ⟨hbn, hnb⟩
    by_contra h
    rw [not_or] at h
    exact Nat.lt_asymm (hbn.weight_lt hne h.2) (hnb.weight_lt hne.symm h.1)
  · rintro (h | h)
    · exact covers_of_doubles h
    · exact (covers_of_doubles h).symm

theorem Covers.of_doubles {q : List Char} (h : Covers n q) (hd : Doubles b n) : Covers b q := by
  obtain ⟨p, rfl, rfl⟩ := hd
  rcases covers_iff.mp h with ⟨r, hr, hq⟩ | ⟨r, _, hr, _⟩
  · rw [List.append_cons p] at hr
    obtain rfl := List.append_cancel_right hr
    exact covers_of_stem ((List.prefix_append p ['*']).trans hq)
  · exact absurd hr (doubled_ne_colonStar p r)

end Pattern

/-- Two rules of one tool, the second with one more star behind a star at the end of the pattern. -/
def Starred (shorter longer : String) : Prop :=
  ∃ b n, Clause.ofRule? shorter = some b ∧ Clause.ofRule? longer = some n ∧ b.tool = n.tool ∧
    Pattern.Doubles b.pattern.toList n.pattern.toList

variable {r s narrow : String} {rules : List String}

theorem Starred.ne (h : Starred r s) : r ≠ s := by
  rintro rfl
  obtain ⟨b, n, hb, hn, _, p, hbp, hnp⟩ := h
  obtain rfl := Option.some.inj (hb.symm.trans hn)
  have hlen := congrArg List.length (hbp.symm.trans hnp)
  simp at hlen

theorem Starred.covers (h : Starred r s) : covers r s = true ∧ covers s r = true := by
  obtain ⟨b, n, hb, hn, ht, hd⟩ := h
  obtain ⟨hbn, hnb⟩ := Pattern.covers_of_doubles hd
  exact ⟨covers_iff.mpr ⟨b, n, hb, hn, ht, hbn⟩, covers_iff.mpr ⟨n, b, hn, hb, ht.symm, hnb⟩⟩

theorem covers_mutually_iff (hne : r ≠ s) :
    covers r s = true ∧ covers s r = true ↔ Starred r s ∨ Starred s r := by
  constructor
  · rintro ⟨hrs, hsr⟩
    obtain ⟨b, n, hb, hn, ht, hbn⟩ := covers_iff.mp hrs
    obtain ⟨n', b', hn', hb', _, hnb⟩ := covers_iff.mp hsr
    obtain rfl : n' = n := Option.some.inj (hn'.symm.trans hn)
    obtain rfl : b' = b := Option.some.inj (hb'.symm.trans hb)
    have hpat := Clause.pattern_ne hb hn ht hne
    rcases (Pattern.covers_mutually_iff hpat).mp ⟨hbn, hnb⟩ with hd | hd
    · exact .inl ⟨b', n', hb, hn, ht, hd⟩
    · exact .inr ⟨n', b', hn, hb, ht.symm, hd⟩
  · rintro (h | h)
    · exact h.covers
    · exact h.covers.symm

theorem Starred.supersedes (h : Starred r s) : Supersedes r s := by
  rcases supersedes_or_supersedes h.ne h.covers.1 with hrs | ⟨_, _, hlt⟩
  · exact hrs
  · have hsr := hlt h.covers.1
    obtain ⟨b, n, hb, hn, ht, hd⟩ := h
    rw [← Clause.text_of_ofRule? hb, ← Clause.text_of_ofRule? hn] at hsr
    exact absurd hsr (not_lt_of_doubles ht.symm hd)

theorem Supersedes.asymm (h : Supersedes r s) : ¬ Supersedes s r := fun h' =>
  String.lt_asymm (h.2.2 h'.1) (h'.2.2 h.1)

theorem not_supersedes_circle (hrs : Supersedes r s) (hsn : Supersedes s narrow) :
    ¬ Supersedes narrow r := by
  intro hnr
  obtain ⟨_, _, _, hr, _⟩ := covers_iff.mp hnr.1
  obtain ⟨n, hn, _, hlt, _⟩ := hnr.clause hr
  obtain ⟨m, hm, _, hlt', _⟩ := hsn.clause hn
  obtain ⟨r', hr', _, hlt'', _⟩ := hrs.clause hm
  obtain rfl := Option.some.inj (hr.symm.trans hr')
  omega

theorem Starred.supersedes_narrow (h : Starred r s) (hs : Supersedes s narrow) :
    Supersedes r narrow := by
  have hcov : Rule.covers r narrow = true := by
    obtain ⟨b, n, hb, hn, ht, hd⟩ := h
    obtain ⟨n', c, hn', hc, ht', hnc⟩ := covers_iff.mp hs.1
    obtain rfl : n' = n := Option.some.inj (hn'.symm.trans hn)
    exact covers_iff.mpr ⟨b, c, hb, hc, ht.trans ht', hnc.of_doubles hd⟩
  have hne : r ≠ narrow := by
    rintro rfl
    exact h.supersedes.asymm hs
  exact (supersedes_or_supersedes hne hcov).resolve_right (not_supersedes_circle h.supersedes hs)

theorem Starred.reduce_cons (h : Starred r s) (hr : r ∈ rules) :
    s ∉ reduce rules ∧ reduce (s :: rules) = reduce rules := by
  have hout (rs : List String) (hr : r ∈ rs) : s ∉ reduce rs := fun hs =>
    (mem_reduce.mp hs).2 r hr h.supersedes
  refine ⟨hout rules hr, ?_⟩
  refine List.Pairwise.eq_of_mem_iff (isAscending_reduce _) (isAscending_reduce _) fun x => ?_
  by_cases hx : x = s
  · rw [hx]
    exact iff_of_false (hout _ (List.mem_cons_of_mem s hr)) (hout rules hr)
  · simp only [mem_reduce, List.mem_cons, hx, false_or, forall_eq_or_imp, and_congr_right_iff,
      and_iff_right_iff_imp]
    exact fun _ hall hsx => hall r hr (h.supersedes_narrow hsx)

/-- Different rules cover each other exactly if one of them is the other with one more star. Then the shorter
one supersedes the longer one, which does not supersede it; and where the shorter one is among the rules, the
longer one is not kept and makes no difference to what is. -/
theorem mutual_cover_is_one_star (hne : r ≠ s) :
    (covers r s = true ∧ covers s r = true ↔ Starred r s ∨ Starred s r) ∧
    (Starred r s → (Form.ofRule r).supersedes (Form.ofRule s) = true ∧
      (Form.ofRule s).supersedes (Form.ofRule r) = false ∧
      ∀ rules, r ∈ rules → s ∉ reduce rules ∧ reduce (s :: rules) = reduce rules) := by
  refine ⟨covers_mutually_iff hne, fun h => ?_⟩
  have hback : (Form.ofRule s).supersedes (Form.ofRule r) = false := by
    rw [Bool.eq_false_iff]
    exact fun hsr => h.supersedes.asymm (supersedes_ofRule.mp hsr)
  exact ⟨supersedes_ofRule.mpr h.supersedes, hback, fun rules hr => h.reduce_cons hr⟩

theorem mutual_cover_is_one_star_read : "Read(a*)" ≠ "Read(a**)" ∧
    (covers "Read(a*)" "Read(a**)" = true ∧ covers "Read(a**)" "Read(a*)" = true) ∧
    "Read(a**)" ∉ reduce ["Read(a*)", "Edit(*)"] ∧
    reduce ["Read(a**)", "Read(a*)", "Edit(*)"] = ["Edit(*)", "Read(a*)"] := by
  have hne : "Read(a*)" ≠ "Read(a**)" := by decide
  have hstarred : Starred "Read(a*)" "Read(a**)" :=
    ⟨⟨"Read", "a*"⟩, ⟨"Read", "a**"⟩, by decide, by decide, rfl, ['a'], by decide, by decide⟩
  obtain ⟨hcover, hkeep⟩ := mutual_cover_is_one_star hne
  obtain ⟨_, _, hreduce⟩ := hkeep hstarred
  obtain ⟨hout, hsame⟩ := hreduce ["Read(a*)", "Edit(*)"] (by simp)
  exact ⟨hne, hcover.mpr (.inl hstarred), hout, hsame.trans (by decide)⟩

end PluginConsent.Rule
