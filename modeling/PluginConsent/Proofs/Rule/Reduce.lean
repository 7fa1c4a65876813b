import PluginConsent.Proofs.Index
import PluginConsent.Proofs.Rule.Cover
import PluginConsent.Rule.Reduce

namespace PluginConsent

theorem Clause.text_of_ofRule? {rule : String} {c : Clause} (h : ofRule? rule = some c) :
    c.text = rule := by
  have hparts := List.takeWhile_append_dropWhile (p := (· != '(')) (l := rule.toList)
  have hhead := List.head?_dropWhile_not (· != '(') rule.toList
  unfold ofRule? at h
  split at h
  · next o body hd =>
    obtain ⟨⟨_, _, hlast⟩, hc⟩ := Option.ite_none_right_eq_some.mp h
    cases hc
    have ho : o = '(' := by simpa [hd] using hhead
    obtain ⟨pattern, rfl⟩ := List.getLast?_eq_some_iff.mp hlast
    refine String.toList_inj.mp (Eq.trans ?_ hparts)
    rw [hd, ho]
    simp [text]
  · exact absurd h (by simp)

theorem Clause.pattern_ne {rule rule' : String} {c c' : Clause} (h : ofRule? rule = some c)
    (h' : ofRule? rule' = some c') (ht : c.tool = c'.tool) (hne : rule ≠ rule') :
    c.pattern.toList ≠ c'.pattern.toList := by
  intro he
  apply hne
  rw [← text_of_ofRule? h, ← text_of_ofRule? h', text, text, ht, String.toList_inj.mp he]

namespace Rule

theorem covers_iff {broad narrow : String} : covers broad narrow = true ↔
    ∃ b n, Clause.ofRule? broad = some b ∧ Clause.ofRule? narrow = some n ∧ b.tool = n.tool ∧
      Pattern.Covers b.pattern.toList n.pattern.toList := by
  unfold covers Form.covers Form.ofRule Pattern.Covers
  cases Clause.ofRule? broad <;> cases Clause.ofRule? narrow <;> simp

theorem covers_of_doubles {broad narrow : String} {b n : Clause} (hb : Clause.ofRule? broad = some b)
    (hn : Clause.ofRule? narrow = some n) (ht : b.tool = n.tool)
    (hd : Pattern.Doubles n.pattern.toList b.pattern.toList) : covers narrow broad = true := by
  obtain ⟨p, hnp, hbp⟩ := hd
  refine covers_iff.mpr ⟨n, b, hn, hb, ht.symm, ?_⟩
  rw [hnp, hbp]
  exact Pattern.covers_append_star

def Supersedes (broad narrow : String) : Prop :=
  covers broad narrow = true ∧ broad ≠ narrow ∧ (covers narrow broad = true → broad < narrow)

theorem supersedes_ofRule {broad narrow : String} :
    (Form.ofRule broad).supersedes (Form.ofRule narrow) = true ↔ Supersedes broad narrow := by
  have hrule (r : String) : (Form.ofRule r).rule = r := rfl
  simp only [Form.supersedes, hrule, Bool.and_eq_true, bne_iff_ne, Bool.or_eq_true,
    Bool.not_eq_true', decide_eq_true_eq, Supersedes, covers, and_assoc]
  cases (Form.ofRule narrow).covers (Form.ofRule broad) <;> simp

theorem mem_reduce {rules : List String} {rule : String} :
    rule ∈ reduce rules ↔ rule ∈ rules ∧ ∀ b ∈ rules, ¬ Supersedes b rule := by
  have hrule (r : String) : (Form.ofRule r).rule = r := rfl
  simp only [reduce, List.mem_map, List.mem_filter, Bool.not_eq_true', List.any_eq_false,
    Ascending.mem_ofList]
  constructor
  · rintro ⟨_, ⟨⟨r, hr, rfl⟩, hs⟩, rfl⟩
    refine ⟨hr, fun b hb hbr => ?_⟩
    exact hs (Form.ofRule b) ⟨b, hb, rfl⟩ (supersedes_ofRule.mpr hbr)
  · rintro ⟨hr, hs⟩
    refine ⟨Form.ofRule rule, ⟨⟨rule, hr, rfl⟩, ?_⟩, rfl⟩
    rintro _ ⟨b, hb, rfl⟩ hbr
    exact hs b hb (supersedes_ofRule.mp hbr)

theorem reduce_congr {rules rules' : List String} (h : ∀ r, r ∈ rules ↔ r ∈ rules') :
    reduce rules = reduce rules' := by
  rw [reduce, reduce, Ascending.ofList_congr h]

theorem mem_reduce_of_ofRule?_eq_none {rules : List String} {rule : String} (h : rule ∈ rules)
    (hc : Clause.ofRule? rule = none) : rule ∈ reduce rules := by
  refine mem_reduce.mpr ⟨h, fun b _ hb => ?_⟩
  obtain ⟨_, _, _, hn, _⟩ := covers_iff.mp hb.1
  rw [hc] at hn
  exact Option.some_ne_none _ hn.symm

/-- The parenthesis at the end of a rule comes before a star, so the rule with more stars is the
larger one. -/
theorem not_lt_of_doubles {b n : Clause} (ht : b.tool = n.tool)
    (hd : Pattern.Doubles n.pattern.toList b.pattern.toList) : ¬ b.text < n.text := by
  obtain ⟨p, hn, hb⟩ := hd
  intro hlt
  refine String.lt_asymm hlt ?_
  rw [String.lt_iff]
  simp only [Clause.text, String.toList_append, ht, hn, hb, List.append_assoc]
  refine List.append_left_lt (List.append_left_lt (List.append_left_lt ?_))
  decide

theorem Supersedes.clause {broad narrow : String} {n : Clause} (h : Supersedes broad narrow)
    (hn : Clause.ofRule? narrow = some n) :
    ∃ b, Clause.ofRule? broad = some b ∧ b.tool = n.tool ∧
      Pattern.weight b.pattern.toList < Pattern.weight n.pattern.toList ∧
      ∀ s, PatternMatches n.pattern.toList s → PatternMatches b.pattern.toList s := by
  obtain ⟨hcov, hne, htie⟩ := h
  obtain ⟨b, n', hb, hn', ht, hc⟩ := covers_iff.mp hcov
  obtain rfl : n' = n := Option.some.inj (hn'.symm.trans hn)
  have hd : ¬ Pattern.Doubles n'.pattern.toList b.pattern.toList := by
    intro hd
    have hlt := htie (covers_of_doubles hb hn ht hd)
    rw [← Clause.text_of_ofRule? hb, ← Clause.text_of_ofRule? hn] at hlt
    exact not_lt_of_doubles ht hd hlt
  have hpat := Clause.pattern_ne hb hn ht hne
  exact ⟨b, hb, ht, hc.weight_lt hpat hd, fun s => hc.patternMatches hd⟩

theorem exists_mem_reduce {rules : List String} {rule : String} {c : Clause} (h : rule ∈ rules)
    (hc : Clause.ofRule? rule = some c) :
    ∃ kept ∈ reduce rules, ∃ k, Clause.ofRule? kept = some k ∧ k.tool = c.tool ∧
      ∀ s, PatternMatches c.pattern.toList s → PatternMatches k.pattern.toList s := by
  -- A rule that does not stay has a lighter one that supersedes it.
  induction hw : Pattern.weight c.pattern.toList using Nat.strongRecOn generalizing rule c with
  | _ w ih =>
      by_cases hs : ∃ b ∈ rules, Supersedes b rule
      · obtain ⟨b, hb, hbr⟩ := hs
        obtain ⟨d, hd, ht, hlt, hall⟩ := hbr.clause hc
        obtain ⟨kept, hk, k, hkc, hkt, hkall⟩ := ih _ (hw ▸ hlt) hb hd rfl
        exact ⟨kept, hk, k, hkc, hkt.trans ht, fun s hm => hkall s (hall s hm)⟩
      · have hm : rule ∈ reduce rules := mem_reduce.mpr ⟨h, fun b hb hbr => hs ⟨b, hb, hbr⟩⟩
        exact ⟨rule, hm, c, hc, rfl, fun _ => id⟩

/-- What rules permit together, before and after they are reduced; a rule without a meaning stays. -/
theorem permits_reduce (lists : List (List String)) :
    (∀ tool argument, (∃ r ∈ lists.flatten, Permits r tool argument) ↔
      ∃ r ∈ reduce lists.flatten, Permits r tool argument) ∧
    ∀ r ∈ lists.flatten, Clause.ofRule? r = none → r ∈ reduce lists.flatten := by
  refine ⟨fun tool argument => ⟨?_, ?_⟩, fun r => mem_reduce_of_ofRule?_eq_none⟩
  · rintro ⟨r, hr, c, hc, rfl, hm⟩
    obtain ⟨kept, hk, k, hkc, hkt, hall⟩ := exists_mem_reduce hr hc
    exact ⟨kept, hk, k, hkc, hkt, hall _ hm⟩
  · rintro ⟨r, hr, hp⟩
    exact ⟨r, (mem_reduce.mp hr).1, hp⟩

theorem permits_reduce_git :
    (∃ r ∈ reduce [["Bash(git:**)", "see below"], ["Bash(git:*)"]].flatten,
      Permits r "Bash" "git push") ∧
    "see below" ∈ reduce [["Bash(git:**)", "see below"], ["Bash(git:*)"]].flatten := by
  have h := permits_reduce [["Bash(git:**)", "see below"], ["Bash(git:*)"]]
  have hgit : Permits "Bash(git:*)" "Bash" "git push" := by
    refine ⟨⟨"Bash", "git:*"⟩, by decide, rfl, ?_⟩
    have hmatch : GlobMatches ['g', 'i', 't'] ['g', 'i', 't'] :=
      .char (by decide) (.char (by decide) (.char (by decide) .nil))
    exact patternMatches_colonStar.mpr ⟨_, " push".toList, rfl, hmatch⟩
  exact ⟨(h.1 _ _).mp ⟨_, by simp, hgit⟩, h.2 _ (by simp) (by decide)⟩

end Rule

end PluginConsent
