import PluginConsent.Proofs.Rule.Reduce

namespace PluginConsent.Rule

variable {rules : List String} {r s : String}

structure Reduced (rules : List String) : Prop where
  ascending : IsAscending rules
  apart : ∀ r ∈ rules, ∀ s ∈ rules, r ≠ s → covers r s = false

theorem isAscending_reduce (rules : List String) : IsAscending (reduce rules) := by
  have hrule : Form.rule ∘ Form.ofRule = id := rfl
  have hsub : (reduce rules).Sublist (((Ascending.ofList rules).map Form.ofRule).map Form.rule) :=
    List.Sublist.map Form.rule List.filter_sublist
  rw [List.map_map, hrule, List.map_id] at hsub
  exact List.Pairwise.sublist hsub (Ascending.isAscending_ofList rules)

theorem reduce_subset (rules : List String) : reduce rules ⊆ rules :=
  fun _ h => (mem_reduce.mp h).1

theorem supersedes_or_supersedes (hne : r ≠ s) (h : covers r s = true) :
    Supersedes r s ∨ Supersedes s r := by
  by_cases hback : covers s r = true
  · by_cases hlt : r < s
    · exact .inl ⟨h, hne, fun _ => hlt⟩
    · exact .inr ⟨hback, hne.symm, fun _ => Ascending.lt_of_not_lt_of_ne hlt hne⟩
  · exact .inl ⟨h, hne, fun hcov => absurd hcov hback⟩

theorem reduced_reduce (rules : List String) : Reduced (reduce rules) := by
  refine ⟨isAscending_reduce rules, fun r hr s hs hne => ?_⟩
  obtain ⟨hrm, hrs⟩ := mem_reduce.mp hr
  obtain ⟨hsm, hss⟩ := mem_reduce.mp hs
  rw [Bool.eq_false_iff]
  intro hcov
  rcases supersedes_or_supersedes hne hcov with h | h
  · exact hss r hrm h
  · exact hrs s hsm h

theorem Reduced.reduce_eq (h : Reduced rules) : reduce rules = rules := by
  refine List.Pairwise.eq_of_mem_iff (isAscending_reduce rules) h.ascending fun r => ?_
  rw [mem_reduce]
  refine and_iff_left_of_imp fun hr b hb hbr => ?_
  exact absurd hbr.1 (Bool.eq_false_iff.mp (h.apart b hb r hr hbr.2.1))

theorem reduce_eq_self_iff : reduce rules = rules ↔ Reduced rules :=
  ⟨fun h => h ▸ reduced_reduce rules, Reduced.reduce_eq⟩

/-- Reducing takes lists of rules to a reduced list of some of them, which depends on nothing but which
rules they hold, and which is all that is left to reduce. -/
theorem reduce_canonical (lists : List (List String)) :
    Reduced (reduce lists.flatten) ∧ reduce lists.flatten ⊆ lists.flatten ∧
    (∀ lists' : List (List String), (∀ r, r ∈ lists.flatten ↔ r ∈ lists'.flatten) →
      reduce lists.flatten = reduce lists'.flatten) ∧
    reduce [reduce lists.flatten].flatten = reduce lists.flatten := by
  refine ⟨reduced_reduce _, reduce_subset _, fun lists' h => reduce_congr h, ?_⟩
  rw [List.flatten_singleton]
  exact reduce_eq_self_iff.mpr (reduced_reduce _)

def doubled : List (List String) := [["Read(a**)", "Bash(git:*)"], ["Read(a*)"]]

def regrouped : List (List String) := [["Read(a*)", "Read(a**)", "Read(a*)"], [], ["Bash(git:*)"]]

theorem reduce_canonical_doubled : (∀ r, r ∈ doubled.flatten ↔ r ∈ regrouped.flatten) ∧
    reduce doubled.flatten = reduce regrouped.flatten := by
  have hsame : ∀ r, r ∈ doubled.flatten ↔ r ∈ regrouped.flatten := by
    intro r
    simp only [doubled, regrouped, List.flatten_cons, List.flatten_nil, List.mem_append, List.mem_cons,
      List.not_mem_nil]
    tauto
  exact ⟨hsame, (reduce_canonical doubled).2.2.1 regrouped hsame⟩

end PluginConsent.Rule
