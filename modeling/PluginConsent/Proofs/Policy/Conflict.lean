import PluginConsent.Proofs.Policy.Effective

namespace PluginConsent

namespace Conflict

def swap (c : Conflict) : Conflict := ⟨c.rule, c.proposed, c.current, c.category⟩

theorem mem_map_swap {c : Conflict} {cs : List Conflict} : c ∈ cs.map swap ↔ c.swap ∈ cs := by
  rw [List.mem_map]
  constructor
  · rintro ⟨c', hc', rfl⟩
    exact hc'
  · exact fun h => ⟨c.swap, h, rfl⟩

theorem map_rule_swap (cs : List Conflict) : (cs.map swap).map rule = cs.map rule :=
  List.map_map

end Conflict

namespace Policy

variable {p q : Policy} {rule : String} {a : Action}

theorem exists_strictest (h : rule ∈ p.rules a) :
    ∃ b, Action.Strictest (fun b => rule ∈ p.rules b) b := by
  cases he : p.effective? rule with
  | none => exact absurd h (effective?_eq_none_iff.mp he a)
  | some b => exact ⟨b, effective?_eq_some_iff.mp he⟩

theorem mem_map_rule_conflicts : rule ∈ (p.conflicts q).map Conflict.rule ↔
    ∃ a b, Action.Strictest (fun a => rule ∈ p.rules a) a ∧
      Action.Strictest (fun b => rule ∈ q.rules b) b ∧ a ≠ b := by
  simp only [← effective?_eq_some_iff]
  rw [List.mem_map]
  constructor
  · rintro ⟨c, hc, rfl⟩
    obtain ⟨hcurrent, hproposed, hne, _⟩ := mem_conflicts.mp hc
    exact ⟨_, _, hcurrent, hproposed, hne⟩
  · rintro ⟨a, b, ha, hb, hne⟩
    exact ⟨⟨rule, a, b, Category.guess rule⟩, mem_conflicts.mpr ⟨ha, hb, hne, rfl⟩, rfl⟩

theorem mem_conflicts_swap {c : Conflict} : c ∈ q.conflicts p ↔ c.swap ∈ p.conflicts q := by
  rw [mem_conflicts, mem_conflicts]
  exact ⟨fun ⟨hq, hp, hne, hc⟩ => ⟨hp, hq, hne.symm, hc⟩, fun ⟨hp, hq, hne, hc⟩ => ⟨hq, hp, hne.symm, hc⟩⟩

theorem conflicts_swap (p q : Policy) : q.conflicts p = (p.conflicts q).map Conflict.swap := by
  refine Ascending.eq_of_mem_iff (conflicts_ascending q p) ?_ fun c => ?_
  · rw [Conflict.map_rule_swap]
    exact conflicts_ascending p q
  · rw [Conflict.mem_map_swap, mem_conflicts_swap]

theorem conflicts_self (p : Policy) : p.conflicts p = [] := by
  refine List.eq_nil_iff_forall_not_mem.mpr fun c hc => ?_
  obtain ⟨hcurrent, hproposed, hne, _⟩ := mem_conflicts.mp hc
  rw [hcurrent] at hproposed
  exact hne (Option.some.inj hproposed)

/-- There is one conflict for each rule that both policies list and on which the most restrictive actions
differ, with these two actions, in order of the rules. From the other side the same conflicts are seen with
their actions exchanged, and a policy has none with itself. -/
theorem conflicts_exact_and_symmetric (p q : Policy) :
    IsAscending ((p.conflicts q).map Conflict.rule) ∧
    (∀ rule, rule ∈ (p.conflicts q).map Conflict.rule ↔
      (∃ a, rule ∈ p.rules a) ∧ (∃ b, rule ∈ q.rules b) ∧
        ∀ a b, Action.Strictest (fun a => rule ∈ p.rules a) a →
          Action.Strictest (fun b => rule ∈ q.rules b) b → a ≠ b) ∧
    (∀ c ∈ p.conflicts q, Action.Strictest (fun a => c.rule ∈ p.rules a) c.current ∧
      Action.Strictest (fun b => c.rule ∈ q.rules b) c.proposed) ∧
    q.conflicts p = (p.conflicts q).map Conflict.swap ∧
    p.conflicts p = [] := by
  refine ⟨conflicts_ascending p q, fun rule => ?_, fun c hc => ?_, conflicts_swap p q, conflicts_self p⟩
  · rw [mem_map_rule_conflicts]
    constructor
    · rintro ⟨a, b, ha, hb, hne⟩
      refine ⟨⟨a, ha.1⟩, ⟨b, hb.1⟩, fun a' b' ha' hb' => ?_⟩
      rwa [ha'.unique ha, hb'.unique hb]
    · rintro ⟨⟨_, ha⟩, ⟨_, hb⟩, hne⟩
      obtain ⟨a, ha⟩ := exists_strictest ha
      obtain ⟨b, hb⟩ := exists_strictest hb
      exact ⟨a, b, ha, hb, hne a b ha hb⟩
  · obtain ⟨hcurrent, hproposed, _, _⟩ := mem_conflicts.mp hc
    exact ⟨effective?_eq_some_iff.mp hcurrent, effective?_eq_some_iff.mp hproposed⟩

end Policy

end PluginConsent
