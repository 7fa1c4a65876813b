import PluginConsent.Policy.Conflict
import PluginConsent.Proofs.Index

namespace PluginConsent

namespace Action

def stricter (a b : Action) : Action := if a < b then b else a

def strictest? (allow ask deny : Bool) : Option Action :=
  if deny then some .deny else if ask then some .ask else if allow then some .allow else none

def Strictest (s : Action → Prop) (a : Action) : Prop := s a ∧ ∀ b, s b → ¬ a < b

def Mildest (s : Action → Prop) (a : Action) : Prop := s a ∧ ∀ b, s b → ¬ b < a

theorem eq_of_not_lt {a b : Action} (h : ¬ a < b) (h' : ¬ b < a) : a = b := by
  have hp : a.priority = b.priority := Nat.le_antisymm (Nat.not_lt.mp h') (Nat.not_lt.mp h)
  cases a <;> cases b <;> simp_all [priority]

theorem Strictest.unique {s : Action → Prop} {a b : Action} (h : Strictest s a)
    (h' : Strictest s b) : a = b := eq_of_not_lt (h.2 b h'.1) (h'.2 a h.1)

theorem Mildest.unique {s : Action → Prop} {a b : Action} (h : Mildest s a) (h' : Mildest s b) :
    a = b := eq_of_not_lt (h'.2 a h.1) (h.2 b h'.1)

theorem strictest?_or (allow ask deny allow' ask' deny' : Bool) :
    strictest? (allow || allow') (ask || ask') (deny || deny') =
      Option.merge stricter (strictest? allow ask deny) (strictest? allow' ask' deny') := by
  revert allow ask deny allow' ask' deny'
  decide

theorem strictest?_eq_some_iff {f : Action → Bool} {a : Action} :
    strictest? (f .allow) (f .ask) (f .deny) = some a ↔ Strictest (fun a => f a = true) a := by
  have hall (P : Action → Prop) : (∀ b, P b) ↔ P .allow ∧ P .ask ∧ P .deny :=
    ⟨fun h => ⟨h _, h _, h _⟩, fun ⟨ha, hk, hd⟩ b => by cases b <;> assumption⟩
  have hlt (a b : Action) : a < b ↔ a.priority < b.priority := .rfl
  rw [Strictest, hall]
  cases hd : f .deny <;> cases hk : f .ask <;> cases ha : f .allow <;> cases a <;>
    simp [strictest?, hlt, priority, hd, hk, ha]

end Action

namespace Policy

theorem effective?_eq (p : Policy) (rule : String) : p.effective? rule =
    Action.strictest? (rule ∈ p.rules .allow) (rule ∈ p.rules .ask) (rule ∈ p.rules .deny) := by
  by_cases hd : rule ∈ p.rules .deny <;> by_cases hk : rule ∈ p.rules .ask <;>
    by_cases ha : rule ∈ p.rules .allow <;>
      simp [effective?, Action.all, Action.strictest?, hd, hk, ha]

theorem effective?_eq_some_iff {p : Policy} {rule : String} {a : Action} :
    p.effective? rule = some a ↔ Action.Strictest (fun a => rule ∈ p.rules a) a := by
  rw [effective?_eq, Action.strictest?_eq_some_iff (f := fun a => rule ∈ p.rules a)]
  simp only [decide_eq_true_eq]

theorem effective?_eq_none_iff {p : Policy} {rule : String} :
    p.effective? rule = none ↔ ∀ a, rule ∉ p.rules a := by
  simp only [effective?, List.find?_eq_none, List.mem_reverse, decide_eq_true_eq]
  exact ⟨fun h a => h a (Action.mem_all a), fun h a _ => h a⟩

theorem effective?_union {p q r : Policy} {rule : String}
    (h : ∀ a, rule ∈ r.rules a ↔ rule ∈ p.rules a ∨ rule ∈ q.rules a) :
    r.effective? rule = Option.merge Action.stricter (p.effective? rule) (q.effective? rule) := by
  simp only [effective?_eq, h, Bool.decide_or, Action.strictest?_or]

theorem find?_decisions (p : Policy) (rule : String) :
    Entries.find? rule p.decisions = p.effective? rule := by
  have hfiled : p.filed.map (fun f => (f.2, f.1)) =
      (p.rules .allow).map (fun r => (r, Action.allow)) ++
        ((p.rules .ask).map (fun r => (r, Action.ask)) ++
          (p.rules .deny).map fun r => (r, Action.deny)) := by
    simp [filed, Action.all, Function.comp_def]
  rw [decisions, Index.ofList, hfiled, List.foldl_append, List.foldl_append,
    Index.find?_foldl_put_map, Index.find?_foldl_put_map, Index.find?_foldl_put_map, effective?_eq]
  simp only [Action.strictest?, decide_eq_true_eq]
  rfl

theorem decisions_ascending (p : Policy) : IsAscending (Entries.keys p.decisions) :=
  Index.ofList_ascending _

theorem mem_decisions {p : Policy} {rule : String} {a : Action} :
    (rule, a) ∈ p.decisions ↔ p.effective? rule = some a := by
  rw [← find?_decisions]
  exact ⟨Entries.find?_of_mem (Ascending.nodup_of_isAscending p.decisions_ascending),
    Entries.mem_of_find?⟩

def conflict? (current : Option Action) (rule : String) (proposed : Action) : Option Conflict :=
  current.bind fun a =>
    if a = proposed then none else some ⟨rule, a, proposed, Category.guess rule⟩

theorem conflicts_eq (current proposed : Policy) : current.conflicts proposed =
    proposed.decisions.filterMap fun d => conflict? (current.effective? d.1) d.1 d.2 := by
  simp only [conflicts, find?_decisions, conflict?]

theorem conflict?_eq_some_iff {current : Option Action} {rule : String} {proposed : Action}
    {c : Conflict} : conflict? current rule proposed = some c ↔ c.rule = rule ∧ c.proposed = proposed ∧
      current = some c.current ∧ c.current ≠ proposed ∧ c.category = Category.guess rule := by
  rw [conflict?, Option.bind_eq_some_iff]
  constructor
  · rintro ⟨a, ha, hc⟩
    split at hc
    · cases hc
    · next hne =>
      cases hc
      exact ⟨rfl, rfl, ha, hne, rfl⟩
  · rintro ⟨rfl, rfl, ha, hne, hcategory⟩
    exact ⟨c.current, ha, by rw [if_neg hne, ← hcategory]⟩

theorem mem_conflicts {current proposed : Policy} {c : Conflict} : c ∈ current.conflicts proposed ↔
    current.effective? c.rule = some c.current ∧ proposed.effective? c.rule = some c.proposed ∧
      c.current ≠ c.proposed ∧ c.category = Category.guess c.rule := by
  simp only [conflicts_eq, List.mem_filterMap, conflict?_eq_some_iff, Prod.exists, mem_decisions]
  constructor
  · rintro ⟨_, _, hp, rfl, rfl, hc, hne, hcategory⟩
    exact ⟨hc, hp, hne, hcategory⟩
  · rintro ⟨hc, hp, hne, hcategory⟩
    exact ⟨_, _, hp, rfl, rfl, hc, hne, hcategory⟩

theorem conflicts_ascending (current proposed : Policy) :
    IsAscending ((current.conflicts proposed).map Conflict.rule) := by
  have hkeys : proposed.decisions.Pairwise fun d d' => d.1 < d'.1 :=
    List.pairwise_map.mp proposed.decisions_ascending
  rw [IsAscending, List.pairwise_map, conflicts_eq, List.pairwise_filterMap]
  refine hkeys.imp fun hlt c hc c' hc' => ?_
  rwa [(conflict?_eq_some_iff.mp hc).1, (conflict?_eq_some_iff.mp hc').1]

end Policy

end PluginConsent
