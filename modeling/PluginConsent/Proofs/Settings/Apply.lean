import Mathlib.Data.List.Basic
import PluginConsent.Proofs.Policy.Effective
import PluginConsent.Settings.Document

namespace PluginConsent.Document

variable {d d' : Document} {p q : Policy} {s : Strategy} {a : Action}

/-- The list an update puts under an action, if it writes that action's bucket at all. -/
def written? (d : Document) (p : Policy) (s : Strategy) (a : Action) : Option (List String) :=
  (p.bucket? a).bind fun new =>
    if s = .merge ∧ new = [] then none else some (Ascending.ofList (combined d a new s))

def applyAction (p : Policy) (s : Strategy) (d : Document) (a : Action) : Document :=
  match written? d p s a with
  | some rs => Entries.put a.name (Json.ofStrings rs) d
  | none => d

theorem written?_of_bucket? (h : p.bucket? a = q.bucket? a) : written? d p s a = written? d q s a := by
  rw [written?, written?, h]

theorem written?_replace (d : Document) (p : Policy) (a : Action) :
    written? d p .replace a = (p.bucket? a).map Ascending.ofList := by
  rw [written?]
  cases p.bucket? a <;> simp [combined]

theorem written?_merge (d : Document) (p : Policy) (a : Action) : written? d p .merge a =
    if p.rules a = [] then none else some (Ascending.ofList (rules d a ++ p.rules a)) := by
  rw [written?, Policy.rules]
  cases p.bucket? a <;> simp [combined]

theorem apply_eq_foldl (d : Document) (p : Policy) (s : Strategy) :
    d.apply p s = Action.all.foldl (applyAction p s) d := by
  rw [apply, Policy.buckets, List.foldl_filterMap]
  congr 1
  funext d a
  cases hb : p.bucket? a with
  | none => simp [applyAction, written?, hb]
  | some new =>
      by_cases hw : s = .merge ∧ new = []
      · simp [applyAction, written?, applyBucket, hb, hw]
      · simp [applyAction, written?, applyBucket, hb, hw]

theorem find?_applyAction_self (a : Action) : Entries.find? a.name (applyAction p s d a) =
    ((written? d p s a).map Json.ofStrings).or (Entries.find? a.name d) := by
  unfold applyAction
  cases written? d p s a <;> simp

theorem find?_applyAction_of_ne {k : String} {a : Action} (h : k ≠ a.name) :
    Entries.find? k (applyAction p s d a) = Entries.find? k d := by
  unfold applyAction
  split
  · exact Entries.find?_put_of_ne h _ d
  · rfl

theorem apply_congr (h : ∀ d a, written? d p s a = written? d q s a) (d : Document) :
    d.apply p s = d.apply q s := by
  have hstep : applyAction p s = applyAction q s := by
    funext d a
    rw [applyAction, applyAction, h]
  rw [apply_eq_foldl, apply_eq_foldl, hstep]

theorem bucket?_congr (h : Entries.find? a.name d' = Entries.find? a.name d) :
    bucket? d' a = bucket? d a := by
  rw [bucket?, bucket?, h]

theorem written?_congr (h : bucket? d a = bucket? d' a) : written? d p s a = written? d' p s a := by
  have hcombined (new : List String) : combined d a new s = combined d' a new s := by
    cases s <;> simp [combined, rules, h]
  simp only [written?, hcombined]

theorem written?_applyAction_of_ne {b : Action} (h : b ≠ a) :
    written? (applyAction p s d a) p s b = written? d p s b := by
  have hne : b.name ≠ a.name := fun he => h (Action.name_injective he)
  exact written?_congr (bucket?_congr (find?_applyAction_of_ne hne))

theorem find?_foldl_applyAction {as : List Action} (has : as.Nodup) (b : Action) :
    Entries.find? b.name (as.foldl (applyAction p s) d) =
      if b ∈ as then ((written? d p s b).map Json.ofStrings).or (Entries.find? b.name d)
      else Entries.find? b.name d := by
  induction as generalizing d with
  | nil => simp
  | cons a as ih =>
      obtain ⟨ha, has⟩ := List.nodup_cons.mp has
      rw [List.foldl_cons, ih has]
      by_cases hb : b = a
      · subst hb
        simp [ha, find?_applyAction_self]
      · have hne : b.name ≠ a.name := fun he => hb (Action.name_injective he)
        simp [hb, written?_applyAction_of_ne hb, find?_applyAction_of_ne hne]

theorem find?_apply (d : Document) (p : Policy) (s : Strategy) (a : Action) :
    Entries.find? a.name (d.apply p s) =
      ((written? d p s a).map Json.ofStrings).or (Entries.find? a.name d) := by
  rw [apply_eq_foldl, find?_foldl_applyAction (by decide), if_pos (Action.mem_all a)]

theorem strings_ofStrings (ss : List String) : Json.strings (ss.map .string) = ss := by
  simp [Json.strings, List.filterMap_map, Function.comp_def, Json.string?]

theorem bucket?_apply (d : Document) (p : Policy) (s : Strategy) (a : Action) :
    bucket? (d.apply p s) a = (written? d p s a).or (bucket? d a) := by
  rw [bucket?, find?_apply]
  cases written? d p s a with
  | none => rfl
  | some rs => exact congrArg some (strings_ofStrings rs)

theorem rules_policy (d : Document) (a : Action) : d.policy.rules a = rules d a := by
  simp [Policy.rules, policy, rules]

theorem mem_rules_apply_merge {rule : String} :
    rule ∈ (d.apply p .merge).policy.rules a ↔ rule ∈ d.policy.rules a ∨ rule ∈ p.rules a := by
  rw [rules_policy, rules_policy, rules, bucket?_apply, written?_merge]
  split
  · next h => simp [rules, h]
  · simp [Ascending.mem_ofList]

theorem mem_rules_apply_replace {rule : String} : rule ∈ (d.apply p .replace).policy.rules a ↔
    rule ∈ p.rules a ∨ p.bucket? a = none ∧ rule ∈ d.policy.rules a := by
  rw [rules_policy, rules_policy, rules, bucket?_apply, written?_replace, Policy.rules]
  cases p.bucket? a with
  | none => simp [rules]
  | some new => simp [Ascending.mem_ofList]

theorem conflict?_merge {current : Option Action} {rule : String} {proposed : Action} :
    Policy.conflict? (Option.merge Action.stricter current (some proposed)) rule proposed =
      (Policy.conflict? current rule proposed).filter fun c => c.proposed < c.current := by
  cases current with
  | none => simp [Policy.conflict?]
  | some a => cases a <;> cases proposed <;> rfl

/-- Merging takes the stricter of two decisions on a rule, so all that is left of the conflicts with
the merged policy is where the document was the stricter one. -/
theorem merge_never_loosens (d : Document) (p : Policy) :
    (∀ rule, (d.apply p .merge).policy.effective? rule =
      Option.merge Action.stricter (d.policy.effective? rule) (p.effective? rule)) ∧
    (d.apply p .merge).policy.conflicts p =
      (d.policy.conflicts p).filter fun c => c.proposed < c.current := by
  have heff (rule : String) : (d.apply p .merge).policy.effective? rule =
      Option.merge Action.stricter (d.policy.effective? rule) (p.effective? rule) :=
    Policy.effective?_union fun _ => mem_rules_apply_merge
  refine ⟨heff, ?_⟩
  rw [Policy.conflicts_eq, Policy.conflicts_eq, List.filter_filterMap]
  refine List.filterMap_congr fun e he => ?_
  have hp : p.effective? e.1 = some e.2 := Policy.mem_decisions.mp he
  rw [heff, hp]
  exact conflict?_merge

end PluginConsent.Document
