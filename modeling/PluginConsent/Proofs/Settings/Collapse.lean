import PluginConsent.Proofs.Settings.Layout

namespace PluginConsent

namespace Policy

def bucketsOf (ps : List Policy) (a : Action) : List (List String) := ps.filterMap fun p => p.bucket? a

def union (ps : List Policy) : Policy :=
  ofBuckets fun a => if bucketsOf ps a = [] then none else some (bucketsOf ps a).flatten

def override (ps : List Policy) : Policy := ofBuckets fun a => (bucketsOf ps a).getLast?

variable {p : Policy} {ps : List Policy} {a : Action} {rule : String}

theorem rules_union : (union ps).rules a = (bucketsOf ps a).flatten := by
  rw [rules, union, bucket?_ofBuckets]
  split
  · next h => rw [h, Option.getD_none, List.flatten_nil]
  · rfl

theorem rules_union_cons : (union (p :: ps)).rules a = p.rules a ++ (union ps).rules a := by
  rw [rules_union, rules_union, bucketsOf, List.filterMap_cons, rules]
  cases p.bucket? a <;> rfl

theorem mem_rules_union : rule ∈ (union ps).rules a ↔ ∃ p ∈ ps, rule ∈ p.rules a := by
  induction ps with
  | nil => simp [rules_union, bucketsOf]
  | cons p ps ih => simp [rules_union_cons, ih]

theorem bucket?_override_cons :
    (override (p :: ps)).bucket? a = ((override ps).bucket? a).or (p.bucket? a) := by
  rw [override, override, bucket?_ofBuckets, bucket?_ofBuckets, bucketsOf, List.filterMap_cons]
  cases p.bucket? a with
  | none =>
      rw [Option.or_none]
      rfl
  | some new =>
      rw [List.getLast?_cons, ← bucketsOf]
      cases (bucketsOf ps a).getLast? <;> rfl

end Policy

namespace Document

variable {d d' d'' : Document} {p q r : Policy} {ps : List Policy} {s : Strategy} {a : Action}

def applyAll (d : Document) (ps : List Policy) (s : Strategy) : Document :=
  ps.foldl (fun d p => d.apply p s) d

structure Reorders (d d' : Document) : Prop where
  keys : (Entries.keys d).Perm (Entries.keys d')
  values : d.Agree d'

/-- The keys of one document come first in another, and those after them are new. -/
def Extends (d d' : Document) : Prop :=
  ∃ new, Entries.keys d' = Entries.keys d ++ new ∧ new.Nodup ∧ ∀ k ∈ new, k ∉ Entries.keys d

theorem Extends.refl (d : Document) : d.Extends d := ⟨[], by simp⟩

theorem Extends.trans (h : d.Extends d') (h' : d'.Extends d'') : d.Extends d'' := by
  obtain ⟨new, hkeys, hnodup, hnew⟩ := h
  obtain ⟨new', hkeys', hnodup', hnew'⟩ := h'
  rw [hkeys] at hnew'
  refine ⟨new ++ new', by rw [hkeys', hkeys, List.append_assoc], ?_, fun k hk => ?_⟩
  · refine List.nodup_append'.mpr ⟨hnodup, hnodup', fun k hk hk' => ?_⟩
    exact hnew' k hk' (List.mem_append_right _ hk)
  · rcases List.mem_append.mp hk with hk | hk
    · exact hnew k hk
    · exact fun hd => hnew' k hk (List.mem_append_left _ hd)

theorem extends_apply (d : Document) (p : Policy) (s : Strategy) : d.Extends (d.apply p s) := by
  refine ⟨_, keys_apply d p s, ?_, fun k hk => ?_⟩
  · refine List.Nodup.map (fun _ _ => Action.name_injective) (List.Nodup.filter _ ?_)
    decide
  · obtain ⟨a, ha, rfl⟩ := List.mem_map.mp hk
    exact (of_decide_eq_true (List.mem_filter.mp ha).2).2

theorem extends_applyAll (d : Document) (ps : List Policy) (s : Strategy) :
    d.Extends (d.applyAll ps s) := by
  induction ps generalizing d with
  | nil => exact .refl d
  | cons p ps ih => exact (extends_apply d p s).trans (ih _)

theorem Extends.reorders (h : d.Extends d') (h' : d.Extends d'') (ha : d'.Agree d'') :
    d'.Reorders d'' := by
  have hmem (k : String) : k ∈ Entries.keys d' ↔ k ∈ Entries.keys d'' := by
    rw [← not_iff_not, ← Entries.find?_eq_none_iff, ← Entries.find?_eq_none_iff, ha k]
  obtain ⟨new, hkeys, hnodup, hnew⟩ := h
  obtain ⟨new', hkeys', hnodup', hnew'⟩ := h'
  refine ⟨?_, ha⟩
  rw [hkeys, hkeys']
  refine List.Perm.append_left _ ((List.perm_ext_iff_of_nodup hnodup hnodup').mpr fun k => ?_)
  have hboth := hmem k
  rw [hkeys, hkeys', List.mem_append, List.mem_append] at hboth
  have hk := hnew k
  have hk' := hnew' k
  tauto

theorem written?_merge_congr (h : ∀ rule, rule ∈ p.rules a ↔ rule ∈ q.rules a) :
    written? d p .merge a = written? d q .merge a := by
  have hnil : p.rules a = [] ↔ q.rules a = [] := by
    rw [List.eq_nil_iff_forall_not_mem, List.eq_nil_iff_forall_not_mem]
    exact forall_congr' fun rule => not_congr (h rule)
  have hlist : Ascending.ofList (rules d a ++ p.rules a) = Ascending.ofList (rules d a ++ q.rules a) :=
    Ascending.ofList_congr fun rule => by rw [List.mem_append, List.mem_append, h]
  simp only [written?_merge, hnil, hlist]

theorem written?_merge_merge (h : r.rules a = p.rules a ++ q.rules a) :
    (written? (d.apply p .merge) q .merge a).or (written? d p .merge a) = written? d r .merge a := by
  by_cases hq : q.rules a = []
  · rw [written?_merge _ q, if_pos hq, Option.none_or]
    exact written?_merge_congr fun rule => by rw [h, hq, List.append_nil]
  · have hr : r.rules a ≠ [] := by rw [h]; exact List.append_ne_nil_of_right_ne_nil _ hq
    rw [written?_merge _ q, if_neg hq, Option.some_or, written?_merge _ r, if_neg hr]
    refine congrArg some (Ascending.ofList_congr fun rule => ?_)
    simp only [h, List.mem_append, ← rules_policy, mem_rules_apply_merge, or_assoc]

theorem written?_replace_replace (h : r.bucket? a = (q.bucket? a).or (p.bucket? a)) :
    (written? (d.apply p .replace) q .replace a).or (written? d p .replace a) =
      written? d r .replace a := by
  rw [written?_replace, written?_replace, written?_replace, h, Option.map_or]

theorem agree_apply_apply
    (h : ∀ a, (written? (d.apply p s) q s a).or (written? d p s a) = written? d r s a) :
    ((d.apply p s).apply q s).Agree (d.apply r s) := by
  refine agree_of_actions (fun a => ?_) fun k hk => ?_
  · rw [find?_apply, find?_apply, find?_apply, ← h, Option.map_or, Option.or_assoc]
  · rw [find?_apply_of_ne hk, find?_apply_of_ne hk, find?_apply_of_ne hk]

theorem agree_applyAll {join : List Policy → Policy} (hnil : ∀ a, (join []).bucket? a = none)
    (hcons : ∀ (d : Document) p ps a, (written? (d.apply p s) (join ps) s a).or (written? d p s a) =
      written? d (join (p :: ps)) s a) (d : Document) (ps : List Policy) :
    (d.applyAll ps s).Agree (d.apply (join ps) s) := by
  induction ps generalizing d with
  | nil =>
      have hidle : d.apply (join []) s = d := by
        refine apply_eq_self fun a ⟨new, hnew, _⟩ => ?_
        rw [hnil] at hnew
        cases hnew
      rw [hidle]
      exact fun _ => rfl
  -- An update and what the rest comes to are one update.
  | cons p ps ih => exact (ih _).trans (agree_apply_apply (hcons d p ps))

theorem agree_applyAll_merge (d : Document) (ps : List Policy) :
    (d.applyAll ps .merge).Agree (d.apply (Policy.union ps) .merge) :=
  agree_applyAll (fun _ => Policy.bucket?_ofBuckets _ _)
    (fun _ _ _ _ => written?_merge_merge Policy.rules_union_cons) d ps

theorem agree_applyAll_replace (d : Document) (ps : List Policy) :
    (d.applyAll ps .replace).Agree (d.apply (Policy.override ps) .replace) :=
  agree_applyAll (fun _ => Policy.bucket?_ofBuckets _ _)
    (fun _ _ _ _ => written?_replace_replace Policy.bucket?_override_cons) d ps

theorem apply_union_congr {ps ps' : List Policy} (h : ∀ p, p ∈ ps ↔ p ∈ ps') (d : Document) :
    d.apply (Policy.union ps) .merge = d.apply (Policy.union ps') .merge := by
  refine apply_congr (fun d a => written?_merge_congr fun rule => ?_) d
  simp only [Policy.mem_rules_union, h]

/-- A sequence of merges comes to one merge of all rules, and one with the same policies in another order, or
some of them more often, to the same document; a sequence of replacements comes to one with the last bucket
for each action. -/
theorem applyAll_collapses (d : Document) (ps : List Policy) :
    (d.applyAll ps .merge).Reorders (d.apply (Policy.union ps) .merge) ∧
    (∀ ps', (∀ p, p ∈ ps ↔ p ∈ ps') → (d.applyAll ps .merge).Reorders (d.applyAll ps' .merge)) ∧
    (d.applyAll ps .replace).Reorders (d.apply (Policy.override ps) .replace) := by
  refine ⟨?_, fun ps' h => ?_, ?_⟩
  · exact (extends_applyAll d ps .merge).reorders (extends_apply d _ .merge) (agree_applyAll_merge d ps)
  · have hall := agree_applyAll_merge d ps
    rw [apply_union_congr h] at hall
    exact (extends_applyAll d ps .merge).reorders (extends_applyAll d ps' .merge)
      (hall.trans (agree_applyAll_merge d ps').symm)
  · exact (extends_applyAll d ps .replace).reorders (extends_apply d _ .replace)
      (agree_applyAll_replace d ps)

def trusting : Policy := ⟨some ["Read(*)"], none, some []⟩

def wary : Policy := ⟨none, some ["Bash(rm:*)"], some ["Edit(*)"]⟩

def malformed : Document := [("deny", .string "Edit(*)"), ("allow", .array [.string "Glob(*)", .null])]

theorem applyAll_collapses_malformed :
    (∀ p, p ∈ [trusting, wary, trusting] ↔ p ∈ [wary, trusting]) ∧
    (malformed.applyAll [trusting, wary, trusting] .merge).Reorders
      (malformed.applyAll [wary, trusting] .merge) := by
  have hsame : ∀ p, p ∈ [trusting, wary, trusting] ↔ p ∈ [wary, trusting] := by
    intro p
    simp only [List.mem_cons, List.not_mem_nil]
    tauto
  exact ⟨hsame, (applyAll_collapses malformed _).2.1 _ hsame⟩

end Document

end PluginConsent
