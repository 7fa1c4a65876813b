import PluginConsent.Proofs.Settings.Store

namespace PluginConsent

/-- The update has a bucket for the action, and is not to merge nothing into it. -/
def Policy.Writes (p : Policy) (s : Strategy) (a : Action) : Prop :=
  ∃ new ∈ p.bucket? a, s = .merge → new ≠ []

instance (p : Policy) (s : Strategy) (a : Action) : Decidable (p.Writes s a) :=
  inferInstanceAs (Decidable (∃ new ∈ p.bucket? a, s = .merge → new ≠ []))

namespace Document

variable {d : Document} {p : Policy} {s : Strategy} {a : Action} {ss : List String}

/-- The ascending list of the rules that an update files under an action, and where it merges also of the
strings in the list that stands there, if one does. -/
structure Owes (d : Document) (p : Policy) (s : Strategy) (a : Action) (ss : List String) : Prop where
  ascending : IsAscending ss
  mem : ∀ r, r ∈ ss ↔ r ∈ p.rules a ∨
    s = .merge ∧ ∃ items, Entries.find? a.name d = some (.array items) ∧ .string r ∈ items

/-- A document after an update: what is not written is as it was, what is written is what the update owes,
and keys that were missing come last. -/
structure Updated (d : Document) (p : Policy) (s : Strategy) (d' : Document) : Prop where
  keys : Entries.keys d' = Entries.keys d ++
    (Action.all.filter fun a => p.Writes s a ∧ a.name ∉ Entries.keys d).map Action.name
  kept : ∀ k, (∀ a, p.Writes s a → k ≠ a.name) → Entries.find? k d' = Entries.find? k d
  written : ∀ a, p.Writes s a →
    ∃ ss, d.Owes p s a ss ∧ Entries.find? a.name d' = some (Json.ofStrings ss)

theorem Owes.unique {ss' : List String} (h : d.Owes p s a ss) (h' : d.Owes p s a ss') : ss = ss' :=
  List.Pairwise.eq_of_mem_iff h.ascending h'.ascending fun r => (h.mem r).trans (h'.mem r).symm

theorem mem_rules {r : String} : r ∈ rules d a ↔
    ∃ items, Entries.find? a.name d = some (.array items) ∧ .string r ∈ items := by
  unfold rules bucket?
  split
  · next items hfind =>
    rw [hfind, Option.getD_some, Json.mem_strings]
    exact ⟨fun hr => ⟨items, rfl, hr⟩, fun ⟨_, hitems, hr⟩ => by cases hitems; exact hr⟩
  · next hfind =>
    simp only [Option.getD_none, List.not_mem_nil, false_iff]
    exact fun ⟨items, hitems, _⟩ => hfind items hitems

theorem written?_eq_some_iff :
    written? d p s a = some ss ↔ p.Writes s a ∧ d.Owes p s a ss := by
  have howes {new : List String} (hnew : p.bucket? a = some new) :
      d.Owes p s a (Ascending.ofList (combined d a new s)) := by
    refine ⟨Ascending.isAscending_ofList _, fun r => ?_⟩
    have hrules : p.rules a = new := by rw [Policy.rules, hnew, Option.getD_some]
    rw [Ascending.mem_ofList, hrules, ← mem_rules]
    cases s <;> simp [combined, or_comm]
  rw [written?, Option.bind_eq_some_iff]
  constructor
  · rintro ⟨new, hnew, hw⟩
    split at hw
    · cases hw
    · next hbusy =>
      cases hw
      exact ⟨⟨new, hnew, fun hs hnil => hbusy ⟨hs, hnil⟩⟩, howes hnew⟩
  · rintro ⟨⟨new, hnew, hbusy⟩, hss⟩
    refine ⟨new, hnew, ?_⟩
    rw [if_neg fun h => hbusy h.1 h.2, (howes hnew).unique hss]

theorem exists_written? (h : p.Writes s a) : ∃ ss, written? d p s a = some ss := by
  obtain ⟨new, hnew, hbusy⟩ := h
  refine ⟨Ascending.ofList (combined d a new s), ?_⟩
  rw [written?, hnew, Option.bind_some, if_neg fun h => hbusy h.1 h.2]

theorem written?_eq_none (h : ¬ p.Writes s a) : written? d p s a = none := by
  cases hw : written? d p s a with
  | none => rfl
  | some ss => exact absurd (written?_eq_some_iff.mp hw).1 h

theorem keys_applyAction (d : Document) (p : Policy) (s : Strategy) (a : Action) :
    Entries.keys (applyAction p s d a) = Entries.keys d ++
      if p.Writes s a ∧ a.name ∉ Entries.keys d then [a.name] else [] := by
  unfold applyAction
  by_cases hw : p.Writes s a
  · obtain ⟨ss, hss⟩ := exists_written? (d := d) hw
    rw [hss]
    simp only [Entries.keys_put, hw, true_and]
    split <;> simp
  · rw [written?_eq_none hw]
    simp [hw]

theorem keys_foldl_applyAction {as : List Action} (has : as.Nodup) (d : Document) :
    Entries.keys (as.foldl (applyAction p s) d) = Entries.keys d ++
      (as.filter fun a => p.Writes s a ∧ a.name ∉ Entries.keys d).map Action.name := by
  induction as generalizing d with
  | nil => simp
  | cons a as ih =>
      obtain ⟨ha, has⟩ := List.nodup_cons.mp has
      -- What one action adds is no key of the others, as they differ.
      have hothers : (as.filter fun b => p.Writes s b ∧ b.name ∉ Entries.keys (applyAction p s d a)) =
          as.filter fun b => p.Writes s b ∧ b.name ∉ Entries.keys d := by
        refine List.filter_congr fun b hb => ?_
        have hne : b.name ≠ a.name := fun he => ha (Action.name_injective he ▸ hb)
        rw [keys_applyAction]
        split <;> simp [hne]
      rw [List.foldl_cons, ih has, hothers, keys_applyAction, List.append_assoc, List.filter_cons]
      by_cases hadds : p.Writes s a ∧ a.name ∉ Entries.keys d
      · rw [if_pos hadds, if_pos (decide_eq_true hadds)]
        rfl
      · rw [if_neg hadds, if_neg (by rwa [decide_eq_true_eq])]
        rfl

theorem keys_apply (d : Document) (p : Policy) (s : Strategy) :
    Entries.keys (d.apply p s) = Entries.keys d ++
      (Action.all.filter fun a => p.Writes s a ∧ a.name ∉ Entries.keys d).map Action.name := by
  rw [apply_eq_foldl, keys_foldl_applyAction (by decide)]

theorem updated_apply (d : Document) (p : Policy) (s : Strategy) : d.Updated p s (d.apply p s) := by
  refine ⟨keys_apply d p s, fun k hk => ?_, fun a ha => ?_⟩
  · by_cases hname : ∃ a : Action, k = a.name
    · obtain ⟨a, rfl⟩ := hname
      rw [find?_apply, written?_eq_none fun hw => hk a hw rfl, Option.map_none, Option.none_or]
    · exact find?_apply_of_ne fun a he => hname ⟨a, he⟩
  · obtain ⟨ss, hss⟩ := exists_written? (d := d) ha
    refine ⟨ss, (written?_eq_some_iff.mp hss).2, ?_⟩
    rw [find?_apply, hss]
    rfl

theorem apply_eq_self (h : ∀ a, p.Writes s a →
    ∃ ss, d.Owes p s a ss ∧ Entries.find? a.name d = some (Json.ofStrings ss)) : d.apply p s = d := by
  rw [apply_eq_foldl]
  refine List.foldl_fixed' (fun a => ?_) Action.all
  by_cases hw : p.Writes s a
  · obtain ⟨ss, hss, hfind⟩ := h a hw
    rw [applyAction, written?_eq_some_iff.mpr ⟨hw, hss⟩]
    exact Entries.put_eq_self hfind
  · rw [applyAction, written?_eq_none hw]

/-- An update touches the buckets it writes and nothing else, and keeps the keys in their order. It leaves a
document as it is, in this order or up to the order of keys, exactly if each bucket it writes already is
what it would become. -/
theorem apply_keeps_layout (d : Document) (p : Policy) (s : Strategy) :
    d.Updated p s (d.apply p s) ∧
    (d.apply p s = d ↔ ∀ a, p.Writes s a →
      ∃ ss, d.Owes p s a ss ∧ Entries.find? a.name d = some (Json.ofStrings ss)) ∧
    (d.apply p s = d ↔ (d.apply p s).Agree d) := by
  have hsettled (h : (d.apply p s).Agree d) (a : Action) (ha : p.Writes s a) :
      ∃ ss, d.Owes p s a ss ∧ Entries.find? a.name d = some (Json.ofStrings ss) := by
    obtain ⟨ss, hss, hfind⟩ := (updated_apply d p s).written a ha
    exact ⟨ss, hss, (h a.name).symm.trans hfind⟩
  have hagree (h : d.apply p s = d) : (d.apply p s).Agree d := by
    rw [h]
    exact fun _ => rfl
  exact ⟨updated_apply d p s, ⟨fun h => hsettled (hagree h), apply_eq_self⟩,
    hagree, fun h => apply_eq_self (hsettled h)⟩

example : Document.apply [("deny", .string "x"), ("zeta", .null), ("allow", Json.ofStrings ["b"])]
    ⟨some ["a"], some ["c"], some []⟩ .merge =
    [("deny", .string "x"), ("zeta", .null), ("allow", Json.ofStrings ["a", "b"]),
      ("ask", Json.ofStrings ["c"])] := by rfl

end Document

end PluginConsent
