import PluginConsent.Category.Choices
import PluginConsent.Proofs.Review
import PluginConsent.Proofs.Settings.Store

namespace PluginConsent

namespace Categories

variable {cs : Categories} {rule : String} {a : Action}

def Suggests (cs : Categories) (rule : String) (a : Action) : Prop :=
  ∃ c ∈ cs, c.2.suggested = a ∧ rule ∈ c.2.rules

def suggestedRules (cs : Categories) (a : Action) : List String :=
  (cs.filter fun c => c.2.suggested = a).flatMap fun c => c.2.rules

theorem mem_suggestedRules : rule ∈ cs.suggestedRules a ↔ cs.Suggests rule a := by
  simp only [suggestedRules, List.mem_flatMap, List.mem_filter, decide_eq_true_eq, Suggests, and_assoc]

theorem suggestedRules_eq_nil_iff :
    cs.suggestedRules a = [] ↔ ∀ c ∈ cs, c.2.suggested = a → c.2.rules = [] := by
  simp only [suggestedRules, List.flatMap_eq_nil_iff, List.mem_filter, decide_eq_true_eq, and_imp]

theorem bucket?_proposed : cs.proposed.bucket? a =
    if cs.suggestedRules a = [] then none else some (Ascending.ofList (cs.suggestedRules a)) := by
  rw [proposed, Policy.bucket?_ofBuckets, ← suggestedRules]
  split
  · next h => rw [if_pos h]
  · next h => rw [if_neg h]

theorem mem_rules_proposed : rule ∈ cs.proposed.rules a ↔ cs.Suggests rule a := by
  rw [← mem_suggestedRules, Policy.rules, bucket?_proposed]
  split
  · next h => rw [h]; rfl
  · exact Ascending.mem_ofList

def suggestions (cs : Categories) : Choices := cs.map fun c => (c.1, c.2.suggested)

theorem unknown?_suggestions (cs : Categories) : cs.suggestions.unknown? cs = none := by
  rw [Choices.unknown?_eq_none_iff]
  intro k hk
  simpa [suggestions, Entries.keys] using hk

theorem rules_suggestions (hk : (Entries.keys cs).Nodup) (a : Action) :
    cs.suggestions.rules cs a = cs.suggestedRules a := by
  rw [Choices.rules, suggestions, List.filter_map, List.flatMap_map, suggestedRules]
  refine List.flatMap_congr fun c hc => ?_
  have hfind : Entries.find? c.1 cs = some c.2 := Entries.find?_of_mem hk (List.mem_of_mem_filter hc)
  rw [hfind]

/-- The action is suggested, but by no category that has rules. -/
def Barren (cs : Categories) (a : Action) : Prop :=
  (∃ c ∈ cs, c.2.suggested = a) ∧ ∀ c ∈ cs, c.2.suggested = a → c.2.rules = []

theorem bucket?_suggestions (hk : (Entries.keys cs).Nodup) (a : Action) :
    (cs.suggestions.policy cs).bucket? a =
      if cs.any fun c => c.2.suggested = a then some (Ascending.ofList (cs.suggestedRules a)) else none := by
  rw [Choices.policy, Policy.bucket?_ofBuckets, rules_suggestions hk, suggestions, List.any_map]
  rfl

theorem Barren.bucket? (h : cs.Barren a) (hk : (Entries.keys cs).Nodup) :
    (cs.suggestions.policy cs).bucket? a = some [] ∧ cs.proposed.bucket? a = none := by
  have hnil : cs.suggestedRules a = [] := suggestedRules_eq_nil_iff.mpr h.2
  have hany : (cs.any fun c => c.2.suggested = a) = true := by simpa using h.1
  rw [bucket?_suggestions hk, bucket?_proposed, hnil, if_pos hany, if_pos rfl]
  exact ⟨rfl, rfl⟩

theorem bucket?_of_not_barren (h : ¬ cs.Barren a) (hk : (Entries.keys cs).Nodup) :
    (cs.suggestions.policy cs).bucket? a = cs.proposed.bucket? a := by
  rw [bucket?_suggestions hk, bucket?_proposed]
  by_cases hnil : cs.suggestedRules a = []
  · have hnone : ¬ ∃ c ∈ cs, c.2.suggested = a :=
      fun hany => h ⟨hany, suggestedRules_eq_nil_iff.mp hnil⟩
    rw [if_pos hnil, if_neg (by simpa using hnone)]
  · obtain ⟨rule, hrule⟩ := List.exists_mem_of_ne_nil _ hnil
    obtain ⟨c, hc, hsuggested, _⟩ := mem_suggestedRules.mp hrule
    have hany : ∃ c ∈ cs, c.2.suggested = a := ⟨c, hc, hsuggested⟩
    rw [if_neg hnil, if_pos (by simpa using hany)]

end Categories

namespace Document

variable {p q : Policy} {s : Strategy} {cs : Categories}

theorem written?_suggestions_merge (hk : (Entries.keys cs).Nodup) (d : Document) (a : Action) :
    written? d (cs.suggestions.policy cs) .merge a = written? d cs.proposed .merge a := by
  by_cases hb : cs.Barren a
  · obtain ⟨haccepted, hproposed⟩ := hb.bucket? hk
    rw [written?, written?, haccepted, hproposed]
    rfl
  · exact written?_of_bucket? (Categories.bucket?_of_not_barren hb hk)

/-- Accepting every suggestion does what the proposed policy does, but that replacing clears an action that
is suggested by categories without rules only. -/
theorem suggestions_file_proposed (hk : (Entries.keys cs).Nodup) (d : Document) :
    cs.suggestions.unknown? cs = none ∧
    d.apply (cs.suggestions.policy cs) .merge = d.apply cs.proposed .merge ∧
    ((∀ a, ¬ cs.Barren a) →
      d.apply (cs.suggestions.policy cs) .replace = d.apply cs.proposed .replace) ∧
    (∀ a, cs.Barren a →
      Entries.find? a.name (d.apply (cs.suggestions.policy cs) .replace) = some (.array []) ∧
      Entries.find? a.name (d.apply cs.proposed .replace) = Entries.find? a.name d) ∧
    ∀ k, (∀ a, cs.Barren a → k ≠ a.name) →
      Entries.find? k (d.apply (cs.suggestions.policy cs) .replace) =
        Entries.find? k (d.apply cs.proposed .replace) := by
  refine ⟨cs.unknown?_suggestions, apply_congr (written?_suggestions_merge hk) d, fun hnone => ?_,
    fun a hb => ?_, fun k hne => ?_⟩
  · exact apply_congr (fun d a => written?_of_bucket? (Categories.bucket?_of_not_barren (hnone a) hk)) d
  · obtain ⟨haccepted, hproposed⟩ := hb.bucket? hk
    rw [find?_apply, find?_apply, written?, written?, haccepted, hproposed]
    exact ⟨rfl, rfl⟩
  · by_cases ha : ∃ a : Action, k = a.name
    · obtain ⟨a, rfl⟩ := ha
      have hbucket := Categories.bucket?_of_not_barren (fun hb => hne a hb rfl) hk
      rw [find?_apply, find?_apply, written?_of_bucket? hbucket]
    · have hother : ∀ a : Action, k ≠ a.name := fun a he => ha ⟨a, he⟩
      rw [find?_apply_of_ne hother, find?_apply_of_ne hother]

def reviewed : Categories :=
  [("docker", ⟨"Docker", "", [], .deny, ["p"]⟩), ("git", ⟨"Git", "", ["Bash(git:*)"], .allow, ["p"]⟩),
    ("mcp", ⟨"MCP", "", [], .allow, ["p"]⟩)]

theorem barren_reviewed {a : Action} : reviewed.Barren a ↔ a = .deny := by
  cases a <;> simp [Categories.Barren, reviewed]

theorem suggestions_file_proposed_reviewed :
    (Entries.keys reviewed).Nodup ∧
    (∀ d : Document, d.apply (reviewed.suggestions.policy reviewed) .merge =
      d.apply reviewed.proposed .merge) ∧
    ∀ d : Document,
      Entries.find? "deny" (d.apply (reviewed.suggestions.policy reviewed) .replace) = some (.array []) ∧
      Entries.find? "allow" (d.apply (reviewed.suggestions.policy reviewed) .replace) =
        Entries.find? "allow" (d.apply reviewed.proposed .replace) := by
  have hk : (Entries.keys reviewed).Nodup := by decide
  refine ⟨hk, fun d => (suggestions_file_proposed hk d).2.1, fun d => ?_⟩
  obtain ⟨_, _, _, hbarren, hother⟩ := suggestions_file_proposed hk d
  refine ⟨(hbarren .deny (barren_reviewed.mpr rfl)).1, hother "allow" fun a ha => ?_⟩
  rw [barren_reviewed.mp ha]
  decide

/-- Accepting every suggestion does the same as the proposed policy. -/
def AcceptsProposed (cs : Categories) (d : Document) (s : Strategy) : Prop :=
  d.apply (cs.suggestions.policy cs) s = d.apply cs.proposed s

def ruleless : Categories := .ofDeclarations .mostPermissive
  [⟨"p", [("docker", .object [("rules", .array []), ("suggested", .string "allow")])]⟩]

theorem not_acceptsProposed :
    ¬ AcceptsProposed ruleless [("allow", Json.ofStrings ["Read(*)"])] .replace := by
  intro h
  have hbucket := congrArg (fun d => bucket? d .allow) h
  revert hbucket
  decide +kernel

end Document

end PluginConsent
