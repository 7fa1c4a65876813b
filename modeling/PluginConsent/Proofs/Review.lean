import PluginConsent.Proofs.Index
import PluginConsent.Proofs.Settings.Failure
import PluginConsent.Review

namespace PluginConsent

namespace Choices

def LeastUnknown (choices : Choices) (cs : Categories) (key : String) : Prop :=
  key ∈ Entries.keys choices ∧ key ∉ Entries.keys cs ∧
    ∀ k ∈ Entries.keys choices, k ∉ Entries.keys cs → key ≤ k

def Known (choices : Choices) (cs : Categories) : Prop :=
  ∀ k ∈ Entries.keys choices, k ∈ Entries.keys cs

theorem isNone_find?_iff {cs : Categories} {key : String} :
    (Entries.find? key cs).isNone = true ↔ key ∉ Entries.keys cs := by
  rw [Option.isNone_iff_eq_none, Entries.find?_eq_none_iff]

theorem unknown?_eq_none_iff {choices : Choices} {cs : Categories} :
    choices.unknown? cs = none ↔ choices.Known cs := by
  simp only [unknown?, List.find?_eq_none, isNone_find?_iff, Decidable.not_not, Known]

theorem unknown?_eq_some_iff {choices : Choices} {cs : Categories} {key : String}
    (hc : IsAscending (Entries.keys choices)) :
    choices.unknown? cs = some key ↔ choices.LeastUnknown cs key := by
  simp only [unknown?, Ascending.find?_eq_some_iff hc, isNone_find?_iff, LeastUnknown]

end Choices

namespace Review

variable (r : Review) (env : Surroundings) (t : Tree) (scope : Scope)

theorem apply_unknown {choices : Choices} {key : String} (s : Strategy)
    (h : choices.unknown? (r.categories env t) = some key) :
    r.apply env t scope choices s = (t, .error (.unknownCategory key)) := by
  rw [apply, h]

theorem apply_known {choices : Choices} (s : Strategy) (h : choices.Known (r.categories env t)) :
    r.apply env t scope choices s =
      r.places.write env t scope (choices.policy (r.categories env t)) s := by
  rw [apply, Choices.unknown?_eq_none_iff.mpr h]

/-- Failures come in this order: an unknown category, for choices; a rule that may not be stored; no
place for the scope. Those leave the tree as it is, and all others add directories at most. -/
theorem writes_fail_in_order (s : Strategy) :
    (∀ rules, FailsInOrder t (r.places.path env t scope) rules
      (r.places.write env t scope rules s)) ∧
    ∀ choices : Choices, IsAscending (Entries.keys choices) →
      ((∃ key, (r.apply env t scope choices s).2 = .error (.unknownCategory key)) ↔
        ¬ choices.Known (r.categories env t)) ∧
      (∀ key, (r.apply env t scope choices s).2 = .error (.unknownCategory key) ↔
        choices.LeastUnknown (r.categories env t) key) ∧
      (∀ key, (r.apply env t scope choices s).2 = .error (.unknownCategory key) →
        (r.apply env t scope choices s).1 = t) ∧
      (choices.Known (r.categories env t) →
        FailsInOrder t (r.places.path env t scope) (choices.policy (r.categories env t))
          (r.apply env t scope choices s)) := by
  have hwrite (rules : Policy) := r.places.write_failsInOrder env t scope rules s
  refine ⟨hwrite, fun choices hc => ?_⟩
  cases hu : choices.unknown? (r.categories env t) with
  | some key =>
      have hun : ¬ choices.Known (r.categories env t) := by
        rw [← Choices.unknown?_eq_none_iff, hu]
        exact Option.some_ne_none key
      rw [apply_unknown r env t scope s hu]
      refine ⟨⟨fun _ => hun, fun _ => ⟨key, rfl⟩⟩, fun k => ?_, fun _ _ => rfl,
        fun hk => absurd hk hun⟩
      rw [← Choices.unknown?_eq_some_iff hc, hu]
      simp
  | none =>
      have hk := Choices.unknown?_eq_none_iff.mp hu
      have hin := hwrite (choices.policy (r.categories env t))
      rw [apply_known r env t scope s hk]
      refine ⟨⟨fun ⟨k, h⟩ => absurd h (hin.known k), fun h => absurd hk h⟩, fun k => ?_,
        fun k h => absurd h (hin.known k), fun _ => hin⟩
      rw [← Choices.unknown?_eq_some_iff hc, hu]
      simp [hin.known k]

def cacheOf (manifest : String) : Tree :=
  .ofList [(["c"], .directory directoryMode), (["c", "m"], .directory directoryMode),
    (["c", "m", "p"], .directory directoryMode),
    (["c", "m", "p", ".claude-plugin"], .directory directoryMode),
    (["c", "m", "p", ".claude-plugin", "plugin.json"], .file manifest.toUTF8 Tree.fileMode)]

theorem writes_fail_in_order_git :
    let r : Review := ⟨⟨some "/h", none, some "/c"⟩, some "/c", .mostPermissive⟩
    let env : Surroundings := ⟨.root, none, .owner⟩
    let t := cacheOf "\x7b\"permissions\":\x7b\"git\":\x7b\"rules\":[\"x\"]\x7d\x7d\x7d"
    IsAscending (Entries.keys [("git", Action.allow), ("mcp", Action.deny)]) ∧
    (r.apply env t .user [("git", .allow), ("mcp", .deny)] .merge).2 =
      .error (.unknownCategory "mcp") ∧
    IsAscending (Entries.keys [("git", Action.allow)]) ∧
    (r.apply env t .user [("git", .allow)] .merge).2 =
      .error (.invalidRule .allow "x" (.malformed "x")) := by
  intro r env t
  have hkeys : Entries.keys (r.categories env t) = ["git"] := by decide +kernel
  have hrules : (Choices.policy [("git", .allow)] (r.categories env t)).filed = [(.allow, "x")] := by
    decide +kernel
  have h := (writes_fail_in_order r env t .user .merge).2
  refine ⟨by decide, ?_, by decide, ?_⟩
  · refine ((h _ (by decide)).2.1 "mcp").mpr ⟨by decide, by rw [hkeys]; decide, ?_⟩
    rw [hkeys]
    decide
  · refine (((h _ (by decide)).2.2.2 ?_).first _ _ _).mpr ⟨[], [], hrules, by simp, rfl⟩
    rw [Choices.Known, hkeys]
    decide

end Review

end PluginConsent
