import PluginConsent.Proofs.Files.Change
import PluginConsent.Settings.Store

namespace PluginConsent

namespace Policy

def Storable (p : Policy) : Prop := ∀ f ∈ p.filed, Rule.check f.2 = .ok ()

def FirstRejected (p : Policy) (a : Action) (rule : String) (fault : Rule.Fault) : Prop :=
  ∃ before after, p.filed = before ++ (a, rule) :: after ∧
    (∀ f ∈ before, Rule.check f.2 = .ok ()) ∧ Rule.check rule = .error fault

def rejection? (f : Action × String) : Option WriteError :=
  match Rule.check f.2 with
  | .ok () => none
  | .error fault => some (.invalidRule f.1 f.2 fault)

theorem firstFault?_eq_findSome? (p : Policy) : p.firstFault? = p.filed.findSome? rejection? := rfl

theorem rejection?_eq_none_iff {f : Action × String} :
    rejection? f = none ↔ Rule.check f.2 = .ok () := by
  unfold rejection?
  cases Rule.check f.2 <;> simp

theorem rejection?_eq_some_iff {f : Action × String} {e : WriteError} : rejection? f = some e ↔
    ∃ fault, Rule.check f.2 = .error fault ∧ e = .invalidRule f.1 f.2 fault := by
  unfold rejection?
  cases Rule.check f.2 <;> simp [eq_comm]

theorem firstFault?_eq_none_iff {p : Policy} : p.firstFault? = none ↔ p.Storable := by
  rw [firstFault?_eq_findSome?, List.findSome?_eq_none_iff]
  exact forall₂_congr fun _ _ => rejection?_eq_none_iff

theorem firstFault?_eq_some_iff {p : Policy} {e : WriteError} : p.firstFault? = some e ↔
    ∃ a rule fault, e = .invalidRule a rule fault ∧ p.FirstRejected a rule fault := by
  rw [firstFault?_eq_findSome?, List.findSome?_eq_some_iff]
  constructor
  · rintro ⟨before, ⟨a, rule⟩, after, hf, he, hb⟩
    obtain ⟨fault, hc, rfl⟩ := rejection?_eq_some_iff.mp he
    exact ⟨a, rule, fault, rfl, before, after, hf,
      fun f h => rejection?_eq_none_iff.mp (hb f h), hc⟩
  · rintro ⟨a, rule, fault, rfl, before, after, hf, hb, hc⟩
    exact ⟨before, (a, rule), after, hf, rejection?_eq_some_iff.mpr ⟨fault, hc, rfl⟩,
      fun f h => rejection?_eq_none_iff.mpr (hb f h)⟩

theorem FirstRejected.not_storable {p : Policy} {a : Action} {rule : String} {fault : Rule.Fault}
    (h : p.FirstRejected a rule fault) : ¬ p.Storable := by
  obtain ⟨_, _, hf, _, hc⟩ := h
  intro hs
  have hok := hs (a, rule) (by simp [hf])
  rw [hc] at hok
  cases hok

theorem FirstRejected.unique {p : Policy} {a a' : Action} {rule rule' : String}
    {fault fault' : Rule.Fault} (h : p.FirstRejected a rule fault)
    (h' : p.FirstRejected a' rule' fault') :
    WriteError.invalidRule a rule fault = .invalidRule a' rule' fault' := by
  have he := firstFault?_eq_some_iff.mpr ⟨a, rule, fault, rfl, h⟩
  have he' := firstFault?_eq_some_iff.mpr ⟨a', rule', fault', rfl, h'⟩
  exact Option.some.inj (he.symm.trans he')

end Policy

/-- Errors that are found before anything is touched. -/
def WriteError.Early : WriteError → Prop
  | .invalidRule _ _ _ => True
  | .unknownCategory _ => True
  | .place _ => True
  | _ => False

/-- What can be said of a failed write of rules to a place. -/
structure FailsInOrder (t : Tree) (place : Except PlaceError String) (rules : Policy)
    (out : Tree × Except WriteError Bool) : Prop where
  rejected : (∃ a rule fault, out.2 = .error (.invalidRule a rule fault)) ↔ ¬ rules.Storable
  first : ∀ a rule fault, out.2 = .error (.invalidRule a rule fault) ↔
    rules.FirstRejected a rule fault
  unplaced : ∀ e, out.2 = .error (.place e) ↔ rules.Storable ∧ place = .error e
  known : ∀ key, out.2 ≠ .error (.unknownCategory key)
  untouched : ∀ e, out.2 = .error e → e.Early → out.1 = t
  grown : ∀ e, out.2 = .error e → t.Grown out.1

theorem Update.store_error {t t' : Tree} {cwd : WorkingDirectory} {u : Update} {e : WriteError}
    (h : u.store t cwd = (t', .error e)) : ¬ e.Early ∧ t.Grown t' := by
  unfold store at h
  split at h
  · cases h
  · unfold Document.write at h
    split at h
    · cases h
    · next hw =>
      cases h
      split at hw
      · cases hw
      · next e' hr =>
        cases hw
        exact ⟨by cases e' <;> exact id, Tree.grown_replaceFile_error hr⟩

namespace Places

variable (p : Places) (env : Surroundings) (t : Tree) (scope : Scope) (rules : Policy) (s : Strategy)

theorem write_cases :
    (∃ a rule fault, rules.FirstRejected a rule fault ∧
      p.write env t scope rules s = (t, .error (.invalidRule a rule fault))) ∨
    (rules.Storable ∧ ∃ e, p.path env t scope = .error e ∧
      p.write env t scope rules s = (t, .error (.place e))) ∨
    (rules.Storable ∧ ∃ path, p.path env t scope = .ok path ∧
      p.write env t scope rules s =
        (Update.load t env.account env.workingDirectory path rules s).store t
          env.workingDirectory) := by
  unfold write
  cases hf : rules.firstFault? with
  | some e =>
      obtain ⟨a, rule, fault, rfl, hfirst⟩ := Policy.firstFault?_eq_some_iff.mp hf
      exact .inl ⟨a, rule, fault, hfirst, rfl⟩
  | none =>
      have hs := Policy.firstFault?_eq_none_iff.mp hf
      cases hp : p.path env t scope with
      | error e => exact .inr (.inl ⟨hs, e, rfl, rfl⟩)
      | ok path => exact .inr (.inr ⟨hs, path, rfl, rfl⟩)

theorem write_failsInOrder :
    FailsInOrder t (p.path env t scope) rules (p.write env t scope rules s) := by
  rcases write_cases p env t scope rules s with
    ⟨a, rule, fault, hfirst, hw⟩ | ⟨hs, e, hp, hw⟩ | ⟨hs, path, hp, hw⟩
  · rw [hw]
    refine ⟨⟨fun _ => hfirst.not_storable, fun _ => ⟨a, rule, fault, rfl⟩⟩, fun a' rule' fault' => ?_,
      fun e => ?_, fun key => ?_, fun _ _ _ => rfl, fun _ _ => .refl t⟩
    · constructor
      · intro h; cases h; exact hfirst
      · intro h; rw [hfirst.unique h]
    · simp [hfirst.not_storable]
    · simp
  · rw [hw]
    refine ⟨⟨?_, fun h => absurd hs h⟩, fun a rule fault => ⟨?_, fun h => absurd hs h.not_storable⟩,
      fun e' => ?_, fun key => ?_, fun _ _ _ => rfl, fun _ _ => .refl t⟩
    · rintro ⟨_, _, _, h⟩; cases h
    · intro h; cases h
    · simp [hs, hp]
    · simp
  · rw [hw, hp]
    have hlate {e} (h : ((Update.load t env.account env.workingDirectory path rules s).store t
        env.workingDirectory).2 = .error e) :=
      Update.store_error (Prod.ext rfl h)
    refine ⟨⟨?_, fun h => absurd hs h⟩, fun a rule fault => ⟨?_, fun h => absurd hs h.not_storable⟩,
      fun e => ⟨?_, ?_⟩, fun key h => (hlate h).1 trivial, fun e h he => absurd he (hlate h).1,
      fun e h => (hlate h).2⟩
    · rintro ⟨_, _, _, h⟩; exact absurd trivial (hlate h).1
    · intro h; exact absurd trivial (hlate h).1
    · intro h; exact absurd trivial (hlate h).1
    · rintro ⟨_, h⟩; cases h

end Places

end PluginConsent
