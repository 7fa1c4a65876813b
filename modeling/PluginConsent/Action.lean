import PluginConsent.NameError

namespace PluginConsent

/-- From the most to the least permissive. -/
inductive Action where
  | allow
  | ask
  | deny
deriving DecidableEq, Repr

namespace Action

def all : List Action := [.allow, .ask, .deny]

def priority : Action → Nat
  | .allow => 0
  | .ask => 1
  | .deny => 2

instance : LT Action := ⟨fun a b => a.priority < b.priority⟩

instance (a b : Action) : Decidable (a < b) := inferInstanceAs (Decidable (a.priority < b.priority))

def name : Action → String
  | .allow => "allow"
  | .ask => "ask"
  | .deny => "deny"

def ofName? (s : String) : Option Action := all.find? (fun a => a.name = s)

def ofName (s : String) : Except NameError Action :=
  match ofName? s with
  | some a => .ok a
  | none => .error (.unknownAction s)

theorem mem_all (a : Action) : a ∈ all := by cases a <;> simp [all]

theorem ofName?_name (a : Action) : ofName? a.name = some a := by cases a <;> decide

theorem ofName?_eq_some_iff {s : String} {a : Action} : ofName? s = some a ↔ s = a.name := by
  refine ⟨fun h => ?_, fun h => h ▸ ofName?_name a⟩
  have hname := List.find?_some h
  exact (of_decide_eq_true hname).symm

theorem name_injective {a b : Action} (h : a.name = b.name) : a = b :=
  Option.some.inj (by rw [← ofName?_name a, ← ofName?_name b, h])

end Action

end PluginConsent
