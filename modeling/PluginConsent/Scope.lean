import PluginConsent.NameError

namespace PluginConsent

inductive Scope where
  | user
  | project
  | local
deriving DecidableEq, Repr

namespace Scope

def all : List Scope := [.user, .project, .local]

def name : Scope → String
  | .user => "user"
  | .project => "project"
  | .local => "local"

def ofName? (s : String) : Option Scope := all.find? (fun scope => scope.name = s)

def ofName (s : String) : Except NameError Scope :=
  match ofName? s with
  | some scope => .ok scope
  | none => .error (.unknownScope s)

theorem ofName?_name (s : Scope) : ofName? s.name = some s := by cases s <;> decide

end Scope

end PluginConsent
