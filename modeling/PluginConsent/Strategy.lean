import PluginConsent.NameError

namespace PluginConsent

inductive Strategy where
  | merge
  | replace
deriving DecidableEq, Repr

namespace Strategy

def all : List Strategy := [.merge, .replace]

def name : Strategy → String
  | .merge => "merge"
  | .replace => "replace"

def ofName? (s : String) : Option Strategy := all.find? (fun strategy => strategy.name = s)

def ofName (s : String) : Except NameError Strategy :=
  match ofName? s with
  | some strategy => .ok strategy
  | none => .error (.unknownStrategy s)

theorem ofName?_name (s : Strategy) : ofName? s.name = some s := by cases s <;> decide

end Strategy

end PluginConsent
