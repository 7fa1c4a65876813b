import PluginConsent.Action
import PluginConsent.Json.Basic

namespace PluginConsent

/-- Entries keep the form they were declared in, and whatever has the wrong shape is passed over when
they are read. -/
structure Declaration where
  name : String
  permissions : Json.Object

structure Wish where
  plugin : String
  key : String
  fields : Json.Object

namespace Wish

def rules (w : Wish) : List String :=
  match Entries.find? "rules" w.fields with
  | some (.array items) => Json.strings items
  | _ => []

def suggestion? (w : Wish) : Option Action :=
  ((Entries.find? "suggested" w.fields).bind Json.string?).bind Action.ofName?

end Wish

namespace Declaration

def keys (d : Declaration) : List String := Entries.keys d.permissions

def wishes (d : Declaration) : List Wish :=
  d.permissions.filterMap fun f => f.2.object?.map fun fields => ⟨d.name, f.1, fields⟩

def toJson (d : Declaration) : Json :=
  .object [("name", .string d.name), ("permissions", .object d.permissions)]

end Declaration

end PluginConsent
