import PluginConsent.Category
import PluginConsent.Json.Token

namespace PluginConsent

abbrev Choices := Index Action

namespace Choices

/-- An action may also stand as an object whose one member has the action as its key and null as its
value. -/
def ofMembers? (done : Choices) : List Json.Token → Option Choices
  | .string key :: .colon :: .string name :: [.closeBrace] =>
    (Action.ofName? name).map fun a => done.put key a
  | .string key :: .colon :: .string name :: .comma :: rest =>
    match Action.ofName? name with
    | some a => ofMembers? (done.put key a) rest
    | none => none
  | .string key :: .colon :: .openBrace :: .string name :: .colon :: .null :: .closeBrace ::
      [.closeBrace] => (Action.ofName? name).map fun a => done.put key a
  | .string key :: .colon :: .openBrace :: .string name :: .colon :: .null :: .closeBrace ::
      .comma :: rest =>
    match Action.ofName? name with
    | some a => ofMembers? (done.put key a) rest
    | none => none
  | _ => none

def ofTokens? : List Json.Token → Option Choices
  | [.openBrace, .closeBrace] => some []
  | .openBrace :: rest => ofMembers? [] rest
  | _ => none

def ofString? (text : String) : Option Choices := (Json.Token.ofChars? text.toList).bind ofTokens?

def unknown? (choices : Choices) (cs : Categories) : Option String :=
  choices.keys.find? fun key => (Entries.find? key cs).isNone

def rules (choices : Choices) (cs : Categories) (a : Action) : List String :=
  (choices.filter fun c => c.2 = a).flatMap fun c =>
    match Entries.find? c.1 cs with
    | some category => category.rules
    | none => []

/-- The rules of each chosen category under the chosen action; every action that was chosen has a
bucket. -/
def policy (choices : Choices) (cs : Categories) : Policy :=
  .ofBuckets fun a =>
    if choices.any (fun c => c.2 = a) then some (Ascending.ofList (choices.rules cs a)) else none

end Choices

end PluginConsent
