import PluginConsent.Json.Basic
import PluginConsent.Json.Token

namespace PluginConsent.Json

/-- An open container: items in reverse, or fields, with the key whose value is being read. A key that
is repeated keeps its first place and its last value. -/
inductive Frame where
  | items (done : List Json)
  | fields (done : Object)
  | member (done : Object) (key : String)

inductive Builder where
  | value (stack : List Frame)
  | firstItem (stack : List Frame)
  | firstKey (stack : List Frame)
  | key (done : Object) (stack : List Frame)
  | colon (stack : List Frame)
  | separator (stack : List Frame)
  | finished (v : Json)

namespace Builder

def maxDepth : Nat := 127

def complete? (v : Json) : List Frame → Option Builder
  | [] => some (.finished v)
  | .items done :: up => some (.separator (.items (v :: done) :: up))
  | .member done k :: up => some (.separator (.fields (done.put k v) :: up))
  | .fields _ :: _ => none

def value? (stack : List Frame) : Token → Option Builder
  | .null => complete? .null stack
  | .boolean b => complete? (.boolean b) stack
  | .number n => complete? (.number n) stack
  | .string s => complete? (.string s) stack
  | .openBracket => if stack.length < maxDepth then some (.firstItem stack) else none
  | .openBrace => if stack.length < maxDepth then some (.firstKey stack) else none
  | _ => none

def separator? : List Frame → Token → Option Builder
  | .items done :: up, .comma => some (.value (.items done :: up))
  | .items done :: up, .closeBracket => complete? (.array done.reverse) up
  | .fields done :: up, .comma => some (.key done up)
  | .fields done :: up, .closeBrace => complete? (.object done) up
  | _, _ => none

def feed? : Builder → Token → Option Builder
  | .value stack, t => value? stack t
  | .firstItem stack, .closeBracket => complete? (.array []) stack
  | .firstItem stack, t => value? (.items [] :: stack) t
  | .firstKey stack, .closeBrace => complete? (.object []) stack
  | .firstKey stack, .string k => some (.colon (.member [] k :: stack))
  | .key done stack, .string k => some (.colon (.member done k :: stack))
  | .colon stack, .colon => some (.value stack)
  | .separator stack, t => separator? stack t
  | _, _ => none

def result? : Builder → Option Json
  | .finished v => some v
  | _ => none

end Builder

def ofTokens? (ts : List Token) : Option Json :=
  (ts.foldlM Builder.feed? (.value [])).bind Builder.result?

def ofString? (s : String) : Option Json := (Token.ofChars? s.toList).bind ofTokens?

end PluginConsent.Json
