import PluginConsent.Text.Numeric

namespace PluginConsent

structure Clause where
  tool : String
  pattern : String
deriving DecidableEq, Repr

namespace Clause

def isToolChar (c : Char) : Bool := Text.isAlphanumeric c || c == '_'

def text (c : Clause) : String := c.tool ++ "(" ++ c.pattern ++ ")"

/-- The tool ends before the first parenthesis and the pattern before the last character. -/
def ofRule? (rule : String) : Option Clause :=
  let tool := rule.toList.takeWhile (· != '(')
  match rule.toList.dropWhile (· != '(') with
  | _ :: body =>
    if tool ≠ [] ∧ tool.all isToolChar ∧ body.getLast? = some ')' then
      some ⟨String.ofList tool, String.ofList body.dropLast⟩
    else none
  | [] => none

end Clause

end PluginConsent
