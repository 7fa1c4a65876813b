import PluginConsent.Json.Basic
import PluginConsent.Text.Quoted

namespace PluginConsent.Rule

inductive Fault where
  | notText (kind : String)
  | tooLong (length : Nat)
  | nonAscii (position : Nat) (character : Char)
  | malformed (rule : String)
deriving DecidableEq, Repr

def maxLength : Nat := 500

def Fault.message : Fault → String
  | .notText kind => "rule must be a string, got " ++ kind
  | .tooLong n =>
    "rule is " ++ toString n ++ " characters long, exceeding the " ++ toString maxLength
      ++ " character limit"
  | .nonAscii i c =>
    "rule contains non-ASCII character " ++ Text.quoteChar c ++ " at position " ++ toString i
  | .malformed rule =>
    "rule " ++ Text.quoteString rule ++ " does not match Tool(pattern); patterns may only contain "
      ++ "letters, digits and _ . * : / - or spaces"

def isLetter (c : Char) : Bool := ('a' ≤ c && c ≤ 'z') || ('A' ≤ c && c ≤ 'Z')

def isWordChar (c : Char) : Bool := isLetter c || ('0' ≤ c && c ≤ '9') || c == '_'

def isPatternChar (c : Char) : Bool :=
  isWordChar c || c == '.' || c == '*' || c == ':' || c == '/' || c == '-' || c == ' '

def isPattern (cs : List Char) : Bool := !cs.isEmpty && cs.all isPatternChar

def isArgument : List Char → Bool
  | '(' :: body => body.getLast? == some ')' && isPattern body.dropLast
  | _ => false

def isShaped : List Char → Bool
  | c :: cs => isLetter c && isArgument (cs.dropWhile isWordChar)
  | [] => false

def isAscii (c : Char) : Bool := c.toNat < 128

def firstNonAscii? (rule : String) : Option (Char × Nat) :=
  rule.toList.zipIdx.find? fun p => !isAscii p.1

/-- Length goes before characters and characters before shape. -/
def check (rule : String) : Except Fault Unit :=
  if maxLength < rule.length then .error (.tooLong rule.length)
  else match firstNonAscii? rule with
    | some (c, i) => .error (.nonAscii i c)
    | none => if isShaped rule.toList then .ok () else .error (.malformed rule)

def checkJson : Json → Except Fault Unit
  | .string rule => check rule
  | v => .error (.notText v.kind)

def firstFault? : List String → Option (String × Fault)
  | [] => none
  | rule :: rules =>
    match check rule with
    | .ok () => firstFault? rules
    | .error fault => some (rule, fault)

end PluginConsent.Rule
