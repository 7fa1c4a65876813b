import PluginConsent.Json.Basic

namespace PluginConsent.Json

def hexDigit (n : Nat) : Char := Nat.digitChar n

def escapeInString (c : Char) : List Char :=
  if c = '"' ∨ c = '\\' then ['\\', c]
  else if c = '\x08' then ['\\', 'b']
  else if c = '\x0c' then ['\\', 'f']
  else if c = '\n' then ['\\', 'n']
  else if c = '\r' then ['\\', 'r']
  else if c = '\t' then ['\\', 't']
  else if c < ' ' then ['\\', 'u', '0', '0', hexDigit (c.toNat / 16), hexDigit (c.toNat % 16)]
  else [c]

def quote (s : String) : String := String.ofList ('"' :: s.toList.flatMap escapeInString ++ ['"'])

structure Layout where
  step : Option Nat

def Layout.line (l : Layout) (level : Nat) : String :=
  match l.step with
  | some n => "\n".pushn ' ' (n * level)
  | none => ""

def Layout.colon (l : Layout) : String := if l.step.isSome then ": " else ":"

mutual

def write (l : Layout) (level : Nat) (out : String) : Json → String
  | .null => out ++ "null"
  | .boolean b => out ++ (if b then "true" else "false")
  | .number n => out ++ n.text
  | .string s => out ++ quote s
  | .array [] => out ++ "[]"
  | .array (v :: vs) =>
    writeItems l (level + 1) (write l (level + 1) (out ++ "[" ++ l.line (level + 1)) v) vs
      ++ l.line level ++ "]"
  | .object [] => out ++ "\x7b\x7d"
  | .object ((k, v) :: fs) =>
    writeFields l (level + 1)
      (write l (level + 1) (out ++ "\x7b" ++ l.line (level + 1) ++ quote k ++ l.colon) v) fs
      ++ l.line level ++ "\x7d"

def writeItems (l : Layout) (level : Nat) (out : String) : List Json → String
  | [] => out
  | v :: vs => writeItems l level (write l level (out ++ "," ++ l.line level) v) vs

def writeFields (l : Layout) (level : Nat) (out : String) : List (String × Json) → String
  | [] => out
  | (k, v) :: fs =>
    writeFields l level (write l level (out ++ "," ++ l.line level ++ quote k ++ l.colon) v) fs

end

def compact (v : Json) : String := write ⟨none⟩ 0 "" v

def pretty (v : Json) : String := write ⟨some 2⟩ 0 "" v

end PluginConsent.Json
