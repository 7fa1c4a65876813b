import PluginConsent.Rule.Cover

namespace PluginConsent

namespace Text

inductive SliceFault where
  | outOfRange (start stop : Nat)
  | insideCharacter (offset : Nat)
deriving DecidableEq, Repr

def slice (s : String) (start stop : Nat) : Except SliceFault String :=
  if start ≤ stop ∧ stop ≤ s.utf8ByteSize then
    if hstart : String.Pos.Raw.IsValid s ⟨start⟩ then
      if hstop : String.Pos.Raw.IsValid s ⟨stop⟩ then
        .ok (String.extract (s.pos ⟨start⟩ hstart) (s.pos ⟨stop⟩ hstop))
      else .error (.insideCharacter stop)
    else .error (.insideCharacter start)
  else .error (.outOfRange start stop)

def offset? (c : Char) : List Char → Option Nat
  | [] => none
  | d :: ds => if d = c then some 0 else (offset? c ds).map (d.utf8Size + ·)

end Text

def Clause.cut (rule : String) : Except Text.SliceFault (Option Clause) :=
  match Text.offset? '(' rule.toList, (Rule.stem? [')'] rule.toList).map String.ofList with
  | some opening, some inner => do
    let tool ← Text.slice rule 0 opening
    if tool ≠ "" ∧ tool.toList.all isToolChar then
      return some ⟨tool, ← Text.slice inner (opening + 1) inner.utf8ByteSize⟩
    else return none
  | _, _ => .ok none

end PluginConsent
