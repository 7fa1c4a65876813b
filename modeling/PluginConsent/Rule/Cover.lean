import PluginConsent.Rule.Clause

namespace PluginConsent.Rule

def stem? (ending cs : List Char) : Option (List Char) :=
  if ending.isSuffixOf cs then some (cs.take (cs.length - ending.length)) else none

/-- A pattern with what stands before a star at its end, and before a colon and a star there. -/
structure Pattern where
  chars : List Char
  star : Option (List Char)
  colonStar : Option (List Char)
deriving DecidableEq, Repr

namespace Pattern

def ofChars (cs : List Char) : Pattern := ⟨cs, stem? ['*'] cs, stem? [':', '*'] cs⟩

/-- A lone star covers every pattern. Of two patterns ending in a colon and a star the stems
decide; otherwise a pattern ending in a star covers what starts with its stem. -/
def covers (broad narrow : Pattern) : Bool :=
  broad.chars == ['*'] ||
    match broad.colonStar, narrow.colonStar with
    | some b, some n => b.isPrefixOf n
    | _, _ =>
      match broad.star with
      | some b => b.isPrefixOf narrow.chars
      | none => false

end Pattern

structure Form where
  rule : String
  parts : Option (String × Pattern)
deriving DecidableEq, Repr

namespace Form

def ofRule (rule : String) : Form :=
  ⟨rule, (Clause.ofRule? rule).map fun c => (c.tool, .ofChars c.pattern.toList)⟩

def covers (broad narrow : Form) : Bool :=
  match broad.parts, narrow.parts with
  | some (tool, pattern), some (tool', pattern') => tool == tool' && pattern.covers pattern'
  | _, _ => false

end Form

def covers (broad narrow : String) : Bool := (Form.ofRule broad).covers (.ofRule narrow)

end PluginConsent.Rule
