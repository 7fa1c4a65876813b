import PluginConsent.Rule.Clause

namespace PluginConsent.Rule

inductive GlobMatches : List Char → List Char → Prop
  | nil : GlobMatches [] []
  | star (t : List Char) {p s : List Char} : GlobMatches p s → GlobMatches ('*' :: p) (t ++ s)
  | char {c : Char} {p s : List Char} : c ≠ '*' → GlobMatches p s → GlobMatches (c :: p) (c :: s)

/-- A pattern that ends in a colon and a star permits every argument that starts with a match of the
glob before them; every other pattern is a glob for the whole argument. -/
def PatternMatches (pattern argument : List Char) : Prop :=
  (∃ p u v, pattern = p ++ [':', '*'] ∧ argument = u ++ v ∧ GlobMatches p u) ∨
    ((∀ p, pattern ≠ p ++ [':', '*']) ∧ GlobMatches pattern argument)

def Permits (rule tool argument : String) : Prop :=
  ∃ c, Clause.ofRule? rule = some c ∧ c.tool = tool ∧
    PatternMatches c.pattern.toList argument.toList

end PluginConsent.Rule
