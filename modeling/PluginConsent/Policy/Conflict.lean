import PluginConsent.Category.Guess
import PluginConsent.Index
import PluginConsent.Policy

namespace PluginConsent

structure Conflict where
  rule : String
  current : Action
  proposed : Action
  category : String
deriving DecidableEq, Repr

namespace Policy

/-- One action for each rule: a rule that several buckets list takes the last of their actions. -/
def decisions (p : Policy) : Index Action := Index.ofList (p.filed.map fun f => (f.2, f.1))

def conflicts (current proposed : Policy) : List Conflict :=
  let known := current.decisions
  proposed.decisions.filterMap fun d =>
    (Entries.find? d.1 known).bind fun a =>
      if a = d.2 then none else some ⟨d.1, a, d.2, Category.guess d.1⟩

end Policy

end PluginConsent
