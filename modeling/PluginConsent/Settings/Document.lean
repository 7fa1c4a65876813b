import PluginConsent.Json.Basic
import PluginConsent.Policy
import PluginConsent.Strategy
import PluginConsent.Text.Ascending

namespace PluginConsent

/-- Only the keys that name an action are read or written; all others are carried along as they are. -/
abbrev Document := Json.Object

namespace Document

def bucket? (d : Document) (a : Action) : Option (List String) :=
  match Entries.find? a.name d with
  | some (.array items) => some (Json.strings items)
  | _ => none

def rules (d : Document) (a : Action) : List String := (bucket? d a).getD []

def policy (d : Document) : Policy := .ofBuckets (bucket? d)

def combined (d : Document) (a : Action) (new : List String) : Strategy → List String
  | .merge => rules d a ++ new
  | .replace => new

/-- Merging nothing into a bucket leaves it as it is, in whatever form it was. -/
def applyBucket (s : Strategy) (d : Document) (b : Action × List String) : Document :=
  if s = .merge ∧ b.2 = [] then d
  else Entries.put b.1.name (Json.ofStrings (Ascending.ofList (combined d b.1 b.2 s))) d

def apply (d : Document) (p : Policy) (s : Strategy) : Document := p.buckets.foldl (applyBucket s) d

end Document

end PluginConsent
