import PluginConsent.Rule.Cover
import PluginConsent.Text.Ascending

namespace PluginConsent.Rule

/-- Of two rules that cover each other the smaller one stays. -/
def Form.supersedes (broad narrow : Form) : Bool :=
  broad.covers narrow && broad.rule != narrow.rule &&
    (!narrow.covers broad || broad.rule < narrow.rule)

def reduce (rules : List String) : List String :=
  let union := (Ascending.ofList rules).map Form.ofRule
  (union.filter fun narrow => !union.any (·.supersedes narrow)).map Form.rule

end PluginConsent.Rule
