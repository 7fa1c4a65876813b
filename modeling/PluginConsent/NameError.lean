import PluginConsent.Text.Quoted

namespace PluginConsent

inductive NameError where
  | unknownScope (name : String)
  | unknownAction (name : String)
  | unknownStrategy (name : String)
deriving DecidableEq, Repr

def NameError.message : NameError → String
  | .unknownScope s =>
    "unknown settings scope " ++ Text.quoteString s ++ " (expected user, project or local)"
  | .unknownAction s => "unknown action " ++ Text.quoteString s ++ " (expected allow, ask or deny)"
  | .unknownStrategy s =>
    "unknown write strategy " ++ Text.quoteString s ++ " (expected merge or replace)"

end PluginConsent
