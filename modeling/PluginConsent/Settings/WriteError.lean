import PluginConsent.Action
import PluginConsent.Files.Change
import PluginConsent.Rule.Grammar
import PluginConsent.Settings.Places

namespace PluginConsent

inductive WriteError where
  | invalidRule (action : Action) (rule : String) (fault : Rule.Fault)
  | unknownCategory (key : String)
  | place (e : PlaceError)
  | makeDirectory (path : String) (cause : FileError)
  | makeTemporary (path : String) (cause : FileError)
  | replace (path : String) (cause : FileError)
deriving DecidableEq, Repr

namespace WriteError

def ofReplace : Tree.ReplaceError → WriteError
  | .makeDirectory path cause => .makeDirectory path cause
  | .makeTemporary path cause => .makeTemporary path cause
  | .move path cause => .replace path cause

def message : WriteError → String
  | .invalidRule action rule fault =>
    "refusing to write invalid " ++ action.name ++ " rule " ++ Text.quoteString rule ++ ": "
      ++ fault.message
  | .unknownCategory key => "no category named " ++ Text.quoteString key ++ " in the current scan"
  | .place e => e.message
  | .makeDirectory path cause => "failed to create directory " ++ path ++ ": " ++ cause.message
  | .makeTemporary path cause => "failed to write settings to " ++ path ++ ": " ++ cause.message
  | .replace path cause => "failed to replace " ++ path ++ ": " ++ cause.message

def hint? : WriteError → Option String
  | .invalidRule _ _ _ =>
    some "rules look like Tool(pattern), e.g. Bash(git status:*) or Read(src/*)"
  | .unknownCategory _ =>
    some "run `plugin-perms plan` to list the categories plugins request"
  | .place e => some e.hint
  | _ => none

def causes : WriteError → List String
  | .invalidRule _ _ fault => [fault.message]
  | .makeDirectory _ cause => [cause.message]
  | .makeTemporary _ cause => [cause.message]
  | .replace _ cause => [cause.message]
  | _ => []

end WriteError

end PluginConsent
