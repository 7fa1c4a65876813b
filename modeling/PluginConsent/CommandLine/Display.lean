import PluginConsent.Review

namespace PluginConsent

def unlines (ls : List String) : String := String.join (ls.map (· ++ "\n"))

namespace Policy

def toJson (p : Policy) : Json := .object (p.buckets.map fun b => (b.1.name, Json.ofStrings b.2))

def isBare (p : Policy) : Bool := p.filed.isEmpty

end Policy

namespace Category

def toJson (c : Category) : Json :=
  .object
    [("label", .string c.label), ("description", .string c.description),
      ("rules", Json.ofStrings c.rules), ("suggested", .string c.suggested.name),
      ("sources", Json.ofStrings c.sources)]

end Category

namespace Conflict

def toJson (c : Conflict) : Json :=
  .object
    [("rule", .string c.rule), ("current_action", .string c.current.name),
      ("proposed_action", .string c.proposed.name), ("category", .string c.category)]

def line (c : Conflict) : String :=
  "  " ++ c.rule ++ "  " ++ c.current.name ++ " -> " ++ c.proposed.name ++ "  (" ++ c.category ++ ")"

end Conflict

namespace CommandLine

def underline : String := "".pushn '─' 21

def listed (names : List String) : String := String.intercalate ", " names

end CommandLine

namespace Plan

open CommandLine

def toJson (p : Plan) : Json :=
  .object
    [("scope", .string p.scope.name),
      ("categories", .object (p.categories.map fun c => (c.1, c.2.toJson))),
      ("conflicts", .array (p.conflicts.map Conflict.toJson))]

def categoryLines (c : String × Category) : List String :=
  ["  " ++ c.2.label ++ " [" ++ c.1 ++ "]  suggested: " ++ c.2.suggested.name,
    "    " ++ c.2.description]
  ++ c.2.rules.map ("    - " ++ ·)
  ++ ["    requested by " ++ listed c.2.sources]

def conflictLines (p : Plan) : List String :=
  match p.conflicts with
  | [] => []
  | cs => ["", "Conflicts with " ++ p.scope.name ++ " settings", underline] ++ cs.map Conflict.line

def lines (p : Plan) : List String :=
  match p.categories with
  | [] => ["No plugins request permissions."]
  | cs => ["Requested permissions", underline] ++ cs.flatMap categoryLines ++ p.conflictLines

end Plan

namespace ScanReport

open CommandLine

def toJson (r : ScanReport) : Json := .array (r.declarations.map Declaration.toJson)

def declarationLine (d : Declaration) : String := "  " ++ d.name ++ "  " ++ listed d.keys

def skipLines (r : ScanReport) (verbose : Bool) : List String :=
  match r.skipped with
  | [] => []
  | ss =>
    ["", toString ss.length ++ " candidate(s) skipped"]
    ++ if verbose then ss.map fun s => "  " ++ s.reason.message else []

def lines (r : ScanReport) (verbose : Bool) : List String :=
  (match r.declarations with
    | [] => ["No plugins declare permissions."]
    | ds => ds.map declarationLine)
  ++ r.skipLines verbose

end ScanReport

structure ScopeView where
  scope : Scope
  path : Option String
  rules : Policy

namespace ScopeView

def toJson (v : ScopeView) : Json :=
  .object
    [("path", match v.path with | some p => .string p | none => .null), ("rules", v.rules.toJson)]

def padded (a : Action) : String := a.name.pushn ' ' (5 - a.name.length)

def lines (v : ScopeView) : List String :=
  [v.scope.name ++ " " ++ v.path.getD "(unresolved)"]
  ++ (if v.rules.isBare then ["  (no rules)"] else [])
  ++ v.rules.filed.map fun f => "  " ++ padded f.1 ++ " " ++ f.2

end ScopeView

namespace Rule

def verdictLine (rule : String) : String :=
  match check rule with
  | .ok () => "ok      " ++ rule
  | .error fault => "invalid " ++ fault.message

end Rule

end PluginConsent
