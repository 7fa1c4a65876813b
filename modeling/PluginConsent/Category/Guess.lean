import PluginConsent.Rule.Clause

namespace PluginConsent.Category

def startsWith (s start : String) : Bool := start.toList.isPrefixOf s.toList

def guessFor (tool pattern : String) : String :=
  if startsWith tool "mcp__" then "mcp"
  else if tool ∈ ["Edit", "Write", "MultiEdit", "NotebookEdit"] then "file-edit"
  else if tool ∈ ["Read", "Glob", "Grep", "LS", "NotebookRead"] then "file-read"
  else if tool = "Bash" ∧ startsWith pattern "git" then "git"
  else if tool = "Bash" ∧ startsWith pattern "docker" then "docker"
  else "terminal"

def guess (rule : String) : String :=
  match Clause.ofRule? rule with
  | some c => guessFor c.tool c.pattern
  | none => guessFor rule ""

end PluginConsent.Category
