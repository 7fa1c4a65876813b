import PluginConsent.Text.Alphabetic
import PluginConsent.Text.LetterCase

namespace PluginConsent.Category

structure Listing where
  key : String
  label : String
  description : String
deriving DecidableEq, Repr

def catalogue : List Listing :=
  [⟨"file-edit", "File editing", "Create, modify and overwrite files in the project"⟩,
    ⟨"file-read", "File reading", "Read and search files in the project"⟩,
    ⟨"terminal", "Terminal commands", "Run shell commands"⟩,
    ⟨"git", "Git operations", "Run git commands against the repository"⟩,
    ⟨"docker", "Docker", "Build, run and manage containers"⟩,
    ⟨"mcp", "MCP tools", "Call tools exposed by MCP servers"⟩,
    ⟨"network", "Network access", "Fetch URLs and search the web"⟩]

def listed? (key : String) : Option Listing := catalogue.find? fun l => l.key = key

def titleCase : Bool → List Char → List Char
  | _, [] => []
  | start, c :: cs =>
    let c := if c = '-' then ' ' else c
    if Text.isAlphabetic c then
      (if start then Text.upper c else Text.lower c) ++ titleCase false cs
    else c :: titleCase true cs

def fallbackLabel (key : String) : String := String.ofList (titleCase true key.toList)

def describe (key : String) : Listing :=
  (listed? key).getD ⟨key, fallbackLabel key, "Permissions for " ++ fallbackLabel key⟩

end PluginConsent.Category
