import PluginConsent.CommandLine.Arguments
import PluginConsent.CommandLine.Failure

namespace PluginConsent.CommandLine

/-- What a command is given besides its arguments. The account's home directory stands in for a home
variable that is missing or empty. -/
structure Environment where
  surroundings : Surroundings
  accountHome : Option String
  log : Option String
  input : ByteArray

structure Output where
  code : Nat
  stdout : String
  stderr : String
deriving DecidableEq, Repr

abbrev Result := Except Failure (List String × Bool)

def Output.ofResult (verbose : Bool) : Result → Output
  | .ok (ls, good) => ⟨if good then 0 else 1, unlines ls, ""⟩
  | .error f => ⟨1, "", unlines (f.lines verbose)⟩

def Environment.home? (env : Environment) : Option String :=
  match env.surroundings.homeVariable with
  | some h => if h = "" then env.accountHome else some h
  | none => env.accountHome

def Line.places (l : Line) (env : Environment) : Places where
  home := (l.value? .home).or env.home?
  project := l.value? .project
  cache := l.value? .cacheDir

def jsonLines (v : Json) : List String := [v.pretty]

def readText (t : Tree) (who : Account) (cwd : WorkingDirectory) (path : String) :
    Except FileError String := do
  match String.fromUTF8? (← t.readFile who cwd path) with
  | some text => return text
  | none => throw .notUtf8

def choicesText (env : Environment) (t : Tree) (source : String) : Except Failure String :=
  if source = "-" then
    match String.fromUTF8? env.input with
    | some text => .ok text
    | none => .error (.ofFile "failed to read choices from stdin" .notUtf8)
  else
    match readText t env.surroundings.account env.surroundings.workingDirectory source with
    | .ok text => .ok text
    | .error e => .error (.ofFile ("failed to read choices from " ++ source) e)

def readChoices (env : Environment) (t : Tree) (source : String) : Except Failure Choices := do
  match Choices.ofString? (← choicesText env t source) with
  | some choices => return choices
  | none =>
    throw (.plain "choices must be a JSON object mapping category keys to allow, ask or deny")

def writtenLine (path : String) (written : Bool) : String :=
  (if written then "Updated " else "No changes to ") ++ path

def settingsPath (r : Review) (env : Environment) (t : Tree) (scope : Scope) :
    Except Failure String :=
  match r.places.path env.surroundings t scope with
  | .ok path => .ok path
  | .error e => .error (.ofPlace e)

def written (path context : String) (w : Tree × Except WriteError Bool) : Tree × Result :=
  match w with
  | (t, .ok b) => (t, .ok ([writtenLine path b], true))
  | (t, .error e) => (t, .error (.ofWrite context e))

def runScan (r : Review) (env : Environment) (t : Tree) (l : Line) : Result :=
  let report := r.scan env.surroundings t
  .ok (if l.has .json then jsonLines report.toJson else report.lines (l.has .verbose), true)

def runPlan (r : Review) (env : Environment) (t : Tree) (l : Line) : Result :=
  let r := if l.has .mostRestrictive then { r with preference := .mostRestrictive } else r
  let plan := r.plan env.surroundings t l.scope
  .ok (if l.has .json then jsonLines plan.toJson else plan.lines, true)

def runApply (r : Review) (env : Environment) (t : Tree) (l : Line) : Tree × Result :=
  match readChoices env t l.choices with
  | .error f => (t, .error f)
  | .ok choices =>
    match settingsPath r env t l.scope with
    | .error f => (t, .error f)
    | .ok path =>
      written path ("failed to apply choices to " ++ l.scope.name ++ " settings")
        (r.apply env.surroundings t l.scope choices l.strategy)

def bucketOf : List String → Option (List String)
  | [] => none
  | rules => some rules

/-- Only actions with a rule have a bucket, so replacing leaves the others alone. -/
def Line.rules (l : Line) : Policy :=
  ⟨bucketOf (l.after.values .allow), bucketOf (l.after.values .ask), bucketOf (l.after.values .deny)⟩

def runWrite (r : Review) (env : Environment) (t : Tree) (l : Line) : Tree × Result :=
  if l.rules.isBare then
    (t, .error (.plain "nothing to write; pass at least one --allow, --ask or --deny rule"))
  else
    match settingsPath r env t l.scope with
    | .error f => (t, .error f)
    | .ok path =>
      written path ("failed to write " ++ l.scope.name ++ " settings")
        (r.write env.surroundings t l.scope l.rules l.strategy)

def views (r : Review) (env : Environment) (t : Tree) : List ScopeView :=
  (r.places.readAll env.surroundings t).map fun p =>
    ⟨p.1, (r.places.path env.surroundings t p.1).toOption, p.2⟩

def runShow (r : Review) (env : Environment) (t : Tree) (l : Line) : Result :=
  let vs := views r env t
  .ok (if l.has .json then jsonLines (.object (vs.map fun v => (v.scope.name, v.toJson)))
    else vs.flatMap ScopeView.lines, true)

def runValidate (rules : List String) : Result :=
  .ok (rules.map Rule.verdictLine, (Rule.firstFault? rules).isNone)

def runLine (env : Environment) (t : Tree) (l : Line) : Tree × Result :=
  let r := Review.ofPlaces (l.places env) env.surroundings
  match l.command with
  | .scan => (t, runScan r env t l)
  | .plan => (t, runPlan r env t l)
  | .apply => runApply r env t l
  | .write => runWrite r env t l
  | .show => (t, runShow r env t l)
  | .validate => (t, runValidate l.after.rules)

def logPath (env : Environment) : String :=
  env.log.getD
    (match env.home? with
      | some home => Path.join (Path.join home ".plugin-perms") "plugin-perms.log"
      | none => "plugin-perms.log")

def logLine : String := "INFO plugin-perms started\n"

/-- Starts the log, if that is possible. The rest of it is added behind the first line after the command
has read its files, so it is left out. -/
def startLog (env : Environment) (t : Tree) : Tree :=
  let cwd := env.surroundings.workingDirectory
  let log (t : Tree) : Tree := t.append cwd (logPath env) logLine.toUTF8
  match Path.parent? (logPath env) with
  | none => t
  | some "" => log t
  | some parent =>
    match t.makeDirectories cwd parent with
    | (t', .ok ()) => log t'
    | (t', .error _) => t'

def versionLine : String := "plugin-perms 0.1.0"

def usageLines : List String :=
  ["Review and apply the permissions installed plugins ask for", "",
    "Usage: plugin-perms [OPTIONS] <COMMAND>", "", "Commands:"]
  ++ CommandName.all.map fun c => "  " ++ c.name

def stopped : Stop → Output
  | .version => ⟨0, unlines [versionLine], ""⟩
  | .help => ⟨0, unlines usageLines, ""⟩
  | .usage => ⟨2, "", unlines usageLines⟩

def run (env : Environment) (t : Tree) (args : List String) : Tree × Output :=
  match Line.ofArguments args with
  | .error s => (t, stopped s)
  | .ok l =>
    let (t', result) := runLine env (startLog env t) l
    (t', .ofResult (l.has .verbose) result)

end PluginConsent.CommandLine
