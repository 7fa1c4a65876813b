import PluginConsent.Files.Walk
import PluginConsent.Scope

namespace PluginConsent

structure Surroundings where
  workingDirectory : WorkingDirectory
  homeVariable : Option String
  account : Account

inductive PlaceError where
  | noHome
  | noProject (cause : FileError)
deriving DecidableEq, Repr

namespace PlaceError

def message : PlaceError → String
  | .noHome => "could not determine home directory"
  | .noProject cause => "could not determine project directory: " ++ cause.message

def hint : PlaceError → String
  | .noHome => "pass --home or set $HOME"
  | .noProject _ => "pass --project"

end PlaceError

/-- Roots that are not given come from the surroundings: the home variable, and the working directory
with its ancestors. -/
structure Places where
  home : Option String
  project : Option String
  cache : Option String

namespace Places

def settingsDirectory : String := ".claude"

def repositoryDirectory : String := ".git"

def homeDirectory (p : Places) (env : Surroundings) : Except PlaceError String :=
  match p.home with
  | some home => .ok home
  | none =>
    match env.homeVariable with
    | some home => if home = "" then .error .noHome else .ok home
    | none => .error .noHome

/-- Whether the directory at the end of a trail has an entry of the given name that is no dead link. -/
def contains (t : Tree) (dir : Trail) (name : String) : Bool :=
  ((dir.here t).child name).entry.isSome &&
    Location.fits (name :: dir.map Prod.fst) &&
    (t.follow true Tree.maxLinks dir [name] >>= Target.location).toBool

def holder? (t : Tree) (name : String) : Trail → Option Location
  | [] => if contains t [] name then some [] else none
  | step :: up => if contains t (step :: up) name then some (Trail.location (step :: up)) else holder? t name up

/-- A settings directory anywhere above goes before a repository, however near that is. -/
def projectRoot (t : Tree) (cwd : Location) : Location :=
  let dirs := t.trail cwd
  ((holder? t settingsDirectory dirs).orElse fun _ => holder? t repositoryDirectory dirs).getD cwd

def projectDirectory (p : Places) (env : Surroundings) (t : Tree) : Except PlaceError String :=
  match p.project with
  | some project => .ok project
  | none =>
    match env.workingDirectory.location? with
    | some cwd => .ok (projectRoot t cwd).text
    | none => .error (.noProject .notFound)

def settingsFile (directory name : String) : String :=
  Path.join (Path.join directory settingsDirectory) name

def path (p : Places) (env : Surroundings) (t : Tree) : Scope → Except PlaceError String
  | .user => (p.homeDirectory env).map (settingsFile · "settings.json")
  | .project => (p.projectDirectory env t).map (settingsFile · "settings.json")
  | .local => (p.projectDirectory env t).map (settingsFile · "settings.local.json")

def cacheIn (home : String) : String :=
  Path.join (Path.join (Path.join home settingsDirectory) "plugins") "cache"

def cacheRoot (p : Places) (env : Surroundings) : Except PlaceError String :=
  match p.cache with
  | some cache => .ok cache
  | none => (p.homeDirectory env).map cacheIn

end Places

end PluginConsent
