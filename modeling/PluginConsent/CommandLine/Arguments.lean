import PluginConsent.Scope
import PluginConsent.Strategy

namespace PluginConsent.CommandLine

inductive CommandName where
  | scan
  | plan
  | apply
  | write
  | show
  | validate
deriving DecidableEq, Repr

inductive Flag where
  | verbose
  | json
  | mostRestrictive
deriving DecidableEq, Repr

inductive Setting where
  | home
  | project
  | cacheDir
  | scope
  | strategy
  | choices
  | allow
  | ask
  | deny
deriving DecidableEq, Repr

namespace CommandName

def all : List CommandName := [.scan, .plan, .apply, .write, .show, .validate]

def name : CommandName → String
  | .scan => "scan"
  | .plan => "plan"
  | .apply => "apply"
  | .write => "write"
  | .show => "show"
  | .validate => "validate"

def ofName? (s : String) : Option CommandName := all.find? fun c => c.name = s

def flags : CommandName → List Flag
  | .scan => [.json]
  | .plan => [.json, .mostRestrictive]
  | .show => [.json]
  | _ => []

def settings : CommandName → List Setting
  | .plan => [.scope]
  | .apply => [.scope, .strategy, .choices]
  | .write => [.scope, .strategy, .allow, .ask, .deny]
  | _ => []

end CommandName

namespace Flag

def name : Flag → String
  | .verbose => "verbose"
  | .json => "json"
  | .mostRestrictive => "most-restrictive"

end Flag

namespace Setting

def name : Setting → String
  | .home => "home"
  | .project => "project"
  | .cacheDir => "cache-dir"
  | .scope => "scope"
  | .strategy => "strategy"
  | .choices => "choices"
  | .allow => "allow"
  | .ask => "ask"
  | .deny => "deny"

def repeatable : Setting → Bool
  | .allow => true
  | .ask => true
  | .deny => true
  | _ => false

def accepts : Setting → String → Bool
  | .home, v => v ≠ ""
  | .project, v => v ≠ ""
  | .cacheDir, v => v ≠ ""
  | .scope, v => (Scope.ofName? v).isSome
  | .strategy, v => (Strategy.ofName? v).isSome
  | _, _ => true

end Setting

abbrev Level := Option CommandName

namespace Level

def flags : Level → List Flag
  | none => [.verbose]
  | some c => .verbose :: c.flags

def settings : Level → List Setting
  | none => [.home, .project, .cacheDir]
  | some c => .home :: .project :: .cacheDir :: c.settings

end Level

structure Given where
  flags : List Flag
  settings : List (Setting × String)
  rules : List String

namespace Given

def nothing : Given := ⟨[], [], []⟩

def has (g : Given) (f : Flag) : Bool := g.flags.contains f

def values (g : Given) (s : Setting) : List String :=
  (g.settings.filter fun p => p.1 = s).map Prod.snd

def value? (g : Given) (s : Setting) : Option String := (g.values s).head?

end Given

inductive Stop where
  | usage
  | help
  | version
deriving DecidableEq, Repr

structure Line where
  before : Given
  command : CommandName
  after : Given

/-- Options of every command may stand before or after its name, all others only after it; after two
dashes nothing is an option. -/
structure Reading where
  before : Given
  level : Level
  current : Given

namespace Reading

def addFlag (r : Reading) (f : Flag) : Except Stop Reading :=
  if r.current.has f then .error .usage
  else .ok { r with current := { r.current with flags := f :: r.current.flags } }

def addSetting (r : Reading) (s : Setting) (v : String) : Except Stop Reading :=
  if !s.accepts v then .error .usage
  else if !s.repeatable && (r.current.value? s).isSome then .error .usage
  else .ok { r with current := { r.current with settings := r.current.settings ++ [(s, v)] } }

def addRules (r : Reading) (rules : List String) : Except Stop Reading :=
  if rules = [] then .ok r
  else if r.level = some .validate then
    .ok { r with current := { r.current with rules := r.current.rules ++ rules } }
  else .error .usage

def addLetters (r : Reading) : List Char → Except Stop Reading
  | [] => .ok r
  | 'v' :: cs => do (← r.addFlag .verbose).addLetters cs
  | 'h' :: _ => .error .help
  | 'V' :: _ => .error (if r.level = none then .version else .usage)
  | _ :: _ => .error .usage

inductive LongOption where
  | flag (f : Flag)
  | setting (s : Setting)
  | stop (s : Stop)

def longOption? (r : Reading) (name : String) : Option LongOption :=
  if name = "help" then some (.stop .help)
  else if name = "version" ∧ r.level = none then some (.stop .version)
  else match r.level.flags.find? fun f => f.name = name with
    | some f => some (.flag f)
    | none => (r.level.settings.find? fun s => s.name = name).map .setting

def isValue (word : String) : Bool := word = "-" || word.toList.head? ≠ some '-'

def addWord (r : Reading) (word : String) : Except Stop Reading :=
  match r.level with
  | some _ => r.addRules [word]
  | none =>
    match CommandName.ofName? word with
    | some c => .ok ⟨r.current, some c, .nothing⟩
    | none => .error .usage

def helpOn : List String → Stop
  | [] => .help
  | [word] => if word = "help" ∨ (CommandName.ofName? word).isSome then .help else .usage
  | _ => .usage

def splitLong (cs : List Char) : String × Option String :=
  match cs.dropWhile (· ≠ '=') with
  | _ :: v => (String.ofList (cs.takeWhile (· ≠ '=')), some (String.ofList v))
  | [] => (String.ofList cs, none)

/-- What an argument is. A setting without a value takes the next argument for it. -/
inductive Kind where
  | done (r : Except Stop Reading)
  | needsValue (s : Setting)
  | allRules
  | question

def addLong (r : Reading) (cs : List Char) : Kind :=
  let (name, value) := splitLong cs
  match r.longOption? name, value with
  | some (.flag f), none => .done (r.addFlag f)
  | some (.stop s), none => .done (.error s)
  | some (.setting s), some v => .done (r.addSetting s v)
  | some (.setting s), none => .needsValue s
  | _, _ => .done (.error .usage)

def addArgument (r : Reading) (arg : String) : Kind :=
  match arg.toList with
  | ['-', '-'] => .allRules
  | '-' :: '-' :: cs => r.addLong cs
  | '-' :: c :: cs => .done (r.addLetters (c :: cs))
  | _ => if r.level = none ∧ arg = "help" then .question else .done (r.addWord arg)

def addAll (r : Reading) : List String → Except Stop Reading
  | [] => .ok r
  | arg :: rest =>
    match r.addArgument arg with
    | .done (.error s) => .error s
    | .done (.ok r') => addAll r' rest
    | .allRules => r.addRules rest
    | .question => .error (helpOn rest)
    | .needsValue s =>
      match rest with
      | v :: rest' => if isValue v then do addAll (← r.addSetting s v) rest' else .error .usage
      | [] => .error .usage

end Reading

def Line.ofArguments (args : List String) : Except Stop Line := do
  let r ← Reading.addAll ⟨.nothing, none, .nothing⟩ args
  match r.level with
  | none => throw .usage
  | some .validate => if r.current.rules = [] then throw .usage else return ⟨r.before, .validate, r.current⟩
  | some c => return ⟨r.before, c, r.current⟩

namespace Line

def has (l : Line) (f : Flag) : Bool := l.before.has f || l.after.has f

/-- A value after the command goes before one in front of it. -/
def value? (l : Line) (s : Setting) : Option String := (l.after.value? s).or (l.before.value? s)

def scope (l : Line) : Scope := ((l.value? .scope).bind Scope.ofName?).getD .local

def strategy (l : Line) : Strategy := ((l.value? .strategy).bind Strategy.ofName?).getD .merge

def choices (l : Line) : String := (l.value? .choices).getD "-"

end Line

end PluginConsent.CommandLine
