import PluginConsent.Files.Bounded
import PluginConsent.Json.Printer
import PluginConsent.Json.Reader
import PluginConsent.Settings.Document
import PluginConsent.Settings.WriteError
import PluginConsent.Text.Blank

namespace PluginConsent

namespace Document

def maxBytes : Nat := 1024 * 1024

def ofText (text : String) : Document :=
  if text.toList.all Text.isBlank then []
  else ((Json.ofString? text).bind Json.object?).getD []

def ofContent (content : ByteArray) : Document :=
  match readBounded maxBytes content with
  | .ok (some text) => ofText text
  | _ => []

/-- Reading never fails: what is no readable document counts as an empty one. Nothing only if there is no
file. -/
def read? (t : Tree) (who : Account) (cwd : WorkingDirectory) (path : String) : Option Document :=
  match t.status cwd path with
  | .ok (.file _ _) =>
    match t.readFile who cwd path with
    | .ok content => some (ofContent content)
    | .error .notFound => none
    | .error _ => some []
  | .error .notFound => none
  | _ => some []

def text (d : Document) : String := (Json.object d).pretty ++ "\n"

def write (t : Tree) (cwd : WorkingDirectory) (path : String) (d : Document) :
    Tree.Changed WriteError :=
  match t.replaceFile cwd path (text d).toUTF8 with
  | (t', .ok ()) => (t', .ok ())
  | (t', .error e) => (t', .error (.ofReplace e))

def same (d d' : Document) : Bool := Json.same (.object d) (.object d')

end Document

def Policy.firstFault? (p : Policy) : Option WriteError :=
  p.filed.findSome? fun f =>
    match Rule.check f.2 with
    | .ok () => none
    | .error fault => some (.invalidRule f.1 f.2 fault)

structure Update where
  path : String
  before : Option Document
  after : Document

namespace Update

def load (t : Tree) (who : Account) (cwd : WorkingDirectory) (path : String) (p : Policy)
    (s : Strategy) : Update :=
  let before := Document.read? t who cwd path
  ⟨path, before, (before.getD []).apply p s⟩

def isIdle (u : Update) : Bool :=
  match u.before with
  | some d => u.after.same d
  | none => false

def store (t : Tree) (cwd : WorkingDirectory) (u : Update) : Tree × Except WriteError Bool :=
  if u.isIdle then (t, .ok false)
  else match u.after.write t cwd u.path with
    | (t', .ok ()) => (t', .ok true)
    | (t', .error e) => (t', .error e)

end Update

namespace Places

def read (p : Places) (env : Surroundings) (t : Tree) (scope : Scope) : Policy :=
  match p.path env t scope with
  | .ok path =>
    ((Document.read? t env.account env.workingDirectory path).map Document.policy).getD .empty
  | .error _ => .empty

def readAll (p : Places) (env : Surroundings) (t : Tree) : List (Scope × Policy) :=
  Scope.all.map fun scope => (scope, p.read env t scope)

def write (p : Places) (env : Surroundings) (t : Tree) (scope : Scope) (rules : Policy)
    (s : Strategy) : Tree × Except WriteError Bool :=
  match rules.firstFault? with
  | some e => (t, .error e)
  | none =>
    match p.path env t scope with
    | .error e => (t, .error (.place e))
    | .ok path =>
      (Update.load t env.account env.workingDirectory path rules s).store t env.workingDirectory

end Places

end PluginConsent
