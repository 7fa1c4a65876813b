import PluginConsent.Files.FileError
import PluginConsent.Files.Route
import PluginConsent.Files.Tree

/-!
Where a path leads in a tree. Links on the way are followed, at most forty of them; a link at the end
only if asked for. A relative path starts in the working directory, also if that has been removed.
-/

namespace PluginConsent

/-- The directory that relative paths start from. It may have been removed: then there are no names in
it, but two dots still lead out of it, through what was above it. -/
structure WorkingDirectory where
  nearest : Location
  removed : Nat
deriving DecidableEq, Repr

namespace WorkingDirectory

def ofLocation (loc : Location) : WorkingDirectory := ⟨loc, 0⟩

def root : WorkingDirectory := ofLocation []

def location? (cwd : WorkingDirectory) : Option Location :=
  if cwd.removed = 0 then some cwd.nearest else none

def losing (dir : Location) (cwd : WorkingDirectory) : WorkingDirectory :=
  if dir.isPrefixOf cwd.nearest then
    ⟨dir.dropLast, cwd.removed + (cwd.nearest.length - dir.dropLast.length)⟩
  else cwd

end WorkingDirectory

/-- The way from the root down to a location: the names on it, the last one first, each with the tree
below it. -/
abbrev Trail := List (String × Tree)

namespace Trail

def location (trail : Trail) : Location := (trail.map Prod.fst).reverse

def here (root : Tree) : Trail → Tree
  | [] => root
  | (_, t) :: _ => t

def onward (root : Tree) (trail : Trail) (name : String) : Trail :=
  (name, (trail.here root).child name) :: trail

end Trail

/-- What a path names: something that is there, a free name in a directory, or a directory that has
been removed. -/
inductive Target where
  | present (loc : Location)
  | vacant (dir : Location) (name : String)
  | removed
deriving DecidableEq, Repr

def Target.location : Target → Except FileError Location
  | .present loc => .ok loc
  | _ => .error .notFound

namespace Tree

def maxNameBytes : Nat := 255

def maxLinks : Nat := 40

def trail (t : Tree) (loc : Location) : Trail := loc.foldl (Trail.onward t) []

theorem trail_append (t : Tree) (loc : Location) (name : String) :
    t.trail (loc ++ [name]) = (t.trail loc).onward t name := by
  simp [trail]

theorem tail_trail (t : Tree) (loc : Location) : (t.trail loc).tail = t.trail loc.dropLast := by
  rcases List.eq_nil_or_concat loc with rfl | ⟨up, name, rfl⟩
  · rfl
  · simp [trail_append, Trail.onward]

theorem location_trail (t : Tree) (loc : Location) : (t.trail loc).location = loc := by
  have h (trail : Trail) : (loc.foldl (Trail.onward t) trail).location = trail.location ++ loc := by
    induction loc generalizing trail with
    | nil => simp
    | cons name loc ih =>
      rw [List.foldl_cons, ih]
      simp [Trail.onward, Trail.location]
  exact h []

theorem here_trail (t : Tree) (loc : Location) : (t.trail loc).here t = t.subtree loc := by
  have h (trail : Trail) : (loc.foldl (Trail.onward t) trail).here t = (trail.here t).subtree loc := by
    induction loc generalizing trail with
    | nil => rfl
    | cons name loc ih => exact ih _
  exact h []

/-- Walks down from a directory; `jump` goes on where a link leads. -/
def descend (t : Tree) (followLast : Bool)
    (jump : Trail → List String → Except FileError Target) (dir : Trail) :
    List String → Except FileError Target
  | [] => .ok (.present dir.location)
  | name :: rest =>
    if name = "." then descend t followLast jump dir rest
    else if name = ".." then descend t followLast jump dir.tail rest
    else if maxNameBytes < name.utf8ByteSize then .error .nameTooLong
    else
      let next := dir.onward t name
      match (next.here t).entry with
      | none => if rest = [] then .ok (.vacant dir.location name) else .error .notFound
      | some (.directory _) => descend t followLast jump next rest
      | some (.link target) =>
        if rest = [] ∧ followLast = false then .ok (.present next.location)
        else
          let route := Route.ofString target
          jump (if route.isAbsolute then [] else dir) (route.walk ++ rest)
      | some _ => if rest = [] then .ok (.present next.location) else .error .notDirectory

def follow (t : Tree) (followLast : Bool) : Nat → Trail → List String → Except FileError Target
  | 0 => t.descend followLast fun _ _ => .error .tooManyLinks
  | links + 1 => t.descend followLast (t.follow followLast links)

def walk (t : Tree) (followLast : Bool) (links : Nat) (dir : Location) :
    List String → Except FileError Target :=
  t.follow followLast links (t.trail dir)

def climb (go : List String → Except FileError Target) : Nat → List String → Except FileError Target
  | 0, names => go names
  | _ + 1, [] => .ok .removed
  | removed + 1, name :: rest =>
    if name = "." then climb go (removed + 1) rest
    else if name = ".." then climb go removed rest
    else .error .notFound

def walkFrom (t : Tree) (cwd : WorkingDirectory) (followLast : Bool) :
    List String → Except FileError Target :=
  climb (t.walk followLast maxLinks cwd.nearest) cwd.removed

def origin (cwd : WorkingDirectory) (route : Route) : WorkingDirectory :=
  if route.isAbsolute then .root else cwd

def target (t : Tree) (cwd : WorkingDirectory) (followLast : Bool) (route : Route) :
    Except FileError Target :=
  t.walkFrom (origin cwd route) followLast route.walk

def checkText (path : String) : Except FileError Unit :=
  if path.toList.contains '\x00' then .error .nulInPath
  else if path = "" then .error .notFound
  else .ok ()

/-- What every use of a path but finding its location asks of it. Parents of a path that meets this
meet it too, but for the empty one. -/
def checkPath (path : String) : Except FileError Unit := do
  checkText path
  if !Path.fits path then throw .nameTooLong

def resolve (t : Tree) (cwd : WorkingDirectory) (followLast : Bool) (path : String) :
    Except FileError Target := do
  checkPath path
  t.target cwd followLast (.ofString path)

def locate (t : Tree) (cwd : WorkingDirectory) (path : String) : Except FileError Location := do
  (← t.resolve cwd true path).location

/-- The location a path of any length leads to, found by looking up every name on the way by its path
from the root. A removed directory has no such path. -/
def canonical (t : Tree) (cwd : WorkingDirectory) (path : String) : Except FileError Location := do
  checkText path
  let route := Route.ofString path
  match (origin cwd route).location? with
  | some dir => (← t.reachable.walk true maxLinks dir route.walk).location
  | none => throw .notFound

def entryAt (t : Tree) : Target → Except FileError Entry
  | .present loc =>
    match t.lookup? loc with
    | some e => .ok e
    | none => .error .notFound
  | .vacant _ _ => .error .notFound
  | .removed => .ok (.directory directoryMode)

def status (t : Tree) (cwd : WorkingDirectory) (path : String) : Except FileError Entry := do
  t.entryAt (← t.resolve cwd true path)

def linkStatus (t : Tree) (cwd : WorkingDirectory) (path : String) : Except FileError Entry := do
  t.entryAt (← t.resolve cwd false path)

def readFile (t : Tree) (who : Account) (cwd : WorkingDirectory) (path : String) :
    Except FileError ByteArray := do
  let e ← t.status cwd path
  if !who.mayRead e.mode then throw .permissionDenied
  match e with
  | .file content _ => return content
  | .directory _ => throw .isDirectory
  | _ => return ByteArray.empty

theorem readFile_of_status {t : Tree} {cwd : WorkingDirectory} {path : String} {content : ByteArray}
    {mode : Nat} (h : t.status cwd path = .ok (.file content mode)) (who : Account) :
    t.readFile who cwd path = if who.mayRead mode then .ok content else .error .permissionDenied := by
  have hmode : (Entry.file content mode).mode = mode := rfl
  simp only [readFile, h, bind, Except.bind, hmode]
  cases who.mayRead mode with
  | false => rfl
  | true => rfl

def leadsToDirectory (t : Tree) (cwd : WorkingDirectory) (route : Route) : Bool :=
  match t.target cwd true route >>= t.entryAt with
  | .ok e => e.isDirectory
  | .error _ => false

def isDotName (name : String) : Bool := name == "." || name == ".."

structure Slot where
  dir : Location
  name : String
  slash : Bool

namespace Slot

def location (s : Slot) : Location := s.dir ++ [s.name]

end Slot

def slot (t : Tree) (cwd : WorkingDirectory) (route : Route) : Except FileError (Option Slot) := do
  match route.names.getLast? with
  | none => return none
  | some name =>
    let dir ← t.walkFrom (origin cwd route) true (route.names.dropLast ++ ["."])
    if isDotName name then return none
    else return some ⟨← dir.location, name, route.endsInSlash⟩

end Tree

end PluginConsent
