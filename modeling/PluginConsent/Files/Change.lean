import PluginConsent.Files.Walk

namespace PluginConsent.Tree

/-- The tree that is left behind, also by a change that fails: directories that were made on the way
stay, and a temporary file never does. -/
abbrev Changed (ε : Type) := Tree × Except ε Unit

def makeDirectory (t : Tree) (cwd : WorkingDirectory) (route : Route) : Except FileError Tree := do
  match ← t.slot cwd route with
  | none => throw .alreadyExists
  | some s =>
    if maxNameBytes < s.name.utf8ByteSize then throw .nameTooLong
    match t.lookup? s.location with
    | some _ => throw .alreadyExists
    | none => return t.put s.location (.directory directoryMode)

def makeAncestors (t : Tree) (cwd : WorkingDirectory) : List Route → Changed FileError
  | [] => (t, .ok ())
  | route :: up =>
    if route.isEmpty then (t, .ok ())
    else match t.makeDirectory cwd route with
      | .ok t' => (t', .ok ())
      | .error .notFound =>
        match t.makeAncestors cwd up with
        | (t', .error e) => (t', .error e)
        | (t', .ok ()) =>
          match t'.makeDirectory cwd route with
          | .ok t'' => (t'', .ok ())
          | .error e => (t', if t'.leadsToDirectory cwd route then .ok () else .error e)
      | .error e => (t, if t.leadsToDirectory cwd route then .ok () else .error e)

def makeDirectories (t : Tree) (cwd : WorkingDirectory) (path : String) : Changed FileError :=
  if path = "" then (t, .ok ())
  else match checkPath path with
    | .error e => (t, .error e)
    | .ok () => t.makeAncestors cwd (Route.ofString path).ancestors

/-- A name that is longer than all names in the directory, so none of them. -/
def freshName (t : Tree) (dir : Location) : String :=
  String.ofList (List.replicate (((t.names dir).map String.length).foldl max 0 + 1) '~')

def moveTo (t : Tree) (cwd : WorkingDirectory) (source : Location) (path : String) :
    Except FileError Tree := do
  if path.toList.contains '\x00' then throw .invalidArgument
  checkPath path
  match ← t.slot cwd (.ofString path) with
  | none => throw .busy
  | some s =>
    if maxNameBytes < s.name.utf8ByteSize then throw .nameTooLong
    if s.slash then throw .notDirectory
    if t.isDirectoryAt s.location then throw .isDirectory
    match t.lookup? source with
    | none => throw .notFound
    | some e => return (t.erase source).put s.location e

inductive ReplaceError where
  | makeDirectory (path : String) (cause : FileError)
  | makeTemporary (path : String) (cause : FileError)
  | move (path : String) (cause : FileError)
deriving DecidableEq, Repr

def ownerOnlyMode : Nat := 0o600

def modeFor (t : Tree) (cwd : WorkingDirectory) (path : String) : Nat :=
  match t.status cwd path with
  | .ok e => e.mode
  | .error _ => ownerOnlyMode

theorem modeFor_of_status {t : Tree} {cwd : WorkingDirectory} {path : String} {e : Entry}
    (h : t.status cwd path = .ok e) : t.modeFor cwd path = e.mode := by
  rw [modeFor, h]

def parentOf (path : String) : String :=
  match Path.parent? path with
  | some "" => "."
  | some parent => parent
  | none => "."

def stage (t : Tree) (cwd : WorkingDirectory) (path : String) (content : ByteArray)
    (dir : Location) : Changed ReplaceError :=
  let temporary := dir ++ [t.freshName dir]
  let staged := t.put temporary (.file content (t.modeFor cwd path))
  match staged.moveTo cwd temporary path with
  | .ok t' => (t', .ok ())
  | .error e => (staged.erase temporary, .error (.move path e))

/-- The bytes that the name of a temporary file and the slash before it add to a path. -/
def temporaryBytes : Nat := 11

/-- Where a temporary file is made. Its path starts at the root, so a working directory that has been
removed is of no use for it, not even for going up. -/
def temporaryDirectory (t : Tree) (cwd : WorkingDirectory) (path : String) :
    Except FileError Location := do
  match (origin cwd (.ofString path)).location? with
  | some dir =>
    if Path.maxBytes < (Path.join dir.text path).utf8ByteSize + temporaryBytes then
      throw .nameTooLong
    t.locate cwd path
  | none => throw .notFound

def replaceFile (t : Tree) (cwd : WorkingDirectory) (path : String) (content : ByteArray) :
    Changed ReplaceError :=
  match t.makeDirectories cwd (parentOf path) with
  | (t', .error e) => (t', .error (.makeDirectory (parentOf path) e))
  | (t', .ok ()) =>
    match t'.temporaryDirectory cwd (parentOf path) with
    | .error e => (t', .error (.makeTemporary (parentOf path) e))
    | .ok dir => t'.stage cwd path content dir

def fileMode : Nat := 0o644

def append (t : Tree) (cwd : WorkingDirectory) (path : String) (more : ByteArray) : Tree :=
  match t.resolve cwd true path with
  | .ok (.vacant dir name) => t.put (dir ++ [name]) (.file more fileMode)
  | .ok (.present loc) =>
    match t.lookup? loc with
    | some (.file content mode) => t.put loc (.file (content ++ more) mode)
    | _ => t
  | _ => t

end PluginConsent.Tree
