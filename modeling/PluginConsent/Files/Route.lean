import PluginConsent.Files.Path

namespace PluginConsent

inductive Start where
  | root
  | dot
  | name
deriving DecidableEq, Repr

/-- The start of a path and the parts between slashes after it, the last one first. -/
structure Route where
  start : Start
  parts : List String
deriving DecidableEq, Repr

namespace Route

def splitOnto (done : List String) (part : List Char) : List Char → List String
  | [] => String.ofList part.reverse :: done
  | c :: cs =>
    if c = '/' then splitOnto (String.ofList part.reverse :: done) [] cs
    else splitOnto done (c :: part) cs

def split (cs : List Char) : List String := splitOnto [] [] cs

def ofChars : List Char → Route
  | [] => ⟨.name, []⟩
  | '/' :: cs => ⟨.root, split cs⟩
  | ['.'] => ⟨.dot, []⟩
  | '.' :: '/' :: cs => ⟨.dot, split cs⟩
  | cs => ⟨.name, split cs⟩

def ofString (path : String) : Route := ofChars path.toList

def text (r : Route) : String :=
  let rest := String.intercalate "/" r.parts.reverse
  match r.start with
  | .root => "/" ++ rest
  | .dot => if r.parts = [] then "." else "./" ++ rest
  | .name => rest

def isAbsolute (r : Route) : Bool := r.start == .root

def isEmpty (r : Route) : Bool := r == ⟨.name, []⟩

def names (r : Route) : List String :=
  let rest := (r.parts.filter (· ≠ "")).reverse
  if r.start = .dot then "." :: rest else rest

def endsInSlash (r : Route) : Bool := r.parts.head? == some ""

def walk (r : Route) : List String := if r.endsInSlash then r.names ++ ["."] else r.names

def isIdle (part : String) : Bool := part == "" || part == "."

/-- The path without its last part. The root and the empty path have no parent. -/
def parent? (r : Route) : Option Route :=
  match r.parts.dropWhile isIdle with
  | [] => if r.start = .dot then some ⟨.name, []⟩ else none
  | _ :: up => some ⟨r.start, up.dropWhile isIdle⟩

def ancestorsWithin : Nat → Route → List Route
  | 0, _ => []
  | fuel + 1, r =>
    r :: match r.parent? with
      | some up => ancestorsWithin fuel up
      | none => []

/-- The path, its parent, and so on; each has fewer parts than the one before, or starts otherwise. -/
def ancestors (r : Route) : List Route := ancestorsWithin (r.parts.length + 2) r

end Route

def Path.parent? (path : String) : Option String := (Route.ofString path).parent?.map Route.text

end PluginConsent
