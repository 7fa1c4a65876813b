import PluginConsent.Files.Walk
import PluginConsent.Manifest

namespace PluginConsent

structure Skip where
  location : Location
  reason : SkipReason
deriving DecidableEq, Repr

structure ScanReport where
  declarations : List Declaration
  skipped : List Skip

namespace Tree

/-- An order for the names in each directory, which come in no particular one when it is listed. -/
structure Listing (t : Tree) where
  names : Location → List String
  perm : ∀ dir, (names dir).Perm (t.names dir)

def ascendingListing (t : Tree) : t.Listing := ⟨t.names, fun _ => .refl _⟩

/-- The names in a directory with what stands there; nothing if it cannot be opened by its path. -/
def children (t : Tree) (l : t.Listing) (dir : Location) : List (String × Entry) :=
  match t.locate .root dir.text with
  | .ok loc =>
    if t.isDirectoryAt loc then
      (l.names loc).filterMap fun name => (t.lookup? (loc ++ [name])).map fun e => (name, e)
    else []
  | .error _ => []

def directories (t : Tree) (l : t.Listing) (dir : Location) : List Location :=
  let names := ((t.children l dir).filter fun c => c.2.isDirectory).map Prod.fst
  (Ascending.ofList names).map fun name => dir ++ [name]

def linkSkips (t : Tree) (l : t.Listing) (dir : Location) : List Skip :=
  ((t.children l dir).filter fun c => c.2.isLink).map fun c => ⟨dir ++ [c.1], .link (dir ++ [c.1])⟩

def isPlugin (t : Tree) (loc : Location) : Bool :=
  (t.linkStatus .root (Manifest.marker loc).text).toBool

def plugins (t : Tree) (l : t.Listing) (root : Location) : List Location :=
  (t.directories l root).flatMap fun market => (t.directories l market).filter t.isPlugin

/-- Marketplaces are the directories in the cache, and plugins those in them that have a marker. Links
are reported and never followed. -/
def scanAt (t : Tree) (l : t.Listing) (who : Account) (root : Location) : ScanReport where
  declarations := (t.plugins l root).filterMap fun loc => (Manifest.read t who root loc).toOption
  skipped :=
    t.linkSkips l root ++ (t.directories l root).flatMap (t.linkSkips l) ++
      (t.plugins l root).filterMap fun loc =>
        match Manifest.read t who root loc with
        | .ok _ => none
        | .error reason => some ⟨loc, reason⟩

/-- A cache that cannot be found is an empty one. -/
def scanListed (t : Tree) (l : t.Listing) (who : Account) (cwd : WorkingDirectory) (root : String) :
    ScanReport :=
  match t.canonical cwd root with
  | .ok loc => t.scanAt l who loc
  | .error _ => ⟨[], []⟩

def scan (t : Tree) (who : Account) (cwd : WorkingDirectory) (root : String) : ScanReport :=
  t.scanListed t.ascendingListing who cwd root

end Tree

end PluginConsent
