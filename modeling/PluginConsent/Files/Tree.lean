import PluginConsent.Entries
import PluginConsent.Files.Path
import PluginConsent.Text.Ascending

namespace PluginConsent

abbrev Location := List String

namespace Location

def text (loc : Location) : String :=
  if loc = [] then "/" else String.join (loc.map ("/" ++ ·))

def bytes (loc : Location) : Nat := loc.foldl (fun n name => n + name.utf8ByteSize + 1) 0

/-- Whether its path from the root can be used. A deeper location can still be reached through links. -/
def fits (loc : Location) : Bool := loc.bytes ≤ Path.maxBytes

end Location

inductive Entry where
  | file (content : ByteArray) (mode : Nat)
  | directory (mode : Nat)
  | link (target : String)
  | pipe (mode : Nat)

namespace Entry

/-- Links have no mode of their own. -/
def mode : Entry → Nat
  | .file _ m => m
  | .directory m => m
  | .link _ => 0o777
  | .pipe m => m

def isDirectory : Entry → Bool
  | .directory _ => true
  | _ => false

def isLink : Entry → Bool
  | .link _ => true
  | _ => false

end Entry

def directoryMode : Nat := 0o755

/-- Who runs a program. All that stands in a tree belongs to the owner, whom nothing keeps from searching,
listing and changing directories or from adding to files; but the mode of a file may keep the owner from
reading it, if not one with privileges. -/
inductive Account where
  | owner
  | privileged
deriving DecidableEq, Repr

def Account.mayRead : Account → (mode : Nat) → Bool
  | .owner, mode => mode.testBit 8
  | .privileged, _ => true

/-- What stands at a place, and the trees below it by name. A tree says what stands at each location;
that a location has something below it does not mean that something stands there. -/
inductive Tree where
  | node (entry : Option Entry) (branches : List (String × Tree))

namespace Tree

def entry : Tree → Option Entry
  | node e _ => e

def branches : Tree → Entries String Tree
  | node _ ts => ts

def empty : Tree := node none []

def child (t : Tree) (name : String) : Tree := (Entries.find? name t.branches).getD empty

def subtree (t : Tree) (loc : Location) : Tree := loc.foldl child t

/-- The root is always a directory. -/
def lookup? (t : Tree) (loc : Location) : Option Entry :=
  if loc = [] then some (.directory directoryMode) else (t.subtree loc).entry

def set (e : Option Entry) : Location → Tree → Tree
  | [], t => node e t.branches
  | name :: loc, t => node t.entry (Entries.put name (set e loc (t.child name)) t.branches)

def put (t : Tree) (loc : Location) (e : Entry) : Tree := t.set (some e) loc

def erase (t : Tree) (loc : Location) : Tree := t.set none loc

def ofList (es : List (Location × Entry)) : Tree := es.foldl (fun t e => t.put e.1 e.2) empty

mutual

def listFrom (loc : Location) : Tree → List (Location × Entry)
  | node e ts => e.toList.map (fun e => (loc, e)) ++ listBelow loc ts

def listBelow (loc : Location) : List (String × Tree) → List (Location × Entry)
  | [] => []
  | (name, t) :: ts => listFrom (loc ++ [name]) t ++ listBelow loc ts

end

def toList (t : Tree) : List (Location × Entry) := t.listFrom []

mutual

/-- What can be reached by paths of so many bytes, each name taking one more for the slash before it. -/
def within (bytes : Nat) : Tree → Tree
  | node e ts => node e (belowWithin bytes ts)

def belowWithin (bytes : Nat) : List (String × Tree) → List (String × Tree)
  | [] => []
  | (name, t) :: ts =>
    let used := name.utf8ByteSize + 1
    if used ≤ bytes then (name, within (bytes - used) t) :: belowWithin bytes ts
    else belowWithin bytes ts

end

def reachable (t : Tree) : Tree := t.within Path.maxBytes

def names (t : Tree) (dir : Location) : List String :=
  let here := t.subtree dir
  Ascending.ofList ((Entries.keys here.branches).filter fun name => (here.child name).entry.isSome)

def isDirectoryAt (t : Tree) (loc : Location) : Bool :=
  match t.lookup? loc with
  | some e => e.isDirectory
  | none => false

theorem child_node_put_self (e : Option Entry) (ts : Entries String Tree) (name : String)
    (t : Tree) : (node e (ts.put name t)).child name = t := by
  simp [child, branches]

theorem child_node_put_of_ne (e : Option Entry) (ts : Entries String Tree) {name name' : String}
    (h : name' ≠ name) (t : Tree) :
    (node e (ts.put name t)).child name' = (node e ts).child name' := by
  simp [child, branches, Entries.find?_put_of_ne h]

theorem subtree_cons (t : Tree) (name : String) (loc : Location) :
    t.subtree (name :: loc) = (t.child name).subtree loc := rfl

theorem entry_set (e : Option Entry) (loc loc' : Location) (t : Tree) :
    ((t.set e loc).subtree loc').entry = if loc' = loc then e else (t.subtree loc').entry := by
  induction loc generalizing t loc' with
  | nil => cases loc' <;> simp [set, subtree, child, branches, entry]
  | cons name loc ih =>
    cases loc' with
    | nil => simp [set, subtree, entry]
    | cons name' loc' =>
      rw [set, subtree_cons, subtree_cons]
      by_cases h : name' = name
      · subst h
        rw [child_node_put_self, ih]
        simp
      · rw [child_node_put_of_ne _ _ h]
        simp [h, child, branches]

theorem lookup?_put_self (t : Tree) {loc : Location} (h : loc ≠ []) (e : Entry) :
    (t.put loc e).lookup? loc = some e := by
  simp [lookup?, put, h, entry_set]

theorem lookup?_put_of_ne (t : Tree) {loc loc' : Location} (h : loc' ≠ loc) (e : Entry) :
    (t.put loc e).lookup? loc' = t.lookup? loc' := by
  simp [lookup?, put, h, entry_set]

theorem lookup?_erase_of_ne (t : Tree) {loc loc' : Location} (h : loc' ≠ loc) :
    (t.erase loc).lookup? loc' = t.lookup? loc' := by
  simp [lookup?, erase, h, entry_set]

end Tree

end PluginConsent
