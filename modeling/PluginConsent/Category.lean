import PluginConsent.Category.Catalogue
import PluginConsent.Declaration
import PluginConsent.Index
import PluginConsent.Policy
import PluginConsent.Rule.Reduce

namespace PluginConsent

inductive Preference where
  | mostPermissive
  | mostRestrictive
deriving DecidableEq, Repr

namespace Preference

def prefers : Preference → Action → Action → Bool
  | .mostPermissive, candidate, current => candidate < current
  | .mostRestrictive, candidate, current => current < candidate

def better (p : Preference) : Option Action → Action → Option Action
  | none, candidate => some candidate
  | some current, candidate => some (if p.prefers candidate current then candidate else current)

/-- The first of the suggestions that no other one is preferred to. -/
def best? (p : Preference) (suggestions : List Action) : Option Action :=
  suggestions.foldl p.better none

end Preference

structure Category where
  label : String
  description : String
  rules : List String
  suggested : Action
  sources : List String
deriving DecidableEq, Repr

abbrev Categories := Index Category

namespace Category

/-- The category of wishes that share a key. Without a usable suggestion it is to be asked. -/
def ofWishes (preference : Preference) (key : String) (ws : List Wish) : Category where
  label := (describe key).label
  description := (describe key).description
  rules := Rule.reduce (ws.flatMap Wish.rules)
  suggested := (preference.best? (ws.filterMap Wish.suggestion?)).getD .ask
  sources := Ascending.ofList (ws.map Wish.plugin)

end Category

namespace Categories

def ofDeclarations (preference : Preference) (ds : List Declaration) : Categories :=
  let wishes := ds.flatMap Declaration.wishes
  (Ascending.ofList (wishes.map Wish.key)).map fun key =>
    (key, Category.ofWishes preference key (wishes.filter fun w => w.key = key))

def proposed (cs : Categories) : Policy :=
  .ofBuckets fun a =>
    match (cs.filter fun c => c.2.suggested = a).flatMap fun c => c.2.rules with
    | [] => none
    | rules => some (Ascending.ofList rules)

end Categories

end PluginConsent
