import PluginConsent.Category.Choices
import PluginConsent.Policy.Conflict
import PluginConsent.Scan
import PluginConsent.Settings.Store

namespace PluginConsent

structure Plan where
  scope : Scope
  categories : Categories
  conflicts : List Conflict

/-- The cache is settled when a review is set up, and the settings files each time they are used. -/
structure Review where
  places : Places
  cache : Option String
  preference : Preference

namespace Review

def ofPlaces (places : Places) (env : Surroundings) : Review where
  places := places
  cache := (places.cacheRoot env).toOption
  preference := .mostPermissive

variable (r : Review) (env : Surroundings) (t : Tree)

def scan : ScanReport :=
  match r.cache with
  | some root => t.scan env.account env.workingDirectory root
  | none => ⟨[], []⟩

def categories : Categories := .ofDeclarations r.preference (r.scan env t).declarations

def plan (scope : Scope) : Plan where
  scope := scope
  categories := r.categories env t
  conflicts := (r.places.read env t scope).conflicts (r.categories env t).proposed

def write (scope : Scope) (rules : Policy) (s : Strategy) : Tree × Except WriteError Bool :=
  r.places.write env t scope rules s

/-- Categories are worked out anew, so choices that the cache no longer supports are refused. -/
def apply (scope : Scope) (choices : Choices) (s : Strategy) : Tree × Except WriteError Bool :=
  let cs := r.categories env t
  match choices.unknown? cs with
  | some key => (t, .error (.unknownCategory key))
  | none => r.places.write env t scope (choices.policy cs) s

end Review

end PluginConsent
