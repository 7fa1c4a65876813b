import PluginConsent.Entries
import PluginConsent.Json.Number

namespace PluginConsent

inductive Json where
  | null
  | boolean (b : Bool)
  | number (n : Json.Number)
  | string (s : String)
  | array (items : List Json)
  | object (fields : List (String × Json))
deriving Repr, Inhabited

namespace Json

abbrev Object := Entries String Json

def string? : Json → Option String
  | .string s => some s
  | _ => none

def array? : Json → Option (List Json)
  | .array items => some items
  | _ => none

def object? : Json → Option Object
  | .object fields => some fields
  | _ => none

def ofNat (n : Nat) : Json := .number (.integer n)

def nat? : Json → Option Nat
  | .number (.integer n) => n.toNat?
  | _ => none

def ofStrings (ss : List String) : Json := .array (ss.map .string)

def strings (items : List Json) : List String := items.filterMap string?

theorem string?_eq_some_iff {v : Json} {s : String} : v.string? = some s ↔ v = .string s := by
  cases v <;> simp [string?]

theorem object?_eq_some_iff {v : Json} {fields : Object} :
    v.object? = some fields ↔ v = .object fields := by
  cases v <;> simp [object?]

theorem mem_strings {s : String} {items : List Json} : s ∈ strings items ↔ .string s ∈ items := by
  simp [strings, string?_eq_some_iff]

def kind : Json → String
  | .null => "null"
  | .boolean _ => "a boolean"
  | .number _ => "a number"
  | .string _ => "a string"
  | .array _ => "an array"
  | .object _ => "an object"

mutual

/-- Equality up to the order of keys. -/
def same : Json → Json → Bool
  | .null, .null => true
  | .boolean a, .boolean b => a == b
  | .number a, .number b => a == b
  | .string a, .string b => a == b
  | .array as, .array bs => sameItems as bs
  | .object as, .object bs => as.length == bs.length && sameFields as bs
  | _, _ => false

def sameItems : List Json → List Json → Bool
  | [], [] => true
  | a :: as, b :: bs => same a b && sameItems as bs
  | _, _ => false

def sameFields : List (String × Json) → List (String × Json) → Bool
  | [], _ => true
  | (k, a) :: as, bs =>
    match Entries.find? k bs with
    | some b => same a b && sameFields as bs
    | none => false

end

end Json

end PluginConsent
