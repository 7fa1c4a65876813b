import PluginConsent.Json.Number

namespace PluginConsent.Json

inductive Token where
  | openBrace
  | closeBrace
  | openBracket
  | closeBracket
  | colon
  | comma
  | null
  | boolean (b : Bool)
  | number (n : Number)
  | string (s : String)
deriving DecidableEq, Repr

namespace Token

def mark? : Char → Option Token
  | '\x7b' => some .openBrace
  | '\x7d' => some .closeBrace
  | '[' => some .openBracket
  | ']' => some .closeBracket
  | ':' => some .colon
  | ',' => some .comma
  | _ => none

def word? (cs : List Char) : Option Token :=
  if cs = ['n', 'u', 'l', 'l'] then some .null
  else if cs = ['t', 'r', 'u', 'e'] then some (.boolean true)
  else if cs = ['f', 'a', 'l', 's', 'e'] then some (.boolean false)
  else (Number.ofChars? cs).map .number

def isSpace (c : Char) : Bool := c = ' ' || c = '\n' || c = '\t' || c = '\r'

def shortEscape? : Char → Option Char
  | '"' => some '"'
  | '\\' => some '\\'
  | '/' => some '/'
  | 'b' => some '\x08'
  | 'f' => some '\x0c'
  | 'n' => some '\n'
  | 'r' => some '\r'
  | 't' => some '\t'
  | _ => none

def hexValue? (c : Char) : Option Nat :=
  if '0' ≤ c ∧ c ≤ '9' then some (c.toNat - '0'.toNat)
  else if 'a' ≤ c ∧ c ≤ 'f' then some (c.toNat - 'a'.toNat + 10)
  else if 'A' ≤ c ∧ c ≤ 'F' then some (c.toNat - 'A'.toNat + 10)
  else none

def isHighSurrogate (n : Nat) : Bool := 0xd800 ≤ n && n ≤ 0xdbff

def isLowSurrogate (n : Nat) : Bool := 0xdc00 ≤ n && n ≤ 0xdfff

/-- Where a reader stands that is fed one character at a time. What stands between blanks and marks is
gathered first, in reverse, and judged when it ends. -/
inductive Place where
  | between
  | word (text : List Char)
  | quoted (text : List Char)
  | escape (text : List Char)
  | hex (text : List Char) (high : Option Nat) (count value : Nat)
  | pair (text : List Char) (high : Nat)
  | pairEscape (text : List Char) (high : Nat)

structure Reader where
  done : List Token
  place : Place

def unit? (text : List Char) (high : Option Nat) (n : Nat) : Option Place :=
  match high with
  | some h =>
    if isLowSurrogate n then
      some (.quoted (Char.ofNat (0x10000 + (h - 0xd800) * 0x400 + (n - 0xdc00)) :: text))
    else none
  | none =>
    if isHighSurrogate n then some (.pair text n)
    else if isLowSurrogate n then none
    else some (.quoted (Char.ofNat n :: text))

def between? (done : List Token) (c : Char) : Option Reader :=
  if isSpace c then some ⟨done, .between⟩
  else if c = '"' then some ⟨done, .quoted []⟩
  else match mark? c with
    | some t => some ⟨t :: done, .between⟩
    | none => some ⟨done, .word [c]⟩

def feed? (r : Reader) (c : Char) : Option Reader :=
  match r.place with
  | .between => between? r.done c
  | .word text =>
    if isSpace c || c = '"' || (mark? c).isSome then
      (word? text.reverse).bind fun t => between? (t :: r.done) c
    else some ⟨r.done, .word (c :: text)⟩
  | .quoted text =>
    if c = '"' then some ⟨.string (String.ofList text.reverse) :: r.done, .between⟩
    else if c = '\\' then some ⟨r.done, .escape text⟩
    else if c < ' ' then none
    else some ⟨r.done, .quoted (c :: text)⟩
  | .escape text =>
    if c = 'u' then some ⟨r.done, .hex text none 0 0⟩
    else (shortEscape? c).map fun e => ⟨r.done, .quoted (e :: text)⟩
  | .hex text high count value =>
    (hexValue? c).bind fun d =>
      let n := 16 * value + d
      if count = 3 then (unit? text high n).map fun p => ⟨r.done, p⟩
      else some ⟨r.done, .hex text high (count + 1) n⟩
  | .pair text high => if c = '\\' then some ⟨r.done, .pairEscape text high⟩ else none
  | .pairEscape text high => if c = 'u' then some ⟨r.done, .hex text (some high) 0 0⟩ else none

def finish? (r : Reader) : Option (List Token) :=
  match r.place with
  | .between => some r.done.reverse
  | .word text => (word? text.reverse).map fun t => (t :: r.done).reverse
  | _ => none

def ofChars? (cs : List Char) : Option (List Token) :=
  (cs.foldlM feed? ⟨[], .between⟩).bind finish?

end Token

end PluginConsent.Json
