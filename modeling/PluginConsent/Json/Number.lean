import PluginConsent.Binary64.Shortest

namespace PluginConsent.Json

/-- A number without a fraction or an exponent is an integer if it fits 64 bits, with or without a
sign; every other one is a binary64 number. -/
inductive Number where
  | integer (n : Int)
  | float (negative : Bool) (magnitude : Binary64)
deriving DecidableEq, Repr

namespace Number

def isDigit (c : Char) : Bool := '0' ≤ c && c ≤ '9'

def digitValue (c : Char) : Nat := c.toNat - '0'.toNat

def maxExponent : Nat := Nat.pow 2 31 - 1

/-- The exponent the digits stand for. What is beyond the limit is out of range however many digits
the number has, so it counts as the limit. -/
def exponentValue (ds : List Char) : Nat :=
  ds.foldl (fun n c => min maxExponent (10 * n + digitValue c)) 0

structure Literal where
  negative : Bool
  whole : List Char
  fraction : List Char
  exponent : Option Int

def exponentOf? (negative : Bool) (ds : List Char) : Option (Option Int) :=
  if ds ≠ [] ∧ ds.all isDigit then
    some (some (if negative then -(exponentValue ds : Int) else exponentValue ds))
  else none

def readExponent? : List Char → Option (Option Int)
  | [] => some none
  | c :: cs =>
    if c = 'e' ∨ c = 'E' then
      match cs with
      | '-' :: ds => exponentOf? true ds
      | '+' :: ds => exponentOf? false ds
      | ds => exponentOf? false ds
    else none

def readFraction? (negative : Bool) (whole : List Char) : List Char → Option Literal
  | '.' :: cs =>
    let ds := cs.takeWhile isDigit
    if ds = [] then none
    else (readExponent? (cs.dropWhile isDigit)).map fun e => ⟨negative, whole, ds, e⟩
  | cs => (readExponent? cs).map fun e => ⟨negative, whole, [], e⟩

def readUnsigned? (negative : Bool) (cs : List Char) : Option Literal :=
  match cs.takeWhile isDigit with
  | [] => none
  | '0' :: _ :: _ => none
  | whole => readFraction? negative whole (cs.dropWhile isDigit)

def Literal.ofChars? : List Char → Option Literal
  | '-' :: cs => readUnsigned? true cs
  | cs => readUnsigned? false cs

structure Significand where
  value : Nat
  power : Int
  full : Bool

def Significand.fits (s : Significand) (c : Char) : Bool :=
  !s.full && 10 * s.value + digitValue c < Nat.pow 2 64

def Significand.pushWhole (s : Significand) (c : Char) : Significand :=
  if s.fits c then ⟨10 * s.value + digitValue c, s.power, false⟩ else ⟨s.value, s.power + 1, true⟩

def Significand.pushFraction (s : Significand) (c : Char) : Significand :=
  if s.fits c then ⟨10 * s.value + digitValue c, s.power - 1, false⟩ else ⟨s.value, s.power, true⟩

def Literal.wholeDigits (l : Literal) : Significand := l.whole.foldl .pushWhole ⟨0, 0, false⟩

def Literal.significand (l : Literal) : Significand :=
  let s := l.fraction.foldl .pushFraction { l.wholeDigits with full := false }
  { s with power := s.power + l.exponent.getD 0 }

def powersOfTen : Array Binary64 :=
  Array.ofFn fun n : Fin 309 => (Binary64.nearest? (Nat.pow 10 n.val) 1 0).getD .zero

def powerOfTen? (n : Nat) : Option Binary64 := powersOfTen[n]?

def divideByPowerOfTen? (x : Binary64) (n : Nat) : Option Binary64 := (powerOfTen? n).bind x.over?

/-- Rounds twice: the digits to a binary64 number, and that, times or over a power of ten, to the
result. A power beyond 10^308 is taken in two steps. -/
def Significand.toBinary64? (s : Significand) : Option Binary64 := do
  let x ← Binary64.nearest? s.value 1 0
  if x.mantissa = 0 then return .zero
  if 0 ≤ s.power then
    if s.power ≤ 308 then x.times? (← powerOfTen? s.power.toNat) else none
  else
    let n := (-s.power).toNat
    if n ≤ 308 then divideByPowerOfTen? x n
    else if n ≤ 616 then divideByPowerOfTen? (← divideByPowerOfTen? x 308) (n - 308)
    else return .zero

def Literal.toInteger? (l : Literal) : Option Int :=
  let s := l.wholeDigits
  if l.fraction ≠ [] ∨ l.exponent.isSome ∨ s.full then none
  else if l.negative then if 0 < s.value ∧ s.value ≤ Nat.pow 2 63 then some (-(s.value : Int)) else none
  else some s.value

def ofChars? (cs : List Char) : Option Number := do
  let l ← Literal.ofChars? cs
  match l.toInteger? with
  | some n => return .integer n
  | none => return .float l.negative (← l.significand.toBinary64?)

def fixedPoint (digits : List Char) (lead : Int) : List Char :=
  if lead < 0 then '0' :: '.' :: List.replicate (-lead - 1).toNat '0' ++ digits
  else
    let n := (lead + 1).toNat
    if digits.length ≤ n then digits ++ List.replicate (n - digits.length) '0' ++ ['.', '0']
    else digits.take n ++ '.' :: digits.drop n

def scientific (digits : List Char) (lead : Int) : List Char :=
  let mantissa := match digits with
    | c :: [] => [c]
    | c :: cs => c :: '.' :: cs
    | [] => []
  mantissa ++ 'e' :: (if lead < 0 then '-' else '+') :: Nat.toDigits 10 lead.natAbs

/-- Positional from 10^-5 up to below 10^16, with at least one decimal place. -/
def floatChars (x : Binary64) : List Char :=
  let d := Decimal.trimZeros 20 x.shortest
  let digits := Nat.toDigits 10 d.digits
  let lead := d.exponent + digits.length - 1
  if -5 ≤ lead ∧ lead ≤ 15 then fixedPoint digits lead else scientific digits lead

def text : Number → String
  | .integer n => toString n
  | .float negative x => String.ofList (if negative then '-' :: floatChars x else floatChars x)

end Number

end PluginConsent.Json
