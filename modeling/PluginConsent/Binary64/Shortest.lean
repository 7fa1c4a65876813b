import PluginConsent.Binary64

/-!
The shortest decimal that reads back as a given number: the fewest digits for which a decimal lies
in the interval of reals that round to the number, and of the decimals of that length the nearest.
Seventeen digits always suffice, so the number and the ends of its interval are first counted in
steps of its seventeenth or eighteenth digit; all coarser decimals are multiples of that step.
-/

namespace PluginConsent

structure Decimal where
  digits : Nat
  exponent : Int
deriving DecidableEq, Repr

/-- A number and the interval of reals that round to it, in steps of a power of ten: twice the number
rounded down, whether that is exact, and the first and the last step in the interval. -/
structure Measured where
  place : Int
  halves : Nat
  exact : Bool
  low : Nat
  high : Nat

namespace Measured

def holds (m : Measured) (n : Nat) : Bool := m.low ≤ n && n ≤ m.high

/-- The decimal that is nearest to the number with some digits dropped, of those two around the number
that round to it; of two at the same distance the one with the even last digit. -/
def dropDigits? (m : Measured) (dropped : Nat) : Option Decimal :=
  let step := Nat.pow 10 dropped
  let below := m.halves / (2 * step)
  let middle := (2 * below + 1) * step
  let aboveNearer := middle < m.halves || (middle == m.halves && (!m.exact || below % 2 == 1))
  let belowHolds := m.holds (below * step)
  if m.holds ((below + 1) * step) && (aboveNearer || !belowHolds) then
    some ⟨below + 1, m.place + dropped⟩
  else if belowHolds then some ⟨below, m.place + dropped⟩
  else none

/-- The number has seventeen or eighteen digits here, and the search starts with one of them. -/
def shortest? (m : Measured) : Option Decimal :=
  let most := if m.halves < 2 * Nat.pow 10 17 then 16 else 17
  (List.range 17).findSome? fun n => m.dropDigits? (most - n)

end Measured

namespace Binary64

def leadEstimate (x : Binary64) : Int :=
  ((Nat.log2 x.mantissa : Int) + x.scale - 1074) * 30103 / 100000

def divideUp (num den : Nat) : Nat := (num + den - 1) / den

/-- The ends of the interval lie halfway to the neighbours. Below a power of two the neighbour is half
as far away as above it. They belong to the interval if the mantissa is even. -/
def inSteps (x : Binary64) (place : Int) : Measured :=
  let unit := Nat.pow 10 (-place).toNat * Nat.pow 2 (x.scale - 1074)
  let step := Nat.pow 10 place.toNat * Nat.pow 2 (1074 - x.scale)
  let low := (4 * x.mantissa - if x.mantissa = Nat.pow 2 52 ∧ x.scale ≠ 0 then 1 else 2) * unit
  let high := (4 * x.mantissa + 2) * unit
  let twice := 2 * x.mantissa * unit
  let closed := x.mantissa % 2 = 0
  { place := place
    halves := twice / step
    exact := twice % step == 0
    low := if closed then divideUp low (4 * step) else low / (4 * step) + 1
    high := if closed then high / (4 * step) else divideUp high (4 * step) - 1 }

def shortest (x : Binary64) : Decimal :=
  if x.mantissa = 0 then ⟨0, 0⟩
  else (x.inSteps (x.leadEstimate - 16)).shortest?.getD ⟨0, 0⟩

end Binary64

def Decimal.trimZeros : Nat → Decimal → Decimal
  | 0, d => d
  | fuel + 1, d =>
    if d.digits ≠ 0 ∧ d.digits % 10 = 0 then trimZeros fuel ⟨d.digits / 10, d.exponent + 1⟩ else d

end PluginConsent
