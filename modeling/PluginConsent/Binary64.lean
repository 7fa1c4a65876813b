namespace PluginConsent

/-- The number mantissa · 2^(scale - 1074). Rounding gives mantissas below 2^53, and below 2^52 only
at scale 0. -/
structure Binary64 where
  mantissa : Nat
  scale : Nat
deriving DecidableEq, Repr

namespace Binary64

def zero : Binary64 := ⟨0, 0⟩

def roundHalfEven (num den : Nat) : Nat :=
  let q := num / den
  let twice := 2 * (num % den)
  if twice < den then q
  else if den < twice then q + 1
  else if q % 2 = 0 then q else q + 1

def maxScale : Nat := 2045

def quotientLog2 (num den : Nat) : Int :=
  let guess : Int := Nat.log2 num - Nat.log2 den
  if den * Nat.pow 2 guess.toNat ≤ num * Nat.pow 2 (-guess).toNat then guess else guess - 1

/-- The nearest number to num / den · 2^shift; nothing when that is beyond the largest one. -/
def nearest? (num den : Nat) (shift : Int) : Option Binary64 :=
  if num = 0 then some zero
  else
    let scale := (quotientLog2 num den + shift + 1022).toNat
    let rise := shift + 1074 - scale
    let mantissa := roundHalfEven (num * Nat.pow 2 rise.toNat) (den * Nat.pow 2 (-rise).toNat)
    let x : Binary64 := if mantissa = Nat.pow 2 53 then ⟨Nat.pow 2 52, scale + 1⟩ else ⟨mantissa, scale⟩
    if x.scale ≤ maxScale then some x else none

def times? (x y : Binary64) : Option Binary64 :=
  nearest? (x.mantissa * y.mantissa) 1 (x.scale + y.scale - 2148)

def over? (x y : Binary64) : Option Binary64 := nearest? x.mantissa y.mantissa (x.scale - y.scale)

end Binary64

end PluginConsent
