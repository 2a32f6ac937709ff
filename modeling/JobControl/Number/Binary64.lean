/-! # Double precision numbers, exactly

A finite double is held as sign, mantissa and power of two. `ofRatio` finds the double nearest to a
fraction; all arithmetic is in `Nat` and `Int`. -/

namespace JobControl

/-- The integer nearest to `num / den`, a half going to the even neighbour. -/
def roundHalfEven (num den : Nat) : Nat :=
  let k := num / den
  let r := num % den
  if 2 * r < den then k
  else if den < 2 * r then k + 1
  else if k % 2 = 0 then k else k + 1

/-- The finite double `± mantissa * 2 ^ exponent`, with `mantissa < 2 ^ 53`. -/
structure Binary64 where
  negative : Bool
  mantissa : Nat
  exponent : Int
deriving DecidableEq, Repr, Inhabited

namespace Binary64

/-- Below this power of two there are no doubles. -/
def leastExponent : Int := -1074

/-- `num / (den * 2 ^ q)` as a fraction. -/
def scale (num den : Nat) (q : Int) : Nat × Nat :=
  if 0 ≤ q then (num, den * Nat.pow 2 q.toNat) else (num * Nat.pow 2 (-q).toNat, den)

/-- The double nearest to `num / den`, a half going to the even mantissa. There is no greatest power
of two here; `Double.ofRatio` has it. -/
def ofRatio (negative : Bool) (num den : Nat) : Binary64 :=
  let guess := max leastExponent ((Nat.log2 num : Int) - Nat.log2 den - 52)
  let (n, d) := scale num den guess
  let q := if n / d < Nat.pow 2 52 ∧ leastExponent < guess then guess - 1 else guess
  let (n, d) := scale num den q
  let m := roundHalfEven n d
  if m = Nat.pow 2 53 then ⟨negative, Nat.pow 2 52, q + 1⟩ else ⟨negative, m, q⟩

def magnitude (x : Binary64) : Nat × Nat :=
  if 0 ≤ x.exponent then (x.mantissa * Nat.pow 2 x.exponent.toNat, 1)
  else (x.mantissa, Nat.pow 2 (-x.exponent).toNat)

def isZero (x : Binary64) : Bool := x.mantissa == 0

def floor (x : Binary64) : Int :=
  let (num, den) := x.magnitude
  if x.negative then -(num : Int) / den else num / den

/-- The integer that a double is, unless it has places behind the point. -/
def toInt? (x : Binary64) : Option Int :=
  if x.magnitude.1 % x.magnitude.2 = 0 then some x.floor else none

end Binary64
end JobControl
