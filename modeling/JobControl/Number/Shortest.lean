import JobControl.Number.Binary64

/-! # Shortest decimal digits

`Binary64.shortest` gives the fewest decimal digits that read back as the same double, of these the
ones nearest to it, and of two equally near the even ones: a grid of decimals is tried for each
number of digits, and on a grid only the two neighbours of the double can qualify. -/

namespace JobControl.Binary64

/-- The interval of numbers that round to a double, as integers over `2 ^ (exponent - 2)`. -/
structure Basin where
  low : Nat
  centre : Nat
  high : Nat
  closed : Bool

def basin (x : Binary64) : Basin where
  low := if x.mantissa = Nat.pow 2 52 ∧ leastExponent < x.exponent then 4 * x.mantissa - 1
    else 4 * x.mantissa - 2
  centre := 4 * x.mantissa
  high := 4 * x.mantissa + 2
  closed := x.mantissa % 2 == 0

/-- `a * 2 ^ p * 10 ^ k` compared with `b`, all powers cleared to integers. -/
def scaled (a : Nat) (p k : Int) : Nat × Nat :=
  let n := a * (if 0 ≤ p then Nat.pow 2 p.toNat else 1) *
    (if 0 ≤ k then Nat.pow 10 k.toNat else 1)
  let d := (if 0 ≤ p then 1 else Nat.pow 2 (-p).toNat) *
    (if 0 ≤ k then 1 else Nat.pow 10 (-k).toNat)
  (n, d)

/-- The least `k ≤ bound` steps up from `start` with `10 ^ k` above the double. -/
def magnitudeFrom (num den : Nat) (start : Int) : Nat → Int
  | 0 => start
  | fuel + 1 =>
    let (n, d) := scaled 1 0 start
    if num * d < n * den then start else magnitudeFrom num den (start + 1) fuel

/-- The `k` with `10 ^ (k - 1) ≤ x < 10 ^ k`. -/
def decimalPoint (x : Binary64) : Int :=
  let (num, den) := x.magnitude
  let estimate := ((Nat.log2 num : Int) - Nat.log2 den) * 30103 / 100000 - 1
  magnitudeFrom num den estimate 5

/-- The neighbour of the double on the grid `10 ^ (point - places)` that reads back, if any. -/
def onGrid (x : Binary64) (point : Int) (places : Nat) : Option Nat :=
  let b := x.basin
  let p := x.exponent - 2
  let k := (places : Int) - point
  let (n, d) := scaled b.centre p k
  let (lo, _) := scaled b.low p k
  let (hi, _) := scaled b.high p k
  let below := n / d
  let reads (v : Nat) : Bool :=
    if b.closed then lo ≤ v * d && v * d ≤ hi else lo < v * d && v * d < hi
  match reads below, reads (below + 1) with
  | true, true => some (roundHalfEven n d)
  | true, false => some below
  | false, true => some (below + 1)
  | false, false => none

/-- Drop trailing zeros of the digits; the point keeps its place. -/
def stripZeros : Nat → Nat → Nat
  | 0, digits => digits
  | fuel + 1, digits =>
    if digits ≠ 0 ∧ digits % 10 = 0 then stripZeros fuel (digits / 10) else digits

def firstGrid (x : Binary64) (point : Int) : Nat → Nat → Option (Nat × Nat)
  | 0, _ => none
  | fuel + 1, places =>
    match x.onGrid point places with
    | some digits => some (digits, places)
    | none => firstGrid x point fuel (places + 1)

/-- Digits `d₁ … dₙ` and the place `k` of the point: the double is `0.d₁ … dₙ * 10 ^ k`. -/
def shortest (x : Binary64) : List Char × Int :=
  if x.isZero then (['0'], 1) else
  let point := x.decimalPoint
  match firstGrid x point 17 1 with
  | some (digits, places) =>
    let all := Nat.toDigits 10 digits
    (Nat.toDigits 10 (stripZeros 20 digits), point + ((all.length : Int) - places))
  | none => (['0'], 1)

end JobControl.Binary64
