import JobControl.Number.Binary64

/-! # Doubles

A double is finite, infinite or not a number. A fraction too large for the finite doubles becomes
infinite. -/

namespace JobControl

inductive Double where
  | finite (x : Binary64)
  | infinite (negative : Bool)
  | nan
deriving DecidableEq, Repr, Inhabited

namespace Double

/-- Above this power of two there are no finite doubles. -/
def greatestExponent : Int := 971

def ofRatio (negative : Bool) (num den : Nat) : Double :=
  let x := Binary64.ofRatio negative num den
  if greatestExponent < x.exponent then infinite negative else finite x

/-- Beyond this power of ten a number other than zero is infinite, and beyond its negative, the
digits counted in, it is zero. -/
def decimalRange : Nat := 400

/-- The double nearest to `± digits * 10 ^ power`. Powers far outside the range of doubles are not
computed. -/
def ofDecimal (negative : Bool) (digits : Nat) (power : Int) : Double :=
  if digits = 0 then finite ⟨negative, 0, 0⟩
  else if (decimalRange : Int) < power then infinite negative
  else if power + Nat.log2 digits < -(decimalRange : Int) then finite ⟨negative, 0, 0⟩
  else if 0 ≤ power then ofRatio negative (digits * Nat.pow 10 power.toNat) 1
  else ofRatio negative digits (Nat.pow 10 (-power).toNat)

/-- The double nearest to an integer, if that is finite. -/
def ofInt? (n : Int) : Option Double :=
  match ofRatio (n < 0) n.natAbs 1 with
  | finite x => some (finite x)
  | _ => none

def zero : Double := finite ⟨false, 0, 0⟩

def one : Double := ofRatio false 1 1

def isZero : Double → Bool
  | finite x => x.isZero
  | _ => false

/-- Neither below zero nor unordered; the negative zero is not below zero. -/
def isNonnegative : Double → Bool
  | finite x => !x.negative || x.isZero
  | infinite negative => !negative
  | nan => false

/-- `x * num / den`, rounded. -/
def scale (num den : Nat) : Double → Double
  | finite x => ofRatio x.negative (x.magnitude.1 * num) (x.magnitude.2 * den)
  | x => x

end Double
end JobControl
