import JobControl.Failure
import JobControl.Number.Double
import JobControl.Time.Timestamp

/-! # Seconds

Spans of time arrive as numbers of seconds. A span that is reckoned with is converted with care: a
whole number exactly, and of a double the whole part exactly and the rest in double precision; the
sum is rounded to microseconds, a half going to the even neighbour. A span that is only kept as a
double is multiplied in double precision when it is wanted in microseconds. -/

namespace JobControl

inductive Seconds where
  | whole (n : Int)
  | real (x : Double)
deriving DecidableEq, Repr, Inhabited

namespace Seconds

def ofDouble (x : Binary64) : Micros :=
  let (num, den) := x.magnitude
  let fraction := Binary64.ofRatio false (num % den * 1000000) den
  let (fnum, fden) := fraction.magnitude
  let total := roundHalfEven (num / den * 1000000 * fden + fnum) fden
  if x.negative then -(total : Int) else total

/-- The microseconds of a finite number of seconds. What is none counts for nothing. -/
def toMicros : Seconds → Micros
  | whole n => n * Micros.perSecond
  | real (.finite x) => ofDouble x
  | real _ => 0

/-- The longest span that can be held, in days. -/
def dayBound : Nat := 999999999

/-- The span of time, unless it is longer than the longest. -/
def toSpan : Seconds → Except Failure Micros
  | real (.infinite _) => .error (.outOfRange .endless)
  | real .nan => .error .notANumber
  | s =>
    let d := s.toMicros
    let days := Int.fdiv d Micros.perDay
    if days.natAbs ≤ dayBound then .ok d else .error (.outOfRange (.span days))

end Seconds

namespace Double

/-- A double number of seconds in microseconds. -/
def toMicros (x : Double) : Except Failure Micros :=
  match x.scale 1000000 1 with
  | finite y =>
    let n := roundHalfEven y.magnitude.1 y.magnitude.2
    .ok (if y.negative then -(n : Int) else n)
  | infinite _ => .error (.outOfRange .endless)
  | nan => .error .notANumber

def ofMicros? (d : Micros) : Option Double := (ofInt? d).map (scale 1 1000000)

end Double
end JobControl
