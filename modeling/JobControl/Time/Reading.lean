import JobControl.Number.Reading
import JobControl.Time.Timestamp

/-! # Reading times

A time is read from ISO text such as `2026-01-01T12:00:00.5+01:00`, in which seconds, fraction and
offset may be left out, or the whole time of day; or it is a Unix time, the number of seconds or, if
that is large, of milliseconds since the start of 1970 in UTC. -/

namespace JobControl.Timestamp

inductive ReadingFault where
  | malformed
  | outOfRange
deriving DecidableEq, Repr

/-! ## Unix times -/

/-- Numbers up to here are seconds, larger ones milliseconds. -/
def secondsLimit : Nat := 20000000000

/-- The seconds by which the year 0, which is a leap year, lies before the year 1. -/
def yearZero : Int := 366 * 86400

/-- The wall time in UTC at a Unix time and some microseconds after it, unless it lies before the
year 0 or after the year 9999. -/
def unixWall? (n : Int) (micros : Nat) : Option Micros :=
  let (seconds, rest) := if n.natAbs ≤ secondsLimit then (n, 0) else (n / 1000, n % 1000 * 1000)
  let total := rest + micros
  let wall := Calendar.unixEpoch * 86400 + seconds + total / 1000000
  if -yearZero ≤ wall ∧ wall * Micros.perSecond < timeLimit then
    some (wall * Micros.perSecond + total % 1000000)
  else none

/-- There is no timestamp in the year 0. -/
def ofWall (wall : Micros) (offset : Option Micros) : Except ReadingFault Timestamp :=
  if wall < 0 then .error .outOfRange else .ok ⟨wall, offset⟩

def ofUnix (n : Int) (micros : Nat) : Except ReadingFault Timestamp :=
  match unixWall? n micros with
  | some wall => ofWall wall (some 0)
  | none => .error .outOfRange

/-- A fraction of a second in microseconds, a half going up. -/
def microsOf (num den : Nat) : Nat :=
  let (n, d) := (Binary64.ofRatio false (num * 1000000) den).magnitude
  (2 * n + d) / (2 * d)

/-- A Unix time given as a double. Its places behind the point count forward from the whole number
below it, below zero as well. -/
def ofUnixDouble : Double → Except ReadingFault Timestamp
  | .finite x => ofUnix x.floor (microsOf (x.magnitude.1 % x.magnitude.2) x.magnitude.2)
  | _ => .error .outOfRange

/-! ## ISO text -/

def readDigits? (n : Nat) (cs : List Char) : Option (Nat × List Char) :=
  let digits := cs.take n
  if digits.length = n && digits.all Char.isDigit then some (Number.ofDigits digits, cs.drop n)
  else none

def readChar? (p : Char → Bool) : List Char → Option (List Char)
  | c :: cs => if p c then some cs else none
  | [] => none

/-- Year, month and day. The year may be 0. -/
def readDate? (cs : List Char) : Option ((Nat × Nat × Nat) × List Char) := do
  let (year, cs) ← readDigits? 4 cs
  let cs ← readChar? (· == '-') cs
  let (month, cs) ← readDigits? 2 cs
  let cs ← readChar? (· == '-') cs
  let (day, cs) ← readDigits? 2 cs
  guard (Calendar.isDate year month day)
  return ((year, month, day), cs)

/-- The first six of the digits behind the point, as microseconds. -/
def fractionMicros (ds : List Char) : Nat :=
  Number.ofDigits ((ds ++ List.replicate 6 '0').take 6)

/-- A point or a comma with digits behind it, or nothing. -/
def readFraction? : List Char → Option (Nat × List Char)
  | c :: rest =>
    if c = '.' || c = ',' then
      let digits := rest.takeWhile Char.isDigit
      if digits.isEmpty then none else some (fractionMicros digits, rest.dropWhile Char.isDigit)
    else some (0, c :: rest)
  | [] => some (0, [])

/-- Seconds and fraction behind a colon, or nothing, in microseconds. -/
def readSeconds? : List Char → Option (Nat × List Char)
  | ':' :: cs => do
    let (s, cs) ← readDigits? 2 cs
    guard (s < 60)
    let (fraction, cs) ← readFraction? cs
    return (s * 1000000 + fraction, cs)
  | cs => some (0, cs)

def readTimeOfDay? (cs : List Char) : Option (Nat × List Char) := do
  let (h, cs) ← readDigits? 2 cs
  let cs ← readChar? (· == ':') cs
  let (m, cs) ← readDigits? 2 cs
  guard (h < 24 && m < 60)
  let (micros, cs) ← readSeconds? cs
  return ((h * 60 + m) * 60000000 + micros, cs)

/-- The direction of an offset, by its sign; there is a minus sign besides the hyphen. -/
def direction? : Char → Option Int
  | '+' => some 1
  | '-' => some (-1)
  | '−' => some (-1)
  | _ => none

/-- `none` for a malformed offset, `some none` for no offset at all. The colon may be left out. -/
def readOffset? : List Char → Option (Option Micros)
  | [] => some none
  | ['Z'] => some (some 0)
  | ['z'] => some (some 0)
  | c :: cs => do
    let sign ← direction? c
    let (h, cs) ← readDigits? 2 cs
    let (m, cs) ← readDigits? 2 ((readChar? (· == ':') cs).getD cs)
    guard (cs.isEmpty && h < 24 && m < 60)
    return some (sign * (60 * h + m) * Micros.perMinute)

def isSeparator (c : Char) : Bool := c = 'T' || c = 't' || c = ' ' || c = '_'

/-- Time of day and offset behind a date; without them it is midnight. -/
def readRest? : List Char → Option (Nat × Option Micros)
  | [] => some (0, none)
  | cs => do
    let cs ← readChar? isSeparator cs
    let (micros, cs) ← readTimeOfDay? cs
    return (micros, ← readOffset? cs)

/-- A time in ISO text; the year 0 can be written, but is out of range. -/
def readIso? (cs : List Char) : Option (Except ReadingFault Timestamp) := do
  let ((year, month, day), cs) ← readDate? cs
  let (micros, offset) ← readRest? cs
  return match Calendar.dayNumber? year month day with
    | some date => .ok ⟨date * Micros.perDay + micros, offset⟩
    | none => .error .outOfRange

/-! ## Text -/

/-- The wall time in UTC at a Unix time with places behind the point, of seconds or milliseconds. -/
def unixWallDouble? (x : Double) : Option Micros :=
  let isLarge := match x with
    | .finite y => decide (secondsLimit * y.magnitude.2 < y.magnitude.1)
    | _ => true
  match if isLarge then x.scale 1 1000 else x with
  | .finite y =>
    let (num, den) := y.magnitude
    let below := (if y.negative then -(num : Int) else num) - y.floor * den
    unixWall? y.floor (microsOf below.toNat den)
  | _ => none

/-- A Unix time in digits, perhaps with a sign and a point. -/
def readUnix? (cs : List Char) : Option (Except ReadingFault Timestamp) := do
  let (negative, body) := Number.splitSign cs
  let whole := body.takeWhile Char.isDigit
  guard (!whole.isEmpty)
  let wall ← match body.dropWhile Char.isDigit with
    | [] =>
      let n : Int := Number.ofDigits whole
      unixWall? (if negative then -n else n) 0
    | '.' :: places =>
      if places.all Char.isDigit then
        unixWallDouble?
          (.ofDecimal negative (Number.ofDigits (whole ++ places)) (-(places.length : Int)))
      else none
    | _ => none
  return ofWall wall (some 0)

def ofText (text : String) : Except ReadingFault Timestamp :=
  let cs := text.toList
  (readIso? cs <|> readUnix? cs).getD (.error .malformed)

end JobControl.Timestamp
