import JobControl.Failure
import JobControl.Number.Reading
import JobControl.Time.Reading

/-! # Reading records from input values

Input arrives as untyped values. A reader turns the value of one field into a typed one, leniently
where the meaning is clear (a number written as text, a flag for 0 or 1), and `Checked` collects the
faults of all fields instead of stopping at the first. -/

namespace JobControl

/-- A value of the input. A number written with a point or a power of ten is a double. -/
inductive Value where
  | null
  | flag (b : Bool)
  | whole (n : Int)
  | real (x : Double)
  | text (s : String)
  | list (xs : List Value)
  | record (fields : List (String × Value))
deriving Inhabited

/-- Absent, false, zero and empty values do not count as true. -/
def Value.isTruthy : Value → Bool
  | null => false
  | flag b => b
  | whole n => n != 0
  | real x => !x.isZero
  | text s => s != ""
  | list xs => !xs.isEmpty
  | record fields => !fields.isEmpty

/-- A result, or the faults that were found, each with the place of the field. -/
inductive Checked (α : Type) where
  | ok (a : α)
  | bad (faults : List (String × Fault))

namespace Checked
variable {α β : Type}

def faults : Checked α → List (String × Fault)
  | ok _ => []
  | bad fs => fs

/-- Both parts are looked at, so the faults of both are reported. -/
protected def seq (f : Checked (α → β)) (a : Unit → Checked α) : Checked β :=
  match f, a () with
  | ok f, ok a => ok (f a)
  | f, a => bad (f.faults ++ a.faults)

instance : Applicative Checked where
  pure := ok
  seq := Checked.seq

def fault (place : String) (f : Fault) : Checked α := bad [(place, f)]

def map (f : α → β) : Checked α → Checked β
  | ok a => ok (f a)
  | bad fs => bad fs

def require (place : String) (f : α → Option Fault) : Checked α → Checked α
  | ok a => match f a with
    | none => ok a
    | some e => fault place e
  | bad fs => bad fs

/-- Every element of a list, the faults of all collected. -/
def all : List (Checked α) → Checked (List α)
  | [] => ok []
  | x :: xs => List.cons <$> x <*> all xs

/-- The result, or one failure that lists the faults in the order of their places. -/
def toExcept : Checked α → Except Failure α
  | ok a => .ok a
  | bad fs =>
    .error (.invalid (fs.mergeSort fun a b => a.1 < b.1 || (a.1 == b.1 && a.2.label ≤ b.2.label)))

end Checked

/-- Turns the value found at a place into a typed one. -/
abbrev Reader (α : Type) := String → Value → Checked α

namespace Reader
variable {α : Type}
open Checked

def text : Reader String
  | _, .text s => ok s
  | place, _ => fault place .notText

/-- A double that is taken for an integer lies strictly between this bound and its negative. -/
def integerBound : Int := Nat.pow 2 63

def integer : Reader Int
  | _, .whole n => ok n
  | _, .flag b => ok (if b then 1 else 0)
  | place, .real (.finite x) => match x.toInt? with
    | some n =>
      if -integerBound < n && n < integerBound then ok n else fault place .integerTooLarge
    | none => fault place .fractional
  | place, .real _ => fault place .notFinite
  | place, .text s => match Number.readInteger s with
    | .ok n => ok n
    | .error .malformed => fault place .unreadableInteger
    | .error .tooLong => fault place .integerTooLarge
  | place, _ => fault place .notInteger

/-- An integer too large for a finite double is not taken for a number. -/
def number : Reader Double
  | place, .whole n => match Double.ofInt? n with
    | some x => ok x
    | none => fault place .notNumber
  | _, .real x => ok x
  | _, .flag b => ok (if b then .one else .zero)
  | place, .text s => match Number.readDouble? s with
    | some x => ok x
    | none => fault place .unreadableNumber
  | place, _ => fault place .notNumber

def member (ofLabel? : String → Option α) : Reader α
  | place, .text s => match ofLabel? s with
    | some a => ok a
    | none => fault place .notMember
  | place, _ => fault place .notMember

def timeResult (place : String) : Except Timestamp.ReadingFault Timestamp → Checked Timestamp
  | .ok t => ok t
  | .error .malformed => fault place .unreadableTime
  | .error .outOfRange => fault place .timeOutOfRange

def time : Reader Timestamp
  | place, .text s => timeResult place (Timestamp.ofText s)
  | place, .whole n =>
    if (Double.ofInt? n).isSome then timeResult place (Timestamp.ofUnix n 0)
    else fault place .notTime
  | place, .real x => timeResult place (Timestamp.ofUnixDouble x)
  | place, _ => fault place .notTime

def nullable (read : Reader α) : Reader (Option α)
  | _, .null => ok none
  | place, v => (read place v).map some

def elements (read : Reader α) (place : String) (xs : List Value) : Checked (List α) :=
  all (xs.mapIdx fun i v => read (place ++ "." ++ toString i) v)

def listOf (read : Reader α) : Reader (List α)
  | place, .list xs => elements read place xs
  | place, _ => fault place .notList

def textSet : Reader (List String)
  | place, .list xs => (elements text place xs).map List.eraseDups
  | place, _ => fault place .notSet

end Reader

/-- The place of a field of a record that itself stands at `place`. -/
def Checked.within (place name : String) : String :=
  if place = "" then name else place ++ "." ++ name

def Reader.required {α : Type} (read : Reader α) (place : String) (fields : List (String × Value))
    (name : String) : Checked α :=
  match fields.lookup name with
  | some v => read (Checked.within place name) v
  | none => .fault (Checked.within place name) .missing

def Reader.optional {α : Type} (read : Reader α) (place : String) (fields : List (String × Value))
    (name : String) (default : α) : Checked α :=
  match fields.lookup name with
  | some v => read (Checked.within place name) v
  | none => .ok default

end JobControl
