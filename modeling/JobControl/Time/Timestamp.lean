import JobControl.Time.Calendar

/-! # Times

An `Instant` is a point on the UTC time line. A `Timestamp` is what a clock shows: a wall time with
the clock's offset from UTC, or without one. Times are written in the ISO form
`2026-01-01T12:00:00.000000Z`. -/

namespace JobControl

abbrev Micros := Int

def Micros.perSecond : Micros := 1000000
def Micros.perMinute : Micros := 60 * Micros.perSecond
def Micros.perDay : Micros := 86400 * Micros.perSecond

/-- Wall times and instants lie in the years 1 to 9999. -/
def timeLimit : Micros := Calendar.dayLimit * Micros.perDay

/-- A point in time, in microseconds since the start of year 1 in UTC. -/
structure Instant where
  micros : Micros
deriving DecidableEq, Repr, Inhabited

instance : LE Instant := ⟨fun a b => a.micros ≤ b.micros⟩
instance : LT Instant := ⟨fun a b => a.micros < b.micros⟩
instance (a b : Instant) : Decidable (a ≤ b) := inferInstanceAs (Decidable (a.micros ≤ b.micros))
instance (a b : Instant) : Decidable (a < b) := inferInstanceAs (Decidable (a.micros < b.micros))

theorem Instant.le_def {a b : Instant} : a ≤ b ↔ a.micros ≤ b.micros := Iff.rfl
theorem Instant.lt_def {a b : Instant} : a < b ↔ a.micros < b.micros := Iff.rfl

/-- What a clock shows: the wall time since the start of year 1, and the offset of the clock from
UTC if it has one. -/
structure Timestamp where
  wall : Micros
  offset : Option Micros
deriving DecidableEq, Repr, Inhabited

namespace Timestamp

/-- A time without an offset is taken to be in UTC. -/
def utcMicros (t : Timestamp) : Micros := t.wall - t.offset.getD 0

/-- The instant a timestamp denotes, unless it lies outside the years 1 to 9999 of UTC. -/
def toInstant? (t : Timestamp) : Option Instant :=
  if 0 ≤ t.utcMicros ∧ t.utcMicros < timeLimit then some ⟨t.utcMicros⟩ else none

def ofInstant (i : Instant) : Timestamp := ⟨i.micros, some 0⟩

/-- The wall time moved by `d`, unless it leaves the years 1 to 9999. -/
def add? (t : Timestamp) (d : Micros) : Option Timestamp :=
  if 0 ≤ t.wall + d ∧ t.wall + d < timeLimit then some { t with wall := t.wall + d } else none

/-- Two times can be compared if both have an offset or neither has one. -/
def comparable (a b : Timestamp) : Bool := a.offset.isSome == b.offset.isSome

/-- The later of two comparable times, the first if they are the same instant. -/
def latest? (a b : Timestamp) : Option Timestamp :=
  if a.comparable b then some (if a.utcMicros < b.utcMicros then b else a) else none

theorem toInstant?_ofInstant {i : Instant} (h : 0 ≤ i.micros ∧ i.micros < timeLimit) :
    (ofInstant i).toInstant? = some i := by
  simp [toInstant?, ofInstant, utcMicros, h]

theorem toInstant?_eq_some {t : Timestamp} {i : Instant} :
    t.toInstant? = some i ↔ t.utcMicros = i.micros ∧ 0 ≤ i.micros ∧ i.micros < timeLimit := by
  obtain ⟨m⟩ := i
  unfold toInstant?
  split
  · simp only [Option.some.injEq, Instant.mk.injEq]
    constructor
    · rintro rfl; exact ⟨rfl, by assumption⟩
    · exact fun h => h.1
  · rename_i h
    simp only [reduceCtorEq, false_iff]
    rintro ⟨rfl, h'⟩
    exact h h'

/-! ## Writing -/

/-- A number with zeros in front up to the given width. -/
def padded (width n : Nat) : String :=
  let ds := Nat.toDigits 10 n
  String.ofList (List.replicate (width - ds.length) '0' ++ ds)

/-- Hours and minutes, and what is below a minute only if there is any. -/
def offsetText : Option Micros → String
  | none => ""
  | some 0 => "Z"
  | some d =>
    let seconds := d.natAbs / 1000000
    let micros := d.natAbs % 1000000
    (if d < 0 then "-" else "+") ++ padded 2 (seconds / 3600) ++ ":" ++ padded 2 (seconds / 60 % 60)
      ++ (if seconds % 60 = 0 ∧ micros = 0 then "" else ":" ++ padded 2 (seconds % 60))
      ++ (if micros = 0 then "" else "." ++ padded 6 micros)

def toText (t : Timestamp) : String :=
  let micros := t.wall.toNat
  let (year, month, day) := Calendar.dateOf (micros / Micros.perDay.toNat)
  let rest := micros % Micros.perDay.toNat
  let seconds := rest / 1000000
  padded 4 year ++ "-" ++ padded 2 month ++ "-" ++ padded 2 day ++ "T"
    ++ padded 2 (seconds / 3600) ++ ":" ++ padded 2 (seconds / 60 % 60) ++ ":"
    ++ padded 2 (seconds % 60) ++ "." ++ padded 6 (rest % 1000000) ++ offsetText t.offset

end Timestamp
end JobControl
