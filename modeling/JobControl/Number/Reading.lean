import JobControl.Text.Blank
import JobControl.Number.Double

/-! # Reading numbers from text

The two readers for numbers that arrive as text. Blanks around a number do not count, and single
underscores may stand within it. -/

namespace JobControl.Number

def digitValue (c : Char) : Nat := c.toNat - '0'.toNat

def ofDigits (cs : List Char) : Nat := cs.foldl (fun n c => 10 * n + digitValue c) 0

/-- Whether there are underscores, none of them at an end or beside another. -/
def isGrouped (cs : List Char) : Bool :=
  cs.contains '_' && cs.head? != some '_' && cs.getLast? != some '_'
    && !(cs.zip (cs.drop 1)).contains ('_', '_')

def dropUnderscores (cs : List Char) : List Char := cs.filter (· != '_')

/-! ## Whole numbers -/

inductive IntegerFault where
  | malformed
  | tooLong
deriving DecidableEq, Repr

/-- The most characters, sign and digits, of a whole number. -/
def longestInteger : Nat := 4300

/-- Whether a text begins like a whole number, but with more than `longestInteger` characters. -/
def isTooLong (cs : List Char) : Bool :=
  let (sign, body) := match cs with
    | '-' :: rest => (1, rest)
    | cs => (0, cs)
  body.head? != some '0' && longestInteger < sign + (body.takeWhile Char.isDigit).length

/-- A whole number in its plain form: perhaps a minus sign, and digits that begin with a zero only
if that is all. -/
def readPlain? (cs : List Char) : Option Int :=
  let (negative, body) := match cs with
    | '-' :: rest => (true, rest)
    | cs => (false, cs)
  if body.isEmpty || !body.all Char.isDigit || (body.head? == some '0' && body != ['0'])
      || isTooLong cs then none
  else if negative then some (-(ofDigits body : Int))
  else some (ofDigits body)

/-- A plus sign does not count, but no other sign may follow it. -/
def dropPlus? : List Char → Option (List Char)
  | '+' :: '-' :: _ => none
  | '+' :: rest => some rest
  | cs => some cs

/-- What is left of a number after its first zero: further zeros and underscores are passed over,
and the last of them is kept where no digit follows. -/
def dropZerosAfter (last : Char) : List Char → Option (List Char)
  | [] => some [last]
  | '.' :: rest => some (last :: '.' :: rest)
  | c :: rest =>
    if c = '0' || c = '_' then dropZerosAfter c rest
    else if c.isDigit then some (c :: rest)
    else none

/-- A number without the zeros in front. Behind a minus sign they stay. -/
def dropZeros? : List Char → Option (List Char)
  | [] => none
  | '0' :: rest => dropZerosAfter '0' rest
  | c :: rest => if c.isDigit || c = '-' then some (c :: rest) else none

/-- A point with nothing but zeros behind it, one at least, does not count. -/
def dropZeroPlaces (cs : List Char) : List Char :=
  let zeros := (cs.dropWhile (· != '.')).drop 1
  if !zeros.isEmpty && zeros.all (· == '0') then cs.takeWhile (· != '.') else cs

def plainForm? (cs : List Char) : Option (List Char) := do
  let cs := dropZeroPlaces (← dropZeros? (← dropPlus? (Text.trim cs)))
  return if isGrouped cs then dropUnderscores cs else cs

/-- A whole number. Only one in its plain form can be too long; any other is then malformed. -/
def readInteger (text : String) : Except IntegerFault Int :=
  if isTooLong text.toList then .error .tooLong
  else match (plainForm? text.toList).bind readPlain? with
    | some n => .ok n
    | none => .error .malformed

/-! ## Doubles -/

def splitSign : List Char → Bool × List Char
  | '-' :: rest => (true, rest)
  | '+' :: rest => (false, rest)
  | cs => (false, cs)

/-- The names of what is no finite number, without regard to case. -/
def readName? (negative : Bool) (cs : List Char) : Option Double :=
  match String.ofList (cs.map Char.toLower) with
  | "inf" => some (.infinite negative)
  | "infinity" => some (.infinite negative)
  | "nan" => some .nan
  | _ => none

/-- A power of ten behind a number; none is the power zero. -/
def readPower? : List Char → Option Int
  | [] => some 0
  | e :: rest =>
    let (down, digits) := splitSign rest
    if (e = 'e' || e = 'E') && !digits.isEmpty && digits.all Char.isDigit then
      some (if down then -(ofDigits digits : Int) else ofDigits digits)
    else none

/-- Digits with perhaps a point among them, and perhaps a power of ten. -/
def readFinite? (negative : Bool) (cs : List Char) : Option Double := do
  let whole := cs.takeWhile Char.isDigit
  let rest := cs.dropWhile Char.isDigit
  let (places, rest) := match rest with
    | '.' :: r => (r.takeWhile Char.isDigit, r.dropWhile Char.isDigit)
    | r => ([], r)
  guard (!(whole.isEmpty && places.isEmpty))
  let power ← readPower? rest
  return .ofDecimal negative (ofDigits (whole ++ places)) (power - places.length)

/-- A sign, and a number or the name of what is none. -/
def readSigned? (cs : List Char) : Option Double :=
  let (negative, body) := splitSign cs
  readName? negative body <|> readFinite? negative body

/-- A double. Where there are underscores, blanks around the number are not allowed. -/
def readDouble? (text : String) : Option Double :=
  let cs := text.toList
  readSigned? (Text.trim cs) <|> if isGrouped cs then readSigned? (dropUnderscores cs) else none

end JobControl.Number
