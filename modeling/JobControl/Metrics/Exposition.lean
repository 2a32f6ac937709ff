import JobControl.Metrics
import JobControl.Number.Double
import JobControl.Number.Shortest

/-! # Exposition of metrics

The text form in which metrics are collected: a help line, a type line and a line per sample. -/

namespace JobControl.Exposition

/-- Where a number changes its form: written with a point between `10 ^ low` and `10 ^ high`, and
from `10 ^ split` on as one digit, the rest and a power of ten. -/
structure NumberForm where
  low : Int
  high : Int
  split : Int

/-- Values of samples: a point from `0.0001` up to `10 ^ 16`, split from `10 ^ 6` on. -/
def valueForm : NumberForm := ⟨-4, 16, 6⟩

def zeros (n : Int) : List Char := List.replicate n.toNat '0'

/-- Digits with the point after the first `point` of them. -/
def pointed (digits : List Char) (point : Int) : List Char × List Char :=
  if point ≤ 0 then (['0'], zeros (-point) ++ digits)
  else
    let whole := digits.take point.toNat
    let rest := digits.drop point.toNat
    (whole ++ zeros (point - whole.length), if rest.isEmpty then ['0'] else rest)

def dropTrailing (p : Char → Bool) (cs : List Char) : List Char := (cs.reverse.dropWhile p).reverse

/-- A power of ten with its sign and at least two digits. -/
def exponentText (e : Int) : List Char :=
  let ds := Nat.toDigits 10 e.natAbs
  (if e < 0 then '-' else '+') :: (zeros (2 - ds.length) ++ ds)

/-- The digits of a number, the first set off by a point if there are more. -/
def scientific : List Char → List Char
  | [] => []
  | [d] => [d]
  | d :: ds => d :: '.' :: ds

def magnitudeText (form : NumberForm) (positive : Bool) (digits : List Char) (point : Int) :
    List Char :=
  if point ≤ form.low || form.high < point then
    scientific digits ++ 'e' :: exponentText (point - 1)
  else
    let (whole, rest) := pointed digits point
    if positive && form.split < point then
      dropTrailing (fun c => c == '0' || c == '.') (whole.take 1 ++ '.' :: (whole.drop 1 ++ rest))
        ++ 'e' :: exponentText (point - 1)
    else whole ++ '.' :: rest

def number : Double → String
  | .finite x =>
    let (digits, point) := x.shortest
    String.ofList <| (if x.negative then ['-'] else [])
      ++ magnitudeText valueForm (!x.negative && !x.isZero) digits point
  | .infinite negative => if negative then "-Inf" else "+Inf"
  | .nan => "NaN"

/-- Quotes, backslashes and line ends in the value of a label are escaped. -/
def escape : List Char → List Char
  | [] => []
  | '\\' :: rest => '\\' :: '\\' :: escape rest
  | '\n' :: rest => '\\' :: 'n' :: escape rest
  | '"' :: rest => '\\' :: '"' :: escape rest
  | c :: rest => c :: escape rest

def labelText (l : String × String) : String :=
  l.1 ++ "=\"" ++ String.ofList (escape l.2.toList) ++ "\""

def sampleText (s : Metrics.Sample Double) : String :=
  let value := match s.value with
    | .inl n => Double.ofRatio false n 1
    | .inr x => x
  s.name ++ "\x7b" ++ String.intercalate "," (s.labels.map labelText) ++ "\x7d " ++ number value

def familyText (f : Metrics.Family Double) : List String :=
  ("# HELP " ++ f.name ++ " " ++ f.help)
    :: ("# TYPE " ++ f.name ++ " " ++ if f.isGauge then "gauge" else "counter")
    :: f.samples.map sampleText

def mentions (mark : List Char) : List Char → Bool
  | [] => mark.isEmpty
  | c :: cs => mark.isPrefixOf (c :: cs) || mentions mark cs

/-- What the lines have in common that tell when a counter was created. -/
def creationMark : String := "_created"

/-- The lines of the exposition. Lines with the creation mark are left out, wherever it stands. -/
def lines (m : Metrics Double) : List String :=
  (m.families.flatMap familyText).filter fun line => !mentions creationMark.toList line.toList

end JobControl.Exposition
