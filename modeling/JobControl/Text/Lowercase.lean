import JobControl.Text.CaseTable

/-! # Lower case

`lowercase` maps a text to lower case by the full Unicode rules: a dotted capital I becomes two
characters, and a capital sigma becomes the final form at the end of a word. -/

namespace JobControl.Text

/-- The lower-case form of one character, where its neighbours do not matter. -/
def lowerChar (c : Char) : List Char :=
  if c.toNat < 0x80 then [c.toLower]
  else if c.toNat = 0x130 then ['i', Char.ofNat 0x307]
  else match lowerRuns.find? (·.mem c.toNat) with
    | some r => [Char.ofNat ((c.toNat : Int) + r.shift).toNat]
    | none => [c]

/-- Whether a sigma stands at the end of a word: a cased character comes before it and none after
it, the ignorable ones aside. `before` is read backwards. -/
def endsWord (before after : List Char) : Bool :=
  (before.dropWhile isIgnorable).head?.any isCased
    && !(after.dropWhile isIgnorable).head?.any isCased

def lowerFrom (before : List Char) : List Char → List Char
  | [] => []
  | c :: rest =>
    (if c = 'Σ' then [if endsWord before rest then 'ς' else 'σ'] else lowerChar c)
      ++ lowerFrom (c :: before) rest

def lowercase (text : String) : String := String.ofList (lowerFrom [] text.toList)

end JobControl.Text
