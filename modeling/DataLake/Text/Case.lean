import DataLake.Text
import DataLake.Text.CaseTable

/-!
Lower and upper case of whole texts. A character may change into several, and
a capital sigma becomes the final form after a letter that no letter follows.
-/

namespace DataLake.Text

def lookupRun (runs : List CaseRun) (c : CodePoint) : Option CodePoint :=
  (runs.find? fun r =>
      r.first ≤ c.toNat && c.toNat ≤ r.last && (c.toNat - r.first) % r.step == 0).map
    fun r => .ofNat ((c.toNat : Int) + r.shift).toNat

/-- Whether the first character that is not passed over is a letter with case. -/
def meetsCased : Text → Bool
  | [] => false
  | c :: rest =>
      if inRanges casedRanges c then true
      else if inRanges caseIgnorableRanges c then meetsCased rest
      else false

/-- The lower-case form of `c`, given the characters before it (nearest first)
and after it. -/
def lowerAt (before : Text) (c : CodePoint) (after : Text) : Text :=
  if c.toNat < 0x80 then [c.asciiLower]
  else if c.toNat = 0x3A3 then
    if meetsCased before && !meetsCased after then [.ofNat 0x3C2] else [.ofNat 0x3C3]
  else if c.toNat = 0x130 then ['i', .ofNat 0x307]
  else [(lookupRun lowerRuns c).getD c]

def lowerFrom (before : Text) : Text → Text
  | [] => []
  | c :: rest => lowerAt before c rest ++ lowerFrom (c :: before) rest

def lower (t : Text) : Text :=
  lowerFrom [] t

def upperChar (c : CodePoint) : Text :=
  if c.toNat < 0x80 then [c.asciiUpper]
  else
    match upperExpansions.find? fun e => e.1 == c.toNat with
    | some e => e.2.map .ofNat
    | none => [(lookupRun upperRuns c).getD c]

def upper (t : Text) : Text :=
  t.flatMap upperChar

def sameLower (s t : Text) : Bool :=
  lower s == lower t

end DataLake.Text
