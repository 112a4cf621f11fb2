import DataLake.Text.Case

/-!
Messages of the transfer protocol: headers, requests and responses. A header is
found by its name in any letter case; setting it again replaces its value and
the spelling of its name, and it keeps its place.
-/

namespace DataLake

/-- Headers in order, no two with names that differ in letter case only. -/
abbrev Headers := List (Text × Text)

namespace Headers

def get? (h : Headers) (name : Text) : Option Text :=
  (h.find? fun e => Text.sameLower e.1 name).map Prod.snd

def set (h : Headers) (name value : Text) : Headers :=
  match h with
  | [] => [(name, value)]
  | (n, v) :: rest =>
      if Text.sameLower n name then (name, value) :: rest else (n, v) :: set rest name value

def ofList (pairs : List (Text × Text)) : Headers :=
  pairs.foldl (fun h (name, value) => h.set name value) []

end Headers

structure Request where
  method : Text
  url : Text
  headers : Headers
  body : Bytes
  deriving DecidableEq

structure Response where
  status : Int
  headers : Headers
  body : Bytes
  reason : Text

end DataLake
