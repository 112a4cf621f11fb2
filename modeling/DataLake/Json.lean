import DataLake.Number.Shortest
import DataLake.Text.Quoted

/-!
Dynamic values: what a service answer or a configuration holds. Integers and
floating-point numbers are different values, and the fields of an object keep
the order in which their keys first appeared.
-/

namespace DataLake

inductive Json where
  | null
  | bool (b : Bool)
  | integer (n : Int)
  | float (x : Double)
  | string (t : Text)
  | array (items : List Json)
  | object (fields : List (Text × Json))
  deriving Inhabited

namespace Json

/-- The fields after one is set: a key that is there keeps its place. -/
def setField (key : Text) (value : Json) : List (Text × Json) → List (Text × Json)
  | [] => [(key, value)]
  | (k, v) :: rest =>
      if k = key then (key, value) :: rest else (k, v) :: setField key value rest

def fieldOf (fields : List (Text × Json)) (key : Text) : Option Json :=
  (fields.find? fun f => f.1 == key).map Prod.snd

def field? (j : Json) (key : Text) : Option Json :=
  match j with
  | .object fields => fieldOf fields key
  | _ => none

/-- Null, false, zero and whatever is empty. -/
def isVoid : Json → Bool
  | .null => true
  | .bool b => !b
  | .integer n => n == 0
  | .float x => x.isZero
  | .string t => t.isEmpty
  | .array items => items.isEmpty
  | .object fields => fields.isEmpty

mutual

/-- The text of a value inside another one, where texts stand in quotes. -/
def inner : Json → Text
  | .null => "None"
  | .bool true => "True"
  | .bool false => "False"
  | .integer n => Text.ofInt n
  | .float x => x.text
  | .string t => Text.quoted t
  | .array items => "[" ++ Text.joinWith ", " (innerItems items) ++ "]"
  | .object fields => "\x7b" ++ Text.joinWith ", " (innerFields fields) ++ "\x7d"

def innerItems : List Json → List Text
  | [] => []
  | item :: rest => inner item :: innerItems rest

def innerFields : List (Text × Json) → List Text
  | [] => []
  | (key, value) :: rest => (Text.quoted key ++ ": " ++ inner value) :: innerFields rest

end

/-- The text of a value. A string stands without quotes. -/
def text : Json → Text
  | .string t => t
  | j => inner j

end Json

end DataLake
