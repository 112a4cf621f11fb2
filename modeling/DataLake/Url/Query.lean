import DataLake.Url.Percent

/-!
Query fields. They are written as `key=value` with an ampersand between fields
and a plus sign for a space. Reading skips empty fields, takes a field without
an equals sign as one with an empty value, and keeps the order.
-/

namespace DataLake.Url

def encodeField (t : Text) : Text :=
  t.flatMap fun (c : CodePoint) =>
    if c = ' ' then ['+'] else if isUnreserved c then [c] else escapePoint c

def encodeQuery (fields : List (Text × Text)) : Text :=
  Text.joinWith "&"
    (fields.map fun (key, value) => encodeField key ++ .char '=' :: encodeField value)

/-- The query text of a list of fields, unless one of them holds half of a
surrogate pair. -/
def encodeQuery? (fields : List (Text × Text)) : Option Text :=
  if fields.any fun (key, value) => (key ++ value).any CodePoint.isHalf then none
  else some (encodeQuery fields)

def decodeField (t : Text) : Text :=
  unescape (t.map fun (c : CodePoint) => if c = '+' then ' ' else c)

def decodeQuery (query : Text) : List (Text × Text) :=
  ((Text.splitOn '&' query).filter (!·.isEmpty)).map fun field =>
    let (key, value) := Text.cutFirst '=' field
    (decodeField key, decodeField (value.getD []))

end DataLake.Url
