import DataLake.Url.Parts
import DataLake.Url.Query
import DataLake.Text.Alphanumeric
import DataLake.Text.Blank

/-!
URLs as they are sent. A URL with one of the web schemes is taken apart, each
part is brought to its normal form, the query fields are added, and the whole
is put together again with every character escaped that may not stand in a URL.
Other URLs that have a colon are sent as they are, without query fields.
-/

namespace DataLake.Url

inductive UrlError where
  | malformed
  | noScheme
  | unencodable
  deriving DecidableEq, Repr

/-- Characters that delimit parts inside a component. -/
def isDelimiter (c : CodePoint) : Bool :=
  ("!$&'()*+,;=" : Text).contains c

def isUserChar (c : CodePoint) : Bool :=
  isUnreserved c || isDelimiter c || c == ':'

def isPathChar (c : CodePoint) : Bool :=
  isUserChar c || c == '@' || c == '/'

/-- Characters of a query or a fragment. -/
def isQueryChar (c : CodePoint) : Bool :=
  isPathChar c || c == '?'

def isUrlChar (c : CodePoint) : Bool :=
  isUnreserved c || isDelimiter c || (":@/?#[]" : Text).contains c

/-- A component in normal form. Its escapes are kept when all of its percent
signs begin one; otherwise each percent sign is escaped as well. -/
def encodeComponent (allowed : CodePoint → Bool) (t : Text) : Text :=
  let whole := isEscapedOf (fun _ => true) t
  percentEncode (fun c => allowed c || (whole && c == '%')) (upperEscapes t)

/-- The segments left after those of one and of two dots are carried out, the
last one first, given those before (the last one first). -/
def resolveDots (kept : List Text) : List Text → List Text
  | [] => kept
  | segment :: rest =>
      if segment = "." then resolveDots kept rest
      else if segment = ".." then resolveDots kept.tail rest
      else resolveDots (segment :: kept) rest

/-- The path without dot segments. One that ends in a dot segment keeps a slash
at its end. -/
def removeDots (path : Text) : Text :=
  let kept := (resolveDots [] (Text.splitOn '/' path)).reverse
  let kept :=
    if path.head? = some (.char '/') && !(kept.head?.any List.isEmpty) then [] :: kept else kept
  let kept :=
    if Text.endsWith path "/." || Text.endsWith path "/.." then kept ++ [[]]
    else kept
  Text.joinWith "/" kept

def isWebScheme (scheme : Text) : Bool :=
  scheme == "http" || scheme == "https"

/-- The scheme, if there is one, and the rest. A text without one, and without a
slash at its front, begins with an authority. -/
def cutWebScheme (url : Text) : Option Text × Text :=
  match Text.cutFirst ':' url with
  | (name, some rest) =>
      if (name.head?.any CodePoint.isAsciiLetter) &&
          name.all (fun c => isSchemeChar c && c != '.') then
        (some (name.map CodePoint.asciiLower), rest)
      else (none, if url.head? = some (.char '/') then url else "//" ++ url)
  | (_, none) => (none, if url.head? = some (.char '/') then url else "//" ++ url)

/-- The authority after two slashes, which a backslash ends too, and the rest. -/
def cutWebAuthority (t : Text) : Text × Text :=
  match t with
  | '/' :: '/' :: rest =>
      let inside (c : CodePoint) : Bool := c != '/' && c != '?' && c != '#' && c != '\\'
      (rest.takeWhile inside, rest.dropWhile inside)
  | _ => ([], t)

def readAuthority? (normalize : Bool) (authority : Text) : Option (Text × HostPort) :=
  let (user, hostPort) := Text.cutLast '@' authority
  let user := user.getD []
  (readHostPort? normalize hostPort).map fun hp =>
    (if normalize then encodeComponent isUserChar user else user, hp)

/-- The text with the escapes of unreserved characters undone, unless two
letters or digits that are not hexadecimal follow a percent sign. -/
def undoEscapes? (t : Text) : Option Text :=
  match Text.splitOn '%' t with
  | [] => some []
  | first :: parts => (parts.mapM part?).map fun parts => first ++ parts.flatten
where
  /-- The value of one character as a hexadecimal digit of any script. -/
  value? (c : CodePoint) : Option Nat :=
    c.hexValue?.or (Text.digitValue? c)
  /-- One part after a percent sign. -/
  part? (part : Text) : Option Text :=
    match part with
    | a :: b :: rest =>
        if Text.isAlphanumeric a && Text.isAlphanumeric b then
          match value? a, value? b with
          | some a, some b =>
              let c := CodePoint.ofNat (16 * a + b)
              some (if isUnreserved c then c :: rest else '%' :: part)
          | _, _ => none
        else some ('%' :: part)
    | _ => some ('%' :: part)

def requote? (url : Text) : Option Text :=
  match undoEscapes? url with
  | some url => percentEncode? (fun c => isUrlChar c || c == '%') url
  | none => percentEncode? isUrlChar url

def assemble (scheme user host : Text) (port : Option Nat) (path query fragment : Text) : Text :=
  let user : Text := if user.isEmpty then [] else user ++ "@"
  let port : Text := port.elim [] fun n => ':' :: Text.ofNat n
  let query : Text := if query.isEmpty then [] else '?' :: query
  let fragment : Text := if fragment.isEmpty then [] else '#' :: fragment
  scheme ++ "://" ++ user ++ host ++ port ++ path ++ query ++ fragment

/-- Two query texts in one, of which either may be empty. -/
def joinQueries (query added : Text) : Text :=
  if added.isEmpty then query
  else if query.isEmpty then added
  else query ++ "&" ++ added

/-- Whether the URL is sent as it is. -/
def isForeign (url : Text) : Bool :=
  url.contains (.char ':') && !(Text.ofString "http").isPrefixOf (url.map CodePoint.asciiLower)

def prepare (url : Text) (fields : List (Text × Text)) : Except UrlError Text :=
  let url := url.dropWhile Text.isBlank
  if isForeign url then .ok url
  else
    let (scheme, rest) := cutWebScheme url
    let normalize := scheme.all isWebScheme
    let (authority, rest) := cutWebAuthority rest
    let (rest, fragment) := Text.cutFirst '#' rest
    let (path, query) := Text.cutFirst '?' rest
    let tidy (allowed : CodePoint → Bool) (t : Text) : Text :=
      if normalize then encodeComponent allowed t else t
    match readAuthority? normalize authority with
    | none => .error .malformed
    | some (user, hp) =>
        match scheme with
        | none => .error .noScheme
        | some scheme =>
            if hp.host.isEmpty || hp.host.head? = some (.char '*') ||
                hp.host.head? = some (.char '.') then
              .error .malformed
            else
              let path := tidy isPathChar (if normalize then removeDots path else path)
              let path := if path.head? = some (.char '/') then path else '/' :: path
              let query := tidy isQueryChar (query.getD [])
              let fragment := tidy isQueryChar (fragment.getD [])
              match encodeQuery? fields with
              | none => .error .unencodable
              | some added =>
                  let query := joinQueries query added
                  match requote? (assemble scheme user hp.host hp.port path query fragment) with
                  | some url => .ok url
                  | none => .error .unencodable

end DataLake.Url
