import DataLake.Url.Host
import DataLake.Text.Case

/-!
The parts of a URL as a signature sees them. Leading blanks and controls and
all tabs and line ends are dropped first; nothing is decoded. A URL is rejected
when its authority has unpaired brackets, no address between them, or a
character that only looks like a delimiter.
-/

namespace DataLake.Url

structure Parts where
  scheme : Text
  authority : Text
  path : Text
  query : Text
  fragment : Text

def isSchemeChar (c : CodePoint) : Bool :=
  c.isAsciiAlphanum || c == '+' || c == '-' || c == '.'

/-- The scheme in lower case and what follows its colon. -/
def cutScheme (t : Text) : Text × Text :=
  match Text.cutFirst ':' t with
  | (name, some rest) =>
      if (name.head?.any CodePoint.isAsciiLetter) && name.all isSchemeChar then
        (name.map CodePoint.asciiLower, rest)
      else ([], t)
  | (_, none) => ([], t)

def cutAuthority (t : Text) : Text × Text :=
  match t with
  | '/' :: '/' :: rest =>
      let inside (c : CodePoint) : Bool := c != '/' && c != '?' && c != '#'
      (rest.takeWhile inside, rest.dropWhile inside)
  | _ => ([], t)

/-- Characters whose compatibility form holds one of `/?#@:`. -/
def lookalikes : List Nat :=
  [0x2047, 0x2048, 0x2049, 0x2100, 0x2101, 0x2105, 0x2106, 0x2A74, 0xFE13, 0xFE16, 0xFE55, 0xFE56,
    0xFE5F, 0xFE6B, 0xFF03, 0xFF0F, 0xFF1A, 0xFF1F, 0xFF20]

/-- Whether the text between brackets is an address, with or without a zone, or
of the form reserved for later versions of addresses. -/
def isBracketed (t : Text) : Bool :=
  match t with
  | 'v' :: rest =>
      match Text.cutFirst '.' rest with
      | (version, some body) =>
          !version.isEmpty && version.all (fun c => c.hexValue?.isSome) && !body.isEmpty
      | (_, none) => false
  | _ =>
      match Text.cutFirst '%' t with
      | (address, none) => isAddress isStrictOctet address
      | (address, some zone) =>
          isAddress isStrictOctet address && !zone.isEmpty && !zone.contains '%'

/-- Whether the brackets of what stands after the user information hold a host:
nothing stands before them, and only a port after them. -/
def isBracketedHost (t : Text) : Bool :=
  match Text.cutFirst '[' t with
  | (_, none) => isBracketed (Text.cutFirst ':' t).1
  | (before, some rest) =>
      let (host, after) := Text.cutFirst ']' rest
      before.isEmpty && (after.all fun t => t.head?.all fun (c : CodePoint) => c == ':') &&
        isBracketed host

def isAuthority (t : Text) : Bool :=
  (if t.contains (.char '[') && t.contains (.char ']') then isBracketedHost (Text.cutLast '@' t).2
    else !t.contains (.char '[') && !t.contains (.char ']')) &&
    !t.any fun c => lookalikes.contains c.toNat

/-- The parts of a URL, unless its authority is not acceptable. -/
def Parts.ofUrl? (url : Text) : Option Parts :=
  let url := (url.dropWhile fun c => c.toNat ≤ 0x20).filter fun (c : CodePoint) =>
    c != '\t' && c != '\r' && c != '\n'
  let (scheme, rest) := cutScheme url
  let (authority, rest) := cutAuthority rest
  let (rest, fragment) := Text.cutFirst '#' rest
  let (path, query) := Text.cutFirst '?' rest
  if isAuthority authority then
    some ⟨scheme, authority, path, query.getD [], fragment.getD []⟩
  else none

/-- The user name and password of an authority, decoded, when it has both. -/
def Parts.userInfo (parts : Parts) : Option (Text × Text) :=
  match Text.cutLast '@' parts.authority with
  | (some user, _) =>
      match Text.cutFirst ':' user with
      | (name, some password) => some (unescape name, unescape password)
      | (_, none) => none
  | (none, _) => none

end DataLake.Url
