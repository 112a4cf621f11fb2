import DataLake.Url.Percent
import DataLake.Text.Digit

/-!
Hosts of URLs: registered names, and addresses in brackets. An address has
eight groups of hexadecimal digits, or fewer around one double colon, and its
last two groups may be written as four decimal octets. The normal form of a host
is in lower case, with as few escapes as it can have; only a name that is an
address in numbers is left as it is, and a control makes a host unusable.
-/

namespace DataLake.Url

def isHexGroup (t : Text) : Bool :=
  0 < t.length && t.length ≤ 4 && t.all fun c => c.hexValue?.isSome

/-- Whether the text is one to three decimal digits. -/
def isOctet (t : Text) : Bool :=
  0 < t.length && t.length ≤ 3 && t.all CodePoint.isAsciiDigit

def isStrictOctet (t : Text) : Bool :=
  isOctet t && (t == "0" || t.head? != some (.char '0')) && (Text.readNat? t).any (· < 256)

/-- Whether the text is four octets with points between them. -/
def isQuad (octet : Text → Bool) (t : Text) : Bool :=
  let parts := Text.splitOn '.' t
  parts.length == 4 && parts.all octet

/-- The number of groups the pieces stand for, if all are well formed. Only the
last may be four octets, which stand for two groups. -/
def countGroups (octet : Text → Bool) : List Text → Option Nat
  | [] => some 0
  | [last] =>
      if isHexGroup last then some 1 else if isQuad octet last then some 2 else none
  | piece :: rest =>
      if isHexGroup piece then (countGroups octet rest).map (· + 1) else none

def cutDoubleColon : Text → Option (Text × Text)
  | [] => none
  | ':' :: ':' :: rest => some ([], rest)
  | c :: rest => (cutDoubleColon rest).map fun (before, after) => (c :: before, after)

/-- The pieces between colons; none in the empty text. -/
def colonPieces (t : Text) : List Text :=
  if t.isEmpty then [] else Text.splitOn ':' t

def isAddress (octet : Text → Bool) (t : Text) : Bool :=
  match cutDoubleColon t with
  | none => countGroups octet (Text.splitOn ':' t) == some 8
  | some (before, after) =>
      let left := colonPieces before
      left.all isHexGroup && (countGroups octet (colonPieces after)).any fun n =>
        left.length + n ≤ 7

/-- Whether every percent sign of the text begins an escape, and every other
character is of the given class. -/
def isEscapedOf (p : CodePoint → Bool) : Text → Bool
  | [] => true
  | '%' :: a :: b :: rest => (hexPair? a b).isSome && isEscapedOf p rest
  | c :: rest => c != '%' && p c && isEscapedOf p rest

/-- The zone of a scoped address after its percent sign, which may be written
as an escape itself. -/
def zoneName (zone : Text) : Text :=
  match zone with
  | '2' :: '5' :: rest => if rest.isEmpty then zone else rest
  | _ => zone

def isScopedAddress (inside : Text) : Bool :=
  match Text.cutFirst '%' inside with
  | (address, none) => isAddress isOctet address
  | (address, some zone) =>
      isAddress isOctet address && !zone.isEmpty && isEscapedOf isUnreserved zone

/-- The normal form of an address between brackets: the address in lower case,
and the zone with its escapes in upper case. No zone has a control in it. -/
def normalizeAddress? (inside : Text) : Option Text :=
  match Text.cutFirst '%' inside with
  | (address, none) => some (address.map CodePoint.asciiLower)
  | (address, some zone) =>
      let name := zoneName zone
      if escapesControl name then none
      else some (address.map CodePoint.asciiLower ++ .char '%' :: upperEscapes name)

/-- Characters that a registered name may have outside escapes: printable ASCII
other than the delimiters of a URL. -/
def isNameChar (c : CodePoint) : Bool :=
  0x20 < c.toNat && c.toNat < 0x7F && !("[]%:/?#" : Text).contains c

def isName (t : Text) : Bool :=
  isEscapedOf isNameChar t

/-- Whether the text is a decimal number, or a hexadecimal one after `0x`. -/
def isAddressNumber (t : Text) : Bool :=
  match t with
  | '0' :: x :: digits =>
      if x.asciiLower = 'x' then !digits.isEmpty && digits.all fun c => c.hexValue?.isSome
      else t.all CodePoint.isAsciiDigit
  | _ => !t.isEmpty && t.all CodePoint.isAsciiDigit

/-- Whether the name is an address of one to four numbers with points between
them. -/
def isNumericAddress (name : Text) : Bool :=
  let parts := Text.splitOn '.' name
  parts.length ≤ 4 && parts.all isAddressNumber

/-- The name in lower case with the escapes of unreserved characters undone; the
escapes that stay are in upper case. -/
def tidyName : Text → Text
  | '%' :: a :: b :: rest =>
      match hexPair? a b with
      | some n =>
          if isUnreserved (.ofNat n) then (CodePoint.ofNat n).asciiLower :: tidyName rest
          else '%' :: a.asciiUpper :: b.asciiUpper :: tidyName rest
      | none => '%' :: tidyName (a :: b :: rest)
  | c :: rest => c.asciiLower :: tidyName rest
  | [] => []

/-- The normal form of a registered name. An address in numbers is kept as it is
written, and no name has a control in it. Clients differ over names with escapes,
blanks or characters beyond ASCII: some leave escapes as they are, or take blanks and
write other characters as escapes or in Punycode. Only the form given here is modelled. -/
def normalizeName? (name : Text) : Option Text :=
  if isNumericAddress name then some name
  else if escapesControl name then none
  else some (tidyName name)

/-- The number of a port; the empty text is zero. -/
def readPort? (t : Text) : Option Nat :=
  let digits := t.dropWhile fun (c : CodePoint) => c == '0'
  if digits.all CodePoint.isAsciiDigit && digits.length ≤ 5 then
    let n := Text.ofDigits (digits.map fun c => c.toNat - 48)
    if n ≤ 65535 then some n else none
  else none

structure HostPort where
  host : Text
  port : Option Nat

/-- The port after a host, if there is one; zero counts as none. -/
def readPortAfter? (t : Text) : Option (Option Nat) :=
  match t with
  | [] => some none
  | ':' :: digits => (readPort? digits).map fun n => if n = 0 then none else some n
  | _ => none

/-- Host and port of what stands after the user information of an authority. The
host is brought to its normal form if that is asked for. -/
def readHostPort? (normalize : Bool) (t : Text) : Option HostPort := do
  match t with
  | '[' :: rest =>
      match Text.cutFirst ']' rest with
      | (_, none) => none
      | (inside, some after) =>
          if isScopedAddress inside then
            let port ← readPortAfter? after
            let address ← if normalize then normalizeAddress? inside else some inside
            return ⟨'[' :: (address ++ "]"), port⟩
          else none
  | _ =>
      let name := (Text.cutFirst ':' t).1
      if isName name then
        let port ← readPortAfter? (t.drop name.length)
        let host ← if normalize then normalizeName? name else some name
        return ⟨host, port⟩
      else none

end DataLake.Url
