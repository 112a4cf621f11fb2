import DataLake.Calendar.HeaderDate
import DataLake.Credential
import DataLake.Hash.Hmac
import DataLake.Http.Draft
import DataLake.Number.Word

/-!
Signing. The string to sign puts a request into a canonical form that neither
the order of its headers and query fields nor the case of their names can
change; the signature is its keyed digest. Every signed request carries the
time of signing and the version of the protocol.
-/

namespace DataLake.Signing

def defaultVersion : Text := "2021-08-06"

/-- What tokens are asked for. -/
def storageScope : Text := "https://storage.azure.com/.default"

def dateHeader : Text := "x-ms-date"

def versionHeader : Text := "x-ms-version"

/-- The order of pairs of texts, by the first and then by the second. -/
def pairAtMost (a b : Text × Text) : Bool :=
  if a.1 == b.1 then Text.atMost a.2 b.2 else Text.atMost a.1 b.1

/-- The headers of the service in canonical form: names in lower case, runs of
blanks in values as one space, sorted. -/
def serviceHeaders (headers : Headers) : List (Text × Text) :=
  let own := headers.filter fun h => (Text.ofString "x-ms-").isPrefixOf (Text.lower h.1)
  (own.map fun h =>
    (Text.strip (Text.lower h.1), Text.joinWith " " (Text.words h.2))).mergeSort pairAtMost

def canonicalHeaders (headers : Headers) : Text :=
  (serviceHeaders headers).flatMap fun (name, value) => name ++ ":" ++ value ++ "\n"

def valuesOf (fields : List (Text × Text)) (key : Text) : List Text :=
  ((fields.filter fun f => f.1 == key).map Prod.snd).mergeSort Text.atMost

def keyLine (fields : List (Text × Text)) (key : Text) : Text :=
  "\n" ++ key ++ ":" ++ Text.joinWith "," (valuesOf fields key)

/-- The account and the path, then one line for each key of the query: keys in
lower case and sorted, the values of a key sorted. -/
def canonicalResource (account : Text) (parts : Url.Parts) : Text :=
  let fields := (Url.decodeQuery parts.query).map fun (key, value) => (Text.lower key, value)
  let keys := ((fields.map Prod.fst).eraseDups).mergeSort Text.atMost
  let path : Text := if parts.path.isEmpty then "/" else parts.path
  "/" ++ account ++ path ++ keys.flatMap (keyLine fields)

/-- The headers whose values are signed by position, after the method. -/
def signedHeaders (headers : Headers) : List Text :=
  let value (name : String) : Text := (headers.get? name).getD []
  let length := value "Content-Length"
  [value "Content-Encoding", value "Content-Language", if length == "0" then [] else length,
    value "Content-MD5", value "Content-Type", [], value "If-Modified-Since", value "If-Match",
    value "If-None-Match", value "If-Unmodified-Since", value "Range"]

def stringToSign (r : Request) (account : Text) : Except Failure Text :=
  match Url.Parts.ofUrl? r.url with
  | none => .error .authorityMalformed
  | some parts =>
      .ok (Text.joinWith "\n" (Text.upper r.method :: signedHeaders r.headers) ++ "\n" ++
        canonicalHeaders r.headers ++ canonicalResource account parts)

def keyBytes (key : Text) : Except Failure Bytes :=
  if key.all fun c => c.toNat < 0x80 then
    match Base64.decode? key with
    | some bytes => .ok bytes
    | none => .error .keyMalformed
  else .error .keyNotAscii

/-- The signature of a string to sign, which must have an encoding. -/
def signature (key : Bytes) (toSign : Text) : Except Failure Text :=
  match Text.Utf8.encode? toSign with
  | some message => .ok (Base64.encode (Hmac.sha256 key message))
  | none => .error .textUnencodable

def dateValue (now : Int) : Except Failure Text :=
  let date := Calendar.DateTime.ofUnix now
  if !Number.isWord now then .error .numberTooLarge
  else if !Calendar.fitsWord (date.year - 1900) then .error .timeUncountable
  else if !Calendar.inRange date.year then .error .timeUnprintable
  else .ok date.headerText

/-- The value that shows the right to a request. -/
def authorization (r : Request) (c : Credential) : Except Failure Text := do
  match c.accountKey with
  | some key =>
      match given c.accountName with
      | none => .error (.ofCause .accountNameMissing)
      | some name =>
          let toSign ← stringToSign r name
          let key ← keyBytes key
          let signature ← signature key toSign
          return "SharedKey " ++ name ++ ":" ++ signature
  | none =>
      match given c.token with
      | some token => return "Bearer " ++ token
      | none => .error (.ofCause .credentialMissing)

/-- The request after signing, which keeps what was set before a failure, and
the failure if there was one. -/
def sign (version : Text) (now : Int) (c : Credential) (r : Request) :
    Request × Except Failure Unit :=
  match dateValue now with
  | .error e => (r, .error e)
  | .ok date =>
      let r := { r with headers := (r.headers.set dateHeader date).set versionHeader version }
      match authorization r c with
      | .error e => (r, .error e)
      | .ok value => ({ r with headers := r.headers.set Draft.authorization value }, .ok ())

end DataLake.Signing
