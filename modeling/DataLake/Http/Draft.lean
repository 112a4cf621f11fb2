import DataLake.Http.Message
import DataLake.Failure
import DataLake.Url.Prepared
import DataLake.Codec.Base64

/-!
Drafts of requests and their preparation. Preparing brings the method to upper
case and the URL to its normal form, checks the headers, states the length of
the body, and moves a user name and password in the URL into a header.
-/

namespace DataLake

structure Draft where
  method : Text
  url : Text
  fields : List (Text × Text) := []
  headers : List (Text × Text) := []
  body : Bytes := []

namespace Draft

def hasLineEnd (t : Text) : Bool :=
  t.any fun (c : CodePoint) => c == '\r' || c == '\n'

/-- Whether a header may have this name: it begins with a character that is not
blank, and has neither a line end nor a colon. -/
def isHeaderName (name : Text) : Bool :=
  (name.head?.any fun c => !Text.isBlank c) && !hasLineEnd name && !name.contains (.char ':')

/-- Whether a header may have this value: it does not begin with a blank and has
no line end. Clients that look for line ends only before the last character let a
value end in one line feed; they are not modelled. -/
def isHeaderValue (value : Text) : Bool :=
  (value.head?.all fun c => !Text.isBlank c) && !hasLineEnd value

def contentLength : Text := "Content-Length"

def authorization : Text := "Authorization"

/-- Whether a request of this method goes without a body as a rule. -/
def isBodiless (method : Text) : Bool :=
  method == "GET" || method == "HEAD"

/-- The headers with the length of the body. An empty body is stated as zero
only where one is expected and no length was given. -/
def withLength (method : Text) (headers : Headers) (body : Bytes) : Headers :=
  if !body.isEmpty then headers.set contentLength (Text.ofNat body.length)
  else if !isBodiless method && (headers.get? contentLength).isNone then
    headers.set contentLength "0"
  else headers

def latinBytes? (t : Text) : Option Bytes :=
  if t.all fun c => c.toNat < 0x100 then some (t.map fun c => UInt8.ofNat c.toNat) else none

def basicValue? (user password : Text) : Option Text :=
  (latinBytes? (user ++ ":" ++ password)).map fun bytes =>
    "Basic " ++ Base64.encode bytes

def withUserInfo (url : Text) (headers : Headers) : Except Failure Headers :=
  match Url.Parts.ofUrl? url with
  | none => .error .authorityMalformed
  | some parts =>
      match parts.userInfo with
      | none => .ok headers
      | some (user, password) =>
          if user.isEmpty && password.isEmpty then .ok headers
          else
            match basicValue? user password with
            | some value => .ok (headers.set authorization value)
            | none => .error .userInfoUnencodable

def preparedUrl (d : Draft) : Except Failure Text :=
  match Url.prepare d.url d.fields with
  | .ok url => .ok url
  | .error .malformed => .error .urlMalformed
  | .error .noScheme => .error .urlWithoutScheme
  | .error .unencodable => .error .textUnencodable

def prepare (d : Draft) : Except Failure Request := do
  let method := Text.upper d.method
  let url ← d.preparedUrl
  if d.headers.all fun (name, value) => isHeaderName name && isHeaderValue value then
    let headers := withLength method (Headers.ofList d.headers) d.body
    let headers ← withUserInfo url headers
    return { method, url, headers, body := d.body }
  else .error .headerMalformed

end Draft

end DataLake
