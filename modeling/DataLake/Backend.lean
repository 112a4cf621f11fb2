import DataLake.Json.Reader
import DataLake.Operation
import DataLake.World

/-!
A backend: one filesystem with a login. Every operation builds its request,
loads a credential, signs, sends, and then decides what the status means; each
operation has its own set of accepted statuses. A fault that leaves an operation
carries the operation, the service, the filesystem and the path.
-/

namespace DataLake

structure Backend where
  location : Location
  loader : Loader
  version : Text := Signing.defaultVersion

structure Capability where
  stat : Bool
  read : Bool
  write : Bool
  writeCanAppend : Bool
  createDir : Bool
  delete : Bool
  rename : Bool
  list : Bool
  deriving DecidableEq, Repr

structure BackendInfo where
  scheme : Text
  root : Text
  name : Text
  capability : Capability
  deriving DecidableEq, Repr

namespace Fault

/-- The body as far as it is read. A status of zero stands for a response whose
body cannot be asked for. -/
def readableBody (r : Response) : Bytes :=
  if r.status = 0 then [] else r.body

/-- The fields of an error object, as a body holds one under `error`. -/
abbrev ErrorFields := List (Text × Json)

/-- The fields of the error object in a body; none without such an object. -/
def errorFields (depth : Nat) (body : Bytes) : Except Failure ErrorFields :=
  match Json.readBytes body depth with
  | .error .tooDeep => .error .nestedTooDeep
  | .error .malformed => .ok []
  | .ok value =>
      match value.field? "error" with
      | some (.object fields) => .ok fields
      | _ => .ok []

/-- The code of the error that a response reports: the one among the fields, or
else the one in its headers, or else null. -/
def errorCode (r : Response) (fields : ErrorFields) : Json :=
  match (Json.fieldOf fields "code").getD .null with
  | .null => (r.headers.get? "x-ms-error-code").elim .null .string
  | code => code

/-- The message that a response reports: the one among the fields, or else the
text of the body. -/
def errorMessage (r : Response) (fields : ErrorFields) : Json :=
  match (Json.fieldOf fields "message").getD .null with
  | .null => .string (Text.strip (Text.Utf8.decodeLenient (readableBody r)))
  | message => message

/-- The first of message, code, reason and a fixed text that is not void. -/
def errorDetail (r : Response) (fields : ErrorFields) : Json :=
  let message := errorMessage r fields
  let code := errorCode r fields
  if !message.isVoid then message
  else if !code.isVoid then code
  else .string (if r.reason.isEmpty then "no response body" else r.reason)

/-- The fault for a response whose status is not accepted, given the fields of
the error object in its body. -/
def ofResponse (r : Response) (fields : ErrorFields) : Fault :=
  let report : Report :=
    { status := r.status, body := readableBody r, refusal := .ofStatus r.status
      errorCode := errorCode r fields }
  let fault : Fault := { cause := .refused report (errorDetail r fields).text }
  fault.withContext "request_id" (given (r.headers.get? "x-ms-request-id"))

end Fault

/-- The failure for a response whose status is not accepted: a fault, unless the
body of the response is nested too deep to be read. -/
def Failure.ofResponse (r : Response) (depth : Nat := Room.usual.nesting) : Failure :=
  match Fault.errorFields depth (Fault.readableBody r) with
  | .ok fields => .fault (.ofResponse r fields)
  | .error e => e

def accept (statuses : List Int) (depth : Nat) (r : Response) : Except Failure Unit :=
  if statuses.contains r.status then .ok () else .error (.ofResponse r depth)

namespace Backend

def serviceName : Text := "azdls"

/-- A fault with the operation that it leaves and where it happened. -/
def annotate (b : Backend) (operation path : Text) (f : Fault) : Fault :=
  (((f.withOperation operation).withContext "service" (some serviceName)).withContext
    "filesystem" (some b.location.filesystem)).withContext "path" (some path)

def annotated {α : Type} (b : Backend) (operation : String) (path : Text) (x : Action α) :
    Action α :=
  x.mapFault (b.annotate operation path)

/-- Signs a request with a credential loaded for it. -/
def sign (b : Backend) (r : Request) : Action Request := do
  let c ← b.loader.load
  fun w =>
    match Signing.sign b.version w.now c r with
    | (r, .ok ()) => (.ok r, w)
    | (_, .error e) => (.error e, w)

def exchange (b : Backend) (op : Operation) : Action Response := do
  let r ← Action.ofExcept (op.request b.location)
  let r ← b.sign r
  send r

/-- Carries out one operation, whose status must be one of the given ones. -/
def perform (b : Backend) (op : Operation) (statuses : List Int) : Action Response := do
  let room ← Action.room
  let r ← b.exchange op
  Action.ofExcept (accept statuses room.nesting r)
  return r

def directoryAt (path : Text) : Operation :=
  .create path "directory" none []

def createDir (b : Backend) (path : Text) : Action Unit :=
  b.annotated "Backend::create_dir" path do
    let _ ← b.perform (directoryAt path) [201, 200]

/-- The kind of an entry by the header that states it. -/
def readMode (headers : Headers) : Except Failure EntryMode :=
  match headers.get? Cause.resourceTypeHeader with
  | none => .error (.ofCause .resourceTypeMissing)
  | some value =>
      if value == "file" then .ok .file
      else if value == "directory" then .ok .directory
      else
        let fault : Fault := { cause := .resourceTypeUnsupported value }
        .error (.fault (fault.withContext "resource" (some value)))

/-- The metadata of a path. The root is a directory without being asked for. -/
def stat (b : Backend) (path : Text) : Action Metadata :=
  b.annotated "Backend::stat" path do
    if Path.isRoot path then return { mode := .directory }
    else
      let r ← b.perform (.properties path) [200]
      let m ← Action.ofExcept (Metadata.ofHeaders .unknown r.headers)
      let mode ← Action.ofExcept (readMode r.headers)
      return { m with mode }

def read (b : Backend) (path : Text) (range : Option ByteRange) : Action Response :=
  b.annotated "Backend::read" path (b.perform (.read path range) [200, 206])

/-- Deletes a path; one that is already gone counts as deleted. -/
def delete (b : Backend) (path : Text) : Action Unit :=
  b.annotated "Backend::delete" path do
    let _ ← b.perform (.delete path) [200, 404]

/-- Creates the parent of a target, if it has one below the root. A conflict is
taken to mean that the parent exists. -/
def ensureParent (b : Backend) (target : Text) : Action Unit := do
  let parent := Path.parent target
  if !parent.isEmpty then
    let _ ← b.perform (directoryAt parent) [201, 409]

/-- Moves a path, after its new parent was created. -/
def rename (b : Backend) (source target : Text) : Action Unit :=
  b.annotated "Backend::rename" source <|
    Action.mapFault (fun f => f.withContext "target" (some target)) do
      b.ensureParent target
      let _ ← b.perform (.rename source target) [201]

def info (b : Backend) : BackendInfo :=
  { scheme := serviceName
    root := b.location.root
    name := b.location.filesystem
    capability := ⟨true, true, true, true, true, true, true, true⟩ }

def description (b : Backend) : Text :=
  "AzdlsBackend(filesystem=" ++ Text.quoted b.location.filesystem ++ ", root=" ++
    Text.quoted b.location.root ++ ")"

end Backend

end DataLake
