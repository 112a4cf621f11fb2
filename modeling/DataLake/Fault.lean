import DataLake.Json

/-!
Faults: failures that the library itself finds and describes. A cause says what
went wrong, and its message is decided here once. On its way out a fault
collects the operation it left last and an ordered context of named texts.
-/

namespace DataLake

/-- Named texts in the order in which their names first appeared. -/
abbrev Context := List (Text × Text)

namespace Context

def get? (c : Context) (key : Text) : Option Text :=
  (c.find? fun e => e.1 == key).map Prod.snd

/-- The context after one text is set; a name that is there keeps its place. -/
def set (c : Context) (key value : Text) : Context :=
  match c with
  | [] => [(key, value)]
  | (k, v) :: rest => if k = key then (k, value) :: rest else (k, v) :: set rest key value

/-- The context after one text is set unless its name is there already. -/
def setNew (c : Context) (key value : Text) : Context :=
  if (c.get? key).isSome then c else c ++ [(key, value)]

def shown (c : Context) : List Text :=
  c.map fun (key, value) => key ++ ": " ++ value

end Context

/-- What an answer outside the expected ones meant. -/
inductive Refusal where
  | notFound
  | permissionDenied
  | conditionNotMatched
  | unexpected
  | named (label : Text)
  deriving DecidableEq, Repr

def Refusal.label : Refusal → Text
  | notFound => "not_found"
  | permissionDenied => "permission_denied"
  | conditionNotMatched => "condition_not_match"
  | unexpected => "unexpected"
  | named label => label

def Refusal.ofStatus (status : Int) : Refusal :=
  if status = 404 then notFound
  else if status = 403 then permissionDenied
  else if status = 412 || status = 304 || status = 409 then conditionNotMatched
  else unexpected

/-- Whether an operation that was answered with this status may be tried again. -/
def isTransient (status : Int) : Bool :=
  status == 500 || status == 502 || status == 503 || status == 504

structure Report where
  status : Int
  body : Bytes
  refusal : Refusal
  errorCode : Json

/-- The family of a fault, with what only that family reports. -/
inductive Family where
  | general
  | configuration (field : Option Text)
  | response
  | remote (report : Report)

/-- The space that the codes of a family lie in unless another is given. -/
def Family.space : Family → Text
  | general => "AZDLS"
  | configuration _ => "AZDLS_CFG"
  | response => "AZDLS_RESP"
  | remote _ => "AZDLS_HTTP"

/-- How getting a token failed, as far as the message tells them apart. -/
inductive LoginTrouble where
  | rejected
  | connectTimeout
  | connection
  | other
  deriving DecidableEq, Repr

inductive Cause where
  | filesystemEmpty
  | endpointEmpty
  | backendUnknown (name : Text)
  | resourceTypeMissing
  | resourceTypeUnsupported (value : Text)
  | listingNotJson
  | listingNotObject
  | contentLengthInvalid (value : Text)
  | dateInvalid (value : Text)
  | entryLengthInvalid (value : Json)
  | loginFailed (trouble : LoginTrouble) (className message : Text)
  | accountNameMissing
  | credentialMissing
  | writerClosed (path : Text)
  | refused (report : Report) (detail : Text)
  /-- A fault stated by the application itself. -/
  | stated (family : Family) (text : Text) (space : Option Text) (number : Option Int)
      (recoverable : Bool)

namespace Cause

/-- The name of the header that tells files and directories apart. -/
def resourceTypeHeader : Text :=
  "x-ms-resource-type"

def bracketed (t : Text) : Text :=
  '[' :: (t ++ "]")

def text : Cause → Text
  | filesystemEmpty => "filesystem is empty"
  | endpointEmpty => "endpoint is empty"
  | backendUnknown name => "No backend named " ++ bracketed name ++ " is configured"
  | resourceTypeMissing =>
      "Response is missing the " ++ resourceTypeHeader ++ " header"
  | resourceTypeUnsupported value =>
      "Unsupported " ++ resourceTypeHeader ++ " " ++ bracketed value
  | listingNotJson => "List response is not valid JSON"
  | listingNotObject => "List response is not a JSON object"
  | contentLengthInvalid value => "Invalid Content-Length header " ++ bracketed value
  | dateInvalid value => "Invalid HTTP date " ++ bracketed value
  | entryLengthInvalid value =>
      "Invalid contentLength " ++ bracketed value.text ++ " in list response"
  | loginFailed trouble className message =>
      let kind : Text :=
        match trouble with
        | .rejected => "client authentication error: "
        | .connectTimeout => "connection timeout error: "
        | .connection => "connection error: "
        | .other => []
      "Azure: " ++ kind ++ className ++ ": " ++ message
  | accountNameMissing => "Shared key signing requires an account name"
  | credentialMissing => "No usable credential was resolved"
  | writerClosed path => "Writer for " ++ bracketed path ++ " is already closed"
  | refused report detail =>
      "Remote operation failed with status " ++ Text.ofInt report.status ++ ": " ++ detail
  | stated _ text _ _ _ => text

def family : Cause → Family
  | filesystemEmpty => .configuration (some "filesystem")
  | endpointEmpty => .configuration (some "endpoint")
  | backendUnknown name => .configuration (some name)
  | resourceTypeMissing | resourceTypeUnsupported _ | listingNotJson | listingNotObject
  | contentLengthInvalid _ | dateInvalid _ | entryLengthInvalid _ => .response
  | loginFailed .. | accountNameMissing | credentialMissing | writerClosed _ => .general
  | refused report _ => .remote report
  | stated family _ _ _ _ => family

def space : Cause → Text
  | loginFailed .. | accountNameMissing | credentialMissing => "AZDLS_AUTH"
  | writerClosed _ => "AZDLS_WRITE"
  | stated family _ space _ _ => space.getD family.space
  | cause => cause.family.space

def number : Cause → Option Int
  | filesystemEmpty => some 1000
  | endpointEmpty => some 1001
  | backendUnknown _ => some 1002
  | resourceTypeMissing => some 1001
  | resourceTypeUnsupported _ => some 1002
  | listingNotJson | listingNotObject => some 1003
  | contentLengthInvalid _ => some 1004
  | dateInvalid _ => some 1005
  | entryLengthInvalid _ => some 1006
  | loginFailed .other _ _ => some 1000
  | loginFailed .rejected _ _ => some 1001
  | loginFailed .connectTimeout _ _ => some 1002
  | loginFailed .connection _ _ => some 1003
  | accountNameMissing => some 1004
  | credentialMissing => some 1005
  | writerClosed _ => some 1000
  | refused report _ => some report.status
  | stated _ _ _ number _ => number

/-- The code in one word; empty without a number. -/
def codeText (c : Cause) : Text :=
  match c.number with
  | some n => c.space ++ "-" ++ Text.ofInt n
  | none => []

def isRecoverable : Cause → Bool
  | loginFailed trouble _ _ => trouble != .other
  | refused report _ => isTransient report.status
  | stated _ _ _ _ recoverable => recoverable
  | _ => false

end Cause

structure Fault where
  cause : Cause
  operation : Option Text := none
  context : Context := []

namespace Fault

/-- The name under which the innermost operation is kept. -/
def calledKey : Text := "called"

/-- Records the operation that the fault leaves. When it replaces another one,
the first of all stays in the context. -/
def withOperation (f : Fault) (operation : Text) : Fault :=
  let context :=
    match f.operation with
    | some inner => if inner = operation then f.context else f.context.setNew calledKey inner
    | none => f.context
  { f with operation := some operation, context }

/-- Records a named text; without a text nothing changes. -/
def withContext (f : Fault) (key : Text) (value : Option Text) : Fault :=
  match value with
  | some text => { f with context := f.context.set key text }
  | none => f

/-- The whole message: the cause with its code, then the operation unless it is
empty, then the context. -/
def message (f : Fault) : Text :=
  let extras :=
    (match f.operation with
      | some operation => if operation.isEmpty then [] else ["operation: " ++ operation]
      | none => []) ++ f.context.shown
  let base := f.cause.text ++ " " ++ Cause.bracketed f.cause.codeText
  if extras.isEmpty then base
  else base ++ " (" ++ Text.joinWith ", " extras ++ ")"

end Fault

end DataLake
