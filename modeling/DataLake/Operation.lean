import DataLake.Http.Draft
import DataLake.Metadata

/-!
The operations of the service and the requests they are made of. A location
says where a filesystem is and which root paths are relative to; it is all that
a request depends on beside the operation itself.
-/

namespace DataLake

structure Location where
  root : Text
  filesystem : Text
  endpoint : Text
  deriving DecidableEq, Repr

inductive Operation where
  /-- Creates a file or a directory, as the resource says. -/
  | create (path resource : Text) (options : Option WriteOptions) (body : Bytes)
  /-- Asks for the properties of a path. -/
  | properties (path : Text)
  /-- Reads a file or a range of it. -/
  | read (path : Text) (range : Option ByteRange)
  /-- Deletes a path. -/
  | delete (path : Text)
  /-- Moves a path onto another one. -/
  | rename (source target : Text)
  /-- Appends bytes at a position, and commits them as well if asked to. -/
  | update (path : Text) (position : Int) (body : Bytes) (commit : Bool)
  /-- Commits everything up to a position. -/
  | flush (path : Text) (position : Int)
  /-- Lists one page of a directory. -/
  | list (path : Text) (continuation : Option Text) (limit : Option Int)

namespace Location

def renameSourceHeader : Text := "x-ms-rename-source"

def url (loc : Location) : Text :=
  loc.endpoint ++ "/" ++ loc.filesystem

/-- The remote name of a path, without slashes at its end. -/
def remoteName (loc : Location) (path : Text) : Text :=
  Path.dropTrailingSlashes (Path.absolute loc.root path)

def encodedName (loc : Location) (path : Text) : Except Failure Text :=
  match Url.encodePath? (loc.remoteName path) with
  | some name => .ok name
  | none => .error .textUnencodable

def pathUrl (loc : Location) (path : Text) : Except Failure Text :=
  (loc.encodedName path).map fun name => loc.url ++ "/" ++ name

def renameSource (loc : Location) (source : Text) : Except Failure Text :=
  (loc.encodedName source).map fun name => "/" ++ loc.filesystem ++ "/" ++ name

end Location

def WriteOptions.headers (o : WriteOptions) : List (Text × Text) :=
  let header (name : String) (value : Option Text) : List (Text × Text) :=
    match value with
    | some v => if v.isEmpty then [] else [(name, v)]
    | none => []
  header "Content-Type" o.contentType ++ header "Content-Disposition" o.contentDisposition

namespace Operation

def queryField (name : String) (value : Text) : Text × Text :=
  (name, value)

def lengthHeader (n : Nat) : Text × Text :=
  (Draft.contentLength, Text.ofNat n)

/-- The query fields of a listing: the directory below the filesystem unless it
is the filesystem itself, the limit, and the token of an earlier page. -/
def listFields (loc : Location) (path : Text) (continuation : Option Text) (limit : Option Int) :
    Except Failure (List (Text × Text)) := do
  let directory := Path.dropOuterSlashes (Path.absolute loc.root path)
  let limit ← limit.mapM writeNumber
  return [queryField "resource" "filesystem", queryField "recursive" "false"] ++
    (if directory.isEmpty then [] else [queryField "directory" directory]) ++
    (match limit with
      | some n => [queryField "maxResults" n]
      | none => []) ++
    (match continuation with
      | some token => if token.isEmpty then [] else [queryField "continuation" token]
      | none => [])

def draft (loc : Location) : Operation → Except Failure Draft
  | create path resource options body => do
      let url ← loc.pathUrl path
      return {
        method := "PUT"
        url
        fields := [queryField "resource" resource]
        headers := lengthHeader 0 :: options.elim [] WriteOptions.headers
        body }
  | properties path => do
      let url ← loc.pathUrl path
      return { method := "HEAD", url, fields := [queryField "action" "getStatus"] }
  | read path range => do
      let headers : List (Text × Text) ←
        match range with
        | some r => if r.isFull then .ok [] else r.headerText.map fun value => [("Range", value)]
        | none => .ok []
      let url ← loc.pathUrl path
      return { method := "GET", url, headers }
  | delete path => do
      let url ← loc.pathUrl path
      return { method := "DELETE", url }
  | rename source target => do
      let url ← loc.pathUrl target
      let source ← loc.renameSource source
      return {
        method := "PUT"
        url
        headers := [(Location.renameSourceHeader, source), lengthHeader 0] }
  | update path position body commit => do
      let position ← writeNumber position
      let url ← loc.pathUrl path
      return {
        method := "PATCH"
        url
        fields :=
          [queryField "action" "append", queryField "position" position] ++
            if commit then [queryField "flush" "true", queryField "close" "true"] else []
        headers := [lengthHeader body.length]
        body }
  | flush path position => do
      let url ← loc.pathUrl path
      let position ← writeNumber position
      return {
        method := "PATCH"
        url
        fields :=
          [queryField "action" "flush", queryField "position" position,
            queryField "close" "true"]
        headers := [lengthHeader 0] }
  | list path continuation limit => do
      let fields ← listFields loc path continuation limit
      return { method := "GET", url := loc.url, fields }

/-- The prepared request of an operation, not signed yet. -/
def request (loc : Location) (op : Operation) : Except Failure Request := do
  let d ← op.draft loc
  d.prepare

end Operation

end DataLake
