import DataLake.Calendar.HeaderDate
import DataLake.Failure
import DataLake.Http.Message
import DataLake.Path

/-!
What is known of files and directories: metadata from response headers, entries
of listings, ranges of bytes, and the options of a new file.
-/

namespace DataLake

inductive EntryMode where
  | file
  | directory
  | unknown
  deriving DecidableEq, Repr

/-- What the service reports about a path. The entity tag is a text; a listing
may have some other empty value in its place, which stays. -/
structure Metadata where
  mode : EntryMode
  contentLength : Option Int := none
  lastModified : Option Calendar.DateTime := none
  etag : Json := .null
  contentType : Option Text := none
  contentMd5 : Option Text := none
  contentRange : Option Text := none
  contentDisposition : Option Text := none

/-- One item of a listing, with its path relative to the root. -/
structure Entry where
  path : Text
  metadata : Metadata

def Entry.name (e : Entry) : Text :=
  Path.lastName e.path

structure ListPage where
  entries : List Entry
  continuation : Option Text

/-- The page without entries that ends a listing. -/
def ListPage.empty : ListPage :=
  ⟨[], none⟩

/-- A range of bytes; without a size it reaches to the end of the file. -/
structure ByteRange where
  offset : Int := 0
  size : Option Int := none
  deriving DecidableEq, Repr

/-- The text of a number, which may not have too many digits. -/
def writeNumber (n : Int) : Except Failure Text :=
  match Text.writeInt? n with
  | some t => .ok t
  | none => .error .numberTooLong

namespace ByteRange

def isFull (r : ByteRange) : Bool :=
  r.offset == 0 && r.size.isNone

/-- The header value for the range, with its first and its last byte. -/
def headerText (r : ByteRange) : Except Failure Text := do
  let first ← writeNumber r.offset
  let last ←
    match r.size with
    | some size => writeNumber (r.offset + size - 1)
    | none => .ok []
  return "bytes=" ++ first ++ "-" ++ last

end ByteRange

structure WriteOptions where
  append : Bool := false
  contentType : Option Text := none
  contentDisposition : Option Text := none
  deriving DecidableEq, Repr

/-- The number stated in the length header, if there is one. -/
def readContentLength (headers : Headers) : Except Failure (Option Int) :=
  match headers.get? "Content-Length" with
  | none => .ok none
  | some value =>
      match Text.readInt? value with
      | some n => .ok (some n)
      | none => .error (.ofCause (.contentLengthInvalid value))

def readDate (value : Text) : Except Failure Calendar.DateTime :=
  match Calendar.readHeaderDate value with
  | .ok date => .ok date
  | .error .malformed => .error (.ofCause (.dateInvalid value))
  | .error .outOfBounds => .error .numberTooLarge

def Metadata.ofHeaders (mode : EntryMode) (headers : Headers) : Except Failure Metadata := do
  let contentLength ← readContentLength headers
  let lastModified ←
    match headers.get? "Last-Modified" with
    | some value => if value.isEmpty then .ok none else (readDate value).map some
    | none => .ok none
  return {
    mode
    contentLength
    lastModified
    etag := (headers.get? "ETag").elim .null .string
    contentType := headers.get? "Content-Type"
    contentMd5 := headers.get? "Content-MD5"
    contentRange := headers.get? "Content-Range"
    contentDisposition := headers.get? "Content-Disposition" }

end DataLake
