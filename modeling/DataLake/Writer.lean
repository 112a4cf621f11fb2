import DataLake.Backend
import DataLake.Source

/-!
Writing files. An upload knows the operations that write one file. A one-shot
writer collects everything and uploads it when it is closed; an append writer
finds out where the file ends, sends each piece as it is written, and commits
when it is closed. A step of a writer gives its result, the writer after it and
the world after it; what a failing step had done stays done.
-/

namespace DataLake

structure Upload where
  backend : Backend
  options : WriteOptions
  path : Text

namespace Upload

/-- Creates the file, which replaces what is stored there. -/
def create (u : Upload) : Action Unit :=
  u.backend.annotated "Writer::create_file" u.path do
    let _ ← u.backend.perform (.create u.path "file" (some u.options) []) [201, 200]

def append (u : Upload) (position : Int) (data : Bytes) (commit : Bool) : Action Unit :=
  u.backend.annotated "Writer::append" u.path do
    let _ ← u.backend.perform (.update u.path position data commit) [200, 202]

/-- Commits everything up to a position. -/
def flush (u : Upload) (position : Int) : Action Unit :=
  u.backend.annotated "Writer::flush" u.path do
    let _ ← u.backend.perform (.flush u.path position) [200, 201]

/-- The size of the stored file; zero if there is none or no size is stated. -/
def storedSize (u : Upload) : Action Int :=
  u.backend.annotated "Writer::offset" u.path do
    let r ← u.backend.perform (.properties u.path) [200, 404]
    if r.status = 404 then return 0
    else
      let size ← Action.ofExcept (readContentLength r.headers)
      return size.getD 0

def closedFailure (u : Upload) : Failure :=
  .fault (u.backend.annotate "Writer::write" u.path { cause := .writerClosed u.path })

end Upload

/-- Collects everything and uploads it when it is closed. The pieces written so
far are kept with the last one first. -/
structure OneShotWriter where
  upload : Upload
  flag : Option Text := none
  bufferSize : Option Int := none
  closed : Bool := false
  pieces : List Bytes := []

/-- Sends each piece as it is written. The offset is unknown until the first
piece asks for it. -/
structure AppendWriter where
  upload : Upload
  flag : Option Text := none
  bufferSize : Option Int := none
  closed : Bool := false
  offset : Option Int := none

abbrev WriterStep (σ : Type) := World → Except Failure Unit × σ × World

namespace OneShotWriter

def buffer (t : OneShotWriter) : Bytes :=
  t.pieces.reverse.flatten

def write (t : OneShotWriter) (data : Bytes) : WriterStep OneShotWriter := fun w =>
  if t.closed then (.error t.upload.closedFailure, t, w)
  else (.ok (), { t with pieces := data :: t.pieces }, w)

/-- Creates the file and uploads everything at once. Only the first close does
anything, and it counts as such even when it fails. -/
def close (t : OneShotWriter) : WriterStep OneShotWriter := fun w =>
  if t.closed then (.ok (), t, w)
  else
    let t := { t with closed := true }
    match t.upload.create w with
    | (.error e, w) => (.error e, t, w)
    | (.ok _, w) =>
        match t.upload.append 0 t.buffer true w with
        | (.error e, w) => (.error e, t, w)
        | (.ok _, w) => (.ok (), { t with pieces := [] }, w)

/-- Gives up; nothing is sent. -/
def abort (t : OneShotWriter) : OneShotWriter :=
  { t with closed := true, pieces := [] }

end OneShotWriter

namespace AppendWriter

/-- Finds out where the file ends, and creates it when it is empty. The offset
is known from then on, even when creating fails. -/
def start (t : AppendWriter) : WriterStep AppendWriter := fun w =>
  match t.upload.storedSize w with
  | (.error e, w) => (.error e, t, w)
  | (.ok n, w) =>
      let t := { t with offset := some n }
      if n = 0 then
        match t.upload.create w with
        | (.error e, w) => (.error e, t, w)
        | (.ok _, w) => (.ok (), t, w)
      else (.ok (), t, w)

def ensureStarted (t : AppendWriter) : WriterStep AppendWriter := fun w =>
  match t.offset with
  | some _ => (.ok (), t, w)
  | none => t.start w

/-- Sends a piece. An empty one only makes sure that the offset is known; a flag
that is up is noticed before anything else is sent. -/
def write (t : AppendWriter) (data : Bytes) : WriterStep AppendWriter := fun w =>
  if t.closed then (.error t.upload.closedFailure, t, w)
  else
    match t.ensureStarted w with
    | (.error e, t, w) => (.error e, t, w)
    | (.ok _, t, w) =>
        if data.isEmpty then (.ok (), t, w)
        else if w.isRaised t.flag then (.error .halted, t, w)
        else
          let position := t.offset.getD 0
          match t.upload.append position data false w with
          | (.error e, w) => (.error e, t, w)
          | (.ok _, w) => (.ok (), { t with offset := some (position + data.length) }, w)

/-- Commits what was sent. Only the first close does anything, and it counts as
such even when it fails. -/
def close (t : AppendWriter) : WriterStep AppendWriter := fun w =>
  if t.closed then (.ok (), t, w)
  else
    match { t with closed := true }.ensureStarted w with
    | (.error e, t, w) => (.error e, t, w)
    | (.ok _, t, w) =>
        match t.upload.flush (t.offset.getD 0) w with
        | (.error e, w) => (.error e, t, w)
        | (.ok _, w) => (.ok (), t, w)

/-- Gives up; nothing further is sent. -/
def abort (t : AppendWriter) : AppendWriter :=
  { t with closed := true }

end AppendWriter

inductive Writer where
  | oneShot (t : OneShotWriter)
  | append (t : AppendWriter)

namespace Writer

def ofOptions (b : Backend) (path : Text) (options : Option WriteOptions) (flag : Option Text)
    (bufferSize : Option Int) : Writer :=
  let options := options.getD {}
  let upload : Upload := ⟨b, options, path⟩
  if options.append then .append { upload, flag, bufferSize }
  else .oneShot { upload, flag, bufferSize }

def path : Writer → Text
  | oneShot t => t.upload.path
  | append t => t.upload.path

def flag : Writer → Option Text
  | oneShot t => t.flag
  | append t => t.flag

def bufferSize : Writer → Option Int
  | oneShot t => t.bufferSize
  | append t => t.bufferSize

def write (t : Writer) (data : Bytes) : WriterStep Writer := fun w =>
  match t with
  | oneShot t =>
      match t.write data w with
      | (r, t, w) => (r, oneShot t, w)
  | append t =>
      match t.write data w with
      | (r, t, w) => (r, append t, w)

def close (t : Writer) : WriterStep Writer := fun w =>
  match t with
  | oneShot t =>
      match t.close w with
      | (r, t, w) => (r, oneShot t, w)
  | append t =>
      match t.close w with
      | (r, t, w) => (r, append t, w)

def abort : Writer → Writer
  | oneShot t => oneShot t.abort
  | append t => append t.abort

/-- The world in which the writer's flag is up if it is to be. -/
def raiseFlag (t : Writer) (up : Bool) (w : World) : World :=
  match t.flag with
  | some flag => if up then w.raise flag else w
  | none => w

/-- Writes pieces in order, up to the first that fails, when so many were taken
from their source before. -/
def writeAll (t : Writer) (halt : HaltMoment) (taken : Nat) : List Bytes → WriterStep Writer
  | [], w => (.ok (), t, w)
  | data :: rest, w =>
      match t.write data (t.raiseFlag (halt.isUp (taken + 1)) w) with
      | (.error e, t, w) => (.error e, t, w)
      | (.ok _, t, w) => writeAll t halt (taken + 1) rest w

/-- When the writer's flag goes up in a run in which it is to go up at the given
moment: at once if it is up already, and never without a flag. -/
def haltMoment (t : Writer) (halt : HaltMoment) (w : World) : HaltMoment :=
  if w.isRaised t.flag then some 0 else t.flag.bind fun _ => halt

/-- Writes the chunks of a source while the writer's flag goes up at the given
moment. -/
def writeFromWith (t : Writer) (source : Source) (halt : HaltMoment) : WriterStep Writer :=
  fun w =>
    let halt := t.haltMoment halt w
    let (given, ending) := source.chunks t.bufferSize halt w.room.memory
    match t.writeAll halt 0 given (t.raiseFlag (halt.isUp 0) w) with
    | (.error e, t, w) => (.error e, t, w)
    | (.ok _, t, w) =>
        match ending with
        | some e => (.error e, t, w)
        | none => (.ok (), t, w)

/-- Writes the chunks of a source while the writer's flag stays as it is. -/
def writeFrom (t : Writer) (source : Source) : WriterStep Writer :=
  t.writeFromWith source none

end Writer

end DataLake
