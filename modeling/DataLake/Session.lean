import DataLake.Listing
import DataLake.ReadStream
import DataLake.Writer

/-!
Sessions: steps on one backend and on the streams, listers and writers that
were opened on it under names. Each step gives what the caller sees; the world
and the opened objects go on from step to step.
-/

namespace DataLake

inductive Handle where
  | stream (s : ReadStream)
  | lister (l : PageLister)
  | writer (t : Writer)

/-- Which part of an iteration is taken: all of it, or so many items. -/
abbrev Take := Option Nat

inductive StreamStep where
  | read (size : Option Int)
  | chunks (size : Option Int) (count : Take)
  | status
  | header (name : Text)
  | close

inductive WriterAct where
  | write (data : Bytes)
  | writeFrom (source : Source)
  | close
  | abort
  | path

inductive ListerStep where
  | nextPage
  | entries (count : Take)
  | pages (count : Take)

/-- A step on a named object. Closing and leaving are steps on streams and
writers alike; leaving after a failure makes a writer give up. Streams and
listers can be iterated over, which gives chunks and entries. -/
inductive HandleStep where
  | stream (s : StreamStep)
  | writer (t : WriterAct)
  | lister (l : ListerStep)
  | iterate (count : Take)
  | close
  | leave (failed : Bool)

inductive Step where
  | createDir (path : Text)
  | stat (path : Text)
  | delete (path : Text)
  | rename (source target : Text)
  | info
  | openRead (name path : Text) (range : Option ByteRange) (flag : Option Text)
  | openList (name path : Text) (limit : Option Int) (flag : Option Text)
  | openWrite (name path : Text) (options : Option WriteOptions) (flag : Option Text)
      (bufferSize : Option Int)
  | fetchPage (path : Text) (token : Option Text) (limit : Option Int)
  | raise (flag : Text)
  | on (name : Text) (step : HandleStep)

inductive Outcome where
  | nothing
  | metadata (m : Metadata)
  | info (i : BackendInfo)
  | opened (h : Handle)
  | bytes (b : Bytes)
  | chunks (c : List Bytes)
  | status (n : Int)
  | text (t : Option Text)
  | page (p : ListPage)
  | pages (p : List ListPage)
  | entries (e : List Entry)

/-- What a step on an object lets see of the object's state. -/
inductive Glimpse where
  | nothing
  | offset (n : Option Int)
  | done (b : Bool)
  deriving DecidableEq, Repr

def Handle.glimpse : Handle → Glimpse
  | stream _ => .nothing
  | lister l => .done l.done
  | writer (.oneShot _) => .nothing
  | writer (.append t) => .offset t.offset

/-- A backend with the world and the opened objects, the latest first. -/
structure Session where
  backend : Backend
  world : World
  handles : List (Text × Handle) := []

structure StepResult where
  outcome : Except Failure Outcome
  glimpse : Glimpse := .nothing

namespace StreamStep

def run (step : StreamStep) (halted : Bool) (s : ReadStream) :
    Except Failure Outcome × ReadStream :=
  match step with
  | read size =>
      match s.read halted size with
      | (r, s) => (r.map .bytes, s)
  | chunks size count =>
      match s.chunks halted size count with
      | (r, s) => (r.map .chunks, s)
  | status => (.ok (.status s.status), s)
  | header name => (.ok (.text (s.headers.get? name)), s)
  | close => (.ok .nothing, s.close)

end StreamStep

namespace WriterAct

def run (step : WriterAct) (t : Writer) (w : World) : Except Failure Outcome × Writer × World :=
  let done : Except Failure Unit × Writer × World → Except Failure Outcome × Writer × World
    | (r, t, w) => (r.map fun _ => .nothing, t, w)
  match step with
  | write data => done (t.write data w)
  | writeFrom source => done (t.writeFrom source w)
  | close => done (t.close w)
  | abort => (.ok .nothing, t.abort, w)
  | path => (.ok (.text (some t.path)), t, w)

end WriterAct

namespace ListerStep

def run (step : ListerStep) (l : PageLister) (w : World) :
    Except Failure Outcome × PageLister × World :=
  match step with
  | nextPage =>
      match l.nextPage w with
      | (r, l, w) => (r.map .page, l, w)
  | entries count =>
      match l.entries count w with
      | (r, l, w) => (r.map .entries, l, w)
  | pages count =>
      match l.pages count w with
      | (r, l, w) => (r.map .pages, l, w)

end ListerStep

namespace Handle

def runStream (step : StreamStep) (s : ReadStream) (w : World) :
    Except Failure Outcome × Handle × World :=
  match step.run (w.isRaised s.flag) s with
  | (r, s) => (r, stream s, w)

def runWriter (step : WriterAct) (t : Writer) (w : World) :
    Except Failure Outcome × Handle × World :=
  match step.run t w with
  | (r, t, w) => (r, writer t, w)

def runLister (step : ListerStep) (l : PageLister) (w : World) :
    Except Failure Outcome × Handle × World :=
  match step.run l w with
  | (r, l, w) => (r, lister l, w)

/-- Carries out a step on an object. An object that knows no such step, or has
nothing to iterate over, is left as it is. -/
def run (h : Handle) (step : HandleStep) (w : World) : Except Failure Outcome × Handle × World :=
  match h, step with
  | stream s, .stream step => runStream step s w
  | stream s, .iterate count => runStream (.chunks none count) s w
  | stream s, .close => runStream .close s w
  | stream s, .leave _ => runStream .close s w
  | writer t, .writer step => runWriter step t w
  | writer t, .close => runWriter .close t w
  | writer t, .leave failed => runWriter (if failed then .abort else .close) t w
  | writer t, .iterate _ => (.error .wrongKind, writer t, w)
  | lister l, .lister step => runLister step l w
  | lister l, .iterate count => runLister (.entries count) l w
  | h, _ => (.error .wrongShape, h, w)

end Handle

namespace Session

def handle? (s : Session) (name : Text) : Option Handle :=
  (s.handles.find? fun e => e.1 == name).map Prod.snd

def store (s : Session) (name : Text) (h : Handle) : Session :=
  { s with handles := (name, h) :: s.handles.filter fun e => e.1 != name }

def act {α : Type} (s : Session) (x : Action α) (f : α → Outcome) : StepResult × Session :=
  match x s.world with
  | (r, w) => ({ outcome := r.map f }, { s with world := w })

def opened (s : Session) (name : Text) (h : Handle) : StepResult × Session :=
  ({ outcome := .ok (.opened h), glimpse := h.glimpse }, s.store name h)

def step (s : Session) : Step → StepResult × Session
  | .createDir path => s.act (s.backend.createDir path) fun _ => .nothing
  | .stat path => s.act (s.backend.stat path) .metadata
  | .delete path => s.act (s.backend.delete path) fun _ => .nothing
  | .rename source target => s.act (s.backend.rename source target) fun _ => .nothing
  | .info => ({ outcome := .ok (.info s.backend.info) }, s)
  | .openRead name path range flag =>
      match s.backend.read path range s.world with
      | (.error e, w) => ({ outcome := .error e }, { s with world := w })
      | (.ok r, w) =>
          { s with world := w }.opened name
            (.stream (.ofResponse r ReadStream.defaultBufferSize flag))
  | .openList name path limit flag =>
      s.opened name (.lister { backend := s.backend, path, limit, flag })
  | .openWrite name path options flag bufferSize =>
      s.opened name (.writer (.ofOptions s.backend path options flag bufferSize))
  | .fetchPage path token limit => s.act (Listing.page s.backend path limit token) .page
  | .raise flag => ({ outcome := .ok .nothing }, { s with world := s.world.raise flag })
  | .on name step =>
      match s.handle? name with
      | none => ({ outcome := .error .unknownHandle }, s)
      | some h =>
          match h.run step s.world with
          | (r, h, w) =>
              ({ outcome := r, glimpse := h.glimpse }, { s with world := w }.store name h)

def run (s : Session) : List Step → List StepResult × Session
  | [] => ([], s)
  | first :: rest =>
      match s.step first with
      | (r, s) =>
          match s.run rest with
          | (rs, s) => (r :: rs, s)

end Session

end DataLake
