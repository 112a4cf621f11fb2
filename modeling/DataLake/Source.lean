import DataLake.Failure
import DataLake.Number.Word
import DataLake.Room

/-!
Sources of data for writing: bytes as a whole, a file, anything that can be
read from, and a list of pieces. A source gives its chunks in order; a halt
flag may go up at any time, which is described by the number of chunks that were
taken by then.
-/

namespace DataLake

/-- Looks at a halt flag. One that is up ends the step with a failure, or gives
`false` where that is asked for. -/
def checkContinue (up fail : Bool) : Except Failure Bool :=
  if up then if fail then .error .halted else .ok false else .ok true

/-- When a halt flag goes up: once so many chunks were taken, or never. -/
abbrev HaltMoment := Option Nat

namespace HaltMoment

def isUp (m : HaltMoment) (taken : Nat) : Bool :=
  m.any (· ≤ taken)

end HaltMoment

/-- A source of data. The reads of a readable are numbered, and each gives no
more bytes than its limit, if it has one. -/
inductive Source where
  | whole (data : Bytes)
  | file (data : Bytes)
  | fileMissing
  | readable (data : Bytes) (limit : Nat → Option Nat)
  | pieces (items : List Bytes)
  | unusable (kind : Text)

/-- Chunks in order, and the failure that ended them if one did. -/
abbrev ChunkRun := List Bytes × Option Failure

namespace Source

def defaultChunkSize : Int := 4194304

/-- The items of a list up to the moment when the flag is found up. The flag is
looked at after an item was taken from the list and before it is given on. -/
def iterate {α : Type} (halt : HaltMoment) : Nat → List α → List α × Bool
  | _, [] => ([], false)
  | taken, item :: rest =>
      if halt.isUp taken then ([], true)
      else
        let (items, stopped) := iterate halt (taken + 1) rest
        (item :: items, stopped)

/-- How many bytes a read gives at most, if anything bounds them; a negative
size asks for all. -/
def readBound (size : Int) (limit : Option Nat) : Option Nat :=
  if size < 0 then limit else some (limit.elim size.toNat (min size.toNat))

/-- The chunks that reads give until one is empty. The flag is looked at before
each read, and the size of a read has to be a word unless a limit takes its
place. The first argument bounds the number of reads. -/
def readAll (halt : HaltMoment) (size : Int) (limit : Nat → Option Nat) :
    Nat → Nat → List Bytes → Bytes → ChunkRun
  | 0, _, found, _ => (found.reverse, none)
  | fuel + 1, taken, found, rest =>
      if halt.isUp taken then (found.reverse, some .halted)
      else if (limit taken).isNone && !Number.isWord size then
        (found.reverse, some .numberTooLarge)
      else
        let chunk := (readBound size (limit taken)).elim rest rest.take
        if chunk.isEmpty then (found.reverse, none)
        else
          readAll halt size limit fuel (taken + 1) (chunk :: found) (rest.drop chunk.length)

/-- The bytes that are kept beside those of a byte string. -/
def headerSize : Int := 33

/-- Why a file refuses reads of the given size, if it does. It makes room for the
whole size, and the only negative size that it knows is minus one. -/
def fileRefusal? (memory size : Int) : Option Failure :=
  if !Number.isWord size || !Number.isWord (size + headerSize) then some .numberTooLarge
  else if size < -1 then some .readSizeInvalid
  else if memory ≤ size then some .memoryExhausted
  else none

/-- The chunks of a source. A file looks at the size of its reads once the flag
was found down. -/
def chunks (source : Source) (bufferSize : Option Int) (halt : HaltMoment)
    (memory : Int := Room.usual.memory) : ChunkRun :=
  let size := bufferSize.getD defaultChunkSize
  match source with
  | whole data => ([data], none)
  | file data =>
      match fileRefusal? memory size with
      | some e => ([], some (if halt.isUp 0 then .halted else e))
      | none => readAll halt size (fun _ => none) (data.length + 1) 0 [] data
  | fileMissing => ([], some .fileMissing)
  | readable data limit => readAll halt size limit (data.length + 1) 0 [] data
  | pieces items =>
      let (given, stopped) := iterate halt 0 items
      (given, if stopped then some .halted else none)
  | unusable kind => ([], some (.notASource kind))

end Source

end DataLake
