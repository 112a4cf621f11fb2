import DataLake.Failure
import DataLake.Http.Message
import DataLake.Number.Word

/-!
Reading a response body. The body is a file in memory that is read in blocks; a
feed walks over it and can be left in the middle and taken up again. A stream
holds the body, the bytes that were taken from it but not handed out yet, and
the one feed that all reads of the stream share. Iterating over the chunks of a
stream makes a feed of its own, over the same body.
-/

namespace DataLake

/-- A response body: the bytes not read yet, whether it was closed, and whether
its end was reached. -/
structure Body where
  rest : Bytes
  closed : Bool := false
  ended : Bool := false
  deriving DecidableEq, Repr

inductive Feed where
  /-- Nothing was asked for yet; blocks shall have the given size. -/
  | fresh (size : Option Int)
  /-- Bytes that waited in the stream were handed out. -/
  | opening (size : Int)
  /-- The body is being read in blocks of the given size. -/
  | reading (size : Int)
  /-- The feed has come to its end, or failed. -/
  | finished
  deriving DecidableEq, Repr

structure ReadStream where
  status : Int
  headers : Headers
  body : Body
  bufferSize : Int
  flag : Option Text := none
  waiting : Bytes := []
  feed : Option Feed := none
  closed : Bool := false

namespace ReadStream

def defaultBufferSize : Int := 2621440

def ofResponse (r : Response) (bufferSize : Int) (flag : Option Text) : ReadStream :=
  { status := r.status, headers := r.headers, body := { rest := r.body }, bufferSize, flag }

/-- The size of the blocks of a feed: the given one unless it is missing or zero. -/
def blockSize (s : ReadStream) (size : Option Int) : Int :=
  match size with
  | some n => if n = 0 then s.bufferSize else n
  | none => s.bufferSize

/-- The next block of a body: everything for a negative size. -/
def block (size : Int) (rest : Bytes) : Bytes :=
  if size < 0 then rest else rest.take size.toNat

/-- What comes out of asking a feed once: a chunk, its end, or a failure. -/
abbrev Pulled := Except Failure (Option Bytes) × Feed × ReadStream

/-- Reads one block of the body, whose size has to be a word. The end is only
noticed by a read that gives nothing; a flag that is up ends the feed after the
block was taken. -/
def pullBlock (halted : Bool) (size : Int) (s : ReadStream) : Pulled :=
  if !Number.isWord size then (.error .numberTooLarge, .finished, s)
  else if s.body.closed then (.error .bodyClosed, .finished, s)
  else
    let chunk := block size s.body.rest
    if chunk.isEmpty then
      (.ok none, .finished, { s with body := { s.body with ended := true } })
    else
      let s := { s with body := { s.body with rest := s.body.rest.drop chunk.length } }
      if halted then (.error .halted, .finished, s)
      else (.ok (some chunk), .reading size, s)

/-- Begins to read the body, which must not have been read to its end. -/
def openBody (halted : Bool) (size : Int) (s : ReadStream) : Pulled :=
  if s.body.ended then (.error .alreadyRead, .finished, s) else pullBlock halted size s

/-- Asks a feed for one chunk. A fresh one first hands out what waits in the
stream. -/
def pull (halted : Bool) (feed : Feed) (s : ReadStream) : Pulled :=
  match feed with
  | .fresh size =>
      if s.waiting.isEmpty then openBody halted (s.blockSize size) s
      else (.ok (some s.waiting), .opening (s.blockSize size), { s with waiting := [] })
  | .opening size => openBody halted size s
  | .reading size => pullBlock halted size s
  | .finished => (.ok none, .finished, s)

/-- How often a feed is asked at most, given what is wanted of it. Every chunk
has a byte at least, so a number of wanted bytes or chunks bounds it, and so do
the bytes left together with those that wait and the end. -/
def pullBound (s : ReadStream) : Option Nat → Nat
  | some wanted => wanted
  | none => s.body.rest.length + 2

/-- Asks a feed for chunks until their length reaches `need`, or to its end
without a need. The first argument bounds their number; `found` has the chunks
so far, the last one first. -/
def gather (halted : Bool) (need : Option Nat) :
    Nat → List Bytes → Feed → ReadStream → Except Failure (List Bytes) × Feed × ReadStream
  | 0, found, feed, s => (.ok found.reverse, feed, s)
  | fuel + 1, found, feed, s =>
      if need = some 0 then (.ok found.reverse, feed, s)
      else
        match pull halted feed s with
        | (.error e, feed, s) => (.error e, feed, s)
        | (.ok none, feed, s) => (.ok found.reverse, feed, s)
        | (.ok (some chunk), feed, s) =>
            gather halted (need.map (· - chunk.length)) fuel (chunk :: found) feed s

/-- Closes the stream. A body that was read to its end has nothing to close. -/
def close (s : ReadStream) : ReadStream :=
  if s.closed then s
  else { s with closed := true, body := { s.body with closed := s.body.closed || !s.body.ended } }

/-- Reads up to `size` bytes, or everything that is left and closes the stream
when the size is missing or negative. What is read beyond the size waits for the
next read; what a failing read had gathered is lost. -/
def read (halted : Bool) (size : Option Int) (s : ReadStream) :
    Except Failure Bytes × ReadStream :=
  let buffer := s.waiting
  let feed := s.feed.getD (.fresh none)
  let s := { s with waiting := [] }
  let wanted : Option Nat :=
    match size with
    | some n => if n < 0 then none else some n.toNat
    | none => none
  let need := wanted.map fun n => n - (buffer.take n).length
  match gather halted need (s.pullBound need) [] feed s with
  | (.error e, feed, s) => (.error e, { s with feed := some feed })
  | (.ok chunks, feed, s) =>
      let s := { s with feed := some feed }
      let bytes := if chunks.isEmpty then buffer else buffer ++ chunks.flatten
      match wanted with
      | none => (.ok bytes, s.close)
      | some n => (.ok (bytes.take n), { s with waiting := bytes.drop n })

/-- The first `count` chunks of a new feed, or all of them. -/
def takeChunks (halted : Bool) : Nat → List Bytes → Feed → ReadStream →
    Except Failure (List Bytes) × ReadStream
  | 0, found, _, s => (.ok found.reverse, s)
  | count + 1, found, feed, s =>
      match pull halted feed s with
      | (.error e, _, s) => (.error e, s)
      | (.ok none, _, s) => (.ok found.reverse, s)
      | (.ok (some chunk), feed, s) => takeChunks halted count (chunk :: found) feed s

def chunks (halted : Bool) (size : Option Int) (count : Option Nat) (s : ReadStream) :
    Except Failure (List Bytes) × ReadStream :=
  takeChunks halted (s.pullBound count) [] (.fresh size) s

def remaining (s : ReadStream) : Bytes :=
  s.waiting ++ s.body.rest

end ReadStream

end DataLake
