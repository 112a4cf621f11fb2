import DataLake.Backend

/-!
Listings. One page is asked for at a time; it lists a directory, and on the
first page an entry for that directory goes before the rest. A page lister asks
for page after page with the token that the last one carried, until one carries
none.
-/

namespace DataLake

namespace Listing

/-- The header with the token for the next page. -/
def continuationHeader : Text := "x-ms-continuation"

def isDirectory (fields : List (Text × Json)) : Bool :=
  let value := ((Json.fieldOf fields "isDirectory").getD (.string [])).text
  Text.lower value == "true"

/-- The length that an item states: text is read as an integer, a number loses
its fraction, and nothing at all is zero. -/
def entryLength (fields : List (Text × Json)) : Except Failure Int :=
  let value := (Json.fieldOf fields "contentLength").getD (.string [])
  if value.isVoid then .ok 0
  else
    match value with
    | .string t =>
        match Text.readInt? t with
        | some n => .ok n
        | none => .error (.ofCause (.entryLengthInvalid value))
    | .integer n => .ok n
    | .bool _ => .ok 1
    | .float .notANumber => .error (.ofCause (.entryLengthInvalid value))
    | .float x =>
        match x.truncate? with
        | some n => .ok n
        | none => .error .numberTooLarge
    | _ => .error .wrongKind

def entryDate (fields : List (Text × Json)) : Except Failure (Option Calendar.DateTime) :=
  match (Json.fieldOf fields "lastModified").getD .null with
  | .string t => if t.isEmpty then .ok none else (readDate t).map some
  | value => if value.isVoid then .ok none else .error .wrongShape

/-- The entity tag that an item states, between double quotes. -/
def entryTag (fields : List (Text × Json)) : Except Failure Json :=
  match (Json.fieldOf fields "etag").getD .null with
  | .string t =>
      let quote : CodePoint := .char '\x22'
      if t.isEmpty || t.head? = some quote then .ok (.string t)
      else .ok (.string (quote :: (t ++ [quote])))
  | value => if value.isVoid then .ok value else .error .wrongShape

def entryName (fields : List (Text × Json)) : Except Failure Text :=
  match (Json.fieldOf fields "name").getD (.string []) with
  | .string t => .ok t
  | _ => .error .wrongShape

def entryOf (root : Text) (item : Json) : Except Failure Entry :=
  match item with
  | .object fields => do
      let mode : EntryMode := if isDirectory fields then .directory else .file
      let length ← entryLength fields
      let lastModified ← entryDate fields
      let etag ← entryTag fields
      let name ← entryName fields
      let path := Path.relative root name
      return {
        path := if mode = .directory then path ++ "/" else path
        metadata := { mode, contentLength := some length, lastModified, etag } }
  | _ => .error .wrongShape

def itemsOf (fields : List (Text × Json)) : Except Failure (List Json) :=
  let paths := (Json.fieldOf fields "paths").getD .null
  if paths.isVoid then .ok []
  else
    match paths with
    | .array items => .ok items
    | .string t => .ok (t.map fun c => .string [c])
    | .object members => .ok (members.map fun m => .string m.1)
    | _ => .error .wrongKind

def entriesOf (root : Text) (depth : Nat) (body : Bytes) : Except Failure (List Entry) := do
  let value ←
    if body.isEmpty then .ok (.object [])
    else
      match Json.readBytes body depth with
      | .ok value => .ok value
      | .error .malformed => .error (.ofCause .listingNotJson)
      | .error .tooDeep => .error .nestedTooDeep
  match value with
  | .object fields =>
      let items ← itemsOf fields
      items.mapM (entryOf root)
  | _ => .error (.ofCause .listingNotObject)

/-- The page in a response. A path that is not there has an empty page. -/
def pageOf (root path : Text) (token : Option Text) (depth : Nat) (r : Response) :
    Except Failure ListPage :=
  if r.status = 404 then .ok .empty
  else do
    let entries ← entriesOf root depth r.body
    let self : List Entry :=
      if (given token).isNone then [⟨path, { mode := .directory }⟩] else []
    return ⟨self ++ entries, given (r.headers.get? continuationHeader)⟩

def page (b : Backend) (path : Text) (limit : Option Int) (token : Option Text) :
    Action ListPage :=
  b.annotated "Lister::next_page" path do
    let room ← Action.room
    let r ← b.perform (.list path token limit) [200, 404]
    Action.ofExcept (pageOf b.location.root path token room.nesting r)

end Listing

structure PageLister where
  backend : Backend
  path : Text
  limit : Option Int := none
  flag : Option Text := none
  token : Option Text := none
  done : Bool := false

namespace PageLister

/-- The next page; an empty one once the listing is done. -/
def nextPage (l : PageLister) (w : World) : Except Failure ListPage × PageLister × World :=
  if l.done then (.ok .empty, l, w)
  else if w.isRaised l.flag then (.error .halted, l, w)
  else
    match Listing.page l.backend l.path l.limit l.token w with
    | (.error e, w) => (.error e, l, w)
    | (.ok page, w) =>
        match page.continuation with
        | some token => (.ok page, { l with token := some token }, w)
        | none => (.ok page, { l with done := true }, w)

/-- Up to `count` pages until the listing is done, after those found so far (the
last one first). -/
def takePages : Nat → List ListPage → PageLister → World →
    Except Failure (List ListPage) × PageLister × World
  | 0, found, l, w => (.ok found.reverse, l, w)
  | count + 1, found, l, w =>
      if l.done then (.ok found.reverse, l, w)
      else
        match l.nextPage w with
        | (.error e, l, w) => (.error e, l, w)
        | (.ok page, l, w) => takePages count (page :: found) l w

/-- The most pages that can still come: each takes an answer of the service. -/
def pageBound (w : World) : Nat :=
  w.answers.length + 1

def pages (l : PageLister) (count : Option Nat) (w : World) :
    Except Failure (List ListPage) × PageLister × World :=
  takePages (count.elim (pageBound w) (min · (pageBound w))) [] l w

/-- Entries of page after page until there are `need` of them, or all without a
need, after those found so far (the last one first). The first argument bounds
the number of pages. -/
def takeEntries (need : Option Nat) : Nat → List Entry → PageLister → World →
    Except Failure (List Entry) × PageLister × World
  | 0, found, l, w => (.ok found.reverse, l, w)
  | fuel + 1, found, l, w =>
      if l.done || need = some 0 then (.ok found.reverse, l, w)
      else
        match l.nextPage w with
        | (.error e, l, w) => (.error e, l, w)
        | (.ok page, l, w) =>
            let entries := match need with
              | some n => page.entries.take n
              | none => page.entries
            takeEntries (need.map (· - entries.length)) fuel (entries.reverse ++ found) l w

/-- All entries that are left, or at most `count` of them. A page is asked for
only when an entry of it is wanted; what is not taken of it is lost. -/
def entries (l : PageLister) (count : Option Nat) (w : World) :
    Except Failure (List Entry) × PageLister × World :=
  takeEntries count (pageBound w) [] l w

end PageLister

end DataLake
