import DataLake.Listing
import DataLake.Writer

/-!
Refusals. A fault that reports a response whose status is not accepted comes from one
place only, the check of the status. Building a request, loading a credential, signing,
and reading an accepted response can fail in many ways, but never in this one.
-/

namespace DataLake

@[simp] def Cause.IsRefusal : Cause → Prop
  | refused .. => True
  | _ => False

/-- The failure reports a response whose status is not accepted. -/
@[simp] def Failure.IsRefusal : Failure → Prop
  | fault f => f.cause.IsRefusal
  | _ => False

/-- The result is no refusal. -/
def NoRefusal {α : Type} (r : Except Failure α) : Prop :=
  ∀ e, r = .error e → ¬ e.IsRefusal

section

variable {α β : Type}

@[simp] theorem noRefusal_ok (a : α) : NoRefusal (.ok a) :=
  fun _ h => by cases h

@[simp] theorem noRefusal_error {e : Failure} :
    NoRefusal (.error e : Except Failure α) ↔ ¬ e.IsRefusal :=
  ⟨fun h => h e rfl, fun h f hf => by cases hf; exact h⟩

@[simp high] theorem noRefusal_ofCause {c : Cause} :
    NoRefusal (.error (.ofCause c) : Except Failure α) ↔ ¬ c.IsRefusal :=
  noRefusal_error

theorem NoRefusal.bind {x : Except Failure α} {f : α → Except Failure β} (hx : NoRefusal x)
    (hf : ∀ a, NoRefusal (f a)) : NoRefusal (x >>= f) := by
  cases x with
  | ok a => exact hf a
  | error e => exact noRefusal_error.mpr (noRefusal_error.mp hx)

theorem NoRefusal.map {x : Except Failure α} (hx : NoRefusal x) (f : α → β) :
    NoRefusal (x.map f) := by
  cases x with
  | ok a => exact noRefusal_ok (f a)
  | error e => exact noRefusal_error.mpr (noRefusal_error.mp hx)

theorem noRefusal_mapM {f : α → Except Failure β} (hf : ∀ a, NoRefusal (f a)) (xs : List α) :
    NoRefusal (xs.mapM f) := by
  induction xs with
  | nil => exact noRefusal_ok []
  | cons x xs ih =>
      rw [List.mapM_cons]
      exact (hf x).bind fun _ => ih.bind fun _ => noRefusal_ok _

end

theorem writeNumber_noRefusal (n : Int) : NoRefusal (writeNumber n) := by
  unfold writeNumber
  split <;> simp

namespace Location

theorem encodedName_noRefusal (loc : Location) (path : Text) : NoRefusal (loc.encodedName path) := by
  unfold encodedName
  split <;> simp

theorem pathUrl_noRefusal (loc : Location) (path : Text) : NoRefusal (loc.pathUrl path) :=
  (loc.encodedName_noRefusal path).map _

theorem renameSource_noRefusal (loc : Location) (source : Text) :
    NoRefusal (loc.renameSource source) :=
  (loc.encodedName_noRefusal source).map _

end Location

theorem ByteRange.headerText_noRefusal (r : ByteRange) : NoRefusal r.headerText := by
  unfold headerText
  refine (writeNumber_noRefusal _).bind fun first => ?_
  split
  · exact (writeNumber_noRefusal _).bind fun last => noRefusal_ok _
  · exact noRefusal_ok _

theorem Draft.withUserInfo_noRefusal (url : Text) (headers : Headers) :
    NoRefusal (Draft.withUserInfo url headers) := by
  unfold Draft.withUserInfo
  split
  · simp
  · split
    · exact noRefusal_ok _
    · split
      · exact noRefusal_ok _
      · split <;> simp

theorem Draft.prepare_noRefusal (d : Draft) : NoRefusal d.prepare := by
  have hurl : NoRefusal d.preparedUrl := by
    unfold preparedUrl
    split <;> simp
  unfold prepare
  refine hurl.bind fun url => ?_
  split
  · exact (withUserInfo_noRefusal _ _).bind fun headers => noRefusal_ok _
  · simp

namespace Operation

theorem listFields_noRefusal (loc : Location) (path : Text) (continuation : Option Text)
    (limit : Option Int) : NoRefusal (listFields loc path continuation limit) := by
  have hlimit : NoRefusal (limit.mapM writeNumber) := by
    cases limit with
    | none => exact noRefusal_ok none
    | some n => exact (writeNumber_noRefusal n).map some
  exact hlimit.bind fun _ => noRefusal_ok _

theorem draft_noRefusal (op : Operation) (loc : Location) : NoRefusal (op.draft loc) := by
  cases op with
  | create path | properties path | delete path =>
      exact (loc.pathUrl_noRefusal path).bind fun _ => noRefusal_ok _
  | read path range =>
      have hbranch {headers : Except Failure (List (Text × Text))} (h : NoRefusal headers) :
          NoRefusal (do
            let headers ← headers
            let url ← loc.pathUrl path
            return ({ method := "GET", url, headers } : Draft)) :=
        h.bind fun _ => (loc.pathUrl_noRefusal path).bind fun _ => noRefusal_ok _
      unfold draft
      dsimp only
      split
      · split
        · exact hbranch (noRefusal_ok _)
        · exact hbranch ((ByteRange.headerText_noRefusal _).map _)
      · exact hbranch (noRefusal_ok _)
  | rename source target =>
      exact (loc.pathUrl_noRefusal target).bind fun _ =>
        (loc.renameSource_noRefusal source).bind fun _ => noRefusal_ok _
  | update path position =>
      exact (writeNumber_noRefusal position).bind fun _ =>
        (loc.pathUrl_noRefusal path).bind fun _ => noRefusal_ok _
  | flush path position =>
      exact (loc.pathUrl_noRefusal path).bind fun _ =>
        (writeNumber_noRefusal position).bind fun _ => noRefusal_ok _
  | list path continuation limit =>
      exact (listFields_noRefusal loc path continuation limit).bind fun _ => noRefusal_ok _

theorem request_noRefusal (op : Operation) (loc : Location) : NoRefusal (op.request loc) :=
  (op.draft_noRefusal loc).bind fun d => d.prepare_noRefusal

end Operation

theorem TokenFailure.toFailure_noRefusal (f : TokenFailure) : ¬ f.toFailure.IsRefusal := by
  unfold toFailure
  split <;> exact id

namespace Signing

theorem stringToSign_noRefusal (r : Request) (account : Text) :
    NoRefusal (stringToSign r account) := by
  unfold stringToSign
  split <;> simp

theorem keyBytes_noRefusal (key : Text) : NoRefusal (keyBytes key) := by
  unfold keyBytes
  split
  · split <;> simp
  · simp

theorem signature_noRefusal (key : Bytes) (text : Text) : NoRefusal (signature key text) := by
  unfold signature
  split <;> simp

theorem authorization_noRefusal (r : Request) (c : Credential) : NoRefusal (authorization r c) := by
  unfold authorization
  split
  · split
    · simp
    · exact (stringToSign_noRefusal _ _).bind fun _ => (keyBytes_noRefusal _).bind fun _ =>
        (signature_noRefusal _ _).bind fun _ => noRefusal_ok _
  · split
    · exact noRefusal_ok _
    · simp

theorem sign_noRefusal (version : Text) (now : Int) (c : Credential) (r : Request) :
    NoRefusal (sign version now c r).2 := by
  have hdate : NoRefusal (dateValue now) := by
    unfold dateValue
    dsimp only
    split
    · simp
    · split
      · simp
      · split <;> simp
  unfold sign
  split
  · next e he => exact noRefusal_error.mpr (hdate e he)
  · dsimp only
    split
    · next e he => exact noRefusal_error.mpr (authorization_noRefusal _ c e he)
    · exact noRefusal_ok ()

end Signing

theorem readContentLength_noRefusal (headers : Headers) : NoRefusal (readContentLength headers) := by
  unfold readContentLength
  split
  · exact noRefusal_ok none
  · split <;> simp

theorem readDate_noRefusal (value : Text) : NoRefusal (readDate value) := by
  unfold readDate
  split <;> simp

theorem Metadata.ofHeaders_noRefusal (mode : EntryMode) (headers : Headers) :
    NoRefusal (Metadata.ofHeaders mode headers) := by
  unfold ofHeaders
  refine (readContentLength_noRefusal headers).bind fun length => ?_
  split
  · split
    · exact noRefusal_ok _
    · exact ((readDate_noRefusal _).map some).bind fun _ => noRefusal_ok _
  · exact noRefusal_ok _

theorem Backend.readMode_noRefusal (headers : Headers) : NoRefusal (Backend.readMode headers) := by
  unfold readMode
  split
  · simp
  · split
    · exact noRefusal_ok _
    · split
      · exact noRefusal_ok _
      · simp [Fault.withContext]

namespace Listing

theorem entryOf_noRefusal (root : Text) (item : Json) : NoRefusal (entryOf root item) := by
  have hlength (fields : List (Text × Json)) : NoRefusal (entryLength fields) := by
    unfold entryLength
    dsimp only
    split
    · exact noRefusal_ok 0
    · split
      · split <;> simp
      · exact noRefusal_ok _
      · exact noRefusal_ok 1
      · simp
      · split <;> simp
      · simp
  have hdate (fields : List (Text × Json)) : NoRefusal (entryDate fields) := by
    unfold entryDate
    split
    · split
      · exact noRefusal_ok none
      · exact (readDate_noRefusal _).map some
    · split <;> simp
  have htag (fields : List (Text × Json)) : NoRefusal (entryTag fields) := by
    unfold entryTag
    split
    · dsimp only
      split <;> exact noRefusal_ok _
    · split <;> simp
  have hname (fields : List (Text × Json)) : NoRefusal (entryName fields) := by
    unfold entryName
    split <;> simp
  unfold entryOf
  split
  · exact (hlength _).bind fun _ => (hdate _).bind fun _ => (htag _).bind fun _ =>
      (hname _).bind fun _ => noRefusal_ok _
  · simp

theorem itemsOf_noRefusal (fields : List (Text × Json)) : NoRefusal (itemsOf fields) := by
  unfold itemsOf
  dsimp only
  split
  · exact noRefusal_ok []
  · split <;> simp

/-- A value that was read, taken as a listing. -/
theorem entriesIn_noRefusal (root : Text) {x : Except Failure Json} (hx : NoRefusal x) :
    NoRefusal (do
      let value ← x
      match value with
      | .object fields =>
          let items ← itemsOf fields
          items.mapM (entryOf root)
      | _ => .error (.ofCause .listingNotObject)) := by
  refine hx.bind fun value => ?_
  split
  · exact (itemsOf_noRefusal _).bind fun items => noRefusal_mapM (entryOf_noRefusal root) items
  · simp

theorem entriesOf_noRefusal (root : Text) (depth : Nat) (body : Bytes) :
    NoRefusal (entriesOf root depth body) := by
  unfold entriesOf
  split
  · exact entriesIn_noRefusal root (noRefusal_ok _)
  · split
    · exact entriesIn_noRefusal root (noRefusal_ok _)
    · exact entriesIn_noRefusal root (by simp)
    · exact entriesIn_noRefusal root (by simp)

theorem pageOf_noRefusal (root path : Text) (token : Option Text) (depth : Nat) (r : Response) :
    NoRefusal (pageOf root path token depth r) := by
  unfold pageOf
  split
  · exact noRefusal_ok _
  · exact (entriesOf_noRefusal root depth r.body).bind fun _ => noRefusal_ok _

end Listing

end DataLake
