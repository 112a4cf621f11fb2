import DataLake.Proofs.DateNumbers
import DataLake.Proofs.ListingBody
import DataLake.Proofs.ObjectPlan

/-!
Metadata from headers. Whatever texts the headers of a response hold, reading them gives the
metadata or a fault that blames the response, and the fault tells where it left the backend.
The one exception is a date with a number too large: computing with it fails, and that
failure comes out as it is.
-/

namespace DataLake

/-- A reading gives something, or ends in a fault of a certain kind. -/
inductive Decodes {α : Type} (faults : Fault → Prop) : Except Failure α → Prop where
  | value (a : α) : Decodes faults (.ok a)
  | fault {f : Fault} (h : faults f) : Decodes faults (.error (.fault f))

namespace Decodes

variable {α β : Type} {faults faults' : Fault → Prop} {result : Except Failure α}

theorem bind {next : α → Except Failure β} (h : Decodes faults result)
    (hnext : ∀ a, result = .ok a → Decodes faults (next a)) :
    Decodes faults (result >>= next) := by
  cases h with
  | value a => exact hnext a rfl
  | fault hf => exact .fault hf

theorem mono (h : Decodes faults result) (hfaults : ∀ f, faults f → faults' f) :
    Decodes faults' result := by
  cases h with
  | value a => exact .value a
  | fault hf => exact .fault (hfaults _ hf)

theorem map (h : Decodes faults result) (g : α → β) : Decodes faults (result.map g) := by
  cases h with
  | value a => exact .value (g a)
  | fault hf => exact .fault hf

theorem mapFault {g : Fault → Fault} (h : Decodes faults result)
    (hfaults : ∀ f, faults f → faults' (g f)) :
    Decodes faults' (result.mapError (Failure.mapFault g)) := by
  cases h with
  | value a => exact .value a
  | fault hf => exact .fault (hfaults _ hf)

end Decodes

/-- A reading decodes exactly if no number overflows, and otherwise fails for the number. -/
structure DecodesUnless {α : Type} (overflow : Prop) (faults : Fault → Prop)
    (result : Except Failure α) : Prop where
  decodes_iff : Decodes faults result ↔ ¬ overflow
  fails : overflow → result = .error .numberTooLarge

theorem decodesUnless {α : Type} {overflow : Prop} {faults : Fault → Prop}
    {result : Except Failure α} (hdecodes : ¬ overflow → Decodes faults result)
    (hfails : overflow → result = .error .numberTooLarge) :
    DecodesUnless overflow faults result := by
  refine ⟨⟨fun h hover => ?_, hdecodes⟩, hfails⟩
  rw [hfails hover] at h
  cases h

def Fault.BlamesResponse (f : Fault) : Prop :=
  f.cause.family = .response

/-- The fault blames the response, and tells that it left the operation on the path. -/
structure Fault.BlamesFrom (b : Backend) (title path : Text) (f : Fault) : Prop where
  blames : f.BlamesResponse
  operation : f.operation = some title
  tells : f.Tells b { path }

theorem Fault.BlamesResponse.annotate {f : Fault} (h : f.BlamesResponse) (b : Backend)
    (title path : Text) : (b.annotate title path f).BlamesFrom b title path where
  blames := by simpa [BlamesResponse] using h
  operation := b.operation_annotate title path f
  tells := Subject.mark_tells { path } b title f

/-- A date is read or blamed by its own text, unless one of its numbers is too large. -/
theorem readDate_decodesUnless (value : Text) :
    DecodesUnless (Calendar.Overflows value) (fun f => f = { cause := .dateInvalid value })
      (readDate value) := by
  rw [← Calendar.readHeaderDate_eq_outOfBounds_iff]
  unfold readDate
  cases Calendar.readHeaderDate value with
  | ok date => exact decodesUnless (fun _ => .value date) nofun
  | error e =>
      cases e with
      | malformed => exact decodesUnless (fun _ => .fault rfl) nofun
      | outOfBounds => exact decodesUnless (absurd rfl) fun _ => rfl

/-- The headers state a date with a number too large, and a length that is read before it. -/
structure Headers.DateOverflows (headers : Headers) : Prop where
  length : ∃ size, readContentLength headers = .ok size
  date : ∃ value, headers.get? "Last-Modified" = some value ∧ Calendar.Overflows value

theorem readContentLength_decodes (headers : Headers) :
    Decodes Fault.BlamesResponse (readContentLength headers) := by
  unfold readContentLength
  split
  · exact .value none
  · split
    · exact .value _
    · exact .fault rfl

theorem Metadata.ofHeaders_decodesUnless (mode : EntryMode) (headers : Headers) :
    DecodesUnless headers.DateOverflows Fault.BlamesResponse (ofHeaders mode headers) := by
  unfold ofHeaders
  apply decodesUnless
  · intro hfine
    refine (readContentLength_decodes headers).bind fun size hsize => ?_
    split
    · next value hvalue =>
      split
      · exact .value _
      · have hdate : ¬ Calendar.Overflows value := fun hover =>
          hfine ⟨⟨size, hsize⟩, value, hvalue, hover⟩
        have hread := (readDate_decodesUnless value).decodes_iff.mpr hdate
        exact ((hread.mono fun f hf => hf ▸ rfl).map some).bind fun _ _ => .value _
    · exact .value _
  · rintro ⟨⟨size, hsize⟩, value, hvalue, hover⟩
    have hsome : value.isEmpty = false := by
      rw [List.isEmpty_eq_false_iff]
      rintro rfl
      exact absurd hover (by decide)
    simp only [hsize, hvalue, hsome, (readDate_decodesUnless value).fails hover]
    rfl

namespace Backend

theorem readMode_decodes (headers : Headers) :
    Decodes Fault.BlamesResponse (readMode headers) := by
  unfold readMode
  split
  · exact .fault rfl
  · split
    · exact .value _
    · split
      · exact .value _
      · exact .fault rfl

theorem shownMetadata_decodesUnless (headers : Headers) :
    DecodesUnless headers.DateOverflows Fault.BlamesResponse (shownMetadata headers) := by
  have hread := Metadata.ofHeaders_decodesUnless .unknown headers
  unfold shownMetadata
  apply decodesUnless
  · intro hfine
    exact (hread.decodes_iff.mpr hfine).bind fun m _ =>
      (readMode_decodes headers).bind fun mode _ => .value _
  · intro hover
    rw [hread.fails hover]
    rfl

section Answered

variable {b : Backend} {path : Text} {w : World} {r : Response}

theorem stat_of_exchange (hroot : Path.isRoot path = false)
    (hexchange : (b.exchange (.properties path) w).1 = .ok r) (hstatus : r.status = 200) :
    (b.stat path w).1 =
      (shownMetadata r.headers).mapError (Failure.mapFault (b.annotate "Backend::stat" path)) := by
  have hperform : (b.perform (.properties path) [200] w).1 = .ok r :=
    perform_of_exchange hexchange (by simp [hstatus])
  rw [stat_eq, hroot]
  unfold annotated
  rw [Action.mapFault_eq, if_neg Bool.false_ne_true, Action.bind_of_ok hperform]
  rfl

theorem stat_decodesUnless (hroot : Path.isRoot path = false)
    (hexchange : (b.exchange (.properties path) w).1 = .ok r) (hstatus : r.status = 200) :
    DecodesUnless r.headers.DateOverflows (Fault.BlamesFrom b "Backend::stat" path)
      (b.stat path w).1 := by
  have hshown := shownMetadata_decodesUnless r.headers
  rw [stat_of_exchange hroot hexchange hstatus]
  apply decodesUnless
  · intro hfine
    exact (hshown.decodes_iff.mpr hfine).mapFault fun f hf => hf.annotate b "Backend::stat" path
  · intro hover
    rw [hshown.fails hover]
    rfl

end Answered

/-- Reading a date, the metadata in headers or the answer to a question about a path gives a
value or a fault that blames the response, exactly if no date with a number too large is come
to. The fault of an answer tells where it left the backend. -/
theorem headers_decode_unless_overflow (value : Text) (mode : EntryMode) (headers : Headers) (b : Backend)
    (path : Text) (w : World) (r : Response) :
    DecodesUnless (Calendar.Overflows value) (fun f => f = { cause := .dateInvalid value })
      (readDate value) ∧
    DecodesUnless headers.DateOverflows Fault.BlamesResponse (Metadata.ofHeaders mode headers) ∧
    (Path.isRoot path = false → (b.exchange (.properties path) w).1 = .ok r → r.status = 200 →
      DecodesUnless r.headers.DateOverflows (Fault.BlamesFrom b "Backend::stat" path)
        (b.stat path w).1) :=
  ⟨readDate_decodesUnless value, Metadata.ofHeaders_decodesUnless mode headers, stat_decodesUnless⟩

/-- The first of January of a year with eleven digits. -/
def farYear : Text := "1 Jan 99999999999 00:00:00 GMT"

def datedAt (date : Text) : Response :=
  ⟨200, [("Last-Modified", date)], [], "OK"⟩

theorem exchange_dated (date : Text) :
    (filesBackend.exchange (.properties "log") (answering (datedAt date))).1 = .ok (datedAt date) :=
  exchange_answering (by decide +kernel) (datedAt date)

theorem dateOverflows_datedAt (date : Text) :
    (datedAt date).headers.DateOverflows ↔ Calendar.Overflows date := by
  constructor
  · rintro ⟨-, value, hvalue, hover⟩
    cases hvalue
    exact hover
  · exact fun hover => ⟨⟨none, rfl⟩, date, rfl, hover⟩

theorem overflows_farYear : Calendar.Overflows farYear := by decide +kernel

/-- A response with a usual date is answered, and one with a far year is not. -/
theorem stat_decodes_usual_year :
    Decodes (Fault.BlamesFrom filesBackend "Backend::stat" "log")
        (filesBackend.stat "log" (answering (datedAt "1 Jan 2024 00:00:00 GMT"))).1 ∧
      ¬ Decodes (Fault.BlamesFrom filesBackend "Backend::stat" "log")
        (filesBackend.stat "log" (answering (datedAt farYear))).1 := by
  have hanswer (date : Text) := (headers_decode_unless_overflow date .unknown [] filesBackend "log"
    (answering (datedAt date)) (datedAt date)).2.2 (by decide) (exchange_dated date) rfl
  constructor
  · rw [(hanswer _).decodes_iff, dateOverflows_datedAt]
    decide +kernel
  · rw [(hanswer _).decodes_iff, not_not, dateOverflows_datedAt]
    exact overflows_farYear

/-- A year of eleven digits is not blamed, neither by the reader of dates nor when it comes
with the answer to a question about a path. -/
theorem far_year_unblamed :
    readDate farYear = .error .numberTooLarge ∧
      (filesBackend.stat "log" (answering (datedAt farYear))).1 = .error .numberTooLarge := by
  refine ⟨(readDate_decodesUnless _).fails overflows_farYear, ?_⟩
  exact (stat_decodesUnless (by decide) (exchange_dated farYear) rfl).fails
    ((dateOverflows_datedAt _).mpr overflows_farYear)

end Backend

end DataLake
