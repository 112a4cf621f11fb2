import DataLake.Proofs.Errand
import DataLake.Proofs.Headers
import DataLake.Proofs.Nesting
import DataLake.Proofs.PlainNumber

/-!
Failure reports. A response whose status is not accepted is reported with its status and its
whole body, with a code for the error, and with a detail that is never empty. Code and detail
come from an error object in the body if there is one, and otherwise from the headers, from the
body as text, or from the reason. Only a body that is nested too deep has no report at all.
-/

namespace DataLake

theorem Double.layOut_ne_nil (digits : Text) (point : Int) : layOut digits point ≠ [] := by
  unfold layOut
  split
  · split
    · simp [Text.ofString, Text.ofChars]
    · split <;> simp [Text.ofString, Text.ofChars]
  · simp

theorem Double.text_ne_nil (x : Double) : x.text ≠ [] := by
  cases x with
  | notANumber => decide
  | infinite negative => cases negative <;> decide
  | finite negative mantissa exponent =>
      cases negative with
      | true => exact List.cons_ne_nil _ _
      | false =>
          unfold text
          dsimp only
          rw [if_neg Bool.false_ne_true]
          split
          · decide
          · exact layOut_ne_nil _ _

/-- What is not void has something to show. -/
theorem Json.text_ne_nil {j : Json} (h : j.isVoid = false) : j.text ≠ [] := by
  cases j with
  | null => cases h
  | bool b =>
      cases b with
      | false => cases h
      | true => decide
  | integer n => exact Text.ofInt_ne_nil n
  | float x => exact x.text_ne_nil
  | string t => exact List.isEmpty_eq_false_iff.mp h
  | array items => simp [text, inner, Text.ofString, Text.ofChars]
  | object fields => simp [text, inner, Text.ofString, Text.ofChars]

namespace Fault

/-- The body is an object with this error object in it. -/
def HoldsError (depth : Nat) (body : Bytes) (fields : ErrorFields) : Prop :=
  ∃ all, Json.readBytes body depth = .ok (.object all) ∧
    Json.fieldOf all "error" = some (.object fields)

/-- The error object in the body gives a value to a key. Null is no such value. -/
def States (depth : Nat) (body : Bytes) (key : Text) (value : Json) : Prop :=
  value ≠ .null ∧ ∃ fields, HoldsError depth body fields ∧ Json.fieldOf fields key = some value

/-- The body as text, without the blanks around it. -/
def bodyText (body : Bytes) : Text :=
  Text.strip (Text.Utf8.decodeLenient body)

/-- The code that a report has: that of the error object, or else that of the header in any
letter case, or else null. -/
inductive TellsCode (depth : Nat) (r : Response) : Json → Prop where
  | body (code : Json) (hbody : States depth r.body "code" code) : TellsCode depth r code
  | header (name value : Text) (hnone : ∀ code, ¬ States depth r.body "code" code)
      (hheader : (name, value) ∈ r.headers)
      (hname : Text.sameLower name "x-ms-error-code" = true) : TellsCode depth r (.string value)
  | absent (hnone : ∀ code, ¬ States depth r.body "code" code)
      (hheaders : ∀ e ∈ r.headers, Text.sameLower e.1 "x-ms-error-code" = false) :
      TellsCode depth r .null

/-- The message in the error object says nothing, or there is none and the body says nothing
as text either. -/
def Silent (depth : Nat) (r : Response) : Prop :=
  (∃ message, States depth r.body "message" message ∧ message.isVoid = true) ∨
    (∀ message, ¬ States depth r.body "message" message) ∧ bodyText r.body = []

/-- The detail that a report with the given code has: the message of the error object, the body
as text if there is no message, and where these are empty the code, the reason, or a fixed text. -/
inductive TellsDetail (depth : Nat) (r : Response) (code : Json) : Text → Prop where
  | message (m : Json) (hmessage : States depth r.body "message" m) (hsome : m.isVoid = false) :
      TellsDetail depth r code m.text
  | body (hnone : ∀ message, ¬ States depth r.body "message" message)
      (hsome : bodyText r.body ≠ []) :
      TellsDetail depth r code (bodyText r.body)
  | code (hsilent : Silent depth r) (hsome : code.isVoid = false) :
      TellsDetail depth r code code.text
  | reason (hsilent : Silent depth r) (hcode : code.isVoid = true) (hsome : r.reason ≠ []) :
      TellsDetail depth r code r.reason
  | fixed (hsilent : Silent depth r) (hcode : code.isVoid = true) (hreason : r.reason = []) :
      TellsDetail depth r code "no response body"

/-- The report and the detail keep all that the response said. -/
structure Keeps (depth : Nat) (r : Response) (report : Report) (detail : Text) : Prop where
  status_eq : report.status = r.status
  body_eq : report.body = r.body
  tells_code : TellsCode depth r report.errorCode
  tells_detail : TellsDetail depth r report.errorCode detail
  detail_ne_nil : detail ≠ []

section

variable {depth : Nat} {r : Response} {fields : ErrorFields} {key : Text} {value : Json}

theorem errorFields_ok {body : Bytes} (h : Json.readBytes body depth ≠ .error .tooDeep) :
    ∃ fields, errorFields depth body = .ok fields := by
  unfold errorFields
  split
  · next hdeep => exact absurd hdeep h
  · exact ⟨[], rfl⟩
  · split <;> exact ⟨_, rfl⟩

/-- The fields that the report is made from are those of the error object, or none. -/
theorem holdsError_or_nil {body : Bytes} (h : errorFields depth body = .ok fields) :
    HoldsError depth body fields ∨ fields = [] ∧ ∀ stated, ¬ HoldsError depth body stated := by
  unfold errorFields at h
  split at h
  · cases h
  · next hread =>
    cases h
    refine .inr ⟨rfl, ?_⟩
    rintro stated ⟨all, hall, -⟩
    rw [hread] at hall
    cases hall
  · next value hread =>
    split at h
    · next stated hfield =>
      cases h
      cases value with
      | object all => exact .inl ⟨all, hread, hfield⟩
      | _ => cases hfield
    · next hother =>
      cases h
      refine .inr ⟨rfl, ?_⟩
      rintro stated ⟨all, hall, hfield⟩
      rw [hread] at hall
      cases hall
      exact hother stated hfield

theorem HoldsError.unique {body : Bytes} {stated : ErrorFields} (h : HoldsError depth body fields)
    (h' : HoldsError depth body stated) : fields = stated := by
  obtain ⟨all, hread, hfield⟩ := h
  obtain ⟨all', hread', hfield'⟩ := h'
  rw [hread] at hread'
  cases hread'
  rw [hfield] at hfield'
  cases hfield'
  rfl

/-- What the error object states is what its fields hold, null apart. -/
theorem states_iff {body : Bytes} (h : errorFields depth body = .ok fields) :
    States depth body key value ↔ value ≠ .null ∧ Json.fieldOf fields key = some value := by
  unfold States
  refine and_congr_right fun _ => ⟨?_, fun hfield => ?_⟩
  · rintro ⟨stated, hheld, hfield⟩
    rcases holdsError_or_nil h with hfields | ⟨-, hnone⟩
    · rwa [hfields.unique hheld]
    · exact absurd hheld (hnone stated)
  · rcases holdsError_or_nil h with hfields | ⟨rfl, -⟩
    · exact ⟨fields, hfields, hfield⟩
    · cases hfield

theorem states_of_ne_null {body : Bytes} (h : errorFields depth body = .ok fields)
    (hne : (Json.fieldOf fields key).getD .null ≠ .null) :
    States depth body key ((Json.fieldOf fields key).getD .null) := by
  cases hfield : Json.fieldOf fields key with
  | none => exact absurd (congrArg (Option.getD · Json.null) hfield) hne
  | some value =>
      rw [hfield] at hne
      exact (states_iff h).mpr ⟨hne, hfield⟩

theorem not_states_of_null {body : Bytes} (h : errorFields depth body = .ok fields)
    (hnull : (Json.fieldOf fields key).getD .null = .null) : ¬ States depth body key value := by
  intro hstates
  obtain ⟨hne, hfield⟩ := (states_iff h).mp hstates
  rw [hfield] at hnull
  exact hne hnull

theorem tellsCode (h : errorFields depth r.body = .ok fields) :
    TellsCode depth r (errorCode r fields) := by
  unfold errorCode
  split
  · next hnull =>
    have hnone (code : Json) : ¬ States depth r.body "code" code := not_states_of_null h hnull
    cases hheader : r.headers.get? "x-ms-error-code" with
    | none =>
        refine .absent hnone fun e he => ?_
        have hfind := Option.map_eq_none_iff.mp hheader
        exact Bool.eq_false_iff.mpr (List.find?_eq_none.mp hfind e he)
    | some value =>
        obtain ⟨name, hmem, hname⟩ := Headers.exists_of_get? hheader
        exact .header name value hnone hmem hname
  · next hcode => exact .body _ (states_of_ne_null h hcode)

/-- The message is that of the error object, or else the body as text. -/
theorem errorMessage_told (hstatus : r.status ≠ 0) (h : errorFields depth r.body = .ok fields) :
    States depth r.body "message" (errorMessage r fields) ∨
      (∀ message, ¬ States depth r.body "message" message) ∧
        errorMessage r fields = .string (bodyText r.body) := by
  have hbody : readableBody r = r.body := if_neg hstatus
  unfold errorMessage
  split
  · next hnull =>
    rw [hbody]
    exact .inr ⟨fun _ => not_states_of_null h hnull, rfl⟩
  · next hmessage => exact .inl (states_of_ne_null h hmessage)

theorem tellsDetail (hstatus : r.status ≠ 0) (h : errorFields depth r.body = .ok fields) :
    TellsDetail depth r (errorCode r fields) (errorDetail r fields).text := by
  have htold := errorMessage_told hstatus h
  unfold errorDetail
  dsimp only
  generalize errorMessage r fields = message at htold
  generalize errorCode r fields = code
  cases hvoid : message.isVoid with
  | false =>
      rcases htold with hmessage | ⟨hnone, rfl⟩
      · exact .message message hmessage hvoid
      · exact .body hnone (List.isEmpty_eq_false_iff.mp hvoid)
  | true =>
      have hsilent : Silent depth r := by
        rcases htold with hmessage | ⟨hnone, rfl⟩
        · exact .inl ⟨message, hmessage, hvoid⟩
        · exact .inr ⟨hnone, List.isEmpty_iff.mp hvoid⟩
      cases hcode : code.isVoid with
      | false => exact .code hsilent hcode
      | true =>
          cases hreason : r.reason with
          | nil => exact .fixed hsilent hcode hreason
          | cons c later =>
              have hsome : r.reason ≠ [] := by rw [hreason]; exact List.cons_ne_nil c later
              have htext := TellsDetail.reason hsilent hcode hsome
              rwa [hreason] at htext

theorem TellsDetail.ne_nil {code : Json} {detail : Text} (h : TellsDetail depth r code detail) :
    detail ≠ [] := by
  cases h with
  | message m _ hsome => exact Json.text_ne_nil hsome
  | body _ hsome => exact hsome
  | code _ hsome => exact Json.text_ne_nil hsome
  | reason _ _ hsome => exact hsome
  | fixed => decide

end

end Fault

theorem Failure.ofResponse_of_tooDeep {r : Response} {depth : Nat} (hstatus : r.status ≠ 0)
    (h : Json.readBytes r.body depth = .error .tooDeep) : ofResponse r depth = .nestedTooDeep := by
  have hbody : Fault.readableBody r = r.body := if_neg hstatus
  unfold ofResponse Fault.errorFields
  rw [hbody, h]

/-- A failed response is reported in full: for every status from 1 on, and whatever the headers,
the reason and the bytes of the body are, the report keeps the status and the body, its code and
its detail are told by the response, and the detail is not empty. The one exception is a body
that is nested too deep, which has more opening brackets than there are levels: it raises an
error of the reader, and nothing is reported. This is so however many levels there are. -/
theorem Failure.ofResponse_keeps_iff (depth : Nat) (r : Response) (hstatus : 1 ≤ r.status) :
    ((∃ f report detail, ofResponse r depth = .fault f ∧ f.cause = .refused report detail ∧
        Fault.Keeps depth r report detail) ↔ Json.readBytes r.body depth ≠ .error .tooDeep) ∧
      (Json.readBytes r.body depth = .error .tooDeep → ofResponse r depth = .nestedTooDeep ∧
        ∃ t, Text.Utf8.decode? r.body = some t ∧ depth < Json.openings t) := by
  have hne : r.status ≠ 0 := by omega
  refine ⟨⟨?_, fun hread => ?_⟩, fun hdeep => ?_⟩
  · rintro ⟨f, report, detail, hfault, -⟩ hdeep
    rw [ofResponse_of_tooDeep hne hdeep] at hfault
    cases hfault
  · obtain ⟨fields, hfields⟩ := Fault.errorFields_ok hread
    have hbody : Fault.readableBody r = r.body := if_neg hne
    have hfault : ofResponse r depth = .fault (Fault.ofResponse r fields) := by
      unfold ofResponse
      rw [hbody, hfields]
    have htells := Fault.tellsDetail hne hfields
    refine ⟨_, _, _, hfault, Fault.cause_withContext .., ?_⟩
    exact ⟨rfl, hbody, Fault.tellsCode hfields, htells, htells.ne_nil⟩
  · exact ⟨ofResponse_of_tooDeep hne hdeep, Json.openings_of_tooDeep hdeep⟩

/-- A refusal whose code stands in the headers and whose message stands in the body. -/
def conflictResponse : Response where
  status := 409
  headers := [("X-Ms-Error-Code", "PathAlreadyExists")]
  body := "\x7b\"error\":\x7b\"code\":null,\"message\":\"It exists.\"\x7d\x7d".toList.map
    fun c => UInt8.ofNat c.toNat
  reason := "Conflict"

theorem Failure.ofResponse_keeps_conflict :
    1 ≤ conflictResponse.status ∧ ∃ f report detail, ofResponse conflictResponse = .fault f ∧
      f.cause = .refused report detail ∧
      Fault.Keeps Room.usual.nesting conflictResponse report detail := by
  have hstatus : 1 ≤ conflictResponse.status := by decide
  have hread :
      (Json.readBytes conflictResponse.body Room.usual.nesting).toOption.isSome = true := by
    decide +kernel
  obtain ⟨hkeeps, -⟩ :=
    Failure.ofResponse_keeps_iff Room.usual.nesting conflictResponse hstatus
  refine ⟨hstatus, hkeeps.mpr fun hdeep => ?_⟩
  rw [hdeep] at hread
  cases hread

def bracketsResponse : Response where
  status := 500
  headers := []
  body := List.replicate 1500 91
  reason := ""

/-- The failure for a body of brackets is no report of the response. -/
theorem Failure.nested_body_unreported :
    ¬ ∃ f report detail, ofResponse bracketsResponse = .fault f ∧
      f.cause = .refused report detail ∧
      Fault.Keeps Room.usual.nesting bracketsResponse report detail := by
  have hstatus : bracketsResponse.status ≠ 0 := by decide
  have hdeep : Json.readBytes bracketsResponse.body Room.usual.nesting = .error .tooDeep :=
    Json.readBytes_brackets (by decide)
  rintro ⟨f, report, detail, hfault, -⟩
  rw [ofResponse_of_tooDeep hstatus hdeep] at hfault
  cases hfault

end DataLake
