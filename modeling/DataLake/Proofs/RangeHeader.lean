import DataLake.Proofs.Decoding
import DataLake.Proofs.PlainNumber

/-!
Range headers as the service reads them. A header names the first byte and the last one, so
a range of at least one byte reads back and selects its bytes, and a range without a size
reaches to the end. An empty range has no last byte: its header has a last byte before the
first one and selects nothing that a header can say.
-/

namespace DataLake

/-- The bytes that a range header selects: those from the first one on, up to the last one
if that is given. -/
structure ByteSpan where
  first : Nat
  last? : Option Nat
  ordered : ∀ last ∈ last?, first ≤ last

namespace ByteSpan

/-- The span from a byte on that ends as a text says. -/
def upTo? (first : Nat) (last : Text) : Option ByteSpan :=
  if last.isEmpty then some ⟨first, none, by simp⟩
  else
    match Text.plainNumber? last with
    | some n => if h : first ≤ n then some ⟨first, some n, by simpa using h⟩ else none
    | none => none

/-- The span of a header value, which must be well-formed. -/
def read? (value : Text) : Option ByteSpan :=
  match Text.cutFirst '=' value with
  | (unit, some span) =>
      if unit = "bytes" then
        match Text.cutFirst '-' span with
        | (first, some last) => (Text.plainNumber? first).bind fun n => upTo? n last
        | (_, none) => none
      else none
  | (_, none) => none

/-- Whether the byte at an index is in the span. -/
def Selects (span : ByteSpan) (i : Nat) : Prop :=
  span.first ≤ i ∧ ∀ last ∈ span.last?, i ≤ last

def range (span : ByteSpan) : ByteRange :=
  ⟨span.first, span.last?.map fun last => last + 1 - span.first⟩

theorem read?_bytes (first : Nat) (last : Text) :
    read? ("bytes=" ++ Text.ofNat first ++ "-" ++ last) = upTo? first last := by
  have hunit : Text.cutFirst '=' ("bytes=" ++ Text.ofNat first ++ "-" ++ last) =
      (("bytes" : Text), some (Text.ofNat first ++ .char '-' :: last)) := by
    have hvalue : ("bytes=" ++ Text.ofNat first ++ "-" ++ last : Text) =
        ("bytes" : Text) ++ .char '=' :: (Text.ofNat first ++ .char '-' :: last) := by
      rw [List.append_assoc, List.append_assoc]
      rfl
    rw [hvalue]
    exact Text.cutFirst_append_cons (by decide) _
  unfold read?
  rw [hunit]
  dsimp only
  rw [if_pos rfl, Text.cutFirst_append_cons (Text.minus_not_mem_ofNat first)]
  dsimp only
  rw [Text.plainNumber?_ofNat, Option.bind_some]

theorem upTo?_ofNat (first last : Nat) (h : first ≤ last) :
    upTo? first (Text.ofNat last) = some ⟨first, some last, by simpa using h⟩ := by
  unfold upTo?
  rw [if_neg (by simp [Text.ofNat_ne_nil]), Text.plainNumber?_ofNat]
  dsimp only
  rw [dif_pos h]

/-- A span cannot end with a byte before its first one. -/
theorem upTo?_before {first : Nat} {last : Int} (h : last < first) :
    upTo? first (Text.ofInt last) = none := by
  unfold upTo?
  cases last with
  | ofNat last =>
      have hbefore : ¬ first ≤ last := by
        rw [Int.ofNat_eq_natCast] at h
        omega
      simp [Text.ofInt, Text.ofNat_ne_nil, Text.plainNumber?_ofNat, hbefore]
  | negSucc last =>
      rw [if_neg (by simp [Text.ofInt]), Text.plainNumber?_negSucc]

end ByteSpan

namespace ByteRange

/-- A range without negative numbers. -/
structure Proper (r : ByteRange) : Prop where
  offset : 0 ≤ r.offset
  size : ∀ size ∈ r.size, 0 ≤ size

/-- Whether the byte at an index is in the range. -/
def Holds (r : ByteRange) (i : Nat) : Prop :=
  r.offset ≤ i ∧ ∀ size ∈ r.size, (i : Int) < r.offset + size

def lastText (r : ByteRange) : Text :=
  r.size.elim [] fun size => Text.ofInt (r.offset + size - 1)

theorem headerText_eq {r : ByteRange} {value : Text} (h : r.headerText = .ok value) :
    value = "bytes=" ++ Text.ofInt r.offset ++ "-" ++ r.lastText := by
  unfold lastText
  obtain ⟨first, hfirst, hrest⟩ := bind_ok h
  cases hsize : r.size with
  | none =>
      rw [hsize] at hrest
      cases hrest
      rw [writeNumber_ok hfirst]
      rfl
  | some size =>
      rw [hsize] at hrest
      obtain ⟨last, hlast, hvalue⟩ := bind_ok hrest
      cases hvalue
      rw [writeNumber_ok hfirst, writeNumber_ok hlast]
      rfl

/-- A header value is read as a span of the same bytes, unless the range is empty. -/
theorem Proper.read?_headerText {r : ByteRange} (hr : r.Proper) {value : Text}
    (h : r.headerText = .ok value) :
    (r.size = some 0 → ByteSpan.read? value = none) ∧
      (r.size ≠ some 0 → ∃ span, ByteSpan.read? value = some span ∧ span.range = r ∧
        ∀ i, span.Selects i ↔ r.Holds i) := by
  rw [headerText_eq h]
  obtain ⟨offset, size⟩ := r
  obtain ⟨first, rfl⟩ := Int.eq_ofNat_of_zero_le hr.offset
  change (_ → ByteSpan.read? ("bytes=" ++ Text.ofNat first ++ "-" ++ _) = none) ∧
    (_ → ∃ span, ByteSpan.read? ("bytes=" ++ Text.ofNat first ++ "-" ++ _) = some span ∧ _)
  rw [ByteSpan.read?_bytes]
  cases size with
  | none =>
      refine ⟨nofun, fun _ => ⟨⟨first, none, by simp⟩, rfl, rfl, fun i => ?_⟩⟩
      simp [ByteSpan.Selects, Holds]
  | some size =>
      have hsize : 0 ≤ size := hr.size size rfl
      constructor
      · intro hnone
        cases Option.some.inj hnone
        exact ByteSpan.upTo?_before (by dsimp only; omega)
      · intro hsome
        obtain ⟨more, rfl⟩ : ∃ more : Nat, size = more + 1 := by
          have hpos : size ≠ 0 := fun hzero => hsome (by rw [hzero])
          exact ⟨(size - 1).toNat, by omega⟩
        have hlast : (first : Int) + (more + 1) - 1 = (first + more : Nat) := by omega
        have hread : ByteSpan.upTo? first (lastText ⟨first, some (more + 1)⟩) =
            some ⟨first, some (first + more), by simp⟩ := by
          change ByteSpan.upTo? first (Text.ofInt ((first : Int) + (more + 1) - 1)) = _
          rw [hlast]
          exact ByteSpan.upTo?_ofNat first (first + more) (Nat.le_add_right first more)
        refine ⟨_, hread, ?_, fun i => ?_⟩
        · have hmore : ((first + more : Nat) : Int) + 1 - first = more + 1 := by omega
          exact congrArg (fun size => ByteRange.mk first (some size)) hmore
        · simp only [ByteSpan.Selects, Holds, Option.mem_some_iff, forall_eq']
          omega

/-- Different ranges have different header values. -/
theorem Proper.headerText_injective {r s : ByteRange} (hr : r.Proper) (hs : s.Proper) {value : Text}
    (hrvalue : r.headerText = .ok value) (hsvalue : s.headerText = .ok value) : r = s := by
  have hsame := (headerText_eq hrvalue).symm.trans (headerText_eq hsvalue)
  obtain ⟨roffset, rsize⟩ := r
  obtain ⟨soffset, ssize⟩ := s
  obtain ⟨rfirst, rfl⟩ := Int.eq_ofNat_of_zero_le hr.offset
  obtain ⟨sfirst, rfl⟩ := Int.eq_ofNat_of_zero_le hs.offset
  have hcut (first : Nat) (last : Text) :
      Text.cutFirst '-' (Text.ofInt first ++ "-" ++ last) = (Text.ofNat first, some last) := by
    rw [List.append_assoc]
    exact Text.cutFirst_append_cons (Text.minus_not_mem_ofNat first) last
  rw [List.append_assoc, List.append_assoc, List.append_assoc, List.append_assoc] at hsame
  have hspans := List.append_cancel_left hsame
  rw [← List.append_assoc, ← List.append_assoc] at hspans
  have hpairs := congrArg (Text.cutFirst '-') hspans
  rw [hcut, hcut, Prod.mk.injEq, Option.some.injEq] at hpairs
  obtain ⟨hfirst, hlast⟩ := hpairs
  cases Text.ofNat_injective hfirst
  cases rsize with
  | none =>
      cases ssize with
      | none => rfl
      | some size => exact absurd hlast.symm (Text.ofInt_ne_nil _)
  | some size =>
      cases ssize with
      | none => exact absurd hlast (Text.ofInt_ne_nil _)
      | some size' =>
          have heq : (rfirst : Int) + size - 1 = rfirst + size' - 1 := Text.ofInt_injective hlast
          have hsize : size = size' := by omega
          rw [hsize]

end ByteRange

/-- What a request for a range says, as the service reads it. -/
structure Request.States (request : Request) (r : ByteRange) : Prop where
  /-- Only a request for the whole file goes without a range header. -/
  whole : request.headers.get? "Range" = none → r.isFull = true
  /-- A range header is well-formed, gives the range back and selects its bytes. -/
  part : ∀ value, request.headers.get? "Range" = some value →
    ∃ span, ByteSpan.read? value = some span ∧ span.range = r ∧ ∀ i, span.Selects i ↔ r.Holds i

/-- The user name and password of a URL are the same step for all headers. -/
theorem Draft.withUserInfo_cases (url : Text) :
    (∃ f, ∀ headers, withUserInfo url headers = .error f) ∨
      (∀ headers, withUserInfo url headers = .ok headers) ∨
      ∃ value, ∀ headers, withUserInfo url headers = .ok (headers.set authorization value) := by
  unfold withUserInfo
  cases Url.Parts.ofUrl? url with
  | none => exact .inl ⟨_, fun _ => rfl⟩
  | some parts =>
      dsimp only
      rcases parts.userInfo with _ | ⟨user, password⟩
      · exact .inr (.inl fun _ => rfl)
      · dsimp only
        split
        · exact .inr (.inl fun _ => rfl)
        · cases basicValue? user password with
          | none => exact .inl ⟨_, fun _ => rfl⟩
          | some value => exact .inr (.inr ⟨value, fun _ => rfl⟩)

theorem Draft.withUserInfo_get?_of_ne {url name : Text}
    (hname : Text.sameLower authorization name = false) {headers sent : Headers}
    (h : withUserInfo url headers = .ok sent) : sent.get? name = headers.get? name := by
  rcases withUserInfo_cases url with ⟨f, herror⟩ | hkept | ⟨value, hset⟩
  · rw [herror] at h
    cases h
  · rw [hkept] at h
    cases h
    rfl
  · rw [hset] at h
    cases h
    exact Headers.get?_set_of_ne hname

namespace Operation

variable {loc : Location} {path : Text}

/-- The range header of a request is that of the range; the whole file has none. -/
theorem range_header {range : Option ByteRange} {request : Request}
    (h : (read path range).request loc = .ok request) :
    ∃ headers, rangeHeaders range = .ok headers ∧
      request.headers.get? "Range" = Headers.get? (Headers.ofList headers) "Range" := by
  obtain ⟨d, hdraft, hprepare⟩ := bind_ok h
  rw [draft_read] at hdraft
  obtain ⟨headers, hheaders, hrest⟩ := bind_ok hdraft
  obtain ⟨url, _, hd⟩ := bind_ok hrest
  cases hd
  obtain ⟨_, _, _, hsent⟩ := Draft.prepare_ok hprepare
  refine ⟨headers, hheaders, ?_⟩
  rw [Draft.withUserInfo_get?_of_ne (by rfl) hsent, Draft.withLength_get?_of_ne (by rfl)]

/-- A request for a range has either no range header and is for the whole file, or the
header value of the range. -/
theorem range_header_cases {r : ByteRange} {request : Request}
    (h : (read path (some r)).request loc = .ok request) :
    (r.isFull = true ∧ request.headers.get? "Range" = none) ∨
      ∃ value, r.headerText = .ok value ∧ request.headers.get? "Range" = some value := by
  obtain ⟨headers, hheaders, hget⟩ := range_header h
  unfold rangeHeaders at hheaders
  dsimp only at hheaders
  split at hheaders
  · next hfull =>
    cases hheaders
    exact .inl ⟨hfull, hget⟩
  · obtain ⟨value, hvalue, rfl⟩ := map_ok hheaders
    exact .inr ⟨value, hvalue, hget.trans (Headers.get?_set_self [] "Range" value)⟩

theorem eq_full {r : ByteRange} (h : r.isFull = true) : r = {} := by
  obtain ⟨offset, size⟩ := r
  unfold ByteRange.isFull at h
  simp only [Bool.and_eq_true, beq_iff_eq, Option.isNone_iff_eq_none] at h
  obtain ⟨rfl, rfl⟩ := h
  rfl

theorem request_states {r : ByteRange} (hr : r.Proper) {request : Request}
    (h : (read path (some r)).request loc = .ok request) :
    request.States r ↔ r.size ≠ some 0 := by
  rcases range_header_cases h with ⟨hfull, hnone⟩ | ⟨value, hvalue, hsome⟩
  · have hsize : r.size ≠ some 0 := by
      rw [eq_full hfull]
      exact nofun
    refine iff_of_true ⟨fun _ => hfull, fun value hsome => ?_⟩ hsize
    rw [hnone] at hsome
    cases hsome
  · obtain ⟨hempty, hmore⟩ := hr.read?_headerText hvalue
    constructor
    · intro hstates hzero
      obtain ⟨span, hread, _⟩ := hstates.part value hsome
      rw [hempty hzero] at hread
      cases hread
    · intro hsize
      refine ⟨fun hnone => ?_, fun value' hsome' => ?_⟩
      · rw [hsome] at hnone
        cases hnone
      · cases Option.some.inj (hsome.symm.trans hsome')
        exact hmore hsize

theorem range_unique {r s : ByteRange} (hr : r.Proper) (hs : s.Proper) {request : Request}
    (hrsent : (read path (some r)).request loc = .ok request)
    (hssent : (read path (some s)).request loc = .ok request) : r = s := by
  rcases range_header_cases hrsent with ⟨hrfull, hrnone⟩ | ⟨rvalue, hrvalue, hrsome⟩
  · rcases range_header_cases hssent with ⟨hsfull, _⟩ | ⟨svalue, _, hssome⟩
    · rw [eq_full hrfull, eq_full hsfull]
    · rw [hrnone] at hssome
      cases hssome
  · rcases range_header_cases hssent with ⟨_, hsnone⟩ | ⟨svalue, hsvalue, hssome⟩
    · rw [hrsome] at hsnone
      cases hsnone
    · cases Option.some.inj (hrsome.symm.trans hssome)
      exact hr.headerText_injective hs hrvalue hsvalue

/-- Preparing succeeds or fails for all headers that can be carried alike. -/
private theorem prepare_with {headers other : List (Text × Text)} {url : Text} {request : Request}
    (h : ({ method := "GET", url, headers } : Draft).prepare = .ok request)
    (hcarried : ∀ e ∈ other, IsCarried e) :
    ∃ request, ({ method := "GET", url, headers := other } : Draft).prepare = .ok request := by
  obtain ⟨hurl, _, _, hsent⟩ := Draft.prepare_ok h
  rcases Draft.withUserInfo_cases request.url with ⟨f, herror⟩ | hkept | ⟨value, hset⟩
  · rw [herror] at hsent
    cases hsent
  · exact ⟨_, prepare_of_carried hurl hcarried (hkept _)⟩
  · exact ⟨_, prepare_of_carried hurl hcarried (hset _)⟩

/-- There is a request for a range if there is one for the whole file and the numbers of the
range can be written. -/
theorem range_sent_iff {range : Option ByteRange} :
    (∃ request, (read path range).request loc = .ok request) ↔
      (∃ request, (read path none).request loc = .ok request) ∧
        ∀ n ∈ (read path range).numbers, (Text.writeInt? n).isSome = true := by
  constructor
  · rintro ⟨request, h⟩
    obtain ⟨d, hdraft, hprepare⟩ := bind_ok h
    rw [draft_read] at hdraft
    obtain ⟨headers, hheaders, hrest⟩ := bind_ok hdraft
    obtain ⟨url, hurl, hd⟩ := bind_ok hrest
    cases hd
    have hnone : ∀ e ∈ ([] : List (Text × Text)), IsCarried e := nofun
    obtain ⟨whole, hwhole⟩ := prepare_with hprepare hnone
    refine ⟨⟨whole, ?_⟩, numbers_of_rangeHeaders hheaders⟩
    unfold Operation.request
    rw [draft_read, hurl]
    exact hwhole
  · rintro ⟨⟨whole, h⟩, hnumbers⟩
    obtain ⟨headers, hheaders, hcarried⟩ := rangeHeaders_carried hnumbers
    obtain ⟨d, hdraft, hprepare⟩ := bind_ok h
    rw [draft_read] at hdraft
    obtain ⟨_, _, hrest⟩ := bind_ok hdraft
    obtain ⟨url, hurl, hd⟩ := bind_ok hrest
    cases hd
    obtain ⟨request, hrequest⟩ := prepare_with hprepare hcarried
    refine ⟨request, ?_⟩
    unfold Operation.request
    rw [draft_read, hheaders, hurl]
    exact hrequest

/-- The requests for ranges of a path. A request says what its range is exactly if that is not
empty; different ranges have different requests, and all of them are made unless a number is
too long or there is no request for the path at all. -/
theorem ranges_read_back (loc : Location) (path : Text) :
    (∀ r : ByteRange, r.Proper → ∀ request, (read path (some r)).request loc = .ok request →
      (request.States r ↔ r.size ≠ some 0)) ∧
    (∀ r s : ByteRange, r.Proper → s.Proper → ∀ request,
      (read path (some r)).request loc = .ok request →
      (read path (some s)).request loc = .ok request → r = s) ∧
    ∀ range, (∃ request, (read path range).request loc = .ok request) ↔
      (∃ request, (read path none).request loc = .ok request) ∧
        ∀ n ∈ (read path range).numbers, (Text.writeInt? n).isSome = true :=
  ⟨fun _ hr _ => request_states hr, fun _ _ hr hs _ => range_unique hr hs, fun _ => range_sent_iff⟩

/-- The request for five bytes of a file. -/
theorem five_bytes_read_back : ByteRange.Proper ⟨5, some 5⟩ ∧ ∃ request,
    (read "log" (some ⟨5, some 5⟩)).request Location.archive = .ok request ∧
      request.headers.get? "Range" = some ("bytes=5-9" : Text) ∧ request.States ⟨5, some 5⟩ := by
  have hproper : ByteRange.Proper ⟨5, some 5⟩ := ⟨by decide, by simp⟩
  have hsent : ((read "log" (some ⟨5, some 5⟩)).request Location.archive).toOption.any
      (fun request => request.headers.get? "Range" == some ("bytes=5-9" : Text)) = true := by
    decide +kernel
  obtain ⟨request, hrequest, hheader⟩ := (Option.any_eq_true _ _).mp hsent
  have hrequest := ok_of_toOption hrequest
  obtain ⟨hstates, _⟩ := ranges_read_back Location.archive "log"
  exact ⟨hproper, request, hrequest, beq_iff_eq.mp hheader,
    (hstates _ hproper request hrequest).mpr (by decide)⟩

/-- The request for no bytes from the sixth on has a last byte before the first one. -/
theorem empty_range_misread : ByteRange.Proper ⟨5, some 0⟩ ∧ ∃ request,
    (read "log" (some ⟨5, some 0⟩)).request Location.archive = .ok request ∧
      request.headers.get? "Range" = some ("bytes=5-4" : Text) ∧ ¬ request.States ⟨5, some 0⟩ := by
  have hproper : ByteRange.Proper ⟨5, some 0⟩ := ⟨by decide, by simp⟩
  have hsent : ((read "log" (some ⟨5, some 0⟩)).request Location.archive).toOption.any
      (fun request => request.headers.get? "Range" == some ("bytes=5-4" : Text)) = true := by
    decide +kernel
  obtain ⟨request, hrequest, hheader⟩ := (Option.any_eq_true _ _).mp hsent
  have hrequest := ok_of_toOption hrequest
  exact ⟨hproper, request, hrequest, beq_iff_eq.mp hheader,
    fun hstates => (request_states hproper hrequest).mp hstates rfl⟩

end Operation

end DataLake
