import DataLake.Proofs.Confinement
import DataLake.Proofs.Headers

/-!
Requests read back. A prepared request is what the service gets to see; taking its
URL apart and undoing the escapes gives back the path, the fields and the header
texts that the operation was made of, whatever characters they have. Escapes, plus
signs, dot segments and the normal forms of a URL do not get in each other's way.
-/

namespace DataLake

namespace Url

/-- Characters of a side of a field that need no escape, once its plus signs are
spaces again. -/
private def isPlainChar (c : CodePoint) : Bool :=
  isUnreserved c || c == ' '

private theorem plus_not_mem_escapePoint {c : CodePoint} (hc : isUnreserved c = false) :
    .char '+' ∉ escapePoint c := by
  intro hmem
  have htidy : Tidy (fun _ => false) (escapePoint c) := escapePoint_tidy hc
  rcases htidy.mem hmem with h | h | h <;> revert h <;> decide

private theorem spaced_encodeField (t : Text) :
    (encodeField t).map (fun c => if c = .char '+' then .char ' ' else c) =
      percentEncode isPlainChar t := by
  induction t with
  | nil => rfl
  | cons c t ih =>
      -- A space is a plus sign for now, and no other character has one in its code.
      have hpoint : (if c = .char ' ' then [.char '+'] else if isUnreserved c then [c]
          else escapePoint c).map (fun c => if c = .char '+' then .char ' ' else c) =
            if isPlainChar c then [c] else escapePoint c := by
        by_cases hspace : c = .char ' '
        · rw [if_pos hspace, hspace]
          rfl
        · rw [if_neg hspace]
          have hplain : isPlainChar c = isUnreserved c := by simp [isPlainChar, hspace]
          rw [hplain]
          cases hc : isUnreserved c with
          | true =>
              have hplus : c ≠ .char '+' := by
                rintro rfl
                revert hc
                decide
              simp [hplus]
          | false =>
              rw [if_neg Bool.false_ne_true]
              refine (List.map_congr_left fun d hd => if_neg ?_).trans (List.map_id _)
              rintro rfl
              exact plus_not_mem_escapePoint hc hd
      unfold encodeField percentEncode at ih ⊢
      rw [List.flatMap_cons, List.flatMap_cons, List.map_append, ih, hpoint]

theorem decodeField_encodeField {t : Text} (h : t.any CodePoint.isHalf = false) :
    decodeField (encodeField t) = t := by
  have hascii (c : CodePoint) (hc : isPlainChar c = true) : c.toNat < 0x80 := by
    simp only [isPlainChar, Bool.or_eq_true, beq_iff_eq] at hc
    rcases hc with hunreserved | rfl
    · exact isUnreserved_lt hunreserved
    · decide
  unfold decodeField
  rw [spaced_encodeField]
  exact unescape_percentEncode hascii (by decide) h

private theorem separators_not_mem (t : Text) :
    .char '&' ∉ encodeField t ∧ .char '=' ∉ encodeField t := by
  constructor
  · intro hmem
    rcases (encodeField_tidy t).mem hmem with h | h | h <;> revert h <;> decide
  · intro hmem
    rcases (encodeField_tidy t).mem hmem with h | h | h <;> revert h <;> decide

private theorem splitOn_encodeQuery (fields : List (Text × Text)) :
    (Text.splitOn '&' (encodeQuery fields)).filter (!·.isEmpty) =
      fields.map fun field => encodeField field.1 ++ .char '=' :: encodeField field.2 := by
  generalize hpieces : fields.map (fun field : Text × Text =>
    encodeField field.1 ++ .char '=' :: encodeField field.2) = pieces
  have hmem : ∀ piece ∈ pieces, ∃ field ∈ fields,
      encodeField field.1 ++ .char '=' :: encodeField field.2 = piece := by
    intro piece hpiece
    rw [← hpieces] at hpiece
    exact List.mem_map.mp hpiece
  have hquery : encodeQuery fields = Text.joinWith "&" pieces := by
    rw [← hpieces]
    rfl
  rw [hquery]
  by_cases hnone : pieces = []
  · rw [hnone]
    rfl
  · have hfree : ∀ piece ∈ pieces, .char '&' ∉ piece := by
      intro piece hpiece
      obtain ⟨field, _, rfl⟩ := hmem piece hpiece
      simp [separators_not_mem]
    have hjoined : Text.splitOn '&' (Text.joinWith "&" pieces) = pieces :=
      Text.splitOn_joinWith hnone hfree
    rw [hjoined, List.filter_eq_self]
    intro piece hpiece
    obtain ⟨field, _, rfl⟩ := hmem piece hpiece
    simp

private theorem whole_of_encodeQuery? {fields : List (Text × Text)} {t : Text}
    (h : encodeQuery? fields = some t) {field : Text × Text} (hfield : field ∈ fields) :
    field.1.any CodePoint.isHalf = false ∧ field.2.any CodePoint.isHalf = false := by
  unfold encodeQuery? at h
  split at h
  · cases h
  · next hnone =>
    rw [Bool.not_eq_true, List.any_eq_false] at hnone
    have hfree := hnone field hfield
    simpa [List.any_append] using hfree

/-- The fields of a query read back as they were, in order and with those of an
empty value. -/
theorem decodeQuery_encodeQuery {fields : List (Text × Text)}
    (h : encodeQuery? fields = some (encodeQuery fields)) :
    decodeQuery (encodeQuery fields) = fields := by
  unfold decodeQuery
  rw [splitOn_encodeQuery, List.map_map]
  refine (List.map_congr_left fun field hfield => ?_).trans (List.map_id _)
  obtain ⟨hkey, hvalue⟩ := whole_of_encodeQuery? h hfield
  simp only [Function.comp_apply]
  -- The first equals sign is the one between the sides: neither side has one of its own.
  rw [Text.cutFirst_append_cons (separators_not_mem field.1).2]
  simp only [Option.getD_some]
  rw [decodeField_encodeField hkey, decodeField_encodeField hvalue]
  rfl

end Url

namespace Path

/-- A path of names only, without a segment of dots. -/
def Named (path : Text) : Prop :=
  ∀ name ∈ segments path, isDots name = false

instance (path : Text) : Decidable (Named path) :=
  inferInstanceAs (Decidable (∀ name ∈ segments path, isDots name = false))

end Path

theorem writeNumber_ok {n : Int} {t : Text} (h : writeNumber n = .ok t) : t = Text.ofInt n := by
  unfold writeNumber Text.writeInt? at h
  split at h
  · next hwrite =>
    split at hwrite
    · cases h
      exact (Option.some.inj hwrite).symm
    · cases hwrite
  · cases h

/-- The headers for the options of a new file have one of two names, and the value is
one of the options. -/
theorem WriteOptions.mem_headers {o : WriteOptions} {e : Text × Text} (h : e ∈ o.headers) :
    (e.1 = "Content-Type" ∧ o.contentType = some e.2) ∨
      (e.1 = "Content-Disposition" ∧ o.contentDisposition = some e.2) := by
  obtain ⟨append, contentType, contentDisposition⟩ := o
  rcases List.mem_append.mp h with h | h
  · cases contentType with
    | none => cases h
    | some value =>
        dsimp only at h
        split at h
        · cases h
        · rw [List.mem_singleton.mp h]
          exact .inl ⟨rfl, rfl⟩
  · cases contentDisposition with
    | none => cases h
    | some value =>
        dsimp only at h
        split at h
        · cases h
        · rw [List.mem_singleton.mp h]
          exact .inr ⟨rfl, rfl⟩

namespace Operation

variable {loc : Location} {op : Operation}

/-- The path that an operation is about, as a URL has it: the remote name below the
filesystem, or the filesystem alone. -/
def urlPath (loc : Location) (op : Operation) : Text :=
  match op.target? with
  | some path => "/" ++ loc.filesystem ++ "/" ++ loc.remoteName path
  | none => "/" ++ loc.filesystem

/-- The parameters of an operation. A listing names its directory unless that is the
filesystem itself, and a token only if it is not empty. -/
def parameters (loc : Location) : Operation → List (Text × Text)
  | create _ resource _ _ => [queryField "resource" resource]
  | properties _ => [queryField "action" "getStatus"]
  | read .. | delete _ | rename .. => []
  | update _ position _ commit =>
      [queryField "action" "append", queryField "position" (Text.ofInt position)] ++
        if commit then [queryField "flush" "true", queryField "close" "true"] else []
  | flush _ position =>
      [queryField "action" "flush", queryField "position" (Text.ofInt position),
        queryField "close" "true"]
  | list path continuation limit =>
      let directory := Path.dropOuterSlashes (Path.absolute loc.root path)
      [queryField "resource" "filesystem", queryField "recursive" "false"] ++
        (if directory.isEmpty then [] else [queryField "directory" directory]) ++
        (limit.toList.map fun n => queryField "maxResults" (Text.ofInt n)) ++
        (given continuation).toList.map (queryField "continuation")

theorem listFields_ok {path : Text} {continuation : Option Text} {limit : Option Int}
    {fields : List (Text × Text)} (h : listFields loc path continuation limit = .ok fields) :
    fields = (list path continuation limit).parameters loc := by
  obtain ⟨shown, hshown, hfields⟩ := bind_ok h
  have hlimit : shown = limit.map Text.ofInt := by
    cases limit with
    | none =>
        cases hshown
        rfl
    | some n =>
        obtain ⟨t, ht, hsome⟩ := bind_ok hshown
        cases hsome
        rw [writeNumber_ok ht]
        rfl
  subst hlimit
  cases hfields
  cases continuation with
  | none => cases limit <;> rfl
  | some token => cases token <;> cases limit <;> rfl

/-- The headers for a range that is not the whole file. -/
def rangeHeaders (range : Option ByteRange) : Except Failure (List (Text × Text)) :=
  match range with
  | some r => if r.isFull then .ok [] else r.headerText.map fun value => [("Range", value)]
  | none => .ok []

theorem draft_read (path : Text) (range : Option ByteRange) :
    (read path range).draft loc = (rangeHeaders range >>= fun headers =>
      loc.pathUrl path >>= fun url => .ok { method := "GET", url, headers }) := by
  unfold draft rangeHeaders
  cases range with
  | none => rfl
  | some r =>
      dsimp only
      split <;> rfl

theorem mem_rangeHeaders {range : Option ByteRange} {headers : List (Text × Text)}
    (h : rangeHeaders range = .ok headers) {e : Text × Text} (he : e ∈ headers) :
    e.1 = "Range" ∧ ∃ r, range = some r ∧ r.headerText = .ok e.2 := by
  unfold rangeHeaders at h
  split at h
  · next r =>
    split at h
    · cases h
      cases he
    · cases hvalue : r.headerText with
      | error f =>
          rw [hvalue] at h
          cases h
      | ok value =>
          rw [hvalue] at h
          cases h
          rw [List.mem_singleton.mp he]
          exact ⟨rfl, r, rfl, hvalue⟩
  · cases h
    cases he

/-- The draft of an operation has its parameters as fields, and states no length but
that of an empty body for an empty one. -/
theorem draft_states {d : Draft} (h : op.draft loc = .ok d) :
    d.fields = op.parameters loc ∧ (d.body = [] →
      ∀ e ∈ d.headers, Text.sameLower e.1 Draft.contentLength = true → e.2 = Text.ofNat 0) := by
  -- Most operations state a length first, and then nothing under that name.
  have hzero {length : Text} (hlength : length = Text.ofNat 0) {more : List (Text × Text)}
      (hmore : ∀ e ∈ more, Text.sameLower e.1 Draft.contentLength = false) :
      ∀ e ∈ (Draft.contentLength, length) :: more,
        Text.sameLower e.1 Draft.contentLength = true → e.2 = Text.ofNat 0 := by
    intro e he hsame
    rcases List.mem_cons.mp he with rfl | he
    · exact hlength
    · rw [hmore e he] at hsame
      cases hsame
  cases op with
  | create path resource options body =>
      obtain ⟨url, _, hd⟩ := bind_ok h
      cases hd
      refine ⟨rfl, fun _ => hzero rfl ?_⟩
      intro e he
      cases options with
      | none => cases he
      | some options =>
          rcases WriteOptions.mem_headers he with ⟨hname, _⟩ | ⟨hname, _⟩ <;> rw [hname] <;> rfl
  | properties path =>
      obtain ⟨url, _, hd⟩ := bind_ok h
      cases hd
      exact ⟨rfl, fun _ e he => absurd he List.not_mem_nil⟩
  | read path range =>
      rw [draft_read] at h
      obtain ⟨headers, hheaders, hrest⟩ := bind_ok h
      obtain ⟨url, _, hd⟩ := bind_ok hrest
      cases hd
      refine ⟨rfl, fun _ e he hsame => ?_⟩
      rw [(mem_rangeHeaders hheaders he).1] at hsame
      cases hsame
  | delete path =>
      obtain ⟨url, _, hd⟩ := bind_ok h
      cases hd
      exact ⟨rfl, fun _ e he => absurd he List.not_mem_nil⟩
  | rename source target =>
      obtain ⟨url, _, hrest⟩ := bind_ok h
      obtain ⟨name, _, hd⟩ := bind_ok hrest
      cases hd
      refine ⟨rfl, fun _ e he hsame => ?_⟩
      rcases List.mem_cons.mp he with rfl | he
      · cases hsame
      · exact hzero rfl (by simp) e he hsame
  | update path position body commit =>
      obtain ⟨shown, hshown, hrest⟩ := bind_ok h
      obtain ⟨url, _, hd⟩ := bind_ok hrest
      cases hd
      refine ⟨by rw [writeNumber_ok hshown]; rfl, fun hbody => hzero ?_ (by simp)⟩
      rw [show body = [] from hbody]
      rfl
  | flush path position =>
      obtain ⟨url, _, hrest⟩ := bind_ok h
      obtain ⟨shown, hshown, hd⟩ := bind_ok hrest
      cases hd
      exact ⟨by rw [writeNumber_ok hshown]; rfl, fun _ => hzero rfl (by simp)⟩
  | list path continuation limit =>
      obtain ⟨fields, hfields, hd⟩ := bind_ok h
      cases hd
      exact ⟨listFields_ok hfields, fun _ e he => absurd he List.not_mem_nil⟩

end Operation

namespace Draft

theorem withUserInfo_eq {url : Text} {parts : Url.Parts} (hparts : Url.Parts.ofUrl? url = some parts)
    (hat : .char '@' ∉ parts.authority) (headers : Headers) : withUserInfo url headers = .ok headers := by
  have hnone : parts.userInfo = none := by
    unfold Url.Parts.userInfo
    rw [Text.cutLast_of_not_mem hat]
  unfold withUserInfo
  rw [hparts]
  dsimp only
  rw [hnone]

theorem withLength_get?_of_ne {name : Text} (hname : Text.sameLower contentLength name = false)
    (method : Text) (headers : Headers) (body : Bytes) :
    (withLength method headers body).get? name = headers.get? name := by
  unfold withLength
  split
  · exact Headers.get?_set_of_ne hname
  · split
    · exact Headers.get?_set_of_ne hname
    · rfl

/-- The length that is stated is that of the body, if no header of the draft states
another one for an empty body. -/
theorem withLength_length {method : Text} {pairs : List (Text × Text)} {body : Bytes}
    (hstates : body = [] →
      ∀ e ∈ pairs, Text.sameLower e.1 contentLength = true → e.2 = Text.ofNat 0)
    {v : Text} (h : (withLength method (Headers.ofList pairs) body).get? contentLength = some v) :
    v = Text.ofNat body.length := by
  unfold withLength at h
  split at h
  · rw [Headers.get?_set_self] at h
    exact (Option.some.inj h).symm
  · next hempty =>
    have hbody : body = [] := by simpa using hempty
    rw [hbody]
    split at h
    · rw [Headers.get?_set_self] at h
      exact (Option.some.inj h).symm
    · obtain ⟨name, hmem, hname⟩ := Headers.exists_of_get? h
      exact hstates hbody _ (Headers.mem_ofList hmem) hname

end Draft

/-- What the service reads in a request is what the operation asks for. -/
structure Request.ReadsBack (loc : Location) (op : Operation) (r : Request) : Prop where
  method : r.method = op.verb
  /-- The URL comes apart, and its path and query decode. -/
  url : ∃ parts, Url.Parts.ofUrl? r.url = some parts ∧ Url.unescape parts.path = op.urlPath loc ∧
    Url.decodeQuery parts.query = op.parameters loc
  /-- The source of a move decodes. -/
  source : ∀ source target, op = .rename source target →
    ∃ v, r.headers.get? Location.renameSourceHeader = some v ∧
      Url.unescape v = "/" ++ loc.filesystem ++ "/" ++ loc.remoteName source
  body : r.body = op.payload
  length : ∀ v, r.headers.get? Draft.contentLength = some v → v = Text.ofNat r.body.length

namespace Operation

variable {loc : Location} {op : Operation}

theorem settled_asked (h : loc.Placed) (hroot : Path.Named loc.root)
    (hpath : ∀ path, op.target? = some path → Path.Named path) :
    .char '/' :: Text.joinWith "/" (Path.settled (op.asked loc)) = op.urlPath loc := by
  have hbase := h.base_named hroot
  have hnamed : ∀ name ∈ op.asked loc, Path.isDots name = false := by
    intro name hname
    unfold asked at hname
    cases htarget : op.target? with
    | none =>
        rw [htarget] at hname
        rw [List.mem_singleton.mp hname]
        exact hbase _ List.mem_cons_self
    | some path =>
        rw [htarget] at hname
        rcases List.mem_cons.mp hname with rfl | hname
        · exact hbase _ List.mem_cons_self
        · split at hname
          · rw [List.mem_singleton.mp hname]
            rfl
          · rcases List.mem_append.mp hname with hname | hname
            · exact hroot name hname
            · rcases Path.mem_pieces hname with rfl | hname
              · rfl
              · exact hpath path htarget name hname
  rw [Path.settled_of_names asked_ne_nil hnamed]
  unfold asked urlPath
  cases op.target? with
  | none =>
      rw [Option.elim_none, Text.joinWith_singleton]
      rfl
  | some path =>
      rw [Option.elim_some, ← h.filesystem_remoteName path]
      rfl

/-- The header that names the source of a move decodes to it. -/
theorem unescape_renameSource (h : loc.Placed) {source value : Text}
    (hvalue : loc.renameSource source = .ok value) :
    Url.unescape value = "/" ++ loc.filesystem ++ "/" ++ loc.remoteName source := by
  obtain ⟨hwhole, rfl⟩ := Location.renameSource_ok hvalue
  have hslashed : (CodePoint.char '/' :: Text.joinWith "/" (loc.asked source)).any
      CodePoint.isHalf = false := by
    rw [List.any_cons, h.asked_whole hwhole]
    rfl
  rw [← h.encoded_asked source, Url.unescape_encoded hslashed, ← h.filesystem_remoteName source]
  rfl

theorem request_readsBack (h : loc.Placed) (hroot : Path.Named loc.root)
    (hpath : ∀ path, op.target? = some path → Path.Named path) {r : Request}
    (hrequest : op.request loc = .ok r) : r.ReadsBack loc op := by
  obtain ⟨d, parts, hdraft, hprepare, hparts, hurlPath, hfields, hquery, hat⟩ :=
    request_parts h hrequest
  obtain ⟨_, hmethod, hbody, hheaders⟩ := Draft.prepare_ok hprepare
  obtain ⟨hverb, hpayload, _⟩ := draft_ok hdraft
  obtain ⟨hparameters, hlength⟩ := draft_states hdraft
  rw [Draft.withUserInfo_eq hparts hat] at hheaders
  have hheaders := Except.ok.inj hheaders
  refine ⟨hmethod.trans hverb, ⟨parts, hparts, ?_, ?_⟩, ?_, hbody.trans hpayload, ?_⟩
  · rw [hurlPath, settled_asked h hroot hpath]
  · rw [hquery, Url.decodeQuery_encodeQuery hfields, hparameters]
  · rintro source target rfl
    obtain ⟨url, _, hrest⟩ := bind_ok hdraft
    obtain ⟨value, hvalue, hd⟩ := bind_ok hrest
    cases hd
    refine ⟨value, ?_, unescape_renameSource h hvalue⟩
    rw [← hheaders, Draft.withLength_get?_of_ne (by rfl)]
    rfl
  · intro v hv
    rw [← hheaders] at hv
    rw [hbody]
    exact Draft.withLength_length hlength hv

/-- The texts that a request has in its URL or as the source of a move. -/
def texts : Operation → List Text
  | create path resource _ _ => [path, resource]
  | properties path | read path _ | delete path | update path .. | flush path _ => [path]
  | rename source target => [source, target]
  | list path continuation _ => path :: continuation.toList

/-- The numbers that a request shows; a range shows its first and its last byte. -/
def numbers : Operation → List Int
  | read _ (some r) =>
      if r.isFull then [] else r.offset :: r.size.toList.map fun size => r.offset + size - 1
  | update _ position _ _ | flush _ position => [position]
  | list _ _ limit => limit.toList
  | _ => []

/-- The content headers of a new file. -/
def contents : Operation → List Text
  | create _ _ (some options) _ =>
      options.contentType.toList ++ options.contentDisposition.toList
  | _ => []

/-- An operation that a message can carry: its texts are of whole characters, its
numbers not too long, and its content headers valid. -/
structure Sendable (loc : Location) (op : Operation) : Prop where
  root : loc.root.any CodePoint.isHalf = false
  texts : ∀ t ∈ op.texts, t.any CodePoint.isHalf = false
  numbers : ∀ n ∈ op.numbers, (Text.writeInt? n).isSome = true
  contents : ∀ v ∈ op.contents, Draft.isHeaderValue v = true

theorem isSome_of_writeNumber {n : Int} {t : Text} (h : writeNumber n = .ok t) :
    (Text.writeInt? n).isSome = true := by
  unfold writeNumber at h
  split at h
  · next hwrite =>
    rw [hwrite]
    rfl
  · cases h

theorem writeNumber_of_isSome {n : Int} (h : (Text.writeInt? n).isSome = true) :
    writeNumber n = .ok (Text.ofInt n) := by
  obtain ⟨t, ht⟩ := Option.isSome_iff_exists.mp h
  have hok : writeNumber n = .ok t := by
    unfold writeNumber
    rw [ht]
  rw [hok, writeNumber_ok hok]

private theorem mem_of_dropTrailingSlashes {t : Text} {c : CodePoint}
    (h : c ∈ Path.dropTrailingSlashes t) : c ∈ t := by
  unfold Path.dropTrailingSlashes Text.dropEndWhile at h
  exact List.mem_reverse.mp ((List.dropWhile_sublist _).subset (List.mem_reverse.mp h))

private theorem mem_of_dropOuterSlashes {t : Text} {c : CodePoint}
    (h : c ∈ Path.dropOuterSlashes t) : c ∈ t :=
  (List.dropWhile_sublist _).subset (mem_of_dropTrailingSlashes h)

section Whole

variable {path : Text}

/-- An absolute path is made of the characters of the root and the path, and slashes. -/
theorem mem_absolute {root : Text} {c : CodePoint} (hc : c ∈ Path.absolute root path) :
    c ∈ root ∨ c = .char '/' ∨ c ∈ path := by
  have hbase (hc : c ∈ Path.dropOuterSlashes root) : c ∈ root := mem_of_dropOuterSlashes hc
  have hrest (hc : c ∈ Path.dropLeadingSlashes path) : c ∈ path :=
    (List.dropWhile_sublist _).subset hc
  unfold Path.absolute at hc
  dsimp only at hc
  split at hc
  · exact .inr (.inr (hrest hc))
  · split at hc
    · rcases List.mem_append.mp hc with hc | hc
      · exact .inl (hbase hc)
      · exact .inr (.inl (List.mem_singleton.mp hc))
    · rcases List.mem_append.mp hc with hc | hc
      · exact .inl (hbase hc)
      · rcases List.mem_cons.mp hc with rfl | hc
        · exact .inr (.inl rfl)
        · exact .inr (.inr (hrest hc))

theorem remoteName_whole (hroot : loc.root.any CodePoint.isHalf = false)
    (hpath : path.any CodePoint.isHalf = false) :
    (loc.remoteName path).any CodePoint.isHalf = false := by
  rw [List.any_eq_false] at hroot hpath ⊢
  intro c hc
  rcases mem_absolute (mem_of_dropTrailingSlashes hc) with hc | rfl | hc
  · exact hroot c hc
  · exact Bool.false_ne_true
  · exact hpath c hc

end Whole

private theorem ofChars_whole (cs : List Char) : (Text.ofChars cs).any CodePoint.isHalf = false := by
  rw [List.any_eq_false]
  intro c hc
  obtain ⟨_, _, rfl⟩ := List.mem_map.mp hc
  exact Bool.false_ne_true

theorem isVisible_of_mem_ofInt {n : Int} {c : CodePoint} (h : c ∈ Text.ofInt n) :
    Url.isVisible c = true := by
  cases n with
  | ofNat n => exact Url.isVisible_of_isUnreserved (Url.isUnreserved_of_mem_ofNat h)
  | negSucc n =>
      rcases List.mem_cons.mp h with rfl | h
      · decide
      · exact Url.isVisible_of_isUnreserved (Url.isUnreserved_of_mem_ofNat h)

/-- The texts that a request has in its query. -/
def queried : Operation → List Text
  | create _ resource _ _ => [resource]
  | list path continuation _ => path :: continuation.toList
  | _ => []

theorem queried_subset_texts : op.queried ⊆ op.texts := by
  cases op <;> simp [queried, texts]

/-- A parameter has a fixed name. Its value has visible characters, and those of the root
and of the texts that stand in the query. -/
theorem mem_parameters {field : Text × Text} (h : field ∈ op.parameters loc) :
    ∃ name value, field = queryField name value ∧
      ∀ c ∈ value, Url.isVisible c = true ∨ c ∈ loc.root ∨ ∃ t ∈ op.queried, c ∈ t := by
  have hword {word : Text} (hword : ∀ c ∈ word, Url.isVisible c = true) :
      ∀ c ∈ word, Url.isVisible c = true ∨ c ∈ loc.root ∨ ∃ t ∈ op.queried, c ∈ t :=
    fun c hc => .inl (hword c hc)
  have hnumber (n : Int) := hword fun c hc => isVisible_of_mem_ofInt (n := n) hc
  cases op with
  | create path resource options body =>
      rw [List.mem_singleton.mp h]
      exact ⟨_, _, rfl, fun c hc => .inr (.inr ⟨resource, List.mem_cons_self, hc⟩)⟩
  | properties path =>
      rw [List.mem_singleton.mp h]
      exact ⟨_, _, rfl, hword (by decide)⟩
  | read path range => cases h
  | delete path => cases h
  | rename source target => cases h
  | update path position body commit =>
      rcases List.mem_append.mp h with h | h
      · simp only [List.mem_cons, List.not_mem_nil, or_false] at h
        rcases h with rfl | rfl
        · exact ⟨_, _, rfl, hword (by decide)⟩
        · exact ⟨_, _, rfl, hnumber position⟩
      · cases commit with
        | false => cases h
        | true =>
            simp only [if_true, List.mem_cons, List.not_mem_nil, or_false] at h
            rcases h with rfl | rfl <;> exact ⟨_, _, rfl, hword (by decide)⟩
  | flush path position =>
      simp only [parameters, List.mem_cons, List.not_mem_nil, or_false] at h
      rcases h with rfl | rfl | rfl
      · exact ⟨_, _, rfl, hword (by decide)⟩
      · exact ⟨_, _, rfl, hnumber position⟩
      · exact ⟨_, _, rfl, hword (by decide)⟩
  | list path continuation limit =>
      simp only [parameters, List.mem_append] at h
      rcases h with ((h | h) | h) | h
      · simp only [List.mem_cons, List.not_mem_nil, or_false] at h
        rcases h with rfl | rfl <;> exact ⟨_, _, rfl, hword (by decide)⟩
      · split at h
        · cases h
        · rw [List.mem_singleton.mp h]
          refine ⟨_, _, rfl, fun c hc => ?_⟩
          rcases mem_absolute (mem_of_dropOuterSlashes hc) with hc | rfl | hc
          · exact .inr (.inl hc)
          · exact .inl (by decide)
          · exact .inr (.inr ⟨path, List.mem_cons_self, hc⟩)
      · obtain ⟨n, _, rfl⟩ := List.mem_map.mp h
        exact ⟨_, _, rfl, hnumber n⟩
      · obtain ⟨token, htoken, rfl⟩ := List.mem_map.mp h
        refine ⟨_, _, rfl, fun c hc => .inr (.inr ⟨token, ?_, hc⟩)⟩
        obtain ⟨t, ht, hgiven⟩ := Option.bind_eq_some_iff.mp (Option.mem_toList.mp htoken)
        split at hgiven
        · cases hgiven
        · cases hgiven
          simp [queried, ht]

/-- The parameters of an operation that a message can carry have an encoding. -/
theorem parameters_encoded (hroot : loc.root.any CodePoint.isHalf = false)
    (htexts : ∀ t ∈ op.texts, t.any CodePoint.isHalf = false) :
    Url.encodeQuery? (op.parameters loc) = some (Url.encodeQuery (op.parameters loc)) := by
  unfold Url.encodeQuery?
  rw [if_neg]
  rw [Bool.not_eq_true, List.any_eq_false]
  intro field hfield
  obtain ⟨name, value, rfl, hvalue⟩ := mem_parameters hfield
  have hname : (Text.ofString name).any CodePoint.isHalf = false := ofChars_whole _
  have hwhole : value.any CodePoint.isHalf = false := by
    rw [List.any_eq_false] at hroot ⊢
    intro c hc
    rcases hvalue c hc with hvisible | hc | ⟨t, ht, hc⟩
    · rw [Url.isHalf_of_isVisible hvisible]
      exact Bool.false_ne_true
    · exact hroot c hc
    · exact List.any_eq_false.mp (htexts t (queried_subset_texts ht)) c hc
  simp [queryField, List.any_append, hname, hwhole]

theorem isBlank_of_isVisible {c : CodePoint} (h : Url.isVisible c = true) :
    Text.isBlank c = false ∧ c ≠ '\r' ∧ c ≠ '\n' := by
  have hall : ∀ n : Fin 128, (!Url.isVisible (.ofNat n) || (!Text.isBlank (.ofNat n) &&
      CodePoint.ofNat n != .char '\r' && CodePoint.ofNat n != .char '\n')) = true := by decide
  have hlt : c.toNat < 128 := by
    simp only [Url.isVisible, Bool.and_eq_true, decide_eq_true_eq] at h
    omega
  have hc := Url.of_ascii (p := fun c => !Url.isVisible c || (!Text.isBlank c &&
    c != .char '\r' && c != .char '\n')) hall hlt
  simp only [h, Bool.not_true, Bool.false_or, Bool.and_eq_true, bne_iff_ne, Bool.not_eq_true'] at hc
  exact ⟨hc.1.1, hc.1.2, hc.2⟩

theorem isHeaderValue_of_visible {value : Text} (h : ∀ c ∈ value, Url.isVisible c = true) :
    Draft.isHeaderValue value = true := by
  have hends : Draft.hasLineEnd value = false := by
    unfold Draft.hasLineEnd
    rw [List.any_eq_false]
    intro c hc
    simp [isBlank_of_isVisible (h c hc)]
  unfold Draft.isHeaderValue
  rw [hends]
  cases value with
  | nil => rfl
  | cons c value => simp [isBlank_of_isVisible (h c List.mem_cons_self)]

/-- A header that a message can carry. -/
def IsCarried (e : Text × Text) : Prop :=
  Draft.isHeaderName e.1 = true ∧ Draft.isHeaderValue e.2 = true

theorem lengthHeader_carried (n : Nat) : IsCarried (lengthHeader n) := by
  refine ⟨by rfl, isHeaderValue_of_visible fun c hc => ?_⟩
  exact Url.isVisible_of_isUnreserved (Url.isUnreserved_of_mem_ofNat hc)

theorem encodedName_of_whole {path : Text} (h : (loc.remoteName path).any CodePoint.isHalf = false) :
    loc.encodedName path = .ok (Url.percentEncode Url.isKeptChar (loc.remoteName path)) := by
  unfold Location.encodedName Url.encodePath? Url.percentEncode?
  rw [h]
  rfl

theorem renameSource_carried (hloc : loc.Placed) {source : Text}
    (h : (loc.remoteName source).any CodePoint.isHalf = false) :
    ∃ value, loc.renameSource source = .ok value ∧
      IsCarried (Location.renameSourceHeader, value) := by
  refine ⟨Url.percentEncode Url.isKeptChar (.char '/' :: Text.joinWith "/" (loc.asked source)),
    ?_, by rfl, isHeaderValue_of_visible fun c hc => ?_⟩
  · unfold Location.renameSource
    rw [encodedName_of_whole h, hloc.encoded_asked source]
    rfl
  · exact Url.isVisible_of_mem_encoded hc

theorem rangeHeaders_carried {path : Text} {range : Option ByteRange}
    (h : ∀ n ∈ (read path range).numbers, (Text.writeInt? n).isSome = true) :
    ∃ headers, rangeHeaders range = .ok headers ∧ ∀ e ∈ headers, IsCarried e := by
  cases range with
  | none => exact ⟨[], rfl, fun e he => absurd he List.not_mem_nil⟩
  | some r =>
      unfold numbers at h
      unfold rangeHeaders
      dsimp only at h ⊢
      split
      · exact ⟨[], rfl, fun e he => absurd he List.not_mem_nil⟩
      · next hpart =>
        rw [if_neg hpart] at h
        have hfirst := writeNumber_of_isSome (h r.offset List.mem_cons_self)
        obtain ⟨last, hvalue, hvisible⟩ : ∃ last : Text,
            r.headerText = .ok ("bytes=" ++ Text.ofInt r.offset ++ "-" ++ last) ∧
              ∀ c ∈ last, Url.isVisible c = true := by
          unfold ByteRange.headerText
          rw [hfirst]
          cases hsize : r.size with
          | none => exact ⟨[], rfl, fun c hc => absurd hc List.not_mem_nil⟩
          | some size =>
              rw [hsize] at h
              have hlast := writeNumber_of_isSome (h (r.offset + size - 1) (by simp))
              refine ⟨Text.ofInt (r.offset + size - 1), ?_, fun c hc => isVisible_of_mem_ofInt hc⟩
              dsimp only
              rw [hlast]
              rfl
        refine ⟨_, by rw [hvalue]; rfl, fun e he => ?_⟩
        rw [List.mem_singleton.mp he]
        refine ⟨by rfl, isHeaderValue_of_visible fun c hc => ?_⟩
        have hword : ∀ c ∈ ("bytes=" : Text), Url.isVisible c = true := by decide
        simp only [List.mem_append] at hc
        rcases hc with ((hc | hc) | hc) | hc
        · exact hword c hc
        · exact isVisible_of_mem_ofInt hc
        · rw [List.mem_singleton.mp hc]
          decide
        · exact hvisible c hc

theorem numbers_of_rangeHeaders {path : Text} {range : Option ByteRange}
    {headers : List (Text × Text)} (h : rangeHeaders range = .ok headers) :
    ∀ n ∈ (read path range).numbers, (Text.writeInt? n).isSome = true := by
  intro n hn
  cases range with
  | none => cases hn
  | some r =>
      unfold numbers at hn
      unfold rangeHeaders at h
      dsimp only at h hn
      split at h
      · next hfull =>
        rw [if_pos hfull] at hn
        cases hn
      · next hpart =>
        rw [if_neg hpart] at hn
        obtain ⟨value, hvalue, _⟩ := map_ok h
        obtain ⟨first, hfirst, hrest⟩ := bind_ok hvalue
        rcases List.mem_cons.mp hn with rfl | hn
        · exact isSome_of_writeNumber hfirst
        · cases hsize : r.size with
          | none =>
              rw [hsize] at hn
              cases hn
          | some size =>
              rw [hsize] at hn hrest
              obtain ⟨last, hlast, _⟩ := bind_ok hrest
              rw [List.mem_singleton.mp hn]
              exact isSome_of_writeNumber hlast

/-- The draft of an operation that a message can carry, with its headers. -/
theorem exists_draft (hloc : loc.Placed) (h : op.Sendable loc) :
    ∃ d, op.draft loc = .ok d ∧ ∀ e ∈ d.headers, IsCarried e := by
  obtain ⟨hroot, htexts, hnumbers, hcontents⟩ := h
  have hurl (path : Text) (hpath : path ∈ op.texts) : ∃ url, loc.pathUrl path = .ok url := by
    unfold Location.pathUrl
    rw [encodedName_of_whole (remoteName_whole hroot (htexts path hpath))]
    exact ⟨_, rfl⟩
  cases op with
  | create path resource options body =>
      obtain ⟨url, hurl⟩ := hurl path (by simp [texts])
      unfold draft
      dsimp only
      rw [hurl]
      refine ⟨_, rfl, fun e he => ?_⟩
      rcases List.mem_cons.mp he with rfl | he
      · exact lengthHeader_carried 0
      · cases options with
        | none => cases he
        | some options =>
            obtain ⟨name, value⟩ := e
            rcases WriteOptions.mem_headers he with ⟨rfl, hvalue⟩ | ⟨rfl, hvalue⟩
            · exact ⟨by rfl, hcontents value (by simp [contents, hvalue])⟩
            · exact ⟨by rfl, hcontents value (by simp [contents, hvalue])⟩
  | properties path =>
      obtain ⟨url, hurl⟩ := hurl path (by simp [texts])
      unfold draft
      dsimp only
      rw [hurl]
      exact ⟨_, rfl, fun e he => absurd he List.not_mem_nil⟩
  | read path range =>
      obtain ⟨url, hurl⟩ := hurl path (by simp [texts])
      obtain ⟨headers, hheaders, hcarried⟩ := rangeHeaders_carried hnumbers
      rw [draft_read, hheaders, hurl]
      exact ⟨_, rfl, hcarried⟩
  | delete path =>
      obtain ⟨url, hurl⟩ := hurl path (by simp [texts])
      unfold draft
      dsimp only
      rw [hurl]
      exact ⟨_, rfl, fun e he => absurd he List.not_mem_nil⟩
  | rename source target =>
      obtain ⟨url, hurl⟩ := hurl target (by simp [texts])
      have hsource := htexts source (by simp [texts])
      obtain ⟨value, hvalue, hcarried⟩ :=
        renameSource_carried hloc (remoteName_whole hroot hsource)
      unfold draft
      dsimp only
      rw [hurl, hvalue]
      refine ⟨_, rfl, fun e he => ?_⟩
      rcases List.mem_cons.mp he with rfl | he
      · exact hcarried
      · rw [List.mem_singleton.mp he]
        exact lengthHeader_carried 0
  | update path position body commit =>
      obtain ⟨url, hurl⟩ := hurl path (by simp [texts])
      unfold draft
      dsimp only
      rw [writeNumber_of_isSome (hnumbers position (by simp [numbers])), hurl]
      refine ⟨_, rfl, fun e he => ?_⟩
      rw [List.mem_singleton.mp he]
      exact lengthHeader_carried body.length
  | flush path position =>
      obtain ⟨url, hurl⟩ := hurl path (by simp [texts])
      unfold draft
      dsimp only
      rw [hurl, writeNumber_of_isSome (hnumbers position (by simp [numbers]))]
      refine ⟨_, rfl, fun e he => ?_⟩
      rw [List.mem_singleton.mp he]
      exact lengthHeader_carried 0
  | list path continuation limit =>
      obtain ⟨shown, hshown⟩ : ∃ shown, limit.mapM writeNumber = .ok shown := by
        cases limit with
        | none => exact ⟨none, rfl⟩
        | some n =>
            refine ⟨some (Text.ofInt n), ?_⟩
            change (some <$> writeNumber n) = _
            rw [writeNumber_of_isSome (hnumbers n (by simp [numbers]))]
            rfl
      unfold draft listFields
      dsimp only
      rw [hshown]
      exact ⟨_, rfl, fun e he => absurd he List.not_mem_nil⟩

/-- A draft is prepared if its URL is, its headers can be carried and the user name in the
URL can be written. -/
theorem prepare_of_carried {d : Draft} {url : Text} {headers : Headers} (hurl : d.preparedUrl = .ok url)
    (hcarried : ∀ e ∈ d.headers, IsCarried e)
    (hinfo : Draft.withUserInfo url (Draft.withLength (Text.upper d.method)
      (Headers.ofList d.headers) d.body) = .ok headers) :
    d.prepare = .ok ⟨Text.upper d.method, url, headers, d.body⟩ := by
  have hvalid : (d.headers.all fun e =>
      Draft.isHeaderName e.1 && Draft.isHeaderValue e.2) = true := by
    rw [List.all_eq_true]
    intro e he
    obtain ⟨hname, hvalue⟩ := hcarried e he
    simp [hname, hvalue]
  unfold Draft.prepare
  rw [hurl]
  change (if (d.headers.all fun e => Draft.isHeaderName e.1 && Draft.isHeaderValue e.2) = true
    then _ else _) = _
  rw [if_pos hvalid, hinfo]
  rfl

/-- On a plain endpoint a draft is prepared if its headers and its parameters can be carried. -/
theorem exists_request_of_draft (hloc : loc.Placed) (hendpoint : Url.IsPlainEndpoint loc.endpoint)
    {d : Draft} (hdraft : op.draft loc = .ok d) (hcarried : ∀ e ∈ d.headers, IsCarried e)
    (hparameters : Url.encodeQuery? (op.parameters loc) =
      some (Url.encodeQuery (op.parameters loc))) : ∃ r, op.request loc = .ok r := by
  obtain ⟨_, _, haddress⟩ := draft_ok hdraft
  obtain ⟨hwhole, hurl⟩ := address_ok hloc haddress
  have hfields : Url.encodeQuery? d.fields = some (Url.encodeQuery d.fields) := by
    rw [(draft_states hdraft).1]
    exact hparameters
  obtain ⟨url, hprepare⟩ :=
    Url.prepare_encoded_plain hendpoint asked_ne_nil (slash_not_mem_asked hloc) hfields
  obtain ⟨_, parts, hparts, _, _, hat⟩ :=
    Url.prepare_encoded hloc.endpoint asked_ne_nil (slash_not_mem_asked hloc) hwhole hprepare
  have hprepared : d.preparedUrl = .ok url := by
    unfold Draft.preparedUrl
    rw [hurl, hprepare]
  unfold request
  rw [hdraft]
  exact ⟨_, prepare_of_carried hprepared hcarried (Draft.withUserInfo_eq hparts hat _)⟩

/-- A request for an operation that a message can carry is prepared on a plain endpoint. -/
theorem exists_request (hloc : loc.Placed) (hendpoint : Url.IsPlainEndpoint loc.endpoint)
    (h : op.Sendable loc) : ∃ r, op.request loc = .ok r := by
  obtain ⟨d, hdraft, hcarried⟩ := exists_draft hloc h
  exact exists_request_of_draft hloc hendpoint hdraft hcarried (parameters_encoded h.root h.texts)

/-- The request of an operation reads back as what was asked for, and there is one
whenever a message can carry the operation: encoding, the normal forms of a URL and
the form of queries lose nothing, as long as no dot segment leads elsewhere. -/
theorem request_reads_back (hloc : loc.Configured) (hroot : Path.Named loc.root)
    (hpath : ∀ path, op.target? = some path → Path.Named path) :
    (∀ r, op.request loc = .ok r → r.ReadsBack loc op) ∧
      (Url.IsPlainEndpoint loc.endpoint → op.Sendable loc → ∃ r, op.request loc = .ok r) :=
  ⟨fun _ => request_readsBack hloc hroot hpath, exists_request hloc⟩

/-- A move between names with characters that every layer would like to change. -/
theorem move_reads_back : ∃ r,
    (rename "old log" "2015/über %2e+&?#~").request Location.archive = .ok r ∧
      r.ReadsBack Location.archive (rename "old log" "2015/über %2e+&?#~") := by
  have htarget : ∀ path, (rename "old log" "2015/über %2e+&?#~").target? = some path →
      Path.Named path := by
    intro path hpath
    cases hpath
    decide
  obtain ⟨hreads, hsent⟩ :=
    request_reads_back Location.archive_configured (by decide) htarget
  have hplain : Url.IsPlainEndpoint Location.archive.endpoint :=
    ⟨"acct.dfs.core.windows.net", by decide, by decide, .inr rfl⟩
  obtain ⟨r, hr⟩ := hsent hplain ⟨by decide, by decide, by decide, by decide⟩
  exact ⟨r, hr, hreads r hr⟩

end Operation

end DataLake
