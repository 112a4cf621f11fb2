import DataLake.Proofs.Decoding

/-!
Requests before they are signed, of a location that need not be in normal form. Their path
is visible, and their query is that of the operation. Each of their headers has a value of
one line, and but for the source of a move they are about content.
-/

namespace DataLake

/-- A location whose root keeps to one line. The root need not be in normal form. -/
structure Location.Sited (loc : Location) : Prop where
  endpoint : Url.IsWebEndpoint loc.endpoint
  filesystem : ∀ c ∈ loc.filesystem, (c.isAsciiAlphanum || c == '-') = true
  root : .char '\n' ∉ loc.root

theorem newline_not_mem_of_visible {t : Text} (h : ∀ c ∈ t, Url.isVisible c = true) :
    .char '\n' ∉ t := fun hmem => (Operation.isBlank_of_isVisible (h _ hmem)).2.2 rfl

namespace Location.Sited

variable {loc : Location} {op : Operation}

/-- Neither the filesystem nor the slashes around it are escaped. -/
theorem encoded_filesystem (h : loc.Sited) :
    Url.percentEncode Url.isKeptChar ("/" ++ loc.filesystem) = "/" ++ loc.filesystem := by
  apply Url.percentEncode_of_all
  intro c hc
  rcases List.mem_append.mp hc with hc | hc
  · rw [List.mem_singleton.mp hc]
    decide
  · simp [Url.isKeptChar, Location.isUnreserved_of_name (h.filesystem c hc)]

theorem encoded_below (h : loc.Sited) (name : Text) :
    Url.percentEncode Url.isKeptChar ("/" ++ loc.filesystem ++ "/" ++ name) =
      "/" ++ loc.filesystem ++ "/" ++ Url.percentEncode Url.isKeptChar name := by
  have hslash : Url.percentEncode Url.isKeptChar "/" = "/" := by decide
  rw [Url.percentEncode_append, Url.percentEncode_append, h.encoded_filesystem, hslash]

/-- The address of an operation is one encoded path on the endpoint. -/
theorem address_ok (h : loc.Sited) {url : Text} (hurl : op.address loc = .ok url) :
    ∃ t, url = loc.endpoint ++ Url.percentEncode Url.isKeptChar (.char '/' :: t) := by
  unfold Operation.address at hurl
  split at hurl
  · next path _ =>
    obtain ⟨_, rfl⟩ := Location.pathUrl_ok hurl
    refine ⟨loc.filesystem ++ "/" ++ loc.remoteName path, ?_⟩
    have hencoded := h.encoded_below (loc.remoteName path)
    simp only [Location.url, List.append_assoc] at hencoded ⊢
    exact congrArg (loc.endpoint ++ ·) hencoded.symm
  · cases hurl
    refine ⟨loc.filesystem, ?_⟩
    simp only [Location.url, List.append_assoc]
    exact congrArg (loc.endpoint ++ ·) h.encoded_filesystem.symm

/-- The URL of a request has a visible path, and its query is that of the operation. -/
theorem request_url (h : loc.Sited) {r : Request} (hrequest : op.request loc = .ok r) :
    ∃ parts, Url.Parts.ofUrl? r.url = some parts ∧ .char '@' ∉ parts.authority ∧
      parts.path ≠ [] ∧ (∀ c ∈ parts.path, Url.isVisible c = true) ∧
      Url.decodeQuery parts.query = op.parameters loc := by
  obtain ⟨d, hdraft, hready⟩ := bind_ok hrequest
  have hprepare := Draft.prepare_url hready
  obtain ⟨_, _, haddress⟩ := Operation.draft_ok hdraft
  obtain ⟨t, hurl⟩ := h.address_ok haddress
  have hne := Text.splitOn_ne_nil (.char '/') t
  have hfree : ∀ segment ∈ Text.splitOn (.char '/') t, .char '/' ∉ segment := fun _ hsegment =>
    Text.not_mem_of_mem_splitOn hsegment
  have hjoined : Text.joinWith "/" (Text.splitOn (.char '/') t) = t := Text.joinWith_splitOn t
  have hsent := Url.sentPath_encoded hne hfree
  rw [hjoined] at hsent
  have hslash : ∃ rest, Url.percentEncode Url.isKeptChar (.char '/' :: t) = .char '/' :: rest :=
    ⟨_, rfl⟩
  rw [hurl] at hprepare
  obtain ⟨hfields, parts, hparts, hpath, hquery, hat⟩ :=
    Url.prepared_parts h.endpoint (Url.encoded_tidy _) hslash (hsent ▸ Url.encoded_tidy _) hprepare
  rw [hsent] at hpath
  refine ⟨parts, hparts, hat, ?_, ?_, ?_⟩
  · rw [hpath]
    exact List.cons_ne_nil _ _
  · intro c hc
    rw [hpath] at hc
    exact Url.isVisible_of_mem_encoded hc
  · rw [hquery, Url.decodeQuery_encodeQuery hfields, (Operation.draft_states hdraft).1]

theorem renameSource_visible (h : loc.Sited) {source value : Text}
    (hvalue : loc.renameSource source = .ok value) :
    value ≠ [] ∧ ∀ c ∈ value, Url.isVisible c = true := by
  obtain ⟨_, rfl⟩ := Location.renameSource_ok hvalue
  refine ⟨List.cons_ne_nil _ _, fun c hc => ?_⟩
  rw [← h.encoded_below] at hc
  exact Url.isVisible_of_mem_encoded hc

end Location.Sited

/-- The names of the headers about content. -/
def Draft.contentNames : List Text :=
  [contentLength, "Content-Type", "Content-Disposition", "Range"]

/-- Headers as a request has them before it is signed: they are about content or name the
source of a move, and each of them has a value of one line. -/
structure Headers.Unsigned (h : Headers) : Prop where
  distinct : h.Distinct
  filled : ∀ e ∈ h, e.2 ≠ []
  oneLine : ∀ e ∈ h, .char '\n' ∉ e.2
  named : ∀ e ∈ h, e.1 ∈ Draft.contentNames ∨
    (e.1 = Location.renameSourceHeader ∧ ∀ c ∈ e.2, Url.isVisible c = true)

namespace Operation

variable {loc : Location} {op : Operation}

theorem ne_nil_of_mem_headers {o : WriteOptions} {e : Text × Text} (h : e ∈ o.headers) :
    e.2 ≠ [] := by
  obtain ⟨append, contentType, contentDisposition⟩ := o
  rcases List.mem_append.mp h with h | h
  · cases contentType with
    | none => cases h
    | some value =>
        dsimp only at h
        split at h
        · cases h
        · next hmore =>
          rw [List.mem_singleton.mp h]
          simpa using hmore
  · cases contentDisposition with
    | none => cases h
    | some value =>
        dsimp only at h
        split at h
        · cases h
        · next hmore =>
          rw [List.mem_singleton.mp h]
          simpa using hmore

theorem headerText_ne_nil {r : ByteRange} {t : Text} (h : r.headerText = .ok t) : t ≠ [] := by
  obtain ⟨first, _, hrest⟩ := bind_ok h
  cases hsize : r.size with
  | none =>
      rw [hsize] at hrest
      cases hrest
      exact List.cons_ne_nil _ _
  | some size =>
      rw [hsize] at hrest
      obtain ⟨last, _, ht⟩ := bind_ok hrest
      cases ht
      exact List.cons_ne_nil _ _

/-- The headers of a draft have values, and are about content or name a source. -/
theorem mem_draft_headers (hloc : loc.Sited) {d : Draft} (hdraft : op.draft loc = .ok d)
    {e : Text × Text} (he : e ∈ d.headers) :
    e.2 ≠ [] ∧ (e.1 ∈ Draft.contentNames ∨
      (e.1 = Location.renameSourceHeader ∧ ∀ c ∈ e.2, Url.isVisible c = true)) := by
  have hlength (n : Nat) : (lengthHeader n).2 ≠ [] ∧ ((lengthHeader n).1 ∈ Draft.contentNames ∨
      ((lengthHeader n).1 = Location.renameSourceHeader ∧
        ∀ c ∈ (lengthHeader n).2, Url.isVisible c = true)) :=
    ⟨Text.ofNat_ne_nil n, .inl List.mem_cons_self⟩
  cases op with
  | create path resource options body =>
      obtain ⟨url, _, hd⟩ := bind_ok hdraft
      cases hd
      rcases List.mem_cons.mp he with rfl | he
      · exact hlength 0
      · cases options with
        | none => cases he
        | some options =>
            refine ⟨ne_nil_of_mem_headers he, .inl ?_⟩
            rcases WriteOptions.mem_headers he with ⟨hname, _⟩ | ⟨hname, _⟩ <;> rw [hname] <;> decide
  | properties path =>
      obtain ⟨url, _, hd⟩ := bind_ok hdraft
      cases hd
      cases he
  | read path range =>
      rw [draft_read] at hdraft
      obtain ⟨headers, hheaders, hrest⟩ := bind_ok hdraft
      obtain ⟨url, _, hd⟩ := bind_ok hrest
      cases hd
      obtain ⟨hname, r, _, hvalue⟩ := mem_rangeHeaders hheaders he
      exact ⟨headerText_ne_nil hvalue, .inl (by rw [hname]; decide)⟩
  | delete path =>
      obtain ⟨url, _, hd⟩ := bind_ok hdraft
      cases hd
      cases he
  | rename source target =>
      obtain ⟨url, _, hrest⟩ := bind_ok hdraft
      obtain ⟨value, hvalue, hd⟩ := bind_ok hrest
      cases hd
      rcases List.mem_cons.mp he with rfl | he
      · obtain ⟨hne, hvisible⟩ := hloc.renameSource_visible hvalue
        exact ⟨hne, .inr ⟨rfl, hvisible⟩⟩
      · rw [List.mem_singleton.mp he]
        exact hlength 0
  | update path position body commit =>
      obtain ⟨_, _, hrest⟩ := bind_ok hdraft
      obtain ⟨url, _, hd⟩ := bind_ok hrest
      cases hd
      rw [List.mem_singleton.mp he]
      exact hlength body.length
  | flush path position =>
      obtain ⟨url, _, hrest⟩ := bind_ok hdraft
      obtain ⟨_, _, hd⟩ := bind_ok hrest
      cases hd
      rw [List.mem_singleton.mp he]
      exact hlength 0
  | list path continuation limit =>
      obtain ⟨_, _, hd⟩ := bind_ok hdraft
      cases hd
      cases he

end Operation

namespace Draft

theorem prepare_valid {d : Draft} {r : Request} (h : d.prepare = .ok r) :
    ∀ e ∈ d.headers, isHeaderValue e.2 = true := by
  obtain ⟨url, _, hrest⟩ := bind_ok h
  split at hrest
  · next hvalid =>
    intro e he
    have hboth := List.all_eq_true.mp hvalid e he
    exact (Bool.and_eq_true _ _ ▸ hboth).2
  · cases hrest

theorem newline_not_mem_of_isHeaderValue {value : Text} (h : isHeaderValue value = true) :
    .char '\n' ∉ value := by
  intro hmem
  unfold isHeaderValue hasLineEnd at h
  simp only [Bool.and_eq_true, Bool.not_eq_true', List.any_eq_false, Bool.or_eq_true,
    beq_iff_eq, not_or] at h
  exact (h.2 _ hmem).2 rfl

theorem withLength_unsigned {h : Headers} (hh : h.Unsigned) (method : Text) (body : Bytes) :
    (withLength method h body).Unsigned := by
  have hset (n : Nat) : (h.set contentLength (Text.ofNat n)).Unsigned := by
    have hvisible : ∀ c ∈ Text.ofNat n, Url.isVisible c = true := fun c hc =>
      Url.isVisible_of_isUnreserved (Url.isUnreserved_of_mem_ofNat hc)
    refine ⟨hh.distinct.set _ _, fun e he => ?_, fun e he => ?_, fun e he => ?_⟩ <;>
      rcases Headers.mem_set he with rfl | he
    · exact Text.ofNat_ne_nil n
    · exact hh.filled e he
    · exact newline_not_mem_of_visible hvisible
    · exact hh.oneLine e he
    · exact .inl List.mem_cons_self
    · exact hh.named e he
  unfold withLength
  split
  · exact hset body.length
  · split
    · exact hset 0
    · exact hh

end Draft

/-- The headers of a request that is not signed. -/
theorem Location.Sited.request_headers {loc : Location} (hloc : loc.Sited) {op : Operation}
    {r : Request} (hrequest : op.request loc = .ok r) : r.headers.Unsigned := by
  obtain ⟨d, hdraft, hready⟩ := bind_ok hrequest
  obtain ⟨_, _, _, hheaders⟩ := Draft.prepare_ok hready
  obtain ⟨parts, hparts, hat, _⟩ := hloc.request_url hrequest
  rw [Draft.withUserInfo_eq hparts hat] at hheaders
  have hgiven : (Headers.ofList d.headers).Unsigned := by
    refine ⟨Headers.distinct_ofList _, fun e he => ?_, fun e he => ?_, fun e he => ?_⟩ <;>
      replace he := Headers.mem_ofList he
    · exact (Operation.mem_draft_headers hloc hdraft he).1
    · exact Draft.newline_not_mem_of_isHeaderValue (Draft.prepare_valid hready e he)
    · exact (Operation.mem_draft_headers hloc hdraft he).2
  rw [← Except.ok.inj hheaders]
  exact Draft.withLength_unsigned hgiven _ _

end DataLake
