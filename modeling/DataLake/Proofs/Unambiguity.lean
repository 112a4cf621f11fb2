import DataLake.Proofs.CanonicalForm
import DataLake.Proofs.Signature
import DataLake.Proofs.Unsigned

/-!
What a signature says. The requests of this library are such that every section of their
canonical form can be found again, so that two requests with the same string to sign ask
for the same. Only a new file may have a query value of several lines; it is the last
line of its canonical form, and no other request of its method has a query.
-/

namespace DataLake

/-- An operation whose texts keep to one line in a query that has several values. -/
def Operation.OneLine : Operation → Prop
  | list path continuation _ => .char '\n' ∉ path ∧ ∀ t ∈ continuation, .char '\n' ∉ t
  | _ => True

/-- Requests that ask for the same: the same method on the same path, with the same query
parameters, range, type of the content and source of a move. -/
structure Request.AsksAlike (r r' : Request) : Prop where
  method : r.method = r'.method
  url : ∃ parts parts', Url.Parts.ofUrl? r.url = some parts ∧ Url.Parts.ofUrl? r'.url = some parts' ∧
    parts.path = parts'.path ∧ Url.decodeQuery parts.query = Url.decodeQuery parts'.query
  range : r.headers.get? "Range" = r'.headers.get? "Range"
  contentType : r.headers.get? "Content-Type" = r'.headers.get? "Content-Type"
  renameSource : r.headers.get? Location.renameSourceHeader =
    r'.headers.get? Location.renameSourceHeader

namespace Operation

variable {op : Operation}

theorem upper_verb : Text.upper op.verb = op.verb := by
  cases op <;> rfl

theorem newline_not_mem_verb : .char '\n' ∉ op.verb := by
  cases op <;> simp only [verb] <;> decide

end Operation

namespace Signing

section Signed

variable {version : Text} {now : Int} {c : Credential} {plain r : Request}

/-- The names of the headers that signing adds. -/
def addedNames : List Text :=
  [dateHeader, versionHeader, Draft.authorization]

theorem sign_headers (h : sign version now c plain = (r, .ok ())) : ∃ date value, r.headers =
    ((plain.headers.set dateHeader date).set versionHeader version).set Draft.authorization
      value := by
  obtain ⟨date, dated, value, _, hheaders, _, rfl⟩ := sign_parts h
  exact ⟨date, value, by rw [← hheaders]⟩

theorem mem_signed (h : sign version now c plain = (r, .ok ())) {e : Text × Text}
    (he : e ∈ r.headers) : e.1 ∈ addedNames ∨ e ∈ plain.headers := by
  obtain ⟨date, value, hheaders⟩ := sign_headers h
  rw [hheaders] at he
  rcases Headers.mem_set he with rfl | he
  · exact .inl (show Draft.authorization ∈ addedNames by decide)
  · rcases Headers.mem_set he with rfl | he
    · exact .inl (show versionHeader ∈ addedNames by decide)
    · rcases Headers.mem_set he with rfl | he
      · exact .inl (show dateHeader ∈ addedNames by decide)
      · exact .inr he

theorem get?_signed (h : sign version now c plain = (r, .ok ())) {name : Text}
    (hname : ∀ added ∈ addedNames, Text.sameLower added name = false) :
    r.headers.get? name = plain.headers.get? name := by
  obtain ⟨date, value, hheaders⟩ := sign_headers h
  rw [hheaders, Headers.get?_set_of_ne (hname _ (by decide)),
    Headers.get?_set_of_ne (hname _ (by decide)), Headers.get?_set_of_ne (hname _ (by decide))]

theorem newline_not_mem_signedHeaders {h : Headers} (hlines : ∀ e ∈ h, .char '\n' ∉ e.2) :
    ∀ value ∈ signedHeaders h, .char '\n' ∉ value := by
  have hfound (name : String) : .char '\n' ∉ (h.get? name).getD [] := by
    cases hget : h.get? name with
    | none => exact List.not_mem_nil
    | some value =>
        obtain ⟨spelled, hmem, _⟩ := Headers.exists_of_get? hget
        exact hlines _ hmem
  have hlength : .char '\n' ∉ (if (h.get? "Content-Length").getD [] == "0" then []
      else (h.get? "Content-Length").getD []) := by
    split
    · exact List.not_mem_nil
    · exact hfound "Content-Length"
  simp only [signedHeaders, List.forall_mem_cons, hfound, hlength, not_false_eq_true,
    List.not_mem_nil, false_implies, implies_true, and_true]

/-- Every section of the string to sign of a signed request can be found again. -/
theorem signed_legible {loc : Location} (hloc : loc.Sited) {op : Operation}
    (hplain : op.request loc = .ok plain) (hsign : sign version now c plain = (r, .ok ())) :
    r.method = op.verb ∧ ∃ parts, Legible r parts ∧
      Url.decodeQuery parts.query = op.parameters loc := by
  have hunsigned := hloc.request_headers hplain
  obtain ⟨parts, hparts, _, hpath, hvisible, hquery⟩ := hloc.request_url hplain
  obtain ⟨_, _, _, hverb, _⟩ := Operation.request_ok hplain
  obtain ⟨hmethod, hurl, _⟩ := sign_keeps version now c plain
  rw [hsign] at hmethod hurl
  obtain ⟨date, value, hheaders⟩ := sign_headers hsign
  have hmethod : r.method = op.verb := hmethod.trans hverb
  refine ⟨hmethod, parts, ⟨?_, ⟨hpath, newline_not_mem_of_visible hvisible⟩, ?_, ?_, ?_, ?_⟩, hquery⟩
  · rw [← hparts]
    exact congrArg _ hurl
  · rw [hmethod, Operation.upper_verb]
    exact Operation.newline_not_mem_verb
  · rw [hheaders, signedHeaders_set (by decide), signedHeaders_set (by decide),
      signedHeaders_set (by decide)]
    exact newline_not_mem_signedHeaders hunsigned.oneLine
  · rw [hheaders]
    exact ((hunsigned.distinct.set _ _).set _ _).set _ _
  · have hadded : ∀ name ∈ addedNames ++ Draft.contentNames,
        (Text.ofString "x-ms-").isPrefixOf (Text.lower name) = true → name ∈ ownHeaders := by
      decide
    intro e he
    rcases mem_signed hsign he with hname | he
    · exact hadded _ (List.mem_append_left _ hname)
    · rcases hunsigned.named e he with hname | ⟨hname, _⟩
      · exact hadded _ (List.mem_append_right _ hname)
      · rw [hname]
        exact fun _ => by decide

/-- The source of a move is a text of visible characters in the header of a signed request. -/
theorem visible_of_mem_signed (hunsigned : plain.headers.Unsigned)
    (hsign : sign version now c plain = (r, .ok ())) {value : Text}
    (hmem : (Location.renameSourceHeader, value) ∈ r.headers) :
    ∀ c ∈ value, Url.isVisible c = true := by
  have hother : Location.renameSourceHeader ∉ addedNames ++ Draft.contentNames := by decide
  rcases mem_signed hsign hmem with hname | hmem
  · exact absurd (List.mem_append_left _ hname) hother
  · rcases hunsigned.named _ hmem with hname | ⟨_, hvisible⟩
    · exact absurd (List.mem_append_right _ hname) hother
    · exact hvisible

end Signed

end Signing

namespace Operation

variable {loc : Location} {op op' : Operation}

/-- Fields whose keys keep to one order are the same if the same fields are among them. -/
private theorem fields_eq_of_mem_iff {order : List Text} (horder : order.Nodup)
    {fields fields' : List (Text × Text)} (hkeys : (fields.map Prod.fst).Sublist order)
    (hkeys' : (fields'.map Prod.fst).Sublist order) (hmem : ∀ f, f ∈ fields ↔ f ∈ fields') :
    fields = fields' := by
  have hplaces : order.Pairwise fun a b => order.idxOf a < order.idxOf b := by
    rw [List.pairwise_iff_getElem]
    intro i j hi hj hlt
    rwa [horder.idxOf_getElem, horder.idxOf_getElem]
  have hsorted {fields : List (Text × Text)} (hkeys : (fields.map Prod.fst).Sublist order) :
      fields.Pairwise fun f g => order.idxOf f.1 < order.idxOf g.1 := by
    have hplaced := hplaces.sublist hkeys
    rwa [List.pairwise_map] at hplaced
  have hnodup {fields : List (Text × Text)} (hkeys : (fields.map Prod.fst).Sublist order) :
      fields.Nodup := by
    refine (hsorted hkeys).imp fun hlt => ?_
    rintro rfl
    exact Nat.lt_irrefl _ hlt
  have hperm := (List.perm_ext_iff_of_nodup (hnodup hkeys) (hnodup hkeys')).mpr hmem
  exact hperm.eq_of_pairwise (fun _ _ _ _ hlt hgt => absurd hgt (Nat.lt_asymm hlt))
    (hsorted hkeys) (hsorted hkeys')

/-- The names of the parameters, in an order that the query of each operation keeps to. -/
def fieldNames : List Text :=
  ["resource", "recursive", "directory", "maxResults", "continuation", "action", "position",
    "flush", "close"]

theorem parameters_names (op : Operation) (loc : Location) :
    ((op.parameters loc).map Prod.fst).Sublist fieldNames := by
  cases op with
  | create | properties | flush =>
      simp only [parameters, queryField, List.map_cons, List.map_nil]
      decide
  | read | delete | rename => exact List.nil_sublist _
  | update path position body commit =>
      cases commit <;> simp only [parameters, queryField, List.map_append, List.map_cons,
        List.map_nil, if_true, if_false, Bool.false_eq_true] <;> decide
  | list path continuation limit =>
      simp only [parameters, List.map_append]
      generalize given continuation = token
      split <;> cases limit <;> cases token <;>
        simp only [queryField, List.map_cons, List.map_nil, Option.toList] <;> decide

/-- Parameters whose names are in lower case, and with them the parameters themselves. -/
theorem mem_lowered_parameters {field : Text × Text} (hname : field.1 ∈ fieldNames) :
    (Text.lower field.1, field.2) ∈ Signing.lowered (op.parameters loc) ↔
      field ∈ op.parameters loc := by
  have hdiffer : ∀ name ∈ fieldNames, ∀ other ∈ fieldNames, Text.lower name = Text.lower other →
      name = other := by
    decide
  unfold Signing.lowered
  rw [List.mem_map]
  constructor
  · rintro ⟨other, hmem, heq⟩
    rw [Prod.mk.injEq] at heq
    have hother := (parameters_names op loc).subset (List.mem_map_of_mem hmem)
    have hsame : other = field := Prod.ext (hdiffer _ hother _ hname heq.1) heq.2
    rwa [← hsame]
  · exact fun hmem => ⟨field, hmem, rfl⟩

theorem parameters_eq_of_perm
    (h : (Signing.lowered (op.parameters loc)).Perm (Signing.lowered (op'.parameters loc))) :
    op.parameters loc = op'.parameters loc := by
  refine fields_eq_of_mem_iff (by decide) (parameters_names op loc)
    (parameters_names op' loc) fun field => ?_
  constructor
  · intro hmem
    have hname := (parameters_names op loc).subset (List.mem_map_of_mem hmem)
    exact (mem_lowered_parameters hname).mp (h.mem_iff.mp ((mem_lowered_parameters hname).mpr hmem))
  · intro hmem
    have hname := (parameters_names op' loc).subset (List.mem_map_of_mem hmem)
    exact (mem_lowered_parameters hname).mp (h.mem_iff.mpr ((mem_lowered_parameters hname).mpr hmem))

/-- The query of an operation in canonical form: its parameters, sorted. -/
theorem queryLines_parameters (op : Operation) (loc : Location) :
    (Signing.queryLines (Signing.lowered (op.parameters loc))).Perm
      (Signing.lowered (op.parameters loc)) := by
  apply Signing.queryLines_perm
  have hkeys := (parameters_names op loc).map Text.lower
  have hnodup : (fieldNames.map Text.lower).Nodup := by decide
  have hlowered : (Signing.lowered (op.parameters loc)).map Prod.fst =
      ((op.parameters loc).map Prod.fst).map Text.lower := by
    simp only [Signing.lowered, List.map_map]
    rfl
  rw [hlowered]
  exact hnodup.sublist hkeys

theorem name_of_mem_queryLines {e : Text × Text}
    (he : e ∈ Signing.queryLines (Signing.lowered (op.parameters loc))) :
    .char ':' ∉ e.1 ∧ .char '\n' ∉ e.1 := by
  have hnames : ∀ name ∈ fieldNames, .char ':' ∉ Text.lower name ∧ .char '\n' ∉ Text.lower name := by
    decide
  obtain ⟨field, hmem, rfl⟩ := List.mem_map.mp ((queryLines_parameters op loc).mem_iff.mp he)
  exact hnames _ ((parameters_names op loc).subset (List.mem_map_of_mem hmem))

/-- No query but that of a new file has a value of several lines. -/
theorem newline_not_mem_parameters (hloc : loc.Sited) (hop : op.OneLine) (hverb : op.verb ≠ "PUT")
    {field : Text × Text} (h : field ∈ op.parameters loc) : .char '\n' ∉ field.2 := by
  have hqueried : ∀ t ∈ op.queried, .char '\n' ∉ t := by
    cases op with
    | create => exact absurd rfl hverb
    | list path continuation limit =>
        obtain ⟨hpath, htoken⟩ := hop
        simpa [queried, hpath] using htoken
    | _ => exact fun t ht => absurd ht List.not_mem_nil
  obtain ⟨name, value, rfl, hvalue⟩ := mem_parameters h
  intro hmem
  rcases hvalue _ hmem with hvisible | hroot | ⟨t, ht, hmem⟩
  · revert hvisible
    decide
  · exact hloc.root hroot
  · exact hqueried t ht hmem

theorem newline_not_mem_fieldLines (hloc : loc.Sited) (hop : op.OneLine) (hverb : op.verb ≠ "PUT") :
    ∀ line ∈ Signing.fieldLines (op.parameters loc), .char '\n' ∉ line := by
  intro line hline
  obtain ⟨e, he, rfl⟩ := List.mem_map.mp hline
  obtain ⟨field, hmem, rfl⟩ := List.mem_map.mp ((queryLines_parameters op loc).mem_iff.mp he)
  simp only [Signing.namedLine, List.mem_append, List.mem_cons, not_or]
  exact ⟨(name_of_mem_queryLines he).2, by decide,
    newline_not_mem_parameters hloc hop hverb hmem⟩

/-- A request that creates or moves has at most one parameter. -/
theorem fieldLines_le_one (hverb : op.verb = "PUT") :
    (Signing.fieldLines (op.parameters loc)).length ≤ 1 := by
  unfold Signing.fieldLines
  rw [List.length_map, (queryLines_parameters op loc).length_eq]
  unfold Signing.lowered
  rw [List.length_map]
  cases op with
  | create | rename => simp [parameters]
  | _ => cases hverb

/-- The lines of the query tell the parameters of operations with the same method. -/
theorem parameters_eq_of_lines (hloc : loc.Sited) (hop : op.OneLine) (hop' : op'.OneLine)
    (hverb : op.verb = op'.verb)
    (hnone : Signing.fieldLines (op.parameters loc) = [] ↔
      Signing.fieldLines (op'.parameters loc) = [])
    (hjoined : Text.joinWith "\n" (Signing.fieldLines (op.parameters loc)) =
      Text.joinWith "\n" (Signing.fieldLines (op'.parameters loc))) :
    op.parameters loc = op'.parameters loc := by
  have hlines : Signing.fieldLines (op.parameters loc) = Signing.fieldLines (op'.parameters loc) := by
    by_cases hput : op.verb = "PUT"
    · exact Text.eq_of_joinWith_eq (fieldLines_le_one hput) (fieldLines_le_one (hverb ▸ hput)) hnone
        hjoined
    · exact Text.joinWith_inj hnone (newline_not_mem_fieldLines hloc hop hput)
        (newline_not_mem_fieldLines hloc hop' (hverb ▸ hput)) hjoined
  have hsame := Signing.namedLines_inj (fun e he => (name_of_mem_queryLines he).1)
    (fun e he => (name_of_mem_queryLines he).1) hlines
  have hperm := queryLines_parameters op loc
  rw [hsame] at hperm
  exact parameters_eq_of_perm (hperm.symm.trans (queryLines_parameters op' loc))

end Operation

namespace Signing

variable {loc : Location} {op op' : Operation} {version account : Text} {now : Int}
  {c c' : Credential} {plain plain' r r' : Request}

/-- The values that are signed by position tell a header that is never empty. -/
theorem get?_eq_of_getD_eq {h h' : Headers} {name : Text} (hh : h.Unsigned) (hh' : h'.Unsigned)
    (heq : (h.get? name).getD [] = (h'.get? name).getD []) : h.get? name = h'.get? name := by
  have hfilled {h : Headers} (hh : h.Unsigned) : h.get? name ≠ some [] := by
    intro hget
    obtain ⟨spelled, hmem, _⟩ := Headers.exists_of_get? hget
    exact hh.filled _ hmem rfl
  cases hget : h.get? name with
  | none =>
      rw [hget] at heq
      cases hget' : h'.get? name with
      | none => rfl
      | some value' =>
          rw [hget'] at heq
          exact absurd (hget'.trans (congrArg some heq.symm)) (hfilled hh')
  | some value =>
      rw [hget] at heq
      cases hget' : h'.get? name with
      | none =>
          rw [hget'] at heq
          exact absurd (hget.trans (congrArg some heq)) (hfilled hh)
      | some value' =>
          rw [hget'] at heq
          exact congrArg some heq

/-- A signature pins down the operation. Two requests of one location that are signed at the
same time and for the same version of the protocol, with whatever credentials, ask for the
same if their strings to sign for an account are the same. -/
theorem asksAlike_of_stringToSign_eq (hloc : loc.Sited) (hop : op.OneLine) (hop' : op'.OneLine)
    (hplain : op.request loc = .ok plain) (hplain' : op'.request loc = .ok plain')
    (hsign : sign version now c plain = (r, .ok ()))
    (hsign' : sign version now c' plain' = (r', .ok ()))
    (heq : stringToSign r account = stringToSign r' account) : r.AsksAlike r' := by
  have hunsigned := hloc.request_headers hplain
  have hunsigned' := hloc.request_headers hplain'
  obtain ⟨hmethod, parts, hlegible, hquery⟩ := signed_legible hloc hplain hsign
  obtain ⟨hmethod', parts', hlegible', hquery'⟩ := signed_legible hloc hplain' hsign'
  obtain ⟨hverb, hpositional, hservice, hresource⟩ :=
    sections_of_stringToSign_eq hlegible hlegible' heq
  rw [hmethod, hmethod', Operation.upper_verb, Operation.upper_verb] at hverb
  rw [hquery, hquery'] at hresource
  obtain ⟨hpath, hnone, hjoined⟩ :=
    Text.joinWith_cons_inj hlegible.path.2 hlegible'.path.2 hresource
  have hparameters := Operation.parameters_eq_of_lines hloc hop hop' hverb hnone hjoined
  simp only [signedHeaders, List.cons.injEq] at hpositional
  obtain ⟨_, _, _, _, htype, _, _, _, _, _, hrange, _⟩ := hpositional
  refine ⟨?_, ⟨parts, parts', hlegible.comesApart, hlegible'.comesApart, hpath, ?_⟩, ?_, ?_, ?_⟩
  · rw [hmethod, hmethod', hverb]
  · rw [hquery, hquery', hparameters]
  · rw [get?_signed hsign (by decide), get?_signed hsign' (by decide)] at hrange ⊢
    exact get?_eq_of_getD_eq hunsigned hunsigned' hrange
  · rw [get?_signed hsign (by decide), get?_signed hsign' (by decide)] at htype ⊢
    exact get?_eq_of_getD_eq hunsigned hunsigned' htype
  · refine get?_eq_of_serviceHeaders_eq hlegible.headers hlegible'.headers (by decide) ?_ ?_ hservice
    · exact fun value hmem c hc =>
        (Operation.isBlank_of_isVisible (visible_of_mem_signed hunsigned hsign hmem c hc)).1
    · exact fun value hmem c hc =>
        (Operation.isBlank_of_isVisible (visible_of_mem_signed hunsigned' hsign' hmem c hc)).1

/-- A filesystem on this machine, with a root that is not in normal form. -/
def localShelf : Location :=
  { root := "shelf//", filesystem := "Data-1", endpoint := "http://localhost:10000" }

/-- A new file on the shelf, with a disposition and one byte. -/
def newFile (disposition : Text) (byte : UInt8) : Operation :=
  .create "a b" "file"
    (some { contentType := some "text/plain", contentDisposition := some disposition }) [byte]

/-- The request for a new file, with the headers that signing added. -/
def newFileRequest (disposition : Text) (byte : UInt8) (added : Headers) : Request where
  method := "PUT"
  url := "http://localhost:10000/Data-1/shelf/a%20b?resource=file"
  headers := ("Content-Length", "1") :: ("Content-Type", "text/plain") ::
    ("Content-Disposition", disposition) :: added
  body := [byte]

/-- The headers that signing with a token adds at the beginning of time. -/
def tokenHeaders (token : Text) : Headers :=
  [(dateHeader, "Thu, 01 Jan 1970 00:00:00 GMT"), (versionHeader, defaultVersion),
    (Draft.authorization, "Bearer " ++ token)]

/-- New files that differ in their disposition, their contents and the token only, of which
nothing is in the string to sign. -/
theorem asksAlike_newFiles :
    (newFile "inline" 1).request localShelf = .ok (newFileRequest "inline" 1 []) ∧
      (newFile "attachment" 2).request localShelf = .ok (newFileRequest "attachment" 2 []) ∧
      stringToSign (newFileRequest "inline" 1 (tokenHeaders "t")) "acct" =
        stringToSign (newFileRequest "attachment" 2 (tokenHeaders "u")) "acct" ∧
      (newFileRequest "inline" 1 (tokenHeaders "t")).AsksAlike
        (newFileRequest "attachment" 2 (tokenHeaders "u")) := by
  have hloc : localShelf.Sited := ⟨⟨"localhost:10000", by decide, .inl rfl⟩, by decide, by decide⟩
  have hplain : (newFile "inline" 1).request localShelf = .ok (newFileRequest "inline" 1 []) :=
    ok_of_toOption (by decide +kernel)
  have hplain' : (newFile "attachment" 2).request localShelf =
      .ok (newFileRequest "attachment" 2 []) :=
    ok_of_toOption (by decide +kernel)
  have hsign : sign defaultVersion 0 { token := some "t" } (newFileRequest "inline" 1 []) =
      (newFileRequest "inline" 1 (tokenHeaders "t"), .ok ()) := rfl
  have hsign' : sign defaultVersion 0 { token := some "u" } (newFileRequest "attachment" 2 []) =
      (newFileRequest "attachment" 2 (tokenHeaders "u"), .ok ()) := rfl
  have heq : stringToSign (newFileRequest "inline" 1 (tokenHeaders "t")) "acct" =
      stringToSign (newFileRequest "attachment" 2 (tokenHeaders "u")) "acct" := by
    have hown : (newFileRequest "inline" 1 (tokenHeaders "t")).headers.filter (fun e =>
          (Text.ofString "x-ms-").isPrefixOf (Text.lower e.1)) =
        (newFileRequest "attachment" 2 (tokenHeaders "u")).headers.filter (fun e =>
          (Text.ofString "x-ms-").isPrefixOf (Text.lower e.1)) := by
      decide +kernel
    refine stringToSign_congr ?_ ?_ ?_ ?_ "acct"
    · rfl
    · rfl
    · decide +kernel
    · unfold serviceHeaders
      rw [hown]
  have hop (disposition : Text) (byte : UInt8) : (newFile disposition byte).OneLine := trivial
  exact ⟨hplain, hplain', heq, asksAlike_of_stringToSign_eq hloc (hop "inline" 1)
    (hop "attachment" 2) hplain hplain' hsign hsign' heq⟩

end Signing

end DataLake
