import DataLake.Operation
import DataLake.Proofs.Headers
import DataLake.Proofs.SentUrl
import DataLake.Signing

/-!
The canonical form of a request, taken apart again. It is a text of lines: the method
and the values that are signed by position, one line for each header of the service,
the account and the path, and one line for each key of the query. Nothing but what the
lines hold tells where one section ends, so requests with the same canonical form have
the same sections only because the values of the first one have no line ends, the
names of the second one begin with a letter, and the third one begins with a slash.
-/

namespace DataLake

namespace Text

variable {sep : CodePoint} {t t' u u' : Text} {pieces pieces' : List Text}

theorem append_cons_inj (ht : sep ∉ t) (ht' : sep ∉ t') (h : t ++ sep :: u = t' ++ sep :: u') :
    t = t' ∧ u = u' := by
  have hcut := cutFirst_append_cons ht u
  rw [h, cutFirst_append_cons ht' u', Prod.mk.injEq, Option.some.injEq] at hcut
  exact ⟨hcut.1.symm, hcut.2.symm⟩

theorem joinWith_inj (hnone : pieces = [] ↔ pieces' = []) (hfree : ∀ piece ∈ pieces, sep ∉ piece)
    (hfree' : ∀ piece ∈ pieces', sep ∉ piece)
    (h : joinWith [sep] pieces = joinWith [sep] pieces') : pieces = pieces' := by
  by_cases hne : pieces = []
  · rw [hne, hnone.mp hne]
  · rw [← splitOn_joinWith hne hfree, h, splitOn_joinWith (mt hnone.mpr hne) hfree']

/-- A single piece may have separators, if there are no more pieces on the other side. -/
theorem eq_of_joinWith_eq {sep : Text} (hle : pieces.length ≤ 1) (hle' : pieces'.length ≤ 1)
    (hnone : pieces = [] ↔ pieces' = []) (h : joinWith sep pieces = joinWith sep pieces') :
    pieces = pieces' := by
  match pieces, pieces' with
  | [], _ => exact (hnone.mp rfl).symm
  | _, [] => exact hnone.mpr rfl
  | [piece], [piece'] =>
      rw [joinWith_singleton, joinWith_singleton] at h
      rw [h]

/-- Joined pieces that are as many as others are told apart from them, whatever follows. -/
theorem joinWith_append_inj (hne : pieces ≠ []) (hlength : pieces.length = pieces'.length)
    (hfree : ∀ piece ∈ pieces, sep ∉ piece) (hfree' : ∀ piece ∈ pieces', sep ∉ piece)
    (h : joinWith [sep] pieces ++ sep :: u = joinWith [sep] pieces' ++ sep :: u') :
    pieces = pieces' ∧ u = u' := by
  have hne' : pieces' ≠ [] := by
    rintro rfl
    exact hne (List.length_eq_zero_iff.mp hlength)
  have hsplit := congrArg (splitOn sep) h
  rw [splitOn_append_cons, splitOn_append_cons, splitOn_joinWith hne hfree,
    splitOn_joinWith hne' hfree'] at hsplit
  obtain ⟨hpieces, hrest⟩ := List.append_inj hsplit hlength
  have hjoined := congrArg (joinWith [sep]) hrest
  rw [joinWith_splitOn, joinWith_splitOn] at hjoined
  exact ⟨hpieces, hjoined⟩

theorem joinWith_cons_eq (sep : CodePoint) (t : Text) (pieces : List Text) :
    joinWith [sep] (t :: pieces) = t ++ pieces.flatMap (sep :: ·) := by
  induction pieces generalizing t with
  | nil => simp
  | cons piece pieces ih =>
      rw [joinWith_cons _ _ (List.cons_ne_nil _ _), ih]
      rfl

/-- Only the first of the joined pieces needs to be without separators to be told apart
from the others. -/
theorem joinWith_cons_inj (ht : sep ∉ t) (ht' : sep ∉ t')
    (h : joinWith [sep] (t :: pieces) = joinWith [sep] (t' :: pieces')) :
    t = t' ∧ (pieces = [] ↔ pieces' = []) ∧ joinWith [sep] pieces = joinWith [sep] pieces' := by
  have hcut {t : Text} (ht : sep ∉ t) (pieces : List Text) :
      cutFirst sep (joinWith [sep] (t :: pieces)) =
        (t, if pieces = [] then none else some (joinWith [sep] pieces)) := by
    cases pieces with
    | nil => rw [joinWith_singleton, cutFirst_of_not_mem ht, if_pos rfl]
    | cons piece pieces =>
        have hne : piece :: pieces ≠ [] := List.cons_ne_nil _ _
        rw [joinWith_cons _ _ hne, if_neg hne]
        exact cutFirst_append_cons ht _
  have hsame := hcut ht pieces
  rw [h, hcut ht' pieces', Prod.mk.injEq] at hsame
  obtain ⟨hfirst, hrest⟩ := hsame
  refine ⟨hfirst.symm, ?_⟩
  split at hrest <;> split at hrest
  · next hnone' hnone =>
    rw [hnone, hnone']
    exact ⟨Iff.rfl, rfl⟩
  · cases hrest
  · cases hrest
  · next hne' hne => exact ⟨iff_of_false hne hne', (Option.some.inj hrest).symm⟩

/-- Ended lines that begin with one character are told apart from what follows them, if
that begins otherwise. -/
theorem lines_append_inj {first : CodePoint}
    (hlines : ∀ piece ∈ pieces, sep ∉ piece ∧ piece.head? = some first)
    (hlines' : ∀ piece ∈ pieces', sep ∉ piece ∧ piece.head? = some first)
    (hu : u.head? ≠ some first) (hu' : u'.head? ≠ some first)
    (h : pieces.flatMap (· ++ [sep]) ++ u = pieces'.flatMap (· ++ [sep]) ++ u') :
    pieces = pieces' ∧ u = u' := by
  have hhead {piece : Text} (hpiece : piece.head? = some first) (pieces : List Text) (u : Text) :
      ((piece :: pieces).flatMap (· ++ [sep]) ++ u).head? = some first := by
    simp [hpiece]
  induction pieces generalizing pieces' with
  | nil =>
      cases pieces' with
      | nil => exact ⟨rfl, h⟩
      | cons piece' pieces' =>
          have hfirst := hhead (hlines' piece' List.mem_cons_self).2 pieces' u'
          rw [← h] at hfirst
          exact absurd hfirst hu
  | cons piece pieces ih =>
      cases pieces' with
      | nil =>
          have hfirst := hhead (hlines piece List.mem_cons_self).2 pieces u
          rw [h] at hfirst
          exact absurd hfirst hu'
      | cons piece' pieces' =>
          simp only [List.flatMap_cons, List.append_assoc, List.singleton_append] at h
          obtain ⟨rfl, hrest⟩ := append_cons_inj (hlines piece List.mem_cons_self).1
            (hlines' piece' List.mem_cons_self).1 h
          obtain ⟨rfl, rfl⟩ := ih (fun p hp => hlines p (List.mem_cons_of_mem _ hp))
            (fun p hp => hlines' p (List.mem_cons_of_mem _ hp)) hrest
          exact ⟨rfl, rfl⟩

end Text

namespace Signing

def namedLine (e : Text × Text) : Text :=
  e.1 ++ .char ':' :: e.2

theorem namedLines_inj {entries entries' : List (Text × Text)}
    (hnames : ∀ e ∈ entries, .char ':' ∉ e.1) (hnames' : ∀ e ∈ entries', .char ':' ∉ e.1)
    (h : entries.map namedLine = entries'.map namedLine) : entries = entries' := by
  induction entries generalizing entries' with
  | nil => exact (List.map_eq_nil_iff.mp h.symm).symm
  | cons e entries ih =>
      cases entries' with
      | nil => cases h
      | cons e' entries' =>
          rw [List.map_cons, List.map_cons, List.cons.injEq] at h
          obtain ⟨hname, hvalue⟩ := Text.append_cons_inj (hnames e List.mem_cons_self)
            (hnames' e' List.mem_cons_self) h.1
          rw [Prod.ext hname hvalue, ih (fun e he => hnames e (List.mem_cons_of_mem _ he))
            (fun e he => hnames' e (List.mem_cons_of_mem _ he)) h.2]

section Headers

variable {h h' : Headers}

/-- The headers of the service that the requests of this library have. -/
def ownHeaders : List Text :=
  [dateHeader, versionHeader, Location.renameSourceHeader]

/-- Distinct headers, with no others of the service than those that this library has. -/
structure Recognized (h : Headers) : Prop where
  distinct : h.Distinct
  own : ∀ e ∈ h, (Text.ofString "x-ms-").isPrefixOf (Text.lower e.1) = true → e.1 ∈ ownHeaders

private theorem ownHeaders_spec {name : Text} (hname : name ∈ ownHeaders) :
    Text.strip (Text.lower name) = name ∧
      (Text.ofString "x-ms-").isPrefixOf (Text.lower name) = true ∧
      name.head? = some (.char 'x') ∧ .char ':' ∉ name ∧ .char '\n' ∉ name := by
  revert name
  decide

/-- The headers in canonical form are those that are there, with their own names. -/
theorem Recognized.mem_serviceHeaders (hh : Recognized h) {e : Text × Text} :
    e ∈ serviceHeaders h ↔ e.1 ∈ ownHeaders ∧
      ∃ value, (e.1, value) ∈ h ∧ e.2 = Text.joinWith " " (Text.words value) := by
  unfold serviceHeaders
  simp only [List.mem_mergeSort, List.mem_map, List.mem_filter]
  constructor
  · rintro ⟨⟨name, value⟩, ⟨hmem, hservice⟩, rfl⟩
    have hname : name ∈ ownHeaders := hh.own _ hmem hservice
    rw [(ownHeaders_spec hname).1]
    exact ⟨hname, value, hmem, rfl⟩
  · rintro ⟨hname, value, hmem, hvalue⟩
    obtain ⟨hstrip, hservice, _⟩ := ownHeaders_spec hname
    exact ⟨_, ⟨hmem, hservice⟩, Prod.ext hstrip hvalue.symm⟩

private theorem newline_not_mem_words (value : Text) :
    .char '\n' ∉ Text.joinWith " " (Text.words value) := by
  intro hmem
  rcases Text.mem_joinWith hmem with hspace | ⟨word, hword, hmem⟩
  · revert hspace
    decide
  · have hblank := Text.isBlank_of_mem_words hword hmem
    revert hblank
    decide

theorem canonicalHeaders_eq (h : Headers) :
    canonicalHeaders h = ((serviceHeaders h).map namedLine).flatMap (· ++ [.char '\n']) := by
  unfold canonicalHeaders
  rw [List.flatMap_map]
  refine congrArg List.flatten (List.map_congr_left fun e _ => ?_)
  simp only [namedLine, List.append_assoc]
  rfl

private theorem Recognized.lines (hh : Recognized h) :
    ∀ line ∈ (serviceHeaders h).map namedLine,
      .char '\n' ∉ line ∧ line.head? = some (.char 'x') := by
  intro line hline
  obtain ⟨⟨name, value⟩, hmem, rfl⟩ := List.mem_map.mp hline
  obtain ⟨hname, given, _, rfl⟩ := hh.mem_serviceHeaders.mp hmem
  obtain ⟨_, _, hfirst, _, hnewline⟩ := ownHeaders_spec hname
  constructor
  · simp only [namedLine, List.mem_append, List.mem_cons, not_or]
    exact ⟨hnewline, by decide, newline_not_mem_words given⟩
  · simp only [namedLine, List.head?_append, hfirst, Option.some_or]

/-- The headers of the service are told apart from what follows them. -/
theorem canonicalHeaders_inj (hh : Recognized h) (hh' : Recognized h') {u u' : Text}
    (hu : u.head? = some (.char '/')) (hu' : u'.head? = some (.char '/'))
    (heq : canonicalHeaders h ++ u = canonicalHeaders h' ++ u') :
    serviceHeaders h = serviceHeaders h' ∧ u = u' := by
  have hother {u : Text} (hu : u.head? = some (.char '/')) : u.head? ≠ some (.char 'x') := by
    rw [hu]
    decide
  have hcolon {h : Headers} (hh : Recognized h) : ∀ e ∈ serviceHeaders h, .char ':' ∉ e.1 :=
    fun e he => (ownHeaders_spec (hh.mem_serviceHeaders.mp he).1).2.2.2.1
  rw [canonicalHeaders_eq, canonicalHeaders_eq] at heq
  obtain ⟨hlines, hrest⟩ := Text.lines_append_inj hh.lines hh'.lines (hother hu) (hother hu') heq
  exact ⟨namedLines_inj (hcolon hh) (hcolon hh') hlines, hrest⟩

private theorem Recognized.mem_of_get? (hh : Recognized h) {name value : Text}
    (hname : name ∈ ownHeaders) (hget : h.get? name = some value) : (name, value) ∈ h := by
  have hdiffer : ∀ own ∈ ownHeaders, ∀ other ∈ ownHeaders, Text.lower own = Text.lower other →
      own = other := by
    decide
  obtain ⟨spelled, hmem, hsame⟩ := Headers.exists_of_get? hget
  have hlower : Text.lower spelled = Text.lower name := beq_iff_eq.mp hsame
  have hspelled : spelled ∈ ownHeaders := by
    apply hh.own _ hmem
    rw [hlower]
    exact (ownHeaders_spec hname).2.1
  rwa [← hdiffer _ hspelled _ hname hlower]

/-- A header of the service whose value has no blanks can be read off the canonical form. -/
theorem get?_eq_of_serviceHeaders_eq (hh : Recognized h) (hh' : Recognized h') {name : Text}
    (hname : name ∈ ownHeaders)
    (hblank : ∀ value, (name, value) ∈ h → ∀ c ∈ value, Text.isBlank c = false)
    (hblank' : ∀ value, (name, value) ∈ h' → ∀ c ∈ value, Text.isBlank c = false)
    (hsame : serviceHeaders h = serviceHeaders h') : h.get? name = h'.get? name := by
  have hwords {value : Text} (hvalue : ∀ c ∈ value, Text.isBlank c = false) :
      Text.joinWith " " (Text.words value) = value := by
    rw [Text.words_of_not_blank hvalue]
    cases value <;> simp [Text.joinWith]
  have hstated {h : Headers} (hh : Recognized h)
      (hblank : ∀ value, (name, value) ∈ h → ∀ c ∈ value, Text.isBlank c = false) (value : Text) :
      h.get? name = some value ↔ (name, value) ∈ serviceHeaders h := by
    constructor
    · intro hget
      have hmem := hh.mem_of_get? hname hget
      exact hh.mem_serviceHeaders.mpr ⟨hname, value, hmem, (hwords (hblank value hmem)).symm⟩
    · intro hservice
      obtain ⟨_, given, hmem, hvalue⟩ := hh.mem_serviceHeaders.mp hservice
      have hgiven : value = given := hvalue.trans (hwords (hblank given hmem))
      exact hgiven ▸ hh.distinct.get?_of_mem hmem
  refine Option.ext fun value => ?_
  rw [hstated hh hblank, hstated hh' hblank', hsame]

end Headers

section Query

variable {fields fields' : List (Text × Text)}

def lowered (fields : List (Text × Text)) : List (Text × Text) :=
  fields.map fun (key, value) => (Text.lower key, value)

/-- The keys among fields in canonical order, each with its values. -/
def queryLines (fields : List (Text × Text)) : List (Text × Text) :=
  (((fields.map Prod.fst).eraseDups).mergeSort Text.atMost).map fun key =>
    (key, Text.joinWith "," (valuesOf fields key))

def fieldLines (fields : List (Text × Text)) : List Text :=
  (queryLines (lowered fields)).map namedLine

private theorem eraseDups_of_nodup {keys : List Text} (h : keys.Nodup) : keys.eraseDups = keys := by
  induction keys with
  | nil => rfl
  | cons key keys ih =>
      obtain ⟨hnew, hrest⟩ := List.nodup_cons.mp h
      have hkept : (keys.filter fun other => !other == key) = keys := by
        rw [List.filter_eq_self]
        intro other hother
        have hne : other ≠ key := by
          rintro rfl
          exact hnew hother
        simp [hne]
      rw [List.eraseDups_cons, hkept, ih hrest]

private theorem filter_key_of_nodup (h : (fields.map Prod.fst).Nodup) {field : Text × Text}
    (hfield : field ∈ fields) : (fields.filter fun f => f.1 == field.1) = [field] := by
  induction fields with
  | nil => cases hfield
  | cons first fields ih =>
      obtain ⟨hnew, hrest⟩ := List.nodup_cons.mp h
      have hother {f : Text × Text} (hf : f ∈ fields) : first.1 ≠ f.1 := fun heq =>
        hnew (heq ▸ List.mem_map_of_mem hf)
      rcases List.mem_cons.mp hfield with rfl | hfield
      · rw [List.filter_cons_of_pos (by simp), List.filter_eq_nil_iff.mpr]
        intro f hf
        simpa using (hother hf).symm
      · rw [List.filter_cons_of_neg (by simpa using hother hfield), ih hrest hfield]

/-- With distinct keys the canonical form only sorts the fields. -/
theorem queryLines_perm (h : (fields.map Prod.fst).Nodup) : (queryLines fields).Perm fields := by
  have hkeys : (((fields.map Prod.fst).eraseDups).mergeSort Text.atMost).Perm
      (fields.map Prod.fst) := by
    have hperm := List.mergeSort_perm ((fields.map Prod.fst).eraseDups) Text.atMost
    rwa [eraseDups_of_nodup h] at hperm ⊢
  have hvalues : (fields.map Prod.fst).map (fun key =>
      (key, Text.joinWith "," (valuesOf fields key))) = fields := by
    rw [List.map_map]
    refine (List.map_congr_left fun field hfield => ?_).trans (List.map_id _)
    simp only [Function.comp_apply, valuesOf, filter_key_of_nodup h hfield, List.map_singleton,
      List.mergeSort_singleton, Text.joinWith_singleton]
    rfl
  have hlines := hkeys.map fun key => (key, Text.joinWith "," (valuesOf fields key))
  rw [hvalues] at hlines
  exact hlines

theorem canonicalResource_eq (account : Text) {parts : Url.Parts} (hpath : parts.path ≠ []) :
    canonicalResource account parts = .char '/' :: (account ++ Text.joinWith "\n"
      (parts.path :: fieldLines (Url.decodeQuery parts.query))) := by
  have hjoined := Text.joinWith_cons_eq (.char '\n') parts.path
    (fieldLines (Url.decodeQuery parts.query))
  have hline (fields : List (Text × Text)) : keyLine fields = fun key =>
      .char '\n' :: namedLine (key, Text.joinWith "," (valuesOf fields key)) := by
    funext key
    simp only [keyLine, namedLine, List.append_assoc]
    rfl
  change _ = .char '/' :: (account ++ Text.joinWith [.char '\n'] _)
  rw [hjoined]
  unfold canonicalResource
  dsimp only
  rw [if_neg (by simpa using hpath)]
  simp only [fieldLines, queryLines, lowered, List.map_map, List.flatMap_map, hline, Function.comp_apply,
    List.append_assoc]
  rfl

end Query

/-- A request of which every section of the canonical form can be found again. -/
structure Legible (r : Request) (parts : Url.Parts) : Prop where
  comesApart : Url.Parts.ofUrl? r.url = some parts
  path : parts.path ≠ [] ∧ .char '\n' ∉ parts.path
  method : .char '\n' ∉ Text.upper r.method
  values : ∀ value ∈ signedHeaders r.headers, .char '\n' ∉ value
  headers : Recognized r.headers

/-- Legible requests with the same string to sign agree on every section of it. -/
theorem sections_of_stringToSign_eq {r r' : Request} {parts parts' : Url.Parts} {account : Text}
    (hr : Legible r parts) (hr' : Legible r' parts')
    (h : stringToSign r account = stringToSign r' account) :
    Text.upper r.method = Text.upper r'.method ∧
      signedHeaders r.headers = signedHeaders r'.headers ∧
      serviceHeaders r.headers = serviceHeaders r'.headers ∧
      Text.joinWith "\n" (parts.path :: fieldLines (Url.decodeQuery parts.query)) =
        Text.joinWith "\n" (parts'.path :: fieldLines (Url.decodeQuery parts'.query)) := by
  unfold stringToSign at h
  rw [hr.comesApart, hr'.comesApart] at h
  simp only [Except.ok.injEq, List.append_assoc] at h
  have hfree {r : Request} {parts : Url.Parts} (hr : Legible r parts) :
      ∀ line ∈ Text.upper r.method :: signedHeaders r.headers, .char '\n' ∉ line := by
    intro line hline
    rcases List.mem_cons.mp hline with rfl | hline
    · exact hr.method
    · exact hr.values line hline
  have hlength : (Text.upper r.method :: signedHeaders r.headers).length =
      (Text.upper r'.method :: signedHeaders r'.headers).length := rfl
  obtain ⟨hlines, hrest⟩ :=
    Text.joinWith_append_inj (List.cons_ne_nil _ _) hlength (hfree hr) (hfree hr') h
  rw [List.cons.injEq] at hlines
  rw [canonicalResource_eq account hr.path.1, canonicalResource_eq account hr'.path.1] at hrest
  obtain ⟨hservice, hresource⟩ := canonicalHeaders_inj hr.headers hr'.headers rfl rfl hrest
  rw [List.cons.injEq] at hresource
  exact ⟨hlines.1, hlines.2, hservice, List.append_cancel_left hresource.2⟩

end Signing

end DataLake
