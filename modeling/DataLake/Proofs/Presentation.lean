import DataLake.Proofs.QueryFields
import DataLake.Proofs.Signature
import DataLake.Proofs.Sorting
import Mathlib.Logic.Relation

/-!
Presentations of a request. The order of its headers and query fields, the case of their names,
the blanks in a header of the service and the signature itself are ways to present a request.
None of them changes the string to sign, one at a time or any number of them together.
-/

namespace DataLake

namespace Headers

variable {h h' : Headers} {e e' : Text × Text} {name : Text}

theorem Distinct.perm (hdistinct : h.Distinct) (hperm : h.Perm h') : h'.Distinct := by
  refine (hperm.pairwise_iff fun {e later} hother => ?_).mp hdistinct
  unfold Text.sameLower at hother ⊢
  rwa [beq_eq_false_iff_ne, ne_comm, ← beq_eq_false_iff_ne]

theorem Distinct.get?_eq_some_iff (hdistinct : h.Distinct) {value : Text} :
    h.get? name = some value ↔ ∃ n, (n, value) ∈ h ∧ Text.sameLower n name = true := by
  refine ⟨exists_of_get?, ?_⟩
  rintro ⟨n, hmem, hsame⟩
  have hfound := hdistinct.get?_of_mem hmem
  unfold get? Text.sameLower at *
  rwa [beq_iff_eq.mp hsame] at hfound

theorem Distinct.get?_perm (hdistinct : h.Distinct) (hperm : h.Perm h') :
    h.get? name = h'.get? name := by
  refine Option.ext fun value => ?_
  rw [hdistinct.get?_eq_some_iff, (hdistinct.perm hperm).get?_eq_some_iff]
  simp only [hperm.mem_iff]

/-- A header is found as well as another one whose name is the same in lower case. -/
theorem get?_replace (hname : Text.lower e.1 = Text.lower e'.1)
    (hvalue : Text.sameLower e.1 name = true → e.2 = e'.2) (before after : Headers) :
    get? (before ++ e :: after) name = get? (before ++ e' :: after) name := by
  have hsame : Text.sameLower e.1 name = Text.sameLower e'.1 name := by
    unfold Text.sameLower
    rw [hname]
  induction before with
  | nil =>
      rw [List.nil_append, List.nil_append, get?_cons, get?_cons, ← hsame]
      split
      · next hfound => rw [hvalue hfound]
      · rfl
  | cons first before ih => rw [List.cons_append, List.cons_append, get?_cons, get?_cons, ih]

theorem Distinct.replace (hname : Text.lower e.1 = Text.lower e'.1) {before after : Headers}
    (hdistinct : Distinct (before ++ e :: after)) : Distinct (before ++ e' :: after) := by
  unfold Distinct Text.sameLower at hdistinct ⊢
  rw [List.pairwise_append] at hdistinct ⊢
  simpa only [List.pairwise_cons, List.forall_mem_cons, hname] using hdistinct

end Headers

namespace Signing

/-- A header of the service is signed by its name in lower case and the words of its value. -/
theorem serviceHeaders_replace {e e' : Text × Text} (hname : Text.lower e.1 = Text.lower e'.1)
    (hvalue : (Text.ofString "x-ms-").isPrefixOf (Text.lower e.1) = true →
      Text.words e.2 = Text.words e'.2) (before after : Headers) :
    serviceHeaders (before ++ e :: after) = serviceHeaders (before ++ e' :: after) := by
  unfold serviceHeaders
  dsimp only
  rw [List.filter_append, List.filter_append, List.filter_cons, List.filter_cons, ← hname]
  split
  · next hservice =>
    rw [List.map_append, List.map_append, List.map_cons, List.map_cons, hname, hvalue hservice]
  · rfl

/-- One header is signed as well as another one, if their names are the same in lower case and
their values are the same as far as they are signed. -/
theorem stringToSign_replace {r : Request} {e : Text × Text} {before after : Headers}
    (hheaders : r.headers = before ++ e :: after) (e' : Text × Text)
    (hname : Text.lower e.1 = Text.lower e'.1)
    (hpositional : ∀ signed ∈ positionalNames, Text.sameLower e.1 signed = true → e.2 = e'.2)
    (hservice : (Text.ofString "x-ms-").isPrefixOf (Text.lower e.1) = true →
      Text.words e.2 = Text.words e'.2) (account : Text) :
    stringToSign { r with headers := before ++ e' :: after } account = stringToSign r account := by
  symm
  refine stringToSign_congr ?_ ?_ ?_ ?_ account
  · rfl
  · rfl
  · rw [hheaders]
    exact signedHeaders_congr fun signed hsigned =>
      Headers.get?_replace hname (hpositional signed hsigned) before after
  · rw [hheaders]
    exact serviceHeaders_replace hname hservice before after

/-- Another query with the same fields, in any order, does not change the string to sign. -/
theorem stringToSign_queries {r : Request} {url front query query' tail : Text}
    (hqueries : Url.Queries r.url front query tail) (hqueries' : Url.Queries url front query' tail)
    (hfields : ((Text.splitOn '&' query).flatMap Url.pieceFields).Perm
      ((Text.splitOn '&' query').flatMap Url.pieceFields)) (account : Text) :
    stringToSign { r with url } account = stringToSign r account := by
  obtain ⟨parts, hparts⟩ := Url.ofUrl?_queries front tail
  rw [← Url.lowered_decodeQuery, ← Url.lowered_decodeQuery] at hfields
  unfold stringToSign
  dsimp only
  rw [hparts _ _ hqueries, hparts _ _ hqueries']
  cases parts with
  | none => rfl
  | some parts =>
      have hresource : canonicalResource account { parts with query := query'.filter Url.isKept } =
          canonicalResource account { parts with query := query.filter Url.isKept } :=
        canonicalResource_perm account rfl hfields.symm
      dsimp only [Option.map_some]
      rw [hresource]

end Signing

/-- One change of the way in which a request is presented. -/
inductive Request.Restyles (r : Request) : Request → Prop
  /-- The headers in another order. -/
  | reorderHeaders {headers : Headers} (h : r.headers.Perm headers) : Restyles r { r with headers }
  /-- The name of a header with ASCII letters in another case. -/
  | recaseHeader {before after : Headers} {name name' value : Text}
      (h : r.headers = before ++ (name, value) :: after) (hname : Text.fold name = Text.fold name') :
      Restyles r { r with headers := before ++ (name', value) :: after }
  /-- Another signature, or one for the first time. -/
  | authorize (value : Text) :
      Restyles r { r with headers := r.headers.set Draft.authorization value }
  /-- Other blanks in the value of a header of the service. -/
  | respace {before after : Headers} {name front run run' back : Text}
      (h : r.headers = before ++ (name, front ++ run ++ back) :: after)
      (hname : (Text.ofString "x-ms-").isPrefixOf (Text.lower name) = true)
      (hne : run ≠ [] ∧ run' ≠ []) (hrun : ∀ c ∈ run, Text.isBlank c = true)
      (hrun' : ∀ c ∈ run', Text.isBlank c = true) :
      Restyles r { r with headers := before ++ (name, front ++ run' ++ back) :: after }
  /-- The fields of the query in another order. -/
  | reorderFields {url front query query' tail : Text} (h : Url.Queries r.url front query tail)
      (h' : Url.Queries url front query' tail)
      (hfields : (Text.splitOn '&' query).Perm (Text.splitOn '&' query')) : Restyles r { r with url }
  /-- The name of a query field with ASCII letters in another case, be they written out or
  escaped. -/
  | recaseField {url front query query' tail key key' rest : Text} {before after : List Text}
      (h : Url.Queries r.url front query tail) (h' : Url.Queries url front query' tail)
      (hquery : Text.splitOn '&' query = before ++ (key ++ rest) :: after)
      (hquery' : Text.splitOn '&' query' = before ++ (key' ++ rest) :: after)
      (hkey : Url.Respells key key') (hrest : rest = [] ∨ rest.head? = some (.char '=')) :
      Restyles r { r with url }

namespace Request.Restyles

variable {r r' : Request}

theorem distinct (h : r.Restyles r') (hdistinct : r.headers.Distinct) : r'.headers.Distinct := by
  cases h with
  | reorderHeaders hperm => exact hdistinct.perm hperm
  | recaseHeader hheaders hname =>
      rw [hheaders] at hdistinct
      exact hdistinct.replace (Text.lower_eq_of_fold_eq hname)
  | authorize value => exact hdistinct.set _ _
  | respace hheaders =>
      rw [hheaders] at hdistinct
      exact Headers.Distinct.replace (by rfl) hdistinct
  | reorderFields | recaseField => exact hdistinct

theorem stringToSign_eq (h : r.Restyles r') (hdistinct : r.headers.Distinct) (account : Text) :
    Signing.stringToSign r' account = Signing.stringToSign r account := by
  cases h with
  | reorderHeaders hperm =>
      refine Signing.stringToSign_congr ?_ ?_ ?_ ?_ account
      · rfl
      · rfl
      · exact Signing.signedHeaders_congr fun _ _ => (hdistinct.get?_perm hperm).symm
      · exact (Signing.serviceHeaders_perm hperm).symm
  | @recaseHeader _ _ _ name' value hheaders hname =>
      exact Signing.stringToSign_replace hheaders (name', value) (Text.lower_eq_of_fold_eq hname)
        (fun _ _ _ => rfl) (fun _ => rfl) account
  | authorize value => exact Signing.stringToSign_set_authorization r value account
  | @respace _ _ name front run run' back hheaders hname hne hrun hrun' =>
      refine Signing.stringToSign_replace hheaders (name, front ++ run' ++ back) rfl
        (fun signed hsigned hsame => ?_)
        (fun _ => Text.words_of_blanks hne.1 hne.2 hrun hrun' front back) account
      -- No header of the service is signed by position.
      have hposition : ∀ signed ∈ Signing.positionalNames,
          (Text.ofString "x-ms-").isPrefixOf (Text.lower signed) = false := by
        decide
      have hother := hposition signed hsigned
      rw [← beq_iff_eq.mp hsame, hname] at hother
      cases hother
  | reorderFields hqueries hqueries' hfields =>
      exact Signing.stringToSign_queries hqueries hqueries' (hfields.flatMap_right _) account
  | recaseField hqueries hqueries' hquery hquery' hkey hrest =>
      refine Signing.stringToSign_queries hqueries hqueries' ?_ account
      rw [hquery, hquery', List.flatMap_append, List.flatMap_append, List.flatMap_cons,
        List.flatMap_cons, Url.pieceFields_of_respells hkey hrest]

end Request.Restyles

namespace Signing

/-- The string to sign of a request with distinct headers does not depend on how the request
is presented: any number of changes to its presentation leave it as it is. -/
theorem stringToSign_restyled {r r' : Request} (hdistinct : r.headers.Distinct)
    (h : Relation.ReflTransGen Request.Restyles r r') (account : Text) :
    stringToSign r' account = stringToSign r account := by
  induction h using Relation.ReflTransGen.head_induction_on with
  | refl => rfl
  | head hstep _ ih => rw [ih (hstep.distinct hdistinct), hstep.stringToSign_eq hdistinct]

/-- A request for a part of a page. -/
def pageRequest (query : Text) (headers : Headers) : Request where
  method := "GET"
  url := "https://shelf.net/page" ++ .char '?' :: query
  headers := headers
  body := []

theorem queries_pageRequest {query : Text} (h : .char '#' ∉ query) (headers : Headers) :
    Url.Queries (pageRequest query headers).url "https://shelf.net/page" query [] where
  url_eq := by rw [List.append_nil, pageRequest]
  front := by decide
  query := h
  tail := .inl rfl

/-- A header of the service with some blanks in its value. -/
def noteHeader (blanks : Text) : Text × Text :=
  ("x-ms-note", "a" ++ blanks ++ "b")

def pageHeaders : Headers :=
  [noteHeader " ", ("RANGE", "bytes=0-1"), (Draft.authorization, "SharedKey acct:")]

/-- A request with every change to its presentation: two fields have changed places and one of
them has a small letter, the headers have changed places, one of them has large letters, another
one a single blank, and there is a signature. -/
theorem stringToSign_page :
    let before := pageRequest "b=2&A=1" [("Range", "bytes=0-1"), noteHeader " \t "]
    let after := pageRequest "a=1&b=2" pageHeaders
    before.headers.Distinct ∧ Relation.ReflTransGen Request.Restyles before after ∧
      stringToSign after "acct" = stringToSign before "acct" := by
  intro before after
  have hdistinct : before.headers.Distinct := by
    unfold Headers.Distinct
    decide
  have hheaders : before.Restyles
      (pageRequest "b=2&A=1" [noteHeader " \t ", ("Range", "bytes=0-1")]) :=
    .reorderHeaders (.swap _ _ _)
  have hblanks : (pageRequest "b=2&A=1" [noteHeader " \t ", ("Range", "bytes=0-1")]).Restyles
      (pageRequest "b=2&A=1" [noteHeader " ", ("Range", "bytes=0-1")]) :=
    @Request.Restyles.respace _ [] _ _ "a" " \t " " " "b" rfl (by decide) (by decide) (by decide)
      (by decide)
  have hname : (pageRequest "b=2&A=1" [noteHeader " ", ("Range", "bytes=0-1")]).Restyles
      (pageRequest "b=2&A=1" [noteHeader " ", ("RANGE", "bytes=0-1")]) :=
    @Request.Restyles.recaseHeader _ [_] [] _ "RANGE" _ rfl (by decide)
  have hset : Headers.set [noteHeader " ", ("RANGE", "bytes=0-1")] Draft.authorization
      "SharedKey acct:" = pageHeaders := by
    decide
  have hsignature : (pageRequest "b=2&A=1" [noteHeader " ", ("RANGE", "bytes=0-1")]).Restyles
      (pageRequest "b=2&A=1" pageHeaders) :=
    hset ▸ .authorize "SharedKey acct:"
  have hfields : (pageRequest "b=2&A=1" pageHeaders).Restyles
      (pageRequest "A=1&b=2" pageHeaders) :=
    .reorderFields (queries_pageRequest (by decide) _) (queries_pageRequest (by decide) [])
      (by decide)
  have hfield : (pageRequest "A=1&b=2" pageHeaders).Restyles after :=
    @Request.Restyles.recaseField _ _ _ _ _ _ "A" "a" "=1" [] ["b=2"]
      (queries_pageRequest (by decide) _) (queries_pageRequest (by decide) []) (by decide)
      (by decide) (.of_fold_eq (by decide) (by decide)) (by decide)
  have hchain : Relation.ReflTransGen Request.Restyles before after :=
    .head hheaders <| .head hblanks <| .head hname <| .head hsignature <| .head hfields <|
      .single hfield
  exact ⟨hdistinct, hchain, stringToSign_restyled hdistinct hchain "acct"⟩

end Signing

end DataLake
