import DataLake.Proofs.Attempt
import DataLake.Proofs.SentUrl

/-!
Where requests go. The URL path of a request holds the filesystem, the segments
of the root and the pieces of the path that was asked for. Its dot segments are
carried out before it is sent, so what a request addresses lies below the root
exactly if the names that lead to the root are still there afterwards.
-/

namespace DataLake

namespace Path

/-- A path that is another one or lies below it. -/
def Within (base path : Text) : Prop :=
  path = base ∨ base ++ [.char '/'] <+: path

instance (base path : Text) : Decidable (Within base path) :=
  inferInstanceAs (Decidable (_ ∨ _))

end Path

namespace Location

/-- Characters of a filesystem name: lower-case letters, digits and hyphens. -/
def isNameChar (c : CodePoint) : Bool :=
  (c.isAsciiAlphanum && c == c.asciiLower) || c == '-'

/-- A location as it is set up: a root in normal form, the name of a filesystem,
and an endpoint of the web. -/
structure Configured (loc : Location) : Prop where
  root : ∃ given, loc.root = Path.normalizeRoot given
  filesystem : ∀ c ∈ loc.filesystem, isNameChar c = true
  endpoint : Url.IsWebEndpoint loc.endpoint

/-- A location that may also have capital letters in the name of its filesystem. -/
structure Placed (loc : Location) : Prop where
  root : ∃ given, loc.root = Path.normalizeRoot given
  filesystem : ∀ c ∈ loc.filesystem, (c.isAsciiAlphanum || c == '-') = true
  endpoint : Url.IsWebEndpoint loc.endpoint

theorem Configured.placed {loc : Location} (h : loc.Configured) : loc.Placed where
  root := h.root
  filesystem c hc := by
    have hname := h.filesystem c hc
    simp only [isNameChar, Bool.or_eq_true, Bool.and_eq_true] at hname ⊢
    exact hname.imp_left And.left
  endpoint := h.endpoint

instance {loc : Location} : Coe loc.Configured loc.Placed := ⟨Configured.placed⟩

/-- The names that lead to the root: the filesystem and the segments of the root. -/
def base (loc : Location) : List Text :=
  loc.filesystem :: Path.segments loc.root

def asked (loc : Location) (path : Text) : List Text :=
  let below := Path.segments loc.root ++ Path.pieces path
  loc.filesystem :: if below = [] then [[]] else below

def rootPath (loc : Location) : Text :=
  .char '/' :: Text.joinWith "/" loc.base

variable {loc : Location} {path : Text}

theorem isUnreserved_of_name {c : CodePoint}
    (h : (c.isAsciiAlphanum || c == '-') = true) : Url.isUnreserved c = true := by
  rw [Bool.or_eq_true] at h
  rcases h with h | h <;> simp [Url.isUnreserved, h]

theorem Placed.slash_not_mem_base (h : loc.Placed) :
    ∀ segment ∈ loc.base, .char '/' ∉ segment := by
  intro segment hsegment
  rcases List.mem_cons.mp hsegment with rfl | hsegment
  · intro hslash
    have hname := h.filesystem _ hslash
    revert hname
    decide
  · exact (Path.segments_spec hsegment).2

theorem Placed.slash_not_mem_asked (h : loc.Placed) :
    ∀ segment ∈ loc.asked path, .char '/' ∉ segment := by
  intro segment hsegment
  rcases List.mem_cons.mp hsegment with rfl | hsegment
  · exact h.slash_not_mem_base _ List.mem_cons_self
  · split at hsegment
    · rw [List.mem_singleton.mp hsegment]
      exact List.not_mem_nil
    · rcases List.mem_append.mp hsegment with hroot | hpath
      · exact (Path.segments_spec hroot).2
      · exact Path.slash_not_mem_pieces hpath

theorem Placed.remoteName_eq (h : loc.Placed) (path : Text) :
    loc.remoteName path = Text.joinWith "/" (Path.segments loc.root ++ Path.pieces path) := by
  obtain ⟨given, hroot⟩ := h.root
  unfold remoteName
  rw [Path.dropTrailingSlashes_absolute, hroot, Path.pieces_normalizeRoot,
    Path.segments_normalizeRoot]

theorem Placed.filesystem_remoteName (h : loc.Placed) (path : Text) :
    loc.filesystem ++ "/" ++ loc.remoteName path = Text.joinWith "/" (loc.asked path) := by
  rw [h.remoteName_eq path]
  unfold asked
  dsimp only
  split
  · next hempty =>
    rw [hempty, Text.joinWith_cons _ _ (by simp), Text.joinWith_singleton, List.append_assoc]
    rfl
  · next hmore => rw [Text.joinWith_cons _ _ hmore, List.append_assoc]

end Location

namespace Url

/-- Characters that stay as they are in the encoding of a path. -/
def isKeptChar (c : CodePoint) : Bool :=
  isUnreserved c || c == '/'

private theorem isKeptChar_of_isUnreserved (c : CodePoint) (h : isUnreserved c = true) :
    isKeptChar c = true := by
  simp [isKeptChar, h]

private theorem isPathChar_of_isKeptChar (c : CodePoint) (h : isKeptChar c = true) :
    isPathChar c = true := by
  simp only [isKeptChar, Bool.or_eq_true] at h
  rcases h with h | h
  · simp [isPathChar, isUserChar, h]
  · simp [isPathChar, h]

theorem encoded_tidy (t : Text) : Tidy isPathChar (percentEncode isKeptChar t) :=
  (percentEncode_tidy isKeptChar_of_isUnreserved (by decide) t).mono isPathChar_of_isKeptChar

theorem isVisible_of_mem_encoded {t : Text} {c : CodePoint} (h : c ∈ percentEncode isKeptChar t) :
    isVisible c = true := by
  rcases mem_percentEncode h with ⟨_, hkept⟩ | rfl | hunreserved
  · simp only [isKeptChar, Bool.or_eq_true, beq_iff_eq] at hkept
    rcases hkept with hunreserved | rfl
    · exact isVisible_of_isUnreserved hunreserved
    · decide
  · decide
  · exact isVisible_of_isUnreserved hunreserved

theorem encoded_slashed (segments : List Text) :
    percentEncode isKeptChar (.char '/' :: Text.joinWith "/" segments) =
      .char '/' :: Text.joinWith "/" (segments.map (percentEncode isKeptChar)) := by
  have hcons (t : Text) :
      percentEncode isKeptChar (.char '/' :: t) = .char '/' :: percentEncode isKeptChar t := rfl
  rw [hcons, percentEncode_joinWith]
  rfl

theorem encode_keepsDots : Path.KeepsDots (percentEncode isKeptChar) where
  empty segment := percentEncode_eq_iff (by decide)
  one segment := percentEncode_eq_iff (by decide)
  two segment := percentEncode_eq_iff (by decide)

/-- Encoding a path and carrying out its dot segments can be done in either order. -/
theorem sentPath_encoded {segments : List Text} (hne : segments ≠ [])
    (hfree : ∀ segment ∈ segments, .char '/' ∉ segment) :
    sentPath (percentEncode isKeptChar (.char '/' :: Text.joinWith "/" segments)) =
      percentEncode isKeptChar (.char '/' :: Text.joinWith "/" (Path.settled segments)) := by
  have hencodedFree : ∀ segment ∈ segments.map (percentEncode isKeptChar),
      .char '/' ∉ segment := by
    intro segment hsegment hslash
    obtain ⟨plain, hplain, rfl⟩ := List.mem_map.mp hsegment
    rcases mem_percentEncode hslash with ⟨hmem, _⟩ | hpercent | hunreserved
    · exact hfree plain hplain hmem
    · revert hpercent
      decide
    · revert hunreserved
      decide
  rw [encoded_slashed, encoded_slashed]
  unfold sentPath
  rw [removeDots_eq (by simpa using hne) hencodedFree]
  rw [Path.settled_map encode_keepsDots]

private theorem isKeptChar_lt (c : CodePoint) (h : isKeptChar c = true) : c.toNat < 0x80 := by
  simp only [isKeptChar, Bool.or_eq_true, beq_iff_eq] at h
  rcases h with hunreserved | rfl
  · exact isUnreserved_lt hunreserved
  · decide

theorem unescape_encoded {t : Text} (h : t.any CodePoint.isHalf = false) :
    unescape (percentEncode isKeptChar t) = t :=
  unescape_percentEncode isKeptChar_lt (by decide) h

section Prepared

variable {endpoint : Text} {segments : List Text} {fields : List (Text × Text)}

private theorem encoded_slash (segments : List Text) : ∃ rest,
    percentEncode isKeptChar (.char '/' :: Text.joinWith "/" segments) = .char '/' :: rest :=
  ⟨_, encoded_slashed segments⟩

private theorem sentPath_tidy (hne : segments ≠ [])
    (hfree : ∀ segment ∈ segments, .char '/' ∉ segment) :
    Tidy isPathChar (sentPath (percentEncode isKeptChar
      (.char '/' :: Text.joinWith "/" segments))) := by
  rw [sentPath_encoded hne hfree]
  exact encoded_tidy _

/-- What a prepared URL of a web endpoint addresses: the segments it was made of,
their dots carried out. Its query is the one of the fields. -/
theorem prepare_encoded {url : Text} (hendpoint : IsWebEndpoint endpoint) (hne : segments ≠ [])
    (hfree : ∀ segment ∈ segments, .char '/' ∉ segment)
    (hwhole : (Text.joinWith "/" segments).any CodePoint.isHalf = false)
    (h : prepare (endpoint ++ percentEncode isKeptChar (.char '/' :: Text.joinWith "/" segments))
      fields = .ok url) :
    encodeQuery? fields = some (encodeQuery fields) ∧
      ∃ parts, Parts.ofUrl? url = some parts ∧
        unescape parts.path = .char '/' :: Text.joinWith "/" (Path.settled segments) ∧
        parts.query = encodeQuery fields ∧ .char '@' ∉ parts.authority := by
  obtain ⟨hfields, parts, hparts, hpath, hquery, hat⟩ :=
    prepared_parts hendpoint (encoded_tidy _) (encoded_slash segments) (sentPath_tidy hne hfree) h
  refine ⟨hfields, parts, hparts, ?_, hquery, hat⟩
  rw [hpath, sentPath_encoded hne hfree]
  apply unescape_encoded
  rw [List.any_eq_false]
  intro c hc hhalf
  -- Nothing was added but slashes, so half of a pair would have been there before.
  rcases List.mem_cons.mp hc with rfl | hc
  · cases hhalf
  · rcases Text.mem_joinWith hc with hslash | ⟨segment, hsegment, hmem⟩
    · rw [List.mem_singleton.mp hslash] at hhalf
      cases hhalf
    · rcases Path.mem_settled hsegment with rfl | hsegment
      · cases hmem
      · exact List.any_eq_false.mp hwhole c (Text.mem_joinWith_of_mem hsegment hmem) hhalf

/-- On a plain endpoint such a URL can be prepared. -/
theorem prepare_encoded_plain (hendpoint : IsPlainEndpoint endpoint) (hne : segments ≠ [])
    (hfree : ∀ segment ∈ segments, .char '/' ∉ segment)
    (hfields : encodeQuery? fields = some (encodeQuery fields)) :
    ∃ url, prepare (endpoint ++ percentEncode isKeptChar
      (.char '/' :: Text.joinWith "/" segments)) fields = .ok url :=
  prepare_plain hendpoint (encoded_tidy _) (encoded_slash segments) (sentPath_tidy hne hfree)
    hfields

end Prepared

end Url

namespace Location

variable {loc : Location} {path : Text}

/-- The name of a filesystem is never escaped. -/
theorem Placed.filesystem_encoded (h : loc.Placed) :
    loc.filesystem.any CodePoint.isHalf = false ∧
      Url.percentEncode Url.isKeptChar loc.filesystem = loc.filesystem := by
  constructor
  · rw [List.any_eq_false]
    intro c hc hhalf
    have hunreserved := isUnreserved_of_name (h.filesystem c hc)
    cases c with
    | char c => cases hhalf
    | half n => cases hunreserved
  · apply Url.percentEncode_of_all
    intro c hc
    simp [Url.isKeptChar, isUnreserved_of_name (h.filesystem c hc)]

theorem encodedName_ok {name : Text} (h : loc.encodedName path = .ok name) :
    (loc.remoteName path).any CodePoint.isHalf = false ∧
      name = Url.percentEncode Url.isKeptChar (loc.remoteName path) := by
  unfold encodedName Url.encodePath? Url.percentEncode? at h
  split at h
  · next hencoded =>
    split at hencoded
    · cases hencoded
    · next hwhole =>
      cases h
      exact ⟨Bool.eq_false_iff.mpr hwhole, (Option.some.inj hencoded).symm⟩
  · cases h

theorem pathUrl_ok {url : Text} (h : loc.pathUrl path = .ok url) :
    (loc.remoteName path).any CodePoint.isHalf = false ∧
      url = loc.url ++ "/" ++ Url.percentEncode Url.isKeptChar (loc.remoteName path) := by
  obtain ⟨name, hname, rfl⟩ := map_ok h
  obtain ⟨hwhole, rfl⟩ := encodedName_ok hname
  exact ⟨hwhole, rfl⟩

theorem renameSource_ok {value : Text} (h : loc.renameSource path = .ok value) :
    (loc.remoteName path).any CodePoint.isHalf = false ∧
      value = "/" ++ loc.filesystem ++ "/" ++
        Url.percentEncode Url.isKeptChar (loc.remoteName path) := by
  obtain ⟨name, hname, rfl⟩ := map_ok h
  obtain ⟨hwhole, rfl⟩ := encodedName_ok hname
  exact ⟨hwhole, rfl⟩

/-- A remote name below its filesystem, encoded. -/
theorem Placed.encoded_asked (h : loc.Placed) (path : Text) :
    Url.percentEncode Url.isKeptChar (.char '/' :: Text.joinWith "/" (loc.asked path)) =
      "/" ++ loc.filesystem ++ "/" ++
        Url.percentEncode Url.isKeptChar (loc.remoteName path) := by
  have hslash (t : Text) : Url.percentEncode Url.isKeptChar (.char '/' :: t) =
      .char '/' :: Url.percentEncode Url.isKeptChar t := rfl
  rw [← h.filesystem_remoteName path, hslash, Url.percentEncode_append, Url.percentEncode_append,
    h.filesystem_encoded.2]
  rfl

theorem Placed.asked_whole (h : loc.Placed)
    (hname : (loc.remoteName path).any CodePoint.isHalf = false) :
    (Text.joinWith "/" (loc.asked path)).any CodePoint.isHalf = false := by
  rw [← h.filesystem_remoteName path, List.any_append, List.any_append, h.filesystem_encoded.1,
    hname]
  rfl

end Location

namespace Operation

variable {loc : Location} {op : Operation}

def asked (loc : Location) (op : Operation) : List Text :=
  op.target?.elim [loc.filesystem] loc.asked

theorem asked_ne_nil : op.asked loc ≠ [] := by
  unfold asked
  cases op.target? <;> exact List.cons_ne_nil _ _

theorem slash_not_mem_asked (h : loc.Placed) :
    ∀ segment ∈ op.asked loc, .char '/' ∉ segment := by
  unfold asked
  cases op.target? with
  | none =>
      intro segment hsegment
      rw [List.mem_singleton.mp hsegment]
      exact h.slash_not_mem_base _ List.mem_cons_self
  | some path => exact h.slash_not_mem_asked

/-- The address of an operation, whose segments are whole characters. -/
theorem address_ok (h : loc.Placed) {url : Text} (hurl : op.address loc = .ok url) :
    (Text.joinWith "/" (op.asked loc)).any CodePoint.isHalf = false ∧
      url = loc.endpoint ++
        Url.percentEncode Url.isKeptChar (.char '/' :: Text.joinWith "/" (op.asked loc)) := by
  unfold address at hurl
  unfold asked
  cases htarget : op.target? with
  | none =>
      rw [htarget] at hurl
      cases hurl
      have hencoded : Url.percentEncode Url.isKeptChar (.char '/' :: loc.filesystem) =
          .char '/' :: Url.percentEncode Url.isKeptChar loc.filesystem := rfl
      rw [Option.elim_none, Text.joinWith_singleton, hencoded, h.filesystem_encoded.2]
      exact ⟨h.filesystem_encoded.1, by simp [Location.url]; rfl⟩
  | some path =>
      simp only [htarget] at hurl
      obtain ⟨hwhole, rfl⟩ := Location.pathUrl_ok hurl
      refine ⟨h.asked_whole hwhole, ?_⟩
      rw [Option.elim_some, h.encoded_asked path]
      simp only [Location.url, List.append_assoc]

/-- What the request of an operation reads as: the segments that it asks for, their
dots carried out, and the query of its draft. -/
theorem request_parts (h : loc.Placed) {r : Request} (hrequest : op.request loc = .ok r) :
    ∃ d parts, op.draft loc = .ok d ∧ d.prepare = .ok r ∧ Url.Parts.ofUrl? r.url = some parts ∧
      Url.unescape parts.path =
        .char '/' :: Text.joinWith "/" (Path.settled (op.asked loc)) ∧
      Url.encodeQuery? d.fields = some (Url.encodeQuery d.fields) ∧
      parts.query = Url.encodeQuery d.fields ∧ .char '@' ∉ parts.authority := by
  obtain ⟨d, hdraft, hready⟩ := bind_ok hrequest
  have hprepare := Draft.prepare_url hready
  obtain ⟨_, _, haddress⟩ := Operation.draft_ok hdraft
  obtain ⟨hwhole, hurl⟩ := address_ok h haddress
  rw [hurl] at hprepare
  obtain ⟨hfields, parts, hparts, hpath, hquery, hat⟩ :=
    Url.prepare_encoded h.endpoint asked_ne_nil (slash_not_mem_asked h) hwhole hprepare
  exact ⟨d, parts, hdraft, hready, hparts, hpath, hfields, hquery, hat⟩

end Operation

namespace Location

variable {loc : Location} {path : Text}

/-- Where a request for a path goes: to what is asked for, its dot segments
carried out. -/
theorem Placed.request_path (h : loc.Placed) {op : Operation} {r : Request}
    (htarget : op.target? = some path) (hrequest : op.request loc = .ok r) :
    ∃ parts, Url.Parts.ofUrl? r.url = some parts ∧
      Url.unescape parts.path =
        .char '/' :: Text.joinWith "/" (Path.settled (loc.asked path)) := by
  obtain ⟨_, parts, _, _, hparts, hpath, _⟩ := op.request_parts h hrequest
  unfold Operation.asked at hpath
  rw [htarget] at hpath
  exact ⟨parts, hparts, hpath⟩

/-- A URL path lies at the root or below it exactly if its segments begin with the
names that lead to the root. -/
theorem Placed.within_iff (h : loc.Placed) {segments : List Text} (hne : segments ≠ [])
    (hfree : ∀ segment ∈ segments, .char '/' ∉ segment) :
    Path.Within loc.rootPath (.char '/' :: Text.joinWith "/" segments) ↔ loc.base <+: segments := by
  have hbase : loc.base ≠ [] := List.cons_ne_nil _ _
  rw [← Text.joinWith_begins_iff hbase hne h.slash_not_mem_base hfree]
  unfold Path.Within rootPath
  rw [List.cons_append, List.cons_prefix_cons, List.cons.injEq]
  simp only [true_and]
  rfl

/-- The name of a filesystem has no dot. -/
theorem Placed.base_named (h : loc.Placed)
    (hroot : ∀ name ∈ Path.segments loc.root, Path.isDots name = false) :
    ∀ name ∈ loc.base, Path.isDots name = false := by
  intro name hname
  rcases List.mem_cons.mp hname with rfl | hname
  · apply Bool.eq_false_iff.mpr
    intro hdots
    simp only [Path.isDots, Bool.or_eq_true, decide_eq_true_eq] at hdots
    have hdot := h.filesystem (.char '.')
    rcases hdots with hdots | hdots
    · rw [hdots] at hdot
      exact absurd (hdot (by decide)) (by decide)
    · rw [hdots] at hdot
      exact absurd (hdot (by decide)) (by decide)
  · exact hroot name hname

/-- A path that stays below the root, as a path of names always does, is settled
below it. -/
theorem Placed.begins_settled (h : loc.Placed)
    (hroot : ∀ name ∈ Path.segments loc.root, Path.isDots name = false)
    (hpath : Path.Stays (Path.pieces path)) : loc.base <+: Path.settled (loc.asked path) := by
  obtain ⟨more, hasked, hstays⟩ : ∃ more, loc.asked path = loc.base ++ more ∧ Path.Stays more := by
    unfold asked base
    dsimp only
    split
    · next hempty =>
      obtain ⟨hnone, _⟩ := List.append_eq_nil_iff.mp hempty
      refine ⟨[[]], by rw [hnone]; rfl, fun n => ?_⟩
      rw [List.count_eq_zero_of_not_mem]
      · exact Nat.zero_le _
      · intro hmem
        have hdots := List.mem_of_mem_take hmem
        revert hdots
        decide
    · exact ⟨Path.pieces path, rfl, hpath⟩
  rw [hasked]
  exact Path.begins_settled_of_stays (List.cons_ne_nil _ _) (h.base_named hroot) hstays

/-- What a request for a path addresses lies at the root or below it exactly if the
names that lead to the root are left once the dot segments are carried out; the
request that creates the parent of a target is one for the parent. A path that
never climbs out of a root without dots stays inside. -/
theorem request_within_iff (hloc : loc.Configured) {op : Operation} {r : Request}
    (htarget : op.target? = some path) (hrequest : op.request loc = .ok r) :
    ∃ parts, Url.Parts.ofUrl? r.url = some parts ∧
      Url.unescape parts.path = .char '/' :: Text.joinWith "/" (Path.settled (loc.asked path)) ∧
      (Path.Within loc.rootPath (Url.unescape parts.path) ↔
        loc.base <+: Path.settled (loc.asked path)) ∧
      ((∀ name ∈ Path.segments loc.root, Path.isDots name = false) →
        Path.Stays (Path.pieces path) → Path.Within loc.rootPath (Url.unescape parts.path)) := by
  obtain ⟨parts, hparts, hpath⟩ := hloc.placed.request_path htarget hrequest
  have hfree : ∀ segment ∈ Path.settled (loc.asked path), .char '/' ∉ segment := by
    intro segment hsegment
    rcases Path.mem_settled hsegment with rfl | hsegment
    · exact List.not_mem_nil
    · exact hloc.placed.slash_not_mem_asked segment hsegment
  have hwithin : Path.Within loc.rootPath (Url.unescape parts.path) ↔
      loc.base <+: Path.settled (loc.asked path) := by
    rw [hpath]
    exact hloc.placed.within_iff (Path.settled_ne_nil _) hfree
  refine ⟨parts, hparts, hpath, hwithin, ?_⟩
  intro hroot hstays
  rw [hwithin]
  exact hloc.placed.begins_settled hroot hstays

def archive : Location :=
  { root := "/archive", filesystem := "data", endpoint := "https://acct.dfs.core.windows.net" }

theorem archive_configured : archive.Configured where
  root := ⟨"archive", by decide⟩
  filesystem := by decide
  endpoint := ⟨"acct.dfs.core.windows.net", by decide, .inr rfl⟩

/-- A path may go up again as long as it went down before. -/
theorem request_within_archive : ∃ r parts,
    (Operation.delete "old/../log").request archive = .ok r ∧
      Url.Parts.ofUrl? r.url = some parts ∧
      Path.Within archive.rootPath (Url.unescape parts.path) := by
  have hsent : ((Operation.delete "old/../log").request archive).toOption.isSome = true := by
    decide +kernel
  obtain ⟨r, hr⟩ := Option.isSome_iff_exists.mp hsent
  have hrequest := ok_of_toOption hr
  have htarget : (Operation.delete "old/../log").target? = some "old/../log" := rfl
  obtain ⟨parts, hparts, _, _, hstays⟩ :=
    request_within_iff archive_configured htarget hrequest
  refine ⟨r, parts, hrequest, hparts, hstays (by decide) ?_⟩
  have hpieces : Path.pieces "old/../log" = ["old", "..", "log"] := by decide
  rw [hpieces]
  intro n
  match n with
  | 0 | 1 | 2 => decide
  | n + 3 =>
      rw [List.take_of_length_le (by simp)]
      decide

/-- A path of two dots leads out of the root. -/
theorem delete_outside_root : archive.Configured ∧ ∃ r parts,
    (Operation.delete "../secret").request archive = .ok r ∧
      Url.Parts.ofUrl? r.url = some parts ∧
      ¬ Path.Within archive.rootPath (Url.unescape parts.path) := by
  refine ⟨archive_configured, ?_⟩
  have hpath : ((Operation.delete "../secret").request archive).toOption.bind (fun r =>
      (Url.Parts.ofUrl? r.url).map fun parts => Url.unescape parts.path) =
        some "/data/secret" := by
    decide +kernel
  obtain ⟨r, hr, hparts⟩ := Option.bind_eq_some_iff.mp hpath
  obtain ⟨parts, hparts, hsecret⟩ := Option.map_eq_some_iff.mp hparts
  refine ⟨r, parts, ok_of_toOption hr, hparts, ?_⟩
  rw [hsecret]
  decide

end Location

end DataLake
