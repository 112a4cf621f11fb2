import DataLake.Proofs.PageTurn

/-!
The paths of listed entries. A listing cuts the root off the remote names that it is
given, and every operation puts the root back in front of the path it is handed. The
two undo each other for any root, and the slash that a directory ends with does not
get in their way, so an entry can be handed back to address what was listed.
-/

namespace DataLake

namespace Path

/-- A remote name that is the one of the root, or lies below it: the pieces of the root,
and then names. -/
def Below (root name : Text) : Prop :=
  ∃ names : List Text, (∀ n ∈ names, n ≠ [] ∧ .char '/' ∉ n) ∧
    name = Text.joinWith "/" (pieces root ++ names)

theorem relative_slashed {root : Text} (hbase : dropOuterSlashes root ≠ []) (rest : Text) :
    relative root (dropOuterSlashes root ++ .char '/' :: rest) = rest := by
  have hleading := dropLeadingSlashes_append hbase (dropLeadingSlashes_dropOuterSlashes root)
    (.char '/' :: rest)
  have hcut : (dropOuterSlashes root ++ "/").isPrefixOf?
      (dropOuterSlashes root ++ .char '/' :: rest) = some rest :=
    List.isPrefixOf?_eq_some_iff_append_eq.mpr (List.append_assoc ..)
  unfold relative
  dsimp only
  rw [hleading, if_neg (by simpa using hbase), if_neg (by simp), hcut]
  rfl

/-- Cutting the root off again leaves the path, without the slashes at its front. -/
theorem relative_absolute (root path : Text) :
    relative root (absolute root path) = dropLeadingSlashes path := by
  by_cases hbase : dropOuterSlashes root = []
  · unfold relative absolute
    dsimp only
    rw [hbase]
    exact dropLeadingSlashes_idem path
  · have hslashed : absolute root path =
        dropOuterSlashes root ++ .char '/' :: dropLeadingSlashes path := by
      unfold absolute
      dsimp only
      rw [if_neg (by simpa using hbase)]
      split
      · next hempty =>
        rw [List.isEmpty_iff.mp hempty]
        rfl
      · rfl
    rw [hslashed, relative_slashed hbase]

/-- What is left of a remote name below the root are the names below it. -/
theorem relative_joinWith (root : Text) {names : List Text}
    (hnames : ∀ n ∈ names, n ≠ [] ∧ .char '/' ∉ n) :
    relative root (Text.joinWith "/" (pieces root ++ names)) = Text.joinWith "/" names := by
  by_cases hbase : dropOuterSlashes root = []
  · rw [pieces_eq_nil_iff.mpr hbase, List.nil_append]
    unfold relative
    dsimp only
    rw [hbase]
    exact dropLeadingSlashes_joinWith hnames
  · cases names with
    | nil =>
        have hkept := dropLeadingSlashes_dropOuterSlashes root
        rw [List.append_nil, joinWith_pieces]
        unfold relative
        dsimp only
        rw [hkept, if_neg (by simpa using hbase), if_pos rfl]
        rfl
    | cons name names =>
        rw [Text.joinWith_append _ (pieces_eq_nil_iff.not.mpr hbase) (by simp), joinWith_pieces]
        exact relative_slashed hbase _

/-- The remote name of names below the root, with a slash after them or without one. -/
theorem absolute_joinWith (root : Text) {names : List Text}
    (hnames : ∀ n ∈ names, n ≠ [] ∧ .char '/' ∉ n) {slash : Text}
    (hslash : slash = [] ∨ slash = "/") :
    dropTrailingSlashes (absolute root (Text.joinWith "/" names ++ slash)) =
      Text.joinWith "/" (pieces root ++ names) := by
  have htrailing : dropTrailingSlashes slash = [] := by
    rcases hslash with rfl | rfl <;> rfl
  have houter : dropOuterSlashes (Text.joinWith "/" names ++ slash) =
      Text.joinWith "/" names := by
    by_cases hnone : Text.joinWith "/" names = []
    · rw [hnone]
      rcases hslash with rfl | rfl <;> rfl
    · have hkept := dropLeadingSlashes_append hnone (dropLeadingSlashes_joinWith hnames) slash
      have hends : dropTrailingSlashes (Text.joinWith "/" names ++ slash) =
          Text.joinWith "/" names := by
        rw [dropTrailingSlashes_append, if_pos htrailing, dropTrailingSlashes_joinWith hnames]
      exact (congrArg dropTrailingSlashes hkept).trans hends
  rw [dropTrailingSlashes_absolute, pieces_eq_of_names hnames houter]

/-- A remote name is the same without slashes at either end as without those at its end. -/
theorem dropOuterSlashes_absolute (root path : Text) :
    dropOuterSlashes (absolute root path) = dropTrailingSlashes (absolute root path) :=
  congrArg dropTrailingSlashes (dropLeadingSlashes_absolute root path)

end Path

namespace Location

/-- Every operation that is handed the path is about the remote name: its request goes
there, a move states it as its source, and a listing states it as its directory, which
is left out for the filesystem itself. -/
structure Leads (loc : Location) (path name : Text) : Prop where
  remoteName : loc.remoteName path = name
  address : ∀ (op : Operation) (d : Draft), op.target? = some path → op.draft loc = .ok d →
    d.url = loc.url ++ "/" ++ Url.percentEncode Url.isKeptChar name
  source : ∀ (target : Text) (d : Draft), (Operation.rename path target).draft loc = .ok d →
    (renameSourceHeader,
      "/" ++ loc.filesystem ++ "/" ++ Url.percentEncode Url.isKeptChar name) ∈ d.headers
  directory : ∀ (continuation : Option Text) (limit : Option Int) (d : Draft),
    (Operation.list path continuation limit).draft loc = .ok d →
    d.fields.lookup (Text.ofString "directory") = if name = [] then none else some name

theorem leads_remoteName (loc : Location) (path : Text) : loc.Leads path (loc.remoteName path) where
  remoteName := rfl
  address op d htarget hdraft := by
    obtain ⟨_, _, haddress⟩ := Operation.draft_ok hdraft
    unfold Operation.address at haddress
    rw [htarget] at haddress
    obtain ⟨name, hname, hurl⟩ := bind_ok (haddress : (loc.encodedName path >>= _) = _)
    rw [← (encodedName_ok hname).2]
    exact (Except.ok.inj hurl).symm
  source target d hdraft := by
    obtain ⟨_, _, hrest⟩ := bind_ok hdraft
    obtain ⟨value, hvalue, hd⟩ := bind_ok hrest
    obtain ⟨name, hname, hsource⟩ := bind_ok (hvalue : (loc.encodedName path >>= _) = _)
    cases hd
    cases hsource
    rw [(encodedName_ok hname).2]
    exact List.mem_cons_self
  directory continuation limit d hdraft := by
    have hdirectory : Path.dropOuterSlashes (Path.absolute loc.root path) = loc.remoteName path :=
      Path.dropOuterSlashes_absolute loc.root path
    rw [(Operation.draft_states hdraft).1]
    unfold Operation.parameters
    dsimp only
    rw [hdirectory]
    by_cases hnone : loc.remoteName path = []
    · rw [hnone, if_pos rfl]
      cases limit <;> cases given continuation <;> rfl
    · rw [if_neg (by simpa using hnone), if_neg hnone]
      rfl

end Location

namespace Listing

/-- The entry is what a listing reports for an item with the remote name. -/
def Reports (root name : Text) (e : Entry) : Prop :=
  ∃ fields, entryName fields = .ok name ∧ entryOf root (.object fields) = .ok e

variable {root name : Text} {e : Entry}

/-- An item that has an entry has a remote name, and the entry has what is left of it as
its path, with a slash after it for a directory. -/
theorem entryOf_ok {fields : List (Text × Json)} (h : entryOf root (.object fields) = .ok e) :
    ∃ name, entryName fields = .ok name ∧
      e.path = Path.relative root name ++
        (if e.metadata.mode = .directory then "/" else [] : Text) := by
  obtain ⟨_, _, h⟩ := bind_ok h
  obtain ⟨_, _, h⟩ := bind_ok h
  obtain ⟨_, _, h⟩ := bind_ok h
  obtain ⟨name, hname, h⟩ := bind_ok h
  cases h
  refine ⟨name, hname, ?_⟩
  dsimp only
  split
  · rfl
  · exact (List.append_nil _).symm

theorem Reports.path_eq (h : Reports root name e) :
    e.path = Path.relative root name ++
      (if e.metadata.mode = .directory then "/" else [] : Text) := by
  obtain ⟨fields, hname, hentry⟩ := h
  obtain ⟨stated, hstated, hpath⟩ := entryOf_ok hentry
  cases hname.symm.trans hstated
  exact hpath

/-- Every entry of a listing is reported for some remote name. -/
theorem EntriesOf.reported {items : List Json} {entries : List Entry}
    (h : EntriesOf root items entries) : ∀ e ∈ entries, ∃ name, Reports root name e := by
  induction h with
  | nil => exact fun e he => absurd he List.not_mem_nil
  | @cons item first _ _ hitem _ ih =>
      intro e he
      rcases List.mem_cons.mp he with rfl | he
      · cases item with
        | object fields =>
            obtain ⟨name, hname, _⟩ := entryOf_ok hitem
            exact ⟨name, fields, hname, hitem⟩
        | _ => cases hitem
      · exact ih e he

/-- An entry for a name below the root leads back to that name. -/
theorem Reports.leads {loc : Location} (h : Reports loc.root name e)
    (hbelow : Path.Below loc.root name) : loc.Leads e.path name := by
  obtain ⟨names, hnames, rfl⟩ := hbelow
  have hpath := h.path_eq
  rw [Path.relative_joinWith loc.root hnames] at hpath
  have hslash : (if e.metadata.mode = .directory then "/" else [] : Text) = [] ∨
      (if e.metadata.mode = .directory then "/" else [] : Text) = "/" := by
    split
    · exact .inr rfl
    · exact .inl rfl
  have hname := Path.absolute_joinWith loc.root hnames hslash
  rw [← hpath] at hname
  rw [← hname]
  exact loc.leads_remoteName e.path

/-- Listed paths address what was listed. Putting the root in front of a path and cutting
it off again leaves the path; every entry of a listing is reported for a remote name; the
entry for a name below the root leads every operation back to exactly that name; and so
no two such names share an entry's path. -/
theorem entries_lead_back (loc : Location) :
    (∀ path, Path.relative loc.root (Path.absolute loc.root path) =
      Path.dropLeadingSlashes path) ∧
    (∀ items entries, EntriesOf loc.root items entries →
      ∀ e ∈ entries, ∃ name, Reports loc.root name e) ∧
    (∀ name e, Path.Below loc.root name → Reports loc.root name e →
      e.path = Path.relative loc.root name ++
        (if e.metadata.mode = .directory then "/" else [] : Text) ∧ loc.Leads e.path name) ∧
    ∀ name name' e e', Path.Below loc.root name → Path.Below loc.root name' →
      Reports loc.root name e → Reports loc.root name' e' → e.path = e'.path → name = name' := by
  refine ⟨Path.relative_absolute loc.root, fun _ _ h => h.reported, ?_, ?_⟩
  · intro name e hbelow hreports
    exact ⟨hreports.path_eq, hreports.leads hbelow⟩
  · intro name name' e e' hbelow hbelow' hreports hreports' hsame
    have hname := (hreports.leads hbelow).remoteName
    have hname' := (hreports'.leads hbelow').remoteName
    rw [← hname, ← hname', hsame]

/-- A directory below the root, listed and then asked for again. -/
theorem entries_lead_back_archive : ∃ e, Reports Location.archive.root "archive/old/log" e ∧
    e.path = "old/log/" ∧ Location.archive.Leads e.path "archive/old/log" := by
  obtain ⟨e, hentry⟩ : ∃ e, entryOf Location.archive.root
      (.object [("name", .string "archive/old/log"), ("isDirectory", .string "true")]) =
        .ok e := ⟨_, rfl⟩
  have hreports : Reports Location.archive.root "archive/old/log" e := ⟨_, rfl, hentry⟩
  have hbelow : Path.Below Location.archive.root "archive/old/log" :=
    ⟨["old", "log"], by decide, by decide⟩
  obtain ⟨_, hleads⟩ := (entries_lead_back Location.archive).2.2.1 _ e hbelow hreports
  cases hentry
  exact ⟨_, hreports, by decide, hleads⟩

end Listing

end DataLake
