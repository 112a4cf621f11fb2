import DataLake.Proofs.Course
import DataLake.Proofs.ListedPaths

/-!
The slash that marks a directory. The path of a directory is to end in a slash, and no other path
is to. A listing adds the slash to what it finds, so that every entry for a name below the root is
marked in this way. The entry for the listed directory itself has its path as the caller spelled
it, and is marked only if the caller marked it.
-/

namespace DataLake

/-- The path of the entry ends in a slash exactly if the entry is for a directory. -/
def Entry.Marked (e : Entry) : Prop :=
  e.metadata.mode = .directory ↔ e.path.getLast? = some (.char '/')

theorem Path.getLast?_joinWith {names : List Text}
    (hnames : ∀ n ∈ names, n ≠ [] ∧ .char '/' ∉ n) :
    (Text.joinWith "/" names).getLast? ≠ some (.char '/') := by
  rw [← dropTrailingSlashes_joinWith hnames]
  exact getLast?_dropTrailingSlashes _

namespace Listing

variable {root path : Text} {limit : Option Int} {token : Option Text}

/-- An entry for a name below the root is marked. -/
theorem Reports.marked {name : Text} {e : Entry} (h : Reports root name e)
    (hbelow : Path.Below root name) : e.Marked := by
  obtain ⟨names, hnames, rfl⟩ := hbelow
  have hpath := h.path_eq
  rw [Path.relative_joinWith root hnames] at hpath
  unfold Entry.Marked
  rw [hpath]
  by_cases hmode : e.metadata.mode = .directory
  · rw [if_pos hmode, List.getLast?_append]
    exact iff_of_true hmode rfl
  · rw [if_neg hmode, List.append_nil]
    exact iff_of_false hmode (Path.getLast?_joinWith hnames)

def statedName? : Json → Option Text
  | .object fields => (entryName fields).toOption
  | _ => none

/-- The response lists items with names below the root. -/
structure ListsBelow (root : Text) (depth : Nat) (r : Response) : Prop where
  status_eq : r.status = 200
  below : ∀ items, items? depth r.body = some items →
    ∀ item ∈ items, ∀ name, statedName? item = some name → Path.Below root name

theorem EntriesOf.marked {items : List Json} {entries : List Entry}
    (h : EntriesOf root items entries)
    (hbelow : ∀ item ∈ items, ∀ name, statedName? item = some name → Path.Below root name) :
    ∀ e ∈ entries, e.Marked := by
  induction h with
  | nil => exact fun e he => absurd he List.not_mem_nil
  | @cons item first _ _ hitem _ ih =>
      obtain ⟨hfirst, hmore⟩ := List.forall_mem_cons.mp hbelow
      refine List.forall_mem_cons.mpr ⟨?_, ih hmore⟩
      cases item with
      | object fields =>
          obtain ⟨name, hname, _⟩ := entryOf_ok hitem
          have hstated : statedName? (.object fields) = some name :=
            congrArg Except.toOption hname
          exact Reports.marked ⟨fields, hname, hitem⟩ (hfirst name hstated)
      | _ => cases hitem

/-- What a page begins with: the listed directory as it was spelled, unless a token was sent. -/
def ownEntries (path : Text) (token : Option Text) : List Entry :=
  if (given token).isNone then [⟨path, { mode := .directory }⟩] else []

theorem ownEntries_marked_iff : (∀ e ∈ ownEntries path token, e.Marked) ↔
    (given token).isSome ∨ path.getLast? = some (.char '/') := by
  unfold ownEntries
  cases given token <;> simp [Entry.Marked]

/-- How the entries of a page are marked: all that were found are marked, and all of the page
are unless it begins with the listed directory, spelled without a slash. -/
structure Marks (path : Text) (token : Option Text) (page : ListPage) : Prop where
  found : ∃ listed, page.entries = ownEntries path token ++ listed ∧ ∀ e ∈ listed, e.Marked
  all_iff : (∀ e ∈ page.entries, e.Marked) ↔
    (given token).isSome ∨ path.getLast? = some (.char '/')

theorem Shows.marks {depth : Nat} {r : Response} {page : ListPage}
    (h : Shows depth root path token r page) (hlists : ListsBelow root depth r) :
    Marks path token page := by
  cases h with
  | missing hstatus => cases hstatus.symm.trans hlists.status_eq
  | @listed items entries _ hitems hentries =>
      have hfound := hentries.marked (hlists.below items hitems)
      refine ⟨⟨entries, rfl, hfound⟩, ?_⟩
      rw [← ownEntries_marked_iff]
      exact List.forall_mem_append.trans (and_iff_left hfound)

/-- The pages that are asked for with each of the tokens, one after another. -/
def fetchAll (b : Backend) (path : Text) (limit : Option Int) :
    List (Option Text) → World → List (Except Failure ListPage)
  | [], _ => []
  | token :: tokens, w =>
      match page b path limit token w with
      | (result, w) => result :: fetchAll b path limit tokens w

theorem fetchAll_cons (b : Backend) (path : Text) (limit : Option Int) (token : Option Text)
    (tokens : List (Option Text)) (w : World) :
    fetchAll b path limit (token :: tokens) w =
      (page b path limit token w).1 ::
        fetchAll b path limit tokens (page b path limit token w).2 :=
  rfl

/-- The service answers with listings of names below the root, as far as it responds. -/
def Serves (root : Text) (w : World) : Prop :=
  ∀ r, .response r ∈ w.answers → ListsBelow root w.room.nesting r

variable {b : Backend} {w : World}

/-- A page has its marks, and the service goes on as it did. -/
theorem Serves.step (h : Serves b.location.root w) (path : Text) (limit : Option Int)
    (token : Option Text) :
    (∀ found, (page b path limit token w).1 = .ok found → Marks path token found) ∧
      Serves b.location.root (page b path limit token w).2 := by
  obtain ⟨xs, response, _, hanswers, hroom, hsends, hshown⟩ := page_sends b path limit token w
  constructor
  · intro found hfound
    rw [hfound] at hshown
    obtain ⟨r, hr, hshows⟩ := (hshown found).mp rfl
    cases hsends with
    | nothing => cases hr
    | request x =>
        refine hshows.marks (h r ?_)
        rw [hanswers]
        simp [Exchange.reply_of_response? hr]
  · intro r hr
    rw [hroom]
    apply h r
    rw [hanswers]
    exact List.mem_append_right _ hr

/-- Whatever directory is listed below whatever root, and with whatever tokens its pages are
asked for: every entry that is found is marked, and so are all entries of a page exactly if it was
asked for with a token or the caller spelled the directory with a slash. -/
theorem fetchAll_marks (h : Serves b.location.root w) (path : Text) (limit : Option Int)
    (tokens : List (Option Text)) :
    List.Forall₂ (fun token result => ∀ found, result = .ok found → Marks path token found)
      tokens (fetchAll b path limit tokens w) := by
  induction tokens generalizing w with
  | nil => exact .nil
  | cons token tokens ih =>
      obtain ⟨hmarks, hnext⟩ := h.step path limit token
      rw [fetchAll_cons]
      exact .cons hmarks (ih hnext)

def nestedListing : Response where
  status := 200
  headers := []
  body := "\x7b\"paths\":[\x7b\"name\":\"dir/old\",\"isDirectory\":\"true\"\x7d]\x7d".toList.map
    fun c => UInt8.ofNat c.toNat
  reason := "OK"

theorem serves_nested : Serves filesBackend.location.root (answering nestedListing) := by
  intro r hr
  obtain ⟨⟩ := List.mem_singleton.mp hr
  refine ⟨rfl, fun items hitems item hitem name hname => ?_⟩
  have hnames : (items? Room.usual.nesting nestedListing.body).map (List.map statedName?) =
      some [some (Text.ofString "dir/old")] := by
    decide +kernel
  change items? Room.usual.nesting nestedListing.body = some items at hitems
  rw [hitems] at hnames
  have hstated : statedName? item ∈ [some (Text.ofString "dir/old")] := by
    rw [← Option.some.inj hnames]
    exact List.mem_map_of_mem hitem
  rw [hname, List.mem_singleton, Option.some.injEq] at hstated
  exact ⟨["dir", "old"], by decide, hstated⟩

/-- A directory that is spelled with a slash, and one below it, are both marked. -/
theorem fetchAll_marks_nested :
    Serves filesBackend.location.root (answering nestedListing) ∧
      ∃ found, fetchAll filesBackend "dir/" none [none] (answering nestedListing) = [.ok found] ∧
        found.entries.map Entry.path = [Text.ofString "dir/", Text.ofString "dir/old/"] ∧
        ∀ e ∈ found.entries, e.Marked := by
  have hpaths : (page filesBackend "dir/" none none (answering nestedListing)).1.toOption.map
      (fun found => found.entries.map Entry.path) =
        some [Text.ofString "dir/", Text.ofString "dir/old/"] := by
    decide +kernel
  obtain ⟨found, hoption, hentries⟩ := Option.map_eq_some_iff.mp hpaths
  have hfetched :
      fetchAll filesBackend "dir/" none [none] (answering nestedListing) = [.ok found] := by
    rw [fetchAll_cons, ok_of_toOption hoption]
    rfl
  have hmarks := fetchAll_marks serves_nested "dir/" none [none]
  rw [hfetched] at hmarks
  cases hmarks with
  | cons hfirst _ =>
      exact ⟨serves_nested, found, hfetched, hentries, (hfirst found rfl).all_iff.mpr (.inr rfl)⟩

/-- The directory itself is not marked if it is spelled without a slash. -/
theorem bare_directory_unmarked :
    Serves filesBackend.location.root (answering nestedListing) ∧
      ∃ found e, (page filesBackend "dir" none none (answering nestedListing)).1 = .ok found ∧
        e ∈ found.entries ∧ e.path = "dir" ∧ e.metadata.mode = .directory ∧ ¬ e.Marked := by
  have hfirst : (page filesBackend "dir" none none (answering nestedListing)).1.toOption.map
      (fun found => found.entries.head?.map fun e => (e.path, e.metadata.mode)) =
        some (some (Text.ofString "dir", EntryMode.directory)) := by
    decide +kernel
  obtain ⟨found, hoption, hhead⟩ := Option.map_eq_some_iff.mp hfirst
  obtain ⟨e, he, hshown⟩ := Option.map_eq_some_iff.mp hhead
  obtain ⟨hpath, hmode⟩ := Prod.mk.inj hshown
  refine ⟨serves_nested, found, e, ok_of_toOption hoption, List.mem_of_head? he, hpath, hmode, ?_⟩
  intro hmarked
  have hslash := hmarked.mp hmode
  rw [hpath] at hslash
  exact absurd hslash (by decide)

end Listing

end DataLake
