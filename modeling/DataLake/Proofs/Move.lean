import DataLake.Proofs.Decoding
import DataLake.Proofs.Dispatch
import DataLake.Proofs.ObjectPlan

/-!
Moves. A move is made in two phases: the directory that holds the target is created, if the
target has one below the root, and once that directory is there the path is moved. What the
first request addresses is what the second one does without its last segment.
-/

namespace DataLake

namespace Path

variable {path : Text}

/-- A path whose pieces are all names. -/
def Plain (path : Text) : Prop :=
  ∀ piece ∈ pieces path, piece ≠ [] ∧ isDots piece = false

instance (path : Text) : Decidable (Plain path) :=
  inferInstanceAs (Decidable (∀ piece ∈ pieces path, piece ≠ [] ∧ isDots piece = false))

theorem Plain.segments_eq (h : Plain path) : segments path = pieces path := by
  rw [segments_eq_filter, List.filter_eq_self]
  intro piece hpiece
  simpa using (h piece hpiece).1

theorem Plain.named (h : Plain path) : Named path := by
  intro name hname
  rw [h.segments_eq] at hname
  exact (h name hname).2

theorem Plain.init_spec (h : Plain path) :
    ∀ name ∈ (pieces path).dropLast, name ≠ [] ∧ .char '/' ∉ name := by
  intro name hname
  have hpiece := (List.dropLast_sublist _).subset hname
  exact ⟨(h name hpiece).1, slash_not_mem_pieces hpiece⟩

theorem Plain.parent_eq (h : Plain path) :
    parent path = Text.joinWith "/" (pieces path).dropLast := by
  rw [Path.parent_eq, h.segments_eq]

theorem Plain.pieces_parent (h : Plain path) : pieces (parent path) = (pieces path).dropLast := by
  rw [h.parent_eq]
  exact pieces_eq_of_names h.init_spec (dropOuterSlashes_joinWith h.init_spec)

theorem Plain.parent (h : Plain path) : Plain (parent path) := by
  intro piece hpiece
  rw [h.pieces_parent] at hpiece
  exact h piece ((List.dropLast_sublist _).subset hpiece)

end Path

namespace Location

variable {loc : Location}

end Location

namespace Operation

variable {loc : Location} {op : Operation} {path source target : Text}

end Operation

namespace Backend

/-- Signing leaves alone what reads back. -/
theorem Signs.readsBack {b : Backend} {op : Operation} {r : Request} (h : b.Signs op r)
    (hloc : b.location.Placed) (hroot : Path.Named b.location.root)
    (hpath : ∀ path, op.target? = some path → Path.Named path) : r.ReadsBack b.location op := by
  obtain ⟨plain, c, now, hplain, hsign⟩ := h
  obtain ⟨hmethod, hurl, hbody⟩ := Signing.sign_keeps b.version now c plain
  rw [hsign] at hmethod hurl hbody
  obtain ⟨date, dated, value, _, hheaders, _, rfl⟩ := Signing.sign_parts hsign
  have hkept (name : Text) (hdate : Text.sameLower Signing.dateHeader name = false)
      (hversion : Text.sameLower Signing.versionHeader name = false)
      (hshown : Text.sameLower Draft.authorization name = false) :
      (dated.headers.set Draft.authorization value).get? name = plain.headers.get? name := by
    rw [Headers.get?_set_of_ne hshown, hheaders, Headers.get?_set_of_ne hversion,
      Headers.get?_set_of_ne hdate]
  have hreads := Operation.request_readsBack hloc hroot hpath hplain
  refine ⟨hmethod.trans hreads.method, ?_, fun source target hop => ?_, hbody.trans hreads.body,
    fun v hv => ?_⟩
  · rw [hurl]
    exact hreads.url
  · obtain ⟨v, hv, hsource⟩ := hreads.source source target hop
    exact ⟨v, (hkept _ (by decide) (by decide) (by decide)).trans hv, hsource⟩
  · rw [hkept _ (by decide) (by decide) (by decide)] at hv
    rw [hbody]
    exact hreads.length v hv

/-- The service is asked for an operation, and can read what is asked. -/
structure Asks (b : Backend) (op : Operation) (x : Exchange) : Prop where
  signed : b.Signs op x.request
  reads : x.request.ReadsBack b.location op

/-- How a path is moved in a world: the parent of the target is created if there is one
below the root, and the path is moved unless that failed. Either request is sent only if
its names are of whole characters. -/
structure Moves (b : Backend) (source target : Text) (w : World) (parent move : Option Exchange)
    (result : Except Failure Unit) : Prop where
  parent_iff : parent.isSome = true ↔ 2 ≤ (Path.pieces target).length ∧
    (b.location.remoteName (Path.parent target)).any CodePoint.isHalf = false
  parent_asks : ∀ x, parent = some x → b.Asks (directoryAt (Path.parent target)) x
  move_iff : move.isSome = true ↔
    ((Path.pieces target).length < 2 ∨ ∃ x, parent = some x ∧ x.Answered [201, 409]) ∧
      (b.location.remoteName source).any CodePoint.isHalf = false ∧
      (b.location.remoteName target).any CodePoint.isHalf = false
  move_asks : ∀ x, move = some x → b.Asks (.rename source target) x
  answered : ∃ later,
    w.answers = (parent.toList ++ move.toList).filterMap Exchange.reply ++ later
  ok_iff : result = .ok () ↔ ∃ x, move = some x ∧ x.Answered [201]

section

variable {b : Backend} {w : World} {target : Text}

theorem Signs.asks {op : Operation} {x : Exchange} (h : b.Signs op x.request)
    (hloc : b.location.Placed) (hroot : Path.Named b.location.root)
    (hpath : ∀ path, op.target? = some path → Path.Named path) : b.Asks op x :=
  ⟨h, h.readsBack hloc hroot hpath⟩

end

end Backend

end DataLake
