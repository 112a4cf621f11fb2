import DataLake.Proofs.Contiguity
import DataLake.Proofs.Establishment
import DataLake.Proofs.PlainNumber
import DataLake.Proofs.StatedLength

/-!
Positions in a file. An append writer appends and commits at the end of its file, as far as it
knows it, and it knows it from the length that a probe found. So no position is negative unless
that length is: a length of digits alone never is, but a header may also state one with a sign,
which is read as well.
-/

namespace DataLake

namespace Exchange

variable {x : Exchange} {n : Int} {value : Text}

/-- A length that is stated and can be read is found. -/
theorem found?_of_stated (hstated : x.statedLength? = some value)
    (hread : Text.readInt? value = some n) : x.found? = some n := by
  unfold statedLength? at hstated
  split at hstated
  · next hkind =>
    obtain ⟨r, hresponse, hheader⟩ := Option.bind_eq_some_iff.mp hstated
    split at hheader
    · next hthere =>
      have hlength : readContentLength r.headers = .ok (some n) := by
        unfold readContentLength
        simp only [hheader, hread]
      unfold found?
      rw [if_pos hkind, hresponse, Option.bind_some]
      unfold Response.storedSize?
      rw [if_neg (by rw [hthere]; decide), if_pos hthere, hlength]
      rfl
    · cases hheader
  · cases hstated

/-- A length that is found is zero, unless it is stated. -/
theorem found?_cases (h : x.found? = some n) :
    n = 0 ∨ ∃ value, x.statedLength? = some value ∧ Text.readInt? value = some n := by
  unfold found? at h
  split at h
  · next hkind =>
    obtain ⟨r, hresponse, hsize⟩ := Option.bind_eq_some_iff.mp h
    unfold Response.storedSize? at hsize
    split at hsize
    · exact .inl (Option.some.inj hsize).symm
    · split at hsize
      · next hthere =>
        unfold readContentLength at hsize
        split at hsize
        · cases hsize
          exact .inl rfl
        · next value hheader =>
          split at hsize
          · next m hread =>
            cases hsize
            refine .inr ⟨value, ?_, hread⟩
            unfold statedLength?
            rw [if_pos hkind, hresponse, Option.bind_some, if_pos hthere, hheader]
          · cases hsize
      · cases hsize
  · cases h

end Exchange

/-- The position that a request goes to when some exchanges were before: it appends or commits
at the end of the file. -/
structure Upload.GoesTo (u : Upload) (past : Ledger) (p : Int) (x : Exchange) : Prop where
  end_eq : past.fileEnd? = some p
  signed : (∃ data, u.backend.Signs (.update u.path p data false) x.request) ∨
    u.backend.Signs (.flush u.path p) x.request

/-- A file whose length was found to be none that is negative has no negative end. -/
theorem Ledger.fileEnd?_nonneg {xs ys : Ledger} {m : Int}
    (hfound : ∀ n, Ledger.found? (xs ++ ys) = some n → 0 ≤ n) (h : xs.fileEnd? = some m) :
    0 ≤ m := by
  obtain ⟨n, hn, rfl⟩ := Option.map_eq_some_iff.mp h
  have hpos := hfound n (by rw [Ledger.found?_append, hn, Option.some_or])
  omega

namespace AppendWriter

variable {u : Upload} {past : Ledger} {x : Exchange}

/-- An append or a commit goes to the end of the file. -/
theorem MayFollow.goesTo (h : MayFollow u past x) (hkind : x.kind = .append ∨ x.kind = .commit) :
    ∃ p, u.GoesTo past p x := by
  obtain ⟨turn, h⟩ := h
  cases h with
  | probe hx =>
      rw [kind_probe hx] at hkind
      rcases hkind with hkind | hkind <;> cases hkind
  | creation hx =>
      rw [kind_creation hx] at hkind
      rcases hkind with hkind | hkind <;> cases hkind
  | append p data _ _ hx hend => exact ⟨p, hend, .inl ⟨data, hx⟩⟩
  | commit p _ hx hend => exact ⟨p, hend, .inr hx⟩

/-- Whatever the requests are, nothing is accepted before the length is found. -/
theorem settled_of_along {xs : Ledger} (h : Along (MayFollow u) [] xs) : xs.Settled := by
  have hstep (past : Ledger) (x : Exchange) (hx : MayFollow u past x) (hpast : past.Settled) :
      Ledger.Settled (past ++ [x]) := by
    intro hfound
    rw [Ledger.found?_append, Option.or_eq_none_iff] at hfound
    have hadded : x.added? = none := by
      cases hadded : x.added? with
      | none => rfl
      | some data =>
          obtain ⟨p, hp, _⟩ := hx.added hadded
          rw [Ledger.fileEnd?_eq_none.mpr hfound.1] at hp
          cases hp
    rw [Ledger.chunks_append, hpast hfound.1, Ledger.chunks_cons_of_none hadded]
    rfl
  exact h.carries hstep fun _ => rfl

/-- A probe that finds the length is at the end of the file. -/
theorem fileEnd?_probed {n : Int} (h : Along (MayFollow u) [] past) (hpast : past.found? = none)
    (hfound : x.found? = some n) : Ledger.fileEnd? (past ++ [x]) = some n := by
  have hkind : x.kind = .probe := by
    by_contra hother
    rw [found?_of_kind hother] at hfound
    cases hfound
  have hadded : x.added? = none := added?_of_kind (by rw [hkind]; decide)
  rw [Ledger.fileEnd?_append_of_unknown (Ledger.fileEnd?_eq_none.mpr hpast)
    (settled_of_along h hpast)]
  simp [Ledger.fileEnd?, Ledger.found?, Ledger.chunks, hfound, hadded]

/-- Once the length is known to be one that is not zero, requests go there. -/
theorem MayFollow.cases_known {n : Int} (h : MayFollow u past x) (hend : past.fileEnd? = some n)
    (hlength : past.found? = some n) : n = 0 ∨ u.GoesTo past n x := by
  obtain ⟨turn, h⟩ := h
  cases h with
  | probe _ hunknown =>
      rw [hlength] at hunknown
      cases hunknown
  | creation _ hempty =>
      rw [hlength] at hempty
      exact .inl (Option.some.inj hempty)
  | append p data _ _ hx hp =>
      cases Option.some.inj (hend.symm.trans hp)
      exact .inr ⟨hend, .inl ⟨data, hx⟩⟩
  | commit p _ hx hp =>
      cases Option.some.inj (hend.symm.trans hp)
      exact .inr ⟨hend, .inr hx⟩

/-- A writer whose offset is the end of its file. -/
structure AtEnd (u : Upload) (past : Ledger) (t : AppendWriter) : Prop where
  upload_eq : t.upload = u
  offset_eq : t.offset = past.fileEnd?
  settled : past.Settled

theorem AtEnd.run {t : AppendWriter} (h : AtEnd u past t) (calls : List Call) (w : World) :
    ∃ xs : Ledger, (t.run calls w).2.2.exchanges = w.exchanges ++ xs ∧
      AtEnd u (past ++ xs) (t.run calls w).2.1 ∧ Along (MayFollow u) past xs := by
  induction calls generalizing past t w with
  | nil => exact ⟨[], (List.append_nil _).symm, by rwa [List.append_nil], trivial⟩
  | cons call calls ih =>
      have hdone := t.turn_does call w
      unfold AppendWriter.run
      rcases hturn : t.turn call w with ⟨turn, t', v⟩
      rw [hturn] at hdone
      obtain ⟨hcall, hexchanges, ht, hdoes⟩ := hdone
      rw [h.upload_eq, h.offset_eq, ← hcall] at hdoes
      obtain ⟨hend, hsettled⟩ := hdoes.fileEnd h.settled
      have hafter : AtEnd u (past ++ turn.exchanges) t' :=
        ⟨by rw [ht, h.upload_eq], by rw [ht, hend], hsettled⟩
      obtain ⟨xs, hrest, hlast, hfollow⟩ := ih hafter v
      refine ⟨turn.exchanges ++ xs, ?_, ?_, along_append.mpr ⟨?_, hfollow⟩⟩
      · rw [← List.append_assoc, ← hexchanges]
        exact hrest
      · rw [← List.append_assoc]
        exact hlast
      · rw [along_iff]
        intro ys x zs hsplit
        exact ⟨turn, along_iff.mp (hdoes.continues h.settled) ys x zs hsplit⟩

end AppendWriter

namespace Writer

open AppendWriter (AtEnd MayFollow)

variable {u : Upload}

/-- What a turn of an append writer shows after some exchanges. -/
structure Turn.Positioned (u : Upload) (past : Ledger) (turn : Turn) : Prop where
  offset_eq : turn.writer.offset? = Ledger.fileEnd? (past ++ turn.exchanges)
  requests : Along (MayFollow u) past turn.exchanges
  heeds : u.Heeds turn.exchanges turn.result turn.writer.offset?

theorem run_positioned {before : List Turn} {t : AppendWriter} (h : AtEnd u (ledger before) t)
    (calls : List Call) (w : World) :
    Along (fun before turn => turn.Positioned u (ledger before)) before
      ((append t).run calls w) := by
  induction calls generalizing before t w with
  | nil => trivial
  | cons call calls ih =>
      obtain ⟨small, -, hsmall⟩ := call.run_append t w
      obtain ⟨xs, hxs, hend, hfollow⟩ := h.run small w
      obtain ⟨ys, hys, hheeds⟩ := call.run_heeds t w
      rw [h.upload_eq] at hheeds
      unfold run turn
      rcases hrun : call.run (append t) w with ⟨result, t', v⟩
      rw [hrun] at hsmall hys hheeds
      dsimp only at hsmall hys hheeds ⊢
      obtain ⟨rfl, rfl⟩ := Prod.mk.inj hsmall
      rw [hxs, List.append_cancel_left_eq] at hys
      subst hys
      rw [hxs, List.drop_left]
      refine ⟨⟨hend.offset_eq, hfollow, hheeds⟩, ih ?_ _⟩
      rwa [ledger_append, ledger_singleton]

/-- No offset and no position is negative. -/
structure NonNegative (u : Upload) (turns : List Turn) : Prop where
  offsets : ∀ turn ∈ turns, ∀ n, turn.writer.offset? = some n → 0 ≤ n
  positions : ∀ past x later p, ledger turns = past ++ x :: later → u.GoesTo past p x → 0 ≤ p

/-- Positions are sound when none is negative and every stated length that is not plain is
refused. -/
structure Sound (u : Upload) (turns : List Turn) : Prop where
  nonNegative : NonNegative u turns
  refuses : ∀ turn ∈ turns, ∀ x ∈ turn.exchanges, ∀ value, x.statedLength? = some value →
    Text.plainNumber? value = none →
      u.Refuses value turn.exchanges turn.result turn.writer.offset?

section

variable {turns : List Turn}
  (hturns : Along (fun before turn => turn.Positioned u (ledger before)) [] turns)

include hturns

theorem positioned_of_mem {turn : Turn} (hmem : turn ∈ turns) : ∃ before after,
    ledger turns = (ledger before ++ turn.exchanges) ++ ledger after ∧
      turn.Positioned u (ledger before) := by
  obtain ⟨before, after, rfl⟩ := List.append_of_mem hmem
  refine ⟨before, after, ?_, along_iff.mp hturns before turn after rfl⟩
  simp [ledger]

theorem along_follow : Along (MayFollow u) [] (ledger turns) := by
  have hparts : Along (fun past turn => Along (MayFollow u) (ledger past) turn.exchanges) []
      turns :=
    along_iff.mpr fun before turn after hsplit =>
      (along_iff.mp hturns before turn after hsplit).requests
  exact along_flatMap hparts

/-- The length that was found is where the next request goes; if there is none, it is the offset
after its turn. -/
theorem found_nonneg (h : NonNegative u turns) {n : Int} (hn : (ledger turns).found? = some n) :
    0 ≤ n := by
  obtain ⟨past, x, later, hsplit, hfound, hbefore⟩ := List.findSome?_eq_some_iff.mp hn
  have hpast : Ledger.found? past = none := List.findSome?_eq_none_iff.mpr hbefore
  have hfollow := along_follow hturns
  rw [hsplit] at hfollow
  have hend : Ledger.fileEnd? (past ++ [x]) = some n :=
    AppendWriter.fileEnd?_probed (along_append.mp hfollow).1 hpast hfound
  cases later with
  | nil =>
      obtain ⟨turn, hmem, hx⟩ := List.mem_flatMap.mp (show x ∈ ledger turns by rw [hsplit]; simp)
      obtain ⟨before, after, hledger, hpositioned⟩ := positioned_of_mem hturns hmem
      obtain ⟨m, hm⟩ : ∃ m, Ledger.fileEnd? (ledger before ++ turn.exchanges) = some m := by
        refine Option.ne_none_iff_exists'.mp fun hnone => ?_
        have hnone := List.findSome?_eq_none_iff.mp (Ledger.fileEnd?_eq_none.mp hnone) x
          (List.mem_append_right _ hx)
        rw [hfound] at hnone
        cases hnone
      have hoffset := h.offsets turn hmem m (hpositioned.offset_eq.trans hm)
      have hlast := Ledger.fileEnd?_append_of_known hm (ledger after)
      rw [← hledger, hsplit, hend] at hlast
      have hsum := Option.some.inj hlast
      omega
  | cons y rest =>
      rw [List.append_cons] at hfollow hsplit
      have hnext : MayFollow u (past ++ [x]) y := (along_append.mp hfollow).2.1
      have hlength : Ledger.found? (past ++ [x]) = some n := by
        rw [Ledger.found?_append, hpast]
        simp [Ledger.found?, hfound]
      rcases hnext.cases_known hend hlength with rfl | hgoes
      · exact Int.le_refl 0
      · exact h.positions _ y rest n hsplit hgoes

theorem nonNegative_iff :
    NonNegative u turns ↔ ∀ n, (ledger turns).found? = some n → 0 ≤ n := by
  refine ⟨fun h n => found_nonneg hturns h, fun hfound => ⟨?_, ?_⟩⟩
  · intro turn hmem m hm
    obtain ⟨before, after, hledger, hpositioned⟩ := positioned_of_mem hturns hmem
    rw [hpositioned.offset_eq] at hm
    exact Ledger.fileEnd?_nonneg (hledger ▸ hfound) hm
  · intro past x later p hsplit hgoes
    exact Ledger.fileEnd?_nonneg (hsplit ▸ hfound) hgoes.end_eq

theorem sound_iff :
    Sound u turns ↔ ∀ x ∈ ledger turns, ∀ value, x.statedLength? = some value →
      Text.plainNumber? value ≠ none ∨ Text.readInt? value = none := by
  constructor
  · intro h x hx value hstated
    by_contra hneither
    rw [not_or, not_not] at hneither
    obtain ⟨hplain, hreads⟩ := hneither
    obtain ⟨n, hread⟩ := Option.ne_none_iff_exists'.mp hreads
    obtain ⟨turn, hturn, hmem⟩ := List.mem_flatMap.mp hx
    obtain ⟨before, after, _, hpositioned⟩ := positioned_of_mem hturns hturn
    have hunknown := (h.refuses turn hturn x hmem value hstated hplain).offset_eq
    rw [hpositioned.offset_eq, Ledger.fileEnd?_eq_none, Ledger.found?_append,
      Option.or_eq_none_iff] at hunknown
    have hnone := List.findSome?_eq_none_iff.mp hunknown.2 x hmem
    rw [Exchange.found?_of_stated hstated hread] at hnone
    cases hnone
  · intro h
    refine ⟨(nonNegative_iff hturns).mpr fun n hn => ?_, ?_⟩
    · obtain ⟨x, hx, hfound⟩ := List.exists_of_findSome?_eq_some hn
      rcases Exchange.found?_cases hfound with rfl | ⟨value, hstated, hread⟩
      · exact Int.le_refl 0
      · by_contra hneg
        have hplain := Text.not_plain_of_readInt?_neg hread (Int.not_le.mp hneg)
        rcases h x hx value hstated with hcontra | hcontra
        · exact hcontra hplain
        · rw [hread] at hcontra
          cases hcontra
    · intro turn hmem x hx value hstated hplain
      obtain ⟨before, after, hledger, hpositioned⟩ := positioned_of_mem hturns hmem
      have hx' : x ∈ ledger turns := List.mem_flatMap.mpr ⟨turn, hmem, hx⟩
      exact hpositioned.heeds x hx value hstated
        ((h x hx' value hstated).resolve_left fun hsome => hsome hplain)

end

/-- The runs of an append writer. Every append and every commit has a position, the end of the
file. No offset and no position is negative exactly if the length that was found is not; and
positions are sound exactly if every stated length is plain or cannot be read. -/
theorem positions_sound_iff (u : Upload) (flag : Option Text) (bufferSize : Option Int)
    (calls : List Call) (w : World) :
    let turns := (append (AppendWriter.opened u flag bufferSize)).run calls w
    turns.map Turn.call = calls ∧
      (∀ past x later, ledger turns = past ++ x :: later → x.kind = .append ∨ x.kind = .commit →
        ∃ p, u.GoesTo past p x) ∧
      (NonNegative u turns ↔ ∀ n, (ledger turns).found? = some n → 0 ≤ n) ∧
      (Sound u turns ↔ ∀ x ∈ ledger turns, ∀ value, x.statedLength? = some value →
        Text.plainNumber? value ≠ none ∨ Text.readInt? value = none) := by
  have hend : AtEnd u (ledger []) (AppendWriter.opened u flag bufferSize) :=
    ⟨rfl, rfl, fun _ => rfl⟩
  have hturns := run_positioned hend calls w
  refine ⟨run_calls _ calls w, ?_, nonNegative_iff hturns, sound_iff hturns⟩
  intro past x later hsplit hkind
  exact (along_iff.mp (along_follow hturns) past x later hsplit).goesTo hkind

/-- A service that answers a probe with a file of the stated length, and takes what is sent then. -/
def stating (value : Text) : World where
  answers := [.response ⟨200, [("Content-Length", value)], [], ""⟩, .response ⟨202, [], [], ""⟩]
  tokens := [.token "t"]

/-- A length with a minus sign is read, and what is written goes before the start of the file. -/
theorem append_before_start :
    let turns := (append (AppendWriter.opened AppendWriter.logUpload none none)).run
      [.write [97]] (stating "-5")
    turns.map (fun turn => turn.exchanges.map Exchange.kind) = [[.probe, .append]] ∧
      (ledger turns).found? = some (-5) ∧ turns.map (fun turn => turn.writer.offset?) = [some (-4)] ∧
      ¬ NonNegative AppendWriter.logUpload turns ∧ ¬ Sound AppendWriter.logUpload turns := by
  intro turns
  have hkinds : turns.map (fun turn => turn.exchanges.map Exchange.kind) = [[.probe, .append]] := by
    decide +kernel
  have hfound : (ledger turns).found? = some (-5) := by decide +kernel
  have hoffsets : turns.map (fun turn => turn.writer.offset?) = [some (-4)] := by decide +kernel
  have hnegative : ¬ NonNegative AppendWriter.logUpload turns := by
    intro h
    obtain ⟨turn, hmem, hoffset⟩ := List.mem_map.mp (hoffsets ▸ List.mem_singleton_self (some (-4)))
    exact absurd (h.offsets turn hmem (-4) hoffset) (by decide)
  exact ⟨hkinds, hfound, hoffsets, hnegative, fun h => hnegative h.nonNegative⟩

end Writer

end DataLake
