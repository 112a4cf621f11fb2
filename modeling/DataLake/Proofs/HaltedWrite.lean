import DataLake.Proofs.HaltedSource
import DataLake.Proofs.SourceUpload
import DataLake.Proofs.WriterRun

/-!
Writing from a source that is halted. The bytes that a writer hands on are those of the
chunks that were taken before its flag went up, and it ends with the halt if anything is
left. There are two ways around this: a one-shot writer takes bytes as a whole without a
look at the flag, and a writer that cannot take its first piece at all fails as it would
without a flag.
-/

namespace DataLake

namespace AppendWriter

/-- Making sure that the offset is known hands no bytes on. -/
theorem Opening.bodies {u : Upload} {o o' : Option Int} {xs : Ledger}
    {result : Except Failure Unit} (h : Opening u o xs result o') :
    (xs.flatMap fun x => x.request.body) = [] := by
  cases h with
  | known | unasked => rfl
  | unfound _ x hx | existing _ x hx | uncreated _ x hx =>
      have hbody : x.request.body = [] := hx.body_eq
      simp [hbody]
  | refused _ x y hx _ hy | created x y hx _ hy =>
      have hprobe : x.request.body = [] := hx.body_eq
      have hcreation : y.request.body = [] := hy.body_eq
      simp [hprobe, hcreation]

/-- A write hands its piece on or nothing, and all of it when it succeeds. -/
theorem Does.bodies {u : Upload} {closed : Bool} {o o' : Option Int} {data : Bytes} {xs : Ledger}
    {result : Except Failure Unit} (h : Does u closed o (.write data) xs result o') :
    let handed := xs.flatMap fun x => x.request.body
    (handed = [] ∨ handed = data) ∧ (result = .ok () → handed = data) := by
  cases h with
  | writeClosed => exact ⟨.inl rfl, nofun⟩
  | silent _ _ _ hcall => cases hcall
  | unopened _ _ _ hopen =>
      dsimp only
      rw [hopen.bodies]
      exact ⟨.inl rfl, nofun⟩
  | opened hopen hfollows =>
      dsimp only
      rw [List.flatMap_append, hopen.bodies, List.nil_append]
      cases hfollows with
      | nothing => exact ⟨.inl rfl, fun _ => rfl⟩
      | halted => exact ⟨.inl rfl, nofun⟩
      | refused _ _ _ happend =>
          cases happend with
          | unsent => exact ⟨.inl rfl, nofun⟩
          | refused _ y hy =>
              have hbody : y.request.body = data := hy.body_eq
              exact ⟨.inr (by simp [hbody]), nofun⟩
      | written _ _ happend =>
          cases happend with
          | accepted _ y hy =>
              have hbody : y.request.body = data := hy.body_eq
              exact ⟨.inr (by simp [hbody]), fun _ => by simp [hbody]⟩

end AppendWriter

theorem Upload.closedFailure_ne_halted (u : Upload) : u.closedFailure ≠ .halted := by
  simp [closedFailure]

namespace Writer

/-- The bytes that a writer has handed on: an append writer sends them, a one-shot writer
collects them. -/
def payload (t : Writer) (w : World) : Bytes :=
  match t with
  | oneShot t => t.buffer
  | append _ => w.exchanges.flatMap fun x => x.request.body

/-- The writer takes no piece, and not because of its flag: it is closed, or it does not find
out where the file ends. -/
def Blocked (t : Writer) (w : World) : Prop :=
  match t with
  | oneShot t => t.closed = true
  | append t => t.closed = true ∨ ∃ e, e ≠ .halted ∧ (t.ensureStarted w).1 = .error e

theorem payload_raiseFlag (t : Writer) (up : Bool) (w : World) :
    t.payload (t.raiseFlag up w) = t.payload w := by
  cases t with
  | oneShot t => rfl
  | append t =>
      unfold payload
      dsimp only
      rw [exchanges_raiseFlag]

/-- A write hands its piece on or nothing, and all of it when it succeeds. -/
theorem write_payload (t : Writer) (data : Bytes) (w : World) :
    ∃ handed, (t.write data w).2.1.payload (t.write data w).2.2 = t.payload w ++ handed ∧
      (handed = [] ∨ handed = data) ∧ ((t.write data w).1 = .ok () → handed = data) := by
  cases t with
  | oneShot t =>
      unfold write OneShotWriter.write
      dsimp only
      split
      · exact ⟨[], (List.append_nil _).symm, .inl rfl, nofun⟩
      · refine ⟨data, ?_, .inr rfl, fun _ => rfl⟩
        simp [payload, OneShotWriter.buffer]
  | append t =>
      obtain ⟨xs, o, hxs, _, hdoes⟩ := (AppendWriter.Call.write data).run_does t w
      refine ⟨xs.flatMap fun x => x.request.body, ?_, hdoes.bodies⟩
      change ((t.write data w).2.2.exchanges.flatMap fun x => x.request.body) = _
      change (t.write data w).2.2.exchanges = _ at hxs
      rw [hxs, List.flatMap_append]
      rfl

/-- A writer that took a piece is not blocked afterwards. -/
theorem not_blocked_of_write {t : Writer} {data : Bytes} {w : World}
    (h : (t.write data w).1 = .ok ()) (v : World) : ¬ (t.write data w).2.1.Blocked v := by
  cases t with
  | oneShot t =>
      unfold write OneShotWriter.write at h ⊢
      dsimp only at h ⊢
      split at h
      · cases h
      · next hopen =>
        rw [if_neg hopen]
        exact hopen
  | append t =>
      obtain ⟨xs, o, _, ht, hdoes⟩ := (AppendWriter.Call.write data).run_does t w
      change (t.write data w).2.1 = _ at ht
      change (t.write data w).1 = _ at h
      change AppendWriter.Does _ _ _ _ xs (t.write data w).1 o at hdoes
      rw [h] at hdoes
      obtain ⟨hopen, p, rfl⟩ := hdoes.write_ok
      change ¬ (append (t.write data w).2.1).Blocked v
      rw [ht, hopen]
      rintro (hclosed | ⟨e, _, herror⟩)
      · cases hclosed
      · rw [AppendWriter.ensureStarted_known rfl] at herror
        cases herror

/-- With its flag up an append writer hands on nothing. It fails with the halt unless it has
another reason to fail, or nothing to send. -/
theorem write_raised_append {t : AppendWriter} {w : World} (hup : w.isRaised t.flag = true)
    (data : Bytes) :
    ((append t).write data w).2.1.payload ((append t).write data w).2.2 = (append t).payload w ∧
      ((append t).Blocked w → ∃ e, e ≠ .halted ∧ ((append t).write data w).1 = .error e) ∧
      (¬ (append t).Blocked w → ((append t).write data w).1 = .error .halted ∨
        (data = [] ∧ ((append t).write data w).1 = .ok ())) := by
  have hplanned : Planned t.upload.backend none t.upload.Asks _ t.ensureStarted :=
    t.ensureStarted_planned
  obtain ⟨_, hpassage⟩ := hplanned.passage w
  obtain ⟨xs, o, hxs, ht, hopen⟩ := t.ensureStarted_opens w
  have hsame (v : World) (hv : v.exchanges = w.exchanges ++ xs) :
      (v.exchanges.flatMap fun x => x.request.body) = w.exchanges.flatMap fun x => x.request.body := by
    rw [hv, List.flatMap_append, hopen.bodies, List.append_nil]
  unfold Blocked write payload AppendWriter.write
  dsimp only
  by_cases hclosed : t.closed = true
  · rw [if_pos hclosed]
    exact ⟨rfl, fun _ => ⟨_, t.upload.closedFailure_ne_halted, rfl⟩,
      fun hfree => absurd (.inl hclosed) hfree⟩
  · rw [if_neg hclosed]
    rcases hstarted : t.ensureStarted w with ⟨e | _, s, v⟩
    · rw [hstarted] at hxs
      refine ⟨hsame v hxs, ?_, fun hfree => .inl ?_⟩
      · rintro (hcontra | ⟨e', hother, herror⟩)
        · exact absurd hcontra hclosed
        · cases herror
          exact ⟨e, hother, rfl⟩
      · by_contra hother
        exact hfree (.inr ⟨e, fun heq => hother (congrArg _ heq), rfl⟩)
    · rw [hstarted] at hxs ht hpassage
      have hraised : v.isRaised s.flag = true := by
        rw [hpassage.isRaised_eq, show s = _ from ht]
        exact hup
      have hfree : ¬ (t.closed = true ∨
          ∃ e, e ≠ .halted ∧ (.ok () : Except Failure Unit) = .error e) := by
        rintro (hcontra | ⟨e, _, herror⟩)
        · exact hclosed hcontra
        · cases herror
      dsimp only
      rw [hraised]
      by_cases hdata : data = []
      · subst hdata
        exact ⟨hsame v hxs, fun hblocked => absurd hblocked hfree, fun _ => .inr ⟨rfl, rfl⟩⟩
      · rw [if_neg (by simpa using hdata), if_pos rfl]
        exact ⟨hsame v hxs, fun hblocked => absurd hblocked hfree, fun _ => .inl rfl⟩

/-- A one-shot writer takes a piece whatever its flag says, unless it is closed. -/
theorem write_oneShot (t : OneShotWriter) (data : Bytes) (w : World) :
    ((oneShot t).Blocked w → ∃ e, e ≠ .halted ∧ ((oneShot t).write data w).1 = .error e) ∧
      (¬ (oneShot t).Blocked w → ((oneShot t).write data w).1 = .ok () ∧
        ((oneShot t).write data w).2.1.payload ((oneShot t).write data w).2.2 =
          (oneShot t).payload w ++ data) := by
  unfold Blocked write OneShotWriter.write
  dsimp only
  constructor
  · intro hclosed
    rw [if_pos hclosed]
    exact ⟨_, t.upload.closedFailure_ne_halted, rfl⟩
  · intro hopen
    rw [if_neg hopen]
    simp [payload, OneShotWriter.buffer]

/-- With its flag up a writer hands on its piece or nothing. It takes the piece or fails with
the halt, unless it has another reason to fail. -/
theorem write_raised {t : Writer} {w : World} (hup : w.isRaised t.flag = true) (data : Bytes) :
    (t.Blocked w → ∃ e, e ≠ .halted ∧ (t.write data w).1 = .error e) ∧
      (¬ t.Blocked w → (t.write data w).1 = .error .halted ∨ (t.write data w).1 = .ok ()) := by
  cases t with
  | oneShot t =>
      obtain ⟨hblocked, hfree⟩ := write_oneShot t data w
      exact ⟨hblocked, fun hopen => .inr (hfree hopen).1⟩
  | append t =>
      obtain ⟨_, hblocked, hfree⟩ := write_raised_append hup data
      exact ⟨hblocked, fun hopen => (hfree hopen).imp_right And.right⟩

/-- There is a moment only for a writer with a flag. -/
theorem flag_of_moment {t : Writer} {halt : HaltMoment} {w : World} {k : Nat}
    (hmoment : t.haltMoment halt w = some k) : ∃ flag, t.flag = some flag := by
  unfold haltMoment World.isRaised at hmoment
  cases hflag : t.flag with
  | none =>
      rw [hflag] at hmoment
      cases hmoment
  | some flag => exact ⟨flag, rfl⟩

theorem isRaised_raiseFlag {t : Writer} {flag : Text} (hflag : t.flag = some flag) (w : World) :
    (t.raiseFlag true w).isRaised t.flag = true := by
  unfold raiseFlag World.isRaised World.raise
  rw [hflag]
  dsimp only [Option.any_some]
  rw [if_pos rfl]
  split
  · next hraised => exact hraised
  · simp

/-- A moment after the start comes only if the flag is not up before. -/
theorem isRaised_of_moment {t : Writer} {halt : HaltMoment} {w : World} {k : Nat}
    (hmoment : t.haltMoment halt w = some k) (hk : k ≠ 0) : w.isRaised t.flag = false := by
  unfold haltMoment at hmoment
  split at hmoment
  · cases hmoment
    exact absurd rfl hk
  · next hdown => exact Bool.eq_false_iff.mpr hdown

theorem writeAll_concat (t : Writer) (halt : HaltMoment) (taken : Nat) (pieces : List Bytes)
    (last : Bytes) (w : World) :
    t.writeAll halt taken (pieces ++ [last]) w =
      match t.writeAll halt taken pieces w with
      | (.error e, t, v) => (.error e, t, v)
      | (.ok _, t, v) =>
          t.write last (t.raiseFlag (halt.isUp (taken + pieces.length + 1)) v) := by
  induction pieces generalizing t taken w with
  | nil =>
      simp only [List.nil_append, writeAll, List.length_nil, Nat.add_zero]
      rcases t.write last (t.raiseFlag (halt.isUp (taken + 1)) w) with ⟨e | _, t', v⟩ <;> rfl
  | cons data rest ih =>
      simp only [List.cons_append, writeAll, List.length_cons]
      rcases t.write data (t.raiseFlag (halt.isUp (taken + 1)) w) with ⟨e | _, t', v⟩
      · rfl
      · dsimp only
        rw [ih, Nat.add_right_comm taken 1]
        rfl

/-- Pieces that are written before the moment are written as without it. -/
theorem writeAll_before (t : Writer) {k taken : Nat} {pieces : List Bytes}
    (h : taken + pieces.length < k) (w : World) :
    t.writeAll (some k) taken pieces w = t.writeAll none taken pieces w := by
  induction pieces generalizing t taken w with
  | nil => rfl
  | cons data rest ih =>
      rw [List.length_cons] at h
      have hdown : HaltMoment.isUp (some k) (taken + 1) = HaltMoment.isUp none (taken + 1) := by
        rw [Source.isUp_some]
        exact decide_eq_false (by omega)
      unfold writeAll
      rw [hdown]
      rcases t.write data (t.raiseFlag (HaltMoment.isUp none (taken + 1)) w) with ⟨e | _, t', v⟩
      · rfl
      · exact ih t' (by omega) v

theorem writeAll_payload {t : Writer} {halt : HaltMoment} {taken : Nat} {pieces : List Bytes}
    {w : World} (h : (t.writeAll halt taken pieces w).1 = .ok ()) :
    (t.writeAll halt taken pieces w).2.1.payload (t.writeAll halt taken pieces w).2.2 =
      t.payload w ++ pieces.flatten := by
  induction pieces generalizing t taken w with
  | nil => simp [writeAll]
  | cons data rest ih =>
      unfold writeAll at h ⊢
      obtain ⟨handed, hpayload, _, hall⟩ :=
        t.write_payload data (t.raiseFlag (halt.isUp (taken + 1)) w)
      rcases hw : t.write data (t.raiseFlag (halt.isUp (taken + 1)) w) with ⟨e | _, t', v⟩
      · rw [hw] at h
        cases h
      · rw [hw] at h hpayload hall
        rw [ih h, hpayload, hall rfl, payload_raiseFlag, List.append_assoc]
        rfl

/-- A writer that took pieces is not blocked afterwards. -/
theorem not_blocked_of_writeAll {t : Writer} {halt : HaltMoment} {taken : Nat}
    {pieces : List Bytes} {w : World} (hsome : pieces ≠ [])
    (h : (t.writeAll halt taken pieces w).1 = .ok ()) (v : World) :
    ¬ (t.writeAll halt taken pieces w).2.1.Blocked v := by
  induction pieces generalizing t taken w with
  | nil => exact absurd rfl hsome
  | cons data rest ih =>
      unfold writeAll at h ⊢
      rcases hw : t.write data (t.raiseFlag (halt.isUp (taken + 1)) w) with ⟨e | _, t', u⟩
      · rw [hw] at h
        cases h
      · rw [hw] at h
        cases rest with
        | nil =>
            have hok : (t.write data (t.raiseFlag (halt.isUp (taken + 1)) w)).1 = .ok () := by
              rw [hw]
            have hfree := not_blocked_of_write hok v
            rwa [hw] at hfree
        | cons next rest => exact ih (List.cons_ne_nil _ _) h

/-- A run of writing from a source that was stopped at its moment: the bytes that it handed on
are those that were taken by then, or the first of them, and it failed with the halt if any were
left. -/
structure Stopped (t : Writer) (source : Source) (halt : HaltMoment) (k : Nat) (w : World) :
    Prop where
  handed : ∃ handed, handed <+: (source.taken t.bufferSize w.room.memory k).flatten ∧
    (t.writeFromWith source halt w).2.1.payload (t.writeFromWith source halt w).2.2 =
      t.payload w ++ handed
  halted : source.left t.bufferSize w.room.memory k ≠ [] →
    (t.writeFromWith source halt w).1 = .error .halted

/-- The runs that a flag does not stop as it should. -/
inductive Overlooks (w : World) : Writer → Source → Nat → Prop where
  /-- A one-shot writer takes bytes as a whole with its flag up. -/
  | whole (t : OneShotWriter) (data : Bytes) : Overlooks w (oneShot t) (.whole data) 0
  /-- A writer fails for another reason when it is given its first piece. -/
  | blocked (t : Writer) (source : Source) (k : Nat) (hfirst : k = 1 ∨ k = 0 ∧ source.IsWhole)
      (hblocked : t.Blocked (t.raiseFlag true w)) : Overlooks w t source k

section

variable {t : Writer} {source : Source} {halt : HaltMoment} {k : Nat} {w : World}

/-- A run in which the flag goes up at a moment: the pieces that the source gives are written,
and then it fails as the source does. -/
theorem writeFromWith_eq (source : Source) (hmoment : t.haltMoment halt w = some k) :
    t.writeFromWith source halt w =
      let written := t.writeAll (some k) 0 (source.chunks t.bufferSize (some k) w.room.memory).1
        (t.raiseFlag (decide (k = 0)) w)
      (written.1.bind fun _ =>
          (source.chunks t.bufferSize (some k) w.room.memory).2.elim (.ok ()) .error,
        written.2) := by
  have hstart : HaltMoment.isUp (some k) 0 = decide (k = 0) := by
    rw [Source.isUp_some]
    exact decide_eq_decide.mpr Nat.le_zero
  have hresult := t.writeFromWith_result source halt w
  have hwritten := t.writeFromWith_left source halt w
  rw [hmoment] at hresult hwritten
  dsimp only at hresult hwritten
  rw [hstart] at hresult hwritten
  exact Prod.ext hresult hwritten

/-- A run that fails for another reason than the halt was not stopped. -/
theorem not_stopped_of_error {e : Failure} (hne : e ≠ .halted)
    (herror : (t.writeFromWith source halt w).1 = .error e)
    (hleft : source.left t.bufferSize w.room.memory k ≠ []) : ¬ t.Stopped source halt k w := by
  intro hstopped
  have hhalted := hstopped.halted hleft
  rw [herror] at hhalted
  exact hne (Except.error.inj hhalted)

/-- Bytes as a whole are one piece, which is written with the flag up if it was up before. -/
theorem writeFrom_whole_eq (hmoment : t.haltMoment halt w = some 0) (data : Bytes) :
    t.writeFromWith (.whole data) halt w = t.write data (t.raiseFlag true w) := by
  obtain ⟨flag, hflag⟩ := flag_of_moment hmoment
  have hpiece : t.writeAll (some 0) 0 [data] (t.raiseFlag true w) =
      t.write data (t.raiseFlag true w) := by
    have hraised : t.raiseFlag (HaltMoment.isUp (some 0) 1) (t.raiseFlag true w) =
        t.raiseFlag true w := raiseFlag_of_raised (isRaised_raiseFlag hflag w) _
    exact (t.writeAll_concat (some 0) 0 [] data _).trans (congrArg (t.write data) hraised)
  rw [writeFromWith_eq _ hmoment]
  change ((t.writeAll (some 0) 0 [data] (t.raiseFlag true w)).1.bind _,
    (t.writeAll (some 0) 0 [data] (t.raiseFlag true w)).2) = _
  rw [hpiece]
  rcases t.write data (t.raiseFlag true w) with ⟨e | _, t', v⟩ <;> rfl

theorem stopped_whole_iff (hmoment : t.haltMoment halt w = some 0) (data : Bytes) :
    t.Stopped (.whole data) halt 0 w ↔
      ¬ (Source.left (.whole data) t.bufferSize w.room.memory 0 ≠ [] ∧
        Overlooks w t (.whole data) 0) := by
  obtain ⟨flag, hflag⟩ := flag_of_moment hmoment
  have hrun := writeFrom_whole_eq hmoment data
  have hleft : Source.left (.whole data) t.bufferSize w.room.memory 0 = data := rfl
  rw [hleft]
  by_cases hdata : data = []
  · refine iff_of_true ⟨?_, fun hmore => absurd hdata hmore⟩ fun hover => hover.1 hdata
    obtain ⟨handed, hpayload, hpiece, _⟩ := t.write_payload data (t.raiseFlag true w)
    rw [hrun, hpayload, payload_raiseFlag]
    rcases hpiece with rfl | rfl
    · exact ⟨[], List.nil_prefix, rfl⟩
    · exact ⟨[], List.nil_prefix, by rw [hdata]⟩
  · have hup := isRaised_raiseFlag hflag w
    by_cases hfails : t.Blocked (t.raiseFlag true w)
    · obtain ⟨e, hne, herror⟩ := (write_raised hup data).1 hfails
      have hstopped : ¬ t.Stopped (.whole data) halt 0 w :=
        not_stopped_of_error hne ((congrArg Prod.fst hrun).trans herror) hdata
      refine iff_of_false hstopped fun hnot => hnot ⟨hdata, ?_⟩
      exact .blocked t _ 0 (.inr ⟨rfl, trivial⟩) hfails
    · cases t with
      | oneShot t =>
          refine iff_of_false (fun hstopped => ?_) fun hnot => hnot ⟨hdata, .whole t data⟩
          have hhalted := hstopped.halted hdata
          rw [hrun, ((write_oneShot t data _).2 hfails).1] at hhalted
          cases hhalted
      | append t =>
          obtain ⟨hpayload, _, hresult⟩ := write_raised_append hup data
          refine iff_of_true ⟨⟨[], List.nil_prefix, ?_⟩, fun _ => ?_⟩ ?_
          · rw [hrun, hpayload, payload_raiseFlag, List.append_nil]
          · rw [hrun]
            exact (hresult hfails).resolve_right fun hnone => hdata hnone.1
          · rintro ⟨_, hover⟩
            cases hover with
            | blocked _ _ _ _ hcontra => exact hfails hcontra

/-- A source that looks at the flag first gives nothing once it is up before the start. -/
theorem stopped_start_iff (hmoment : t.haltMoment halt w = some 0) (hlooks : ¬ source.IsWhole) :
    t.Stopped source halt 0 w ↔
      ¬ (source.left t.bufferSize w.room.memory 0 ≠ [] ∧ Overlooks w t source 0) := by
  obtain ⟨hgiven, hending⟩ :=
    source.haltsAt t.bufferSize w.room.memory (k := 0) fun hwhole => absurd hwhole hlooks
  have hnone : (source.chunks t.bufferSize (some 0) w.room.memory).1 = [] := hgiven
  have hrun := writeFromWith_eq source hmoment
  rw [hnone] at hrun
  refine iff_of_true ⟨⟨[], List.nil_prefix, ?_⟩, fun hleft => ?_⟩ ?_
  · rw [hrun, List.append_nil]
    exact t.payload_raiseFlag _ w
  · rw [hrun]
    dsimp only
    rw [hending (Nat.zero_le _) hleft]
    rfl
  · rintro ⟨_, hover⟩
    cases hover with
    | whole => exact hlooks trivial
    | blocked _ _ _ hfirst => exact hlooks (hfirst.resolve_left Nat.zero_ne_one).2

/-- A flag that went up once chunks were taken did so before the last of them was written: the
others were written with the flag down, and the last one with the flag up. -/
theorem later_run {j : Nat} (hmoment : t.haltMoment halt w = some (j + 1))
    (hup : (t.writeFromWith source halt w).2.2.isRaised t.flag = true) :
    ∃ before last t' v, source.taken t.bufferSize w.room.memory (j + 1) = before ++ [last] ∧
      before.length = j ∧ t.writeAll none 0 before w = (.ok (), t', v) ∧
      t.writeFromWith source halt w =
        let written := t'.write last (t'.raiseFlag true v)
        (written.1.bind fun _ =>
          (source.chunks t.bufferSize (some (j + 1)) w.room.memory).2.elim (.ok ()) .error,
          written.2) := by
  have hdown := isRaised_of_moment hmoment (Nat.succ_ne_zero j)
  obtain ⟨hgiven, _⟩ :=
    source.haltsAt t.bufferSize w.room.memory (k := j + 1) fun _ => Nat.succ_ne_zero j
  have hrun := writeFromWith_eq source hmoment
  have hstart : t.raiseFlag (decide (j + 1 = 0)) w = w := t.raiseFlag_of_not w
  rw [hgiven, hstart] at hrun
  have hstays (pieces : List Bytes) :
      (t.writeAll none 0 pieces w).2.2.isRaised t.flag = false := by
    obtain ⟨_, hpassage⟩ := (t.writeAll_plans 0 pieces).passage w
    rw [hpassage.isRaised_eq, hdown]
  have hcame : (source.taken t.bufferSize w.room.memory (j + 1)).length = j + 1 := by
    refine Nat.le_antisymm (List.length_take_le _ _) (Nat.not_lt.mp fun hshort => ?_)
    rw [hrun, t.writeAll_before (by omega), hstays] at hup
    cases hup
  obtain ⟨before, last, htaken⟩ : ∃ before last,
      source.taken t.bufferSize w.room.memory (j + 1) = before ++ [last] :=
    ⟨_, _, (List.dropLast_append_getLast (List.ne_nil_of_length_eq_add_one hcame)).symm⟩
  have hbefore : before.length = j := by
    rw [htaken, List.length_append, List.length_singleton] at hcame
    omega
  have hlast : HaltMoment.isUp (some (j + 1)) (0 + before.length + 1) = true := by
    rw [Source.isUp_some]
    exact decide_eq_true (by omega)
  rw [htaken, writeAll_concat, t.writeAll_before (by omega), hlast] at hrun
  have hdone := hstays before
  rcases hwritten : t.writeAll none 0 before w with ⟨e | _, t', v⟩
  · rw [hwritten] at hrun hdone
    rw [hrun] at hup
    exact absurd hup (Bool.eq_false_iff.mp hdone)
  · rw [hwritten] at hrun
    exact ⟨before, last, t', v, htaken, hbefore, hwritten, hrun⟩

/-- Only a writer that is given its first piece can be blocked once the flag is up. -/
theorem overlooks_later_iff {j : Nat} {before : List Bytes} {t' : Writer} {v : World}
    (hbefore : before.length = j) (hwritten : t.writeAll none 0 before w = (.ok (), t', v)) :
    Overlooks w t source (j + 1) ↔ t'.Blocked (t'.raiseFlag true v) := by
  cases before with
  | nil =>
      cases hbefore
      cases hwritten
      refine ⟨fun hover => ?_, .blocked t source 1 (.inl rfl)⟩
      cases hover with
      | blocked _ _ _ _ hblocked => exact hblocked
  | cons first rest =>
      have hok : (t.writeAll none 0 (first :: rest) w).1 = .ok () := by rw [hwritten]
      have hfree := not_blocked_of_writeAll (List.cons_ne_nil first rest) hok
      rw [hwritten] at hfree
      refine iff_of_false (fun hover => ?_) (hfree _)
      rw [List.length_cons] at hbefore
      cases hover with
      | blocked _ _ _ hfirst => omega

/-- Once chunks were taken, only a writer that is blocked fails for another reason. -/
theorem stopped_later_iff {j : Nat} (hmoment : t.haltMoment halt w = some (j + 1))
    (hup : (t.writeFromWith source halt w).2.2.isRaised t.flag = true) :
    t.Stopped source halt (j + 1) w ↔
      ¬ (source.left t.bufferSize w.room.memory (j + 1) ≠ [] ∧ Overlooks w t source (j + 1)) := by
  obtain ⟨flag, hflag⟩ := flag_of_moment hmoment
  obtain ⟨before, last, t', v, htaken, hbefore, hwritten, hrun⟩ := later_run hmoment hup
  have hkeeps := (t.writeAll_plans 0 before).keeps_left w
  have hok : (t.writeAll none 0 before w).1 = .ok () := by rw [hwritten]
  have hcollected := writeAll_payload hok
  rw [hwritten] at hkeeps hcollected
  dsimp only at hrun hcollected
  have hflag' : t'.flag = some flag := hkeeps.flag_eq.trans hflag
  obtain ⟨hblocked, hfree⟩ := write_raised (isRaised_raiseFlag hflag' v) last
  obtain ⟨handed, hpayload, hpiece, _⟩ := t'.write_payload last (t'.raiseFlag true v)
  have hhanded : ∃ handed, handed <+: (source.taken t.bufferSize w.room.memory (j + 1)).flatten ∧
      (t.writeFromWith source halt w).2.1.payload (t.writeFromWith source halt w).2.2 =
        t.payload w ++ handed := by
    refine ⟨before.flatten ++ handed, ?_, ?_⟩
    · rw [htaken, List.flatten_append, List.flatten_singleton, List.prefix_append_right_inj]
      rcases hpiece with rfl | rfl
      · exact List.nil_prefix
      · exact List.prefix_rfl
    · rw [hrun]
      dsimp only
      rw [hpayload, payload_raiseFlag, hcollected, List.append_assoc]
  rw [overlooks_later_iff hbefore hwritten]
  by_cases hfails : t'.Blocked (t'.raiseFlag true v)
  · obtain ⟨e, hne, herror⟩ := hblocked hfails
    have hresult : (t.writeFromWith source halt w).1 = .error e := by
      rw [hrun, herror]
      rfl
    constructor
    · exact fun hstopped hboth => not_stopped_of_error hne hresult hboth.1 hstopped
    · exact fun hnot => ⟨hhanded, fun hleft => absurd ⟨hleft, hfails⟩ hnot⟩
  · refine iff_of_true ⟨hhanded, fun hleft => ?_⟩ fun hboth => hfails hboth.2
    rw [hrun]
    rcases hfree hfails with hresult | hresult
    · rw [hresult]
      rfl
    · have hcomes : j + 1 ≤ (source.chunks t.bufferSize none w.room.memory).1.length := by
        have hlength := congrArg List.length htaken
        rw [Source.taken, List.length_take, List.length_append, List.length_singleton] at hlength
        omega
      obtain ⟨_, hending⟩ :=
        source.haltsAt t.bufferSize w.room.memory (k := j + 1) fun _ => Nat.succ_ne_zero j
      rw [hresult, hending hcomes hleft]
      rfl

end

/-- Writing from a source with a flag that goes up, before the start or once some chunks were
taken. The source itself gives no chunk after that and ends with the halt if anything is left
of it, unless it is bytes as a whole and the flag is up before the start. So the run stops as it
should, except for the two ways around. -/
theorem writeFrom_stopped_iff (t : Writer) (source : Source) :
    (∀ memory k, (source.IsWhole → k ≠ 0) → source.HaltsAt t.bufferSize memory k) ∧
    ∀ halt w k, t.haltMoment halt w = some k →
      (t.writeFromWith source halt w).2.2.isRaised t.flag = true →
      (t.Stopped source halt k w ↔
        ¬ (source.left t.bufferSize w.room.memory k ≠ [] ∧ Overlooks w t source k)) := by
  refine ⟨fun memory k => source.haltsAt t.bufferSize memory, fun halt w k hmoment hup => ?_⟩
  cases k with
  | succ j => exact stopped_later_iff hmoment hup
  | zero =>
      cases source with
      | whole data => exact stopped_whole_iff hmoment data
      | file _ | fileMissing | readable _ _ | pieces _ | unusable _ =>
          exact stopped_start_iff hmoment id

def haltable : Writer :=
  .oneShot { upload := { AppendWriter.logUpload with options := {} }, flag := some "stop" }

/-- Of two pieces the second one is not taken once the flag went up after the first. -/
theorem second_piece_not_taken :
    haltable.haltMoment (some 1) {} = some 1 ∧
      (haltable.writeFromWith (.pieces [[97], [98]]) (some 1) {}).2.2.isRaised haltable.flag = true ∧
      haltable.Stopped (.pieces [[97], [98]]) (some 1) 1 {} := by
  have hmoment : haltable.haltMoment (some 1) {} = some 1 := by decide
  have hup : (haltable.writeFromWith (.pieces [[97], [98]]) (some 1) {}).2.2.isRaised
      haltable.flag = true := by decide
  obtain ⟨_, hstopped⟩ := writeFrom_stopped_iff haltable (.pieces [[97], [98]])
  refine ⟨hmoment, hup, (hstopped (some 1) {} 1 hmoment hup).mpr ?_⟩
  rintro ⟨_, hover⟩
  cases hover with
  | blocked _ _ _ _ hblocked => cases hblocked

/-- A one-shot writer takes all of some bytes although its flag was up before. -/
theorem bytes_taken_with_flag_up :
    World.isRaised { raised := ["stop"] } haltable.flag = true ∧
      (haltable.writeFrom (.whole [97]) { raised := ["stop"] }).1 = .ok () ∧
      (haltable.writeFrom (.whole [97]) { raised := ["stop"] }).2.1.payload {} = [97] ∧
      ¬ haltable.Stopped (.whole [97]) none 0 { raised := ["stop"] } := by
  refine ⟨by decide, by rfl, by rfl, fun hstopped => ?_⟩
  have hhalted := hstopped.halted (List.cons_ne_nil _ _)
  cases hhalted

end Writer

end DataLake
