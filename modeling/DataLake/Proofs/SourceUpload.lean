import DataLake.Proofs.ObjectPlan
import DataLake.Proofs.OneShotRun
import DataLake.Proofs.SourceChunks

/-!
Uploads of whole sources. What a writer that takes a source and is closed sends does not depend
on the source but for the cuts between its chunks, and a one-shot writer does not even show
these. An append writer carries out a plan: it measures the file, creates it if there is nothing
of it, appends each piece where the one before it ended, and commits the whole.
-/

namespace DataLake

/-- How a plan of errands is carried out: one after the other is sent, if it can be built and
signed, and only an answer to go on with lets the next one follow. -/
inductive Carried (b : Backend) (goes : Errand → Exchange → Prop) :
    World → List Errand → List Exchange → Except Failure Unit → Prop where
  | done (w : World) : Carried b goes w [] [] (.ok ())
  | unsent (w : World) (e : Errand) (rest : List Errand) (err : Failure)
      (hcannot : ¬ b.CanSign e.operation w) : Carried b goes w (e :: rest) [] (.error err)
  | stopped (w : World) (e : Errand) (rest : List Errand) (x : Exchange) (err : Failure)
      (hcan : b.CanSign e.operation w) (hsigned : b.Signs e.operation x.request)
      (hgoes : ¬ goes e x) : Carried b goes w (e :: rest) [x] (.error err)
  | went (w : World) (e : Errand) (rest : List Errand) (x : Exchange) (xs : List Exchange)
      (result : Except Failure Unit) (hcan : b.CanSign e.operation w)
      (hsigned : b.Signs e.operation x.request) (hgoes : goes e x)
      (hrest : Carried b goes (w.afterLoad b.loader) rest xs result) :
      Carried b goes w (e :: rest) (x :: xs) result

namespace Carried

variable {b : Backend} {goes : Errand → Exchange → Prop} {w v : World} {plan : List Errand}
  {xs : List Exchange} {result : Except Failure Unit}

/-- A plan ends well exactly if each of its errands was sent and answered to go on with. -/
theorem ok_iff (h : Carried b goes w plan xs result) :
    result = .ok () ↔
      List.Forall₂ (fun e x => b.Signs e.operation x.request ∧ goes e x) plan xs := by
  induction h with
  | done w => simp
  | unsent => simp
  | stopped w e rest x err hcan hsigned hgoes => simp [hgoes]
  | went w e rest x xs result hcan hsigned hgoes hrest ih => simp [ih, hsigned, hgoes]

/-- Only what credentials are to come and the time matter for what is sent. -/
theorem congr (h : Carried b goes w plan xs result) (htokens : v.tokens = w.tokens)
    (hnow : v.now = w.now) : Carried b goes v plan xs result := by
  induction h generalizing v with
  | done w => exact .done v
  | unsent w e rest err hcannot =>
      exact .unsent v e rest err ((Backend.canSign_congr htokens hnow).not.mpr hcannot)
  | stopped w e rest x err hcan hsigned hgoes =>
      exact .stopped v e rest x err ((Backend.canSign_congr htokens hnow).mpr hcan) hsigned hgoes
  | went w e rest x xs result hcan hsigned hgoes hrest ih =>
      refine .went v e rest x xs result ((Backend.canSign_congr htokens hnow).mpr hcan) hsigned
        hgoes (ih ?_ hnow)
      change (b.loader.next v.tokens).2 = (b.loader.next w.tokens).2
      rw [htokens]

end Carried

namespace Errand

/-- Sends errands one after the other, up to the first that fails. -/
def sendAll (b : Backend) : List Errand → Action Unit
  | [] => pure ()
  | e :: rest => do
      e.send b
      sendAll b rest

theorem sendAll_cons (b : Backend) (e : Errand) (rest : List Errand) (w : World) :
    sendAll b (e :: rest) w =
      match e.send b w with
      | (.error err, v) => (.error err, v)
      | (.ok _, v) => sendAll b rest v := by
  change Action.bind (e.send b) _ w = _
  unfold Action.bind
  rcases e.send b w with ⟨err | _, v⟩ <;> rfl

theorem sendAll_singleton (b : Backend) (e : Errand) : sendAll b [e] = e.send b := by
  funext w
  rw [sendAll_cons]
  rcases e.send b w with ⟨err | _, v⟩ <;> rfl

theorem sendAll_append (b : Backend) (first second : List Errand) (w : World) :
    sendAll b (first ++ second) w =
      match sendAll b first w with
      | (.error err, v) => (.error err, v)
      | (.ok _, v) => sendAll b second v := by
  induction first generalizing w with
  | nil => rfl
  | cons e rest ih =>
      rw [List.cons_append, sendAll_cons, sendAll_cons]
      rcases e.send b w with ⟨err | _, v⟩
      · rfl
      · exact ih v

theorem sendAll_carried (b : Backend) {goes : Errand → Exchange → Prop} {plan : List Errand}
    (hgoes : ∀ e ∈ plan, ∀ x, goes e x ↔ x.Answered e.accepted) (w : World) :
    ∃ xs, w.Passage xs (sendAll b plan w).2 ∧ Carried b goes w plan xs (sendAll b plan w).1 := by
  induction plan generalizing w with
  | nil => exact ⟨[], .refl w, .done w⟩
  | cons e rest ih =>
      rw [List.forall_mem_cons] at hgoes
      obtain ⟨hgoes, hlater⟩ := hgoes
      obtain ⟨x?, hpassage, hsent, hsigned, htokens, hok⟩ := e.send_sent b w
      rw [sendAll_cons]
      rcases hsend : e.send b w with ⟨err | _, v⟩ <;> rw [hsend] at hpassage htokens hok
      · cases x? with
        | none => exact ⟨[], hpassage, .unsent w e rest err fun hcan => by simp [hcan] at hsent⟩
        | some x =>
            refine ⟨[x], hpassage, .stopped w e rest x err (hsent.mp rfl) (hsigned x rfl) ?_⟩
            rw [hgoes]
            intro hanswered
            cases hok.mpr ⟨x, rfl, hanswered⟩
      · obtain ⟨x, rfl, hanswered⟩ := hok.mp rfl
        obtain ⟨xs, hpassage', hcarried⟩ := ih hlater v
        refine ⟨x :: xs, hpassage.trans hpassage', ?_⟩
        exact .went w e rest x xs _ (hsent.mp rfl) (hsigned x rfl) ((hgoes x).mpr hanswered)
          (hcarried.congr (htokens rfl).symm hpassage.now_eq.symm)

theorem sendAll_passage (b : Backend) (plan : List Errand) (w : World) :
    ∃ xs, w.Passage xs (sendAll b plan w).2 := by
  have hgoes : ∀ e ∈ plan, ∀ x : Exchange, x.Answered e.accepted ↔ x.Answered e.accepted :=
    fun _ _ _ => Iff.rfl
  obtain ⟨xs, hpassage, -⟩ := sendAll_carried b hgoes w
  exact ⟨xs, hpassage⟩

end Errand

namespace Upload

/-- Pieces are appended one after the other, from a position on. -/
def appending (u : Upload) (position : Int) : List Bytes → List Errand
  | [] => []
  | piece :: rest =>
      .append u.path position piece false :: u.appending (position + piece.length) rest

/-- What follows once a file was found to be `start` bytes long: it is created if that is none,
the pieces are appended to it, and all that is committed. -/
def extending (u : Upload) (start : Int) (pieces : List Bytes) : List Errand :=
  (if start = 0 then [.createFile u.path u.options] else []) ++
    (u.appending start pieces ++ [.flush u.path (start + pieces.flatten.length)])

/-- The answer to an errand of an append lets the next one follow: the file is found to be `start`
bytes long, or the status is accepted. -/
def Goes (start : Int) : Errand → Exchange → Prop
  | .measure _, x => x.response?.bind Response.storedSize? = some start
  | e, x => x.Answered e.accepted

theorem flush_eq (u : Upload) (position : Int) :
    u.flush position = (Errand.flush u.path position).send u.backend :=
  rfl

theorem goes_iff_of_extending {u : Upload} {start : Int} {pieces : List Bytes} {e : Errand}
    (h : e ∈ u.extending start pieces) (x : Exchange) :
    Goes start e x ↔ x.Answered e.accepted := by
  have happending (position : Int) (pieces : List Bytes) (h : e ∈ u.appending position pieces) :
      Goes start e x ↔ x.Answered e.accepted := by
    induction pieces generalizing position with
    | nil => cases h
    | cons piece rest ih =>
        rcases List.mem_cons.mp h with rfl | h
        · exact Iff.rfl
        · exact ih _ h
  unfold extending at h
  rcases List.mem_append.mp h with h | h
  · split at h
    · rw [List.mem_singleton.mp h]
      exact Iff.rfl
    · cases h
  · rcases List.mem_append.mp h with h | h
    · exact happending _ _ h
    · rw [List.mem_singleton.mp h]
      exact Iff.rfl

/-- Asking for the stored size sends what the errand does, and finds what is in the answer. -/
theorem storedSize_sent (u : Upload) (w : World) : ∃ x?,
    (Errand.measure u.path).Sent u.backend w x? ((Errand.measure u.path).send u.backend w) ∧
      (u.storedSize w).2 = ((Errand.measure u.path).send u.backend w).2 ∧
      (u.storedSize w).1.toOption = x?.bind fun x => x.response?.bind Response.storedSize? := by
  obtain ⟨x?, hsent⟩ := (Errand.measure u.path).send_sent u.backend w
  have hworld : (u.storedSize w).2 = ((Errand.measure u.path).send u.backend w).2 := by
    rw [u.storedSize_eq, Action.mapFault_eq]
    unfold Errand.send
    rw [Action.mapFault_eq]
    change (Action.bind (u.backend.perform (.properties u.path) [200, 404]) _ w).2 =
      (Action.bind (u.backend.perform (.properties u.path) [200, 404]) _ w).2
    unfold Action.bind
    rcases u.backend.perform (.properties u.path) [200, 404] w with ⟨e | r, v⟩ <;> rfl
  refine ⟨x?, hsent, hworld, ?_⟩
  obtain ⟨xs, hxs, hattempt⟩ := u.storedSize_attempts w
  rw [hworld, hsent.passage.exchanges_eq, List.append_cancel_left_eq] at hxs
  generalize (u.storedSize w).1 = found at hattempt ⊢
  cases hattempt with
  | unsent e =>
      cases x? with
      | none => rfl
      | some x => cases hxs
  | refused e x _ hvalue =>
      obtain rfl : x? = some x := by simpa using hxs
      exact hvalue.symm
  | accepted n x _ hvalue =>
      obtain rfl : x? = some x := by simpa using hxs
      exact hvalue.symm

end Upload

namespace Writer

/-- A step of a writer, and the close of the writer after it. -/
def thenClose (step : WriterStep Writer) : Action Unit := fun w =>
  match step w with
  | (.error e, _, v) => (.error e, v)
  | (.ok _, t, v) => ((t.close v).1, (t.close v).2.2)

theorem writeFrom_of_chunks {t : Writer} {source : Source} {chunks : List Bytes} {w : World}
    (hflag : w.isRaised t.flag = false)
    (h : source.chunks t.bufferSize none w.room.memory = (chunks, none)) :
    t.writeFrom source w = t.writeAll none 0 chunks w := by
  rw [writeFrom_eq, hflag, if_neg Bool.false_ne_true, h]
  unfold writeGiven
  dsimp only
  rcases t.writeAll none 0 chunks w with ⟨e | _, t', v⟩ <;> rfl

theorem writeAll_cons (t : Writer) (taken : Nat) (data : Bytes) (rest : List Bytes) (w : World) :
    t.writeAll none taken (data :: rest) w =
      match t.write data w with
      | (.error e, t, v) => (.error e, t, v)
      | (.ok _, t, v) => t.writeAll none (taken + 1) rest v := by
  have hdown : t.raiseFlag (HaltMoment.isUp none (taken + 1)) w = w := t.raiseFlag_of_not w
  rcases hwrite : t.write data w with ⟨e | _, t', v⟩
  · simp only [writeAll, hdown, hwrite]
  · simp only [writeAll, hdown, hwrite]

theorem thenClose_cons (t : Writer) (taken : Nat) (data : Bytes) (rest : List Bytes) (w : World) :
    thenClose (t.writeAll none taken (data :: rest)) w =
      match t.write data w with
      | (.error e, _, v) => (.error e, v)
      | (.ok _, t, v) => thenClose (t.writeAll none (taken + 1) rest) v := by
  unfold thenClose
  rw [writeAll_cons]
  rcases t.write data w with ⟨e | _, t', v⟩ <;> rfl

/-- A piece that is written is one that is taken alone. -/
theorem thenClose_write (t : Writer) (data : Bytes) :
    thenClose (t.write data) = thenClose (t.writeAll none 0 [data]) := by
  funext w
  rw [thenClose_cons]
  unfold thenClose
  rcases t.write data w with ⟨e | _, t', v⟩ <;> rfl

end Writer

namespace OneShotWriter

open Writer

theorem writeAll_open {t : OneShotWriter} (h : t.closed = false) (taken : Nat)
    (pieces : List Bytes) (w : World) :
    (oneShot t).writeAll none taken pieces w =
      (.ok (), oneShot { t with pieces := pieces.reverse ++ t.pieces }, w) := by
  induction pieces generalizing t taken with
  | nil => rfl
  | cons data rest ih =>
      have hwrite : (oneShot t).write data w =
          (.ok (), oneShot { t with pieces := data :: t.pieces }, w) := by
        unfold Writer.write
        dsimp only
        rw [write_open h]
      rw [writeAll_cons, hwrite]
      dsimp only
      rw [ih (t := { t with pieces := data :: t.pieces }) h, List.reverse_cons, List.append_assoc]
      rfl

/-- An open writer that takes the pieces and is closed closes with them all. -/
theorem thenClose_collected {t : OneShotWriter} (h : t.closed = false) (pieces : List Bytes)
    (w : World) :
    thenClose ((oneShot t).writeAll none 0 pieces) w =
      ((close { t with pieces := pieces.reverse ++ t.pieces } w).1,
        (close { t with pieces := pieces.reverse ++ t.pieces } w).2.2) := by
  unfold thenClose
  rw [writeAll_open h]
  dsimp only
  unfold Writer.close
  dsimp only

theorem thenClose_writeAll {t : OneShotWriter} (h : t.closed = false) (pieces : List Bytes)
    (w : World) :
    thenClose ((oneShot t).writeAll none 0 pieces) w =
      ((Errand.createFile t.upload.path t.upload.options).send t.upload.backend >>= fun _ =>
        (Errand.append t.upload.path 0 (t.buffer ++ pieces.flatten) true).send t.upload.backend)
          w := by
  rw [thenClose_collected h, ← t.buffer_collected pieces]
  exact close_eq (t := { t with pieces := pieces.reverse ++ t.pieces }) h w

/-- What was taken before and the pieces are delivered. -/
theorem thenClose_delivers {t : OneShotWriter} (h : t.closed = false) (pieces : List Bytes)
    (w : World) :
    ∃ creation upload, (thenClose ((oneShot t).writeAll none 0 pieces) w).2.exchanges =
        w.exchanges ++ (creation.toList ++ upload.toList) ∧
      t.upload.Delivers (t.buffer ++ pieces.flatten) w creation upload
        (thenClose ((oneShot t).writeAll none 0 pieces) w).1 := by
  rw [thenClose_collected h, ← t.buffer_collected pieces]
  exact close_delivers (t := { t with pieces := pieces.reverse ++ t.pieces }) h w

end OneShotWriter

namespace AppendWriter

open Writer

variable {t : AppendWriter} {w : World}

theorem thenClose_nil (t : AppendWriter) (taken : Nat) (w : World) :
    thenClose ((append t).writeAll none taken []) w = ((t.close w).1, (t.close w).2.2) := by
  unfold thenClose writeAll Writer.close
  rfl

theorem ensureStarted_known {p : Int} (hoffset : t.offset = some p) (w : World) :
    t.ensureStarted w = (.ok (), t, w) := by
  unfold ensureStarted
  rw [hoffset]

/-- Once the offset is known, a piece goes where the file ends. -/
theorem write_known {p : Int} (hopen : t.closed = false) (hoffset : t.offset = some p)
    (hflag : w.isRaised t.flag = false) {data : Bytes} (hdata : data ≠ []) :
    t.write data w =
      match t.upload.append p data false w with
      | (.error e, v) => (.error e, t, v)
      | (.ok _, v) => (.ok (), { t with offset := some (p + data.length) }, v) := by
  unfold write
  rw [if_neg (by simp [hopen]), ensureStarted_known hoffset]
  dsimp only
  rw [if_neg (by simpa using hdata), hflag, if_neg Bool.false_ne_true, hoffset]
  rfl

theorem write_known_nil {p : Int} (hopen : t.closed = false) (hoffset : t.offset = some p) :
    t.write [] w = (.ok (), t, w) := by
  unfold write
  rw [if_neg (by simp [hopen]), ensureStarted_known hoffset]
  rfl

theorem close_known {p : Int} (hopen : t.closed = false) (hoffset : t.offset = some p) :
    ((t.close w).1, (t.close w).2.2) = t.upload.flush p w := by
  have hclosing : ({ t with closed := true } : AppendWriter).offset = some p := hoffset
  unfold close
  rw [if_neg (by simp [hopen]), ensureStarted_known hclosing]
  dsimp only
  rw [hoffset, Option.getD_some]
  rcases t.upload.flush p w with ⟨e | _, v⟩ <;> rfl

/-- From a known offset on, pieces are appended one after the other, empty ones left out, and
then committed. -/
theorem thenClose_known {p : Int} (hopen : t.closed = false) (hoffset : t.offset = some p)
    (hflag : w.isRaised t.flag = false) (taken : Nat) (pieces : List Bytes) :
    thenClose ((append t).writeAll none taken pieces) w =
      Errand.sendAll t.upload.backend
        (t.upload.appending p (pieces.filter (!·.isEmpty)) ++
          [.flush t.upload.path (p + pieces.flatten.length)]) w := by
  induction pieces generalizing t w p taken with
  | nil =>
      rw [thenClose_nil, close_known hopen hoffset, List.filter_nil, Upload.appending,
        List.nil_append, Errand.sendAll_singleton, List.flatten_nil, List.length_nil,
        Int.natCast_zero, Int.add_zero, t.upload.flush_eq]
  | cons data rest ih =>
      rw [thenClose_cons]
      unfold Writer.write
      dsimp only
      by_cases hdata : data = []
      · subst hdata
        rw [write_known_nil hopen hoffset]
        exact ih hopen hoffset hflag (taken + 1)
      · rw [write_known hopen hoffset hflag hdata, t.upload.append_eq,
          List.filter_cons_of_pos (by simpa using hdata), Upload.appending, List.cons_append,
          Errand.sendAll_cons]
        obtain ⟨x?, hsent⟩ := (Errand.append t.upload.path p data false).send_sent
          t.upload.backend w
        rcases hsend : (Errand.append t.upload.path p data false).send t.upload.backend w
          with ⟨e | _, v⟩
        · rfl
        · rw [hsend] at hsent
          have hdown : v.isRaised t.flag = false := by
            rw [hsent.passage.isRaised_eq, hflag]
          have hrest := ih (t := { t with offset := some (p + data.length) }) hopen rfl hdown
            (taken + 1)
          rw [List.flatten_cons, List.length_append, Int.natCast_add, ← Int.add_assoc]
          exact hrest

/-- Where a writer without an offset begins: the file is measured, and created if there is
nothing of it. -/
theorem start_eq (t : AppendWriter) (w : World) :
    t.start w =
      match t.upload.storedSize w with
      | (.error e, v) => (.error e, t, v)
      | (.ok n, v) =>
          match Errand.sendAll t.upload.backend
            (if n = 0 then [.createFile t.upload.path t.upload.options] else []) v with
          | (.error e, v) => (.error e, { t with offset := some n }, v)
          | (.ok _, v) => (.ok (), { t with offset := some n }, v) := by
  unfold start
  rcases t.upload.storedSize w with ⟨e | n, v⟩
  · rfl
  · dsimp only
    split
    · have hcreate : t.upload.create v = Errand.sendAll t.upload.backend
          [.createFile t.upload.path t.upload.options] v := by
        rw [Errand.sendAll_singleton, ← t.upload.create_eq]
      rcases hsent : Errand.sendAll t.upload.backend
        [.createFile t.upload.path t.upload.options] v with ⟨e | _, v'⟩
      · simp only [hcreate.trans hsent]
      · simp only [hcreate.trans hsent]
    · rfl

theorem start_known {t' : AppendWriter} {v : World} (h : t.start w = (.ok (), t', v)) :
    ∃ n, t' = { t with offset := some n } := by
  rw [start_eq] at h
  split at h
  · cases h
  · next n v' _ =>
    split at h
    · cases h
    · cases h
      exact ⟨n, rfl⟩

theorem ensureStarted_closing (hoffset : t.offset = none) (w : World) :
    ({ t with closed := true } : AppendWriter).ensureStarted w =
      ((t.start w).1, { (t.start w).2.1 with closed := true }, (t.start w).2.2) := by
  obtain ⟨upload, flag, bufferSize, closed, offset⟩ := t
  obtain rfl : offset = none := hoffset
  unfold ensureStarted
  dsimp only
  rw [start_eq, start_eq]
  rcases upload.storedSize w with ⟨e | n, v⟩
  · rfl
  · dsimp only
    rcases Errand.sendAll upload.backend
      (if n = 0 then [.createFile upload.path upload.options] else []) v with ⟨e | _, v'⟩ <;> rfl

/-- A writer without an offset starts first, whatever it is to do. -/
theorem write_unknown (hopen : t.closed = false) (hoffset : t.offset = none) (data : Bytes) :
    t.write data w =
      match t.start w with
      | (.error e, t', v) => (.error e, t', v)
      | (.ok _, t', v) => t'.write data v := by
  have hstarted : t.ensureStarted w = t.start w := by
    unfold ensureStarted
    rw [hoffset]
  have hclosed : ¬ t.closed = true := by simp [hopen]
  rcases hstart : t.start w with ⟨e | _, t', v⟩
  · unfold write
    rw [if_neg hclosed, hstarted, hstart]
  · obtain ⟨n, rfl⟩ := start_known hstart
    unfold write
    have hknown (v : World) := ensureStarted_known (t := { t with offset := some n }) rfl v
    rw [if_neg hclosed, hstarted, hstart]
    dsimp only
    rw [if_neg hclosed, hknown]

theorem close_unknown (hopen : t.closed = false) (hoffset : t.offset = none) :
    ((t.close w).1, (t.close w).2.2) =
      match t.start w with
      | (.error e, _, v) => (.error e, v)
      | (.ok _, t', v) => ((t'.close v).1, (t'.close v).2.2) := by
  have hclosed : ¬ t.closed = true := by simp [hopen]
  rcases hstart : t.start w with ⟨e | _, t', v⟩
  · unfold close
    rw [if_neg hclosed, ensureStarted_closing hoffset, hstart]
  · obtain ⟨n, rfl⟩ := start_known hstart
    unfold close
    have hknown (v : World) :=
      ensureStarted_known (t := { t with offset := some n, closed := true }) rfl v
    rw [if_neg hclosed, ensureStarted_closing hoffset, hstart]
    dsimp only
    rw [if_neg hclosed, hknown]

theorem thenClose_unknown (hopen : t.closed = false) (hoffset : t.offset = none)
    (pieces : List Bytes) :
    thenClose ((append t).writeAll none 0 pieces) w =
      match t.start w with
      | (.error e, _, v) => (.error e, v)
      | (.ok _, t', v) => thenClose ((append t').writeAll none 0 pieces) v := by
  cases pieces with
  | nil =>
      rw [thenClose_nil, close_unknown hopen hoffset]
      rcases t.start w with ⟨e | _, t', v⟩
      · rfl
      · exact (thenClose_nil t' 0 v).symm
  | cons data rest =>
      rw [thenClose_cons]
      simp only [thenClose_cons, Writer.write, write_unknown hopen hoffset]
      rcases t.start w with ⟨e | _, t', v⟩ <;> rfl

/-- An append writer that takes the pieces and is closed measures the file, and then extends
it. -/
theorem thenClose_writeAll (hopen : t.closed = false) (hoffset : t.offset = none)
    (hflag : w.isRaised t.flag = false) (pieces : List Bytes) :
    thenClose ((append t).writeAll none 0 pieces) w =
      match t.upload.storedSize w with
      | (.error e, v) => (.error e, v)
      | (.ok n, v) =>
          Errand.sendAll t.upload.backend
            (t.upload.extending n (pieces.filter (!·.isEmpty))) v := by
  obtain ⟨x?, hsent, hworld, -⟩ := t.upload.storedSize_sent w
  rw [thenClose_unknown hopen hoffset, start_eq]
  rcases hsize : t.upload.storedSize w with ⟨e | n, v⟩
  · rfl
  · rw [hsize] at hworld
    have hdown : v.isRaised t.flag = false := by
      have hpassage := hsent.passage
      rw [← hworld] at hpassage
      rw [hpassage.isRaised_eq, hflag]
    unfold Upload.extending
    dsimp only
    rw [Errand.sendAll_append]
    generalize (if n = 0 then [Errand.createFile t.upload.path t.upload.options] else []) = creating
    obtain ⟨xs, hpassage⟩ := Errand.sendAll_passage t.upload.backend creating v
    rcases hcreate : Errand.sendAll t.upload.backend creating v with ⟨e | _, v'⟩
    · rfl
    · rw [hcreate] at hpassage
      have hdown' : v'.isRaised t.flag = false := by rw [hpassage.isRaised_eq, hdown]
      have hknown := thenClose_known (t := { t with offset := some n }) hopen rfl hdown' 0 pieces
      rw [List.flatten_filter_not_isEmpty]
      exact hknown

theorem thenClose_carried (hopen : t.closed = false) (hoffset : t.offset = none)
    (hflag : w.isRaised t.flag = false) (pieces : List Bytes) :
    ∃ start xs, w.Passage xs (thenClose ((append t).writeAll none 0 pieces) w).2 ∧
      Carried t.upload.backend (Upload.Goes start) w
        (.measure t.upload.path :: t.upload.extending start (pieces.filter (!·.isEmpty))) xs
        (thenClose ((append t).writeAll none 0 pieces) w).1 := by
  rw [thenClose_writeAll hopen hoffset hflag]
  obtain ⟨x?, hsent, hworld, hvalue⟩ := t.upload.storedSize_sent w
  have hpassage := hsent.passage
  rw [← hworld] at hpassage
  rcases hsize : t.upload.storedSize w with ⟨e | n, v⟩ <;> rw [hsize] at hpassage hvalue
  · -- Without a size there is nothing to go on with, whatever the size might have been.
    refine ⟨0, x?.toList, hpassage, ?_⟩
    cases x? with
    | none =>
        refine .unsent w _ _ e fun hcan => ?_
        cases hsent.sent_iff.mpr hcan
    | some x =>
        refine .stopped w _ _ x e (hsent.sent_iff.mp rfl) (hsent.signed x rfl) fun hgoes => ?_
        cases hvalue.trans hgoes
  · cases x? with
    | none => cases hvalue
    | some x =>
        obtain ⟨xs, hpassage', hcarried⟩ := Errand.sendAll_carried t.upload.backend
          (fun e he x => t.upload.goes_iff_of_extending he x) v
        refine ⟨n, x :: xs, hpassage.trans hpassage', ?_⟩
        refine .went w _ _ x xs _ (hsent.sent_iff.mp rfl) (hsent.signed x rfl) hvalue.symm
          (hcarried.congr ?_ hpassage.now_eq.symm)
        have htokens := hsent.tokens_eq rfl
        rw [← hworld, hsize] at htokens
        exact htokens.symm

end AppendWriter

namespace Writer

/-- However the data is supplied, the same is uploaded. The chunks of the source are the data,
and those of a file or a readable are cut into reads. A one-shot writer that takes the source
and is closed does what one does that is given the data as a whole: it delivers that. An append
writer appends the chunks that are not empty one after the other from where the file ends, and
commits them all; it succeeds exactly if everything it asks for is accepted. -/
theorem source_uploads_data {source : Source} {data : Bytes} {bufferSize : Option Int}
    {memory : Int} (hsize : ∀ n, bufferSize = some n → 1 ≤ n)
    (hdata : source.Supplies memory (bufferSize.getD Source.defaultChunkSize) data) :
    ∃ chunks, source.chunks bufferSize none memory = (chunks, none) ∧ chunks.flatten = data ∧
      (source.IsRead → Source.Cuts (bufferSize.getD Source.defaultChunkSize) data chunks) ∧
      (∀ (t : OneShotWriter) (w : World), t.closed = false → t.bufferSize = bufferSize →
        w.isRaised t.flag = false → w.room.memory = memory →
        thenClose ((oneShot t).writeFrom source) w = thenClose ((oneShot t).write data) w ∧
        ∃ creation upload,
          (thenClose ((oneShot t).writeFrom source) w).2.exchanges =
            w.exchanges ++ (creation.toList ++ upload.toList) ∧
          t.upload.Delivers (t.buffer ++ data) w creation upload
            (thenClose ((oneShot t).writeFrom source) w).1) ∧
      ∀ (t : AppendWriter) (w : World), t.closed = false → t.offset = none →
        t.bufferSize = bufferSize → w.isRaised t.flag = false → w.room.memory = memory →
        ∃ start pieces xs, pieces = chunks.filter (!·.isEmpty) ∧ pieces.flatten = data ∧
          (thenClose ((append t).writeFrom source) w).2.exchanges = w.exchanges ++ xs ∧
          Carried t.upload.backend (Upload.Goes start) w
            (.measure t.upload.path :: t.upload.extending start pieces) xs
            (thenClose ((append t).writeFrom source) w).1 ∧
          ((thenClose ((append t).writeFrom source) w).1 = .ok () ↔
            List.Forall₂ (fun e x => t.upload.backend.Signs e.operation x.request ∧
                Upload.Goes start e x)
              (.measure t.upload.path :: t.upload.extending start pieces) xs) := by
  obtain ⟨chunks, hchunks, hwhole, hcuts⟩ := Source.chunks_of_supplies hsize hdata
  refine ⟨chunks, hchunks, hwhole, hcuts, ?_, ?_⟩
  · intro t w hopen hbuffer hflag hroom
    have htaken : thenClose ((oneShot t).writeFrom source) w =
        thenClose ((oneShot t).writeAll none 0 chunks) w := by
      unfold thenClose
      rw [writeFrom_of_chunks hflag (hroom ▸ hbuffer ▸ hchunks)]
    rw [htaken, thenClose_write, OneShotWriter.thenClose_writeAll hopen [data],
      List.flatten_singleton, ← hwhole, ← OneShotWriter.thenClose_writeAll hopen]
    exact ⟨rfl, OneShotWriter.thenClose_delivers hopen chunks w⟩
  · intro t w hopen hoffset hbuffer hflag hroom
    have htaken : thenClose ((append t).writeFrom source) w =
        thenClose ((append t).writeAll none 0 chunks) w := by
      unfold thenClose
      rw [writeFrom_of_chunks hflag (hroom ▸ hbuffer ▸ hchunks)]
    obtain ⟨start, xs, hpassage, hcarried⟩ :=
      AppendWriter.thenClose_carried hopen hoffset hflag chunks
    rw [htaken]
    exact ⟨start, _, xs, rfl, List.flatten_filter_not_isEmpty.trans hwhole,
      hpassage.exchanges_eq, hcarried, hcarried.ok_iff⟩

/-- Three bytes that are read one or two at a time. -/
def shortReads : Source :=
  .readable [97, 98, 99] fun i => some (i + 1)

/-- An append writer whose reads are two bytes long. -/
def shortAppend : AppendWriter where
  upload := AppendWriter.logUpload
  bufferSize := some 2

theorem source_uploads_shortReads :
    ∃ start pieces xs, pieces.flatten = [97, 98, 99] ∧
      (thenClose ((append shortAppend).writeFrom shortReads)
        (AppendWriter.answering [404, 201, 202, 202, 200])).2.exchanges = xs ∧
      List.Forall₂ (fun e x => shortAppend.upload.backend.Signs e.operation x.request ∧
          Upload.Goes start e x)
        (.measure "log" :: shortAppend.upload.extending start pieces) xs := by
  have hsize (n : Int) (h : some 2 = some n) : 1 ≤ n := by
    cases h
    decide
  have hsupplies : shortReads.Supplies Room.usual.memory ((some 2).getD Source.defaultChunkSize)
      [97, 98, 99] :=
    ⟨rfl, fun i => ⟨by simp, fun h => by cases h⟩⟩
  obtain ⟨chunks, _, _, _, _, happend⟩ := source_uploads_data hsize hsupplies
  obtain ⟨start, pieces, xs, _, hpieces, hsent, _, hok⟩ := happend shortAppend
    (AppendWriter.answering [404, 201, 202, 202, 200]) rfl rfl rfl rfl rfl
  have hdone : (thenClose ((append shortAppend).writeFrom shortReads)
      (AppendWriter.answering [404, 201, 202, 202, 200])).1.toOption = some () := by
    decide +kernel
  refine ⟨start, pieces, xs, hpieces, hsent, hok.mp ?_⟩
  cases hresult : (thenClose ((append shortAppend).writeFrom shortReads)
      (AppendWriter.answering [404, 201, 202, 202, 200])).1 with
  | error e =>
      rw [hresult] at hdone
      cases hdone
  | ok u => rfl

/-- A file cannot be read in pieces that are longer than any object, though all its bytes can be
written at once. -/
theorem file_refuses_oversize_reads :
    let t : OneShotWriter :=
      { upload := AppendWriter.logUpload, bufferSize := some 0x8000000000000000 }
    (Source.file [97]).chunks t.bufferSize none = ([], some .numberTooLarge) ∧
      (thenClose ((oneShot t).writeFrom (.file [97])) (AppendWriter.answering [201, 202])).1.toOption =
        none ∧
      (thenClose ((oneShot t).write [97]) (AppendWriter.answering [201, 202])).1.toOption = some () :=
  ⟨rfl, by decide +kernel, by decide +kernel⟩

end Writer

end DataLake
