import DataLake.Proofs.Commitment
import DataLake.Proofs.Decoding
import DataLake.Proofs.Dispatch

/-!
Runs of a one-shot writer. Until it is closed it only collects, and after that it refuses
what it is given; so the service hears of a file once, when the writer is closed, and then
in two requests at most: one that creates the file, and one that uploads everything.
-/

namespace DataLake

namespace World

/-- The other world differs from this one in its flags only. -/
def Flagged (w v : World) : Prop :=
  ∃ flags, v = { w with raised := flags }

theorem Flagged.refl (w : World) : w.Flagged w :=
  ⟨w.raised, rfl⟩

theorem Flagged.trans {w v u : World} (h : w.Flagged v) (h' : v.Flagged u) : w.Flagged u := by
  obtain ⟨flags, rfl⟩ := h
  obtain ⟨flags', rfl⟩ := h'
  exact ⟨flags', rfl⟩

theorem raise_flagged (w : World) (flag : Text) : w.Flagged (w.raise flag) := by
  unfold raise
  split
  · exact .refl w
  · exact ⟨_, rfl⟩

end World

namespace Upload

/-- The request that creates the file with the options of the upload. -/
def creating (u : Upload) : Operation :=
  .create u.path "file" (some u.options) []

/-- The request that uploads everything, from the start of the file, and commits it. -/
def uploading (u : Upload) (data : Bytes) : Operation :=
  .update u.path 0 data true

theorem create_eq (u : Upload) :
    u.create = (Errand.createFile u.path u.options).send u.backend :=
  rfl

theorem append_eq (u : Upload) (position : Int) (data : Bytes) (commit : Bool) :
    u.append position data commit =
      (Errand.append u.path position data commit).send u.backend :=
  rfl

/-- The upload of some data, as the service is sent it: at the start, and to be committed
and closed. -/
structure IsUpload (u : Upload) (data : Bytes) (x : Exchange) : Prop where
  signed : u.backend.Signs (u.uploading data) x.request
  body : x.request.body = data
  fields : ∃ d, (u.uploading data).draft u.backend.location = .ok d ∧
    d.fields = [Operation.queryField "action" "append", Operation.queryField "position" "0",
      Operation.queryField "flush" "true", Operation.queryField "close" "true"]

theorem isUpload_of_signs {u : Upload} {data : Bytes} {x : Exchange}
    (h : u.backend.Signs (u.uploading data) x.request) : u.IsUpload data x where
  signed := h
  body := h.body_eq
  fields := by
    obtain ⟨plain, _, _, hplain, _⟩ := h
    obtain ⟨d, hdraft, _⟩ := bind_ok hplain
    exact ⟨d, hdraft, (Operation.draft_states hdraft).1⟩

/-- How the data is delivered in a world: the file is created, and if that was accepted,
the data is uploaded. Either request is sent if it can be built and signed. -/
structure Delivers (u : Upload) (data : Bytes) (w : World) (creation upload : Option Exchange)
    (result : Except Failure Unit) : Prop where
  creation_iff : creation.isSome = true ↔ u.backend.CanSign u.creating w
  creation_signed : ∀ x, creation = some x → u.backend.Signs u.creating x.request
  upload_iff : upload.isSome = true ↔ (∃ x, creation = some x ∧ x.Answered [201, 200]) ∧
    u.backend.CanSign (u.uploading data) (w.afterLoad u.backend.loader)
  upload_is : ∀ x, upload = some x → u.IsUpload data x
  answered : ∃ later,
    w.answers = (creation.toList ++ upload.toList).filterMap Exchange.reply ++ later
  ok_iff : result = .ok () ↔ ∃ x, upload = some x ∧ x.Answered [200, 202]

/-- Flags have no part in a delivery. -/
theorem Delivers.of_flagged {u : Upload} {data : Bytes} {w v : World}
    {creation upload : Option Exchange} {result : Except Failure Unit} (hflagged : w.Flagged v)
    (h : u.Delivers data v creation upload result) :
    u.Delivers data w creation upload result := by
  obtain ⟨flags, rfl⟩ := hflagged
  exact ⟨h.creation_iff, h.creation_signed, h.upload_iff, h.upload_is, h.answered, h.ok_iff⟩

end Upload

namespace OneShotWriter

open Writer

/-- The first close is the two errands of an upload. -/
theorem close_eq {t : OneShotWriter} (h : t.closed = false) (w : World) :
    ((t.close w).1, (t.close w).2.2) =
      ((Errand.createFile t.upload.path t.upload.options).send t.upload.backend >>= fun _ =>
        (Errand.append t.upload.path 0 t.buffer true).send t.upload.backend) w := by
  have hbuffer : buffer { t with closed := true } = t.buffer := rfl
  rw [← t.upload.create_eq, ← t.upload.append_eq]
  change _ = Action.bind t.upload.create _ w
  unfold close Action.bind
  rw [if_neg (by simp [h])]
  dsimp only
  rw [hbuffer]
  rcases t.upload.create w with ⟨e | _, v⟩
  · rfl
  · dsimp only
    rcases t.upload.append 0 t.buffer true v with ⟨e | _, v'⟩ <;> rfl

theorem close_delivers {t : OneShotWriter} (h : t.closed = false) (w : World) :
    ∃ creation upload, (t.close w).2.2.exchanges =
        w.exchanges ++ (creation.toList ++ upload.toList) ∧
      t.upload.Delivers t.buffer w creation upload (t.close w).1 := by
  obtain ⟨creation, upload, hboth⟩ :=
    (Errand.createFile t.upload.path t.upload.options).send_both
      (.append t.upload.path 0 t.buffer true) t.upload.backend w
  rw [← close_eq h] at hboth
  exact ⟨creation, upload, hboth.passage.exchanges_eq, hboth.first_iff, hboth.first_signed,
    hboth.second_iff, fun x hx => Upload.isUpload_of_signs (hboth.second_signed x hx),
    ⟨_, hboth.passage.answers_eq⟩, hboth.ok_iff⟩

theorem close_passage (t : OneShotWriter) (w : World) : ∃ xs, w.Passage xs (t.close w).2.2 := by
  cases hclosed : t.closed with
  | true =>
      have hclose : t.close w = (.ok (), t, w) := if_pos hclosed
      rw [hclose]
      exact ⟨[], .refl w⟩
  | false =>
      obtain ⟨creation, upload, hboth⟩ :=
        (Errand.createFile t.upload.path t.upload.options).send_both
          (.append t.upload.path 0 t.buffer true) t.upload.backend w
      rw [← close_eq hclosed] at hboth
      exact ⟨_, hboth.passage⟩

end OneShotWriter

namespace Writer

theorem raiseFlag_flagged (t : Writer) (up : Bool) (w : World) : w.Flagged (t.raiseFlag up w) := by
  unfold raiseFlag
  split
  · split
    · exact w.raise_flagged _
    · exact .refl w
  · exact .refl w

/-- A one-shot writer that takes pieces does nothing to the world but raise its flag. -/
theorem writeAll_flagged (t : OneShotWriter) (halt : HaltMoment) (taken : Nat)
    (pieces : List Bytes) (w : World) :
    w.Flagged ((oneShot t).writeAll halt taken pieces w).2.2 := by
  induction pieces generalizing t taken w with
  | nil => exact .refl w
  | cons data rest ih =>
      have hraised := (oneShot t).raiseFlag_flagged (halt.isUp (taken + 1)) w
      unfold writeAll Writer.write
      dsimp only
      by_cases hclosed : t.closed = true
      · rw [OneShotWriter.write_closed hclosed]
        exact hraised
      · rw [OneShotWriter.write_open (by simpa using hclosed)]
        exact hraised.trans (ih _ _ _)

theorem Call.run_flagged {call : Call} (hgoing : call.ends = false) (t : OneShotWriter)
    (w : World) : w.Flagged (call.run (oneShot t) w).2.2 := by
  cases call with
  | write data =>
      unfold Call.run Writer.write
      dsimp only
      by_cases hclosed : t.closed = true
      · rw [OneShotWriter.write_closed hclosed]
        exact .refl w
      · rw [OneShotWriter.write_open (by simpa using hclosed)]
        exact .refl w
  | writeFrom source halt =>
      unfold Call.run
      dsimp only
      rw [writeFromWith_left]
      exact ((oneShot t).raiseFlag_flagged _ w).trans (writeAll_flagged _ _ _ _ _)
  | raise flag => exact w.raise_flagged flag
  | close | abort => cases hgoing

end Writer

namespace OneShotWriter

open Writer

/-- A closed writer refuses the first piece that it is given. -/
theorem writeAll_closed {t : OneShotWriter} (h : t.closed = true) (halt : HaltMoment)
    (taken : Nat) (pieces : List Bytes) (w : World) :
    ((oneShot t).writeAll halt taken pieces w).1 =
      if pieces = [] then .ok () else .error t.upload.closedFailure := by
  cases pieces with
  | nil => rfl
  | cons data rest =>
      unfold writeAll Writer.write
      dsimp only
      rw [write_closed h, if_neg (List.cons_ne_nil _ _)]

/-- A call on a writer that was closed or given up before is of no use: a piece is refused,
so is the first chunk of a source, and a source without a chunk ends as it does. -/
def Refuses (t : OneShotWriter) (memory : Int) (turn : Turn) : Prop :=
  match turn.call with
  | .write _ => turn.result = .error t.upload.closedFailure ∧ turn.writer = oneShot t
  | .writeFrom source _ => turn.writer = oneShot t ∧ ∃ moment given ending,
      source.chunks t.bufferSize moment memory = (given, ending) ∧
      turn.result = if given = [] then ending.elim (.ok ()) .error
        else .error t.upload.closedFailure
  | .close | .abort | .raise _ => turn.result = .ok ()

theorem refuses_of_closed {t : OneShotWriter} (h : t.closed = true) (call : Call) (w : World) :
    t.Refuses w.room.memory ((oneShot t).turn call w).1 := by
  cases call with
  | write data =>
      have hrun : Call.run (.write data) (oneShot t) w =
          (.error t.upload.closedFailure, oneShot t, w) := by
        unfold Call.run Writer.write
        dsimp only
        rw [write_closed h]
      exact ⟨congrArg Prod.fst hrun, congrArg (fun out => out.2.1) hrun⟩
  | writeFrom source halt =>
      have hgoing : (Call.writeFrom source halt).ends = false := rfl
      obtain ⟨-, hleft⟩ := Call.run_oneShot hgoing t w
      rw [if_pos h] at hleft
      let moment := (oneShot t).haltMoment halt w
      rcases hchunks : source.chunks t.bufferSize moment w.room.memory with ⟨given, ending⟩
      refine ⟨hleft, moment, given, ending, hchunks, ?_⟩
      have hall := writeAll_closed h moment 0 given ((oneShot t).raiseFlag (moment.isUp 0) w)
      change ((oneShot t).writeFromWith source halt w).1 = _
      have hgiven : source.chunks (oneShot t).bufferSize moment w.room.memory = (given, ending) :=
        hchunks
      unfold writeFromWith
      dsimp only
      rw [hgiven]
      dsimp only
      rcases hw : (oneShot t).writeAll moment 0 given ((oneShot t).raiseFlag (moment.isUp 0) w)
        with ⟨e | _, t', v⟩ <;> rw [hw] at hall
      · by_cases hnone : given = []
        · rw [if_pos hnone] at hall
          cases hall
        · rw [if_neg hnone] at hall ⊢
          exact hall
      · by_cases hnone : given = []
        · rw [if_pos hnone]
          cases ending <;> rfl
        · rw [if_neg hnone] at hall
          cases hall
  | close =>
      have hclose : t.close w = (.ok (), t, w) := if_pos h
      change ((oneShot t).close w).1 = .ok ()
      unfold Writer.close
      dsimp only
      rw [hclose]
  | abort => rfl
  | raise flag => rfl

/-- What a turn of a one-shot writer comes to when some turns came before it. Until the
writer is closed or given up nothing is sent; the close that ends it delivers what was
written; and then nothing is sent any more, and what is written is refused. -/
structure Next (start : OneShotWriter) (w : World) (before : List Turn) (turn : Turn) : Prop where
  quiet : ending? before = none → turn.call ≠ .close → turn.exchanges = []
  delivers : ending? before = none → turn.call = .close → ∃ creation upload,
    turn.exchanges = creation.toList ++ upload.toList ∧
      start.upload.Delivers (written before) w creation upload turn.result
  refuses : ending? before ≠ none → turn.exchanges = [] ∧ ∃ t : OneShotWriter,
    before.getLast?.map Turn.writer = some (oneShot t) ∧ t.upload = start.upload ∧
      t.bufferSize = start.bufferSize ∧ t.Refuses w.room.memory turn

/-- A one-shot writer after some turns, and the world after them. -/
structure Stands (start : OneShotWriter) (w : World) (before : List Turn) (t : OneShotWriter)
    (v : World) : Prop where
  upload_eq : t.upload = start.upload
  size_eq : t.bufferSize = start.bufferSize
  closed_eq : t.closed = (ending? before).isSome
  buffer_eq : ending? before = none → t.buffer = written before
  flagged : ending? before = none → w.Flagged v
  last_eq : before ≠ [] → before.getLast?.map Turn.writer = some (oneShot t)
  room_eq : v.room = w.room

variable {start t : OneShotWriter} {w v : World} {before : List Turn}

/-- A call on a closed writer leaves it closed, and sends nothing. -/
theorem run_closed (h : t.closed = true) (call : Call) (w : World) : ∃ t' : OneShotWriter,
    (call.run (oneShot t) w).2.1 = oneShot t' ∧
      (call.run (oneShot t) w).2.2.exchanges = w.exchanges ∧
      t'.closed = true ∧ t'.upload = t.upload ∧ t'.bufferSize = t.bufferSize := by
  cases hends : call.ends with
  | false =>
      obtain ⟨hsent, hleft⟩ := call.run_oneShot hends t w
      rw [if_pos h] at hleft
      exact ⟨t, hleft, hsent, h, rfl, rfl⟩
  | true =>
      cases call with
      | write | writeFrom | raise => cases hends
      | abort => exact ⟨t.abort, rfl, rfl, rfl, rfl, rfl⟩
      | close =>
          have hclose : t.close w = (.ok (), t, w) := if_pos h
          refine ⟨t, ?_, ?_, h, rfl, rfl⟩ <;> simp only [Call.run, Writer.close, hclose]

theorem run_room (t : OneShotWriter) (call : Call) (w : World) :
    (call.run (oneShot t) w).2.2.room = w.room := by
  cases hends : call.ends with
  | false =>
      obtain ⟨flags, hflagged⟩ := call.run_flagged hends t w
      rw [hflagged]
  | true =>
      cases call with
      | write | writeFrom | raise => cases hends
      | abort => rfl
      | close =>
          obtain ⟨xs, hxs⟩ := t.close_passage w
          exact hxs.room_eq

theorem Stands.step (h : start.Stands w before t v) (call : Call) :
    start.Next w before ((oneShot t).turn call v).1 ∧
      ∃ t', ((oneShot t).turn call v).1.writer = oneShot t' ∧
        start.Stands w (before ++ [((oneShot t).turn call v).1]) t'
          ((oneShot t).turn call v).2 := by
  have hcall : ((oneShot t).turn call v).1.call = call := rfl
  have hworld : ((oneShot t).turn call v).2 = (call.run (oneShot t) v).2.2 := rfl
  have hending := ending?_append before [((oneShot t).turn call v).1]
  rw [ending?_singleton, hcall] at hending
  have hroom : ((oneShot t).turn call v).2.room = w.room := by
    rw [hworld, run_room, h.room_eq]
  cases hended : ending? before with
  | some last =>
      have hclosed : t.closed = true := by rw [h.closed_eq, hended, Option.isSome_some]
      have hsome : before ≠ [] := by
        rintro rfl
        cases hended
      rw [hended, Option.some_or] at hending
      obtain ⟨t', hleft, hsent, hclosed', hupload, hsize⟩ := run_closed hclosed call v
      rw [← List.append_nil v.exchanges] at hsent
      obtain ⟨hwriter, hexchanges⟩ := turn_of_run _ call v hleft hsent
      refine ⟨⟨by simp [hended], by simp [hended], fun _ => ⟨hexchanges, t, ?_⟩⟩, t', hwriter, ?_⟩
      · exact ⟨h.last_eq hsome, h.upload_eq, h.size_eq,
          h.room_eq ▸ refuses_of_closed hclosed call v⟩
      · exact ⟨hupload.trans h.upload_eq, hsize.trans h.size_eq, by rw [hclosed', hending]; rfl,
          by simp [hending], by simp [hending], fun _ => by simp [hwriter], hroom⟩
  | none =>
      have hopen : t.closed = false := by rw [h.closed_eq, hended, Option.isSome_none]
      rw [hended, Option.none_or] at hending
      cases hends : call.ends with
      | false =>
          obtain ⟨hsent, hleft⟩ := call.run_oneShot hends t v
          rw [if_neg (by simp [hopen])] at hleft
          rw [← List.append_nil v.exchanges] at hsent
          obtain ⟨hwriter, hexchanges⟩ := turn_of_run _ call v hleft hsent
          rw [hends, if_neg Bool.false_ne_true] at hending
          refine ⟨⟨fun _ _ => hexchanges, fun _ hclose => ?_, fun h => absurd hended h⟩, _,
            hwriter, h.upload_eq, h.size_eq, ?_, fun _ => ?_, fun _ => ?_, fun _ => ?_, hroom⟩
          · rw [hcall] at hclose
            rw [hclose] at hends
            cases hends
          · rw [hending]
            exact hopen
          · rw [buffer_collected, h.buffer_eq hended, written_append, written_singleton, hended,
              hcall, hends]
            rfl
          · exact (h.flagged hended).trans (call.run_flagged hends t v)
          · simp [hwriter]
      | true =>
          rw [hends, if_pos rfl] at hending
          -- Either way the writer is closed now, and there is nothing more to keep.
          have hstands {t' : OneShotWriter} (hclosed : t'.closed = true)
              (hupload : t'.upload = t.upload) (hsize : t'.bufferSize = t.bufferSize)
              (hwriter : ((oneShot t).turn call v).1.writer = oneShot t') :
              start.Stands w (before ++ [((oneShot t).turn call v).1]) t'
                ((oneShot t).turn call v).2 :=
            ⟨hupload.trans h.upload_eq, hsize.trans h.size_eq, by rw [hclosed, hending]; rfl,
              by simp [hending], by simp [hending], fun _ => by simp [hwriter], hroom⟩
          cases call with
          | write | writeFrom | raise => cases hends
          | abort =>
              have hsent : v.exchanges = v.exchanges ++ [] := (List.append_nil _).symm
              obtain ⟨hwriter, hexchanges⟩ := turn_of_run (oneShot t) .abort v rfl hsent
              exact ⟨⟨fun _ _ => hexchanges, fun _ hclose => (by cases hclose),
                fun h => absurd hended h⟩, t.abort, hwriter, hstands rfl rfl rfl hwriter⟩
          | close =>
              obtain ⟨creation, upload, hsent, hdelivers⟩ := close_delivers hopen v
              obtain ⟨_, pieces, _, hleft, _⟩ := close_accepts hopen v
              obtain ⟨hwriter, hexchanges⟩ :=
                turn_of_run (oneShot t) .close v (congrArg oneShot hleft) hsent
              rw [h.upload_eq, h.buffer_eq hended] at hdelivers
              exact ⟨⟨fun _ hother => absurd rfl hother,
                fun _ _ => ⟨creation, upload, hexchanges, hdelivers.of_flagged (h.flagged hended)⟩,
                fun h => absurd hended h⟩, _, hwriter, hstands rfl rfl rfl hwriter⟩

theorem run_next (h : start.Stands w before t v) (calls : List Call) :
    Along (start.Next w) before ((oneShot t).run calls v) := by
  induction calls generalizing before t v with
  | nil => trivial
  | cons call calls ih =>
      obtain ⟨hnext, t', hwriter, hstands⟩ := h.step call
      have hrest := ih hstands
      rw [← hwriter] at hrest
      exact ⟨hnext, hrest⟩

/-- The service hears of a file that is uploaded at once in two requests at most: whatever is
done with the writer and whatever the service answers, nothing is sent before the writer is
closed; the first close of a writer that was not given up creates the file and, if that was
accepted, uploads everything that was written, in order; and nothing is sent, taken or lost
after the writer was closed or given up. -/
theorem run_delivers_once (u : Upload) (flag : Option Text) (bufferSize : Option Int)
    (calls : List Call) (w : World) :
    let start : OneShotWriter := { upload := u, flag, bufferSize }
    let turns := (oneShot start).run calls w
    turns.map Turn.call = calls ∧
      ∀ before turn after, turns = before ++ turn :: after → start.Next w before turn := by
  intro start turns
  have hstart : start.Stands w [] start w :=
    ⟨rfl, rfl, rfl, fun _ => rfl, fun _ => .refl w, fun h => absurd rfl h, rfl⟩
  have hrun := along_iff.mp (run_next hstart calls)
  exact ⟨run_calls _ _ _, hrun⟩

/-- A content type that begins with a space cannot be sent, so the first close creates no
file; a source without a chunk is not refused by a writer that is closed; and an upload is
not sent when there is no second credential to sign it with. -/
theorem close_unsent :
    let spaced : OneShotWriter :=
      { upload := { AppendWriter.logUpload with options := { contentType := some " text/plain" } } }
    let plain : OneShotWriter := { upload := { AppendWriter.logUpload with options := {} } }
    let w := AppendWriter.answering [201, 202]
    let refusedTurns := (oneShot spaced).run [.write [97], .close, .writeFrom (.pieces []) none] w
    let createdTurns := (oneShot plain).run [.write [97], .close]
      { w with tokens := [.token "t", .failure ⟨"AzureError", "no token", none⟩] }
    refusedTurns.map (fun turn => turn.exchanges.map Exchange.kind) = [[], [], []] ∧
      refusedTurns.map (fun turn => turn.result.toOption) = [some (), none, some ()] ∧
      createdTurns.map (fun turn => turn.exchanges.map Exchange.kind) = [[], [.creation]] ∧
      (ledger createdTurns).map (fun x => x.response?.map Response.status) = [some 201] := by
  decide +kernel

end OneShotWriter

end DataLake
