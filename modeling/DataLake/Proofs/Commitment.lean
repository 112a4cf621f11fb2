import DataLake.Proofs.Contiguity
import DataLake.Proofs.Establishment
import DataLake.Proofs.WriterRun

/-!
What a writer's close achieves. The first close of a writer commits everything that the
writer was given, or it fails. A failed close still closes the writer, so a second close
returns without sending anything, and what was written stays uncommitted: that a close
returned means a commit exactly if the call that closed the writer is a close that returned.
-/

namespace DataLake

/-- The service carried out an operation that has to be answered with one of some statuses. -/
def Exchange.Accepts (b : Backend) (op : Operation) (statuses : List Int) (x : Exchange) : Prop :=
  b.Signs op x.request ∧ x.response?.bind (Response.accepted? statuses) = some ()

theorem Attempt.accepts {b : Backend} {op : Operation} {statuses : List Int}
    {result : Except Failure Unit} {xs : Ledger}
    (h : Attempt b op (Response.accepted? statuses) result xs) :
    (result = .ok () → ∃ x ∈ xs, x.Accepts b op statuses) ∧
      (result ≠ .ok () → ∀ x ∈ xs, ∀ b' op', ¬ x.Accepts b' op' statuses) := by
  cases h with
  | unsent e => simp
  | refused e x hsigned hvalue =>
      simp [Exchange.Accepts, hvalue]
  | accepted a x hsigned hvalue =>
      exact ⟨fun _ => ⟨x, List.mem_singleton_self x, hsigned, hvalue⟩, fun h => absurd rfl h⟩

namespace Writer

def closed : Writer → Bool
  | oneShot t => t.closed
  | append t => t.closed

/-- The service accepted a commit of some written bytes: an upload of all of them at once,
or a flush at the end that the writer knows of. -/
def Commits (data : Bytes) (x : Exchange) : Writer → Prop
  | oneShot t => x.Accepts t.upload.backend (.update t.upload.path 0 data true) [200, 202]
  | append t => ∃ p, t.offset = some p ∧
      x.Accepts t.upload.backend (.flush t.upload.path p) [200, 201]

/-- The service accepted a commit, whatever it was of. -/
def Seals (x : Exchange) : Writer → Prop
  | oneShot t => ∃ data, x.Accepts t.upload.backend (.update t.upload.path 0 data true) [200, 202]
  | append t => ∃ p, x.Accepts t.upload.backend (.flush t.upload.path p) [200, 201]

/-- What was written is kept for the upload; an append writer keeps nothing. -/
def Keeps (data : Bytes) : Writer → Prop
  | oneShot t => t.buffer = data
  | append _ => True

theorem Seals.kind_ne_creation {t : Writer} {x : Exchange} (h : t.Seals x) :
    x.kind ≠ .creation := by
  have hmethod : x.request.method = "PATCH" := by
    cases t with
    | oneShot t =>
        obtain ⟨data, hsigned, -⟩ := h
        exact hsigned.method_eq
    | append t =>
        obtain ⟨p, hsigned, -⟩ := h
        exact hsigned.method_eq
  unfold Exchange.kind
  rw [if_neg (by rw [hmethod]; decide), if_neg (by rw [hmethod]; decide), if_pos hmethod]
  split <;> decide

theorem Commits.seals {t : Writer} {data : Bytes} {x : Exchange} (h : t.Commits data x) :
    t.Seals x := by
  cases t with
  | oneShot t => exact ⟨data, h⟩
  | append t =>
      obtain ⟨p, -, h⟩ := h
      exact ⟨p, h⟩

/-- What a call can do about commits: its pieces, its result, the exchanges during it, and
the writer after it. -/
inductive Does (t : Writer) (call : Call) (pieces : List Bytes) (result : Except Failure Unit)
    (xs : Ledger) (t' : Writer) : Prop where
  | idle (hclosed : t.closed = true) (hended : t'.closed = true) (hunsent : xs = [])
      (hcommits : ∀ data x, t'.Commits data x ↔ t.Commits data x)
      (hseals : ∀ x, t'.Seals x ↔ t.Seals x)
  | takes (hopen : t.closed = false) (hgoing : call.ends = false) (hstays : t'.closed = false)
      (hkeeps : ∀ data, t.Keeps data → t'.Keeps (data ++ pieces.flatten))
      (hseals : ∀ x, t'.Seals x ↔ t.Seals x) (hquiet : ∀ x ∈ xs, ¬ t.Seals x)
  | ends (hopen : t.closed = false) (hends : call.ends = true) (hended : t'.closed = true)
      (hseals : ∀ x, t'.Seals x ↔ t.Seals x)
      (hcommitted : ∀ data, t.Keeps data → call = .close ∧ result = .ok () →
        ∃ x ∈ xs, t'.Commits data x)
      (hquiet : ¬ (call = .close ∧ result = .ok ()) → ∀ x ∈ xs, ¬ t.Seals x)

theorem Does.of_same {t : Writer} {call : Call} {pieces : List Bytes}
    {result : Except Failure Unit} (hclosed : t.closed = true) :
    Does t call pieces result [] t :=
  .idle hclosed hclosed rfl (fun _ _ => Iff.rfl) fun _ => Iff.rfl

theorem Does.of_abort {t t' : Writer} {pieces : List Bytes} {result : Except Failure Unit}
    (hopen : t.closed = false) (hended : t'.closed = true)
    (hseals : ∀ x, t'.Seals x ↔ t.Seals x) : Does t .abort pieces result [] t' :=
  .ends hopen rfl hended hseals (fun _ _ hclose => by cases hclose.1) (by simp)

def Turn.Does (t : Writer) (turn : Turn) : Prop :=
  Writer.Does t turn.call turn.pieces turn.result turn.exchanges turn.writer

theorem turn_does_of_run {t t' : Writer} {call : Call} {w : World} {xs : Ledger}
    (hwriter : (call.run t w).2.1 = t')
    (hexchanges : (call.run t w).2.2.exchanges = w.exchanges ++ xs)
    (h : Does t call (call.pieces t w) (call.run t w).1 xs t') : (t.turn call w).1.Does t := by
  obtain ⟨hleft, hsent⟩ := turn_of_run t call w hwriter hexchanges
  unfold Turn.Does
  rw [hleft, hsent]
  exact h

end Writer

namespace OneShotWriter

open Writer

theorem write_closed {t : OneShotWriter} (h : t.closed = true) (data : Bytes) (w : World) :
    t.write data w = (.error t.upload.closedFailure, t, w) :=
  if_pos h

theorem write_open {t : OneShotWriter} (h : t.closed = false) (data : Bytes) (w : World) :
    t.write data w = (.ok (), { t with pieces := data :: t.pieces }, w) :=
  if_neg (by simp [h])

/-- An open writer collects all pieces, a closed one none, and neither sends anything. -/
theorem writeAll_collects (t : OneShotWriter) (halt : HaltMoment) (taken : Nat)
    (pieces : List Bytes) (w : World) :
    ((oneShot t).writeAll halt taken pieces w).2.2.exchanges = w.exchanges ∧
      ((oneShot t).writeAll halt taken pieces w).2.1 =
        oneShot (if t.closed then t else { t with pieces := pieces.reverse ++ t.pieces }) := by
  induction pieces generalizing t taken w with
  | nil => simp [writeAll]
  | cons data rest ih =>
      let raised := (oneShot t).raiseFlag (halt.isUp (taken + 1)) w
      have hraised : raised.exchanges = w.exchanges := exchanges_raiseFlag _ _ w
      unfold writeAll Writer.write
      dsimp only
      by_cases hclosed : t.closed = true
      · rw [write_closed hclosed, if_pos hclosed]
        exact ⟨hraised, rfl⟩
      · obtain ⟨hsent, hleft⟩ := ih { t with pieces := data :: t.pieces } (taken + 1) raised
        rw [if_neg hclosed] at hleft
        rw [write_open (by simpa using hclosed), if_neg hclosed]
        refine ⟨hsent.trans hraised, hleft.trans ?_⟩
        rw [List.reverse_cons, List.append_assoc]
        rfl

theorem buffer_collected (t : OneShotWriter) (pieces : List Bytes) :
    buffer { t with pieces := pieces.reverse ++ t.pieces } = t.buffer ++ pieces.flatten := by
  simp [buffer]

/-- Closing an open writer succeeds exactly if the service accepts the upload of what was
written. -/
theorem close_accepts {t : OneShotWriter} (h : t.closed = false) (w : World) :
    ∃ xs pieces, (t.close w).2.2.exchanges = w.exchanges ++ xs ∧
      (t.close w).2.1 = { t with closed := true, pieces } ∧
      ((t.close w).1 = .ok () → ∃ x ∈ xs, x.Accepts t.upload.backend
        (.update t.upload.path 0 t.buffer true) [200, 202]) ∧
      ((t.close w).1 ≠ .ok () → ∀ x ∈ xs, ¬ (oneShot t).Seals x) := by
  unfold close
  rw [if_neg (by simp [h])]
  -- A creation is no upload, so only the second request can be the commit.
  have hcreation {x : Exchange} (hx : x.kind = .creation) : ¬ (oneShot t).Seals x :=
    fun hseals => hseals.kind_ne_creation hx
  have hbuffer : buffer { t with closed := true } = t.buffer := rfl
  dsimp only
  rw [hbuffer]
  obtain ⟨xs, hxs, hcreate⟩ := t.upload.create_attempts w
  rcases hcreated : t.upload.create w with ⟨e | _, v⟩
  · rw [hcreated] at hxs hcreate
    dsimp only
    refine ⟨xs, t.pieces, hxs, rfl, fun h => ?_, fun _ x hx => ?_⟩
    · cases h
    · cases hcreate with
      | unsent => cases hx
      | refused _ y hy =>
          rw [List.mem_singleton.mp hx]
          exact hcreation (AppendWriter.kind_creation hy)
  · rw [hcreated] at hxs hcreate
    dsimp only
    have hcreating : ∀ x ∈ xs, x.kind = .creation := by
      cases hcreate with
      | accepted _ y hy => simpa using AppendWriter.kind_creation hy
    obtain ⟨ys, hys, hupload⟩ := t.upload.append_attempts 0 t.buffer true v
    obtain ⟨haccepted, hrefused⟩ := hupload.accepts
    rcases happended : t.upload.append 0 t.buffer true v with ⟨e | _, v'⟩
    · rw [happended] at hys hrefused
      dsimp only
      refine ⟨xs ++ ys, t.pieces, ?_, rfl, fun h => ?_, fun hfailed x hx => ?_⟩
      · rw [hys, hxs, List.append_assoc]
      · cases h
      · rcases List.mem_append.mp hx with hx | hx
        · exact hcreation (hcreating x hx)
        · rintro ⟨data, haccepts⟩
          exact hrefused hfailed x hx _ _ haccepts
    · rw [happended] at hys haccepted
      dsimp only
      obtain ⟨x, hx, haccepts⟩ := haccepted rfl
      refine ⟨xs ++ ys, [], ?_, rfl, fun _ => ?_, fun h => absurd rfl h⟩
      · rw [hys, hxs, List.append_assoc]
      · exact ⟨x, List.mem_append_right xs hx, haccepts⟩

end OneShotWriter

namespace AppendWriter

variable {u : Upload}

theorem Does.same_offset {o o' : Option Int} {call : Call} {xs : Ledger}
    {result : Except Failure Unit} (h : Does u true o call xs result o') : o' = o := by
  cases h <;> rfl

theorem Opening.uncommitted {o o' : Option Int} {xs : Ledger} {result : Except Failure Unit}
    (h : Opening u o xs result o') : ∀ x ∈ xs, x.kind ≠ .commit := by
  intro x hx
  rcases h.kinds x hx with hkind | hkind <;> simp [hkind]

/-- Before a writer is closed nothing is committed. -/
theorem Does.uncommitted {closed : Bool} {o o' : Option Int} {call : Call} {xs : Ledger}
    {result : Except Failure Unit} (h : Does u closed o call xs result o')
    (hgoing : call.ends = false) : ∀ x ∈ xs, x.kind ≠ .commit := by
  cases h with
  | writeClosed | closeClosed | silent => simp
  | unopened _ _ _ hopen => exact hopen.uncommitted
  | opened hopen hfollows =>
      intro x hx
      rcases List.mem_append.mp hx with hx | hx
      · exact hopen.uncommitted x hx
      · simp [hfollows.kinds x hx, hgoing]

theorem run_closed {t : AppendWriter} (h : t.closed = true) (calls : List Call) (w : World) :
    (t.run calls w).2.2.exchanges = w.exchanges ∧ (t.run calls w).2.1 = t := by
  induction calls generalizing w with
  | nil => exact ⟨rfl, rfl⟩
  | cons call calls ih =>
      have hdone := t.turn_does call w
      unfold run
      rcases hturn : t.turn call w with ⟨turn, t', v⟩
      rw [hturn, h] at hdone
      obtain ⟨-, hexchanges, ht, hdoes⟩ := hdone
      rw [hdoes.closed.1, List.append_nil] at hexchanges
      obtain rfl : t' = t := by rw [ht, hdoes.same_offset, Bool.true_or, ← h]
      obtain ⟨hrest, hleft⟩ := ih v
      exact ⟨hrest.trans hexchanges, hleft⟩

theorem run_going {t : AppendWriter} (h : t.closed = false) {calls : List Call}
    (hcalls : ∀ call ∈ calls, call.ends = false) (w : World) :
    ∃ xs o, (t.run calls w).2.2.exchanges = w.exchanges ++ xs ∧
      (t.run calls w).2.1 = { t with offset := o } ∧ ∀ x ∈ xs, x.kind ≠ .commit := by
  induction calls generalizing t w with
  | nil => exact ⟨[], t.offset, (List.append_nil _).symm, rfl, by simp⟩
  | cons call calls ih =>
      have hgoing := hcalls call List.mem_cons_self
      have hdone := t.turn_does call w
      unfold run
      rcases hturn : t.turn call w with ⟨turn, t', v⟩
      rw [hturn, hgoing, Bool.or_false] at hdone
      obtain ⟨hcall, hexchanges, ht, hdoes⟩ := hdone
      obtain ⟨xs, o, hrest, hleft, hquiet⟩ :=
        ih (t := t') (by rw [ht, h]) (fun call hcall => hcalls call (List.mem_cons_of_mem _ hcall)) v
      refine ⟨turn.exchanges ++ xs, o, ?_, ?_, fun x hx => ?_⟩
      · rw [← List.append_assoc, ← hexchanges]
        exact hrest
      · exact hleft.trans (by rw [ht])
      · rcases List.mem_append.mp hx with hx | hx
        · exact hdoes.uncommitted hgoing x hx
        · exact hquiet x hx

/-- Closing an open writer succeeds exactly if the service accepts a flush at its offset. -/
theorem close_accepts {t : AppendWriter} (h : t.closed = false) (w : World) :
    ∃ xs o, (t.close w).2.2.exchanges = w.exchanges ++ xs ∧
      (t.close w).2.1 = { t with offset := o, closed := true } ∧
      ((t.close w).1 = .ok () → ∃ x ∈ xs, ∃ p, o = some p ∧
        x.Accepts t.upload.backend (.flush t.upload.path p) [200, 201]) ∧
      ((t.close w).1 ≠ .ok () → ∀ x ∈ xs, ¬ (Writer.append t).Seals x) := by
  obtain ⟨xs, o, hxs, ht, hdoes⟩ := Call.close.run_does t w
  have hopening {o o' : Option Int} {xs : Ledger} {result : Except Failure Unit}
      (hopen : Opening t.upload o xs result o') (x : Exchange) (hx : x ∈ xs) :
      ¬ (Writer.append t).Seals x := by
    rintro ⟨p, hsigned, -⟩
    exact hopen.uncommitted x hx (kind_commit hsigned)
  have hclose : Call.close.run t w = t.close w := rfl
  rw [hclose] at hxs ht hdoes
  rw [h] at hdoes
  refine ⟨xs, o, hxs, by rw [ht, h, Bool.false_or, Call.ends], ?_⟩
  generalize (t.close w).1 = result at hdoes ⊢
  cases hdoes with
  | silent _ _ _ hcall => cases hcall
  | unopened _ e _ hopen => exact ⟨fun h => (by cases h), fun _ x hx => hopening hopen x hx⟩
  | @opened _ _ xs ys p _ _ hopen hfollows =>
      cases hfollows with
      | committed hflush =>
          obtain ⟨haccepted, hrefused⟩ := hflush.accepts
          refine ⟨fun hok => ?_, fun hfailed x hx => ?_⟩
          · obtain ⟨x, hx, haccepts⟩ := haccepted hok
            exact ⟨x, List.mem_append_right xs hx, p, rfl, haccepts⟩
          · rcases List.mem_append.mp hx with hx | hx
            · exact hopening hopen x hx
            · rintro ⟨q, haccepts⟩
              exact hrefused hfailed x hx _ _ haccepts

end AppendWriter

namespace Writer

/-- A call on a one-shot writer that does not end it only collects its pieces. -/
theorem Call.run_oneShot {call : Call} (hgoing : call.ends = false) (t : OneShotWriter)
    (w : World) :
    (call.run (oneShot t) w).2.2.exchanges = w.exchanges ∧
      (call.run (oneShot t) w).2.1 = oneShot (if t.closed then t else
        { t with pieces := (call.pieces (oneShot t) w).reverse ++ t.pieces }) := by
  cases call with
  | write data =>
      unfold Call.run Writer.write
      dsimp only
      by_cases hclosed : t.closed = true
      · rw [OneShotWriter.write_closed hclosed, if_pos hclosed]
        exact ⟨rfl, rfl⟩
      · rw [OneShotWriter.write_open (by simpa using hclosed), if_neg hclosed]
        exact ⟨rfl, rfl⟩
  | writeFrom source halt =>
      unfold Call.run
      dsimp only
      rw [writeFromWith_left]
      obtain ⟨hsent, hleft⟩ := t.writeAll_collects ((oneShot t).haltMoment halt w) 0
        (source.chunks (oneShot t).bufferSize ((oneShot t).haltMoment halt w) w.room.memory).1
        ((oneShot t).raiseFlag (((oneShot t).haltMoment halt w).isUp 0) w)
      exact ⟨hsent.trans (exchanges_raiseFlag _ _ _), hleft⟩
  | raise flag =>
      refine ⟨w.exchanges_raise flag, ?_⟩
      by_cases hclosed : t.closed = true
      · rw [if_pos hclosed]
        rfl
      · rw [if_neg hclosed]
        rfl
  | close | abort => cases hgoing

theorem turn_does_oneShot (t : OneShotWriter) (call : Call) (w : World) :
    ((oneShot t).turn call w).1.Does (oneShot t) := by
  cases hends : call.ends with
  | false =>
      obtain ⟨hsent, hleft⟩ := call.run_oneShot hends t w
      rw [← List.append_nil w.exchanges] at hsent
      by_cases hclosed : t.closed = true
      · rw [if_pos hclosed] at hleft
        exact turn_does_of_run hleft hsent (.of_same hclosed)
      · rw [if_neg hclosed] at hleft
        have hopen : t.closed = false := by simpa using hclosed
        refine turn_does_of_run hleft hsent (.takes hopen hends hopen ?_ (fun _ => Iff.rfl) (by simp))
        intro data hkeeps
        rw [← hkeeps]
        exact t.buffer_collected _
  | true =>
      cases call with
      | write | writeFrom | raise => cases hends
      | abort =>
          have hunsent : w.exchanges = w.exchanges ++ [] := (List.append_nil _).symm
          by_cases hclosed : t.closed = true
          · exact turn_does_of_run rfl hunsent
              (.idle hclosed rfl rfl (fun _ _ => Iff.rfl) fun _ => Iff.rfl)
          · have hopen : t.closed = false := by simpa using hclosed
            exact turn_does_of_run rfl hunsent (.of_abort hopen rfl fun _ => Iff.rfl)
      | close =>
          by_cases hclosed : t.closed = true
          · have hclose : t.close w = (.ok (), t, w) := if_pos hclosed
            refine turn_does_of_run ?_ ?_ (.of_same hclosed) <;>
              simp only [Call.run, Writer.close, hclose, List.append_nil]
          · have hopen : t.closed = false := by simpa using hclosed
            obtain ⟨xs, pieces, hsent, hleft, haccepted, hrefused⟩ :=
              OneShotWriter.close_accepts hopen w
            refine turn_does_of_run (congrArg oneShot hleft) hsent
              (.ends hopen rfl rfl (fun _ => Iff.rfl) ?_ ?_)
            · intro data hkeeps hok
              rw [← hkeeps]
              exact haccepted hok.2
            · intro hfailed
              exact hrefused fun hok => hfailed ⟨rfl, hok⟩

theorem turn_does_append (t : AppendWriter) (call : Call) (w : World) :
    ((append t).turn call w).1.Does (append t) := by
  obtain ⟨calls, hcalls, hleft⟩ := call.run_append t w
  have hwriter := congrArg Prod.fst hleft
  have hworld := congrArg (fun left => left.2.exchanges) hleft
  dsimp only at hwriter hworld
  cases hclosed : t.closed with
  | true =>
      obtain ⟨hsent, hsame⟩ := t.run_closed hclosed calls w
      rw [hsame] at hwriter
      rw [hsent, ← List.append_nil w.exchanges] at hworld
      exact turn_does_of_run hwriter hworld (.of_same hclosed)
  | false =>
      cases hends : call.ends with
      | false =>
          obtain ⟨xs, o, hsent, ht, hquiet⟩ := t.run_going hclosed (hcalls hends) w
          rw [ht] at hwriter
          refine turn_does_of_run hwriter (hworld.trans hsent)
            (.takes hclosed hends hclosed (fun _ _ => trivial) (fun _ => Iff.rfl) ?_)
          rintro x hx ⟨p, hsigned, -⟩
          exact hquiet x hx (AppendWriter.kind_commit hsigned)
      | true =>
          cases call with
          | write | writeFrom | raise => cases hends
          | abort =>
              exact turn_does_of_run rfl (List.append_nil _).symm
                (.of_abort hclosed rfl fun _ => Iff.rfl)
          | close =>
              obtain ⟨xs, o, hsent, hafter, haccepted, hrefused⟩ :=
                AppendWriter.close_accepts hclosed w
              refine turn_does_of_run (congrArg append hafter) hsent
                (.ends hclosed rfl rfl (fun _ => Iff.rfl) ?_ ?_)
              · intro data _ hok
                exact haccepted hok.2
              · intro hfailed
                exact hrefused fun hok => hfailed ⟨rfl, hok⟩

theorem turn_does (t : Writer) (call : Call) (w : World) : (t.turn call w).1.Does t :=
  match t with
  | oneShot t => turn_does_oneShot t call w
  | append t => turn_does_append t call w

/-- What was written before the writer was closed or given up. -/
def written (turns : List Turn) : Bytes :=
  ((turns.takeWhile fun turn => !turn.call.ends).flatMap Turn.pieces).flatten

/-- The turn that ended the writer, if one did. -/
def ending? (turns : List Turn) : Option Turn :=
  turns.find? fun turn => turn.call.ends

/-- The call that ended the writer is a close that returned. -/
def ClosedWell (turns : List Turn) : Prop :=
  ∃ turn, ending? turns = some turn ∧ turn.call = .close ∧ turn.result = .ok ()

theorem ending?_append (before after : List Turn) :
    ending? (before ++ after) = (ending? before).or (ending? after) :=
  List.find?_append

theorem ending?_singleton (turn : Turn) :
    ending? [turn] = if turn.call.ends then some turn else none :=
  List.find?_singleton

theorem written_append (before after : List Turn) :
    written (before ++ after) =
      written before ++ if (ending? before).isSome then [] else written after := by
  unfold written ending?
  induction before with
  | nil => simp
  | cons first rest ih => cases hends : first.call.ends <;> simp [hends, ih]

theorem written_singleton (turn : Turn) :
    written [turn] = if turn.call.ends then [] else turn.pieces.flatten := by
  unfold written
  cases hends : turn.call.ends <;> simp [hends]

/-- A writer after some turns: what was written is kept until the writer is ended, and after
a close that returned the service has accepted a commit of it; otherwise of nothing. -/
structure After (before : List Turn) (t : Writer) : Prop where
  closed_eq : t.closed = (ending? before).isSome
  keeps : ending? before = none → t.Keeps (written before)
  commits : ClosedWell before → ∃ x ∈ ledger before, t.Commits (written before) x
  quiet : ¬ ClosedWell before → ∀ x ∈ ledger before, ¬ t.Seals x

theorem After.step {before : List Turn} {t : Writer} {turn : Turn} (h : After before t)
    (hdoes : turn.Does t) : After (before ++ [turn]) turn.writer := by
  have hquiet (hwell : ¬ ClosedWell before) (hseals : ∀ x, turn.writer.Seals x ↔ t.Seals x)
      (hturn : ∀ x ∈ turn.exchanges, ¬ t.Seals x) :
      ∀ x ∈ ledger (before ++ [turn]), ¬ turn.writer.Seals x := by
    intro x hx
    rw [ledger_append, ledger_singleton] at hx
    rw [hseals x]
    rcases List.mem_append.mp hx with hx | hx
    · exact h.quiet hwell x hx
    · exact hturn x hx
  have hending := ending?_append before [turn]
  rw [ending?_singleton] at hending
  cases hdoes with
  | idle hclosed hended hunsent hcommits hseals =>
      obtain ⟨last, hlast⟩ := Option.isSome_iff_exists.mp (h.closed_eq.symm.trans hclosed)
      rw [hlast, Option.some_or] at hending
      have hwell : ClosedWell (before ++ [turn]) ↔ ClosedWell before := by
        rw [ClosedWell, ClosedWell, hending, hlast]
      constructor
      · rw [hended, hending, Option.isSome_some]
      · simp [hending]
      · intro hgood
        obtain ⟨x, hx, hcommit⟩ := h.commits (hwell.mp hgood)
        refine ⟨x, by simp [hx], (hcommits _ x).mpr ?_⟩
        simpa [written_append, hlast] using hcommit
      · intro hbad
        exact hquiet (fun hgood => hbad (hwell.mpr hgood)) hseals (by simp [hunsent])
  | takes hopen hgoing hstays hkeeps hseals hunsealed =>
      have hlast := Option.isNone_iff_eq_none.mp (by simpa [hopen] using h.closed_eq)
      rw [hlast, hgoing, Option.none_or, if_neg Bool.false_ne_true] at hending
      constructor
      · rw [hstays, hending, Option.isSome_none]
      · intro _
        simpa [written_append, hlast, written_singleton, hgoing] using hkeeps _ (h.keeps hlast)
      · simp [ClosedWell, hending]
      · intro _
        exact hquiet (by simp [ClosedWell, hlast]) hseals hunsealed
  | ends hopen hends hended hseals hcommitted hunsealed =>
      have hlast := Option.isNone_iff_eq_none.mp (by simpa [hopen] using h.closed_eq)
      rw [hlast, hends, Option.none_or, if_pos rfl] at hending
      have hwell : ClosedWell (before ++ [turn]) ↔ turn.call = .close ∧ turn.result = .ok () := by
        simp [ClosedWell, hending]
      constructor
      · rw [hended, hending, Option.isSome_some]
      · simp [hending]
      · intro hgood
        obtain ⟨x, hx, hcommit⟩ := hcommitted _ (h.keeps hlast) (hwell.mp hgood)
        refine ⟨x, by simp [hx], ?_⟩
        simpa [written_append, hlast, written_singleton, hends] using hcommit
      · intro hbad
        exact hquiet (by simp [ClosedWell, hlast]) hseals
          (hunsealed fun hgood => hbad (hwell.mpr hgood))

theorem run_after {before : List Turn} {t : Writer} (h : After before t) (calls : List Call)
    (w : World) :
    Along (fun past turn => After (past ++ [turn]) turn.writer) before (t.run calls w) := by
  induction calls generalizing before t w with
  | nil => trivial
  | cons call calls ih =>
      have hstep := h.step (t.turn_does call w)
      exact ⟨hstep, ih hstep _⟩

theorem After.opened (b : Backend) (path : Text) (options : Option WriteOptions)
    (flag : Option Text) (bufferSize : Option Int) :
    After [] (ofOptions b path options flag bufferSize) := by
  unfold ofOptions
  dsimp only
  split
  · exact ⟨rfl, fun _ => trivial, by simp [ClosedWell, ending?], by simp [ledger]⟩
  · exact ⟨rfl, fun _ => rfl, by simp [ClosedWell, ending?], by simp [ledger]⟩

/-- A close that returns means that the service accepted a commit of what was written exactly
if the call that ended the writer is a close that returned. -/
theorem close_commits_iff (b : Backend) (path : Text) (options : Option WriteOptions)
    (flag : Option Text) (bufferSize : Option Int) (calls : List Call) (w : World) :
    let turns := (ofOptions b path options flag bufferSize).run calls w
    turns.map Turn.call = calls ∧
      ∀ before turn after, turns = before ++ turn :: after →
        turn.call = .close → turn.result = .ok () →
        ((∃ x ∈ ledger (before ++ [turn]), turn.writer.Commits (written before) x) ↔
          ClosedWell (before ++ [turn])) := by
  refine ⟨run_calls _ _ _, fun before turn after hsplit hcall _ => ?_⟩
  have hrun := run_after (After.opened b path options flag bufferSize) calls w
  have hafter := along_iff.mp hrun before turn after hsplit
  have hwritten : written (before ++ [turn]) = written before := by
    simp [written_append, written_singleton, hcall, Call.ends]
  constructor
  · rintro ⟨x, hx, hcommit⟩
    exact Classical.byContradiction fun hbad => hafter.quiet hbad x hx hcommit.seals
  · intro hgood
    simpa [hwritten] using hafter.commits hgood

/-- The first close fails at its first request; the second returns, and nothing is committed. -/
theorem second_close_uncommitted :
    let turns := (ofOptions AppendWriter.logUpload.backend "log" none none none).run
      [.write [97], .close, .close] (AppendWriter.answering [500, 201, 202])
    (turns.map fun turn => turn.result.toOption) = [some (), none, some ()] ∧
      ∀ turn ∈ turns, ∀ data, ¬ ∃ x ∈ ledger turns, turn.writer.Commits data x := by
  have hkinds : ∀ x ∈ ledger ((ofOptions AppendWriter.logUpload.backend "log" none none none).run
      [.write [97], .close, .close] (AppendWriter.answering [500, 201, 202])),
      x.kind = .creation := by
    decide +kernel
  refine ⟨by decide +kernel, fun turn _ data => ?_⟩
  rintro ⟨x, hx, hcommit⟩
  exact hcommit.seals.kind_ne_creation (hkinds x hx)

end Writer

end DataLake
