import DataLake.Proofs.Disguise
import DataLake.Session

/-!
Objects under a disguise. A writer or a lister whose backend has another login goes through
the same states, and each step of it gives the same and leaves the worlds the same, up to
the disguise. A stream has no login at all.
-/

namespace DataLake

namespace Disguise

/-- The steps give the same, leave the same object behind but for its login, and leave the
worlds the same, up to the disguise. -/
def Steps (d : Disguise) {α σ : Type} (f : σ → σ) (x x' : World → Except Failure α × σ × World) :
    Prop :=
  ∀ w w', d.Worlds w w' → ∃ r s v v', x w = (r, s, v) ∧ x' w' = (r, f s, v') ∧ d.Worlds v v'

end Disguise

variable (d : Disguise) (f : Login → Login)

def Upload.mapLogin (u : Upload) : Upload :=
  { u with backend := u.backend.mapLogin f }

def OneShotWriter.mapLogin (t : OneShotWriter) : OneShotWriter :=
  { t with upload := t.upload.mapLogin f }

def AppendWriter.mapLogin (t : AppendWriter) : AppendWriter :=
  { t with upload := t.upload.mapLogin f }

def Writer.mapLogin : Writer → Writer
  | oneShot t => oneShot (t.mapLogin f)
  | append t => append (t.mapLogin f)

def PageLister.mapLogin (l : PageLister) : PageLister :=
  { l with backend := l.backend.mapLogin f }

def Handle.mapLogin : Handle → Handle
  | stream s => stream s
  | lister l => lister (l.mapLogin f)
  | writer t => writer (t.mapLogin f)

namespace Upload

variable (u : Upload)

theorem create_alike : d.Actions u.create (u.mapLogin d.login).create :=
  u.backend.operation_alike d _ u.path _ _ fun _ => .pure ()

theorem append_alike (position : Int) (data : Bytes) (commit : Bool) :
    d.Actions (u.append position data commit) ((u.mapLogin d.login).append position data commit) :=
  u.backend.operation_alike d _ u.path _ _ fun _ => .pure ()

theorem flush_alike (position : Int) :
    d.Actions (u.flush position) ((u.mapLogin d.login).flush position) :=
  u.backend.operation_alike d _ u.path _ _ fun _ => .pure ()

theorem storedSize_alike : d.Actions u.storedSize (u.mapLogin d.login).storedSize := by
  refine u.backend.operation_alike d _ u.path _ _ fun r => ?_
  split
  · exact .pure 0
  · exact (Disguise.Actions.ofExcept _).bind fun size => .pure _

end Upload

namespace OneShotWriter

variable (t : OneShotWriter)

theorem write_alike (data : Bytes) :
    d.Steps (mapLogin d.login) (t.write data) ((t.mapLogin d.login).write data) := by
  intro w w' h
  obtain ⟨upload, flag, bufferSize, closed, pieces⟩ := t
  cases closed <;> exact ⟨_, _, _, _, rfl, rfl, h⟩

theorem close_alike : d.Steps (mapLogin d.login) t.close (t.mapLogin d.login).close := by
  intro w w' h
  obtain ⟨upload, flag, bufferSize, closed, pieces⟩ := t
  cases closed with
  | true => exact ⟨_, _, _, _, rfl, rfl, h⟩
  | false =>
      obtain ⟨r, v, v', hcreate, hcreate', hv⟩ := upload.create_alike d w w' h
      simp only [close, mapLogin, hcreate, hcreate', buffer]
      cases r with
      | error e => exact ⟨_, _, _, _, rfl, rfl, hv⟩
      | ok _ =>
          obtain ⟨r, u, u', happend, happend', hu⟩ :=
            upload.append_alike d 0 pieces.reverse.flatten true v v' hv
          simp only [happend, happend']
          cases r <;> exact ⟨_, _, _, _, rfl, rfl, hu⟩

end OneShotWriter

namespace AppendWriter

variable (t : AppendWriter)

theorem start_alike : d.Steps (mapLogin d.login) t.start (t.mapLogin d.login).start := by
  intro w w' h
  obtain ⟨r, v, v', hsize, hsize', hv⟩ := t.upload.storedSize_alike d w w' h
  simp only [start, mapLogin, hsize, hsize']
  cases r with
  | error e => exact ⟨_, _, _, _, rfl, rfl, hv⟩
  | ok n =>
      obtain ⟨r, u, u', hcreate, hcreate', hu⟩ := t.upload.create_alike d v v' hv
      simp only [hcreate, hcreate']
      split
      · cases r <;> exact ⟨_, _, _, _, rfl, rfl, hu⟩
      · exact ⟨_, _, _, _, rfl, rfl, hv⟩

theorem ensureStarted_alike :
    d.Steps (mapLogin d.login) t.ensureStarted (t.mapLogin d.login).ensureStarted := by
  intro w w' h
  obtain ⟨upload, flag, bufferSize, closed, offset⟩ := t
  cases offset with
  | some n => exact ⟨_, _, _, _, rfl, rfl, h⟩
  | none => exact start_alike d _ w w' h

theorem write_alike (data : Bytes) :
    d.Steps (mapLogin d.login) (t.write data) ((t.mapLogin d.login).write data) := by
  intro w w' h
  have hclosed : (t.mapLogin d.login).closed = t.closed := rfl
  obtain ⟨r, s, v, v', hstart, hstart', hv⟩ := t.ensureStarted_alike d w w' h
  unfold write
  rw [hclosed, hstart, hstart']
  split
  · exact ⟨_, _, _, _, rfl, rfl, h⟩
  · cases r with
    | error e => exact ⟨_, _, _, _, rfl, rfl, hv⟩
    | ok _ =>
        have hraised : v'.isRaised (s.mapLogin d.login).flag = v.isRaised s.flag :=
          hv.isRaised_eq s.flag
        dsimp only
        rw [hraised]
        split
        · exact ⟨_, _, _, _, rfl, rfl, hv⟩
        · split
          · exact ⟨_, _, _, _, rfl, rfl, hv⟩
          · obtain ⟨r, u, u', happend, happend', hu⟩ :=
              s.upload.append_alike d (s.offset.getD 0) data false v v' hv
            simp only [mapLogin, happend, happend']
            cases r <;> exact ⟨_, _, _, _, rfl, rfl, hu⟩

theorem close_alike : d.Steps (mapLogin d.login) t.close (t.mapLogin d.login).close := by
  intro w w' h
  obtain ⟨upload, flag, bufferSize, closed, offset⟩ := t
  cases closed with
  | true => exact ⟨_, _, _, _, rfl, rfl, h⟩
  | false =>
      obtain ⟨r, s, v, v', hstart, hstart', hv⟩ :=
        ensureStarted_alike d { upload, flag, bufferSize, closed := true, offset } w w' h
      simp only [mapLogin] at hstart'
      simp only [close, mapLogin, hstart, hstart']
      cases r with
      | error e => exact ⟨_, _, _, _, rfl, rfl, hv⟩
      | ok _ =>
          obtain ⟨r, u, u', hflush, hflush', hu⟩ :=
            s.upload.flush_alike d (s.offset.getD 0) v v' hv
          simp only [hflush, hflush']
          cases r <;> exact ⟨_, _, _, _, rfl, rfl, hu⟩

end AppendWriter

namespace Writer

variable (t : Writer)

theorem write_alike (data : Bytes) :
    d.Steps (mapLogin d.login) (t.write data) ((t.mapLogin d.login).write data) := by
  intro w w' h
  cases t with
  | oneShot t =>
      obtain ⟨r, s, v, v', hwrite, hwrite', hv⟩ := t.write_alike d data w w' h
      simp only [write, mapLogin, hwrite, hwrite']
      exact ⟨_, _, _, _, rfl, rfl, hv⟩
  | append t =>
      obtain ⟨r, s, v, v', hwrite, hwrite', hv⟩ := t.write_alike d data w w' h
      simp only [write, mapLogin, hwrite, hwrite']
      exact ⟨_, _, _, _, rfl, rfl, hv⟩

theorem close_alike : d.Steps (mapLogin d.login) t.close (t.mapLogin d.login).close := by
  intro w w' h
  cases t with
  | oneShot t =>
      obtain ⟨r, s, v, v', hclose, hclose', hv⟩ := t.close_alike d w w' h
      simp only [close, mapLogin, hclose, hclose']
      exact ⟨_, _, _, _, rfl, rfl, hv⟩
  | append t =>
      obtain ⟨r, s, v, v', hclose, hclose', hv⟩ := t.close_alike d w w' h
      simp only [close, mapLogin, hclose, hclose']
      exact ⟨_, _, _, _, rfl, rfl, hv⟩

@[simp] theorem flag_mapLogin : (t.mapLogin f).flag = t.flag := by
  cases t <;> rfl

@[simp] theorem bufferSize_mapLogin : (t.mapLogin f).bufferSize = t.bufferSize := by
  cases t <;> rfl

@[simp] theorem path_mapLogin : (t.mapLogin f).path = t.path := by
  cases t <;> rfl

@[simp] theorem abort_mapLogin : (t.mapLogin f).abort = t.abort.mapLogin f := by
  cases t <;> rfl

theorem raiseFlag_alike (up : Bool) {w w' : World} (h : d.Worlds w w') :
    d.Worlds (t.raiseFlag up w) ((t.mapLogin d.login).raiseFlag up w') := by
  unfold raiseFlag
  rw [flag_mapLogin]
  cases t.flag with
  | none => exact h
  | some flag =>
      cases up with
      | true => exact h.raise flag
      | false => exact h

theorem writeAll_alike (halt : HaltMoment) (taken : Nat) (pieces : List Bytes) :
    d.Steps (mapLogin d.login) (t.writeAll halt taken pieces)
      ((t.mapLogin d.login).writeAll halt taken pieces) := by
  induction pieces generalizing t taken with
  | nil => exact fun w w' h => ⟨_, _, _, _, rfl, rfl, h⟩
  | cons data rest ih =>
      intro w w' h
      obtain ⟨r, s, v, v', hwrite, hwrite', hv⟩ := t.write_alike d data _ _
        (t.raiseFlag_alike d (halt.isUp (taken + 1)) h)
      simp only [writeAll, hwrite, hwrite']
      cases r with
      | error e => exact ⟨_, _, _, _, rfl, rfl, hv⟩
      | ok _ => exact ih s (taken + 1) v v' hv

theorem writeFrom_alike (source : Source) :
    d.Steps (mapLogin d.login) (t.writeFrom source) ((t.mapLogin d.login).writeFrom source) := by
  intro w w' h
  have hmoment : (t.mapLogin d.login).haltMoment none w' = t.haltMoment none w := by
    unfold haltMoment
    rw [flag_mapLogin, h.isRaised_eq]
  simp only [writeFrom, writeFromWith, hmoment, bufferSize_mapLogin, h.room_eq]
  rcases source.chunks t.bufferSize (t.haltMoment none w) w.room.memory with ⟨pieces, ending⟩
  obtain ⟨r, s, v, v', hall, hall', hv⟩ := t.writeAll_alike d (t.haltMoment none w) 0 pieces _ _
    (t.raiseFlag_alike d ((t.haltMoment none w).isUp 0) h)
  simp only [hall, hall']
  cases r with
  | error e => exact ⟨_, _, _, _, rfl, rfl, hv⟩
  | ok _ => cases ending <;> exact ⟨_, _, _, _, rfl, rfl, hv⟩

end Writer

namespace PageLister

variable (l : PageLister)

theorem nextPage_alike : d.Steps (mapLogin d.login) l.nextPage (l.mapLogin d.login).nextPage := by
  intro w w' h
  obtain ⟨r, v, v', hpage, hpage', hv⟩ := l.backend.page_alike d l.path l.limit l.token w w' h
  obtain ⟨backend, path, limit, flag, token, done⟩ := l
  cases done with
  | true => exact ⟨_, _, _, _, rfl, rfl, h⟩
  | false =>
      simp only [nextPage, mapLogin, h.isRaised_eq, hpage, hpage', Bool.false_eq_true, if_false]
      split
      · exact ⟨_, _, _, _, rfl, rfl, h⟩
      · cases r with
        | error e => exact ⟨_, _, _, _, rfl, rfl, hv⟩
        | ok page =>
            dsimp only
            cases page.continuation <;> exact ⟨_, _, _, _, rfl, rfl, hv⟩

theorem takePages_alike (count : Nat) (found : List ListPage) :
    d.Steps (mapLogin d.login) (takePages count found l)
      (takePages count found (l.mapLogin d.login)) := by
  induction count generalizing found l with
  | zero => exact fun w w' h => ⟨_, _, _, _, rfl, rfl, h⟩
  | succ count ih =>
      intro w w' h
      have hdone : (l.mapLogin d.login).done = l.done := rfl
      obtain ⟨r, s, v, v', hpage, hpage', hv⟩ := l.nextPage_alike d w w' h
      simp only [takePages, hdone, hpage, hpage']
      split
      · exact ⟨_, _, _, _, rfl, rfl, h⟩
      · cases r with
        | error e => exact ⟨_, _, _, _, rfl, rfl, hv⟩
        | ok page => exact ih s (page :: found) v v' hv

theorem takeEntries_alike (need : Option Nat) (fuel : Nat) (found : List Entry) :
    d.Steps (mapLogin d.login) (takeEntries need fuel found l)
      (takeEntries need fuel found (l.mapLogin d.login)) := by
  induction fuel generalizing need found l with
  | zero => exact fun w w' h => ⟨_, _, _, _, rfl, rfl, h⟩
  | succ fuel ih =>
      intro w w' h
      have hdone : (l.mapLogin d.login).done = l.done := rfl
      obtain ⟨r, s, v, v', hpage, hpage', hv⟩ := l.nextPage_alike d w w' h
      simp only [takeEntries, hdone, hpage, hpage']
      split
      · exact ⟨_, _, _, _, rfl, rfl, h⟩
      · cases r with
        | error e => exact ⟨_, _, _, _, rfl, rfl, hv⟩
        | ok page => exact ih s _ _ v v' hv

theorem pageBound_eq {w w' : World} (h : d.Worlds w w') : pageBound w' = pageBound w := by
  unfold pageBound
  rw [h.answers_eq]

end PageLister

namespace Handle

@[simp] theorem glimpse_mapLogin (h : Handle) : (h.mapLogin f).glimpse = h.glimpse := by
  cases h with
  | writer t => cases t <;> rfl
  | _ => rfl

theorem runStream_alike (step : StreamStep) (s : ReadStream) :
    d.Steps (mapLogin d.login) (runStream step s) (runStream step s) := by
  intro w w' h
  unfold runStream
  rw [h.isRaised_eq]
  exact ⟨_, _, _, _, rfl, rfl, h⟩

theorem runWriter_alike (step : WriterAct) (t : Writer) :
    d.Steps (mapLogin d.login) (runWriter step t) (runWriter step (t.mapLogin d.login)) := by
  intro w w' h
  cases step with
  | write data =>
      obtain ⟨r, s, v, v', hx, hx', hv⟩ := t.write_alike d data w w' h
      simp only [runWriter, WriterAct.run, hx, hx']
      exact ⟨_, _, _, _, rfl, rfl, hv⟩
  | writeFrom source =>
      obtain ⟨r, s, v, v', hx, hx', hv⟩ := t.writeFrom_alike d source w w' h
      simp only [runWriter, WriterAct.run, hx, hx']
      exact ⟨_, _, _, _, rfl, rfl, hv⟩
  | close =>
      obtain ⟨r, s, v, v', hx, hx', hv⟩ := t.close_alike d w w' h
      simp only [runWriter, WriterAct.run, hx, hx']
      exact ⟨_, _, _, _, rfl, rfl, hv⟩
  | abort =>
      simp only [runWriter, WriterAct.run, Writer.abort_mapLogin]
      exact ⟨_, _, _, _, rfl, rfl, h⟩
  | path =>
      simp only [runWriter, WriterAct.run, Writer.path_mapLogin]
      exact ⟨_, _, _, _, rfl, rfl, h⟩

theorem runLister_alike (step : ListerStep) (l : PageLister) :
    d.Steps (mapLogin d.login) (runLister step l) (runLister step (l.mapLogin d.login)) := by
  intro w w' h
  have hbound : PageLister.pageBound w' = PageLister.pageBound w := PageLister.pageBound_eq d h
  cases step with
  | nextPage =>
      obtain ⟨r, s, v, v', hx, hx', hv⟩ := l.nextPage_alike d w w' h
      simp only [runLister, ListerStep.run, hx, hx']
      exact ⟨_, _, _, _, rfl, rfl, hv⟩
  | entries count =>
      obtain ⟨r, s, v, v', hx, hx', hv⟩ :=
        l.takeEntries_alike d count (PageLister.pageBound w) [] w w' h
      simp only [runLister, ListerStep.run, PageLister.entries, hbound, hx, hx']
      exact ⟨_, _, _, _, rfl, rfl, hv⟩
  | pages count =>
      obtain ⟨r, s, v, v', hx, hx', hv⟩ := l.takePages_alike d
        (count.elim (PageLister.pageBound w) (min · (PageLister.pageBound w))) [] w w' h
      simp only [runLister, ListerStep.run, PageLister.pages, hbound, hx, hx']
      exact ⟨_, _, _, _, rfl, rfl, hv⟩

theorem run_alike (h : Handle) (step : HandleStep) :
    d.Steps (mapLogin d.login) (h.run step) ((h.mapLogin d.login).run step) := by
  have hleft (e : Failure) : d.Steps (mapLogin d.login)
      (fun w => ((.error e : Except Failure Outcome), h, w))
      fun w => (.error e, h.mapLogin d.login, w) :=
    fun w w' hw => ⟨_, _, _, _, rfl, rfl, hw⟩
  cases h with
  | stream s =>
      cases step with
      | stream step => exact runStream_alike d step s
      | iterate count => exact runStream_alike d (.chunks none count) s
      | close | leave => exact runStream_alike d .close s
      | writer | lister => exact hleft .wrongShape
  | writer t =>
      cases step with
      | writer step => exact runWriter_alike d step t
      | close => exact runWriter_alike d .close t
      | leave failed => exact runWriter_alike d (if failed then .abort else .close) t
      | iterate => exact hleft .wrongKind
      | stream | lister => exact hleft .wrongShape
  | lister l =>
      cases step with
      | lister step => exact runLister_alike d step l
      | iterate count => exact runLister_alike d (.entries count) l
      | stream | writer | close | leave => exact hleft .wrongShape

end Handle

end DataLake
