import DataLake.Proofs.Attempt

/-!
The turns of an append writer. A run of a writer is a list of calls, and each
call is one turn: it ends in a result, leaves the writer with an offset, and
makes some exchanges with the service. This module says once what a turn can
do, failures at every request included; what holds of whole runs is derived
from that and never opens the writer again.
-/

namespace DataLake

/-- Success of a response with one of the given statuses. -/
def Response.accepted? (statuses : List Int) (r : Response) : Option Unit :=
  if statuses.contains r.status then some () else none

/-- The size of the stored file that a response to a request for its properties
states: zero without a file or without a stated size. -/
def Response.storedSize? (r : Response) : Option Int :=
  if r.status = 404 then some 0
  else if r.status = 200 then (readContentLength r.headers).toOption.map fun size => size.getD 0
  else none

namespace Exchange

inductive Kind where
  | probe
  | creation
  | append
  | commit
  | other
  deriving DecidableEq

/-- The kind of an exchange, by the method and the body of its request. -/
def kind (x : Exchange) : Kind :=
  if x.request.method = "HEAD" then .probe
  else if x.request.method = "PUT" then .creation
  else if x.request.method = "PATCH" then if x.request.body = [] then .commit else .append
  else .other

/-- The length that a successful probe found. -/
def found? (x : Exchange) : Option Int :=
  if x.kind = .probe then x.response?.bind Response.storedSize? else none

def IsCreated (x : Exchange) : Prop :=
  x.kind = .creation ∧ x.response?.bind (Response.accepted? [201, 200]) = some ()

/-- The bytes that an accepted append added. -/
def added? (x : Exchange) : Option Bytes :=
  if x.kind = .append ∧ x.response?.bind (Response.accepted? [200, 202]) = some () then
    some x.request.body
  else none

end Exchange

/-- The exchanges of a writer with the service, in order. -/
abbrev Ledger := List Exchange

namespace Ledger

/-- The length that the first successful probe found. -/
def found? (xs : Ledger) : Option Int :=
  xs.findSome? Exchange.found?

def chunks (xs : Ledger) : List Bytes :=
  xs.filterMap Exchange.added?

/-- Where the file ends: the length that was found and all that was accepted. -/
def fileEnd? (xs : Ledger) : Option Int :=
  xs.found?.map fun n => n + xs.chunks.flatten.length

end Ledger

/-- A step of an upload whose response only has to have one of some statuses. -/
private theorem Attempts.accepted {b : Backend} {op : Operation} {statuses : List Int}
    (f : Fault → Fault) (w : World) :
    Attempts b op (Response.accepted? statuses)
      (Action.mapFault f (b.perform op statuses >>= fun _ => Action.ofExcept (.ok ()))) w := by
  have hattempts := ((b.perform_attempts op statuses w).bind_ofExcept
    fun _ => (.ok () : Except Failure Unit)).mapFault f
  have hvalue : (fun r => (Response.within? statuses r).bind fun _ =>
      (Except.ok () : Except Failure Unit).toOption) = Response.accepted? statuses := by
    funext r
    unfold Response.within? Response.accepted?
    split <;> rfl
  rwa [hvalue] at hattempts

namespace Upload

theorem create_attempts (u : Upload) (w : World) :
    Attempts u.backend (.create u.path "file" (some u.options) [])
      (Response.accepted? [201, 200]) u.create w :=
  Attempts.accepted _ w

theorem append_attempts (u : Upload) (position : Int) (data : Bytes) (commit : Bool)
    (w : World) :
    Attempts u.backend (.update u.path position data commit)
      (Response.accepted? [200, 202]) (u.append position data commit) w :=
  Attempts.accepted _ w

theorem flush_attempts (u : Upload) (position : Int) (w : World) :
    Attempts u.backend (.flush u.path position) (Response.accepted? [200, 201])
      (u.flush position) w :=
  Attempts.accepted _ w

/-- The size in a response to a request for properties, whose status was found
to be one of those that the probe accepts. -/
def sizeIn (r : Response) : Except Failure Int :=
  if r.status = 404 then .ok 0 else (readContentLength r.headers).map fun size => size.getD 0

private theorem within_sizeIn (r : Response) :
    ((r.within? [200, 404]).bind fun r => (sizeIn r).toOption) = r.storedSize? := by
  unfold Response.within? sizeIn Response.storedSize?
  by_cases hmissing : r.status = 404
  · simp [hmissing, Except.toOption]
  · by_cases hthere : r.status = 200
    · have hwithin : [200, 404].contains r.status = true := by simp [hthere]
      rw [if_pos hwithin, Option.bind_some, if_neg hmissing, if_neg hmissing, if_pos hthere]
      cases readContentLength r.headers <;> rfl
    · simp [hmissing, hthere]

theorem storedSize_eq (u : Upload) :
    u.storedSize = Action.mapFault (u.backend.annotate "Writer::offset" u.path)
      (u.backend.perform (.properties u.path) [200, 404] >>= fun r =>
        Action.ofExcept (sizeIn r)) := by
  unfold storedSize Backend.annotated
  congr 2
  funext r v
  unfold sizeIn
  split
  · rfl
  · change Action.bind (Action.ofExcept (readContentLength r.headers))
      (fun size => Action.pure (size.getD 0)) v = _
    unfold Action.bind Action.ofExcept
    cases readContentLength r.headers <;> rfl

theorem storedSize_attempts (u : Upload) (w : World) :
    Attempts u.backend (.properties u.path) Response.storedSize? u.storedSize w := by
  rw [u.storedSize_eq]
  have hattempts := ((u.backend.perform_attempts (.properties u.path) [200, 404]
    w).bind_ofExcept sizeIn).mapFault (u.backend.annotate "Writer::offset" u.path)
  simpa only [within_sizeIn] using hattempts

end Upload

namespace AppendWriter

/-- What may happen to a writer: a call on it, or a halt flag that goes up
between two calls. -/
inductive Call where
  | write (data : Bytes)
  | close
  | abort
  | raise (flag : Text)

def Call.run (call : Call) (t : AppendWriter) : WriterStep AppendWriter := fun w =>
  match call with
  | write data => t.write data w
  | close => t.close w
  | abort => (.ok (), t.abort, w)
  | raise flag => (.ok (), t, w.raise flag)

/-- What one call came to: its result, the exchanges made during it, and the
offset after it. -/
structure Turn where
  call : Call
  result : Except Failure Unit
  exchanges : Ledger
  offset : Option Int

def turn (t : AppendWriter) (call : Call) (w : World) : Turn × AppendWriter × World :=
  match call.run t w with
  | (result, t, v) =>
      ({ call, result, exchanges := v.exchanges.drop w.exchanges.length, offset := t.offset },
        t, v)

def run (t : AppendWriter) : List Call → World → List Turn × AppendWriter × World
  | [], w => ([], t, w)
  | call :: calls, w =>
      match t.turn call w with
      | (first, t, w) =>
          match t.run calls w with
          | (rest, t, w) => (first :: rest, t, w)

def ledger (turns : List Turn) : Ledger :=
  turns.flatMap Turn.exchanges

/-- What making sure that the offset is known can come to: the offset before, the
exchanges, the result and the offset after. The offset counts as known as soon
as the probe has found it, even when the creation after it fails. -/
inductive Opening (u : Upload) :
    Option Int → Ledger → Except Failure Unit → Option Int → Prop where
  | known (n : Int) : Opening u (some n) [] (.ok ()) (some n)
  | unasked (e : Failure) : Opening u none [] (.error e) none
  | unfound (e : Failure) (x : Exchange) (hx : u.backend.Signs (.properties u.path) x.request)
      (hfound : x.found? = none) : Opening u none [x] (.error e) none
  | existing (n : Int) (x : Exchange) (hx : u.backend.Signs (.properties u.path) x.request)
      (hfound : x.found? = some n) (hn : n ≠ 0) : Opening u none [x] (.ok ()) (some n)
  | uncreated (e : Failure) (x : Exchange)
      (hx : u.backend.Signs (.properties u.path) x.request) (hfound : x.found? = some 0) :
      Opening u none [x] (.error e) (some 0)
  | refused (e : Failure) (x y : Exchange)
      (hx : u.backend.Signs (.properties u.path) x.request) (hfound : x.found? = some 0)
      (hy : u.backend.Signs (.create u.path "file" (some u.options) []) y.request)
      (hcreated : ¬ y.IsCreated) : Opening u none [x, y] (.error e) (some 0)
  | created (x y : Exchange)
      (hx : u.backend.Signs (.properties u.path) x.request) (hfound : x.found? = some 0)
      (hy : u.backend.Signs (.create u.path "file" (some u.options) []) y.request)
      (hcreated : y.IsCreated) : Opening u none [x, y] (.ok ()) (some 0)

/-- What a call can come to once the offset is known: the offset, the call, the
exchanges, the result and the offset after. -/
inductive Follows (u : Upload) (p : Int) :
    Call → Ledger → Except Failure Unit → Option Int → Prop where
  | nothing : Follows u p (.write []) [] (.ok ()) (some p)
  | halted (data : Bytes) (hdata : data ≠ []) :
      Follows u p (.write data) [] (.error .halted) (some p)
  | refused {ys : Ledger} (data : Bytes) (e : Failure) (hdata : data ≠ [])
      (happend : Attempt u.backend (.update u.path p data false)
        (Response.accepted? [200, 202]) (.error e) ys) :
      Follows u p (.write data) ys (.error e) (some p)
  | written {ys : Ledger} (data : Bytes) (hdata : data ≠ [])
      (happend : Attempt u.backend (.update u.path p data false)
        (Response.accepted? [200, 202]) (.ok ()) ys) :
      Follows u p (.write data) ys (.ok ()) (some (p + data.length))
  | committed {ys : Ledger} {result : Except Failure Unit}
      (hflush : Attempt u.backend (.flush u.path p) (Response.accepted? [200, 201]) result ys) :
      Follows u p .close ys result (some p)

/-- Whether a call needs the offset of the file. -/
def Call.opens : Call → Bool
  | write _ | close => true
  | abort | raise _ => false

/-- Only closing and giving up close a writer. -/
def Call.ends : Call → Bool
  | close | abort => true
  | write _ | raise _ => false

/-- What a call can come to on a writer that is closed or not, with the offset
before, the exchanges, the result and the offset after. -/
inductive Does (u : Upload) :
    Bool → Option Int → Call → Ledger → Except Failure Unit → Option Int → Prop where
  | writeClosed (o : Option Int) (data : Bytes) :
      Does u true o (.write data) [] (.error u.closedFailure) o
  | closeClosed (o : Option Int) : Does u true o .close [] (.ok ()) o
  | silent (closed : Bool) (o : Option Int) (call : Call) (hcall : call.opens = false) :
      Does u closed o call [] (.ok ()) o
  | unopened {o o' : Option Int} {xs : Ledger} (call : Call) (e : Failure)
      (hcall : call.opens = true) (hopen : Opening u o xs (.error e) o') :
      Does u false o call xs (.error e) o'
  | opened {o o' : Option Int} {xs ys : Ledger} {p : Int} {call : Call}
      {result : Except Failure Unit} (hopen : Opening u o xs (.ok ()) (some p))
      (hfollows : Follows u p call ys result o') : Does u false o call (xs ++ ys) result o'

theorem kind_probe {b : Backend} {path : Text} {x : Exchange}
    (h : b.Signs (.properties path) x.request) : x.kind = .probe := by
  have hmethod : x.request.method = "HEAD" := h.method_eq
  simp [Exchange.kind, hmethod]

theorem kind_creation {b : Backend} {path resource : Text} {options : Option WriteOptions}
    {body : Bytes} {x : Exchange} (h : b.Signs (.create path resource options body) x.request) :
    x.kind = .creation := by
  have hmethod : x.request.method = "PUT" := h.method_eq
  unfold Exchange.kind
  rw [if_neg (by rw [hmethod]; decide), if_pos hmethod]

theorem kind_append {b : Backend} {path : Text} {position : Int} {data : Bytes} {commit : Bool}
    {x : Exchange} (h : b.Signs (.update path position data commit) x.request)
    (hdata : data ≠ []) : x.kind = .append := by
  have hmethod : x.request.method = "PATCH" := h.method_eq
  have hbody : x.request.body = data := h.body_eq
  unfold Exchange.kind
  rw [if_neg (by rw [hmethod]; decide), if_neg (by rw [hmethod]; decide), if_pos hmethod,
    if_neg (by rwa [hbody])]

theorem kind_commit {b : Backend} {path : Text} {position : Int} {x : Exchange}
    (h : b.Signs (.flush path position) x.request) : x.kind = .commit := by
  have hmethod : x.request.method = "PATCH" := h.method_eq
  have hbody : x.request.body = [] := h.body_eq
  unfold Exchange.kind
  rw [if_neg (by rw [hmethod]; decide), if_neg (by rw [hmethod]; decide), if_pos hmethod,
    if_pos hbody]

theorem Opening.kinds {u : Upload} {o o' : Option Int} {xs : Ledger}
    {result : Except Failure Unit} (h : Opening u o xs result o') :
    ∀ x ∈ xs, x.kind = .probe ∨ x.kind = .creation := by
  cases h with
  | known | unasked => simp
  | unfound _ x hx | existing _ x hx | uncreated _ x hx => simp [kind_probe hx]
  | refused _ x y hx _ hy | created x y hx _ hy => simp [kind_probe hx, kind_creation hy]

theorem Follows.kinds {u : Upload} {p : Int} {call : Call} {ys : Ledger}
    {result : Except Failure Unit} {o : Option Int} (h : Follows u p call ys result o) :
    ∀ y ∈ ys, y.kind = if call.ends then .commit else .append := by
  cases h with
  | nothing | halted => simp
  | refused data e hdata happend =>
      cases happend with
      | unsent => simp
      | refused _ y hy => simpa [Call.ends] using kind_append hy hdata
  | written data hdata happend =>
      cases happend with
      | accepted _ y hy => simpa [Call.ends] using kind_append hy hdata
  | committed hflush =>
      cases hflush with
      | unsent => simp
      | refused _ y hy | accepted _ y hy => simpa [Call.ends] using kind_commit hy

/-- Making sure that the offset is known changes nothing of the writer but its
offset. -/
theorem ensureStarted_opens (t : AppendWriter) (w : World) :
    ∃ xs o, (t.ensureStarted w).2.2.exchanges = w.exchanges ++ xs ∧
      (t.ensureStarted w).2.1 = { t with offset := o } ∧
      Opening t.upload t.offset xs (t.ensureStarted w).1 o := by
  unfold ensureStarted
  cases hoffset : t.offset with
  | some n =>
      have hsame : t = { t with offset := some n } := by
        cases t
        cases hoffset
        rfl
      exact ⟨[], some n, (List.append_nil _).symm, hsame, .known n⟩
  | none =>
      dsimp only
      unfold start
      obtain ⟨xs, hxs, hprobe⟩ := t.upload.storedSize_attempts w
      rcases hsize : t.upload.storedSize w with ⟨e | n, v⟩
      · rw [hsize] at hxs hprobe
        refine ⟨xs, none, hxs, by rw [← hoffset], ?_⟩
        cases hprobe with
        | unsent => exact .unasked e
        | refused _ x hx hvalue =>
            exact .unfound e x hx (by simp [Exchange.found?, kind_probe hx, hvalue])
      · rw [hsize] at hxs hprobe
        dsimp only
        cases hprobe with
        | accepted _ x hx hvalue =>
            have hfound : x.found? = some n := by
              simp [Exchange.found?, kind_probe hx, hvalue]
            split
            · next hn =>
              subst hn
              obtain ⟨ys, hys, hcreation⟩ := t.upload.create_attempts v
              rcases hcreate : t.upload.create v with ⟨e | u, v'⟩
              · rw [hcreate] at hys hcreation
                refine ⟨[x] ++ ys, some 0, by rw [hys, hxs, List.append_assoc], rfl, ?_⟩
                cases hcreation with
                | unsent => exact .uncreated e x hx hfound
                | refused _ y hy hvalue =>
                    refine .refused e x y hx hfound hy fun hcreated => ?_
                    rw [hcreated.2] at hvalue
                    cases hvalue
              · rw [hcreate] at hys hcreation
                refine ⟨[x] ++ ys, some 0, by rw [hys, hxs, List.append_assoc], rfl, ?_⟩
                cases hcreation with
                | accepted _ y hy hvalue =>
                    exact .created x y hx hfound hy ⟨kind_creation hy, hvalue⟩
            · next hn => exact ⟨[x], some n, hxs, rfl, .existing n x hx hfound hn⟩

private theorem Opening.offset_known {u : Upload} {o o' : Option Int} {xs : Ledger}
    {result : Except Failure Unit} (h : Opening u o xs result o') (hok : result = .ok ()) :
    ∃ p, o' = some p := by
  cases h with
  | known n => exact ⟨n, rfl⟩
  | existing n => exact ⟨n, rfl⟩
  | created => exact ⟨0, rfl⟩
  | _ => cases hok

private theorem write_does (t : AppendWriter) (data : Bytes) (w : World)
    (hclosed : t.closed = false) :
    ∃ xs o, (t.write data w).2.2.exchanges = w.exchanges ++ xs ∧
      (t.write data w).2.1 = { t with offset := o } ∧
      Does t.upload false t.offset (.write data) xs (t.write data w).1 o := by
  unfold write
  rw [if_neg (by simp [hclosed])]
  obtain ⟨xs, o, hxs, ht, hopen⟩ := t.ensureStarted_opens w
  rcases hstarted : t.ensureStarted w with ⟨e | _, s, v⟩
  · rw [hstarted] at hxs ht hopen
    exact ⟨xs, o, hxs, ht, .unopened _ e rfl hopen⟩
  · rw [hstarted] at hxs ht hopen
    dsimp only at hxs ht hopen ⊢
    obtain ⟨p, rfl⟩ := hopen.offset_known rfl
    split
    · next hempty =>
      obtain rfl : data = [] := List.isEmpty_iff.mp hempty
      exact ⟨xs ++ [], some p, by rw [hxs, List.append_nil], ht, .opened hopen .nothing⟩
    · next hdata =>
      replace hdata : data ≠ [] := fun h => hdata (List.isEmpty_iff.mpr h)
      split
      · exact ⟨xs ++ [], some p, by rw [hxs, List.append_nil], ht,
          .opened hopen (.halted data hdata)⟩
      · subst ht
        obtain ⟨ys, hys, happend⟩ := t.upload.append_attempts p data false v
        dsimp only [Option.getD_some]
        rcases happended : t.upload.append p data false v with ⟨e | _, v'⟩
        · rw [happended] at hys happend
          exact ⟨xs ++ ys, some p, by rw [hys, hxs, List.append_assoc], rfl,
            .opened hopen (.refused data e hdata happend)⟩
        · rw [happended] at hys happend
          exact ⟨xs ++ ys, some (p + data.length), by rw [hys, hxs, List.append_assoc], rfl,
            .opened hopen (.written data hdata happend)⟩

private theorem close_does (t : AppendWriter) (w : World) (hclosed : t.closed = false) :
    ∃ xs o, (t.close w).2.2.exchanges = w.exchanges ++ xs ∧
      (t.close w).2.1 = { t with offset := o, closed := true } ∧
      Does t.upload false t.offset .close xs (t.close w).1 o := by
  unfold close
  rw [if_neg (by simp [hclosed])]
  generalize hending : ({ t with closed := true } : AppendWriter) = ending
  have hupload : ending.upload = t.upload := by rw [← hending]
  have hoffset : ending.offset = t.offset := by rw [← hending]
  obtain ⟨xs, o, hxs, ht, hopen⟩ := ensureStarted_opens ending w
  rw [hupload, hoffset] at hopen
  have hafter : (ending.ensureStarted w).2.1 = { t with offset := o, closed := true } := by
    rw [ht, ← hending]
  rcases hstarted : ending.ensureStarted w with ⟨e | _, s, v⟩
  · rw [hstarted] at hxs hafter hopen
    exact ⟨xs, o, hxs, hafter, .unopened _ e rfl hopen⟩
  · rw [hstarted] at hxs hafter hopen
    dsimp only at hxs hafter hopen ⊢
    obtain ⟨p, rfl⟩ := hopen.offset_known rfl
    subst hafter
    obtain ⟨ys, hys, hflush⟩ := t.upload.flush_attempts p v
    dsimp only [Option.getD_some]
    rcases hflushed : t.upload.flush p v with ⟨e | _, v'⟩
    · rw [hflushed] at hys hflush
      exact ⟨xs ++ ys, some p, by rw [hys, hxs, List.append_assoc], rfl,
        .opened hopen (.committed hflush)⟩
    · rw [hflushed] at hys hflush
      exact ⟨xs ++ ys, some p, by rw [hys, hxs, List.append_assoc], rfl,
        .opened hopen (.committed hflush)⟩

/-- A call changes the offset of a writer and whether it is closed, and does
what a call can do. -/
theorem Call.run_does (call : Call) (t : AppendWriter) (w : World) :
    ∃ xs o, (call.run t w).2.2.exchanges = w.exchanges ++ xs ∧
      (call.run t w).2.1 = { t with offset := o, closed := t.closed || call.ends } ∧
      Does t.upload t.closed t.offset call xs (call.run t w).1 o := by
  cases call with
  | write data =>
      change ∃ xs o, (t.write data w).2.2.exchanges = _ ∧ (t.write data w).2.1 = _ ∧
        Does _ _ _ _ xs (t.write data w).1 o
      simp only [Call.ends, Bool.or_false]
      cases hclosed : t.closed with
      | true =>
          have hwrite : t.write data w = (.error t.upload.closedFailure, t, w) := by
            unfold AppendWriter.write
            rw [if_pos hclosed]
          rw [hwrite]
          exact ⟨[], t.offset, (List.append_nil _).symm, by rw [← hclosed], .writeClosed _ _⟩
      | false =>
          obtain ⟨xs, o, hxs, ht, hdoes⟩ := write_does t data w hclosed
          exact ⟨xs, o, hxs, by rw [ht, ← hclosed], hdoes⟩
  | close =>
      change ∃ xs o, (t.close w).2.2.exchanges = _ ∧ (t.close w).2.1 = _ ∧
        Does _ _ _ _ xs (t.close w).1 o
      simp only [Call.ends, Bool.or_true]
      cases hclosed : t.closed with
      | true =>
          have hclose : t.close w = (.ok (), t, w) := by
            unfold AppendWriter.close
            rw [if_pos hclosed]
          rw [hclose]
          exact ⟨[], t.offset, (List.append_nil _).symm, by rw [← hclosed], .closeClosed _⟩
      | false => exact close_does t w hclosed
  | abort =>
      refine ⟨[], t.offset, (List.append_nil _).symm, ?_, .silent _ _ _ rfl⟩
      simp [Call.run, AppendWriter.abort, Call.ends]
  | raise flag =>
      refine ⟨[], t.offset, ?_, ?_, .silent _ _ _ rfl⟩
      · rw [List.append_nil]
        apply World.exchanges_of_log
        unfold Call.run World.raise
        dsimp only
        split <;> rfl
      · simp [Call.run, Call.ends]

end AppendWriter

end DataLake
