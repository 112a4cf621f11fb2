import DataLake.Proofs.Establishment
import DataLake.Proofs.WriterRun

/-!
When an append writer creates its file. Creating replaces whatever is stored at the path,
so it matters what the writer knew: it creates a file right after a probe, and only when
the response was that there is no file, or stated the length zero, or stated no length at
all. In the last case the writer replaces a file whose length it does not know.
-/

namespace DataLake

namespace Writer

/-- An exchange that creates the file comes right after a probe that found length zero. -/
def Founds (u : Upload) (past : Ledger) (y : Exchange) : Prop :=
  y.kind = .creation →
    u.backend.Signs (.create u.path "file" (some u.options) []) y.request ∧
      ∃ before x, past = before ++ [x] ∧ u.backend.Signs (.properties u.path) x.request ∧
        x.found? = some 0

variable {u : Upload}

/-- What comes right after a probe does so whatever was before. -/
theorem Founds.shift {xs : Ledger} (h : Along (Founds u) [] xs) (past : Ledger) :
    Along (Founds u) past xs := by
  refine along_iff.mpr fun ys y zs hsplit hkind => ?_
  obtain ⟨hsigned, before, x, hbefore, hprobe⟩ := along_iff.mp h ys y zs hsplit hkind
  rw [List.nil_append] at hbefore
  exact ⟨hsigned, past ++ before, x, by rw [hbefore, List.append_assoc], hprobe⟩

theorem Founds.append {xs ys : Ledger} (hxs : Along (Founds u) [] xs)
    (hys : Along (Founds u) [] ys) : Along (Founds u) [] (xs ++ ys) :=
  along_append.mpr ⟨hxs, Founds.shift hys _⟩

theorem Founds.of_kind {xs : Ledger} (h : ∀ x ∈ xs, x.kind ≠ .creation) :
    Along (Founds u) [] xs := by
  refine along_iff.mpr fun ys y zs hsplit hkind => absurd hkind (h y ?_)
  rw [hsplit]
  exact List.mem_append_right ys List.mem_cons_self

end Writer

namespace AppendWriter

open Writer

variable {u : Upload}

theorem Opening.founds {o o' : Option Int} {xs : Ledger} {result : Except Failure Unit}
    (h : Opening u o xs result o') : Along (Founds u) [] xs := by
  have hprobe {x : Exchange} (hx : u.backend.Signs (.properties u.path) x.request) :
      x.kind ≠ .creation := by
    rw [kind_probe hx]
    decide
  have hpair {x y : Exchange} (hx : u.backend.Signs (.properties u.path) x.request)
      (hfound : x.found? = some 0)
      (hy : u.backend.Signs (.create u.path "file" (some u.options) []) y.request) :
      Along (Founds u) [] [x, y] :=
    ⟨fun hkind => absurd hkind (hprobe hx), fun _ => ⟨hy, [], x, rfl, hx, hfound⟩, trivial⟩
  cases h with
  | known | unasked => trivial
  | unfound _ x hx | existing _ x hx | uncreated _ x hx =>
      exact ⟨fun hkind => absurd hkind (hprobe hx), trivial⟩
  | refused _ x y hx hfound hy => exact hpair hx hfound hy
  | created x y hx hfound hy => exact hpair hx hfound hy

theorem Follows.founds {p : Int} {call : Call} {ys : Ledger} {result : Except Failure Unit}
    {o : Option Int} (h : Follows u p call ys result o) : Along (Founds u) [] ys := by
  refine Founds.of_kind fun x hx => ?_
  rw [h.kinds x hx]
  split <;> decide

theorem Does.founds {closed : Bool} {o o' : Option Int} {call : Call} {xs : Ledger}
    {result : Except Failure Unit} (h : Does u closed o call xs result o') :
    Along (Founds u) [] xs := by
  cases h with
  | writeClosed | closeClosed | silent => trivial
  | unopened call e hcall hopen => exact hopen.founds
  | opened hopen hfollows => exact Founds.append hopen.founds hfollows.founds

theorem run_founds (t : AppendWriter) (calls : List Call) (w : World) :
    ∃ xs, (t.run calls w).2.2.exchanges = w.exchanges ++ xs ∧ Along (Founds t.upload) [] xs ∧
      (t.run calls w).2.1.upload = t.upload := by
  induction calls generalizing t w with
  | nil => exact ⟨[], (List.append_nil _).symm, trivial, rfl⟩
  | cons call calls ih =>
      have hdone := t.turn_does call w
      unfold run
      rcases hturn : t.turn call w with ⟨turn, t', v⟩
      rw [hturn] at hdone
      obtain ⟨-, hexchanges, ht, hdoes⟩ := hdone
      obtain ⟨xs, hrest, hfounds, hupload⟩ := ih t' v
      have hsame : t'.upload = t.upload := by rw [ht]
      rw [hsame] at hfounds hupload
      refine ⟨turn.exchanges ++ xs, ?_, Founds.append hdoes.founds hfounds, hupload⟩
      rw [← List.append_assoc, ← hexchanges]
      exact hrest

end AppendWriter

namespace Writer

theorem run_founds (t : AppendWriter) (calls : List Call) (w : World) :
    Along (Founds t.upload) [] (ledger ((append t).run calls w)) := by
  induction calls generalizing t w with
  | nil => trivial
  | cons call calls ih =>
      obtain ⟨small, -, hsmall⟩ := call.run_append t w
      obtain ⟨xs, hexchanges, hfounds, hupload⟩ := t.run_founds small w
      unfold run turn
      rcases hrun : call.run (append t) w with ⟨result, t', v⟩
      rw [hrun] at hsmall
      dsimp only at hsmall ⊢
      obtain ⟨rfl, rfl⟩ := Prod.mk.inj hsmall
      rw [hexchanges, List.drop_left]
      have hrest := ih (t.run small w).2.1 (t.run small w).2.2
      rw [hupload] at hrest
      exact Founds.append hfounds hrest

/-- What a probe that found length zero was answered. -/
theorem found_zero_iff {x : Exchange} (hkind : x.kind = .probe) :
    x.found? = some 0 ↔ ∃ r, x.response? = some r ∧
      (r.status = 404 ∨ r.status = 200 ∧
        (readContentLength r.headers = .ok (some 0) ∨ r.headers.get? "Content-Length" = none)) := by
  have habsent (headers : Headers) :
      readContentLength headers = .ok none ↔ headers.get? "Content-Length" = none := by
    unfold readContentLength
    split
    · next hnone => simp only [hnone]
    · next value hsome => split <;> simp [hsome]
  unfold Exchange.found?
  rw [if_pos hkind]
  cases x.response? with
  | none => simp
  | some r =>
      simp only [Option.bind_some, Option.some.injEq, exists_eq_left']
      unfold Response.storedSize?
      by_cases hmissing : r.status = 404
      · simp [hmissing]
      · by_cases hthere : r.status = 200
        · simp only [hthere, if_true, true_and, ← habsent]
          rcases readContentLength r.headers with e | _ | n <;> simp [Except.toOption]
        · simp [hmissing, hthere]

/-- In every run an append writer creates its file only right after a probe, and only if
the response was that there is no file, or stated length zero, or stated no length. -/
theorem creations_probed (u : Upload) (flag : Option Text) (bufferSize : Option Int)
    (calls : List Call) (w : World) :
    let turns := (append (AppendWriter.opened u flag bufferSize)).run calls w
    turns.map Turn.call = calls ∧
      ∀ past y later, ledger turns = past ++ y :: later → y.kind = .creation →
        u.backend.Signs (.create u.path "file" (some u.options) []) y.request ∧
          ∃ before x r, past = before ++ [x] ∧
            u.backend.Signs (.properties u.path) x.request ∧ x.response? = some r ∧
            (r.status = 404 ∨ r.status = 200 ∧
              (readContentLength r.headers = .ok (some 0) ∨
                r.headers.get? "Content-Length" = none)) := by
  refine ⟨run_calls _ _ _, fun past y later hsplit hkind => ?_⟩
  have hfounds := run_founds (AppendWriter.opened u flag bufferSize) calls w
  obtain ⟨hsigned, before, x, hpast, hprobe, hfound⟩ :=
    along_iff.mp hfounds past y later hsplit hkind
  obtain ⟨r, hresponse, hanswer⟩ := (found_zero_iff (AppendWriter.kind_probe hprobe)).mp hfound
  exact ⟨hsigned, before, x, r, hpast, hprobe, hresponse, hanswer⟩

/-- A file is there, and its length is not stated; writing to it replaces it. -/
theorem sizeless_file_created :
    let turns := (append (AppendWriter.opened AppendWriter.logUpload none none)).run
      [.write [97]] (AppendWriter.answering [200, 201, 202])
    turns.map (fun turn => turn.exchanges.map fun x =>
        (x.kind, x.response?.map Response.status)) =
      [[(.probe, some 200), (.creation, some 201), (.append, some 202)]] := by
  decide +kernel

end Writer

end DataLake
