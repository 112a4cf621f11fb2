import DataLake.Proofs.AppendRun

/-!
When an append writer writes to a file that is there. The offset counts as known
as soon as the probe has found it, before an empty file is created. A call that
finds no content and then fails to create the file therefore leaves a writer
whose later calls append and commit all the same. This is the only way in which
that happens: a run appends to a file that was never established exactly if an
earlier call of it gave up in this way.
-/

namespace DataLake

namespace Ledger

/-- The file is there: it was found with content, or it was created. -/
def Established (past : Ledger) : Prop :=
  (∃ x ∈ past, x.found?.any (· ≠ 0)) ∨ ∃ x ∈ past, x.IsCreated

instance (x : Exchange) : Decidable x.IsCreated :=
  inferInstanceAs (Decidable (_ ∧ _))

instance (past : Ledger) : Decidable past.Established :=
  inferInstanceAs (Decidable (_ ∨ _))

/-- The file was found without content, and it was not created. -/
def Abandoned (xs : Ledger) : Prop :=
  (∃ x ∈ xs, x.found? = some 0) ∧ ∀ x ∈ xs, ¬ x.IsCreated

/-- Exchanges in which no length is found and nothing is created. -/
def Quiet (xs : Ledger) : Prop :=
  ∀ x ∈ xs, x.found? = none ∧ ¬ x.IsCreated

theorem established_append {xs ys : Ledger} :
    Established (xs ++ ys) ↔ Established xs ∨ Established ys := by
  simp only [Established, List.mem_append, or_and_right, exists_or]
  exact or_or_or_comm

theorem Quiet.not_established {xs : Ledger} (h : xs.Quiet) : ¬ xs.Established := by
  rintro (⟨x, hx, hfound⟩ | ⟨x, hx, hcreated⟩)
  · rw [(h x hx).1] at hfound
    cases hfound
  · exact (h x hx).2 hcreated

theorem Quiet.not_abandoned {xs : Ledger} (h : xs.Quiet) : ¬ xs.Abandoned := by
  rintro ⟨⟨x, hx, hfound⟩, _⟩
  rw [(h x hx).1] at hfound
  cases hfound

theorem Quiet.abandoned_append {xs ys : Ledger} (h : ys.Quiet) :
    Abandoned (xs ++ ys) ↔ xs.Abandoned := by
  constructor
  · rintro ⟨⟨x, hx, hfound⟩, hcreated⟩
    refine ⟨⟨x, ?_, hfound⟩, fun y hy => hcreated y (List.mem_append_left ys hy)⟩
    refine (List.mem_append.mp hx).resolve_right fun hys => ?_
    rw [(h x hys).1] at hfound
    cases hfound
  · rintro ⟨⟨x, hx, hfound⟩, hcreated⟩
    refine ⟨⟨x, List.mem_append_left ys hx, hfound⟩, fun y hy => ?_⟩
    rcases List.mem_append.mp hy with hxs | hys
    · exact hcreated y hxs
    · exact (h y hys).2

theorem quiet_nil : Quiet [] := fun _ hx => by cases hx

end Ledger

namespace AppendWriter

variable {u : Upload}

private theorem not_created {x : Exchange} (h : x.kind ≠ .creation) : ¬ x.IsCreated :=
  fun hcreated => h hcreated.1

/-- Finding out the offset succeeds exactly when it establishes the file, and a
failure that leaves an offset behind abandons it. -/
theorem Opening.established {xs : Ledger} {o : Option Int} {result : Except Failure Unit}
    (h : Opening u none xs result o) :
    (xs.Established ↔ result = .ok ()) ∧ (xs.Abandoned ↔ (∃ e, result = .error e) ∧ o ≠ none) := by
  have hprobe {x : Exchange} (hx : u.backend.Signs (.properties u.path) x.request) :
      ¬ x.IsCreated := not_created (by rw [kind_probe hx]; decide)
  have hcreation {x : Exchange}
      (hx : u.backend.Signs (.create u.path "file" (some u.options) []) x.request) :
      x.found? = none := found?_of_kind (by rw [kind_creation hx]; decide)
  cases h with
  | unasked => simp [Ledger.Established, Ledger.Abandoned]
  | unfound _ x hx hfound =>
      simp [Ledger.Established, Ledger.Abandoned, hfound, hprobe hx]
  | existing n x hx hfound hn =>
      simp [Ledger.Established, Ledger.Abandoned, hfound, hn]
  | uncreated _ x hx hfound =>
      simp [Ledger.Established, Ledger.Abandoned, hfound, hprobe hx]
  | refused _ x y hx hfound hy hcreated =>
      simp [Ledger.Established, Ledger.Abandoned, hfound, hprobe hx, hcreation hy, hcreated]
  | created x y hx hfound hy hcreated =>
      simp [Ledger.Established, Ledger.Abandoned, hfound, hcreated]

theorem Follows.quiet {p : Int} {call : Call} {ys : Ledger} {result : Except Failure Unit}
    {o : Option Int} (h : Follows u p call ys result o) :
    ys.Quiet ∧ ys.length ≤ 1 ∧ o ≠ none := by
  have hquiet : ys.Quiet := by
    intro y hy
    have hkind := h.kinds y hy
    have hother : y.kind ≠ .probe ∧ y.kind ≠ .creation := by
      rw [hkind]
      split <;> decide
    exact ⟨found?_of_kind hother.1, not_created hother.2⟩
  refine ⟨hquiet, ?_⟩
  cases h with
  | nothing | halted => simp
  | refused _ _ _ happend => cases happend <;> simp
  | written _ _ happend =>
      cases happend
      simp
  | committed hflush => cases hflush <;> simp

/-- Once the offset is known, nothing is looked for and nothing is created. -/
theorem Does.quiet {closed : Bool} {p : Int} {call : Call} {xs : Ledger}
    {result : Except Failure Unit} {o : Option Int}
    (h : Does u closed (some p) call xs result o) : xs.Quiet := by
  cases h with
  | writeClosed | closeClosed | silent => exact Ledger.quiet_nil
  | unopened _ _ _ hopen => cases hopen
  | opened hopen hfollows =>
      cases hopen
      exact hfollows.quiet.1

/-- A call that finds out the offset either establishes the file or abandons it. -/
theorem Does.settles {closed : Bool} {call : Call} {xs : Ledger}
    {result : Except Failure Unit} {o : Option Int}
    (h : Does u closed none call xs result o) :
    (xs.Established ↔ o ≠ none ∧ ¬ xs.Abandoned) ∧
      (xs.Abandoned → o ≠ none ∧ ∃ e, result = .error e) := by
  have hnothing {result : Except Failure Unit} :
      (Ledger.Established [] ↔ (none : Option Int) ≠ none ∧ ¬ Ledger.Abandoned []) ∧
        (Ledger.Abandoned [] → (none : Option Int) ≠ none ∧ ∃ e, result = .error e) := by
    simp [Ledger.Established, Ledger.Abandoned]
  cases h with
  | writeClosed | closeClosed | silent => exact hnothing
  | unopened _ e _ hopen =>
      obtain ⟨hestablished, habandoned⟩ := hopen.established
      rw [hestablished, habandoned]
      refine ⟨⟨fun hok => ?_, fun h => absurd ⟨⟨e, rfl⟩, h.1⟩ h.2⟩, fun h => ⟨h.2, h.1⟩⟩
      cases hok
  | opened hopen hfollows =>
      obtain ⟨hestablished, habandoned⟩ := hopen.established
      obtain ⟨hquiet, _, hknown⟩ := hfollows.quiet
      rw [Ledger.established_append, hquiet.abandoned_append, hestablished, habandoned]
      refine ⟨⟨fun _ => ⟨hknown, ?_⟩, fun _ => .inl rfl⟩, ?_⟩
      · rintro ⟨⟨e, he⟩, _⟩
        cases he
      · rintro ⟨⟨e, he⟩, _⟩
        cases he

/-- How a run stands: the file is established exactly if its length is known and
no turn abandoned it, and no turn does so before a length is known. -/
structure Standing (before : List Turn) : Prop where
  established_iff : (ledger before).Established ↔
    (ledger before).fileEnd? ≠ none ∧ ∀ e ∈ before, ¬ e.exchanges.Abandoned
  unknown : (ledger before).fileEnd? = none → ∀ e ∈ before, ¬ e.exchanges.Abandoned

theorem Standing.start : Standing [] where
  established_iff := by simp [Ledger.Established, ledger, Ledger.fileEnd?, Ledger.found?]
  unknown _ e he := by cases he

theorem Standing.step {before : List Turn} {turn : Turn} (h : Standing before)
    (hnext : turn.Next u before) : Standing (before ++ [turn]) := by
  obtain ⟨hsettled, hdoes⟩ := hnext
  have hend := (hdoes.fileEnd hsettled).1
  have hestablished := h.established_iff
  have hunknown := h.unknown
  have hall : (∀ e ∈ before ++ [turn], ¬ e.exchanges.Abandoned) ↔
      (∀ e ∈ before, ¬ e.exchanges.Abandoned) ∧ ¬ turn.exchanges.Abandoned := by
    simp [or_imp, forall_and]
  cases hknown : (ledger before).fileEnd? with
  | some p =>
      rw [hknown] at hdoes hestablished
      have hquiet := hdoes.quiet
      have hmoved := Ledger.fileEnd?_append_of_known hknown turn.exchanges
      constructor
      · rw [ledger_append, ledger_singleton, hmoved, Ledger.established_append, hestablished, hall]
        simp [hquiet.not_established, hquiet.not_abandoned]
      · intro hnone
        rw [ledger_append, ledger_singleton, hmoved] at hnone
        cases hnone
  | none =>
      rw [hknown] at hdoes hestablished
      obtain ⟨hsettles, habandons⟩ := hdoes.settles
      have hbefore := hunknown hknown
      constructor
      · rw [ledger_append, ledger_singleton, hend, Ledger.established_append, hestablished, hall,
          hsettles]
        simp only [ne_eq, not_true_eq_false, false_and, false_or]
        exact and_congr_right fun _ => ⟨fun h => ⟨hbefore, h⟩, fun h => h.2⟩
      · intro hnone
        rw [ledger_append, ledger_singleton, hend] at hnone
        exact hall.mpr ⟨hbefore, fun habandoned => (habandons habandoned).1 hnone⟩

/-- What is sent after the offset was found out comes right after the exchanges
that found it out. -/
theorem Does.opened_before {closed : Bool} {o o' : Option Int} {call : Call}
    {xs ys zs : Ledger} {x : Exchange} {result : Except Failure Unit}
    (h : Does u closed o call xs result o') (hsplit : xs = ys ++ x :: zs)
    (hkind : x.kind = .append ∨ x.kind = .commit) :
    ∃ p, Opening u o ys (.ok ()) (some p) := by
  have hsent {o o' : Option Int} {ws : Ledger} {result : Except Failure Unit}
      (hopen : Opening u o ws result o') : x ∉ ws := by
    intro hx
    obtain hprobe | hcreation : x.kind = .probe ∨ x.kind = .creation := by
      cases hopen with
      | known | unasked => cases hx
      | unfound _ y hy | existing _ y hy | uncreated _ y hy =>
          rw [List.mem_singleton.mp hx]
          exact .inl (kind_probe hy)
      | refused _ y z hy _ hz | created y z hy _ hz =>
          rcases List.mem_cons.mp hx with rfl | hx
          · exact .inl (kind_probe hy)
          · rw [List.mem_singleton.mp hx]
            exact .inr (kind_creation hz)
    · rw [hprobe] at hkind
      rcases hkind with h | h <;> cases h
    · rw [hcreation] at hkind
      rcases hkind with h | h <;> cases h
  have hmem : x ∈ xs := by simp [hsplit]
  cases h with
  | writeClosed | closeClosed | silent => cases hmem
  | unopened _ _ _ hopen => exact absurd hmem (hsent hopen)
  | @opened _ _ ws vs p _ _ hopen hfollows =>
      obtain ⟨_, hlength, _⟩ := hfollows.quiet
      obtain ⟨as, hys, hvs⟩ | ⟨as, hws, has⟩ := List.append_eq_append_iff.mp hsplit
      · rw [hvs, List.length_append, List.length_cons] at hlength
        obtain rfl : as = [] := List.eq_nil_of_length_eq_zero (by omega)
        rw [hys, List.append_nil]
        exact ⟨p, hopen⟩
      · cases as with
        | nil =>
            rw [List.append_nil] at hws
            rw [← hws]
            exact ⟨p, hopen⟩
        | cons a as =>
            cases has
            exact absurd (by simp [hws]) (hsent hopen)

/-- Turns that may come one after the other keep a run standing. -/
theorem Standing.run {before turns : List Turn} (h : Standing before)
    (hnext : Along (Turn.Next u) before turns) : Standing (before ++ turns) := by
  induction turns generalizing before with
  | nil => rwa [List.append_nil]
  | cons turn turns ih =>
      rw [List.append_cons]
      exact ih (h.step hnext.1) hnext.2

/-- An append or a commit is sent to a file that is there, exactly if no earlier
call of the run abandoned it: found it empty, did not get it created, and ended
in a failure. Whatever else fails, a writer never appends to a file that was
neither found with content nor created. -/
theorem run_established_iff (u : Upload) (flag : Option Text) (bufferSize : Option Int)
    (calls : List Call) (w : World) :
    let (turns, _, w') := (opened u flag bufferSize).run calls w
    w'.exchanges = w.exchanges ++ ledger turns ∧
      (∀ e ∈ turns, e.exchanges.Abandoned → ∃ failure, e.result = .error failure) ∧
      ∀ before turn after ys x zs, turns = before ++ turn :: after →
        turn.exchanges = ys ++ x :: zs → x.kind = .append ∨ x.kind = .commit →
        (Ledger.Established (ledger before ++ ys) ↔ ∀ e ∈ before, ¬ e.exchanges.Abandoned) := by
  have hrun := run_next u flag bufferSize calls w
  rcases hturns : (opened u flag bufferSize).run calls w with ⟨turns, t, w'⟩
  rw [hturns] at hrun
  obtain ⟨_, hexchanges, _, hnext⟩ := hrun
  refine ⟨hexchanges, fun e he habandoned => ?_, ?_⟩
  · obtain ⟨before, after, hsplit⟩ := List.append_of_mem he
    have hturn := (along_iff.mp hnext before e after hsplit).does
    rw [List.nil_append] at hturn
    cases hknown : (ledger before).fileEnd? with
    | some p =>
        rw [hknown] at hturn
        exact absurd habandoned hturn.quiet.not_abandoned
    | none =>
        rw [hknown] at hturn
        exact (hturn.settles.2 habandoned).2
  · intro before turn after ys x zs hsplit hexchange hkind
    rw [hsplit] at hnext
    obtain ⟨hbefore, hturn, _⟩ := along_append.mp hnext
    have hstanding := Standing.start.run hbefore
    rw [List.nil_append] at hturn hstanding
    obtain ⟨p, hopen⟩ := hturn.does.opened_before hexchange hkind
    rw [Ledger.established_append, hstanding.established_iff]
    cases hknown : (ledger before).fileEnd? with
    | some n =>
        rw [hknown] at hopen
        cases hopen
        simp [Ledger.quiet_nil.not_established]
    | none =>
        rw [hknown] at hopen
        have hbefore := hstanding.unknown hknown
        have hestablished := hopen.established.1.mpr rfl
        exact ⟨fun _ => hbefore, fun _ => .inr hestablished⟩

def logUpload : Upload where
  backend :=
    { location :=
        { root := "/", filesystem := "data", endpoint := "https://acct.dfs.core.windows.net" }
      loader := { login := .token, accountName := none, authorityHost := "" } }
  options := { append := true }
  path := "log"

/-- A service that answers with empty responses of the given statuses. -/
def answering (statuses : List Int) : World where
  answers := statuses.map fun status => .response ⟨status, [], [], ""⟩
  tokens := [.token "t"]

/-- A file is not there and cannot be created; writing again appends to it. -/
theorem append_sent_to_missing_file :
    let (turns, _, _) :=
      (opened logUpload none none).run [.write [97], .write [97]] (answering [404, 500, 200, 200])
    turns.map (fun turn => turn.exchanges.map Exchange.kind) =
        [[.probe, .creation], [.append]] ∧
      ¬ Ledger.Established (ledger (turns.take 1)) := by
  have hkinds : ((opened logUpload none none).run [.write [97], .write [97]]
      (answering [404, 500, 200, 200])).1.map (fun turn => turn.exchanges.map Exchange.kind) =
        [[.probe, .creation], [.append]] := by
    decide +kernel
  have hfirst : ¬ Ledger.Established (ledger (((opened logUpload none none).run
      [.write [97], .write [97]] (answering [404, 500, 200, 200])).1.take 1)) := by
    decide +kernel
  rcases hrun : (opened logUpload none none).run [.write [97], .write [97]]
    (answering [404, 500, 200, 200]) with ⟨turns, t, w⟩
  rw [hrun] at hkinds hfirst
  exact ⟨hkinds, hfirst⟩

end AppendWriter

end DataLake
