import DataLake.Proofs.Cursor

/-!
Streams at the end of their body. Every iteration opens the body anew, and the reads of a
stream open it once, with the first one that wants something. A body whose end was noticed
cannot be opened any more. An iteration that is not left notices the end, and so does a read
that goes beyond it, while one that stops exactly there does not.
-/

namespace DataLake

namespace ReadStream

/-- A feed that has opened its body. -/
inductive Begun : Feed → Prop where
  | reading (n : Int) : Begun (.reading n)
  | finished : Begun .finished

/-- The feed that the reads of a stream share. -/
def shared (s : ReadStream) : Feed :=
  s.feed.getD (.fresh none)

section Feeds

variable {halted : Bool} {n : Int} {feed : Feed} {s : ReadStream}

theorem pullBlock_begun (halted : Bool) (n : Int) (s : ReadStream) :
    (pullBlock halted n s).1 ≠ .error .alreadyRead ∧ Begun (pullBlock halted n s).2.1 := by
  unfold pullBlock
  dsimp only
  split
  · exact ⟨by simp, .finished⟩
  · split
    · exact ⟨by simp, .finished⟩
    · split
      · exact ⟨by simp, .finished⟩
      · split
        · exact ⟨by simp, .finished⟩
        · exact ⟨by simp, .reading n⟩

theorem openBody_begun (halted : Bool) (n : Int) (s : ReadStream) :
    ((openBody halted n s).1 = .error .alreadyRead ↔ s.body.ended = true) ∧
      Begun (openBody halted n s).2.1 := by
  unfold openBody
  split
  · next hended => exact ⟨iff_of_true rfl hended, .finished⟩
  · next hmore =>
    obtain ⟨hreads, hbegun⟩ := pullBlock_begun halted n s
    exact ⟨iff_of_false hreads hmore, hbegun⟩

/-- A feed that has opened its body does not open it again. -/
theorem Begun.pull (h : Begun feed) (halted : Bool) (s : ReadStream) :
    (pull halted feed s).1 ≠ .error .alreadyRead ∧ Begun (pull halted feed s).2.1 := by
  cases h with
  | reading n => exact pullBlock_begun halted n s
  | finished => exact ⟨nofun, .finished⟩

/-- When nothing waits, asking a feed opens the body, unless the feed did so before. -/
theorem pull_begun (halted : Bool) (feed : Feed) (hwaiting : s.waiting = []) :
    ((pull halted feed s).1 = .error .alreadyRead ↔ s.body.ended = true ∧ ¬ Begun feed) ∧
      Begun (pull halted feed s).2.1 := by
  have hopens {feed : Feed} {n : Int} (hpull : pull halted feed s = openBody halted n s)
      (hnew : ¬ Begun feed) :
      ((pull halted feed s).1 = .error .alreadyRead ↔ s.body.ended = true ∧ ¬ Begun feed) ∧
        Begun (pull halted feed s).2.1 := by
    rw [hpull, and_iff_left hnew]
    exact openBody_begun halted n s
  have hgoes {feed : Feed} (hbegun : Begun feed) :
      ((pull halted feed s).1 = .error .alreadyRead ↔ s.body.ended = true ∧ ¬ Begun feed) ∧
        Begun (pull halted feed s).2.1 := by
    obtain ⟨hreads, hnext⟩ := hbegun.pull halted s
    exact ⟨iff_of_false hreads fun h => h.2 hbegun, hnext⟩
  cases feed with
  | fresh size =>
      apply hopens
      · exact if_pos (List.isEmpty_iff.mpr hwaiting)
      · nofun
  | opening n => exact hopens rfl nofun
  | reading n => exact hgoes (.reading n)
  | finished => exact hgoes .finished

/-- Gathering goes on after a chunk that is not enough. -/
theorem gather_of_chunk {need : Option Nat} {chunk : Bytes} {feed' : Feed} {t : ReadStream}
    (hneed : need ≠ some 0) (hpull : pull halted feed s = (.ok (some chunk), feed', t))
    (fuel : Nat) :
    gather halted need (fuel + 1) [] feed s =
      let out := gather halted (need.map (· - chunk.length)) fuel [] feed' t
      (out.1.map (chunk :: ·), out.2) := by
  rw [gather, if_neg hneed, hpull]
  dsimp only
  rw [gather_found]
  rfl

theorem not_error_of_ok {α : Type} (a : α) : ¬ ∃ e : Failure, Except.ok a = .error e := by
  rintro ⟨_, ⟨⟩⟩

theorem map_eq_error_iff {α β : Type} (f : α → β) (result : Except Failure α) (e : Failure) :
    result.map f = .error e ↔ result = .error e := by
  cases result <;> simp [Except.map]

theorem Begun.gather (h : Begun feed) (halted : Bool) (need : Option Nat) (fuel : Nat)
    (s : ReadStream) :
    (gather halted need fuel [] feed s).1 ≠ .error .alreadyRead ∧
      Begun (gather halted need fuel [] feed s).2.1 := by
  induction fuel generalizing need feed s with
  | zero => exact ⟨by rintro ⟨⟩, h⟩
  | succ fuel ih =>
      by_cases hneed : need = some 0
      · rw [ReadStream.gather, if_pos hneed]
        exact ⟨by rintro ⟨⟩, h⟩
      · obtain ⟨hreads, hnext⟩ := h.pull halted s
        rcases hpull : ReadStream.pull halted feed s with ⟨e | _ | chunk, feed', t⟩
        · rw [hpull] at hreads hnext
          rw [ReadStream.gather, if_neg hneed, hpull]
          exact ⟨fun he => hreads (by cases he; rfl), hnext⟩
        · rw [hpull] at hnext
          rw [ReadStream.gather, if_neg hneed, hpull]
          exact ⟨by rintro ⟨⟩, hnext⟩
        · rw [hpull] at hnext
          rw [gather_of_chunk hneed hpull, ne_eq, map_eq_error_iff]
          exact ih hnext _ t

/-- Gathering something opens the body, unless the feed did so before. -/
theorem gather_begun (halted : Bool) {need : Option Nat} {fuel : Nat} (feed : Feed)
    (hwaiting : s.waiting = []) (hneed : need ≠ some 0) (hfuel : fuel ≠ 0) :
    ((gather halted need fuel [] feed s).1 = .error .alreadyRead ↔
        s.body.ended = true ∧ ¬ Begun feed) ∧
      Begun (gather halted need fuel [] feed s).2.1 := by
  obtain ⟨fuel, rfl⟩ := Nat.exists_eq_succ_of_ne_zero hfuel
  obtain ⟨hreads, hnext⟩ := pull_begun halted feed hwaiting
  rw [← hreads]
  rcases hpull : pull halted feed s with ⟨e | _ | chunk, feed', t⟩ <;> rw [hpull] at hnext
  · rw [gather, if_neg hneed, hpull]
    exact ⟨by simp, hnext⟩
  · rw [gather, if_neg hneed, hpull]
    exact ⟨by simp, hnext⟩
  · rw [gather_of_chunk hneed hpull, map_eq_error_iff]
    obtain ⟨hlater, hlast⟩ := Begun.gather hnext halted (need.map (· - chunk.length)) fuel t
    exact ⟨iff_of_false hlater (by rintro ⟨⟩), hlast⟩

end Feeds

/-- A stream on which nothing waits before its reads have opened the body. -/
structure Poised (s : ReadStream) : Prop extends Intact s where
  begun : s.waiting ≠ [] → Begun s.shared

end ReadStream

namespace StreamStep

/-- A read, or an iteration that is not left before its end, with blocks of a size that can
be read. -/
def Finishes : StreamStep → Prop
  | read _ => True
  | chunks size count => (∀ n, size = some n → ReadStream.IsBlock n) ∧ count = none
  | status | header _ | close => False

theorem Finishes.goes {step : StreamStep} (h : step.Finishes) : step.Goes := by
  cases step with
  | read size => trivial
  | chunks size count => exact h.1
  | status => exact h.elim
  | header name => exact h.elim
  | close => exact h.elim

/-- What a step gives that finds nothing left. -/
def nothing : StreamStep → Outcome
  | read _ => .bytes []
  | chunks _ _ => .chunks []
  | status | header _ | close => .nothing

namespace Turn

variable {turn : Turn}

def Iterates (turn : Turn) : Prop :=
  ∃ size count, turn.step = .chunks size count

/-- A read that wants something, whatever it was given. -/
def Wants (turn : Turn) : Prop :=
  ∃ size, turn.step = .read size ∧ ReadStream.wanted size ≠ some 0

/-- A read that tells its caller that the end was reached: it gave less than was wanted, or
everything was wanted. -/
def ReportsEnd (turn : Turn) : Prop :=
  ∃ size bytes, turn = ⟨.read size, .ok (.bytes bytes)⟩ ∧
    ∀ n, ReadStream.wanted size = some n → bytes.length < n

def Raised (turn : Turn) : Prop :=
  ∃ e, turn.result = .error e

/-- What a turn does to what later turns depend on, which is whether the reads have opened
the body and whether its end was noticed; and when the turn itself fails. -/
structure Leads (turn : Turn) (s t : ReadStream) : Prop where
  begun : ReadStream.Begun t.shared ↔ ReadStream.Begun s.shared ∨ turn.Wants
  ended : t.body.ended = true ↔ s.body.ended = true ∨ turn.Iterates ∨ turn.ReportsEnd
  raised : turn.Raised ↔
    s.body.ended = true ∧ (turn.Iterates ∨ turn.Wants ∧ ¬ ReadStream.Begun s.shared)

/-- A turn that opens the body after others by which its end was noticed. -/
def FailsAfter (turn : Turn) (past : List Turn) : Prop :=
  (∃ earlier ∈ past, earlier.Iterates ∨ earlier.ReportsEnd) ∧
    (turn.Iterates ∨ turn.Wants ∧ ∀ earlier ∈ past, ¬ earlier.Wants)

/-- What a step that does not fail gives when nothing is left. -/
theorem Advances.nothing {outcome : Outcome} (h : turn.Advances []) (hstep : turn.step.Finishes)
    (hresult : turn.result = .ok outcome) : outcome = turn.step.nothing := by
  obtain ⟨step, result⟩ := turn
  cases step with
  | read size =>
      have hportion : ReadStream.portion (ReadStream.wanted size) [] = [] := by
        unfold ReadStream.portion
        cases ReadStream.wanted size <;> simp
      have hbytes := h.read size outcome rfl hresult
      rwa [hportion] at hbytes
  | chunks size count =>
      obtain ⟨-, rfl⟩ := hstep
      obtain ⟨chunks, rfl, hsome, -, hall⟩ := h.chunks size none outcome rfl hresult
      have hempty : chunks.flatten = [] := hall.resolve_left nofun
      cases chunks with
      | nil => rfl
      | cons chunk chunks =>
          have hnone := (List.append_eq_nil_iff.mp hempty).1
          exact absurd (hnone ▸ List.mem_cons_self) hsome
  | status => exact hstep.elim
  | header name => exact hstep.elim
  | close => exact hstep.elim

end Turn

end StreamStep

namespace ReadStream

open StreamStep

section Reads

variable {s t : ReadStream} {size : Option Int}

/-- A read is a turn that leads on when these hold of what it gave. -/
theorem leads_of_read {result : Except Failure Bytes}
    (hbegun : Begun t.shared ↔ Begun s.shared ∨ wanted size ≠ some 0)
    (hended : t.body.ended = true ↔ s.body.ended = true ∨
      ∃ bytes, result = .ok bytes ∧ ∀ n, wanted size = some n → bytes.length < n)
    (hraised : (∃ e, result = .error e) ↔
      s.body.ended = true ∧ wanted size ≠ some 0 ∧ ¬ Begun s.shared) :
    Turn.Leads ⟨.read size, result.map .bytes⟩ s t := by
  have hiterates : ¬ Turn.Iterates ⟨.read size, result.map .bytes⟩ := nofun
  have hwants : Turn.Wants ⟨.read size, result.map .bytes⟩ ↔ wanted size ≠ some 0 := by
    constructor
    · rintro ⟨_, ⟨⟩, hwants⟩
      exact hwants
    · exact fun hwants => ⟨size, rfl, hwants⟩
  have hreports : Turn.ReportsEnd ⟨.read size, result.map .bytes⟩ ↔
      ∃ bytes, result = .ok bytes ∧ ∀ n, wanted size = some n → bytes.length < n := by
    constructor
    · rintro ⟨_, bytes, hturn, hless⟩
      cases result with
      | error e => cases hturn
      | ok given =>
          cases hturn
          exact ⟨bytes, rfl, hless⟩
    · rintro ⟨bytes, rfl, hless⟩
      exact ⟨size, bytes, rfl, hless⟩
  have hfails : Turn.Raised ⟨.read size, result.map .bytes⟩ ↔ ∃ e, result = .error e :=
    exists_congr fun e => map_eq_error_iff _ result e
  refine ⟨by rwa [hwants], ?_, ?_⟩
  · rwa [hreports, or_iff_right hiterates]
  · rwa [hfails, hwants, or_iff_right hiterates]

theorem gather_nothing (halted : Bool) (fuel : Nat) (feed : Feed) (s : ReadStream) :
    gather halted (some 0) fuel [] feed s = (.ok [], feed, s) := by
  cases fuel <;> rfl

/-- A read for which enough waits leaves the body alone. -/
theorem read_of_waiting {n : Nat} (hwanted : wanted size = some n) (hn : n ≤ s.waiting.length)
    (halted : Bool) :
    s.read halted size = (.ok (s.waiting.take n),
      { s with feed := some s.shared, waiting := s.waiting.drop n }) := by
  rw [read_eq, hwanted, Option.map_some, List.length_take, Nat.min_eq_left hn, Nat.sub_self,
    gather_nothing]
  simp only [List.flatten_nil, List.append_nil]
  rfl

theorem Poised.leads_of_waiting (h : Poised s) {n : Nat} (hwanted : wanted size = some n)
    (hn : n ≤ s.waiting.length) :
    let (result, t) := s.read false size
    Turn.Leads ⟨.read size, result.map .bytes⟩ s t ∧ (t.waiting ≠ [] → Begun t.shared) := by
  have hbegun : wanted size ≠ some 0 → Begun s.shared := by
    intro hwants
    apply h.begun
    intro hnone
    rw [hnone] at hn
    exact hwants (by rw [hwanted, Nat.le_zero.mp hn])
  rw [read_of_waiting hwanted hn]
  constructor
  · apply leads_of_read
    · exact ⟨.inl, fun h => h.elim id hbegun⟩
    · refine ⟨.inl, fun h => h.resolve_right ?_⟩
      rintro ⟨_, ⟨⟩, hless⟩
      have hlength := hless n hwanted
      rw [List.length_take] at hlength
      omega
    · refine iff_of_false (not_error_of_ok _) ?_
      rintro ⟨-, hwants, hnew⟩
      exact hnew (hbegun hwants)
  · intro hleft
    apply h.begun
    intro hnone
    simp [hnone] at hleft

/-- A read for which too little waits gathers from the shared feed. -/
theorem Poised.leads_of_more (h : Poised s)
    (hmore : ∀ n, wanted size = some n → s.waiting.length < n) :
    let (result, t) := s.read false size
    Turn.Leads ⟨.read size, result.map .bytes⟩ s t ∧ (t.waiting ≠ [] → Begun t.shared) := by
  obtain ⟨s₀, hs₀⟩ : ∃ s₀, { s with waiting := [] } = s₀ := ⟨_, rfl⟩
  have hsound : Sound s₀ := by
    rw [← hs₀]
    exact ⟨h.block, h.opened, fun hended => (List.append_eq_nil_iff.mp (h.ended hended)).2⟩
  have hfit : Fit s₀ (s.feed.getD (.fresh none)) := by
    rw [← hs₀]
    exact h.fit.frame id
  have hsame : s₀.body.ended = s.body.ended := by
    rw [← hs₀]
  have hwaiting : s₀.waiting = [] := by
    rw [← hs₀]
  generalize hneed : (wanted size).map (fun n => n - (s.waiting.take n).length) = need
  have hwants : wanted size ≠ some 0 := fun hzero => Nat.not_lt_zero _ (hmore 0 hzero)
  have hsome : need ≠ some 0 := by
    rw [← hneed]
    intro hzero
    obtain ⟨n, hn, hsub⟩ := Option.map_eq_some_iff.mp hzero
    have hlength := hmore n hn
    rw [List.length_take] at hsub
    omega
  have hfuel : pullBound s₀ need ≠ 0 := by
    cases need with
    | none => exact Nat.succ_ne_zero _
    | some n => exact fun hzero => hsome (by rw [← hzero]; rfl)
  have hbound : need.getD (s₀.body.rest.length + 1) ≤ pullBound s₀ need := by
    cases need <;> simp [pullBound]
  have hgathered := gather_gathered need _ hsound hfit hwaiting hbound
  obtain ⟨hfails, hbegun⟩ :=
    gather_begun false (s.feed.getD (.fresh none)) hwaiting hsome hfuel
  rw [hsame] at hfails
  rw [read_eq, hs₀, hneed]
  generalize gather false need (pullBound s₀ need) [] (s.feed.getD (.fresh none)) s₀ = out
    at hgathered hfails hbegun
  have hleads {result : Except Failure Bytes} {t : ReadStream} (ht : t.shared = out.2.1)
      (hended : t.body.ended = true ↔ s.body.ended = true ∨
        ∃ bytes, result = .ok bytes ∧ ∀ n, wanted size = some n → bytes.length < n)
      (hraised : (∃ e, result = .error e) ↔ out.1 = .error .alreadyRead) :
      Turn.Leads ⟨.read size, result.map .bytes⟩ s t ∧ (t.waiting ≠ [] → Begun t.shared) := by
    rw [← ht] at hbegun
    refine ⟨leads_of_read (iff_of_true hbegun (.inr hwants)) hended ?_, fun _ => hbegun⟩
    rw [hraised, hfails, and_iff_right hwants]
    rfl
  cases hgathered with
  | @enough chunks rest feed n hn hle hsplit _ =>
      rw [← hneed] at hn
      obtain ⟨m, hm, rfl⟩ := Option.map_eq_some_iff.mp hn
      simp only [hm]
      apply hleads rfl
      · rw [← hsame]
        refine ⟨.inl, fun h => h.resolve_right ?_⟩
        rintro ⟨_, ⟨⟩, hless⟩
        -- What is wanted was there, so the read does not fall short.
        have hlength := hless m hm
        simp only [List.length_take, List.length_append] at hle hlength
        omega
      · exact iff_of_false (not_error_of_ok _) (by rintro ⟨⟩)
  | @all chunks hall hless =>
      cases hwanted : wanted size with
      | none =>
          simp only
          rw [close_of_ended rfl]
          apply hleads rfl
          · exact iff_of_true rfl (.inr ⟨_, rfl, fun n hn => by rw [hwanted] at hn; cases hn⟩)
          · exact iff_of_false (not_error_of_ok _) (by rintro ⟨⟩)
      | some m =>
          simp only
          apply hleads rfl
          · refine iff_of_true rfl (.inr ⟨_, rfl, fun n hn => ?_⟩)
            rw [hwanted, Option.some.injEq] at hn
            have hlength := hless (m - (s.waiting.take m).length) (by rw [← hneed, hwanted]; rfl)
            simp only [List.length_take, List.length_append] at hlength ⊢
            omega
          · exact iff_of_false (not_error_of_ok _) (by rintro ⟨⟩)
  | spent hend =>
      apply hleads rfl
      · exact iff_of_true hend (.inl (hsame.symm.trans hend))
      · exact iff_of_true ⟨_, rfl⟩ rfl

theorem Poised.read (h : Poised s) (size : Option Int) :
    let (result, t) := s.read false size
    Poised t ∧ Turn.Leads ⟨.read size, result.map .bytes⟩ s t := by
  have hleads : let (result, t) := s.read false size
      Turn.Leads ⟨.read size, result.map .bytes⟩ s t ∧ (t.waiting ≠ [] → Begun t.shared) := by
    by_cases henough : ∃ n, wanted size = some n ∧ n ≤ s.waiting.length
    · obtain ⟨n, hwanted, hn⟩ := henough
      exact h.leads_of_waiting hwanted hn
    · apply h.leads_of_more
      intro n hwanted
      exact Nat.lt_of_not_le fun hn => henough ⟨n, hwanted, hn⟩
  obtain ⟨result, t, hread, hintact, -⟩ := h.toIntact.read size
  rw [hread] at hleads ⊢
  exact ⟨⟨hintact, hleads.2⟩, hleads.1⟩

end Reads

section Iterations

variable {s : ReadStream}

/-- Chunks that are taken without end come to the end of the body, and it is noticed. -/
theorem takeChunks_ended {feed : Feed} {bound : Nat} (h : Sound s) (hfit : Fit s feed)
    (hwaiting : s.waiting = [] ∨ ∃ size, feed = .fresh size) (hbound : s.chunksLeft < bound) :
    (takeChunks false bound [] feed s).2.body.ended = true := by
  induction bound generalizing feed s with
  | zero => exact absurd hbound (Nat.not_lt_zero _)
  | succ bound ih =>
      have hyields := pull_yields h hfit hwaiting
      unfold takeChunks
      generalize pull false feed s = out at hyields
      cases hyields with
      | @chunk _ rest _ _ hrest hless hfit' =>
          simp only
          rw [takeChunks_found]
          apply ih (h.past hrest) hfit' (.inl rfl)
          rw [past_chunksLeft]
          omega
      | ended => rfl
      | spent hended => exact hended

/-- An iteration over a body whose end was noticed fails. -/
theorem takeChunks_of_ended {size : Option Int} {bound : Nat} (h : Sound s)
    (hended : s.body.ended = true) (hbound : bound ≠ 0) :
    (takeChunks false bound [] (.fresh size) s).1 = .error .alreadyRead := by
  obtain ⟨bound, rfl⟩ := Nat.exists_eq_succ_of_ne_zero hbound
  have hwaiting : s.waiting = [] := (List.append_eq_nil_iff.mp (h.ended hended)).1
  have hfails := (pull_begun false (.fresh size) hwaiting).1.mpr ⟨hended, nofun⟩
  unfold takeChunks
  rcases hpull : pull false (.fresh size) s with ⟨e | chunk, feed, t⟩ <;> rw [hpull] at hfails
  · cases hfails
    rfl
  · cases hfails

theorem Poised.chunks (h : Poised s) {size : Option Int}
    (hsize : ∀ n, size = some n → IsBlock n) :
    let (result, t) := s.chunks false size none
    Poised t ∧ Turn.Leads ⟨.chunks size none, result.map .chunks⟩ s t := by
  have hfit : Fit s (.fresh size) := .fresh size hsize
  have hbound : s.pullBound none = s.body.rest.length + 2 := rfl
  have hleft : s.chunksLeft < s.pullBound none := by
    unfold chunksLeft
    split <;> omega
  have htook := takeChunks_took (s.pullBound none) h.toSound hfit (.inr ⟨size, rfl⟩)
  have hnoticed := takeChunks_ended h.toSound hfit (.inr ⟨size, rfl⟩) hleft
  have hfails (hended : s.body.ended = true) :=
    @takeChunks_of_ended s size _ h.toSound hended (Nat.ne_zero_of_lt hleft)
  have hwants {result : Except Failure Outcome} :
      ¬ Turn.Wants ⟨.chunks size none, result⟩ := nofun
  have hiterates {result : Except Failure Outcome} :
      Turn.Iterates ⟨.chunks size none, result⟩ := ⟨size, none, rfl⟩
  unfold ReadStream.chunks
  generalize takeChunks false (s.pullBound none) [] (.fresh size) s = out
    at htook hnoticed hfails
  cases htook with
  | @taken chunks t hreaches =>
      have hsame : t.shared = s.shared := by
        unfold shared
        rw [hreaches.feed_eq]
      have hnew : ¬ s.body.ended = true := fun hended => nomatch hfails hended
      have hnone := (List.append_eq_nil_iff.mp (hreaches.sound.ended hnoticed)).1
      refine ⟨⟨hreaches.intact h.toIntact, fun hsome => absurd hnone hsome⟩, ?_, ?_, ?_⟩
      · rw [hsame, or_iff_left hwants]
      · exact iff_of_true hnoticed (.inr (.inl hiterates))
      · exact iff_of_false nofun fun hraised => hnew hraised.1
  | spent hended =>
      refine ⟨h, ?_, ?_, ?_⟩
      · rw [or_iff_left hwants]
      · exact iff_of_true hended (.inl hended)
      · exact iff_of_true ⟨_, rfl⟩ ⟨hended, .inl hiterates⟩

end Iterations

theorem Poised.turn {s : ReadStream} (h : Poised s) {step : StreamStep} (hstep : step.Finishes) :
    let (result, t) := step.run false s
    Poised t ∧ Turn.Leads ⟨step, result⟩ s t := by
  cases step with
  | read size => exact h.read size
  | chunks size count =>
      obtain ⟨hsize, rfl⟩ := hstep
      exact h.chunks hsize
  | status => exact hstep.elim
  | header name => exact hstep.elim
  | close => exact hstep.elim

/-- A stream after some turns. -/
structure Recalls (past : List Turn) (s : ReadStream) : Prop extends Poised s where
  opened_iff : Begun s.shared ↔ ∃ turn ∈ past, turn.Wants
  ended_iff : s.body.ended = true ↔ ∃ turn ∈ past, turn.Iterates ∨ turn.ReportsEnd

theorem Recalls.next {past : List Turn} {s t : ReadStream} {turn : Turn} (h : Recalls past s)
    (hnext : Poised t) (hleads : turn.Leads s t) : Recalls (past ++ [turn]) t := by
  refine ⟨hnext, ?_, ?_⟩
  · rw [hleads.begun, h.opened_iff]
    simp only [List.mem_append, List.mem_singleton, or_and_right, exists_or, exists_eq_left]
  · rw [hleads.ended, h.ended_iff]
    simp only [List.mem_append, List.mem_singleton, or_and_right, exists_or, exists_eq_left]

theorem Recalls.turns {past : List Turn} {s : ReadStream} {steps : List StreamStep}
    (h : Recalls past s) (hsteps : ∀ step ∈ steps, step.Finishes) :
    Along (fun past turn => turn.Raised ↔ turn.FailsAfter past) past (s.turns steps).1 := by
  induction steps generalizing past s with
  | nil => trivial
  | cons step steps ih =>
      have hturn := h.toPoised.turn (hsteps step List.mem_cons_self)
      unfold ReadStream.turns
      rcases hrun : step.run false s with ⟨result, t⟩
      rw [hrun] at hturn
      obtain ⟨hnext, hleads⟩ := hturn
      refine ⟨?_, ih (h.next hnext hleads) fun next hmem => hsteps next (List.mem_cons_of_mem _ hmem)⟩
      dsimp only
      rw [hleads.raised, h.ended_iff, h.opened_iff, not_exists]
      simp only [Turn.FailsAfter, not_and]

theorem handedOut_append (before after : List Turn) :
    handedOut (before ++ after) = handedOut before ++ handedOut after :=
  List.flatMap_append

theorem recalls_ofResponse (r : Response) {bufferSize : Int} (hsize : IsBlock bufferSize)
    (flag : Option Text) : Recalls [] (ofResponse r bufferSize flag) := by
  refine ⟨⟨Intact.ofResponse r hsize flag, fun hwaiting => absurd rfl hwaiting⟩, ?_, ?_⟩
  · exact iff_of_false nofun (by simp)
  · exact iff_of_false nofun (by simp)

/-- A step fails exactly if it opens the body when the end of it was noticed, which happens
only after every byte was handed out. An iteration always opens the body, and a read does if
it wants something and no read did before. What does not fail when nothing is left gives
nothing. -/
theorem turns_fail_iff (r : Response) {bufferSize : Int} (hsize : IsBlock bufferSize)
    {steps : List StreamStep} (hsteps : ∀ step ∈ steps, step.Finishes) :
    let (turns, _) := (ofResponse r bufferSize none).turns steps
    turns.map Turn.step = steps ∧
      ∀ before turn after, turns = before ++ turn :: after →
        (turn.Raised ↔ turn.FailsAfter before) ∧
          (∀ e, turn.result = .error e → e = .alreadyRead ∧ handedOut before = r.body) ∧
            (handedOut before = r.body → turn.Raised ∨ turn.result = .ok turn.step.nothing) := by
  have hfails := (recalls_ofResponse r hsize none).turns hsteps
  have hadvance := (Intact.ofResponse r hsize none).turns fun step hstep => (hsteps step hstep).goes
  rcases hrun : (ofResponse r bufferSize none).turns steps with ⟨turns, s⟩
  have hopened : (ofResponse r bufferSize none).remaining = r.body := rfl
  rw [hrun] at hfails hadvance
  rw [hopened] at hadvance
  obtain ⟨hsame, hbody, hall⟩ := hadvance
  refine ⟨hsame, fun before turn after hsplit => ?_⟩
  have hadvances := hall before turn after hsplit
  have hstep : turn.step ∈ steps := by
    rw [← hsame, hsplit]
    exact List.mem_map_of_mem (List.mem_append_right before List.mem_cons_self)
  have hbegins : handedOut before <+: r.body := by
    rw [← hbody, hsplit, handedOut_append, List.append_assoc]
    exact List.prefix_append _ _
  refine ⟨?_, ?_, ?_⟩
  · exact along_iff.mp hfails before turn after hsplit
  · intro e he
    obtain ⟨hspent, hleft⟩ := hadvances.raised e he
    exact ⟨hspent, hbegins.eq_of_length_le (List.drop_eq_nil_iff.mp hleft)⟩
  · intro hwhole
    rw [hwhole, List.drop_length] at hadvances
    cases hresult : turn.result with
    | error e => exact .inl ⟨e, hresult⟩
    | ok outcome =>
        rw [hadvances.nothing (hsteps _ hstep) hresult]
        exact .inr rfl

/-- Reads that stop where the body ends, an iteration that finds nothing, and one more. -/
def stepsAtEnd : List StreamStep :=
  [.read (some 6), .read (some 0), .chunks (some 4) none, .read (some 1), .chunks none none]

theorem turns_fail_stepsAtEnd :
    let (turns, _) := (ofResponse sixBytes 2 none).turns stepsAtEnd
    turns.map Turn.step = stepsAtEnd ∧
      ∀ before turn after, turns = before ++ turn :: after →
        (turn.Raised ↔ turn.FailsAfter before) ∧
          (∀ e, turn.result = .error e → e = .alreadyRead ∧ handedOut before = sixBytes.body) ∧
            (handedOut before = sixBytes.body →
              turn.Raised ∨ turn.result = .ok turn.step.nothing) :=
  @turns_fail_iff sixBytes 2 (by decide) stepsAtEnd
    (by simp [stepsAtEnd, Finishes, IsBlock, Number.isWord])

/-- An iteration hands out everything, and the read after it fails. -/
theorem read_raises_after_iteration :
    let (turns, s) := (ofResponse sixBytes 2 none).turns [.chunks none none, .read (some 1)]
    turns.map Turn.result =
        [.ok (.chunks [[97, 98], [99, 100], [101, 102]]), .error .alreadyRead] ∧
      handedOut turns = sixBytes.body ∧ s.remaining = [] :=
  ⟨rfl, rfl, rfl⟩

end ReadStream

end DataLake
