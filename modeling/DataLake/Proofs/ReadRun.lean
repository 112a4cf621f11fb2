import DataLake.ReadStream
import DataLake.Proofs.Along

/-!
Runs of reads on a stream. Until a read fails, the bytes handed out, the bytes
that wait and the bytes left in the body are the whole body in order, and a read
that gives less than was asked for has reached its end. A read fails when the
flag is up or when blocks of the wanted size cannot be read at all. Its failure
finishes the one feed of the stream, so that later reads find nothing and report
the end of a body that was not handed out.
-/

namespace DataLake

namespace ReadStream

/-- How many bytes a read wants; everything without a size or with a negative one. -/
def wanted (size : Option Int) : Option Nat :=
  match size with
  | some n => if n < 0 then none else some n.toNat
  | none => none

/-- The part of some bytes that is wanted. -/
def portion (wanted : Option Nat) (bytes : Bytes) : Bytes :=
  wanted.elim bytes bytes.take

/-- A feed that no read failed on, over a body that was `whole` at first: nothing
was read yet, blocks are being read, or everything was read. -/
inductive Live (whole : Bytes) (s : ReadStream) : Feed → Prop where
  | fresh (hclosed : s.body.closed = false) (hended : s.body.ended = false)
      (hrest : s.body.rest = whole) : Live whole s (.fresh none)
  | reading (hclosed : s.body.closed = false) (hword : Number.isWord s.bufferSize = true) :
      Live whole s (.reading s.bufferSize)
  | finished (hrest : s.body.rest = []) : Live whole s .finished

theorem Live.frame {whole : Bytes} {s t : ReadStream} {feed : Feed} (h : Live whole s feed)
    (hbody : t.body = s.body) (hsize : t.bufferSize = s.bufferSize) : Live whole t feed := by
  cases h with
  | fresh hclosed hended hrest =>
      rw [← hbody] at hclosed hended hrest
      exact .fresh hclosed hended hrest
  | reading hclosed hword =>
      rw [← hbody] at hclosed
      rw [← hsize] at hword ⊢
      exact .reading hclosed hword
  | finished hrest =>
      rw [← hbody] at hrest
      exact .finished hrest

/-- Why a read fails: the flag is up while there is more to read, or no block can
be read, not even the first one. -/
def Stops (whole : Bytes) (halted : Bool) (s : ReadStream) (e : Failure) : Prop :=
  (e = .halted ∧ halted = true ∧ s.body.rest ≠ []) ∨
    (e = .numberTooLarge ∧ Number.isWord s.bufferSize = false ∧ s.body.rest = whole)

/-- What a live feed gives when it is asked once. -/
inductive Gives (whole : Bytes) (halted : Bool) (s : ReadStream) : Pulled → Prop where
  | chunk {chunk rest : Bytes} (hchunk : chunk ≠ []) (hrest : s.body.rest = chunk ++ rest)
      (hlive : Live whole { s with body := { s.body with rest } } (.reading s.bufferSize)) :
      Gives whole halted s
        (.ok (some chunk), .reading s.bufferSize, { s with body := { s.body with rest } })
  | ended {body : Body} (hrest : s.body.rest = []) (hbody : body.rest = []) :
      Gives whole halted s (.ok none, .finished, { s with body })
  | stopped (body : Body) (e : Failure) (hstops : Stops whole halted s e) :
      Gives whole halted s (.error e, .finished, { s with body })

theorem pullBlock_gives {whole : Bytes} {s : ReadStream} (halted : Bool)
    (hsize : 1 ≤ s.bufferSize) (hclosed : s.body.closed = false)
    (hword : Number.isWord s.bufferSize = true ∨ s.body.rest = whole) :
    Gives whole halted s (pullBlock halted s.bufferSize s) := by
  have hblock : block s.bufferSize s.body.rest = s.body.rest.take s.bufferSize.toNat := by
    unfold block
    rw [if_neg (by omega)]
  unfold pullBlock
  rw [hblock]
  cases hisWord : Number.isWord s.bufferSize with
  | false =>
      have hrest := hword.resolve_left (by simp [hisWord])
      exact .stopped s.body .numberTooLarge (.inr ⟨rfl, hisWord, hrest⟩)
  | true =>
      rw [hclosed]
      simp only [Bool.not_true, Bool.false_eq_true, if_false]
      split
      · next hempty =>
        have hnone : s.body.rest = [] := by
          rcases List.take_eq_nil_iff.mp (List.isEmpty_iff.mp hempty) with h | h
          · omega
          · exact h
        exact .ended hnone hnone
      · next hchunk =>
        replace hchunk : s.body.rest.take s.bufferSize.toNat ≠ [] :=
          fun h => hchunk (List.isEmpty_iff.mpr h)
        have hsplit : s.body.rest = s.body.rest.take s.bufferSize.toNat ++
            s.body.rest.drop (s.body.rest.take s.bufferSize.toNat).length :=
          (List.prefix_iff_eq_append.mp (List.take_prefix _ _)).symm
        cases halted with
        | true =>
            refine .stopped _ .halted (.inl ⟨rfl, rfl, fun hnone => hchunk ?_⟩)
            rw [hnone, List.take_nil]
        | false => exact .chunk hchunk hsplit (.reading hclosed hisWord)

theorem Live.gives {whole : Bytes} {s : ReadStream} {feed : Feed} (halted : Bool)
    (h : Live whole s feed) (hwaiting : s.waiting = []) (hsize : 1 ≤ s.bufferSize) :
    Gives whole halted s (pull halted feed s) := by
  cases h with
  | fresh hclosed hended hrest =>
      have hpull : pull halted (.fresh none) s = pullBlock halted s.bufferSize s := by
        unfold pull openBody blockSize
        simp [hwaiting, hended]
      rw [hpull]
      exact pullBlock_gives halted hsize hclosed (.inr hrest)
  | reading hclosed hword => exact pullBlock_gives halted hsize hclosed (.inl hword)
  | finished hrest => exact .ended hrest hrest

/-- What gathering from a live feed comes to: enough chunks or all there are, or
the failure that stopped it. -/
inductive Gathers (whole : Bytes) (halted : Bool) (need : Option Nat) (s : ReadStream) :
    Except Failure (List Bytes) × Feed × ReadStream → Prop where
  | gathered {chunks : List Bytes} {feed : Feed} {t : ReadStream} (hlive : Live whole t feed)
      (hwaiting : t.waiting = []) (hsize : t.bufferSize = s.bufferSize)
      (hrest : s.body.rest = chunks.flatten ++ t.body.rest)
      (hneed : feed = .finished ∨ ∃ n, need = some n ∧ n ≤ chunks.flatten.length) :
      Gathers whole halted need s (.ok chunks, feed, t)
  | stopped {t : ReadStream} (e : Failure) (hwaiting : t.waiting = [])
      (hsize : t.bufferSize = s.bufferSize) (hstops : Stops whole halted s e) :
      Gathers whole halted need s (.error e, .finished, t)

theorem gather_found (halted : Bool) (need : Option Nat) (fuel : Nat)
    (found : List Bytes) (feed : Feed) (s : ReadStream) :
    gather halted need fuel found feed s =
      match gather halted need fuel [] feed s with
      | (result, feed, t) => (result.map (found.reverse ++ ·), feed, t) := by
  induction fuel generalizing need found feed s with
  | zero => simp [gather, Except.map]
  | succ fuel ih =>
      unfold gather
      split
      · simp [Except.map]
      · rcases hpull : pull halted feed s with ⟨e | _ | chunk, feed', s'⟩
        · rfl
        · simp [Except.map]
        · simp only
          rw [ih _ (chunk :: found), ih _ [chunk]]
          rcases gather halted (need.map (· - chunk.length)) fuel [] feed' s' with ⟨e | chunks, _⟩
          · rfl
          · simp [Except.map]

/-- A chunk in front of what gathering the rest comes to. -/
private theorem Gathers.cons {whole chunk rest : Bytes} {halted : Bool} {need : Option Nat}
    {s t : ReadStream} {feed : Feed} {result : Except Failure (List Bytes)}
    (hrest : s.body.rest = chunk ++ rest) (hword : Number.isWord s.bufferSize = true)
    (h : Gathers whole halted (need.map (· - chunk.length))
      { s with body := { s.body with rest } } (result, feed, t)) :
    Gathers whole halted need s (result.map (chunk :: ·), feed, t) := by
  cases h with
  | @gathered chunks _ _ hlive hwaiting hsize hrest' hneed =>
      refine .gathered hlive hwaiting hsize ?_ ?_
      · rw [hrest, List.flatten_cons, List.append_assoc, ← hrest']
      · refine hneed.imp_right ?_
        rintro ⟨n, hn, hle⟩
        obtain ⟨m, rfl, rfl⟩ := Option.map_eq_some_iff.mp hn
        refine ⟨m, rfl, ?_⟩
        rw [List.flatten_cons, List.length_append]
        omega
  | stopped e hwaiting hsize hstops =>
      refine .stopped e hwaiting hsize ?_
      rcases hstops with ⟨he, hhalted, hmore⟩ | ⟨_, hnoWord, _⟩
      · refine .inl ⟨he, hhalted, fun hnone => hmore ?_⟩
        rw [hrest] at hnone
        exact (List.append_eq_nil_iff.mp hnone).2
      · -- A block was read before, so blocks of this size can be read.
        exact absurd (hnoWord.symm.trans hword) (by decide)

/-- Gathering gives all that is needed, given enough steps: one for each byte. -/
theorem Live.gathers {whole : Bytes} {s : ReadStream} {feed : Feed} (halted : Bool)
    (need : Option Nat) (fuel : Nat) (h : Live whole s feed) (hwaiting : s.waiting = [])
    (hsize : 1 ≤ s.bufferSize) (hfuel : need.getD (s.body.rest.length + 1) ≤ fuel) :
    Gathers whole halted need s (gather halted need fuel [] feed s) := by
  induction fuel generalizing need feed s with
  | zero =>
      cases need with
      | none => simp at hfuel
      | some n => exact .gathered h hwaiting rfl rfl (.inr ⟨n, rfl, by simpa using hfuel⟩)
  | succ fuel ih =>
      unfold gather
      split
      · next hneed => exact .gathered h hwaiting rfl rfl (.inr ⟨0, hneed, by simp⟩)
      · have hgives := h.gives halted hwaiting hsize
        rcases hpull : pull halted feed s with ⟨e | _ | chunk, feed', s'⟩
        · rw [hpull] at hgives
          cases hgives with
          | stopped _ _ hstops => exact .stopped e hwaiting rfl hstops
        · rw [hpull] at hgives
          cases hgives with
          | ended hrest hbody =>
              exact .gathered (.finished hbody) hwaiting rfl (by simp [hrest, hbody]) (.inl rfl)
        · rw [hpull] at hgives
          cases hgives with
          | @chunk _ rest hchunk hrest hlive =>
              have hword : Number.isWord s.bufferSize = true := by
                cases hlive with
                | reading _ hword => exact hword
              have hfuel' : (need.map (· - chunk.length)).getD (rest.length + 1) ≤ fuel := by
                have hlength : 0 < chunk.length := List.length_pos_iff.mpr hchunk
                rw [hrest, List.length_append] at hfuel
                cases need with
                | none =>
                    simp only [Option.map_none, Option.getD_none] at hfuel ⊢
                    omega
                | some n =>
                    simp only [Option.map_some, Option.getD_some] at hfuel ⊢
                    omega
              have hnext := ih (need.map (· - chunk.length)) hlive hwaiting hsize hfuel'
              simp only
              rw [gather_found]
              exact hnext.cons hrest hword

/-- A stream that no read failed on, in the middle of a body. -/
structure Going (whole : Bytes) (bufferSize : Int) (s : ReadStream) : Prop where
  live : Live whole s (s.feed.getD (.fresh none))
  size_eq : s.bufferSize = bufferSize

/-- A stream that a read failed on: it holds nothing, and its feed is finished. -/
structure Lost (s : ReadStream) : Prop where
  nothing : s.waiting = []
  finished : s.feed = some .finished

theorem read_eq (halted : Bool) (size : Option Int) (s : ReadStream) :
    s.read halted size =
      match gather halted ((wanted size).map fun n => n - (s.waiting.take n).length)
        (pullBound { s with waiting := [] }
          ((wanted size).map fun n => n - (s.waiting.take n).length)) []
        (s.feed.getD (.fresh none)) { s with waiting := [] } with
      | (.error e, feed, t) => (.error e, { t with feed := some feed })
      | (.ok chunks, feed, t) =>
          let bytes := s.waiting ++ chunks.flatten
          match wanted size with
          | none => (.ok bytes, { t with feed := some feed }.close)
          | some n => (.ok (bytes.take n), { t with feed := some feed, waiting := bytes.drop n }) := by
  have hjoin (chunks : List Bytes) :
      (if chunks.isEmpty then s.waiting else s.waiting ++ chunks.flatten) =
        s.waiting ++ chunks.flatten := by
    cases chunks <;> simp
  unfold read
  simp only [hjoin]
  rfl

/-- Bytes that wait are handed out before anything that is read, so together with
what is gathered they are enough, or all there is. -/
theorem portion_of_gathered (waiting : Bytes) {rest taken rest' : Bytes} {n : Nat}
    (hrest : rest = taken ++ rest')
    (henough : rest' = [] ∨ n - (waiting.take n).length ≤ taken.length) :
    (waiting ++ taken).take n = (waiting ++ rest).take n ∧
      (waiting ++ taken).drop n ++ rest' = (waiting ++ rest).drop n := by
  have hwhole : waiting ++ rest = (waiting ++ taken) ++ rest' := by
    rw [hrest, List.append_assoc]
  rw [hwhole]
  rcases henough with hnone | hle
  · rw [hnone, List.append_nil, List.append_nil]
    exact ⟨rfl, rfl⟩
  · rw [List.length_take] at hle
    have hlength : n ≤ (waiting ++ taken).length := by
      rw [List.length_append]
      omega
    rw [List.take_append_of_le_length hlength, List.drop_append_of_le_length hlength]
    exact ⟨rfl, rfl⟩

/-- What a read on a stream that goes on gathers beyond the bytes that wait. -/
private theorem Going.gathers {whole : Bytes} {bufferSize : Int} {s : ReadStream}
    (h : Going whole bufferSize s) (hsize : 1 ≤ bufferSize) (halted : Bool) (need : Option Nat) :
    Gathers whole halted need { s with waiting := [] }
      (gather halted need (pullBound { s with waiting := [] } need) []
        (s.feed.getD (.fresh none)) { s with waiting := [] }) := by
  have hlive : Live whole { s with waiting := [] } (s.feed.getD (.fresh none)) :=
    h.live.frame rfl rfl
  rw [← h.size_eq] at hsize
  apply hlive.gathers halted need _ rfl hsize
  cases need <;> simp [pullBound]

/-- A stream that was read to its end goes on, and has nothing left, when it is closed. -/
private theorem Going.of_close (whole : Bytes) {bufferSize : Int} {t : ReadStream}
    (hfeed : t.feed = some .finished) (hwaiting : t.waiting = []) (hrest : t.body.rest = [])
    (hsize : t.bufferSize = bufferSize) :
    Going whole bufferSize t.close ∧ t.close.remaining = [] := by
  unfold close
  split
  · refine ⟨⟨?_, hsize⟩, by simp [remaining, hwaiting, hrest]⟩
    rw [hfeed]
    exact .finished hrest
  · refine ⟨⟨?_, hsize⟩, by simp [remaining, hwaiting, hrest]⟩
    dsimp only
    rw [hfeed]
    exact .finished hrest

/-- A read on a stream that goes on gives what it wants of the bytes that are
left, or fails and leaves the stream lost. -/
theorem Going.read {whole : Bytes} {bufferSize : Int} {s : ReadStream}
    (h : Going whole bufferSize s) (hsize : 1 ≤ bufferSize) (halted : Bool)
    (size : Option Int) :
    (∃ t, s.read halted size = (.ok (portion (wanted size) s.remaining), t) ∧
        Going whole bufferSize t ∧
        portion (wanted size) s.remaining ++ t.remaining = s.remaining) ∨
      ∃ e t, s.read halted size = (.error e, t) ∧ Lost t ∧ Stops whole halted s e := by
  generalize hneed : (wanted size).map (fun n => n - (s.waiting.take n).length) = need
  have hgathers := h.gathers hsize halted need
  rw [read_eq, hneed]
  rcases hgather : gather halted need (pullBound { s with waiting := [] } need) []
    (s.feed.getD (.fresh none)) { s with waiting := [] } with ⟨result, feed, t⟩
  rw [hgather] at hgathers
  cases hgathers with
  | stopped e hwaiting _ hstops =>
      right
      exact ⟨e, { t with feed := some .finished }, rfl, ⟨hwaiting, rfl⟩, hstops⟩
  | @gathered chunks _ _ hlive' hwaiting' hsize' hrest' hneed' =>
      left
      simp only
      have hended (hfinished : feed = .finished) : t.body.rest = [] := by
        rw [hfinished] at hlive'
        cases hlive' with
        | finished hnone => exact hnone
      cases hwanted : wanted size with
      | none =>
          obtain rfl : feed = .finished := by
            refine hneed'.resolve_right ?_
            rintro ⟨n, hn, _⟩
            rw [← hneed, hwanted] at hn
            cases hn
          have hnone := hended rfl
          rw [hnone, List.append_nil] at hrest'
          have hleft : s.waiting ++ chunks.flatten = s.remaining := by
            rw [← hrest']
            rfl
          obtain ⟨hgoing, hnothing⟩ := Going.of_close whole
            (t := { t with feed := some .finished }) rfl hwaiting' hnone (hsize'.trans h.size_eq)
          simp only
          rw [hleft]
          refine ⟨_, rfl, hgoing, ?_⟩
          rw [hnothing]
          exact List.append_nil _
      | some n =>
          have henough : t.body.rest = [] ∨
              n - (s.waiting.take n).length ≤ chunks.flatten.length := by
            refine hneed'.imp hended ?_
            rintro ⟨m, hm, hle⟩
            rw [← hneed, hwanted] at hm
            obtain rfl := Option.some.inj hm
            exact hle
          obtain ⟨htake, hdrop⟩ := portion_of_gathered s.waiting hrest' henough
          simp only
          refine ⟨{ t with feed := some feed, waiting := (s.waiting ++ chunks.flatten).drop n },
            ?_, ⟨?_, hsize'.trans h.size_eq⟩, ?_⟩
          · rw [htake]
            rfl
          · exact hlive'.frame rfl rfl
          · change (s.waiting ++ s.body.rest).take n ++ ((s.waiting ++ chunks.flatten).drop n ++
              t.body.rest) = s.waiting ++ s.body.rest
            rw [hdrop, List.take_append_drop]

/-- A read on a lost stream finds nothing, and does not fail again. -/
theorem Lost.read {s : ReadStream} (h : Lost s) (halted : Bool) (size : Option Int) :
    ∃ t, s.read halted size = (.ok [], t) ∧ Lost t := by
  have hgather (need : Option Nat) (fuel : Nat) (t : ReadStream) :
      gather halted need fuel [] .finished t = (.ok [], .finished, t) := by
    cases fuel with
    | zero => rfl
    | succ fuel =>
        unfold gather
        split <;> rfl
  rw [read_eq, h.finished, Option.getD_some, hgather]
  simp only [h.nothing, List.flatten_nil, List.append_nil]
  cases wanted size with
  | none =>
      refine ⟨_, rfl, ?_⟩
      unfold close
      split <;> exact ⟨rfl, rfl⟩
  | some n =>
      simp only [List.take_nil, List.drop_nil]
      exact ⟨_, rfl, ⟨rfl, rfl⟩⟩

/-- One read: whether the flag was up, the size, and what came back. -/
structure Reading where
  halted : Bool
  size : Option Int
  result : Except Failure Bytes

/-- The readings of a list of reads, each with the flag up or not. -/
def run (s : ReadStream) : List (Bool × Option Int) → List Reading × ReadStream
  | [] => ([], s)
  | (halted, size) :: reads =>
      match s.read halted size with
      | (result, s) =>
          match s.run reads with
          | (readings, s) => ({ halted, size, result } :: readings, s)

def Reading.Raised (reading : Reading) : Prop :=
  ∃ e, reading.result = .error e

def delivered (readings : List Reading) : Bytes :=
  readings.flatMap fun reading => reading.result.toOption.getD []

/-- A reading that tells its caller that the end was reached: it gave less than
was wanted, or everything was wanted. -/
def Reading.ReportsEnd (reading : Reading) : Prop :=
  ∃ bytes, reading.result = .ok bytes ∧ ∀ n, wanted reading.size = some n → bytes.length < n

@[simp] theorem delivered_append (before after : List Reading) :
    delivered (before ++ after) = delivered before ++ delivered after :=
  List.flatMap_append

@[simp] theorem delivered_ok (halted : Bool) (size : Option Int) (bytes : Bytes) :
    delivered [⟨halted, size, .ok bytes⟩] = bytes := by
  simp [delivered, Except.toOption]

@[simp] theorem delivered_error (halted : Bool) (size : Option Int) (e : Failure) :
    delivered [⟨halted, size, .error e⟩] = [] := by
  simp [delivered, Except.toOption]

/-- What a reading is after others over a body. -/
structure Reading.Follows (body : Bytes) (bufferSize : Int) (before : List Reading)
    (reading : Reading) : Prop where
  /-- What was handed out is the beginning of the body. -/
  ordered : delivered (before ++ [reading]) <+: body
  /-- As long as no read failed, a reading gives what it wants of the bytes that are left. -/
  complete : (∀ e ∈ before, ¬ e.Raised) → ∀ bytes, reading.result = .ok bytes →
    bytes = portion (wanted reading.size) (body.drop (delivered before).length)
  /-- The first failure has one of two reasons. -/
  reason : ∀ e, reading.result = .error e →
    (∀ e ∈ before, ¬ e.Raised) ∧
      ((e = .halted ∧ reading.halted = true) ∨
        (e = .numberTooLarge ∧ Number.isWord bufferSize = false))
  /-- After a failure every read finds nothing. -/
  lost : (∃ e ∈ before, e.Raised) → reading.result = .ok []
  /-- The end is reported rightly exactly if no read failed before, or if there was nothing
  to read. -/
  ends : reading.ReportsEnd →
    (delivered (before ++ [reading]) = body ↔ (∀ e ∈ before, ¬ e.Raised) ∨ body = [])

/-- A stream after some readings: it goes on where they ended, or one of them failed
before the end. -/
inductive Past (body : Bytes) (bufferSize : Int) (before : List Reading) (s : ReadStream) :
    Prop where
  | going (hnone : ∀ e ∈ before, ¬ e.Raised) (hgoing : Going body bufferSize s)
      (hbody : delivered before ++ s.remaining = body)
  | lost (hraised : ∃ e ∈ before, e.Raised) (hlost : Lost s) (hbegin : delivered before <+: body)
      (hmissing : delivered before = body → body = [])

/-- What a failing read leaves unread is never nothing, unless the body was. -/
private theorem Stops.missing {body before : Bytes} {halted : Bool} {s : ReadStream}
    {e : Failure} (h : Stops body halted s e) (hbody : before ++ s.remaining = body)
    (hall : before = body) : body = [] := by
  have hnone : s.remaining = [] := by
    rw [hall] at hbody
    exact List.self_eq_append_right.mp hbody.symm
  have hrest : s.body.rest = [] := (List.append_eq_nil_iff.mp hnone).2
  rcases h with ⟨_, _, hmore⟩ | ⟨_, _, hwhole⟩
  · exact absurd hrest hmore
  · rw [← hwhole, hrest]

private theorem portion_of_reportsEnd {size : Option Int} {bytes : Bytes}
    (h : ∀ n, wanted size = some n → (portion (wanted size) bytes).length < n) :
    portion (wanted size) bytes = bytes := by
  cases hwanted : wanted size with
  | none => rfl
  | some n =>
      have hlength := h n hwanted
      rw [hwanted] at hlength
      change (bytes.take n).length < n at hlength
      change bytes.take n = bytes
      rw [List.length_take] at hlength
      exact List.take_of_length_le (by omega)

section OneMore

variable {body : Bytes} {bufferSize : Int} {before : List Reading} {s t : ReadStream}

/-- A reading of what is wanted, on a stream that goes on. -/
private theorem Past.given (hnone : ∀ e ∈ before, ¬ e.Raised)
    (hbody : delivered before ++ s.remaining = body) (hnext : Going body bufferSize t)
    (halted : Bool) (size : Option Int)
    (hportion : portion (wanted size) s.remaining ++ t.remaining = s.remaining) :
    Reading.Follows body bufferSize before
        ⟨halted, size, .ok (portion (wanted size) s.remaining)⟩ ∧
      Past body bufferSize
        (before ++ [⟨halted, size, .ok (portion (wanted size) s.remaining)⟩]) t := by
  have hleft : body.drop (delivered before).length = s.remaining := by
    rw [← hbody, List.drop_left]
  have hrest : delivered (before ++ [⟨halted, size,
      .ok (portion (wanted size) s.remaining)⟩]) ++ t.remaining = body := by
    rw [delivered_append, delivered_ok, List.append_assoc, hportion, hbody]
  refine ⟨⟨⟨t.remaining, hrest⟩, ?_, ?_, ?_, ?_⟩, .going ?_ hnext hrest⟩
  · intro _ bytes hbytes
    cases hbytes
    rw [hleft]
  · intro e he
    cases he
  · rintro ⟨e, he, hraised⟩
    exact absurd hraised (hnone e he)
  · rintro ⟨bytes, hbytes, hshort⟩
    cases hbytes
    rw [delivered_append, delivered_ok, portion_of_reportsEnd hshort, hbody]
    exact ⟨fun _ => .inl hnone, fun _ => rfl⟩
  · intro e he
    rcases List.mem_append.mp he with he | he
    · exact hnone e he
    · rw [List.mem_singleton.mp he]
      rintro ⟨failure, hfailure⟩
      cases hfailure

/-- The first reading that fails. -/
private theorem Past.failed (hnone : ∀ e ∈ before, ¬ e.Raised)
    (hbody : delivered before ++ s.remaining = body) (hlost : Lost t) {halted : Bool}
    (size : Option Int) {e : Failure} (hstops : Stops body halted s e)
    (hbuffer : s.bufferSize = bufferSize) :
    Reading.Follows body bufferSize before ⟨halted, size, .error e⟩ ∧
      Past body bufferSize (before ++ [⟨halted, size, .error e⟩]) t := by
  have hsame : delivered (before ++ [⟨halted, size, .error e⟩]) = delivered before := by
    rw [delivered_append, delivered_error, List.append_nil]
  have hbegin : delivered before <+: body := ⟨s.remaining, hbody⟩
  refine ⟨⟨by rwa [hsame], ?_, ?_, ?_, ?_⟩, .lost ?_ hlost (by rwa [hsame]) ?_⟩
  · intro _ bytes hbytes
    cases hbytes
  · intro failure hfailure
    cases hfailure
    refine ⟨hnone, ?_⟩
    rcases hstops with ⟨he, hhalted, _⟩ | ⟨he, hword, _⟩
    · exact .inl ⟨he, hhalted⟩
    · exact .inr ⟨he, by rwa [hbuffer] at hword⟩
  · rintro ⟨earlier, hearlier, hraised⟩
    exact absurd hraised (hnone earlier hearlier)
  · rintro ⟨bytes, hbytes, _⟩
    cases hbytes
  · exact ⟨_, List.mem_append_right before (List.mem_singleton_self _), e, rfl⟩
  · rw [hsame]
    exact hstops.missing hbody

/-- A reading after one that failed. -/
private theorem Past.empty (hraised : ∃ e ∈ before, e.Raised) (hbegin : delivered before <+: body)
    (hmissing : delivered before = body → body = []) (hlost : Lost t) (halted : Bool)
    (size : Option Int) :
    Reading.Follows body bufferSize before ⟨halted, size, .ok []⟩ ∧
      Past body bufferSize (before ++ [⟨halted, size, .ok []⟩]) t := by
  have hsame : delivered (before ++ [⟨halted, size, .ok []⟩]) = delivered before := by
    rw [delivered_append, delivered_ok, List.append_nil]
  have hsome : ¬ ∀ e ∈ before, ¬ e.Raised := by
    obtain ⟨e, he, hfailed⟩ := hraised
    exact fun hnone => hnone e he hfailed
  refine ⟨⟨by rwa [hsame], ?_, ?_, ?_, ?_⟩, .lost ?_ hlost (by rwa [hsame]) ?_⟩
  · intro hnone
    exact absurd hnone hsome
  · intro e he
    cases he
  · intro _
    rfl
  · intro _
    rw [hsame]
    refine ⟨fun hall => .inr (hmissing hall), fun h => ?_⟩
    have hempty := h.resolve_left hsome
    rw [hempty] at hbegin ⊢
    exact List.prefix_nil.mp hbegin
  · obtain ⟨e, he, hfailed⟩ := hraised
    exact ⟨e, List.mem_append_left _ he, hfailed⟩
  · rwa [hsame]

theorem Past.read (h : Past body bufferSize before s) (hsize : 1 ≤ bufferSize) (halted : Bool)
    (size : Option Int) :
    let (result, t) := s.read halted size
    Reading.Follows body bufferSize before ⟨halted, size, result⟩ ∧
      Past body bufferSize (before ++ [⟨halted, size, result⟩]) t := by
  cases h with
  | going hnone hgoing hbody =>
      rcases hgoing.read hsize halted size with
        ⟨t, hread, hnext, hportion⟩ | ⟨e, t, hread, hlost, hstops⟩
      · rw [hread]
        exact Past.given hnone hbody hnext halted size hportion
      · rw [hread]
        exact Past.failed hnone hbody hlost size hstops hgoing.size_eq
  | lost hraised hlost hbegin hmissing =>
      obtain ⟨t, hread, hnext⟩ := hlost.read halted size
      rw [hread]
      exact Past.empty hraised hbegin hmissing hnext halted size

end OneMore

theorem Past.run {body : Bytes} {bufferSize : Int} {before : List Reading} {s : ReadStream}
    (h : Past body bufferSize before s) (hsize : 1 ≤ bufferSize)
    (reads : List (Bool × Option Int)) :
    let (readings, _) := s.run reads
    (readings.map fun e => (e.halted, e.size)) = reads ∧
      Along (Reading.Follows body bufferSize) before readings := by
  induction reads generalizing before s with
  | nil => exact ⟨rfl, trivial⟩
  | cons ask reads ih =>
      obtain ⟨halted, size⟩ := ask
      have hstep := h.read hsize halted size
      unfold ReadStream.run
      rcases hread : s.read halted size with ⟨result, t⟩
      rw [hread] at hstep
      obtain ⟨hfollows, hpast⟩ := hstep
      have hrest := ih hpast
      rcases hrun : t.run reads with ⟨readings, t'⟩
      rw [hrun] at hrest
      simp only [hrun]
      exact ⟨by simp [hrest.1], hfollows, hrest.2⟩

/-- Every read of a stream gives what it wants of the bytes that are left, until
one fails because the flag is up or blocks are too large. It is the only one to
fail: all reads after it give nothing, and they report the end of a body of which
the rest is never handed out. -/
theorem run_follows (r : Response) (bufferSize : Int) (flag : Option Text)
    (hsize : 1 ≤ bufferSize) (reads : List (Bool × Option Int)) :
    let (readings, _) := (ofResponse r bufferSize flag).run reads
    (readings.map fun e => (e.halted, e.size)) = reads ∧
      ∀ before reading after, readings = before ++ reading :: after →
        reading.Follows r.body bufferSize before := by
  have hpast : Past r.body bufferSize [] (ofResponse r bufferSize flag) :=
    .going (fun _ he => by cases he) ⟨.fresh rfl rfl rfl, rfl⟩ rfl
  have hrun := hpast.run hsize reads
  rcases hreadings : (ofResponse r bufferSize flag).run reads with ⟨readings, t⟩
  rw [hreadings] at hrun
  exact ⟨hrun.1, along_iff.mp hrun.2⟩

def sixBytes : Response :=
  ⟨200, [], [97, 98, 99, 100, 101, 102], "OK"⟩

theorem run_follows_sixBytes :
    let (readings, _) := (ofResponse sixBytes 2 none).run [(false, some 1), (false, none)]
    (readings.map fun e => (e.halted, e.size)) = [(false, some 1), (false, none)] ∧
      ∀ before reading after, readings = before ++ reading :: after →
        reading.Follows sixBytes.body 2 before :=
  run_follows sixBytes 2 none (by decide) [(false, some 1), (false, none)]

/-- The flag is up before the first read, which fails; the second one reports the
end, and no byte was handed out. -/
theorem end_reported_after_halt :
    let (readings, _) :=
      (ofResponse sixBytes defaultBufferSize (some "stop")).run [(true, some 5), (true, some 5)]
    readings.map Reading.result = [.error .halted, .ok []] ∧ delivered readings ≠ sixBytes.body := by
  constructor
  · rfl
  · decide

end ReadStream

end DataLake
