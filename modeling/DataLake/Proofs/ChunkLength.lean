import DataLake.Proofs.Cursor

/-!
How long chunks are. An iteration reads the body in blocks of its own size, but the bytes
that a read took with its last block and did not hand out go first, in one piece. They are
fewer than a block of the stream has, so a chunk is never longer than that unless the
iteration has larger blocks; it is longer than a block of the iteration exactly if it is
what waited, and more than such a block waited.
-/

namespace DataLake

namespace ReadStream

/-- Anything that can be done with a stream: a step, or asking an iteration that was begun
before for one more chunk. -/
inductive Moves (s : ReadStream) : ReadStream → Prop where
  | stepped (step : StreamStep) (halted : Bool) : Moves s (step.run halted s).2
  | asked (feed : Feed) (halted : Bool) : Moves s (pull halted feed s).2.2

inductive Reached (opened : ReadStream) : ReadStream → Prop where
  | opened : Reached opened opened
  | moved {s t : ReadStream} (h : Reached opened s) (hmoves : Moves s t) : Reached opened t

/-- An iteration over the chunks of a stream, with blocks of the given size, and how far its
feed has come. Other things may be done with the stream before it begins and between its
chunks. -/
inductive Iterating (opened : ReadStream) (size : Option Int) : ReadStream → Feed → Prop where
  | begun {s : ReadStream} (hreached : Reached opened s) : Iterating opened size s (.fresh size)
  | meanwhile {s t : ReadStream} {feed : Feed} (h : Iterating opened size s feed)
      (hmoves : Moves s t) : Iterating opened size t feed
  | asked {s : ReadStream} {feed : Feed} (h : Iterating opened size s feed) (halted : Bool) :
      Iterating opened size (pull halted feed s).2.2 (pull halted feed s).2.1

/-- A feed with blocks of the given size, whether or not it has begun to read. -/
inductive Cuts (size : Option Int) (n : Int) : Feed → Prop where
  | fresh : Cuts size n (.fresh size)
  | opening : Cuts size n (.opening n)
  | reading : Cuts size n (.reading n)
  | finished : Cuts size n .finished

/-- What a feed gives when it is asked once: what waits if it is fresh, and else a block. -/
inductive Hands (size : Option Int) (n : Int) (feed : Feed) (s : ReadStream) : Pulled → Prop where
  | waiting (hfresh : feed = .fresh size) (hwaiting : s.waiting ≠ []) :
      Hands size n feed s (.ok (some s.waiting), .opening n, { s with waiting := [] })
  | block {chunk : Bytes} (body : Body) (hnone : feed = .fresh size → s.waiting = [])
      (hchunk : chunk ≠ []) (hlength : (chunk.length : Int) ≤ n) :
      Hands size n feed s (.ok (some chunk), .reading n, { s with body })
  | ended (body : Body) : Hands size n feed s (.ok none, .finished, { s with body })
  | failed (body : Body) (e : Failure) : Hands size n feed s (.error e, .finished, { s with body })

section Asking

variable {size : Option Int} {n : Int} {feed : Feed} {s : ReadStream}

theorem length_block_le (hn : 1 ≤ n) (rest : Bytes) : ((block n rest).length : Int) ≤ n := by
  have hsize : ¬ n < 0 := by omega
  simp only [block, if_neg hsize, List.length_take]
  omega

theorem pullBlock_hands (hn : 1 ≤ n) (halted : Bool) (hnone : feed = .fresh size → s.waiting = []) :
    Hands size n feed s (pullBlock halted n s) := by
  unfold pullBlock
  split
  · exact .failed s.body .numberTooLarge
  · split
    · exact .failed s.body .bodyClosed
    · dsimp only
      split
      · exact .ended _
      · next hchunk =>
        split
        · exact .failed _ .halted
        · apply Hands.block _ hnone
          · intro hempty
            exact hchunk (List.isEmpty_iff.mpr hempty)
          · exact length_block_le hn s.body.rest

theorem openBody_hands (hn : 1 ≤ n) (halted : Bool) (hnone : feed = .fresh size → s.waiting = []) :
    Hands size n feed s (openBody halted n s) := by
  unfold openBody
  split
  · exact .failed s.body .alreadyRead
  · exact pullBlock_hands hn halted hnone

theorem pull_hands (hn : 1 ≤ n) (hblock : s.blockSize size = n) (hcuts : Cuts size n feed)
    (halted : Bool) : Hands size n feed s (pull halted feed s) := by
  cases hcuts with
  | fresh =>
      simp only [pull, hblock]
      split
      · next hempty => exact openBody_hands hn halted fun _ => List.isEmpty_iff.mp hempty
      · next hsome =>
        apply Hands.waiting rfl
        intro hempty
        exact hsome (List.isEmpty_iff.mpr hempty)
  | opening => exact openBody_hands hn halted fun hfresh => by cases hfresh
  | reading => exact pullBlock_hands hn halted fun hfresh => by cases hfresh
  | finished => exact .ended s.body

theorem Hands.cuts {result : Except Failure (Option Bytes)} {feed' : Feed} {t : ReadStream}
    (h : Hands size n feed s (result, feed', t)) : Cuts size n feed' := by
  cases h with
  | waiting => exact .opening
  | block => exact .reading
  | ended => exact .finished
  | failed => exact .finished

end Asking

/-- The second stream is the first one with more of its body read, and perhaps without the
bytes that waited. -/
structure Beside (s t : ReadStream) : Prop where
  bufferSize_eq : t.bufferSize = s.bufferSize
  feed_eq : t.feed = s.feed
  waiting : t.waiting = s.waiting ∨ t.waiting = []

theorem Beside.refl (s : ReadStream) : Beside s s :=
  ⟨rfl, rfl, .inl rfl⟩

theorem Beside.trans {s t u : ReadStream} (h : Beside s t) (h' : Beside t u) : Beside s u := by
  refine ⟨h'.bufferSize_eq.trans h.bufferSize_eq, h'.feed_eq.trans h.feed_eq, ?_⟩
  rcases h'.waiting with hsame | hnone
  · rw [hsame]
    exact h.waiting
  · exact .inr hnone

theorem pullBlock_beside (halted : Bool) (n : Int) (s : ReadStream) :
    Beside s (pullBlock halted n s).2.2 := by
  unfold pullBlock
  dsimp only
  repeat' split
  all_goals exact ⟨rfl, rfl, .inl rfl⟩

theorem openBody_beside (halted : Bool) (n : Int) (s : ReadStream) :
    Beside s (openBody halted n s).2.2 := by
  unfold openBody
  split
  · exact .refl s
  · exact pullBlock_beside halted n s

/-- Asking a feed leaves the feed of the stream alone, and adds nothing to what waits. -/
theorem pull_beside (halted : Bool) (feed : Feed) (s : ReadStream) :
    Beside s (pull halted feed s).2.2 := by
  cases feed with
  | fresh size =>
      unfold pull
      dsimp only
      split
      · exact openBody_beside halted _ s
      · exact ⟨rfl, rfl, .inr rfl⟩
  | opening n => exact openBody_beside halted n s
  | reading n => exact pullBlock_beside halted n s
  | finished => exact .refl s

theorem takeChunks_beside (halted : Bool) (count : Nat) (found : List Bytes) (feed : Feed)
    (s : ReadStream) : Beside s (takeChunks halted count found feed s).2 := by
  induction count generalizing found feed s with
  | zero => exact .refl s
  | succ count ih =>
      have hpull := pull_beside halted feed s
      unfold takeChunks
      rcases hpulled : pull halted feed s with ⟨e | _ | chunk, feed', t⟩ <;> rw [hpulled] at hpull
      · exact hpull
      · exact hpull
      · exact hpull.trans (ih (chunk :: found) feed' t)

/-- A stream of which fewer bytes wait than a block has. -/
structure Snug (bufferSize : Int) (s : ReadStream) : Prop where
  bufferSize_eq : s.bufferSize = bufferSize
  waiting_lt : (s.waiting.length : Int) < bufferSize
  feed_cuts : Cuts none bufferSize (s.feed.getD (.fresh none))

theorem Snug.beside {bufferSize : Int} {s t : ReadStream} (h : Snug bufferSize s)
    (hbeside : Beside s t) : Snug bufferSize t := by
  refine ⟨hbeside.bufferSize_eq.trans h.bufferSize_eq, ?_, ?_⟩
  · have hlength := h.waiting_lt
    rcases hbeside.waiting with hsame | hnone
    · rwa [hsame]
    · rw [hnone, List.length_nil]
      omega
  · rw [hbeside.feed_eq]
    exact h.feed_cuts

/-- What gathering from the feed of the stream comes to. It stops with the block that fills
the need, so what is gathered beyond the need is less than a block. -/
structure Collected (bufferSize : Int) (need : Option Nat)
    (out : Except Failure (List Bytes) × Feed × ReadStream) : Prop where
  cuts : Cuts none bufferSize out.2.1
  bufferSize_eq : out.2.2.bufferSize = bufferSize
  nothing_waits : out.2.2.waiting = []
  nothing : ∀ chunks, out.1 = .ok chunks → need = some 0 → chunks = []
  length_lt : ∀ chunks n, out.1 = .ok chunks → need = some n →
    (chunks.flatten.length : Int) < n + bufferSize

section Reading

variable {bufferSize : Int} {s : ReadStream}

theorem Collected.none (hsize : 1 ≤ bufferSize) (need : Option Nat) {feed : Feed}
    (hbuffer : s.bufferSize = bufferSize) (hwaiting : s.waiting = [])
    (hcuts : Cuts .none bufferSize feed) : Collected bufferSize need (.ok [], feed, s) := by
  refine ⟨hcuts, hbuffer, hwaiting, ?_, ?_⟩
  · intro chunks hchunks _
    cases hchunks
    rfl
  · intro chunks n hchunks _
    cases hchunks
    simp only [List.flatten_nil, List.length_nil]
    omega

theorem Collected.failed (need : Option Nat) {feed : Feed} (hbuffer : s.bufferSize = bufferSize)
    (hwaiting : s.waiting = []) (hcuts : Cuts .none bufferSize feed) (e : Failure) :
    Collected bufferSize need (.error e, feed, s) := by
  refine ⟨hcuts, hbuffer, hwaiting, ?_, ?_⟩
  · intro chunks hchunks
    cases hchunks
  · intro chunks n hchunks
    cases hchunks

/-- A block in front of what is gathered when it was not enough. -/
theorem Collected.cons {need : Option Nat} {chunk : Bytes} {feed : Feed}
    {result : Except Failure (List Bytes)} (hneed : need ≠ some 0)
    (hlength : (chunk.length : Int) ≤ bufferSize)
    (h : Collected bufferSize (need.map (· - chunk.length)) (result, feed, s)) :
    Collected bufferSize need (result.map (chunk :: ·), feed, s) := by
  refine ⟨h.cuts, h.bufferSize_eq, h.nothing_waits, ?_, ?_⟩
  · intro _ _ hzero
    exact absurd hzero hneed
  · intro all n hall hn
    cases result with
    | error e => cases hall
    | ok chunks =>
        cases hall
        have hpositive : n ≠ 0 := fun hzero => hneed (by rw [hn, hzero])
        have hmore : need.map (· - chunk.length) = some (n - chunk.length) := by
          rw [hn, Option.map_some]
        have hrest := h.length_lt chunks _ rfl hmore
        rw [List.flatten_cons, List.length_append]
        by_cases hfull : n ≤ chunk.length
        · -- The block fills the need, so nothing is gathered after it.
          rw [Nat.sub_eq_zero_of_le hfull] at hmore
          rw [h.nothing chunks rfl hmore, List.flatten_nil, List.length_nil]
          omega
        · omega

theorem gather_collected (hsize : 1 ≤ bufferSize) (halted : Bool) (need : Option Nat) (fuel : Nat)
    {feed : Feed} (hbuffer : s.bufferSize = bufferSize) (hwaiting : s.waiting = [])
    (hcuts : Cuts none bufferSize feed) :
    Collected bufferSize need (gather halted need fuel [] feed s) := by
  induction fuel generalizing need feed s with
  | zero => exact .none hsize need hbuffer hwaiting hcuts
  | succ fuel ih =>
      unfold gather
      split
      · exact .none hsize need hbuffer hwaiting hcuts
      · next hneed =>
        have hblock : s.blockSize none = bufferSize := hbuffer
        have hhands := pull_hands hsize hblock hcuts halted
        generalize pull halted feed s = out at hhands
        cases hhands with
        | waiting _ hsome => exact absurd hwaiting hsome
        | block body _ _ hlength =>
            simp only
            rw [gather_found]
            exact .cons hneed hlength (ih _ hbuffer hwaiting .reading)
        | ended body => exact .none hsize need hbuffer hwaiting .finished
        | failed body e =>
            apply Collected.failed need _ _ .finished e
            · exact hbuffer
            · exact hwaiting

theorem Snug.close (h : Snug bufferSize s) : Snug bufferSize s.close := by
  unfold ReadStream.close
  split
  · exact h
  · exact ⟨h.bufferSize_eq, h.waiting_lt, h.feed_cuts⟩

/-- A read leaves less than a block waiting. -/
theorem Snug.read (h : Snug bufferSize s) (hsize : 1 ≤ bufferSize) (halted : Bool)
    (size : Option Int) : Snug bufferSize (s.read halted size).2 := by
  rw [read_eq]
  generalize hneed : (wanted size).map (fun n => n - (s.waiting.take n).length) = need
  have hcollected := gather_collected (s := { s with waiting := [] }) hsize halted need
    (pullBound { s with waiting := [] } need) h.bufferSize_eq rfl h.feed_cuts
  rcases hgather : gather halted need (pullBound { s with waiting := [] } need) []
    (s.feed.getD (.fresh none)) { s with waiting := [] } with ⟨result, feed, t⟩
  rw [hgather] at hcollected
  obtain ⟨hcuts, hbuffer, hwaiting, hnothing, hlength⟩ := hcollected
  dsimp only at hcuts hbuffer hwaiting
  have hleft (bytes : Bytes) (hbytes : (bytes.length : Int) < bufferSize) :
      Snug bufferSize { t with feed := some feed, waiting := bytes } :=
    ⟨hbuffer, hbytes, hcuts⟩
  have hempty : Snug bufferSize { t with feed := some feed } := by
    refine ⟨hbuffer, ?_, hcuts⟩
    simp only [hwaiting, List.length_nil]
    omega
  cases result with
  | error e => exact hempty
  | ok chunks =>
      cases hwanted : wanted size with
      | none => exact hempty.close
      | some n =>
          apply hleft
          rw [hwanted, Option.map_some] at hneed
          have hwaits := h.waiting_lt
          by_cases hheld : n ≤ s.waiting.length
          · -- What waits is enough, and nothing is gathered.
            rw [List.length_take, Nat.min_eq_left hheld, Nat.sub_self] at hneed
            rw [hnothing chunks rfl hneed.symm]
            simp only [List.flatten_nil, List.append_nil, List.length_drop]
            omega
          · have hmore := hlength chunks _ rfl hneed.symm
            simp only [List.length_drop, List.length_append, List.length_take] at hmore ⊢
            omega

theorem Snug.moves {t : ReadStream} (h : Snug bufferSize s) (hsize : 1 ≤ bufferSize)
    (hmoves : Moves s t) : Snug bufferSize t := by
  cases hmoves with
  | asked feed halted => exact h.beside (pull_beside halted feed s)
  | stepped step halted =>
      cases step with
      | read size => exact h.read hsize halted size
      | chunks size count => exact h.beside (takeChunks_beside halted _ _ _ s)
      | status => exact h
      | header name => exact h
      | close => exact h.close

end Reading

theorem snug_ofResponse (r : Response) {bufferSize : Int} (hsize : 1 ≤ bufferSize)
    (flag : Option Text) : Snug bufferSize (ofResponse r bufferSize flag) :=
  ⟨rfl, by simp only [ofResponse, List.length_nil]; omega, .fresh⟩

section Iterations

variable {bufferSize : Int} {opened s : ReadStream} {size : Option Int} {feed : Feed}

theorem Reached.snug (h : Reached opened s) (hsize : 1 ≤ bufferSize)
    (hopened : Snug bufferSize opened) : Snug bufferSize s := by
  induction h with
  | opened => exact hopened
  | moved _ hmoves ih => exact ih.moves hsize hmoves

/-- However an iteration and the other things done with the stream alternate, its feed keeps
to its blocks, and less than a block of the stream waits. -/
theorem Iterating.cuts {n : Int} (h : Iterating opened size s feed) (hsize : 1 ≤ bufferSize)
    (hopened : Snug bufferSize opened) (hn : 1 ≤ n) (hblock : opened.blockSize size = n) :
    Cuts size n feed ∧ Snug bufferSize s := by
  have hblocks {s : ReadStream} (hs : Snug bufferSize s) : s.blockSize size = n := by
    rw [← hblock]
    unfold blockSize
    rw [hs.bufferSize_eq, hopened.bufferSize_eq]
  induction h with
  | begun hreached => exact ⟨.fresh, hreached.snug hsize hopened⟩
  | meanwhile h hmoves ih => exact ⟨ih.1, ih.2.moves hsize hmoves⟩
  | asked h halted ih =>
      have hhands := pull_hands hn (hblocks ih.2) ih.1 halted
      exact ⟨hhands.cuts, ih.2.beside (pull_beside halted _ _)⟩

/-- The size of the blocks of an iteration is its own, or that of the stream. -/
theorem blockSize_given (hsize : 1 ≤ bufferSize) (hgiven : ∀ n, size = some n → 1 ≤ n)
    (hopened : Snug bufferSize opened) :
    ∃ n, opened.blockSize size = n ∧ 1 ≤ n ∧ (size = none → n = bufferSize) ∧
      ∀ m, size = some m → n = m := by
  cases size with
  | none =>
      refine ⟨bufferSize, hopened.bufferSize_eq, hsize, fun _ => rfl, ?_⟩
      intro m hm
      cases hm
  | some m =>
      have hm := hgiven m rfl
      have hown : opened.blockSize (some m) = m := if_neg (by omega)
      refine ⟨m, hown, hm, ?_, ?_⟩
      · intro hnone
        cases hnone
      · intro k hk
        cases hk
        rfl

/-- A chunk of an iteration without a size of its own is no longer than a block of the stream.
One of an iteration in smaller blocks is longer than these exactly if it is the first one, and
more than such a block waited. -/
theorem Iterating.chunk_length (hsize : 1 ≤ bufferSize) (hgiven : ∀ n, size = some n → 1 ≤ n)
    (hopened : Snug bufferSize opened) (h : Iterating opened size s feed) {halted : Bool}
    {chunk : Bytes} (hchunk : (pull halted feed s).1 = .ok (some chunk)) :
    chunk ≠ [] ∧ (size = none → (chunk.length : Int) ≤ bufferSize) ∧
      ∀ n, size = some n →
        ((chunk.length : Int) ≤ n ↔ (feed = .fresh size → (s.waiting.length : Int) ≤ n)) := by
  obtain ⟨n, hblock, hn, hown, hgivenSize⟩ := blockSize_given hsize hgiven hopened
  obtain ⟨hcuts, hsnug⟩ := h.cuts hsize hopened hn hblock
  have hwaits := hsnug.waiting_lt
  have hblock' : s.blockSize size = n := by
    rw [← hblock]
    unfold blockSize
    rw [hsnug.bufferSize_eq, hopened.bufferSize_eq]
  have hhands := pull_hands hn hblock' hcuts halted
  generalize pull halted feed s = out at hchunk hhands
  cases hhands with
  | waiting hfresh hsome =>
      cases hchunk
      refine ⟨hsome, fun _ => by omega, fun m _ => ?_⟩
      constructor
      · intro hle _
        exact hle
      · intro hle
        exact hle hfresh
  | block body hnone hsome hlength =>
      cases hchunk
      refine ⟨hsome, fun hnosize => by rwa [← hown hnosize], fun m hm => ?_⟩
      rw [← hgivenSize m hm]
      constructor
      · intro _ hfresh
        rw [hnone hfresh, List.length_nil]
        omega
      · intro _
        exact hlength
  | ended body => cases hchunk
  | failed body e => cases hchunk

theorem pull_goes_on {halted : Bool} {feed feed' : Feed} {s t : ReadStream} {chunk : Bytes}
    (h : pull halted feed s = (.ok (some chunk), feed', t)) (size : Option Int) :
    feed' ≠ .fresh size := by
  have hblock {n : Int} (hread : pullBlock halted n s = (.ok (some chunk), feed', t)) :
      feed' ≠ .fresh size := by
    unfold pullBlock at hread
    dsimp only at hread
    repeat' split at hread
    all_goals cases hread
    simp
  have hopen {n : Int} (hread : openBody halted n s = (.ok (some chunk), feed', t)) :
      feed' ≠ .fresh size := by
    unfold openBody at hread
    split at hread
    · cases hread
    · exact hblock hread
  cases feed with
  | fresh own =>
      unfold pull at h
      dsimp only at h
      split at h
      · exact hopen h
      · cases h
        simp
  | opening n => exact hopen h
  | reading n => exact hblock h
  | finished => cases h

/-- The chunks that are taken from a feed are given by it one after the other, and it is fresh
before the first one only. -/
theorem Iterating.takeChunks (h : Iterating opened size s feed) {halted : Bool} {count : Nat}
    {chunks : List Bytes} (hchunks : (takeChunks halted count [] feed s).1 = .ok chunks) :
    ∀ chunk ∈ chunks, ∃ s' feed', Iterating opened size s' feed' ∧
      (pull halted feed' s').1 = .ok (some chunk) ∧
      (feed' = .fresh size → s' = s ∧ feed = .fresh size) := by
  induction count generalizing s feed chunks with
  | zero =>
      cases hchunks
      exact fun _ hchunk => absurd hchunk List.not_mem_nil
  | succ count ih =>
      have hnext := h.asked halted
      unfold ReadStream.takeChunks at hchunks
      rcases hpull : pull halted feed s with ⟨e | _ | first, feed', t⟩ <;> rw [hpull] at hchunks hnext
      · cases hchunks
      · cases hchunks
        exact fun _ hchunk => absurd hchunk List.not_mem_nil
      · dsimp only at hchunks
        rw [takeChunks_found] at hchunks
        rcases htake : takeChunks halted count [] feed' t with ⟨e | later, t'⟩ <;>
          rw [htake] at hchunks <;> cases hchunks
        intro chunk hchunk
        rcases List.mem_cons.mp hchunk with rfl | hchunk
        · exact ⟨s, feed, h, by rw [hpull], fun hfresh => ⟨rfl, hfresh⟩⟩
        · obtain ⟨s', feed'', hiterating, hasked, hfresh⟩ := ih hnext (by rw [htake]; rfl) chunk hchunk
          refine ⟨s', feed'', hiterating, hasked, fun hfirst => ?_⟩
          exact absurd (hfresh hfirst).2 (pull_goes_on hpull size)

theorem head_chunks {halted : Bool} {count : Option Nat} {chunks : List Bytes}
    (hwaiting : s.waiting ≠ []) (hchunks : (s.chunks halted size count).1 = .ok chunks) :
    chunks = [] ∨ ∃ later, chunks = s.waiting :: later := by
  unfold ReadStream.chunks at hchunks
  generalize s.pullBound count = bound at hchunks
  cases bound with
  | zero =>
      cases hchunks
      exact .inl rfl
  | succ bound =>
      have hfirst : pull halted (.fresh size) s =
          (.ok (some s.waiting), .opening (s.blockSize size), { s with waiting := [] }) := by
        unfold pull
        exact if_neg fun hempty => hwaiting (List.isEmpty_iff.mp hempty)
      unfold ReadStream.takeChunks at hchunks
      rw [hfirst] at hchunks
      dsimp only at hchunks
      rw [takeChunks_found] at hchunks
      rcases htake : ReadStream.takeChunks halted bound [] (.opening (s.blockSize size))
        { s with waiting := [] } with ⟨e | later, t⟩ <;> rw [htake] at hchunks
      · cases hchunks
      · cases hchunks
        exact .inr ⟨later, rfl⟩

/-- Chunks hold something, and those of an iteration without a size of its own are no longer
than a block of the stream, whatever was done with the stream before and is done between
them. Chunks of an iteration in blocks of its own are no longer than these exactly if no more
than such a block waits when the first one is asked for. -/
theorem chunks_within_blocks_iff (r : Response) (flag : Option Text) (hsize : 1 ≤ bufferSize)
    (hgiven : ∀ n, size = some n → 1 ≤ n) :
    let opened := ofResponse r bufferSize flag
    (∀ s feed halted chunk, Iterating opened size s feed →
      (pull halted feed s).1 = .ok (some chunk) →
        chunk ≠ [] ∧ (size = none → (chunk.length : Int) ≤ bufferSize) ∧
          ∀ n, size = some n →
            ((chunk.length : Int) ≤ n ↔ (feed = .fresh size → (s.waiting.length : Int) ≤ n))) ∧
    ∀ s halted count chunks, Reached opened s → (s.chunks halted size count).1 = .ok chunks →
      (∀ chunk ∈ chunks, chunk ≠ [] ∧ (size = none → (chunk.length : Int) ≤ bufferSize)) ∧
        ∀ n, size = some n →
          ((∀ chunk ∈ chunks, (chunk.length : Int) ≤ n) ↔
            chunks = [] ∨ (s.waiting.length : Int) ≤ n) := by
  intro opened
  have hopened : Snug bufferSize opened := snug_ofResponse r hsize flag
  refine ⟨fun s feed halted chunk h hchunk => h.chunk_length hsize hgiven hopened hchunk, ?_⟩
  intro s halted count chunks hreached hchunks
  have hasked := (@Iterating.begun _ size _ hreached).takeChunks hchunks
  constructor
  · intro chunk hchunk
    obtain ⟨s', feed', hiterating, hpull, _⟩ := hasked chunk hchunk
    obtain ⟨hsome, hown, _⟩ := hiterating.chunk_length hsize hgiven hopened hpull
    exact ⟨hsome, hown⟩
  · intro n hn
    constructor
    · intro hall
      by_cases hwaiting : s.waiting = []
      · right
        have hpositive := hgiven n hn
        rw [hwaiting, List.length_nil]
        omega
      · refine (head_chunks hwaiting hchunks).imp_right ?_
        rintro ⟨later, rfl⟩
        exact hall s.waiting List.mem_cons_self
    · rintro (rfl | hwaits) chunk hchunk
      · cases hchunk
      · obtain ⟨s', feed', hiterating, hpull, hfirst⟩ := hasked chunk hchunk
        obtain ⟨_, _, hle⟩ := hiterating.chunk_length hsize hgiven hopened hpull
        apply (hle n hn).mpr
        intro hfresh
        rwa [(hfirst hfresh).1]

end Iterations

/-- The six bytes, in blocks of two. -/
def sixBytesInTwos : List Bytes :=
  [[97, 98], [99, 100], [101, 102]]

theorem chunks_within_blocks_sixBytes :
    let opened := ofResponse sixBytes 6 none
    (opened.chunks false (some 2) none).1 = .ok sixBytesInTwos ∧
      ∀ chunk ∈ sixBytesInTwos, chunk ≠ [] ∧ (chunk.length : Int) ≤ 2 := by
  intro opened
  have hgiven : ∀ n : Int, some 2 = some n → 1 ≤ n := by
    rintro n ⟨⟩
    decide
  have hchunks : (opened.chunks false (some 2) none).1 = .ok sixBytesInTwos := rfl
  obtain ⟨_, hall⟩ := @chunks_within_blocks_iff 6 (some 2) sixBytes none (by decide) hgiven
  obtain ⟨hsome, hwithin⟩ := hall opened false none _ .opened hchunks
  have hnone : (opened.waiting.length : Int) ≤ 2 := by decide
  exact ⟨hchunks, fun chunk hchunk =>
    ⟨(hsome chunk hchunk).1, (hwithin 2 rfl).mpr (.inr hnone) chunk hchunk⟩⟩

/-- An iteration in blocks of two bytes, on a stream of which a read took six bytes and
handed out one: what waits is handed out in one piece. -/
theorem waiting_handed_out_whole :
    let s := ((ofResponse sixBytes 6 none).read false (some 1)).2
    ∃ chunk, (s.chunks false (some 2) none).1 = .ok [chunk] ∧ 2 < chunk.length :=
  ⟨[98, 99, 100, 101, 102], rfl, by decide⟩

end ReadStream

end DataLake
