import DataLake.Session
import DataLake.Proofs.ReadRun

/-!
A stream as a cursor over its body. Reads share one feed, and every iteration over
chunks makes a feed of its own over the same body; both hand out what waits in the
stream first. Without a halt flag any mixture of them hands out the body in order,
each byte once, and a step fails only when nothing is left. The sizes of blocks
decide nothing but where chunks end, as long as blocks of such a size can be read.
-/

namespace DataLake

namespace ReadStream

/-- A size in which blocks can be read: it is positive and has a word. -/
def IsBlock (n : Int) : Prop :=
  1 ≤ n ∧ Number.isWord n = true

instance (n : Int) : Decidable (IsBlock n) :=
  inferInstanceAs (Decidable (_ ∧ _))

/-- A stream over a body that is open, and of which nothing is left once its end
was noticed. -/
structure Sound (s : ReadStream) : Prop where
  block : IsBlock s.bufferSize
  opened : s.body.closed = false
  ended : s.body.ended = true → s.remaining = []

/-- A feed that can go on over the body of a stream. It may belong to the stream or
to an iteration; another feed can have read on in between. -/
inductive Fit (s : ReadStream) : Feed → Prop where
  | fresh (size : Option Int) (hsize : ∀ n, size = some n → IsBlock n) : Fit s (.fresh size)
  | opening (n : Int) (hn : IsBlock n) : Fit s (.opening n)
  | reading (n : Int) (hn : IsBlock n) : Fit s (.reading n)
  | finished (hended : s.body.ended = true) : Fit s .finished

/-- The stream when nothing waits and so much is left of its body. -/
def past (s : ReadStream) (rest : Bytes) : ReadStream :=
  { s with waiting := [], body := { s.body with rest } }

/-- The stream when the end of its body was noticed. -/
def atEnd (s : ReadStream) : ReadStream :=
  { s with waiting := [], body := { s.body with rest := [], ended := true } }

/-- How many chunks can still come: what waits is one, and each byte of the body
is in one. -/
def chunksLeft (s : ReadStream) : Nat :=
  s.body.rest.length + if s.waiting = [] then 0 else 1

@[simp] theorem past_remaining (s : ReadStream) (rest : Bytes) : (s.past rest).remaining = rest :=
  rfl

@[simp] theorem atEnd_remaining (s : ReadStream) : s.atEnd.remaining = [] :=
  rfl

@[simp] theorem past_chunksLeft (s : ReadStream) (rest : Bytes) :
    (s.past rest).chunksLeft = rest.length :=
  rfl

theorem remaining_of_waiting {s : ReadStream} (h : s.waiting = []) : s.remaining = s.body.rest := by
  simp [remaining, h]

theorem moved_on {s : ReadStream} (h : s.waiting = []) (rest : Bytes) :
    { s with body := { s.body with rest } } = s.past rest := by
  cases s
  cases h
  rfl

theorem past_rest {s : ReadStream} (h : s.waiting = []) : s.past s.body.rest = s :=
  (moved_on h s.body.rest).symm

theorem noticed_end {s : ReadStream} (hwaiting : s.waiting = []) (hrest : s.body.rest = []) :
    { s with body := { s.body with ended := true } } = s.atEnd := by
  obtain ⟨status, headers, ⟨rest, closed, ended⟩, bufferSize, flag, waiting, feed, shut⟩ := s
  cases hwaiting
  cases hrest
  rfl

theorem atEnd_eq {s : ReadStream} (hnone : s.remaining = []) (hended : s.body.ended = true) :
    s.atEnd = s := by
  obtain ⟨hwaiting, hrest⟩ := List.append_eq_nil_iff.mp hnone
  rw [← noticed_end hwaiting hrest, ← hended]

theorem close_of_ended {s : ReadStream} (h : s.body.ended = true) :
    s.close = { s with closed := true } := by
  obtain ⟨status, headers, ⟨rest, closed, ended⟩, bufferSize, flag, waiting, feed, shut⟩ := s
  cases h
  cases shut <;> simp [ReadStream.close]

theorem Fit.frame {s t : ReadStream} {feed : Feed} (h : Fit s feed)
    (hended : s.body.ended = true → t.body.ended = true) : Fit t feed := by
  cases h with
  | fresh size hsize => exact .fresh size hsize
  | opening n hn => exact .opening n hn
  | reading n hn => exact .reading n hn
  | finished h => exact .finished (hended h)

theorem Sound.past {s : ReadStream} (h : Sound s) {chunk rest : Bytes}
    (hrest : s.remaining = chunk ++ rest) : Sound (s.past rest) := by
  refine ⟨h.block, h.opened, fun hended => ?_⟩
  have hnone := h.ended hended
  rw [hrest] at hnone
  exact (List.append_eq_nil_iff.mp hnone).2

theorem Sound.atEnd {s : ReadStream} (h : Sound s) : Sound s.atEnd :=
  ⟨h.block, h.opened, fun _ => rfl⟩

/-- What a feed that can go on gives when it is asked once. -/
inductive Yields (s : ReadStream) : Pulled → Prop where
  | chunk {chunk rest : Bytes} {feed : Feed} (hchunk : chunk ≠ [])
      (hrest : s.remaining = chunk ++ rest) (hless : rest.length < s.chunksLeft)
      (hfit : Fit (s.past rest) feed) : Yields s (.ok (some chunk), feed, s.past rest)
  | ended (hnone : s.remaining = []) : Yields s (.ok none, .finished, s.atEnd)
  | spent (hended : s.body.ended = true) : Yields s (.error .alreadyRead, .finished, s)

section Pull

variable {s : ReadStream} {n : Int}

theorem pullBlock_yields (h : Sound s) (hn : IsBlock n) (hwaiting : s.waiting = []) :
    Yields s (pullBlock false n s) := by
  have hblock : block n s.body.rest = s.body.rest.take n.toNat := by
    have hn := hn.1
    unfold block
    rw [if_neg (by omega)]
  unfold pullBlock
  rw [if_neg (by simp [hn.2]), if_neg (by simp [h.opened]), hblock]
  dsimp only
  split
  · next hempty =>
    have hnone : s.body.rest = [] := by
      rcases List.take_eq_nil_iff.mp (List.isEmpty_iff.mp hempty) with hzero | hnone
      · have hn := hn.1
        omega
      · exact hnone
    rw [noticed_end hwaiting hnone]
    exact .ended (by rw [remaining_of_waiting hwaiting, hnone])
  · next hchunk =>
    replace hchunk : s.body.rest.take n.toNat ≠ [] := fun hnone =>
      hchunk (List.isEmpty_iff.mpr hnone)
    have hsplit : s.body.rest = s.body.rest.take n.toNat ++
        s.body.rest.drop (s.body.rest.take n.toNat).length :=
      (List.prefix_iff_eq_append.mp (List.take_prefix _ _)).symm
    rw [if_neg Bool.false_ne_true, moved_on hwaiting]
    refine .chunk hchunk ?_ ?_ (.reading n hn)
    · rw [remaining_of_waiting hwaiting]
      exact hsplit
    · have hlength := congrArg List.length hsplit
      have hpositive := List.length_pos_iff.mpr hchunk
      rw [List.length_append] at hlength
      simp only [chunksLeft, hwaiting, if_true]
      omega

theorem openBody_yields (h : Sound s) (hn : IsBlock n) (hwaiting : s.waiting = []) :
    Yields s (openBody false n s) := by
  unfold openBody
  split
  · next hended => exact .spent hended
  · exact pullBlock_yields h hn hwaiting

theorem Sound.blockSize (h : Sound s) {size : Option Int}
    (hsize : ∀ n, size = some n → IsBlock n) : IsBlock (s.blockSize size) := by
  cases size with
  | none => exact h.block
  | some n =>
      have hn := hsize n rfl
      have hpositive := hn.1
      unfold ReadStream.blockSize
      simp only
      rw [if_neg (by omega)]
      exact hn

theorem pull_yields {feed : Feed} (h : Sound s) (hfit : Fit s feed)
    (hwaiting : s.waiting = [] ∨ ∃ size, feed = .fresh size) : Yields s (pull false feed s) := by
  cases hfit with
  | fresh size hsize =>
      have hblock := h.blockSize hsize
      unfold pull
      simp only
      split
      · next hempty => exact openBody_yields h hblock (List.isEmpty_iff.mp hempty)
      · next hsome =>
        have hsome : s.waiting ≠ [] := fun hnone => hsome (List.isEmpty_iff.mpr hnone)
        have hsplit : s.remaining = s.waiting ++ s.body.rest := rfl
        refine .chunk hsome hsplit ?_ (.opening _ hblock)
        simp [chunksLeft, hsome]
  | opening n hn => exact openBody_yields h hn (hwaiting.resolve_right (by simp))
  | reading n hn => exact pullBlock_yields h hn (hwaiting.resolve_right (by simp))
  | finished hended =>
      have hnone := h.ended hended
      have hyields := Yields.ended hnone
      rwa [atEnd_eq hnone hended] at hyields

end Pull

/-- What gathering from a feed that can go on comes to. Less than is needed is
gathered only if it is everything. -/
inductive Gathered (need : Option Nat) (s : ReadStream) :
    Except Failure (List Bytes) × Feed × ReadStream → Prop where
  | enough {chunks : List Bytes} {rest : Bytes} {feed : Feed} {n : Nat} (hneed : need = some n)
      (hn : n ≤ chunks.flatten.length) (hrest : s.remaining = chunks.flatten ++ rest)
      (hfit : Fit (s.past rest) feed) : Gathered need s (.ok chunks, feed, s.past rest)
  | all {chunks : List Bytes} (hrest : s.remaining = chunks.flatten)
      (hless : ∀ n, need = some n → chunks.flatten.length < n) :
      Gathered need s (.ok chunks, .finished, s.atEnd)
  | spent (hended : s.body.ended = true) : Gathered need s (.error .alreadyRead, .finished, s)

theorem Gathered.nothing {need : Option Nat} {s : ReadStream} {feed : Feed} {n : Nat}
    (hfit : Fit s feed) (hwaiting : s.waiting = []) (hneed : need = some n) (hn : n ≤ 0) :
    Gathered need s (.ok [], feed, s) := by
  have hsame := past_rest hwaiting
  rw [← hsame] at hfit
  have henough : Gathered need s (.ok [], feed, s.past s.body.rest) :=
    .enough hneed hn (remaining_of_waiting hwaiting) hfit
  rwa [hsame] at henough

/-- A chunk in front of what gathering the rest comes to. -/
theorem Gathered.cons {need : Option Nat} {s t : ReadStream} {chunk rest : Bytes} {feed : Feed}
    {result : Except Failure (List Bytes)} (hs : Sound s) (hchunk : chunk ≠ [])
    (hrest : s.remaining = chunk ++ rest)
    (h : Gathered (need.map (· - chunk.length)) (s.past rest) (result, feed, t)) :
    Gathered need s (result.map (chunk :: ·), feed, t) := by
  cases h with
  | @enough chunks rest' _ m hneed hm hrest' hfit =>
      obtain ⟨n, rfl, rfl⟩ := Option.map_eq_some_iff.mp hneed
      refine .enough rfl ?_ ?_ hfit
      · rw [List.flatten_cons, List.length_append]
        omega
      · rw [past_remaining] at hrest'
        rw [hrest, hrest', List.flatten_cons, List.append_assoc]
  | @all chunks hrest' hless =>
      refine .all (by rw [hrest, ← past_remaining s rest, hrest', List.flatten_cons]) ?_
      intro n hn
      have hlength := hless (n - chunk.length) (by rw [hn, Option.map_some])
      rw [List.flatten_cons, List.length_append]
      omega
  | spent hended =>
      -- A chunk came, so the end of the body was not noticed before.
      have hnone := hs.ended hended
      rw [hrest] at hnone
      exact absurd (List.append_eq_nil_iff.mp hnone).1 hchunk

/-- Gathering goes on until there is enough, given a step for each byte. -/
theorem gather_gathered {s : ReadStream} {feed : Feed} (need : Option Nat) (fuel : Nat)
    (h : Sound s) (hfit : Fit s feed) (hwaiting : s.waiting = [])
    (hfuel : need.getD (s.body.rest.length + 1) ≤ fuel) :
    Gathered need s (gather false need fuel [] feed s) := by
  induction fuel generalizing need feed s with
  | zero =>
      cases need with
      | none => simp at hfuel
      | some n => exact Gathered.nothing hfit hwaiting rfl (by simpa using hfuel)
  | succ fuel ih =>
      unfold gather
      split
      · next hneed => exact Gathered.nothing hfit hwaiting hneed (Nat.le_refl 0)
      · next hmore =>
        have hyields := pull_yields h hfit (.inl hwaiting)
        rcases hpull : pull false feed s with ⟨e | _ | chunk, feed', t⟩
        · rw [hpull] at hyields
          cases hyields with
          | spent hended => exact .spent hended
        · rw [hpull] at hyields
          cases hyields with
          | ended hnone =>
              refine .all hnone fun n hn => ?_
              have hpositive : n ≠ 0 := fun hzero => hmore (by rw [hn, hzero])
              exact Nat.pos_of_ne_zero hpositive
        · rw [hpull] at hyields
          cases hyields with
          | @chunk _ rest _ hchunk hrest hless hfit' =>
              have hsound := h.past hrest
              have hlength : 0 < chunk.length := List.length_pos_iff.mpr hchunk
              have hfuel' : (need.map (· - chunk.length)).getD (rest.length + 1) ≤ fuel := by
                simp only [chunksLeft, hwaiting, if_true] at hless
                cases need with
                | none =>
                    simp only [Option.map_none, Option.getD_none] at hfuel ⊢
                    omega
                | some n =>
                    simp only [Option.map_some, Option.getD_some] at hfuel ⊢
                    omega
              simp only
              rw [gather_found]
              exact Gathered.cons h hchunk hrest (ih _ hsound hfit' rfl hfuel')

/-- A stream that any step can go on with. -/
structure Intact (s : ReadStream) : Prop extends Sound s where
  fit : Fit s (s.feed.getD (.fresh none))

/-- A read gives what it wants of the bytes that are left, or finds that all of them
were handed out already. -/
theorem Intact.read {s : ReadStream} (h : Intact s) (size : Option Int) :
    ∃ result t, s.read false size = (result, t) ∧ Intact t ∧
      ((result = .ok (portion (wanted size) s.remaining) ∧
          portion (wanted size) s.remaining ++ t.remaining = s.remaining) ∨
        (result = .error .alreadyRead ∧ s.remaining = [] ∧ t.remaining = [])) := by
  -- What is waiting goes first, and chunks are gathered for what is wanted beyond it.
  obtain ⟨s₀, hs₀⟩ : ∃ s₀, { s with waiting := [] } = s₀ := ⟨_, rfl⟩
  have hsound : Sound s₀ := by
    rw [← hs₀]
    exact ⟨h.block, h.opened, fun hended => (List.append_eq_nil_iff.mp (h.ended hended)).2⟩
  have hfit : Fit s₀ (s.feed.getD (.fresh none)) := by
    rw [← hs₀]
    exact h.fit.frame id
  have hrest : s.remaining = s.waiting ++ s₀.remaining := by
    rw [← hs₀]
    rfl
  have hended : s₀.body.ended = true → s.remaining = [] := by
    rw [← hs₀]
    exact h.ended
  generalize hneed : (wanted size).map (fun n => n - (s.waiting.take n).length) = need
  have hfuel : need.getD (s₀.body.rest.length + 1) ≤ pullBound s₀ need := by
    cases need <;> simp [pullBound]
  have hgathered := gather_gathered need _ hsound hfit (by rw [← hs₀]) hfuel
  rw [read_eq, hs₀, hneed]
  rcases hgather : gather false need (pullBound s₀ need) [] (s.feed.getD (.fresh none)) s₀ with
    ⟨result, feed, t⟩
  rw [hgather] at hgathered
  cases hgathered with
  | @enough chunks rest _ n hn hle hsplit hfit' =>
      rw [← hneed] at hn
      obtain ⟨m, hm, rfl⟩ := Option.map_eq_some_iff.mp hn
      obtain ⟨htake, hdrop⟩ := portion_of_gathered s.waiting hsplit (.inr hle)
      rw [← hrest] at htake hdrop
      have hwhole : portion (some m) s.remaining ++
          ((s.waiting ++ chunks.flatten).drop m ++ rest) = s.remaining := by
        rw [hdrop]
        exact List.take_append_drop m s.remaining
      simp only [hm]
      refine ⟨_, _, rfl, ⟨⟨hsound.block, hsound.opened, fun hend => ?_⟩, hfit'.frame id⟩,
        .inl ⟨by rw [htake]; rfl, hwhole⟩⟩
      rw [hended hend] at hwhole
      exact (List.append_eq_nil_iff.mp hwhole).2
  | @all chunks hall hless =>
      have hleft : s.waiting ++ chunks.flatten = s.remaining := by
        rw [hrest, hall]
      have hend : Intact { s₀.atEnd with feed := some .finished } :=
        ⟨⟨hsound.block, hsound.opened, fun _ => rfl⟩, .finished rfl⟩
      simp only
      rw [hleft]
      cases hwanted : wanted size with
      | none =>
          simp only
          rw [close_of_ended rfl]
          refine ⟨_, _, rfl, ⟨⟨hsound.block, hsound.opened, fun _ => rfl⟩, .finished rfl⟩,
            .inl ⟨rfl, List.append_nil _⟩⟩
      | some n =>
          have hshort : s.remaining.length ≤ n := by
            have hlength := hless (n - (s.waiting.take n).length) (by rw [← hneed, hwanted]; rfl)
            rw [← hleft, List.length_append]
            rw [List.length_take] at hlength
            omega
          have hnothing : s.remaining.drop n = [] := List.drop_of_length_le hshort
          simp only
          rw [hnothing, List.take_of_length_le hshort]
          refine ⟨_, _, rfl, hend, .inl ⟨?_, ?_⟩⟩
          · change _ = Except.ok (s.remaining.take n)
            rw [List.take_of_length_le hshort]
          · change s.remaining.take n ++ [] = s.remaining
            rw [List.append_nil, List.take_of_length_le hshort]
  | spent hend =>
      have hnone := hended hend
      refine ⟨_, _, rfl, ⟨⟨hsound.block, hsound.opened, hsound.ended⟩, .finished hend⟩,
        .inr ⟨rfl, hnone, ?_⟩⟩
      exact hsound.ended hend

/-- A stream as it may be left by an iteration over another one of its chunks. -/
structure Reaches (s t : ReadStream) : Prop where
  sound : Sound t
  feed_eq : t.feed = s.feed
  ended : s.body.ended = true → t.body.ended = true

theorem Reaches.intact {s t : ReadStream} (h : Reaches s t) (hs : Intact s) : Intact t := by
  refine ⟨h.sound, ?_⟩
  rw [h.feed_eq]
  exact hs.fit.frame h.ended

/-- What taking chunks from a feed of their own comes to. Fewer than the bound are
taken only if they are everything. -/
inductive Took (bound : Nat) (s : ReadStream) : Except Failure (List Bytes) × ReadStream → Prop where
  | taken {chunks : List Bytes} {t : ReadStream} (hreaches : Reaches s t)
      (hrest : s.remaining = chunks.flatten ++ t.remaining) (hchunks : [] ∉ chunks)
      (hbound : chunks.length ≤ bound) (hleft : chunks.length ≤ s.chunksLeft)
      (hall : chunks.length = bound ∨ t.remaining = []) : Took bound s (.ok chunks, t)
  | spent (hended : s.body.ended = true) : Took bound s (.error .alreadyRead, s)

theorem takeChunks_found (halted : Bool) (count : Nat) (found : List Bytes) (feed : Feed)
    (s : ReadStream) :
    takeChunks halted count found feed s =
      match takeChunks halted count [] feed s with
      | (result, t) => (result.map (found.reverse ++ ·), t) := by
  induction count generalizing found feed s with
  | zero => simp [takeChunks, Except.map]
  | succ count ih =>
      unfold takeChunks
      rcases hpull : pull halted feed s with ⟨e | _ | chunk, feed', s'⟩
      · rfl
      · simp [Except.map]
      · simp only
        rw [ih (chunk :: found), ih [chunk]]
        rcases takeChunks halted count [] feed' s' with ⟨e | chunks, _⟩
        · rfl
        · simp [Except.map]

theorem takeChunks_took {s : ReadStream} {feed : Feed} (bound : Nat) (h : Sound s)
    (hfit : Fit s feed) (hwaiting : s.waiting = [] ∨ ∃ size, feed = .fresh size) :
    Took bound s (takeChunks false bound [] feed s) := by
  induction bound generalizing feed s with
  | zero =>
      exact .taken ⟨h, rfl, id⟩ rfl List.not_mem_nil (Nat.le_refl 0) (Nat.zero_le _) (.inl rfl)
  | succ bound ih =>
      have hyields := pull_yields h hfit hwaiting
      unfold takeChunks
      rcases hpull : pull false feed s with ⟨e | _ | chunk, feed', t⟩
      · rw [hpull] at hyields
        cases hyields with
        | spent hended => exact .spent hended
      · rw [hpull] at hyields
        cases hyields with
        | ended hnone =>
            exact .taken ⟨h.atEnd, rfl, fun _ => rfl⟩ hnone List.not_mem_nil (Nat.zero_le _)
              (Nat.zero_le _) (.inr rfl)
      · rw [hpull] at hyields
        cases hyields with
        | @chunk _ rest _ hchunk hrest hless hfit' =>
            have hsound := h.past hrest
            have htook := ih hsound hfit' (.inl rfl)
            simp only
            rw [takeChunks_found]
            rcases htake : takeChunks false bound [] feed' (s.past rest) with ⟨result, t⟩
            rw [htake] at htook
            cases htook with
            | @taken chunks _ hreaches hrest' hchunks hbound hleft hall =>
                refine .taken ⟨hreaches.sound, hreaches.feed_eq, hreaches.ended⟩ ?_ ?_ ?_ ?_ ?_
                · rw [hrest, ← past_remaining s rest, hrest']
                  simp
                · simp [hchunks, Ne.symm hchunk]
                · simpa using hbound
                · rw [past_chunksLeft] at hleft
                  simp only [List.reverse_cons, List.reverse_nil, List.nil_append,
                    List.singleton_append, List.length_cons]
                  omega
                · simpa using hall
            | spent hended =>
                -- A chunk came, so the end of the body was not noticed before.
                have hnone := h.ended hended
                rw [hrest] at hnone
                exact absurd (List.append_eq_nil_iff.mp hnone).1 hchunk

/-- An iteration hands out chunks in order, all of them unless it is left before; it
fails only if the whole body was handed out before. -/
theorem Intact.chunks {s : ReadStream} (h : Intact s) {size : Option Int}
    (hsize : ∀ n, size = some n → IsBlock n) (count : Option Nat) :
    ∃ result t, s.chunks false size count = (result, t) ∧ Intact t ∧
      ((∃ chunks, result = .ok chunks ∧ chunks.flatten ++ t.remaining = s.remaining ∧
          [] ∉ chunks ∧ (∀ k, count = some k → chunks.length ≤ k) ∧
          (count = some chunks.length ∨ t.remaining = [])) ∨
        (result = .error .alreadyRead ∧ s.remaining = [] ∧ t.remaining = [])) := by
  have htook := takeChunks_took (s.pullBound count) h.toSound (.fresh size hsize) (.inr ⟨size, rfl⟩)
  unfold ReadStream.chunks
  rcases htake : takeChunks false (s.pullBound count) [] (.fresh size) s with ⟨result, t⟩
  rw [htake] at htook
  cases htook with
  | @taken chunks _ hreaches hrest hchunks hbound hleft hall =>
      refine ⟨_, _, rfl, hreaches.intact h, .inl ⟨chunks, rfl, hrest.symm, hchunks, ?_, ?_⟩⟩
      · rintro k rfl
        exact hbound
      · cases count with
        | some k => exact hall.imp_left fun hlength => by rw [hlength]; rfl
        | none =>
            -- There are fewer chunks than steps when all of them are asked for.
            refine .inr (hall.resolve_left fun hlength => ?_)
            have hmany : chunks.length = s.body.rest.length + 2 := hlength
            unfold chunksLeft at hleft
            split at hleft <;> omega
  | spent hended => exact ⟨_, _, rfl, h, .inr ⟨rfl, h.ended hended, h.ended hended⟩⟩

/-- A stream that was just opened over the body of a response. -/
theorem Intact.ofResponse (r : Response) {bufferSize : Int} (hsize : IsBlock bufferSize)
    (flag : Option Text) : Intact (ofResponse r bufferSize flag) :=
  ⟨⟨hsize, rfl, fun hended => by cases hended⟩, .fresh none fun n hn => by cases hn⟩

end ReadStream

def Outcome.delivered : Outcome → Bytes
  | bytes b => b
  | chunks c => c.flatten
  | _ => []

namespace StreamStep

/-- A step before a stream is closed, with blocks of a size that can be read. -/
def Goes : StreamStep → Prop
  | chunks size _ => ∀ n, size = some n → ReadStream.IsBlock n
  | read _ | status | header _ => True
  | close => False

structure Turn where
  step : StreamStep
  result : Except Failure Outcome

namespace Turn

def delivered (turn : Turn) : Bytes :=
  turn.result.toOption.elim [] Outcome.delivered

/-- A turn on a stream whose cursor stands before the bytes that are left. -/
structure Advances (turn : Turn) (left : Bytes) : Prop where
  /-- What is handed out comes next. -/
  ordered : turn.delivered <+: left
  /-- A read that returns gives what it wants of the bytes that are left. -/
  read : ∀ size outcome, turn.step = .read size → turn.result = .ok outcome →
    outcome = .bytes (ReadStream.portion (ReadStream.wanted size) left)
  /-- Chunks hold something, and there are as many as are asked for or they are everything. -/
  chunks : ∀ size count outcome, turn.step = .chunks size count → turn.result = .ok outcome →
    ∃ chunks, outcome = .chunks chunks ∧ [] ∉ chunks ∧ (∀ k, count = some k → chunks.length ≤ k) ∧
      (count = some chunks.length ∨ chunks.flatten = left)
  /-- A step fails only when nothing is left. -/
  raised : ∀ e, turn.result = .error e → e = .alreadyRead ∧ left = []

theorem Advances.of_nothing_left (step : StreamStep) : Advances ⟨step, .error .alreadyRead⟩ [] := by
  refine ⟨List.nil_prefix, ?_, ?_, ?_⟩
  · intro _ _ _ hresult
    cases hresult
  · intro _ _ _ _ hresult
    cases hresult
  · intro e he
    cases he
    exact ⟨rfl, rfl⟩

end Turn

end StreamStep

namespace ReadStream

open StreamStep

def turns (s : ReadStream) : List StreamStep → List Turn × ReadStream
  | [] => ([], s)
  | step :: steps =>
      match step.run false s with
      | (result, s) =>
          match s.turns steps with
          | (rest, s) => ({ step, result } :: rest, s)

def handedOut (turns : List Turn) : Bytes :=
  turns.flatMap Turn.delivered

theorem handedOut_cons (turn : Turn) (turns : List Turn) :
    handedOut (turn :: turns) = turn.delivered ++ handedOut turns := rfl

theorem Intact.turn {s : ReadStream} (h : Intact s) {step : StreamStep} (hstep : step.Goes) :
    let (result, t) := step.run false s
    Intact t ∧ Turn.delivered ⟨step, result⟩ ++ t.remaining = s.remaining ∧
      Turn.Advances ⟨step, result⟩ s.remaining := by
  have hnothing {step : StreamStep} {outcome : Outcome} (hnone : outcome.delivered = [])
      (hread : ∀ size, step ≠ .read size) (hchunks : ∀ size count, step ≠ .chunks size count) :
      Turn.delivered ⟨step, .ok outcome⟩ ++ s.remaining = s.remaining ∧
        Turn.Advances ⟨step, .ok outcome⟩ s.remaining := by
    have hdelivered : Turn.delivered ⟨step, .ok outcome⟩ = [] := hnone
    rw [hdelivered]
    refine ⟨rfl, ⟨by rw [hdelivered]; exact List.nil_prefix, ?_, ?_, ?_⟩⟩
    · intro size _ heq
      exact absurd heq (hread size)
    · intro size count _ heq
      exact absurd heq (hchunks size count)
    · intro e he
      cases he
  cases step with
  | read size =>
      obtain ⟨result, t, hread, hintact, ⟨rfl, hrest⟩ | ⟨rfl, hnone, hleft⟩⟩ := h.read size
      · simp only [StreamStep.run, hread]
        refine ⟨hintact, hrest, ⟨⟨_, hrest⟩, ?_, ?_, ?_⟩⟩
        · intro size' _ hsize hresult
          cases hsize
          cases hresult
          rfl
        · intro _ _ _ heq
          cases heq
        · intro e he
          cases he
      · simp only [StreamStep.run, hread]
        rw [hnone]
        exact ⟨hintact, hleft, .of_nothing_left _⟩
  | chunks size count =>
      obtain ⟨result, t, htake, hintact, hresult⟩ := h.chunks hstep count
      obtain ⟨chunks, rfl, hrest, hsome, hcount, hall⟩ | ⟨rfl, hnone, hleft⟩ := hresult
      · simp only [StreamStep.run, htake]
        refine ⟨hintact, hrest, ⟨⟨_, hrest⟩, ?_, ?_, ?_⟩⟩
        · intro _ _ heq
          cases heq
        · intro size' count' _ heq hresult
          cases heq
          cases hresult
          refine ⟨chunks, rfl, hsome, hcount, hall.imp_right fun hleft => ?_⟩
          rw [← hrest, hleft, List.append_nil]
        · intro e he
          cases he
      · simp only [StreamStep.run, htake]
        rw [hnone]
        exact ⟨hintact, hleft, .of_nothing_left _⟩
  | status => exact ⟨h, hnothing rfl (by simp) (by simp)⟩
  | header name => exact ⟨h, hnothing rfl (by simp) (by simp)⟩
  | close => exact hstep.elim

theorem Intact.turns {s : ReadStream} (h : Intact s) {steps : List StreamStep}
    (hsteps : ∀ step ∈ steps, step.Goes) :
    let (turns, t) := s.turns steps
    turns.map Turn.step = steps ∧ handedOut turns ++ t.remaining = s.remaining ∧
      ∀ before turn after, turns = before ++ turn :: after →
        turn.Advances (s.remaining.drop (handedOut before).length) := by
  induction steps generalizing s with
  | nil =>
      refine ⟨rfl, rfl, fun before turn after hsplit => ?_⟩
      have hlength := congrArg List.length hsplit
      simp at hlength
  | cons step steps ih =>
      have hturn := h.turn (hsteps step List.mem_cons_self)
      unfold ReadStream.turns
      rcases hrun : step.run false s with ⟨result, t⟩
      rw [hrun] at hturn
      obtain ⟨hintact, hmoved, hadvances⟩ := hturn
      have hrest := ih hintact fun next hnext => hsteps next (List.mem_cons_of_mem step hnext)
      rcases hturns : t.turns steps with ⟨turns, t'⟩
      rw [hturns] at hrest
      obtain ⟨hsame, hbody, hall⟩ := hrest
      simp only [hturns]
      refine ⟨by rw [List.map_cons, hsame], ?_, fun before turn after hsplit => ?_⟩
      · rw [← hmoved, ← hbody, ← List.append_assoc]
        rfl
      · cases before with
        | nil =>
            cases hsplit
            exact hadvances
        | cons first before =>
            rw [List.cons_append, List.cons.injEq] at hsplit
            obtain ⟨rfl, hlater⟩ := hsplit
            have hcursor : s.remaining.drop (handedOut (⟨step, result⟩ :: before)).length =
                t.remaining.drop (handedOut before).length := by
              rw [handedOut_cons, List.length_append, ← hmoved, ← List.drop_drop, List.drop_left]
            rw [hcursor]
            exact hall before turn after hlater

/-- Reads and iterations over chunks in any order move one cursor over the body: each
hands out what comes next, and none fails before everything was handed out. -/
theorem turns_advance (r : Response) {bufferSize : Int} (hsize : IsBlock bufferSize)
    {steps : List StreamStep} (hsteps : ∀ step ∈ steps, step.Goes) :
    let (turns, s) := (ofResponse r bufferSize none).turns steps
    turns.map Turn.step = steps ∧ handedOut turns ++ s.remaining = r.body ∧
      ∀ before turn after, turns = before ++ turn :: after →
        turn.Advances (r.body.drop (handedOut before).length) :=
  (Intact.ofResponse r hsize none).turns hsteps

/-- Reads and iterations in turns; the last iteration finds nothing left. -/
def mixedSteps : List StreamStep :=
  [.read (some 1), .chunks (some 3) (some 1), .read (some 0), .read none, .chunks none none]

theorem turns_advance_mixedSteps :
    let (turns, s) := (ofResponse sixBytes 2 none).turns mixedSteps
    turns.map Turn.step = mixedSteps ∧ handedOut turns ++ s.remaining = sixBytes.body ∧
      ∀ before turn after, turns = before ++ turn :: after →
        turn.Advances (sixBytes.body.drop (handedOut before).length) :=
  @turns_advance sixBytes 2 (by decide) mixedSteps
    (by simp [mixedSteps, Goes, IsBlock, Number.isWord])

/-- No block of a size without a word can be read: the first read fails, though
every byte is left. -/
theorem read_raises_for_oversize_blocks :
    let (turns, s) := (ofResponse sixBytes 0x8000000000000000 none).turns [.read (some 1)]
    turns.map Turn.result = [.error .numberTooLarge] ∧ s.remaining = sixBytes.body :=
  ⟨rfl, rfl⟩

end ReadStream

end DataLake
