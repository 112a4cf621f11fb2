import DataLake.Proofs.Errand

/-!
Errands of which only the status matters. The request of such an errand is sent exactly if
it can be built and signed with the credential that is loaded next, and the errand succeeds
exactly if the service then answers with an accepted status.
-/

namespace DataLake

def Exchange.Answered (statuses : List Int) (x : Exchange) : Prop :=
  ∃ r, x.response? = some r ∧ r.status ∈ statuses

namespace World

/-- The world after a credential was loaded, as far as the next one goes. -/
def afterLoad (w : World) (l : Loader) : World :=
  { w with tokens := (l.next w.tokens).2 }

end World

namespace Errand

def send (e : Errand) (b : Backend) : Action Unit :=
  Action.mapFault (e.mark b) do
    let _ ← b.perform e.operation e.accepted

/-- What sending an errand comes to: the exchange with the service, if there is one, and how
the errand ends. -/
structure Sent (e : Errand) (b : Backend) (w : World) (x? : Option Exchange)
    (out : Except Failure Unit × World) : Prop where
  passage : w.Passage x?.toList out.2
  sent_iff : x?.isSome = true ↔ b.CanSign e.operation w
  signed : ∀ x, x? = some x → b.Signs e.operation x.request
  tokens_eq : x?.isSome = true → out.2.tokens = (b.loader.next w.tokens).2
  ok_iff : out.1 = .ok () ↔ ∃ x, x? = some x ∧ x.Answered e.accepted

theorem send_eq (e : Errand) (b : Backend) (w : World) :
    e.send b w = ((e.run b w).1.map fun _ => (), (e.run b w).2) := by
  unfold send run
  rw [Action.mapFault_eq, Action.mapFault_eq]
  change ((Action.bind (b.perform e.operation e.accepted) _ w).1.mapError _,
    (Action.bind (b.perform e.operation e.accepted) _ w).2) = _
  unfold Action.bind
  rcases b.perform e.operation e.accepted w with ⟨err | r, v⟩ <;> rfl

theorem Sent.of_cannot {e : Errand} {b : Backend} {w w' : World} {err : Failure}
    (hcannot : ¬ b.CanSign e.operation w) (hpassage : w.Passage [] w') :
    e.Sent b w none (.error err, w') where
  passage := hpassage
  sent_iff := by simp [hcannot]
  signed _ h := by cases h
  tokens_eq h := by cases h
  ok_iff := by simp

/-- What the service makes of a request is accepted exactly if it answered so. -/
theorem accepted_outcome_iff (e : Errand) (x : Exchange) (depth : Nat) :
    (∃ r, (x.outcome.bind fun r => (accept e.accepted depth r).map fun _ => r) = .ok r) ↔
      x.Answered e.accepted := by
  unfold Exchange.outcome Exchange.Answered Exchange.response?
  cases hreply : x.reply with
  | none => simp [Except.bind]
  | some answer =>
      cases answer with
      | failure name => simp [Except.bind]
      | response r =>
          by_cases hstatus : r.status ∈ e.accepted <;>
            simp [Except.bind, accept, Except.map, hstatus]

theorem send_sent (e : Errand) (b : Backend) (w : World) : ∃ x?, e.Sent b w x? (e.send b w) := by
  rw [e.send_eq, e.run_eq]
  have hexchanged := b.exchange_exchanged e.operation w
  generalize b.exchange e.operation w = out at hexchanged
  cases hexchanged with
  | unbuilt err hplain =>
      refine ⟨none, .of_cannot ?_ (.refl w)⟩
      rintro ⟨_, _, _, _, hbuilt, _⟩
      rw [hplain] at hbuilt
      cases hbuilt
  | unloaded plain err tokens hplain hload =>
      refine ⟨none, .of_cannot ?_ (w.passage_after _ _ _ rfl)⟩
      rintro ⟨_, _, _, _, _, hloaded, _⟩
      rw [hload] at hloaded
      cases hloaded
  | unsigned plain c err tokens hplain hload hsign =>
      refine ⟨none, .of_cannot ?_ (w.passage_after _ _ _ rfl)⟩
      rintro ⟨_, _, _, _, hbuilt, hloaded, hsigned⟩
      rw [hplain] at hbuilt
      rw [hload] at hloaded
      cases hbuilt
      cases hloaded
      rw [hsigned] at hsign
      cases hsign
  | sent plain c x tokens hplain hload hsign hreply =>
      refine ⟨some x, w.passage_sent _ _ _ hreply, ⟨fun _ => ?_, fun _ => rfl⟩, ?_, ?_, ?_⟩
      · exact ⟨plain, c, tokens, x.request, hplain, hload, hsign⟩
      · intro y hy
        cases hy
        exact ⟨plain, c, w.now, hplain, hsign⟩
      · intro _
        rw [hload]
        rfl
      · have haccepted := e.accepted_outcome_iff x w.room.nesting
        simp only [Option.some.injEq, exists_eq_left', ← haccepted]
        generalize
          (x.outcome.bind fun r => (accept e.accepted w.room.nesting r).map fun _ => r) = result
        cases result with
        | error err => exact ⟨fun h => (by cases h), fun ⟨_, h⟩ => (by cases h)⟩
        | ok r => exact ⟨fun _ => ⟨r, rfl⟩, fun _ => rfl⟩

/-- What sending one errand and then another comes to: the second one is sent only if the
first one succeeds. -/
structure SentBoth (e e' : Errand) (b : Backend) (w : World) (first second : Option Exchange)
    (out : Except Failure Unit × World) : Prop where
  passage : w.Passage (first.toList ++ second.toList) out.2
  first_iff : first.isSome = true ↔ b.CanSign e.operation w
  first_signed : ∀ x, first = some x → b.Signs e.operation x.request
  second_iff : second.isSome = true ↔ (∃ x, first = some x ∧ x.Answered e.accepted) ∧
    b.CanSign e'.operation (w.afterLoad b.loader)
  second_signed : ∀ x, second = some x → b.Signs e'.operation x.request
  ok_iff : out.1 = .ok () ↔ ∃ x, second = some x ∧ x.Answered e'.accepted

theorem send_both (e e' : Errand) (b : Backend) (w : World) : ∃ first second,
    e.SentBoth e' b w first second ((e.send b >>= fun _ => e'.send b) w) := by
  obtain ⟨first, hpassage, hsent, hsigned, htokens, hok⟩ := e.send_sent b w
  change ∃ first second, e.SentBoth e' b w first second (Action.bind (e.send b) _ w)
  unfold Action.bind
  rcases hsend : e.send b w with ⟨err | _, v⟩ <;> rw [hsend] at hpassage htokens hok
  · refine ⟨first, none, by simpa using hpassage, hsent, hsigned, ?_, by simp, by simp⟩
    constructor
    · intro hnone
      cases hnone
    · rintro ⟨haccepted, -⟩
      cases hok.mpr haccepted
  · have haccepted := hok.mp rfl
    have hmade : first.isSome = true := by
      obtain ⟨x, rfl, -⟩ := haccepted
      rfl
    obtain ⟨second, hpassage', hsent', hsigned', -, hok'⟩ := e'.send_sent b v
    refine ⟨first, second, hpassage.trans hpassage', hsent, hsigned, ?_, hsigned', hok'⟩
    -- The second request is signed with the credential that comes after the one of the first.
    rw [hsent', Backend.canSign_congr (w := w.afterLoad b.loader) (htokens hmade) hpassage.now_eq]
    exact ⟨fun hsign => ⟨haccepted, hsign⟩, And.right⟩

end Errand

end DataLake
