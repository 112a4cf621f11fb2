import DataLake.Proofs.StepPlan

/-!
Replays. With a shared key, what a step does is settled by the time, by the room of the
machine, by the flag of its object and by the answers that it is given: it does the same in
every other world that agrees on these, whatever else there is.
-/

namespace DataLake

namespace World

/-- A world in which the passage of another one can be gone through again. The time and the
room are the same, and the service has its answers in store; it has later ones only if it was
not out of answers at the end of the other passage. -/
structure Offers (v w : World) (xs : List Exchange) (w' : World) (later : List Answer) : Prop where
  now_eq : v.now = w.now
  room_eq : v.room = w.room
  answers_eq : v.answers = xs.filterMap Exchange.reply ++ later
  ends : w'.answers = [] → later = []

variable {u v w w' w'' : World} {xs ys : List Exchange} {later : List Answer}

theorem Offers.first (h : v.Offers w (xs ++ ys) w'' later) (hrest : w'.Passage ys w'') :
    v.Offers w xs w' (ys.filterMap Exchange.reply ++ later) := by
  refine ⟨h.now_eq, h.room_eq, ?_, fun hnone => ?_⟩
  · rw [h.answers_eq, List.filterMap_append, List.append_assoc]
  · obtain ⟨hreplies, hlast⟩ := hrest.replies_eq_nil hnone
    rw [hreplies, h.ends hlast, List.append_nil]

theorem Offers.answers_left (h : v.Offers w xs w' later) (hfirst : v.Passage xs u) :
    u.answers = later :=
  List.append_cancel_left (hfirst.answers_eq.symm.trans h.answers_eq)

theorem Offers.rest (h : v.Offers w (xs ++ ys) w'' later) (hfirst : w.Passage xs w')
    (hrest : w'.Passage ys w'') (hagain : v.Passage xs u) : u.Offers w' ys w'' later :=
  ⟨hagain.now_eq.trans (h.now_eq.trans hfirst.now_eq.symm),
    hagain.room_eq.trans (h.room_eq.trans hfirst.room_eq.symm),
    (h.first hrest).answers_left hagain, h.ends⟩

/-- The service gives the same answer to the same request. -/
theorem Offers.head_eq {r : Request} (h : v.Offers w [⟨r, w.answers.head?⟩] w' later)
    (hleft : w'.answers = w.answers.tail) : v.answers.head? = w.answers.head? := by
  rw [h.answers_eq]
  cases hanswers : w.answers with
  | nil => simp [h.ends (by rw [hleft, hanswers]; rfl)]
  | cons answer rest => rfl

theorem Passage.unique (h : w.Passage xs w') (h' : w.Passage ys w') : ys = xs :=
  List.append_cancel_left (h'.exchanges_eq.symm.trans h.exchanges_eq)

end World

section SharedKey

variable {b : Backend} {name key : Text}

/-- With a shared key every request is signed with the same credential. -/
theorem Backend.exchange_sharedKey (hlogin : b.loader.login = .sharedKey name key)
    (op : Operation) (w : World) :
    let c : Credential := { accountName := some name, accountKey := some key }
    b.exchange op w =
      match op.request b.location with
      | .error e => (.error e, w)
      | .ok plain =>
          match Signing.sign b.version w.now c plain with
          | (_, .error e) => (.error e, w.after b.loader w.supply [.unsigned c])
          | (r, .ok _) =>
              let x : Exchange := ⟨r, w.answers.head?⟩
              (x.outcome, w.after b.loader ⟨w.answers.tail, w.tokens⟩ [.sent c x]) := by
  intro c
  have hnext (tokens : List TokenAnswer) : b.loader.next tokens = (.ok c, tokens) := by
    unfold Loader.next
    rw [hlogin]
  rw [b.exchange_eq, hnext]
  rfl

/-- Carrying out an operation does the same again where the same answers are offered. -/
theorem Backend.exchange_replays (hlogin : b.loader.login = .sharedKey name key)
    (op : Operation) (w : World) :
    ∃ xs, w.Passage xs (b.exchange op w).2 ∧
      ∀ v later, v.Offers w xs (b.exchange op w).2 later →
        (b.exchange op v).1 = (b.exchange op w).1 ∧ v.Passage xs (b.exchange op v).2 := by
  let c : Credential := { accountName := some name, accountKey := some key }
  have hrun := b.exchange_sharedKey hlogin op
  cases hplain : op.request b.location with
  | error e =>
      simp only [hplain] at hrun
      simp only [hrun]
      exact ⟨[], .refl w, fun v _ _ => ⟨trivial, .refl v⟩⟩
  | ok plain =>
      simp only [hplain] at hrun
      rcases hsign : Signing.sign b.version w.now c plain with ⟨r, e | _⟩
      · have hsame (v : World) (hnow : v.now = w.now) :
            b.exchange op v = (.error e, v.after b.loader v.supply [.unsigned c]) := by
          rw [hrun, hnow, hsign]
        rw [hsame w rfl]
        refine ⟨[], w.passage_after _ _ _ rfl, fun v later hoffers => ?_⟩
        rw [hsame v hoffers.now_eq]
        exact ⟨rfl, v.passage_after _ _ _ rfl⟩
      · have hsame (v : World) (hnow : v.now = w.now) :
            b.exchange op v = ((Exchange.mk r v.answers.head?).outcome,
              v.after b.loader ⟨v.answers.tail, v.tokens⟩ [.sent c ⟨r, v.answers.head?⟩]) := by
          rw [hrun, hnow, hsign]
        rw [hsame w rfl]
        refine ⟨[⟨r, w.answers.head?⟩], w.passage_sent _ _ c rfl, fun v later hoffers => ?_⟩
        rw [hsame v hoffers.now_eq, hoffers.head_eq rfl]
        exact ⟨rfl, v.passage_sent _ _ c (hoffers.head_eq rfl).symm⟩

theorem Errand.run_replays (hlogin : b.loader.login = .sharedKey name key) (e : Errand)
    (w : World) :
    ∃ xs, w.Passage xs (e.run b w).2 ∧
      ∀ v later, v.Offers w xs (e.run b w).2 later →
        (e.run b v).1 = (e.run b w).1 ∧ v.Passage xs (e.run b v).2 := by
  obtain ⟨xs, hxs, hagain⟩ := b.exchange_replays hlogin e.operation w
  simp only [e.run_eq]
  refine ⟨xs, hxs, fun v later hoffers => ?_⟩
  obtain ⟨hresult, hpassage⟩ := hagain v later hoffers
  rw [hresult, hoffers.room_eq]
  exact ⟨rfl, hpassage⟩

/-- The two parts of a plan's outcome that are no world are the same, and so are the exchanges. -/
theorem Plan.run_replays (hlogin : b.loader.login = .sharedKey name key) {α σ : Type}
    {flag : Option Text} (p : Plan α σ) (w : World) :
    ∃ xs, w.Passage xs (p.run b flag w).2.2 ∧
      ∀ v later, v.isRaised flag = w.isRaised flag → v.Offers w xs (p.run b flag w).2.2 later →
        (p.run b flag v).1 = (p.run b flag w).1 ∧ (p.run b flag v).2.1 = (p.run b flag w).2.1 ∧
          v.Passage xs (p.run b flag v).2.2 := by
  induction p generalizing w with
  | done r s => exact ⟨[], .refl w, fun v _ _ _ => ⟨rfl, rfl, .refl v⟩⟩
  | look next ih =>
      obtain ⟨xs, hxs, hagain⟩ := ih (w.isRaised flag) w.room w
      refine ⟨xs, hxs, fun v later hflag hoffers => ?_⟩
      have hlook (v : World) :
          (look next).run b flag v = (next (v.isRaised flag) v.room).run b flag v := rfl
      rw [hlook v, hlook w, hflag, hoffers.room_eq]
      exact hagain v later hflag hoffers
  | errand e next ih =>
      obtain ⟨xs, hxs, hfirst⟩ := e.run_replays hlogin w
      obtain ⟨ys, hys, hrest⟩ := ih (e.run b w).1 (e.run b w).2
      refine ⟨xs ++ ys, hxs.trans hys, fun v later hflag hoffers => ?_⟩
      obtain ⟨hresult, hagain⟩ := hfirst v _ (hoffers.first hys)
      have hflags : (e.run b v).2.isRaised flag = (e.run b w).2.isRaised flag := by
        rw [hagain.isRaised_eq, hxs.isRaised_eq, hflag]
      have herrand (v : World) :
          (errand e next).run b flag v = (next (e.run b v).1).run b flag (e.run b v).2 := rfl
      obtain ⟨hvalue, hobject, hpassage⟩ := hrest _ later hflags (hoffers.rest hxs hys hagain)
      rw [herrand v, herrand w, hresult]
      exact ⟨hvalue, hobject, hagain.trans hpassage⟩

/-- A step that is no raising of a flag does the same again, with the same object before it. -/
theorem Step.carry_replays (hlogin : b.loader.login = .sharedKey name key) {h? : Option Handle}
    (hon : ∀ h, h? = some h → h.On b) {step : Step} (hraise : ∀ flag, step ≠ .raise flag)
    (w : World) :
    ∃ xs, w.Passage xs (step.carry b h? w).2.2 ∧
      ∀ v later, v.isRaised (step.flag? h?) = w.isRaised (step.flag? h?) →
        v.Offers w xs (step.carry b h? w).2.2 later →
        (step.carry b h? v).1 = (step.carry b h? w).1 ∧
          (step.carry b h? v).2.1 = (step.carry b h? w).2.1 ∧
          v.Passage xs (step.carry b h? v).2.2 := by
  obtain ⟨x, hx, hcarry⟩ := carry_planned hon hraise w.answers.length
  obtain ⟨xs, hxs⟩ := hx.passage w
  rw [← hcarry w (Nat.le_refl _)] at hxs
  refine ⟨xs, hxs, fun v later hflag hoffers => ?_⟩
  -- One plan has to do for both worlds, however many answers they have in store.
  obtain ⟨y, ⟨p, -, hplan⟩, hboth⟩ :=
    carry_planned hon hraise (max w.answers.length v.answers.length)
  rw [hboth w (Nat.le_max_left _ _), hplan w] at hxs hoffers ⊢
  rw [hboth v (Nat.le_max_right _ _), hplan v]
  obtain ⟨ys, hys, hagain⟩ := p.run_replays hlogin w
  obtain rfl := hxs.unique hys
  exact hagain v later hflag hoffers

end SharedKey

end DataLake
