import DataLake.Writer

/-!
One attempt at an operation. Carrying out an operation either sends nothing at
all or sends exactly one request, and that request is the signed form of the
one the operation leads to. Everything a run of several operations did to the
service is therefore a list of such attempts; no step of this library talks to
the service in another way.
-/

namespace DataLake

namespace Operation

def verb : Operation → Text
  | create .. | rename .. => "PUT"
  | properties _ => "HEAD"
  | read .. | list .. => "GET"
  | delete _ => "DELETE"
  | update .. | flush .. => "PATCH"

def payload : Operation → Bytes
  | create _ _ _ body | update _ _ body _ => body
  | _ => []

/-- The path that the request of an operation is addressed to; none for the
filesystem as a whole. -/
def target? : Operation → Option Text
  | create path .. | properties path | read path _ | delete path => some path
  | update path .. | flush path _ => some path
  | rename _ target => some target
  | list .. => none

def address (loc : Location) (op : Operation) : Except Failure Text :=
  match op.target? with
  | some path => loc.pathUrl path
  | none => .ok loc.url

end Operation

/-- A step that succeeded went through both of its parts. -/
theorem bind_ok {α β : Type} {x : Except Failure α} {f : α → Except Failure β} {b : β}
    (h : x >>= f = .ok b) : ∃ a, x = .ok a ∧ f a = .ok b := by
  cases x with
  | error e => cases h
  | ok a => exact ⟨a, rfl, h⟩

theorem map_ok {α β : Type} {x : Except Failure α} {f : α → β} {b : β} (h : x.map f = .ok b) :
    ∃ a, x = .ok a ∧ f a = b := by
  cases x with
  | error e => cases h
  | ok a => exact ⟨a, rfl, Except.ok.inj h⟩

theorem ok_of_toOption {α : Type} {x : Except Failure α} {a : α}
    (h : x.toOption = some a) : x = .ok a := by
  cases x with
  | error e => cases h
  | ok b =>
      cases h
      rfl

theorem Draft.prepare_ok {d : Draft} {r : Request} (h : d.prepare = .ok r) :
    d.preparedUrl = .ok r.url ∧ r.method = Text.upper d.method ∧ r.body = d.body ∧
      Draft.withUserInfo r.url
        (Draft.withLength (Text.upper d.method) (Headers.ofList d.headers) d.body) =
          .ok r.headers := by
  obtain ⟨url, hurl, hrest⟩ := bind_ok h
  split at hrest
  · obtain ⟨headers, hheaders, hr⟩ := bind_ok hrest
    cases hr
    exact ⟨hurl, rfl, rfl, hheaders⟩
  · cases hrest

/-- The URL of a prepared request is prepared from that of the draft and its fields. -/
theorem Draft.prepare_url {d : Draft} {r : Request} (h : d.prepare = .ok r) :
    Url.prepare d.url d.fields = .ok r.url := by
  obtain ⟨hprepared, _⟩ := Draft.prepare_ok h
  unfold Draft.preparedUrl at hprepared
  split at hprepared
  · next url heq =>
    cases hprepared
    exact heq
  all_goals cases hprepared

/-- The draft of an operation has the operation's method, which is in upper case
already, its body, and its address. -/
theorem Operation.draft_ok {op : Operation} {loc : Location} {d : Draft}
    (h : op.draft loc = .ok d) :
    Text.upper d.method = op.verb ∧ d.body = op.payload ∧ op.address loc = .ok d.url := by
  cases op with
  | create path resource options body =>
      obtain ⟨url, hurl, hd⟩ := bind_ok h
      cases hd
      exact ⟨rfl, rfl, hurl⟩
  | properties path =>
      obtain ⟨url, hurl, hd⟩ := bind_ok h
      cases hd
      exact ⟨rfl, rfl, hurl⟩
  | read path range =>
      -- Every form of the range goes on in the same way with its own headers.
      have hbranch (headers : Except Failure (List (Text × Text)))
          (hrest : (do
            let headers ← headers
            let url ← loc.pathUrl path
            return ({ method := "GET", url, headers } : Draft)) = Except.ok d) :
          Text.upper d.method = "GET" ∧ d.body = [] ∧ loc.pathUrl path = .ok d.url := by
        obtain ⟨_, _, hread⟩ := bind_ok hrest
        obtain ⟨url, hurl, hd⟩ := bind_ok hread
        cases hd
        exact ⟨rfl, rfl, hurl⟩
      unfold Operation.draft at h
      dsimp only at h
      split at h
      · split at h
        · exact hbranch _ h
        · exact hbranch _ h
      · exact hbranch _ h
  | delete path =>
      obtain ⟨url, hurl, hd⟩ := bind_ok h
      cases hd
      exact ⟨rfl, rfl, hurl⟩
  | rename source target =>
      obtain ⟨url, hurl, hrest⟩ := bind_ok h
      obtain ⟨_, _, hd⟩ := bind_ok hrest
      cases hd
      exact ⟨rfl, rfl, hurl⟩
  | update path position body commit =>
      obtain ⟨_, _, hrest⟩ := bind_ok h
      obtain ⟨url, hurl, hd⟩ := bind_ok hrest
      cases hd
      exact ⟨rfl, rfl, hurl⟩
  | flush path position =>
      obtain ⟨url, hurl, hrest⟩ := bind_ok h
      obtain ⟨_, _, hd⟩ := bind_ok hrest
      cases hd
      exact ⟨rfl, rfl, hurl⟩
  | list path continuation limit =>
      obtain ⟨_, _, hd⟩ := bind_ok h
      cases hd
      exact ⟨rfl, rfl, rfl⟩

theorem Operation.request_ok {op : Operation} {loc : Location} {r : Request}
    (h : op.request loc = .ok r) :
    ∃ d, op.draft loc = .ok d ∧ d.preparedUrl = .ok r.url ∧ r.method = op.verb ∧
      r.body = op.payload := by
  obtain ⟨d, hdraft, hprepare⟩ := bind_ok h
  obtain ⟨hurl, hmethod, hbody, _⟩ := Draft.prepare_ok hprepare
  obtain ⟨hverb, hpayload, _⟩ := Operation.draft_ok hdraft
  exact ⟨d, hdraft, hurl, hmethod.trans hverb, hbody.trans hpayload⟩

/-- Signing touches the headers only. -/
theorem Signing.sign_keeps (version : Text) (now : Int) (c : Credential) (r : Request) :
    (Signing.sign version now c r).1.method = r.method ∧
      (Signing.sign version now c r).1.url = r.url ∧
      (Signing.sign version now c r).1.body = r.body := by
  unfold Signing.sign
  cases Signing.dateValue now with
  | error e => exact ⟨rfl, rfl, rfl⟩
  | ok date =>
      dsimp only
      cases Signing.authorization _ c with
      | error e => exact ⟨rfl, rfl, rfl⟩
      | ok value => exact ⟨rfl, rfl, rfl⟩

/-- The request is the one that the operation leads to on this backend, signed
with some credential at some time. -/
def Backend.Signs (b : Backend) (op : Operation) (r : Request) : Prop :=
  ∃ plain c now, op.request b.location = .ok plain ∧
    Signing.sign b.version now c plain = (r, .ok ())

theorem Backend.Signs.method_eq {b : Backend} {op : Operation} {r : Request}
    (h : b.Signs op r) : r.method = op.verb := by
  obtain ⟨plain, c, now, hplain, hsign⟩ := h
  have hkeeps := (Signing.sign_keeps b.version now c plain).1
  rw [hsign] at hkeeps
  obtain ⟨_, _, _, hverb, _⟩ := Operation.request_ok hplain
  exact hkeeps.trans hverb

theorem Backend.Signs.body_eq {b : Backend} {op : Operation} {r : Request}
    (h : b.Signs op r) : r.body = op.payload := by
  obtain ⟨plain, c, now, hplain, hsign⟩ := h
  have hkeeps := (Signing.sign_keeps b.version now c plain).2.2
  rw [hsign] at hkeeps
  obtain ⟨_, _, _, _, hpayload⟩ := Operation.request_ok hplain
  exact hkeeps.trans hpayload

def Exchange.response? (x : Exchange) : Option Response :=
  match x.reply with
  | some (.response r) => some r
  | _ => none

theorem Exchange.reply_of_response? {x : Exchange} {r : Response} (h : x.response? = some r) :
    x.reply = some (.response r) := by
  unfold response? at h
  split at h
  · next hreply => rw [hreply, Option.some.inj h]
  · cases h

/-- What an attempt at an operation can come to: nothing was sent; one request
was sent and nothing usable came back; or one request was sent and the response
has the value that the step gives. -/
inductive Attempt {α : Type} (b : Backend) (op : Operation) (value? : Response → Option α) :
    Except Failure α → List Exchange → Prop where
  | unsent (e : Failure) : Attempt b op value? (.error e) []
  | refused (e : Failure) (x : Exchange) (hsigned : b.Signs op x.request)
      (hvalue : x.response?.bind value? = none) : Attempt b op value? (.error e) [x]
  | accepted (a : α) (x : Exchange) (hsigned : b.Signs op x.request)
      (hvalue : x.response?.bind value? = some a) : Attempt b op value? (.ok a) [x]

/-- The step made one attempt at the operation, and did nothing else to the
service. -/
def Attempts {α : Type} (b : Backend) (op : Operation) (value? : Response → Option α)
    (step : Action α) (w : World) : Prop :=
  ∃ xs, (step w).2.exchanges = w.exchanges ++ xs ∧ Attempt b op value? (step w).1 xs

@[simp] theorem World.exchanges_record_sent (w : World) (x : Exchange) :
    (w.record (.sent x)).exchanges = w.exchanges ++ [x] := by
  simp [World.exchanges, World.record]

@[simp] theorem World.exchanges_record_loaded (w : World) (c : Credential) :
    (w.record (.loaded c)).exchanges = w.exchanges := by
  simp [World.exchanges, World.record]

@[simp] theorem World.exchanges_record_tokenAsked (w : World) (scope : Text) :
    (w.record (.tokenAsked scope)).exchanges = w.exchanges := by
  simp [World.exchanges, World.record]

theorem World.exchanges_of_log {v w : World} (h : v.log = w.log) :
    v.exchanges = w.exchanges := by
  simp only [World.exchanges, h]

theorem World.exchanges_raise (w : World) (flag : Text) : (w.raise flag).exchanges = w.exchanges := by
  apply exchanges_of_log
  unfold raise
  split <;> rfl

theorem Loader.loadToken_exchanges (l : Loader) (w : World) :
    (l.loadToken w).2.exchanges = w.exchanges := by
  unfold Loader.loadToken
  dsimp only
  have hasked := World.exchanges_record_tokenAsked w Signing.storageScope
  split
  · exact hasked
  · next answer later _ =>
      have hnext :
          (if later.isEmpty then w.record (.tokenAsked Signing.storageScope)
            else { w.record (.tokenAsked Signing.storageScope) with
              tokens := later }).exchanges = w.exchanges := by
        split
        · exact hasked
        · exact (World.exchanges_of_log rfl).trans hasked
      split
      · exact (World.exchanges_record_loaded _ _).trans hnext
      · exact hnext

theorem Loader.load_exchanges (l : Loader) (w : World) :
    (l.load w).2.exchanges = w.exchanges := by
  unfold Loader.load
  cases l.login with
  | sharedKey name key => exact World.exchanges_record_loaded w _
  | token | clientSecret | platform => exact l.loadToken_exchanges w

/-- Signing sends nothing, and what it gives is the request of the operation. -/
theorem Backend.sign_cases (b : Backend) (op : Operation) (plain : Request) (w : World)
    (hplain : op.request b.location = .ok plain) :
    (b.sign plain w).2.exchanges = w.exchanges ∧
      ∀ r, (b.sign plain w).1 = .ok r → b.Signs op r := by
  have hload := Loader.load_exchanges b.loader w
  change (Action.bind b.loader.load _ w).2.exchanges = w.exchanges ∧
    ∀ r, (Action.bind b.loader.load _ w).1 = .ok r → b.Signs op r
  unfold Action.bind
  rcases hloaded : b.loader.load w with ⟨c | c, v⟩
  · rw [hloaded] at hload
    exact ⟨hload, fun r hr => by cases hr⟩
  · rw [hloaded] at hload
    dsimp only
    rcases hsigned : Signing.sign b.version v.now c plain with ⟨signed, e | u⟩
    · exact ⟨hload, fun r hr => by cases hr⟩
    · refine ⟨hload, fun r hr => ?_⟩
      cases hr
      exact ⟨plain, c, v.now, hplain, hsigned⟩

/-- A request that is sent is one exchange, and it gives its response. -/
theorem send_cases (r : Request) (w : World) :
    ∃ x : Exchange, x.request = r ∧ (send r w).2.exchanges = w.exchanges ++ [x] ∧
      ((∃ e, (send r w).1 = .error e ∧ x.response? = none) ∨
        ∃ response, (send r w).1 = .ok response ∧ x.response? = some response) := by
  refine ⟨⟨r, w.answers.head?⟩, rfl, ?_⟩
  have hsent := World.exchanges_record_sent w ⟨r, w.answers.head?⟩
  unfold send
  cases hanswers : w.answers with
  | nil =>
      rw [hanswers] at hsent
      simp only [World.record, hanswers, List.head?_nil] at hsent ⊢
      exact ⟨hsent, .inl ⟨_, rfl, rfl⟩⟩
  | cons answer later =>
      rw [hanswers] at hsent
      simp only [World.record, hanswers, List.head?_cons] at hsent ⊢
      cases answer with
      | response response =>
          exact ⟨(World.exchanges_of_log rfl).trans hsent, .inr ⟨response, rfl, rfl⟩⟩
      | failure name =>
          exact ⟨(World.exchanges_of_log rfl).trans hsent, .inl ⟨_, rfl, rfl⟩⟩

/-- Carrying out an operation is one attempt at it, which gives the response. -/
theorem Backend.exchange_attempts (b : Backend) (op : Operation) (w : World) :
    Attempts b op some (b.exchange op) w := by
  change Attempts b op some (Action.bind (Action.ofExcept (op.request b.location)) fun plain =>
    Action.bind (b.sign plain) send) w
  unfold Attempts Action.bind Action.ofExcept
  cases hplain : op.request b.location with
  | error e => exact ⟨[], (List.append_nil _).symm, .unsent e⟩
  | ok plain =>
      obtain ⟨hkept, hsigns⟩ := b.sign_cases op plain w hplain
      dsimp only
      rcases hsigned : b.sign plain w with ⟨e | signed, v⟩
      · rw [hsigned] at hkept
        exact ⟨[], by simpa using hkept, .unsent e⟩
      · rw [hsigned] at hkept hsigns
        obtain ⟨x, hrequest, hsent, hreply⟩ := send_cases signed v
        refine ⟨[x], by rw [hsent, hkept], ?_⟩
        have hx : b.Signs op x.request := hrequest ▸ hsigns signed rfl
        rcases hreply with ⟨e, he, hnone⟩ | ⟨response, hok, hsome⟩
        · rw [he]
          exact .refused e x hx (by rw [hnone]; rfl)
        · rw [hok]
          exact .accepted response x hx (by rw [hsome]; rfl)

/-- An attempt whose response is then looked at is an attempt that gives what was
found in the response. -/
theorem Attempts.bind_ofExcept {α β : Type} {b : Backend} {op : Operation}
    {value? : Response → Option α} {step : Action α} {w : World}
    (h : Attempts b op value? step w) (look : α → Except Failure β) :
    Attempts b op (fun r => (value? r).bind fun a => (look a).toOption)
      (step >>= fun a => Action.ofExcept (look a)) w := by
  obtain ⟨xs, hexchanges, hattempt⟩ := h
  refine ⟨xs, ?_⟩
  change (Action.bind step _ w).2.exchanges = _ ∧ Attempt b op _ (Action.bind step _ w).1 xs
  unfold Action.bind
  rcases hstep : step w with ⟨e | a, v⟩
  · rw [hstep] at hexchanges hattempt
    refine ⟨hexchanges, ?_⟩
    cases hattempt with
    | unsent => exact .unsent e
    | refused _ x hsigned hvalue =>
        exact .refused e x hsigned (by rw [← Option.bind_assoc, hvalue]; rfl)
  · rw [hstep] at hexchanges hattempt
    refine ⟨hexchanges, ?_⟩
    cases hattempt with
    | accepted _ x hsigned hvalue =>
        have hlooked : (x.response?.bind fun r => (value? r).bind fun a => (look a).toOption) =
            (look a).toOption := by
          rw [← Option.bind_assoc, hvalue]
          rfl
        dsimp only [Action.ofExcept]
        cases hlook : look a with
        | error e => exact .refused e x hsigned (by rw [hlooked, hlook]; rfl)
        | ok b => exact .accepted b x hsigned (by rw [hlooked, hlook]; rfl)

/-- Annotating the fault of an attempt changes nothing else about it. -/
theorem Attempts.mapFault {α : Type} {b : Backend} {op : Operation}
    {value? : Response → Option α} {step : Action α} {w : World}
    (h : Attempts b op value? step w) (f : Fault → Fault) :
    Attempts b op value? (step.mapFault f) w := by
  obtain ⟨xs, hexchanges, hattempt⟩ := h
  refine ⟨xs, ?_⟩
  unfold Action.mapFault
  rcases hstep : step w with ⟨e | a, v⟩
  · rw [hstep] at hexchanges hattempt
    cases e with
    | fault fault =>
        refine ⟨hexchanges, ?_⟩
        cases hattempt with
        | unsent => exact .unsent _
        | refused _ x hsigned hvalue => exact .refused _ x hsigned hvalue
    | _ => exact ⟨hexchanges, hattempt⟩
  · rw [hstep] at hexchanges hattempt
    exact ⟨hexchanges, hattempt⟩

def Response.within? (statuses : List Int) (r : Response) : Option Response :=
  if statuses.contains r.status then some r else none

theorem toOption_accept (statuses : List Int) (depth : Nat) (r : Response) :
    ((accept statuses depth r).map fun _ => r).toOption = r.within? statuses := by
  unfold accept Response.within?
  split <;> rfl

theorem Backend.perform_eq (b : Backend) (op : Operation) (statuses : List Int) (w : World) :
    b.perform op statuses w =
      (b.exchange op >>= fun r =>
        Action.ofExcept ((accept statuses w.room.nesting r).map fun _ => r)) w := by
  change Action.bind (b.exchange op) _ w = Action.bind (b.exchange op) _ w
  unfold Action.bind
  rcases b.exchange op w with ⟨e | r, v⟩
  · rfl
  · change Action.bind (Action.ofExcept (accept statuses w.room.nesting r))
      (fun _ => Action.pure r) v = ((accept statuses w.room.nesting r).map fun _ => r, v)
    unfold Action.bind Action.ofExcept
    cases accept statuses w.room.nesting r <;> rfl

/-- An operation whose status must be one of the given ones is one attempt, which
gives the response when it has such a status. -/
theorem Backend.perform_attempts (b : Backend) (op : Operation) (statuses : List Int)
    (w : World) :
    Attempts b op (Response.within? statuses) (b.perform op statuses) w := by
  have hattempts := (b.exchange_attempts op w).bind_ofExcept
    fun r => (accept statuses w.room.nesting r).map fun _ => r
  simp only [Option.bind_some, toOption_accept] at hattempts
  unfold Attempts at hattempts ⊢
  rwa [b.perform_eq]

end DataLake
