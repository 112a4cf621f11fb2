import DataLake.Proofs.Signature

/-!
Tries at a request. A try loads a credential of its own, signs one request with it and
sends that request; it can end at each of the three. What it does depends on what the
world outside has in store, and carrying out an operation is one try at most.
-/

namespace DataLake

inductive Try where
  /-- No credential could be loaded. -/
  | unloaded
  /-- The request could not be signed with the credential. -/
  | unsigned (c : Credential)
  /-- The request was signed with the credential, and sent. -/
  | sent (c : Credential) (x : Exchange)

/-- What a login asks for when a credential is loaded: nothing if it has an account key. -/
def Loader.questions (l : Loader) : List Event :=
  match l.login with
  | .sharedKey .. => []
  | .token | .clientSecret | .platform => [.tokenAsked Signing.storageScope]

namespace Try

def IsSent : Try → Prop
  | sent .. => True
  | _ => False

/-- What the log has of a try: the token source may be asked, then the credential is
loaded, and then the request is sent. -/
def events (l : Loader) (t : Try) : List Event :=
  l.questions ++
    match t with
    | unloaded => []
    | unsigned c => [.loaded c]
    | sent c x => [.loaded c, .sent x]

end Try

/-- What the world outside has in store: the answers of the service, and those of the
token source. -/
structure Supply where
  answers : List Answer
  tokens : List TokenAnswer

def World.supply (w : World) : Supply :=
  ⟨w.answers, w.tokens⟩

/-- What asking for a token gives, and what the token source has left: it hands out its
answers in turn, and the last one again and again. -/
def Loader.nextToken (l : Loader) (tokens : List TokenAnswer) :
    Except Failure Credential × List TokenAnswer :=
  match tokens with
  | [] => (.error (.tokenSource []), tokens)
  | answer :: later =>
      (match answer with
        | .token t => .ok { accountName := l.accountName, token := some t }
        | .failure f => .error f.toFailure, if later.isEmpty then tokens else later)

/-- What loading gives, and what the token source has left. -/
def Loader.next (l : Loader) (tokens : List TokenAnswer) :
    Except Failure Credential × List TokenAnswer :=
  match l.login with
  | .sharedKey name key => (.ok { accountName := some name, accountKey := some key }, tokens)
  | .token | .clientSecret | .platform => l.nextToken tokens

/-- A conversation, and what it takes from the supply. Each try loads a credential, and
only one that is signed and sent uses up an answer of the service. -/
inductive Backend.Tries (b : Backend) (now : Int) : Supply → List Try → Supply → Prop where
  | nil (s : Supply) : Tries b now s [] s
  | unloaded {s s' : Supply} {tokens : List TokenAnswer} {e : Failure} {tries : List Try}
      (hload : b.loader.next s.tokens = (.error e, tokens))
      (hmore : Tries b now ⟨s.answers, tokens⟩ tries s') : Tries b now s (.unloaded :: tries) s'
  | unsigned {s s' : Supply} {tokens : List TokenAnswer} {c : Credential} {plain : Request}
      {e : Failure} {tries : List Try} (hload : b.loader.next s.tokens = (.ok c, tokens))
      (hsign : (Signing.sign b.version now c plain).2 = .error e)
      (hmore : Tries b now ⟨s.answers, tokens⟩ tries s') : Tries b now s (.unsigned c :: tries) s'
  | sent {s s' : Supply} {tokens : List TokenAnswer} {c : Credential} {x : Exchange}
      {tries : List Try} (hload : b.loader.next s.tokens = (.ok c, tokens))
      (hsigned : Signing.Signed b.version now c x.request) (hreply : x.reply = s.answers.head?)
      (hmore : Tries b now ⟨s.answers.tail, tokens⟩ tries s') : Tries b now s (.sent c x :: tries) s'

theorem Backend.Tries.append {b : Backend} {now : Int} {s t u : Supply} {first second : List Try}
    (hfirst : b.Tries now s first t) (hsecond : b.Tries now t second u) :
    b.Tries now s (first ++ second) u := by
  induction hfirst with
  | nil s => exact hsecond
  | unloaded hload _ ih => exact .unloaded hload (ih hsecond)
  | unsigned hload hsign _ ih => exact .unsigned hload hsign (ih hsecond)
  | sent hload hsigned hreply _ ih => exact .sent hload hsigned hreply (ih hsecond)

/-- The world after some tries at a request. -/
def World.after (w : World) (l : Loader) (s : Supply) (tries : List Try) : World :=
  { w with
    answers := s.answers, tokens := s.tokens, log := w.log ++ tries.flatMap (Try.events l) }

/-- What the service makes of a request that was sent. -/
def Exchange.outcome (x : Exchange) : Except Failure Response :=
  match x.reply with
  | some (.response r) => .ok r
  | some (.failure name) => .error (.connection name)
  | none => .error .noAnswer

/-- Everything that carrying out an operation can come to. A request that cannot be
built is not tried; a try that fails to load or to sign ends there. -/
inductive Exchanged (b : Backend) (op : Operation) (w : World) :
    Except Failure Response × World → Prop where
  | unbuilt (e : Failure) (hplain : op.request b.location = .error e) :
      Exchanged b op w (.error e, w)
  | unloaded (plain : Request) (e : Failure) (tokens : List TokenAnswer)
      (hplain : op.request b.location = .ok plain)
      (hload : b.loader.next w.tokens = (.error e, tokens)) :
      Exchanged b op w (.error e, w.after b.loader ⟨w.answers, tokens⟩ [.unloaded])
  | unsigned (plain : Request) (c : Credential) (e : Failure) (tokens : List TokenAnswer)
      (hplain : op.request b.location = .ok plain)
      (hload : b.loader.next w.tokens = (.ok c, tokens))
      (hsign : (Signing.sign b.version w.now c plain).2 = .error e) :
      Exchanged b op w (.error e, w.after b.loader ⟨w.answers, tokens⟩ [.unsigned c])
  | sent (plain : Request) (c : Credential) (x : Exchange) (tokens : List TokenAnswer)
      (hplain : op.request b.location = .ok plain)
      (hload : b.loader.next w.tokens = (.ok c, tokens))
      (hsign : Signing.sign b.version w.now c plain = (x.request, .ok ()))
      (hreply : x.reply = w.answers.head?) :
      Exchanged b op w (x.outcome, w.after b.loader ⟨w.answers.tail, tokens⟩ [.sent c x])

theorem Loader.loadToken_eq (l : Loader) (w : World) :
    l.loadToken w =
      match l.nextToken w.tokens with
      | (.ok c, tokens) => (.ok c, { w with
          tokens, log := w.log ++ [.tokenAsked Signing.storageScope, .loaded c] })
      | (.error e, tokens) => (.error e, { w with
          tokens, log := w.log ++ [.tokenAsked Signing.storageScope] }) := by
  obtain ⟨now, answers, tokens, raised, room, log⟩ := w
  unfold loadToken nextToken
  cases tokens with
  | nil => rfl
  | cons answer later =>
      cases answer with
      | token t => cases later <;> simp [World.record]
      | failure f => cases later <;> simp [World.record]

theorem Loader.load_eq (l : Loader) (w : World) :
    l.load w =
      match l.next w.tokens with
      | (.ok c, tokens) => (.ok c, { w with tokens, log := w.log ++ (Try.unsigned c).events l })
      | (.error e, tokens) => (.error e, { w with tokens, log := w.log ++ Try.unloaded.events l }) := by
  unfold load next Try.events questions
  cases l.login with
  | sharedKey name key => rfl
  | token | clientSecret | platform => exact l.loadToken_eq w

theorem send_eq (r : Request) (w : World) :
    let x : Exchange := ⟨r, w.answers.head?⟩
    send r w = (x.outcome, { w with answers := w.answers.tail, log := w.log ++ [.sent x] }) := by
  obtain ⟨now, answers, tokens, raised, room, log⟩ := w
  cases answers with
  | nil => rfl
  | cons answer later => cases answer <;> rfl

theorem Backend.exchange_exchanged (b : Backend) (op : Operation) (w : World) :
    Exchanged b op w (b.exchange op w) := by
  -- Built, loaded, signed, sent: each of the four is where it may end.
  change Exchanged b op w (Action.bind (Action.ofExcept (op.request b.location)) (fun plain =>
    Action.bind (Action.bind b.loader.load _) send) w)
  unfold Action.bind Action.ofExcept
  cases hplain : op.request b.location with
  | error e => exact .unbuilt e hplain
  | ok plain =>
      dsimp only
      rw [Loader.load_eq]
      rcases hload : b.loader.next w.tokens with ⟨e | c, tokens⟩
      · have hunloaded := Exchanged.unloaded (b := b) (w := w) plain e tokens hplain hload
        simpa [World.after] using hunloaded
      · dsimp only
        rcases hsign : Signing.sign b.version w.now c plain with ⟨r, e | u⟩
        · have hfailed : (Signing.sign b.version w.now c plain).2 = .error e := by rw [hsign]
          have hunsigned := Exchanged.unsigned (b := b) (w := w) plain c e tokens hplain hload hfailed
          simpa [World.after] using hunsigned
        · have hsent := Exchanged.sent plain c ⟨r, w.answers.head?⟩ tokens hplain hload hsign rfl
          dsimp only
          rw [send_eq]
          simpa [World.after, Try.events] using hsent

/-- What carrying out an operation comes to, worked out. -/
theorem Backend.exchange_eq (b : Backend) (op : Operation) (w : World) :
    b.exchange op w =
      match op.request b.location with
      | .error e => (.error e, w)
      | .ok plain =>
          match b.loader.next w.tokens with
          | (.error e, tokens) => (.error e, w.after b.loader ⟨w.answers, tokens⟩ [.unloaded])
          | (.ok c, tokens) =>
              match Signing.sign b.version w.now c plain with
              | (_, .error e) => (.error e, w.after b.loader ⟨w.answers, tokens⟩ [.unsigned c])
              | (r, .ok _) =>
                  let x : Exchange := ⟨r, w.answers.head?⟩
                  (x.outcome, w.after b.loader ⟨w.answers.tail, tokens⟩ [.sent c x]) := by
  have hexchanged := b.exchange_exchanged op w
  generalize b.exchange op w = out at hexchanged
  cases hexchanged with
  | unbuilt e hplain => simp only [hplain]
  | unloaded plain e tokens hplain hload => simp only [hplain, hload]
  | unsigned plain c e tokens hplain hload hsign =>
      rcases hs : Signing.sign b.version w.now c plain with ⟨r, result⟩
      rw [hs] at hsign
      dsimp only at hsign
      simp only [hplain, hload, hs, hsign]
  | sent plain c x tokens hplain hload hsign hreply => simp only [hplain, hload, hsign, ← hreply]

def Try.exchange? : Try → Option Exchange
  | sent _ x => some x
  | _ => none

theorem World.exchanges_after (w : World) (l : Loader) (s : Supply) (t : Try) :
    (w.after l s [t]).exchanges = w.exchanges ++ t.exchange?.toList := by
  cases t <;> cases hlogin : l.login <;>
    simp [World.exchanges, World.after, Try.events, Loader.questions, Try.exchange?, hlogin]

/-- The request can be built, and signed with the credential that is loaded next. -/
def Backend.CanSign (b : Backend) (op : Operation) (w : World) : Prop :=
  ∃ plain c tokens r, op.request b.location = .ok plain ∧
    b.loader.next w.tokens = (.ok c, tokens) ∧
    Signing.sign b.version w.now c plain = (r, .ok ())

theorem Backend.canSign_congr {b : Backend} {op : Operation} {w w' : World}
    (htokens : w'.tokens = w.tokens) (hnow : w'.now = w.now) :
    b.CanSign op w' ↔ b.CanSign op w := by
  unfold CanSign
  rw [htokens, hnow]

end DataLake
