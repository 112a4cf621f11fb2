import DataLake.Builder
import DataLake.Proofs.ObjectDisguise

/-!
Secrecy. Two sessions that differ in the account key of their settings, or in the tokens of
their token source, cannot be told apart: not by what the builder and the backend say of
themselves, not by what any step gives or fails with, not by the objects that are left, and
not by the requests that the service is sent, but for one header of these.
-/

namespace DataLake

/-- The outcome with another login in the object that was opened. -/
def Outcome.mapLogin (f : Login → Login) : Outcome → Outcome
  | opened h => opened (h.mapLogin f)
  | other => other

/-- The result with another login in the object that was opened. -/
def StepResult.mapLogin (f : Login → Login) (r : StepResult) : StepResult :=
  { r with outcome := r.outcome.map (Outcome.mapLogin f) }

/-- What is given in an outcome of another kind is no object. -/
theorem Outcome.map_mapLogin {α : Type} (f : Login → Login) {g : α → Outcome}
    (hg : ∀ a, (g a).mapLogin f = g a) (r : Except Failure α) :
    (r.map g).map (Outcome.mapLogin f) = r.map g := by
  cases r with
  | error e => rfl
  | ok a => exact congrArg Except.ok (hg a)

namespace Handle

variable (f : Login → Login)

theorem runStream_mapLogin (step : StreamStep) (s : ReadStream) (w : World) :
    (runStream step s w).1.map (Outcome.mapLogin f) = (runStream step s w).1 := by
  cases step with
  | read | chunks => exact Outcome.map_mapLogin f (fun _ => rfl) _
  | status | header | close => rfl

theorem runWriter_mapLogin (step : WriterAct) (t : Writer) (w : World) :
    (runWriter step t w).1.map (Outcome.mapLogin f) = (runWriter step t w).1 := by
  cases step with
  | write | writeFrom | close => exact Outcome.map_mapLogin f (fun _ => rfl) _
  | abort | path => rfl

theorem runLister_mapLogin (step : ListerStep) (l : PageLister) (w : World) :
    (runLister step l w).1.map (Outcome.mapLogin f) = (runLister step l w).1 := by
  cases step <;> exact Outcome.map_mapLogin f (fun _ => rfl) _

/-- A step on an object opens none. -/
theorem run_mapLogin (h : Handle) (step : HandleStep) (w : World) :
    (h.run step w).1.map (Outcome.mapLogin f) = (h.run step w).1 := by
  cases h with
  | stream s =>
      cases step with
      | stream | iterate | close | leave => exact runStream_mapLogin f _ s w
      | writer | lister => rfl
  | writer t =>
      cases step with
      | writer | close | leave => exact runWriter_mapLogin f _ t w
      | iterate | stream | lister => rfl
  | lister l =>
      cases step with
      | lister | iterate => exact runLister_mapLogin f _ l w
      | stream | writer | close | leave => rfl

end Handle

namespace Session

/-- The sessions have the same objects but for their logins, and worlds that are the same up
to the disguise. -/
structure Disguised (d : Disguise) (s s' : Session) : Prop where
  backend_eq : s'.backend = s.backend.mapLogin d.login
  handles_eq : s'.handles = s.handles.map fun e => (e.1, e.2.mapLogin d.login)
  worlds : d.Worlds s.world s'.world

/-- A step gives the same in both sessions but for the login of an object that it opens, and
leaves them the same up to the disguise. -/
def Steps (d : Disguise) (out out' : StepResult × Session) : Prop :=
  out'.1 = out.1.mapLogin d.login ∧ out.2.Disguised d out'.2

variable {d : Disguise} {s s' : Session}

theorem Disguised.handle?_eq (h : s.Disguised d s') (name : Text) :
    s'.handle? name = (s.handle? name).map (Handle.mapLogin d.login) := by
  unfold handle?
  rw [h.handles_eq, List.find?_map, Option.map_map, Option.map_map]
  rfl

theorem Disguised.go (h : s.Disguised d s') {w w' : World} (hw : d.Worlds w w') :
    Disguised d { s with world := w } { s' with world := w' } :=
  { h with worlds := hw }

theorem Disguised.store (h : s.Disguised d s') (name : Text) (x : Handle) :
    (s.store name x).Disguised d (s'.store name (x.mapLogin d.login)) where
  backend_eq := h.backend_eq
  worlds := h.worlds
  handles_eq := by
    simp only [Session.store, h.handles_eq, List.map_cons, List.filter_map]
    rfl

theorem Disguised.opened (h : s.Disguised d s') (name : Text) (x : Handle) :
    Steps d (s.opened name x) (s'.opened name (x.mapLogin d.login)) := by
  refine ⟨?_, h.store name x⟩
  unfold Session.opened
  rw [Handle.glimpse_mapLogin]
  rfl

theorem Disguised.act {α : Type} (h : s.Disguised d s') {x x' : Action α} (hx : d.Actions x x')
    {f : α → Outcome} (hf : ∀ a, (f a).mapLogin d.login = f a) :
    Steps d (s.act x f) (s'.act x' f) := by
  obtain ⟨r, v, v', hxw, hxw', hv⟩ := hx _ _ h.worlds
  simp only [Session.act, hxw, hxw']
  refine ⟨?_, h.go hv⟩
  cases r with
  | error e => rfl
  | ok a => simp only [StepResult.mapLogin, Except.map, hf]

theorem Disguised.step (h : s.Disguised d s') (step : Step) :
    Steps d (s.step step) (s'.step step) := by
  obtain ⟨backend, world, handles⟩ := s'
  obtain rfl : backend = s.backend.mapLogin d.login := h.backend_eq
  cases step with
  | createDir path => exact h.act (s.backend.createDir_alike d path) fun _ => rfl
  | stat path => exact h.act (s.backend.stat_alike d path) fun _ => rfl
  | delete path => exact h.act (s.backend.delete_alike d path) fun _ => rfl
  | rename source target => exact h.act (s.backend.rename_alike d source target) fun _ => rfl
  | fetchPage path token limit =>
      exact h.act (s.backend.page_alike d path limit token) fun _ => rfl
  | info => exact ⟨rfl, h⟩
  | raise flag => exact ⟨rfl, h.go (h.worlds.raise flag)⟩
  | openRead name path range flag =>
      obtain ⟨r, v, v', hread, hread', hv⟩ := s.backend.read_alike d path range _ _ h.worlds
      simp only [Session.step, hread, hread']
      cases r with
      | error e => exact ⟨rfl, h.go hv⟩
      | ok r =>
          let stream := ReadStream.ofResponse r ReadStream.defaultBufferSize flag
          exact (h.go hv).opened name (.stream stream)
  | openList name path limit flag =>
      exact h.opened name (.lister { backend := s.backend, path, limit, flag })
  | openWrite name path options flag bufferSize =>
      have hwriter : Writer.ofOptions (s.backend.mapLogin d.login) path options flag bufferSize =
          (Writer.ofOptions s.backend path options flag bufferSize).mapLogin d.login := by
        unfold Writer.ofOptions
        dsimp only
        split <;> rfl
      simp only [Session.step, hwriter]
      exact h.opened name (.writer (Writer.ofOptions s.backend path options flag bufferSize))
  | on name step =>
      simp only [Session.step, h.handle?_eq name]
      cases s.handle? name with
      | none => exact ⟨rfl, h⟩
      | some x =>
          obtain ⟨r, x', v, v', hrun, hrun', hv⟩ := x.run_alike d step _ _ h.worlds
          have hr := x.run_mapLogin d.login step s.world
          rw [hrun] at hr
          simp only [Option.map_some, hrun, hrun']
          refine ⟨?_, (h.go hv).store name x'⟩
          simp only [StepResult.mapLogin, hr, Handle.glimpse_mapLogin]

theorem Disguised.run (h : s.Disguised d s') (steps : List Step) :
    (s'.run steps).1 = (s.run steps).1.map (StepResult.mapLogin d.login) ∧
      (s.run steps).2.Disguised d (s'.run steps).2 := by
  induction steps generalizing s s' with
  | nil => exact ⟨rfl, h⟩
  | cons step steps ih =>
      obtain ⟨hresult, hnext⟩ := h.step step
      obtain ⟨hresults, hlast⟩ := ih hnext
      refine ⟨?_, hlast⟩
      change (s'.step step).1 :: ((s'.step step).2.run steps).1 =
        ((s.step step).1 :: ((s.step step).2.run steps).1).map _
      rw [hresult, hresults, List.map_cons]

end Session

section Keys

/-- The login with another account key in place of one. -/
def Login.rekey (key key' : Text) : Login → Login
  | .sharedKey name k => .sharedKey name (if k = key then key' else k)
  | l => l

/-- The values show signatures of one account and one message, each with its own secret. -/
def Signing.OtherSignature (secret secret' : Bytes) (value value' : Text) : Prop :=
  ∃ account message,
    value = "SharedKey " ++ account ++ ":" ++ Base64.encode (Hmac.sha256 secret message) ∧
    value' = "SharedKey " ++ account ++ ":" ++ Base64.encode (Hmac.sha256 secret' message)

variable {key key' : Text} {secret secret' : Bytes}

theorem Credential.alike_of_keys (hkey : Signing.keyBytes key = .ok secret)
    (hkey' : Signing.keyBytes key' = .ok secret') (name : Option Text) :
    Credential.Alike (Signing.OtherSignature secret secret')
      { accountName := name, accountKey := some key }
      { accountName := name, accountKey := some key' } := by
  intro r
  unfold Signing.authorization
  dsimp only
  cases given name with
  | none => exact .failed _
  | some account =>
      dsimp only
      rw [hkey, hkey']
      cases Signing.stringToSign r account with
      | error e => exact .failed e
      | ok text =>
          change Outcomes _ (Signing.signature secret text >>= fun signature =>
              (.ok ("SharedKey " ++ account ++ ":" ++ signature) : Except Failure Text))
            (Signing.signature secret' text >>= fun signature =>
              .ok ("SharedKey " ++ account ++ ":" ++ signature))
          unfold Signing.signature
          cases Text.Utf8.encode? text with
          | none => exact .failed _
          | some message => exact .given (.inr ⟨account, message, rfl, rfl⟩)

/-- Another account key, when both can be decoded. -/
def Disguise.ofKeys (hkey : Signing.keyBytes key = .ok secret)
    (hkey' : Signing.keyBytes key' = .ok secret') : Disguise where
  login := Login.rekey key key'
  tokens := Eq
  hidden := Signing.OtherSignature secret secret'
  questions_eq := by
    rintro ⟨login, accountName, authorityHost⟩
    cases login <;> rfl
  loads := by
    rintro ⟨login, accountName, authorityHost⟩ tokens _ rfl
    unfold Loader.next Loader.mapLogin
    cases login with
    | sharedKey name k =>
        refine ⟨.given ?_, rfl⟩
        by_cases hk : k = key
        · subst hk
          simp only [if_true]
          exact Credential.alike_of_keys hkey hkey' (some name)
        · simp only [if_neg hk]
          exact .refl _
    | token | clientSecret | platform =>
        cases tokens with
        | nil => exact ⟨.failed _, rfl⟩
        | cons answer later =>
            cases answer with
            | token t => exact ⟨.given (.refl _), rfl⟩
            | failure f => exact ⟨.failed _, rfl⟩

end Keys

section Tokens

/-- The same answer of a token source, or another token where there is one. -/
def TokenAnswer.OtherToken (a a' : TokenAnswer) : Prop :=
  a' = a ∨ ∃ t t', t ≠ [] ∧ t' ≠ [] ∧ a = .token t ∧ a' = .token t'

/-- The values show a token each. -/
def Signing.OtherBearer (value value' : Text) : Prop :=
  ∃ t t', value = "Bearer " ++ t ∧ value' = "Bearer " ++ t'

theorem Credential.alike_of_tokens {t t' : Text} (ht : t ≠ []) (ht' : t' ≠ [])
    (name : Option Text) :
    Credential.Alike Signing.OtherBearer { accountName := name, token := some t }
      { accountName := name, token := some t' } := by
  intro r
  simp only [Signing.authorization, Signing.given_some ht, Signing.given_some ht']
  exact .given (.inr ⟨t, t', rfl, rfl⟩)

/-- Other tokens from the token source. -/
def Disguise.ofTokens : Disguise where
  login := id
  tokens := List.Forall₂ TokenAnswer.OtherToken
  hidden := Signing.OtherBearer
  questions_eq l := rfl
  loads := by
    rintro ⟨login, accountName, authorityHost⟩ tokens tokens' htokens
    unfold Loader.next Loader.mapLogin
    cases login with
    | sharedKey name key => exact ⟨.given (.refl _), htokens⟩
    | token | clientSecret | platform =>
        cases htokens with
        | nil => exact ⟨.failed _, .nil⟩
        | @cons answer answer' later later' hanswer hlater =>
            have hempty : later'.isEmpty = later.isEmpty := by
              cases hlater <;> rfl
            have hleft : List.Forall₂ TokenAnswer.OtherToken
                (if later.isEmpty then answer :: later else later)
                (if later'.isEmpty then answer' :: later' else later') := by
              rw [hempty]
              split
              · exact .cons hanswer hlater
              · exact hlater
            refine ⟨?_, hleft⟩
            obtain rfl | ⟨t, t', ht, ht', rfl, rfl⟩ := hanswer
            · cases answer' with
              | token t => exact .given (.refl _)
              | failure f => exact .failed _
            · exact .given (Credential.alike_of_tokens ht ht' accountName)

end Tokens

/-- A session from its beginning: the settings and the environment that its backend is built
from, whether a token source is given in place of its login, what that one or the token source
of the login will hand out, the time, the room, what the service will answer, and the steps. -/
structure Setup where
  settings : Settings
  env : Environment := []
  tokenSource : Bool := false
  tokens : List TokenAnswer := []
  now : Int := 0
  room : Room := .usual
  answers : List Answer := []
  steps : List Step

namespace Setup

def backend (s : Setup) : Except Failure Backend :=
  (s.settings.build s.env).map fun b =>
    if s.tokenSource then b.mapLogin fun _ => .token else b

def start (s : Setup) (b : Backend) : Session :=
  { backend := b
    world := { now := s.now, answers := s.answers, tokens := s.tokens, room := s.room } }

def run (s : Setup) : Except Failure (List StepResult × Session) :=
  s.backend.map fun b => (s.start b).run s.steps

end Setup

/-- What can be seen of two sessions that went alike: the results of all steps, what the
backends tell of themselves, the objects that are left, what was asked of the world outside
and what is left of it. Only logins are told apart, and one header of requests. -/
structure Session.Seen (login : Login → Login) (hidden : Text → Text → Prop)
    (out out' : List StepResult × Session) : Prop where
  results_eq : out'.1 = out.1.map (StepResult.mapLogin login)
  backend_eq : out'.2.backend = out.2.backend.mapLogin login
  description_eq : out'.2.backend.description = out.2.backend.description
  info_eq : out'.2.backend.info = out.2.backend.info
  handles_eq : out'.2.handles = out.2.handles.map fun e => (e.1, e.2.mapLogin login)
  exchanges : List.Forall₂ (Exchange.SameBut hidden) out.2.world.exchanges out'.2.world.exchanges
  scopes_eq : out'.2.world.scopes = out.2.world.scopes
  answers_eq : out'.2.world.answers = out.2.world.answers
  raised_eq : out'.2.world.raised = out.2.world.raised

/-- The sessions cannot be told apart: the builders describe themselves alike, a backend that
cannot be built fails in one way, and all that is done with one that can is seen alike. -/
structure Setup.Indistinct (login : Login → Login) (hidden : Text → Text → Prop)
    (s s' : Setup) : Prop where
  builder_eq : s'.settings.builderDescription = s.settings.builderDescription
  runs : Outcomes (Session.Seen login hidden) s.run s'.run

theorem Session.Disguised.seen {d : Disguise} {s s' : Session} (h : s.Disguised d s')
    (steps : List Step) : Seen d.login d.hidden (s.run steps) (s'.run steps) := by
  obtain ⟨hresults, hlast⟩ := h.run steps
  have hlog := hlast.worlds.log
  refine ⟨hresults, hlast.backend_eq, ?_, ?_, hlast.handles_eq, World.exchanges_sameBut hlog,
    World.scopes_of_sameBut hlog, hlast.worlds.answers_eq, hlast.worlds.raised_eq⟩
  · rw [hlast.backend_eq]
    rfl
  · rw [hlast.backend_eq]
    rfl

/-- A disguise of the beginning is one of the whole session. -/
theorem Setup.run_seen (d : Disguise) {s s' : Setup}
    (hbackend : s'.backend = s.backend.map (Backend.mapLogin d.login))
    (hworlds : ∀ b, d.Worlds (s.start b).world (s'.start b).world) (hsteps : s'.steps = s.steps) :
    Outcomes (Session.Seen d.login d.hidden) s.run s'.run := by
  unfold run
  rw [hbackend, hsteps]
  cases s.backend with
  | error e => exact .failed e
  | ok b =>
      have hstart : (s.start b).Disguised d (s'.start (b.mapLogin d.login)) :=
        ⟨rfl, rfl, hworlds b⟩
      exact .given (hstart.seen s.steps)

section Settings

variable {key : Text} (key' : Text)

/-- With another key in the settings the loader has that key, or none of the two. -/
theorem Loader.resolve_rekey (args : LoaderArgs) (env : Environment)
    (hkey : args.accountKey = some key) (hne : key ≠ []) (hne' : key' ≠ []) :
    Loader.resolve { args with accountKey := some key' } env false =
      (Loader.resolve args env false).map (Loader.mapLogin (Login.rekey key key')) := by
  unfold resolve
  simp only [hkey, Signing.given_some hne, Signing.given_some hne', Bool.false_eq_true, if_false]
  cases (given args.accountName).or (env.value? accountNameVariable) with
  | some name => simp [Except.map, mapLogin, Login.rekey]
  | none =>
      dsimp only [Option.some_or]
      split
      · next tenant client clientSecret _ _ _ =>
        cases Application.check ⟨tenant, client, .secret clientSecret⟩ with
        | error e => rfl
        | ok _ =>
            cases normalizeAuthority ((given args.authorityHost).getD defaultAuthorityHost) <;> rfl
      · cases LoginChain.check ((given args.authorityHost).getD defaultAuthorityHost) env <;> rfl

namespace Settings

theorem build_rekey (s : Settings) (env : Environment) (hkey : s.accountKey = some key)
    (hne : key ≠ []) (hne' : key' ≠ []) :
    ({ s with accountKey := some key' } : Settings).build env =
      (s.build env).map (Backend.mapLogin (Login.rekey key key')) := by
  unfold build
  dsimp only
  split
  · rfl
  · cases given s.endpoint with
    | none => rfl
    | some endpoint =>
        dsimp only
        generalize (given s.accountName).or _ = accountName
        have hloader := Loader.resolve_rekey key'
          { accountName, accountKey := s.accountKey, tenantId := s.tenantId, clientId := s.clientId
            clientSecret := s.clientSecret, authorityHost := s.authorityHost } env hkey hne hne'
        dsimp only at hloader
        rw [hloader]
        cases Loader.resolve _ env false <;> rfl

/-- A key that is set is shown as one that is hidden. -/
theorem builderDescription_rekey (s : Settings) (hkey : s.accountKey = some key) :
    ({ s with accountKey := some key' } : Settings).builderDescription = s.builderDescription := by
  have hshown : ({ s with accountKey := some key' } : Settings).shownField? = s.shownField? := by
    funext f
    cases f <;> simp [shownField?, get, hkey, Field.isHidden]
  unfold builderDescription description
  rw [hshown]

end Settings

end Settings

namespace Setup

/-- Secrets are seen nowhere but in the header with the right to a request. Whatever the
settings, the environment, the time, the answers and the steps of a session are, with another
account key in the settings everything is the same but for the signatures, and with other
tokens everything is the same but for the tokens in that header. -/
theorem indistinct_of_other_secret :
    (∀ (s : Setup) (key key' : Text) (secret secret' : Bytes),
      s.settings.accountKey = some key → key ≠ [] → key' ≠ [] →
      Signing.keyBytes key = .ok secret → Signing.keyBytes key' = .ok secret' →
      s.Indistinct (Login.rekey key key') (Signing.OtherSignature secret secret')
        { s with settings := { s.settings with accountKey := some key' } }) ∧
    ∀ (s : Setup) (tokens' : List TokenAnswer),
      List.Forall₂ TokenAnswer.OtherToken s.tokens tokens' →
      s.Indistinct id Signing.OtherBearer { s with tokens := tokens' } := by
  constructor
  · intro s key key' secret secret' hkey hne hne' hsecret hsecret'
    refine ⟨s.settings.builderDescription_rekey key' hkey, ?_⟩
    refine run_seen (.ofKeys hsecret hsecret') ?_ (fun b => ⟨rfl, rfl, rfl, rfl, rfl, .nil⟩) rfl
    unfold backend
    dsimp only
    rw [s.settings.build_rekey key' s.env hkey hne hne']
    cases s.settings.build s.env with
    | error e => rfl
    | ok b =>
        simp only [Except.map]
        split <;> rfl
  · intro s tokens' hsame
    refine ⟨rfl, run_seen .ofTokens ?_ (fun b => ⟨rfl, rfl, rfl, rfl, hsame, .nil⟩) rfl⟩
    unfold backend
    cases s.settings.build s.env <;> rfl

/-- A directory is made, a file is written into it, and the directory is looked at. -/
def writingSetup : Setup where
  settings :=
    { filesystem := "fs", endpoint := some "https://acct.dfs.core.windows.net"
      accountKey := some "a2V5" }
  answers := [.response ⟨201, [], [], ""⟩, .response ⟨201, [], [], ""⟩, .response ⟨202, [], [], ""⟩]
  steps := [.createDir "logs", .openWrite "w" "logs/a" none none none,
    .on "w" (.writer (.write [1, 2])), .on "w" .close, .stat "logs"]

/-- The same with a token source, which fails once between two tokens. -/
def tokenSetup : Setup :=
  { writingSetup with
    tokenSource := true, tokens := [.token "t", .failure ⟨"ValueError", [], none⟩, .token "u"] }

/-- An account with one key or another, and a token source with some tokens or others. -/
theorem indistinct_writing :
    ((writingSetup.backend.toOption.map fun b => b.loader.login) =
        some (.sharedKey "acct" "a2V5") ∧
      writingSetup.Indistinct (Login.rekey "a2V5" "b3RoZXI=")
        (Signing.OtherSignature [107, 101, 121] [111, 116, 104, 101, 114])
        { writingSetup with
          settings := { writingSetup.settings with accountKey := some "b3RoZXI=" } }) ∧
    (tokenSetup.run.toOption.map fun out => out.2.world.sent.length) = some 2 ∧
      tokenSetup.Indistinct id Signing.OtherBearer
        { tokenSetup with
          tokens := [.token "v", .failure ⟨"ValueError", [], none⟩, .token "u"] } := by
  have hkey : Signing.keyBytes "a2V5" = .ok [107, 101, 121] := by rfl
  have hkey' : Signing.keyBytes "b3RoZXI=" = .ok [111, 116, 104, 101, 114] := by rfl
  refine ⟨⟨by decide +kernel, ?_⟩, by decide +kernel, ?_⟩
  · exact indistinct_of_other_secret.1 writingSetup "a2V5" "b3RoZXI=" _ _ rfl (by decide)
      (by decide) hkey hkey'
  · refine indistinct_of_other_secret.2 tokenSetup _ (.cons ?_ (.cons ?_ (.cons ?_ .nil)))
    · exact .inr ⟨"t", "v", by decide, by decide, rfl, rfl⟩
    · exact .inl rfl
    · exact .inl rfl

end Setup

end DataLake
