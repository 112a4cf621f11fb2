import DataLake.Proofs.Construction

/-!
Precedence of logins. A login is documented to be taken from the first of these that is there:
the account key of the settings, the application of the settings, the account key of the
environment, the platform. The key of the environment is merged into that of the settings
before the application is looked at, so with both an application and an account name it comes
before its turn, and nowhere else is the order another one.
-/

namespace DataLake

namespace Settings

/-- The account name: the one of the settings, or else the one in the endpoint, or else the one
of the environment. -/
def accountName? (s : Settings) (env : Environment) : Option Text :=
  (given ((given s.accountName).or
    (inferAccountName (Path.dropTrailingSlashes (s.endpoint.getD []))))).or
      (env.value? Loader.accountNameVariable)

/-- The application that the settings describe, if its description is complete. -/
def application? (s : Settings) : Option Application :=
  match given s.tenantId, given s.clientId, given s.clientSecret with
  | some tenant, some client, some secret => some ⟨tenant, client, .secret secret⟩
  | _, _, _ => none

/-- The authority that is asked for tokens. -/
def authority (s : Settings) : Text :=
  (given s.authorityHost).getD Loader.defaultAuthorityHost

def keyLogin? (name key : Option Text) : Option Login :=
  match name, key with
  | some name, some key => some (.sharedKey name key)
  | _, _ => none

def applicationLogin? (s : Settings) : Option Login :=
  s.application?.map fun _ => .clientSecret

/-- The login of the key of the environment, if it has one. -/
def environmentLogin? (s : Settings) (env : Environment) : Option Login :=
  keyLogin? (s.accountName? env) (env.value? Loader.accountKeyVariable)

/-- The login by the documented order. -/
def documentedLogin (s : Settings) (env : Environment) : Login :=
  (((keyLogin? (s.accountName? env) (given s.accountKey)).or s.applicationLogin?).or
    (s.environmentLogin? env)).getD .platform

/-- The key of the environment stands where the application of the settings should: the settings
have an application and no key, and an account name and a key come without them. -/
def Overridden (s : Settings) (env : Environment) : Prop :=
  s.application? ≠ none ∧ given s.accountKey = none ∧ s.environmentLogin? env ≠ none

/-- The login that is decided on. -/
def decidedLogin (s : Settings) (env : Environment) : Login :=
  ((keyLogin? (s.accountName? env)
    ((given s.accountKey).or (env.value? Loader.accountKeyVariable))).or
      s.applicationLogin?).getD .platform

/-- What can be known of a login before it is used is acceptable. -/
def Acceptable (s : Settings) (env : Environment) : Login → Prop
  | .sharedKey _ _ => True
  | .token => False
  | .clientSecret =>
      (∀ a, s.application? = some a → Application.isTenant a.tenant = true) ∧
        ∃ host, normalizeAuthority s.authority = .ok host
  | .platform => LoginChain.check s.authority env = .ok ()

variable (s : Settings) (env : Environment)

/-- The environment comes before its turn, or the decision is the documented one. -/
theorem decidedLogin_eq_documentedLogin_iff :
    s.decidedLogin env = s.documentedLogin env ↔ ¬ s.Overridden env := by
  unfold decidedLogin documentedLogin Overridden environmentLogin? applicationLogin?
  cases s.accountName? env <;> cases given s.accountKey <;> cases s.application? <;>
    cases env.value? Loader.accountKeyVariable <;> simp [keyLogin?]

/-- An application is the decision exactly if no key takes its place. -/
theorem decidedLogin_eq_clientSecret_iff (happlication : s.application? ≠ none)
    (hkey : given s.accountKey = none) :
    s.decidedLogin env = .clientSecret ↔ ¬ s.Overridden env := by
  unfold decidedLogin Overridden environmentLogin? applicationLogin?
  rw [hkey]
  cases ha : s.application? with
  | none => exact absurd ha happlication
  | some a =>
      cases s.accountName? env <;> cases env.value? Loader.accountKeyVariable <;> simp [keyLogin?]

theorem decidedLogin_of_overridden (h : s.Overridden env) :
    ∃ name key, s.accountName? env = some name ∧
      env.value? Loader.accountKeyVariable = some key ∧
        s.decidedLogin env = .sharedKey name key := by
  obtain ⟨_, hkey, hlogin⟩ := h
  unfold decidedLogin
  rw [hkey, Option.none_or]
  unfold environmentLogin? keyLogin? at hlogin
  split at hlogin
  · next name key hname henv =>
    rw [hname, henv]
    exact ⟨name, key, rfl, rfl, rfl⟩
  · exact absurd rfl hlogin

/-- An application that the settings describe has nothing to be refused for but its tenant. -/
theorem check_application {a : Application} (h : s.application? = some a) :
    a.check = if Application.isTenant a.tenant then .ok () else .error .credentialMalformed := by
  unfold application? at h
  split at h
  · next tenant client secret _ hclient hsecret =>
    cases h
    obtain ⟨_, hclientNe⟩ := Signing.given_eq_some hclient
    obtain ⟨_, hsecretNe⟩ := Signing.given_eq_some hsecret
    unfold Application.check
    cases Application.isTenant tenant <;> simp [hclientNe, hsecretNe]
  · cases h

/-- The login is the one that is decided on, if it is acceptable. -/
theorem resolve_loaderArgs {endpoint : Text} (h : given s.endpoint = some endpoint)
    (loader : Loader) :
    Loader.resolve (s.loaderArgs (Path.dropTrailingSlashes endpoint)) env false = .ok loader ↔
      s.Acceptable env (s.decidedLogin env) ∧
        loader = ⟨s.decidedLogin env, s.accountName? env, s.authority⟩ := by
  have hname : (given (s.loaderArgs (Path.dropTrailingSlashes endpoint)).accountName).or
      (env.value? Loader.accountNameVariable) = s.accountName? env := by
    unfold accountName?
    rw [(Signing.given_eq_some h).1]
    rfl
  -- Without an account name and a key there is the application, and then the platform.
  have hkeyless (hnone : keyLogin? (s.accountName? env)
      ((given s.accountKey).or (env.value? Loader.accountKeyVariable)) = none) :
      (match given s.tenantId, given s.clientId, given s.clientSecret with
        | some tenant, some client, some secret => do
            Application.check ⟨tenant, client, .secret secret⟩
            let _ ← normalizeAuthority s.authority
            return ⟨.clientSecret, s.accountName? env, s.authority⟩
        | _, _, _ => do
            LoginChain.check s.authority env
            return ⟨.platform, s.accountName? env, s.authority⟩) = Except.ok loader ↔
      s.Acceptable env (s.decidedLogin env) ∧
        loader = ⟨s.decidedLogin env, s.accountName? env, s.authority⟩ := by
    unfold decidedLogin applicationLogin?
    rw [hnone, Option.none_or]
    split
    · next tenant client secret htenant hclient hsecret =>
      have happlication : s.application? = some ⟨tenant, client, .secret secret⟩ := by
        unfold application?
        rw [htenant, hclient, hsecret]
      rw [check_application s happlication, happlication]
      cases htrusted : Application.isTenant tenant with
      | false => simp [Acceptable, happlication, htrusted, bind, Except.bind]
      | true =>
          cases hauthority : normalizeAuthority s.authority with
          | error e => simp [Acceptable, happlication, htrusted, hauthority, bind, Except.bind]
          | ok host =>
              simp [Acceptable, happlication, htrusted, hauthority, bind, Except.bind, pure,
                Except.pure, @eq_comm _ _ loader]
    · next hincomplete =>
      have happlication : s.application? = none := by
        unfold application?
        split
        · next htenant hclient hsecret => exact absurd hsecret (hincomplete _ _ _ htenant hclient)
        · rfl
      rw [happlication]
      cases hchain : LoginChain.check s.authority env with
      | error e => simp [Acceptable, hchain, bind, Except.bind]
      | ok u => simp [Acceptable, hchain, bind, Except.bind, pure, Except.pure, @eq_comm _ _ loader]
  unfold Loader.resolve
  rw [hname]
  dsimp only
  rw [if_neg Bool.false_ne_true]
  change (match s.accountName? env, (given s.accountKey).or (env.value? Loader.accountKeyVariable)
    with
    | some name, some key => Except.ok (⟨.sharedKey name key, s.accountName? env, s.authority⟩ : Loader)
    | _, _ => _) = _ ↔ _
  split
  · next name key hn hk =>
    unfold decidedLogin
    rw [hn, hk]
    simp [keyLogin?, Acceptable, @eq_comm _ _ loader]
  · next hnone =>
    apply hkeyless
    unfold keyLogin?
    split
    · next hn hk => exact absurd hk (hnone _ _ hn)
    · rfl

/-- A backend is built exactly if both settings that are required are there and the login that
is decided on is acceptable. -/
theorem build_ok_iff (b : Backend) :
    s.build env = .ok b ↔ s.filesystem ≠ [] ∧ s.Acceptable env (s.decidedLogin env) ∧
      ∃ endpoint, given s.endpoint = some endpoint ∧
        b = s.backendWith (Path.dropTrailingSlashes endpoint)
          ⟨s.decidedLogin env, s.accountName? env, s.authority⟩ := by
  constructor
  · intro h
    obtain ⟨hfilesystem, endpoint, loader, hendpoint, hloader, rfl⟩ := build_ok env h
    obtain ⟨hacceptable, rfl⟩ := (s.resolve_loaderArgs env hendpoint loader).mp hloader
    exact ⟨hfilesystem, hacceptable, endpoint, hendpoint, rfl⟩
  · rintro ⟨hfilesystem, hacceptable, endpoint, hendpoint, rfl⟩
    have hloader := (s.resolve_loaderArgs env hendpoint _).mpr ⟨hacceptable, rfl⟩
    rw [build_of_required env hfilesystem hendpoint, hloader]
    rfl

/-- The login of a backend is the documented one, unless the settings have an application and no
key, and the environment has a key to an account that has a name; then that key is used. A
backend is built exactly if both settings that are required are there and its login is
acceptable, and an application with no key beside it is used exactly if no key of the
environment takes its place. -/
theorem login_documented_iff :
    (∀ b, s.build env = .ok b →
      (b.loader.login = s.documentedLogin env ↔ ¬ s.Overridden env) ∧
      (s.Overridden env → ∃ name key, s.accountName? env = some name ∧
        env.value? Loader.accountKeyVariable = some key ∧
          b.loader.login = .sharedKey name key) ∧
      (s.application? ≠ none → given s.accountKey = none →
        (b.loader.login = .clientSecret ↔ ¬ s.Overridden env))) ∧
    ((∃ b, s.build env = .ok b) ↔
      s.filesystem ≠ [] ∧ given s.endpoint ≠ none ∧
        (s.Overridden env ∨ s.Acceptable env (s.documentedLogin env))) := by
  refine ⟨fun b hb => ?_, ?_⟩
  · obtain ⟨_, _, endpoint, _, rfl⟩ := (s.build_ok_iff env b).mp hb
    exact ⟨s.decidedLogin_eq_documentedLogin_iff env, s.decidedLogin_of_overridden env,
      s.decidedLogin_eq_clientSecret_iff env⟩
  · have hacceptable : s.Acceptable env (s.decidedLogin env) ↔
        s.Overridden env ∨ s.Acceptable env (s.documentedLogin env) := by
      by_cases h : s.Overridden env
      · obtain ⟨name, key, _, _, hlogin⟩ := s.decidedLogin_of_overridden env h
        simp [hlogin, h, Acceptable]
      · rw [(s.decidedLogin_eq_documentedLogin_iff env).mpr h]
        simp [h]
    simp only [build_ok_iff, hacceptable, Option.ne_none_iff_exists']
    constructor
    · rintro ⟨b, hfilesystem, hlogin, endpoint, hendpoint, _⟩
      exact ⟨hfilesystem, ⟨endpoint, hendpoint⟩, hlogin⟩
    · rintro ⟨hfilesystem, ⟨endpoint, hendpoint⟩, hlogin⟩
      exact ⟨_, hfilesystem, hlogin, endpoint, hendpoint, rfl⟩

def reporting : Settings where
  filesystem := "data"
  endpoint := some "https://acct.dfs.core.windows.net"
  tenantId := some "t"
  clientId := some "c"
  clientSecret := some "s"

def keyEnvironment : Environment :=
  [(Loader.accountKeyVariable, "a2V5")]

theorem login_documented_reporting :
    ∃ b, reporting.build [] = .ok b ∧ b.loader.login = .clientSecret ∧
      reporting.documentedLogin [] = .clientSecret := by
  have happlication : reporting.application? = some ⟨"t", "c", .secret "s"⟩ := rfl
  have hplain : ¬ reporting.Overridden [] := fun h => h.2.2 (by decide)
  have hdocumented : reporting.documentedLogin [] = .clientSecret := by decide
  have hhost : normalizeAuthority reporting.authority =
      .ok "https://login.microsoftonline.com" := by rfl
  have hacceptable : reporting.Acceptable [] (reporting.documentedLogin []) := by
    rw [hdocumented]
    refine ⟨fun a ha => ?_, _, hhost⟩
    cases happlication.symm.trans ha
    decide
  obtain ⟨b, hb⟩ := (login_documented_iff reporting []).2.mpr
    ⟨by decide +kernel, by decide +kernel, .inr hacceptable⟩
  obtain ⟨hlogin, _, _⟩ := (login_documented_iff reporting []).1 b hb
  exact ⟨b, hb, (hlogin.mpr hplain).trans hdocumented, hdocumented⟩

/-- The key of an environment comes before the application of the settings, which the same
settings use without it. -/
theorem environment_key_taken_first :
    reporting.documentedLogin keyEnvironment = .clientSecret ∧
      ((reporting.build []).toOption.map fun b => b.loader.login) = some .clientSecret ∧
      ((reporting.build keyEnvironment).toOption.map fun b => b.loader.login) =
        some (.sharedKey "acct" "a2V5") := by
  decide +kernel

end Settings

end DataLake
