import DataLake.LoginChain

/-!
Credentials. A login decides once, from the settings and the environment, how
requests are authenticated: with an account key, with the tokens of a token
source, as a registered application, or by the login chain of the platform.
-/

namespace DataLake

inductive Login where
  | sharedKey (accountName accountKey : Text)
  | token
  | clientSecret
  | platform
  deriving DecidableEq, Repr

structure Loader where
  login : Login
  accountName : Option Text
  authorityHost : Text
  deriving DecidableEq, Repr

structure LoaderArgs where
  accountName : Option Text := none
  accountKey : Option Text := none
  tenantId : Option Text := none
  clientId : Option Text := none
  clientSecret : Option Text := none
  authorityHost : Option Text := none

/-- A text that is not empty. -/
def given (t : Option Text) : Option Text :=
  t.bind fun t => if t.isEmpty then none else some t

namespace Loader

def defaultAuthorityHost : Text :=
  "https://login.microsoftonline.com"

def accountNameVariable : Text :=
  "AZURE_STORAGE_ACCOUNT_NAME"

def accountKeyVariable : Text :=
  "AZURE_STORAGE_ACCOUNT_KEY"

/-- The loader for the given settings. A token source goes before everything,
an account name with a key before an application, and that before the platform. -/
def resolve (args : LoaderArgs) (env : Environment) (tokenSource : Bool) :
    Except Failure Loader :=
  let accountName := (given args.accountName).or (env.value? accountNameVariable)
  let accountKey := (given args.accountKey).or (env.value? accountKeyVariable)
  let authorityHost := (given args.authorityHost).getD defaultAuthorityHost
  if tokenSource then .ok ⟨.token, accountName, authorityHost⟩
  else
    match accountName, accountKey with
    | some name, some key => .ok ⟨.sharedKey name key, accountName, authorityHost⟩
    | _, _ =>
        match given args.tenantId, given args.clientId, given args.clientSecret with
        | some tenant, some client, some secret => do
            Application.check ⟨tenant, client, .secret secret⟩
            let _ ← normalizeAuthority authorityHost
            return ⟨.clientSecret, accountName, authorityHost⟩
        | _, _, _ => do
            LoginChain.check authorityHost env
            return ⟨.platform, accountName, authorityHost⟩

end Loader

structure Credential where
  accountName : Option Text := none
  accountKey : Option Text := none
  token : Option Text := none
  deriving DecidableEq, Repr

def Credential.isSharedKey (c : Credential) : Bool :=
  c.accountKey.isSome

/-- What was the matter when a token source failed. -/
inductive InnerTrouble where
  | connectTimeout
  | connection
  | other
  deriving DecidableEq, Repr

/-- A failure of a token source: the name of its class, its message, and the
failure behind it. -/
structure TokenFailure where
  className : Text
  message : Text
  inner : Option InnerTrouble := none

inductive TokenAnswer where
  | token (t : Text)
  | failure (f : TokenFailure)

namespace TokenFailure

/-- Classes that are no failures of the login service. -/
def foreignClasses : List Text :=
  ["ValueError", "RuntimeError"]

/-- Classes whose message is never empty. -/
def answerClasses : List Text :=
  ["HttpResponseError", "ClientAuthenticationError", "ResourceNotFoundError",
    "ResourceExistsError", "DecodeError"]

def shownMessage (f : TokenFailure) : Text :=
  if f.message.isEmpty && answerClasses.contains f.className then
    "Operation returned an invalid status 'None'"
  else f.message

def trouble (f : TokenFailure) : LoginTrouble :=
  if f.className == "ClientAuthenticationError" then .rejected
  else
    match f.inner with
    | some .connectTimeout => .connectTimeout
    | some .connection => .connection
    | _ => .other

def toFailure (f : TokenFailure) : Failure :=
  if foreignClasses.contains f.className then .tokenSource f.className
  else .ofCause (.loginFailed f.trouble f.className f.shownMessage)

end TokenFailure

end DataLake
