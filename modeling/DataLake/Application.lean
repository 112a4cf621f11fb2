import DataLake.Failure
import DataLake.Url.Parts

/-!
Registered applications. An application is known to a tenant of an authority,
and shows who it is with a secret, a certificate or the password of a user. The
environment can describe one by variables; a description is complete when all of
its variables are there, even if one of them is empty.
-/

namespace DataLake

abbrev Environment := List (Text × Text)

namespace Environment

/-- The value of a variable, which may be empty. -/
def get? (env : Environment) (name : Text) : Option Text :=
  (env.find? fun e => e.1 == name).map Prod.snd

/-- The value of a variable, unless it is empty. -/
def value? (env : Environment) (name : Text) : Option Text :=
  (env.get? name).bind fun value => if value.isEmpty then none else some value

end Environment

/-- The authority of the given name in the form in which it is asked for tokens:
with the secure scheme, and without spaces and slashes at its end. A name with
another scheme is refused. -/
def normalizeAuthority (name : Text) : Except Failure Text :=
  let bare := Text.dropEndWhile (fun c => c == ' ' || c == '/') name
  match Url.Parts.ofUrl? name with
  | none => .error .authorityMalformed
  | some parts =>
      if parts.scheme.isEmpty then .ok ("https://" ++ bare)
      else if parts.scheme == "https" then .ok bare
      else .error .credentialMalformed

inductive Evidence where
  | secret (secret : Text)
  | certificate (path : Text)
  | password

structure Application where
  tenant : Text
  client : Text
  evidence : Evidence

namespace Application

def isTenant (t : Text) : Bool :=
  !t.isEmpty && t.all fun c => c.isAsciiAlphanum || c == '-' || c == '.'

/-- Checks what can be known of an application before it asks for a token. There
is a tenant for all users of passwords, and no certificate is at hand. -/
def check (a : Application) : Except Failure Unit :=
  match a.evidence with
  | .secret secret =>
      if a.client.isEmpty || secret.isEmpty || !isTenant a.tenant then .error .credentialMalformed
      else .ok ()
  | .certificate path =>
      if path.isEmpty || !isTenant a.tenant then .error .credentialMalformed
      else .error .fileMissing
  | .password =>
      if a.tenant.isEmpty || isTenant a.tenant then .ok () else .error .credentialMalformed

/-- The application that the environment describes, if it does. A secret goes
before a certificate, and that before a password. -/
def ofEnvironment? (env : Environment) : Option Application :=
  let value (name : String) : Option Text := env.get? name
  match value "AZURE_CLIENT_ID" with
  | none => none
  | some client =>
      match value "AZURE_TENANT_ID", value "AZURE_CLIENT_SECRET",
        value "AZURE_CLIENT_CERTIFICATE_PATH" with
      | some tenant, some secret, _ => some ⟨tenant, client, .secret secret⟩
      | some tenant, none, some path => some ⟨tenant, client, .certificate path⟩
      | tenant, _, _ =>
          if (value "AZURE_USERNAME").isSome && (value "AZURE_PASSWORD").isSome then
            some ⟨tenant.getD [], client, .password⟩
          else none

end Application

end DataLake
