import DataLake.Application
import DataLake.Text.Blank
import DataLake.Text.Case

/-!
The login chain of the platform: the ways to a token that are tried in turn when
the settings name none. A variable of the environment can narrow the chain to the
links of developers, to those of deployed programs, or to a single link. What
can be known to be wrong with a link stops the login before any link is tried.
-/

namespace DataLake

/-- A way to a token, in the order of the chain. -/
inductive ChainLink where
  | environment
  | workloadIdentity
  | managedIdentity
  | sharedTokenCache
  | visualStudioCode
  | azureCli
  | azurePowerShell
  | azureDeveloperCli
  | interactiveBrowser
  deriving DecidableEq, Repr

namespace ChainLink

def all : List ChainLink :=
  [environment, workloadIdentity, managedIdentity, sharedTokenCache, visualStudioCode, azureCli,
    azurePowerShell, azureDeveloperCli, interactiveBrowser]

/-- The name by which a link can be asked for alone. The shared token cache has
none. -/
def name? : ChainLink → Option Text
  | environment => some "environmentcredential"
  | workloadIdentity => some "workloadidentitycredential"
  | managedIdentity => some "managedidentitycredential"
  | sharedTokenCache => none
  | visualStudioCode => some "visualstudiocodecredential"
  | azureCli => some "azureclicredential"
  | azurePowerShell => some "azurepowershellcredential"
  | azureDeveloperCli => some "azuredeveloperclicredential"
  | interactiveBrowser => some "interactivebrowsercredential"

def ofName? (t : Text) : Option ChainLink :=
  all.find? fun link => link.name? == some t

def isDeployed : ChainLink → Bool
  | environment | workloadIdentity | managedIdentity => true
  | _ => false

/-- Whether a link serves developers at work. The browser belongs to neither
group: it has to be asked for by name. -/
def isDeveloper (link : ChainLink) : Bool :=
  !link.isDeployed && link != interactiveBrowser

/-- The variable with the authority of the links that bring their own. -/
def authorityVariable : Text :=
  "AZURE_AUTHORITY_HOST"

/-- The variables of a workload identity, none of which may be empty. -/
def workloadVariables : List Text :=
  [authorityVariable, "AZURE_TENANT_ID", "AZURE_FEDERATED_TOKEN_FILE"]

def describesWorkload (env : Environment) : Bool :=
  workloadVariables.all fun name => (env.value? name).isSome

def checkOwnAuthority (env : Environment) : Except Failure Unit :=
  match env.get? authorityVariable with
  | some name => (normalizeAuthority name).map fun _ => ()
  | none => .ok ()

/-- Checks the workload identity that the environment describes: it needs the
client that it stands for. -/
def checkWorkload (env : Environment) : Except Failure Unit :=
  if (env.value? "AZURE_CLIENT_ID").isNone then .error .credentialMalformed
  else checkOwnAuthority env

/-- Checks what can be known of a link before it is asked for a token, given the
links of its chain and the normal form of the authority. Links that read the
authority bring it into normal form again. A workload identity that cannot be had
is told only when it is asked for a token, but a managed identity that may stand
in for one looks at its description at once. -/
def check (links : List ChainLink) (authority : Text) (env : Environment) :
    ChainLink → Except Failure Unit
  | environment =>
      match Application.ofEnvironment? env with
      | some application => do
          application.check
          (normalizeAuthority authority).map fun _ => ()
      | none => .ok ()
  | managedIdentity =>
      if links.contains workloadIdentity && describesWorkload env then checkWorkload env
      else .ok ()
  | sharedTokenCache => (normalizeAuthority authority).map fun _ => ()
  | interactiveBrowser => do
      checkOwnAuthority env
      match env.value? "AZURE_TENANT_ID" with
      | some tenant => if Application.isTenant tenant then .ok () else .error .credentialMalformed
      | none => .ok ()
  | workloadIdentity | visualStudioCode | azureCli | azurePowerShell | azureDeveloperCli => .ok ()

end ChainLink

abbrev LoginChain := List ChainLink

namespace LoginChain

def choiceVariable : Text :=
  "AZURE_TOKEN_CREDENTIALS"

/-- The chain that is asked for by a group or the name of a link. Case and blanks
at the ends do not matter, and an empty choice asks for both groups. -/
def ofChoice? (choice : Text) : Option LoginChain :=
  let choice := Text.lower (Text.strip choice)
  if choice.isEmpty then some (ChainLink.all.filter fun link => link.isDeployed || link.isDeveloper)
  else if choice == "dev" then some (ChainLink.all.filter ChainLink.isDeveloper)
  else if choice == "prod" then some (ChainLink.all.filter ChainLink.isDeployed)
  else (ChainLink.ofName? choice).map fun link => [link]

def ofEnvironment (env : Environment) : Except Failure LoginChain :=
  match ofChoice? ((env.get? choiceVariable).getD []) with
  | some links => .ok links
  | none => .error .credentialMalformed

/-- Checks the chain of an environment for the authority of the given name. -/
def check (authorityHost : Text) (env : Environment) : Except Failure Unit := do
  let authority ← normalizeAuthority authorityHost
  let links ← ofEnvironment env
  links.forM (ChainLink.check links authority env)

end LoginChain

end DataLake
