import DataLake.Backend
import DataLake.Settings

/-!
Building a backend from settings. Nothing is sent; the required settings are
checked, the root and the endpoint are brought to their normal form, and the
login is decided.
-/

namespace DataLake

/-- The hosts of the service after the account name. -/
def knownHosts : List Text :=
  ["dfs.core.windows.net", "dfs.core.usgovcloudapi.net", "dfs.core.chinacloudapi.cn"]

def dropWebScheme (endpoint : Text) : Text :=
  (((Text.ofString "http://").isPrefixOf? endpoint).or
    ((Text.ofString "https://").isPrefixOf? endpoint)).getD endpoint

/-- The account name at the front of an endpoint, if a known host follows it. -/
def inferAccountName (endpoint : Text) : Option Text :=
  let (name, host) := Text.cutFirst '.' (dropWebScheme endpoint)
  if knownHosts.contains (Text.lower (Path.dropTrailingSlashes (host.getD []))) then some name
  else none

namespace Settings

def fault (cause : Cause) : Failure :=
  .fault (({ cause : Fault }.withOperation "Builder::build").withContext "service"
    (some Backend.serviceName))

def build (s : Settings) (env : Environment) : Except Failure Backend := do
  if s.filesystem.isEmpty then .error (fault .filesystemEmpty)
  else
    match given s.endpoint with
    | none => .error (fault .endpointEmpty)
    | some endpoint =>
        let endpoint := Path.dropTrailingSlashes endpoint
        let loader ← Loader.resolve
          { accountName := (given s.accountName).or (inferAccountName endpoint)
            accountKey := s.accountKey
            tenantId := s.tenantId
            clientId := s.clientId
            clientSecret := s.clientSecret
            authorityHost := s.authorityHost }
          env false
        return {
          location :=
            { root := Path.normalizeRoot (s.root.getD []), filesystem := s.filesystem, endpoint }
          loader }

def builderDescription (s : Settings) : Text :=
  "AdapterBuilder(config=" ++ s.description ++ ")"

end Settings

end DataLake
