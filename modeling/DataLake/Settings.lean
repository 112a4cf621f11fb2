import DataLake.Json
import DataLake.Path

/-!
Connection settings. The filesystem and the endpoint are required in the end,
all else is optional. Empty values given to a setter leave a setting alone,
except that the filesystem is always replaced. Descriptions hide the account
and the secrets.
-/

namespace DataLake

/-- The settings, in the order in which they are shown. -/
inductive Field where
  | root
  | filesystem
  | endpoint
  | accountName
  | accountKey
  | tenantId
  | clientId
  | clientSecret
  | authorityHost
  deriving DecidableEq, Repr

namespace Field

def all : List Field :=
  [root, filesystem, endpoint, accountName, accountKey, tenantId, clientId, clientSecret,
    authorityHost]

def name : Field → Text
  | root => "root"
  | filesystem => "filesystem"
  | endpoint => "endpoint"
  | accountName => "account_name"
  | accountKey => "account_key"
  | tenantId => "tenant_id"
  | clientId => "client_id"
  | clientSecret => "client_secret"
  | authorityHost => "authority_host"

def isHidden : Field → Bool
  | accountName | accountKey | clientSecret => true
  | _ => false

def ofName? (t : Text) : Option Field :=
  all.find? fun f => f.name == t

end Field

structure Settings where
  root : Option Text := none
  filesystem : Text := []
  endpoint : Option Text := none
  accountName : Option Text := none
  accountKey : Option Text := none
  tenantId : Option Text := none
  clientId : Option Text := none
  clientSecret : Option Text := none
  authorityHost : Option Text := none
  deriving DecidableEq, Repr

namespace Settings

def get (s : Settings) : Field → Option Text
  | .root => s.root
  | .filesystem => some s.filesystem
  | .endpoint => s.endpoint
  | .accountName => s.accountName
  | .accountKey => s.accountKey
  | .tenantId => s.tenantId
  | .clientId => s.clientId
  | .clientSecret => s.clientSecret
  | .authorityHost => s.authorityHost

def put (s : Settings) (f : Field) (value : Text) : Settings :=
  match f with
  | .root => { s with root := some value }
  | .filesystem => { s with filesystem := value }
  | .endpoint => { s with endpoint := some value }
  | .accountName => { s with accountName := some value }
  | .accountKey => { s with accountKey := some value }
  | .tenantId => { s with tenantId := some value }
  | .clientId => { s with clientId := some value }
  | .clientSecret => { s with clientSecret := some value }
  | .authorityHost => { s with authorityHost := some value }

/-- What a setter makes of the value it is given: the endpoint loses the slashes
at its end. -/
def trimmed (f : Field) (value : Text) : Text :=
  match f with
  | .endpoint => Path.dropTrailingSlashes value
  | _ => value

def assign (s : Settings) (f : Field) (value : Option Text) : Settings :=
  let given := value.getD []
  match f with
  | .filesystem => s.put f given
  | _ => if given.isEmpty then s else s.put f (trimmed f given)

/-- The settings in the fields of an object. Names that are no setting and null
values are passed over; a value that is no text is taken as it is shown. -/
def ofFields (fields : List (Text × Json)) : Settings :=
  fields.foldl
    (fun s (key, value) =>
      match Field.ofName? key, value with
      | _, .null => s
      | some f, value => s.put f value.text
      | none, _ => s)
    {}

def shownField? (s : Settings) (f : Field) : Option Text :=
  (s.get f).map fun value =>
    let shown : Text := if f.isHidden then "'<redacted>'" else Text.quoted value
    f.name ++ "=" ++ shown

def description (s : Settings) : Text :=
  "ConnectionConfig(" ++ Text.joinWith ", " (Field.all.filterMap s.shownField?) ++ ")"

end Settings

end DataLake
