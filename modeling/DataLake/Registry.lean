import DataLake.Builder

/-!
Named backends. A backend is built from its section of the configuration when
its name is first asked for, and kept; later changes of the configuration do
not reach it. A name that could not be built is tried again the next time.
-/

namespace DataLake

/-- A configuration and the backends built so far, in the order of building.
The position of a backend is its identity. -/
structure Registry where
  config : Json
  env : Environment := []
  built : List (Text × Backend) := []

namespace Registry

def sectionsPath : List Text :=
  ["azdls", "backends"]

/-- The value at a path of keys, or null where the path leads nowhere. -/
def lookup (j : Json) : List Text → Json
  | [] => j
  | key :: rest =>
      match j.field? key with
      | some inner => lookup inner rest
      | none => .null

/-- The settings in a section, which has to be an object. -/
def settingsOf (value : Json) : Except Failure Settings :=
  match value with
  | .object fields => .ok (Settings.ofFields fields)
  | _ => .error .wrongShape

def unknownFault (name : Text) : Failure :=
  .fault ({ cause := .backendUnknown name : Fault }.withOperation
    "StorageController::get_backend")

def build (r : Registry) (name : Text) : Except Failure Backend :=
  let found := lookup r.config (sectionsPath ++ [name])
  if found.isVoid then .error (unknownFault name)
  else do
    let settings ← settingsOf found
    settings.build r.env

/-- The identity and the backend of a name that was built before. -/
def find? (r : Registry) (name : Text) : Option (Nat × Backend) :=
  match r.built.findIdx? fun e => e.1 == name with
  | some i => r.built[i]?.map fun e => (i, e.2)
  | none => none

def get (r : Registry) (name : Text) : Except Failure (Nat × Backend) × Registry :=
  match r.find? name with
  | some found => (.ok found, r)
  | none =>
      match r.build name with
      | .error e => (.error e, r)
      | .ok b => (.ok (r.built.length, b), { r with built := r.built ++ [(name, b)] })

/-- The names that have a section, in the order of the configuration. -/
def names (r : Registry) : Except Failure (List Text) :=
  let sections := lookup r.config sectionsPath
  if sections.isVoid then .ok []
  else
    match sections with
    | .object fields => .ok (fields.map fun f => f.1)
    | _ => .error .wrongShape

def setConfig (r : Registry) (config : Json) : Registry :=
  { r with config }

end Registry

end DataLake
