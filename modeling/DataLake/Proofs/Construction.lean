import DataLake.Proofs.NormalRoot
import DataLake.Proofs.Secrecy

/-!
The construction of backends. The settings come from a mapping and from the calls of setters,
and the last value that was given to a setting is the one that counts. Only the setter of the
endpoint trims what it is given. A backend that is built has its root and its endpoint in their
normal form, and a setting that is missing is told by its name.
-/

namespace DataLake

section Plain

/-! What the check of a login finds wrong is no fault of the library. -/

variable (f : Fault)

private theorem bind_ne_fault {α β : Type} {x : Except Failure α} {g : α → Except Failure β}
    (hx : x ≠ .error (.fault f)) (hg : ∀ a, g a ≠ .error (.fault f)) :
    x >>= g ≠ .error (.fault f) := by
  cases x with
  | error e =>
      intro h
      cases h
      exact hx rfl
  | ok a => exact hg a

private theorem map_ne_fault {α β : Type} {x : Except Failure α} {g : α → β}
    (hx : x ≠ .error (.fault f)) : x.map g ≠ .error (.fault f) := by
  cases x with
  | error e =>
      intro h
      cases h
      exact hx rfl
  | ok a => simp [Except.map]

theorem normalizeAuthority_plain (name : Text) : normalizeAuthority name ≠ .error (.fault f) := by
  unfold normalizeAuthority
  split
  · simp
  · split
    · simp
    · split <;> simp

theorem Application.check_plain (a : Application) : a.check ≠ .error (.fault f) := by
  unfold check
  split <;> split <;> simp

theorem ChainLink.check_plain (links : List ChainLink) (authority : Text) (env : Environment)
    (link : ChainLink) : link.check links authority env ≠ .error (.fault f) := by
  have hauthority (name : Text) :
      (normalizeAuthority name).map (fun _ => ()) ≠ .error (.fault f) :=
    map_ne_fault f (normalizeAuthority_plain f name)
  have hown : checkOwnAuthority env ≠ .error (.fault f) := by
    unfold checkOwnAuthority
    split
    · exact hauthority _
    · simp
  cases link with
  | environment =>
      dsimp only [check]
      split
      · exact bind_ne_fault f (Application.check_plain f _) fun _ => hauthority _
      · simp
  | managedIdentity =>
      dsimp only [check, checkWorkload]
      split
      · split
        · simp
        · exact hown
      · simp
  | sharedTokenCache => exact hauthority _
  | interactiveBrowser =>
      refine bind_ne_fault f hown fun _ => ?_
      split
      · split <;> simp
      · simp
  | workloadIdentity | visualStudioCode | azureCli | azurePowerShell | azureDeveloperCli =>
      simp [check]

theorem LoginChain.check_plain (authorityHost : Text) (env : Environment) :
    LoginChain.check authorityHost env ≠ .error (.fault f) := by
  have hlinks (authority : Text) (links rest : LoginChain) :
      rest.forM (ChainLink.check links authority env) ≠ .error (.fault f) := by
    induction rest with
    | nil => simp [pure, Except.pure]
    | cons link rest ih =>
        exact bind_ne_fault f (ChainLink.check_plain f links authority env link) fun _ => ih
  refine bind_ne_fault f (normalizeAuthority_plain f _) fun authority => ?_
  refine bind_ne_fault f ?_ fun links => hlinks authority links links
  unfold ofEnvironment
  split <;> simp

theorem Loader.resolve_plain (args : LoaderArgs) (env : Environment) (tokenSource : Bool) :
    Loader.resolve args env tokenSource ≠ .error (.fault f) := by
  unfold resolve
  dsimp only
  split
  · simp
  · split
    · simp
    · split
      · exact bind_ne_fault f (Application.check_plain f _) fun _ =>
          bind_ne_fault f (normalizeAuthority_plain f _) fun _ => by simp [pure, Except.pure]
      · exact bind_ne_fault f (LoginChain.check_plain f _ _) fun _ => by simp [pure, Except.pure]

end Plain

namespace Settings

theorem get_put (s : Settings) (f g : Field) (value : Text) :
    (s.put f value).get g = if f = g then some value else s.get g := by
  cases f <;> cases g <;> rfl

/-- The value that a setting is left with by a call of its setter, unless it stays as it is. -/
def assigned? (f : Field) (value : Option Text) : Option Text :=
  if f = .filesystem then some (value.getD []) else (given value).map (trimmed f)

theorem get_assign (s : Settings) (f g : Field) (value : Option Text) :
    (s.assign f value).get g = if f = g then (assigned? f value).or (s.get g) else s.get g := by
  have hother (hf : f ≠ .filesystem) :
      (s.assign f value).get g = if f = g then (assigned? f value).or (s.get g) else s.get g := by
    have hassign : s.assign f value =
        if (value.getD []).isEmpty then s else s.put f (trimmed f (value.getD [])) := by
      cases f <;> first | rfl | exact absurd rfl hf
    rw [hassign, assigned?, if_neg hf]
    cases value with
    | none => simp [given]
    | some value =>
        by_cases hempty : value = []
        · simp [given, hempty]
        · simp [given, hempty, get_put]
  by_cases hf : f = .filesystem
  · subst hf
    exact get_put s _ g _
  · exact hother hf

/-- The value that a setting is left with by an entry of a mapping, unless it stays as it is. -/
def mapped? (f : Field) (entry : Text × Json) : Option Text :=
  match entry.2 with
  | .null => none
  | value => if Field.ofName? entry.1 = some f then some value.text else none

/-- When each of several changes puts its value into a setting or leaves the setting alone, the
last value is the one that counts. -/
private theorem get_foldl {α : Type} {change : Settings → α → Settings} {f : Field}
    {value : α → Option Text} (h : ∀ s a, (change s a).get f = (value a).or (s.get f))
    (changes : List α) (s : Settings) :
    (changes.foldl change s).get f = ((changes.filterMap value).getLast?).or (s.get f) := by
  induction changes generalizing s with
  | nil => rfl
  | cons a changes ih =>
      rw [List.foldl_cons, ih, h, List.filterMap_cons]
      cases value a with
      | none => rfl
      | some t =>
          rw [List.getLast?_cons]
          cases (changes.filterMap value).getLast? <;> rfl

/-- A setting has the last value that a call of its setter left it with. -/
theorem get_assigns (calls : List (Field × Option Text)) (s : Settings) (f : Field) :
    (calls.foldl (fun s call => s.assign call.1 call.2) s).get f =
      ((calls.filterMap fun call =>
        if call.1 = f then assigned? f call.2 else none).getLast?).or (s.get f) := by
  apply get_foldl
  rintro s ⟨g, value⟩
  rw [get_assign]
  dsimp only
  split
  · next hg => rw [hg]
  · rfl

end Settings

/-- What a backend is built from: the fields of a mapping, in order, and the calls of setters
after it, each with a value or none. -/
structure Construction where
  fields : List (Text × Json) := []
  calls : List (Field × Option Text) := []

namespace Construction

/-- The value that a setting got from the mapping. -/
def mapped? (c : Construction) (f : Field) : Option Text :=
  (c.fields.filterMap (Settings.mapped? f)).getLast?

/-- The value that a setting got from its setter. -/
def assigned? (c : Construction) (f : Field) : Option Text :=
  (c.calls.filterMap fun call =>
    if call.1 = f then Settings.assigned? f call.2 else none).getLast?

def settings (c : Construction) : Settings :=
  c.calls.foldl (fun s call => s.assign call.1 call.2) (Settings.ofFields c.fields)

/-- A setting has the last value that its setter left it with, or else the one of the mapping. -/
theorem get_settings (c : Construction) (f : Field) :
    c.settings.get f =
      (c.assigned? f).or ((c.mapped? f).or (if f = .filesystem then some [] else none)) := by
  have hfields : (Settings.ofFields c.fields).get f =
      (c.mapped? f).or (({} : Settings).get f) := by
    apply Settings.get_foldl
    rintro s ⟨key, value⟩
    unfold Settings.mapped?
    cases value <;> cases hkey : Field.ofName? key <;>
      simp [hkey, Settings.get_put, apply_ite (fun t : Option Text => t.or (s.get f))]
  have hcalls : c.settings.get f =
      (c.assigned? f).or ((Settings.ofFields c.fields).get f) :=
    Settings.get_assigns c.calls _ f
  rw [hcalls, hfields]
  cases f <;> rfl

/-- The name of the filesystem; empty without one. -/
def filesystem (c : Construction) : Text :=
  ((c.assigned? .filesystem).or (c.mapped? .filesystem)).getD []

/-- The endpoint without slashes at its end; empty without one. -/
def endpoint (c : Construction) : Text :=
  Path.dropTrailingSlashes (((c.assigned? .endpoint).or (c.mapped? .endpoint)).getD [])

/-- The root; empty without one. -/
def root (c : Construction) : Text :=
  ((c.assigned? .root).or (c.mapped? .root)).getD []

/-- The endpoint comes from the mapping, where it is nothing but slashes. -/
def MappedSlashes (c : Construction) : Prop :=
  c.assigned? .endpoint = none ∧ ∃ slashes, c.mapped? .endpoint = some slashes ∧ slashes ≠ [] ∧
    ∀ x ∈ slashes, x = .char '/'

theorem settings_filesystem (c : Construction) : c.settings.filesystem = c.filesystem := by
  have h : some c.settings.filesystem = _ := c.get_settings .filesystem
  rw [if_pos rfl] at h
  unfold filesystem
  rw [← Option.getD_some (a := c.settings.filesystem) (b := []), h]
  cases c.assigned? .filesystem <;> cases c.mapped? .filesystem <;> rfl

theorem settings_endpoint (c : Construction) :
    c.settings.endpoint = (c.assigned? .endpoint).or (c.mapped? .endpoint) := by
  have h := c.get_settings .endpoint
  rwa [if_neg (by decide), Option.or_none] at h

theorem settings_root (c : Construction) :
    c.settings.root = (c.assigned? .root).or (c.mapped? .root) := by
  have h := c.get_settings .root
  rwa [if_neg (by decide), Option.or_none] at h

/-- What the setter of the endpoint leaves has no slash at its end. -/
theorem dropTrailingSlashes_assigned {c : Construction} {t : Text}
    (h : c.assigned? .endpoint = some t) : Path.dropTrailingSlashes t = t := by
  have hmem := List.mem_of_getLast? h
  obtain ⟨call, _, hcall⟩ := List.mem_filterMap.mp hmem
  split at hcall
  · obtain ⟨value, _, rfl⟩ := Option.map_eq_some_iff.mp hcall
    exact Path.dropTrailingSlashes_idem value
  · cases hcall

theorem endpoint_eq_nil_of_slashes {c : Construction} (h : c.MappedSlashes) : c.endpoint = [] := by
  obtain ⟨hassigned, slashes, hmapped, _, hslashes⟩ := h
  unfold endpoint
  rw [hassigned, hmapped]
  exact Path.dropTrailingSlashes_eq_nil_iff.mpr hslashes

/-- The settings have no endpoint exactly if none is left after it was trimmed, apart from
slashes in the mapping. -/
theorem given_endpoint_eq_none_iff (c : Construction) :
    given c.settings.endpoint = none ↔ c.endpoint = [] ∧ ¬ c.MappedSlashes := by
  rw [settings_endpoint]
  unfold endpoint MappedSlashes
  cases hassigned : c.assigned? .endpoint with
  | some t =>
      have htrimmed := dropTrailingSlashes_assigned hassigned
      simp [given, htrimmed]
  | none =>
      cases hmapped : c.mapped? .endpoint with
      | none => simp [given, Path.dropTrailingSlashes_eq_nil_iff]
      | some t =>
          rw [Option.none_or, Option.getD_some, Path.dropTrailingSlashes_eq_nil_iff]
          by_cases hempty : t = [] <;> simp [given, hempty]

end Construction

namespace Settings

/-- What the login of a backend is decided from, next to the environment. -/
def loaderArgs (s : Settings) (endpoint : Text) : LoaderArgs where
  accountName := (given s.accountName).or (inferAccountName endpoint)
  accountKey := s.accountKey
  tenantId := s.tenantId
  clientId := s.clientId
  clientSecret := s.clientSecret
  authorityHost := s.authorityHost

def backendWith (s : Settings) (endpoint : Text) (loader : Loader) : Backend where
  location :=
    { root := Path.normalizeRoot (s.root.getD []), filesystem := s.filesystem, endpoint }
  loader := loader

/-- The construction ended with the fault for a setting that is missing. -/
def Rejected (f : Field) (r : Except Failure Backend) : Prop :=
  ∃ x : Fault, r = .error (.fault x) ∧ x.cause.family = .configuration (some f.name) ∧
    x.operation = some (Text.ofString "Builder::build") ∧
    x.context = [(Text.ofString "service", Backend.serviceName)]

variable {s : Settings} (env : Environment)

theorem build_without_filesystem (h : s.filesystem = []) :
    s.build env = .error (fault .filesystemEmpty) := by
  unfold build
  rw [if_pos (List.isEmpty_iff.mpr h)]

theorem build_without_endpoint (hfilesystem : s.filesystem ≠ []) (h : given s.endpoint = none) :
    s.build env = .error (fault .endpointEmpty) := by
  unfold build
  rw [if_neg (by simpa using hfilesystem), h]

/-- With both settings that are required, only the login can stand in the way. -/
theorem build_of_required {endpoint : Text} (hfilesystem : s.filesystem ≠ [])
    (h : given s.endpoint = some endpoint) :
    s.build env =
      (Loader.resolve (s.loaderArgs (Path.dropTrailingSlashes endpoint)) env false).map
        (s.backendWith (Path.dropTrailingSlashes endpoint)) := by
  unfold build
  rw [if_neg (by simpa using hfilesystem), h]
  change (Loader.resolve (s.loaderArgs (Path.dropTrailingSlashes endpoint)) env false >>= _) = _
  cases Loader.resolve (s.loaderArgs (Path.dropTrailingSlashes endpoint)) env false <;> rfl

theorem build_ok {b : Backend} (h : s.build env = .ok b) :
    s.filesystem ≠ [] ∧ ∃ endpoint loader, given s.endpoint = some endpoint ∧
      Loader.resolve (s.loaderArgs (Path.dropTrailingSlashes endpoint)) env false = .ok loader ∧
      b = s.backendWith (Path.dropTrailingSlashes endpoint) loader := by
  by_cases hfilesystem : s.filesystem = []
  · rw [build_without_filesystem env hfilesystem] at h
    cases h
  · refine ⟨hfilesystem, ?_⟩
    cases hendpoint : given s.endpoint with
    | none =>
        rw [build_without_endpoint env hfilesystem hendpoint] at h
        cases h
    | some endpoint =>
        rw [build_of_required env hfilesystem hendpoint] at h
        cases hloader : Loader.resolve (s.loaderArgs (Path.dropTrailingSlashes endpoint)) env false with
        | error e =>
            rw [hloader] at h
            cases h
        | ok loader =>
            rw [hloader] at h
            cases h
            exact ⟨endpoint, loader, rfl, hloader, rfl⟩

theorem rejected_filesystem_iff : Rejected .filesystem (s.build env) ↔ s.filesystem = [] := by
  constructor
  · rintro ⟨x, hx, hfamily, _⟩
    by_contra hfilesystem
    cases hendpoint : given s.endpoint with
    | none =>
        rw [build_without_endpoint env hfilesystem hendpoint] at hx
        cases hx
        cases hfamily
    | some endpoint =>
        rw [build_of_required env hfilesystem hendpoint] at hx
        exact map_ne_fault x (Loader.resolve_plain x _ env false) hx
  · intro h
    rw [build_without_filesystem env h]
    exact ⟨_, rfl, rfl, rfl, rfl⟩

theorem rejected_endpoint_iff :
    Rejected .endpoint (s.build env) ↔ s.filesystem ≠ [] ∧ given s.endpoint = none := by
  constructor
  · rintro ⟨x, hx, hfamily, _⟩
    by_cases hfilesystem : s.filesystem = []
    · rw [build_without_filesystem env hfilesystem] at hx
      cases hx
      cases hfamily
    · refine ⟨hfilesystem, ?_⟩
      cases hendpoint : given s.endpoint with
      | none => rfl
      | some endpoint =>
          rw [build_of_required env hfilesystem hendpoint] at hx
          exact absurd hx (map_ne_fault x (Loader.resolve_plain x _ env false))
  · rintro ⟨hfilesystem, hendpoint⟩
    rw [build_without_endpoint env hfilesystem hendpoint]
    exact ⟨_, rfl, rfl, rfl, rfl⟩

end Settings

namespace Construction

/-- Whatever the mapping, the calls of setters and the environment are: nothing is sent; a
backend that is built has a filesystem, an endpoint without a slash at its end, and a normal
root; and a setting that is missing is told by its name, the filesystem before the endpoint.
The one gap are slashes that the mapping gives as the endpoint. They are trimmed after the
check for an endpoint, and exactly with them a backend without one is built. -/
theorem build_usable_iff (c : Construction) (env : Environment) :
    (∀ b, c.settings.build env = .ok b →
      b.location = ⟨Path.normalizeRoot c.root, c.filesystem, c.endpoint⟩ ∧
      b.location.filesystem ≠ [] ∧
      b.location.endpoint.getLast? ≠ some (.char '/') ∧
      Path.IsNormal b.location.root ∧
      (b.location.endpoint ≠ [] ↔ ¬ c.MappedSlashes)) ∧
    (Settings.Rejected .filesystem (c.settings.build env) ↔ c.filesystem = []) ∧
    (Settings.Rejected .endpoint (c.settings.build env) ↔
      c.filesystem ≠ [] ∧ c.endpoint = [] ∧ ¬ c.MappedSlashes) ∧
    ∀ setup : Setup, setup.settings = c.settings → setup.env = env → setup.steps = [] →
      ∀ out, setup.run = .ok out →
        out.2.world.log = [] ∧ out.2.world.answers = setup.answers := by
  refine ⟨fun b hb => ?_, ?_, ?_, ?_⟩
  · obtain ⟨hfilesystem, endpoint, loader, hendpoint, _, rfl⟩ := Settings.build_ok env hb
    have hsame : Path.dropTrailingSlashes endpoint = c.endpoint := by
      have hgiven := (Signing.given_eq_some hendpoint).1
      rw [settings_endpoint] at hgiven
      unfold Construction.endpoint
      rw [hgiven]
      rfl
    rw [settings_filesystem] at hfilesystem
    have hroot : c.settings.root.getD [] = c.root := by
      rw [settings_root]
      rfl
    refine ⟨?_, ?_, Path.getLast?_dropTrailingSlashes _, Path.isNormal_normalizeRoot _, ?_⟩
    · simp only [Settings.backendWith, hroot, settings_filesystem, hsame]
    · simpa only [Settings.backendWith, settings_filesystem] using hfilesystem
    · change Path.dropTrailingSlashes endpoint ≠ [] ↔ _
      rw [hsame]
      refine ⟨fun hne hslashes => hne (endpoint_eq_nil_of_slashes hslashes), fun hslashes hnone => ?_⟩
      rw [(c.given_endpoint_eq_none_iff).mpr ⟨hnone, hslashes⟩] at hendpoint
      cases hendpoint
  · rw [Settings.rejected_filesystem_iff, settings_filesystem]
  · rw [Settings.rejected_endpoint_iff, settings_filesystem, given_endpoint_eq_none_iff]
  · intro setup _ _ hsteps out hout
    unfold Setup.run at hout
    cases hbackend : setup.backend with
    | error e =>
        rw [hbackend] at hout
        cases hout
    | ok b =>
        rw [hbackend, hsteps] at hout
        cases hout
        exact ⟨rfl, rfl⟩

/-- A mapping with slashes for its endpoint, which a setter then replaces. -/
def archiving : Construction where
  fields := [("filesystem", .string "data"), ("endpoint", .string "//"),
    ("root", .string "archive//logs/")]
  calls := [(.endpoint, some "https://acct.dfs.core.windows.net//"), (.accountKey, some "a2V5")]

theorem build_usable_archiving :
    ∃ b, archiving.settings.build [] = .ok b ∧
      b.location = ⟨"/archive/logs", "data", "https://acct.dfs.core.windows.net"⟩ ∧
      Path.IsNormal b.location.root ∧ b.location.endpoint ≠ [] := by
  have hbuilt : (archiving.settings.build []).toOption.isSome = true := by decide +kernel
  cases hb : archiving.settings.build [] with
  | error e =>
      rw [hb] at hbuilt
      cases hbuilt
  | ok b =>
      obtain ⟨hlocation, _, _, hroot, hendpoint⟩ := (build_usable_iff archiving []).1 b hb
      have hset : archiving.assigned? .endpoint ≠ none := by decide
      exact ⟨b, rfl, hlocation, hroot, hendpoint.mpr fun hslashes => hset hslashes.1⟩

/-- A lone slash in the mapping passes for an endpoint, and a backend without one is built. -/
theorem built_without_endpoint :
    ((({ fields := [("filesystem", .string "data"), ("endpoint", .string "/")] } :
      Construction).settings.build []).toOption.map fun b => b.location.endpoint) = some [] := by
  decide +kernel

end Construction

end DataLake
