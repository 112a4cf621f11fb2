import DataLake.Registry
import DataLake.Proofs.Along
import DataLake.Proofs.Attempt

/-!
Runs of a registry of named backends. What the registry has of a name is what it gave for it
before: the backend of the first section of that name that could be built. A call that fails
leaves no trace, and what a name is answered depends on the configurations and on nothing that
is asked for under other names.
-/

namespace DataLake

namespace Registry

def sectionOf (config : Json) (name : Text) : Json :=
  lookup config (sectionsPath ++ [name])

/-- The section of a name has settings that a backend can be built from. -/
def Builds (env : Environment) (config : Json) (name : Text) (b : Backend) : Prop :=
  ∃ fields, fields ≠ [] ∧ sectionOf config name = .object fields ∧
    (Settings.ofFields fields).build env = .ok b

/-- Why there is no backend of a name: it has no section or an empty one, its section is no
object, or nothing can be built from the settings there. -/
inductive Fails (env : Environment) (config : Json) (name : Text) : Failure → Prop where
  | unknown (hvoid : (sectionOf config name).isVoid = true) :
      Fails env config name (unknownFault name)
  | misshapen (hvalue : (sectionOf config name).isVoid = false)
      (hshape : ∀ fields, sectionOf config name ≠ .object fields) :
      Fails env config name .wrongShape
  | unbuildable {fields : List (Text × Json)} {e : Failure} (hne : fields ≠ [])
      (hsection : sectionOf config name = .object fields)
      (hbuild : (Settings.ofFields fields).build env = .error e) : Fails env config name e

theorem Fails.not_builds {env : Environment} {config : Json} {name : Text} {e : Failure}
    (h : Fails env config name e) (b : Backend) : ¬ Builds env config name b := by
  rintro ⟨fields, hne, hsection, hbuild⟩
  cases h with
  | unknown hvoid =>
      rw [hsection] at hvoid
      exact hne (List.isEmpty_iff.mp hvoid)
  | misshapen _ hshape => exact hshape fields hsection
  | unbuildable _ hsection' hbuild' =>
      cases hsection.symm.trans hsection'
      cases hbuild.symm.trans hbuild'

theorem build_eq (r : Registry) (name : Text) :
    r.build name =
      if (sectionOf r.config name).isVoid then .error (unknownFault name)
      else settingsOf (sectionOf r.config name) >>= fun s => s.build r.env :=
  rfl

/-- Building a name gives the backend of its section, or tells why there is none. -/
theorem build_cases (r : Registry) (name : Text) :
    (∃ b, r.build name = .ok b ∧ Builds r.env r.config name b) ∨
      ∃ e, r.build name = .error e ∧ Fails r.env r.config name e := by
  rw [build_eq]
  cases hvoid : (sectionOf r.config name).isVoid with
  | true => exact .inr ⟨_, rfl, .unknown hvoid⟩
  | false =>
      rw [if_neg Bool.false_ne_true]
      cases hsection : sectionOf r.config name with
      | object fields =>
          have hne : fields ≠ [] := by
            rintro rfl
            rw [hsection] at hvoid
            cases hvoid
          change (∃ b, (Settings.ofFields fields).build r.env = .ok b ∧ _) ∨
            ∃ e, (Settings.ofFields fields).build r.env = .error e ∧ _
          cases hbuild : (Settings.ofFields fields).build r.env with
          | ok b => exact .inl ⟨b, rfl, fields, hne, hsection, hbuild⟩
          | error e => exact .inr ⟨e, rfl, .unbuildable hne hsection hbuild⟩
      | _ => exact .inr ⟨_, rfl, .misshapen hvoid fun fields => by simp [hsection]⟩

theorem builds_of_build {r : Registry} {name : Text} {b : Backend} (h : r.build name = .ok b) :
    Builds r.env r.config name b := by
  rcases r.build_cases name with ⟨b', hbuild, hbuilds⟩ | ⟨e, hbuild, _⟩
  · cases h.symm.trans hbuild
    exact hbuilds
  · cases h.symm.trans hbuild

theorem fails_of_build {r : Registry} {name : Text} {e : Failure} (h : r.build name = .error e) :
    Fails r.env r.config name e := by
  rcases r.build_cases name with ⟨b, hbuild, _⟩ | ⟨e', hbuild, hfails⟩
  · cases h.symm.trans hbuild
  · cases h.symm.trans hbuild
    exact hfails

section Find

variable {r : Registry} {name other : Text}

/-- What was found of a name stands under that name at the place that it is known by. -/
theorem getElem?_of_find? {id : Nat} {b : Backend} (h : r.find? name = some (id, b)) :
    r.built[id]? = some (name, b) := by
  unfold find? at h
  split at h
  · next i hi =>
    obtain ⟨hlt, hname, _⟩ := List.findIdx?_eq_some_iff_getElem.mp hi
    rw [List.getElem?_eq_getElem hlt] at h
    cases h
    rw [List.getElem?_eq_getElem hlt, ← beq_iff_eq.mp hname]
  · cases h

theorem findIdx?_eq_none (h : r.find? name = none) :
    (r.built.findIdx? fun e => e.1 == name) = none := by
  unfold find? at h
  split at h
  · next i hi =>
    obtain ⟨hlt, _, _⟩ := List.findIdx?_eq_some_iff_getElem.mp hi
    rw [List.getElem?_eq_getElem hlt] at h
    cases h
  · assumption

/-- A backend that was built is found from then on, and the others as before. -/
theorem find?_built (h : r.find? name = none) (b : Backend) :
    { r with built := r.built ++ [(name, b)] }.find? other =
      if other = name then some (r.built.length, b) else r.find? other := by
  by_cases hsame : other = name
  · subst hsame
    unfold find?
    simp [List.findIdx?_append, findIdx?_eq_none h]
  · have hlast : ([(name, b)] : List (Text × Backend)).findIdx? (fun e => e.1 == other) = none := by
      simp [Ne.symm hsame]
    rw [if_neg hsame]
    unfold find?
    dsimp only
    rw [List.findIdx?_append, hlast]
    cases hi : r.built.findIdx? (fun e => e.1 == other) with
    | none => rfl
    | some i =>
        obtain ⟨hlt, _, _⟩ := List.findIdx?_eq_some_iff_getElem.mp hi
        simp [List.getElem?_append_left hlt]

end Find

inductive Call where
  | get (name : Text)
  | names
  | setConfig (config : Json)

/-- What a call gives. The number of a backend tells which object it is. -/
inductive Outcome where
  | backend (id : Nat) (b : Backend)
  | names (names : List Text)
  | nothing

def Outcome.backend? : Outcome → Option Backend
  | backend _ b => some b
  | _ => none

def Call.run (call : Call) (r : Registry) : Except Failure Outcome × Registry :=
  match call with
  | get name =>
      match r.get name with
      | (found, r) => (found.map fun x => .backend x.1 x.2, r)
  | names => (r.names.map .names, r)
  | setConfig config => (.ok .nothing, r.setConfig config)

/-- What a call can do to a registry. Only a backend that is built and another configuration
change anything. -/
inductive Does (r : Registry) : Call → Except Failure Outcome → Registry → Prop where
  | found {name : Text} {id : Nat} {b : Backend} (hfind : r.find? name = some (id, b)) :
      Does r (.get name) (.ok (.backend id b)) r
  | built {name : Text} {b : Backend} (hnone : r.find? name = none)
      (hbuild : r.build name = .ok b) :
      Does r (.get name) (.ok (.backend r.built.length b))
        { r with built := r.built ++ [(name, b)] }
  | failed {name : Text} {e : Failure} (hnone : r.find? name = none)
      (hbuild : r.build name = .error e) : Does r (.get name) (.error e) r
  | names : Does r .names (r.names.map .names) r
  | configured (config : Json) : Does r (.setConfig config) (.ok .nothing) (r.setConfig config)

theorem Call.run_does (call : Call) (r : Registry) :
    Does r call (call.run r).1 (call.run r).2 := by
  cases call with
  | get name =>
      unfold Call.run Registry.get
      dsimp only
      cases hfind : r.find? name with
      | some found => exact .found hfind
      | none =>
          cases hbuild : r.build name with
          | ok b => exact .built hfind hbuild
          | error e => exact .failed hfind hbuild
  | names => exact .names
  | setConfig config => exact .configured config

/-- A call that fails leaves the registry as it is. -/
theorem Call.run_error {call : Call} {r : Registry} {e : Failure}
    (h : (call.run r).1 = .error e) : (call.run r).2 = r := by
  have hdoes := call.run_does r
  rw [h] at hdoes
  generalize (call.run r).2 = r' at hdoes
  generalize hresult : Except.error e = result at hdoes
  cases hdoes with
  | failed | names => rfl
  | found | built | configured => cases hresult

structure Turn where
  call : Call
  result : Except Failure Outcome

def run (r : Registry) : List Call → List Turn × Registry
  | [] => ([], r)
  | call :: calls =>
      match call.run r with
      | (result, r) =>
          match run r calls with
          | (turns, r) => (⟨call, result⟩ :: turns, r)

theorem run_cons (r : Registry) (call : Call) (calls : List Call) :
    run r (call :: calls) =
      (⟨call, (call.run r).1⟩ :: (run (call.run r).2 calls).1, (run (call.run r).2 calls).2) :=
  rfl

/-- The turn gave the name this backend. -/
def Turn.Gives (t : Turn) (name : Text) (id : Nat) (b : Backend) : Prop :=
  t = ⟨.get name, .ok (.backend id b)⟩

/-- The configuration after some turns: the one that came last. -/
def configAfter (config : Json) (past : List Turn) : Json :=
  past.foldl
    (fun config t =>
      match t.call with
      | .setConfig config => config
      | _ => config)
    config

theorem configAfter_concat (config : Json) (past : List Turn) (t : Turn) :
    configAfter config (past ++ [t]) =
      match t.call with
      | .setConfig config => config
      | _ => configAfter config past := by
  unfold configAfter
  rw [List.foldl_append]
  rfl

/-- The name was given no backend. -/
def New (past : List Turn) (name : Text) : Prop :=
  ∀ t ∈ past, ∀ id b, ¬ t.Gives name id b

/-- How a call goes after some others. A name that was given a backend is given it again. Any
other name is given the backend of its section in the configuration as it is now, which is
another object than those before; or the call tells why there is none. -/
inductive Follows (env : Environment) (config : Json) (past : List Turn) : Turn → Prop where
  | again {name : Text} {id : Nat} {b : Backend} (hgiven : ∃ t ∈ past, t.Gives name id b) :
      Follows env config past ⟨.get name, .ok (.backend id b)⟩
  | built {name : Text} {id : Nat} {b : Backend} (hnew : New past name)
      (hbuilds : Builds env (configAfter config past) name b)
      (hother : ∀ t ∈ past, ∀ name' b', ¬ t.Gives name' id b') :
      Follows env config past ⟨.get name, .ok (.backend id b)⟩
  | failed {name : Text} {e : Failure} (hnew : New past name)
      (hfails : Fails env (configAfter config past) name e) :
      Follows env config past ⟨.get name, .error e⟩
  | names : Follows env config past
      ⟨.names, ({ config := configAfter config past, env : Registry }.names).map .names⟩
  | configured (config' : Json) : Follows env config past ⟨.setConfig config', .ok .nothing⟩

/-- What a registry is after some turns. -/
structure Reached (env : Environment) (config : Json) (past : List Turn) (r : Registry) :
    Prop where
  env_eq : r.env = env
  config_eq : r.config = configAfter config past
  /-- What it has is what it gave. -/
  find?_iff : ∀ name id b, r.find? name = some (id, b) ↔ ∃ t ∈ past, t.Gives name id b

variable {env : Environment} {config : Json} {past : List Turn} {r : Registry}

theorem Reached.new (h : Reached env config past r) {name : Text} (hnone : r.find? name = none) :
    New past name := by
  intro t ht id b hgives
  have hfound := (h.find?_iff name id b).mpr ⟨t, ht, hgives⟩
  rw [hnone] at hfound
  cases hfound

/-- A turn that gives no new backend leaves what the registry has. -/
theorem Reached.skip (h : Reached env config past r) {t : Turn} {r' : Registry}
    (henv : r'.env = r.env) (hconfig : r'.config = configAfter config (past ++ [t]))
    (hbuilt : r'.built = r.built)
    (hgiven : ∀ name id b, t.Gives name id b → r.find? name = some (id, b)) :
    Reached env config (past ++ [t]) r' := by
  refine ⟨henv.trans h.env_eq, hconfig, fun name id b => ?_⟩
  have hfind : r'.find? name = r.find? name := by
    unfold find?
    rw [hbuilt]
  rw [hfind]
  constructor
  · intro hfound
    obtain ⟨t', ht', hgives⟩ := (h.find?_iff name id b).mp hfound
    exact ⟨t', List.mem_append_left _ ht', hgives⟩
  · rintro ⟨t', ht', hgives⟩
    rcases List.mem_append.mp ht' with hpast | hlast
    · exact (h.find?_iff name id b).mpr ⟨t', hpast, hgives⟩
    · rw [List.mem_singleton.mp hlast] at hgives
      exact hgiven name id b hgives

theorem Reached.build (h : Reached env config past r) {name : Text} (hnone : r.find? name = none)
    (b : Backend) :
    Reached env config (past ++ [⟨.get name, .ok (.backend r.built.length b)⟩])
      { r with built := r.built ++ [(name, b)] } := by
  refine ⟨h.env_eq, ?_, fun other id b' => ?_⟩
  · rw [configAfter_concat]
    exact h.config_eq
  · rw [find?_built hnone]
    constructor
    · intro hfound
      split at hfound
      · next hsame =>
        cases hfound
        subst hsame
        exact ⟨_, List.mem_append_right _ (List.mem_singleton_self _), rfl⟩
      · obtain ⟨t, ht, hgives⟩ := (h.find?_iff other id b').mp hfound
        exact ⟨t, List.mem_append_left _ ht, hgives⟩
    · rintro ⟨t, ht, hgives⟩
      rcases List.mem_append.mp ht with hpast | hlast
      · have hother : other ≠ name := by
          rintro rfl
          exact h.new hnone t hpast id b' hgives
        rw [if_neg hother]
        exact (h.find?_iff other id b').mpr ⟨t, hpast, hgives⟩
      · rw [List.mem_singleton.mp hlast] at hgives
        cases hgives
        exact if_pos rfl

/-- A call follows the rule, and keeps what the registry is. -/
theorem Reached.step (h : Reached env config past r) {call : Call}
    {result : Except Failure Outcome} {r' : Registry} (hdoes : Does r call result r') :
    Follows env config past ⟨call, result⟩ ∧ Reached env config (past ++ [⟨call, result⟩]) r' := by
  cases hdoes with
  | found hfind =>
      refine ⟨.again ((h.find?_iff _ _ _).mp hfind), h.skip rfl ?_ rfl ?_⟩
      · exact (configAfter_concat ..).symm ▸ h.config_eq
      · rintro name id b hgives
        cases hgives
        exact hfind
  | @built name b hnone hbuild =>
      have hbuilds : Builds env (configAfter config past) name b := by
        rw [← h.env_eq, ← h.config_eq]
        exact builds_of_build hbuild
      refine ⟨.built (h.new hnone) hbuilds ?_, h.build hnone b⟩
      -- The numbers that were given stand for places that are taken.
      intro t ht name' b' hgives
      have hplace := getElem?_of_find? ((h.find?_iff name' _ b').mpr ⟨t, ht, hgives⟩)
      simp at hplace
  | @failed name e hnone hbuild =>
      have hfails : Fails env (configAfter config past) name e := by
        rw [← h.env_eq, ← h.config_eq]
        exact fails_of_build hbuild
      refine ⟨.failed (h.new hnone) hfails, h.skip rfl ?_ rfl ?_⟩
      · exact (configAfter_concat ..).symm ▸ h.config_eq
      · rintro _ _ _ hgives
        cases hgives
  | names =>
      have hnames : r.names = ({ config := configAfter config past, env : Registry }).names := by
        unfold Registry.names
        rw [h.config_eq]
      refine ⟨hnames ▸ .names, h.skip rfl ?_ rfl ?_⟩
      · exact (configAfter_concat ..).symm ▸ h.config_eq
      · rintro _ _ _ hgives
        cases hgives
  | configured config' =>
      refine ⟨.configured config', h.skip rfl ?_ rfl ?_⟩
      · rw [configAfter_concat]
        rfl
      · rintro _ _ _ hgives
        cases hgives

theorem Reached.run (h : Reached env config past r) (calls : List Call) :
    Along (Follows env config) past (Registry.run r calls).1 ∧
      Reached env config (past ++ (Registry.run r calls).1) (Registry.run r calls).2 := by
  induction calls generalizing past r with
  | nil => exact ⟨trivial, by simpa [Registry.run] using h⟩
  | cons call calls ih =>
      obtain ⟨hfollows, hnext⟩ := h.step (call.run_does r)
      obtain ⟨hmore, hlast⟩ := ih hnext
      rw [run_cons]
      refine ⟨⟨hfollows, hmore⟩, ?_⟩
      rw [List.append_cons]
      exact hlast

/-- Of two names that were given backends, each has its own. -/
theorem Reached.own (h : Reached env config past r) {t t' : Turn} (ht : t ∈ past) (ht' : t' ∈ past)
    {name name' : Text} {id id' : Nat} {b b' : Backend} (hgives : t.Gives name id b)
    (hgives' : t'.Gives name' id' b') : (id = id' ↔ name = name') ∧ (name = name' → b = b') := by
  have hfound := (h.find?_iff name id b).mpr ⟨t, ht, hgives⟩
  have hfound' := (h.find?_iff name' id' b').mpr ⟨t', ht', hgives'⟩
  have hsame (hname : name = name') : (id, b) = (id', b') := by
    rw [hname, hfound'] at hfound
    exact (Option.some.inj hfound).symm
  refine ⟨⟨fun hid => ?_, fun hname => congrArg Prod.fst (hsame hname)⟩,
    fun hname => congrArg Prod.snd (hsame hname)⟩
  have hplace := getElem?_of_find? hfound
  rw [hid, getElem?_of_find? hfound'] at hplace
  exact (congrArg Prod.fst (Option.some.inj hplace)).symm

/-- A name that was given a backend is given no other answer than that. -/
theorem Follows.again_of_given {t t' : Turn} {name : Text} {id : Nat} {b : Backend}
    (h : Follows env config past t) (hcall : t.call = .get name) (ht' : t' ∈ past)
    (hgives : t'.Gives name id b) : ∃ id' b', t.Gives name id' b' := by
  cases h with
  | again | built =>
      cases hcall
      exact ⟨_, _, rfl⟩
  | failed hnew =>
      cases hcall
      exact absurd hgives (hnew t' ht' id b)
  | names | configured => cases hcall

/-- A name that was given no backend is given one exactly if its section can be built from. -/
theorem Follows.gives_iff {t : Turn} {name : Text} (h : Follows env config past t)
    (hcall : t.call = .get name) (hnew : New past name) :
    (∃ id b, t.Gives name id b) ↔ ∃ b, Builds env (configAfter config past) name b := by
  cases h with
  | again hgiven =>
      cases hcall
      obtain ⟨t', ht', hgives⟩ := hgiven
      exact absurd hgives (hnew t' ht' _ _)
  | built _ hbuilds =>
      cases hcall
      exact ⟨fun _ => ⟨_, hbuilds⟩, fun _ => ⟨_, _, rfl⟩⟩
  | failed _ hfails =>
      cases hcall
      constructor
      · rintro ⟨_, _, hgives⟩
        cases hgives
      · rintro ⟨b, hbuilds⟩
        exact absurd hbuilds (hfails.not_builds b)
  | names | configured => cases hcall

theorem map_call_run (r : Registry) (calls : List Call) :
    (run r calls).1.map Turn.call = calls := by
  induction calls generalizing r with
  | nil => rfl
  | cons call calls ih =>
      rw [run_cons, List.map_cons, ih]

/-- Without a call that fails a run is the same. -/
theorem run_without_failed {calls : List Call} {call : Call} {e : Failure}
    {earlier later : List Turn}
    (h : (run r calls).1 = earlier ++ ⟨call, .error e⟩ :: later) :
    run r ((earlier ++ later).map Turn.call) = (earlier ++ later, (run r calls).2) := by
  induction earlier generalizing r calls with
  | nil =>
      cases calls with
      | nil => cases h
      | cons first calls =>
          rw [run_cons] at h ⊢
          obtain ⟨hfirst, hlater⟩ := List.cons.inj h
          obtain ⟨rfl, hfailed⟩ := Turn.mk.inj hfirst
          have hkept := Call.run_error hfailed
          rw [hkept] at hlater ⊢
          have hcalls := map_call_run r calls
          rw [hlater] at hcalls
          rw [List.nil_append, hcalls, ← hlater]
  | cons t earlier ih =>
      cases calls with
      | nil => cases h
      | cons first calls =>
          rw [run_cons] at h
          obtain ⟨rfl, hrest⟩ := List.cons.inj h
          rw [List.cons_append, List.map_cons, run_cons, ih hrest]
          rfl

/-- The call can matter to what a name is answered: it asks for that name, or it replaces the
configuration. -/
def Call.concerns (name : Text) : Call → Bool
  | get asked => asked == name
  | names => false
  | setConfig _ => true

/-- What a name was answered, in order: a backend, whichever object it is, or a failure. -/
def answersTo (name : Text) (turns : List Turn) : List (Except Failure (Option Backend)) :=
  turns.filterMap fun t =>
    match t.call with
    | .get asked => if asked = name then some (t.result.map Outcome.backend?) else none
    | _ => none

theorem answersTo_cons (name : Text) (t : Turn) (turns : List Turn) :
    answersTo name (t :: turns) = answersTo name [t] ++ answersTo name turns := by
  unfold answersTo
  rw [← List.filterMap_append]
  rfl

/-- Two registries give the same to whoever asks for the name. -/
structure Agree (name : Text) (r r' : Registry) : Prop where
  env_eq : r.env = r'.env
  config_eq : r.config = r'.config
  backend_eq : (r.find? name).map Prod.snd = (r'.find? name).map Prod.snd

theorem Agree.build_eq {name : Text} {r r' : Registry} (h : Agree name r r') :
    r.build name = r'.build name := by
  unfold build
  rw [h.env_eq, h.config_eq]

/-- A call that does not matter to the name leaves what is given for it. -/
theorem Agree.other {name : Text} {r r' : Registry} (h : Agree name r r') {call : Call}
    (hcall : call.concerns name = false) :
    answersTo name [⟨call, (call.run r).1⟩] = [] ∧ Agree name (call.run r).2 r' := by
  have hdoes := call.run_does r
  generalize (call.run r).1 = result at hdoes ⊢
  generalize (call.run r).2 = s at hdoes ⊢
  cases hdoes with
  | names => exact ⟨rfl, h⟩
  | configured => cases hcall
  | found | failed =>
      have hother := beq_eq_false_iff_ne.mp hcall
      exact ⟨by simp [answersTo, hother], h⟩
  | @built asked b hnone hbuild =>
      have hother : asked ≠ name := beq_eq_false_iff_ne.mp hcall
      refine ⟨by simp [answersTo, hother], h.env_eq, h.config_eq, ?_⟩
      rw [find?_built hnone, if_neg hother.symm]
      exact h.backend_eq

/-- What a name is answered, and what it has after that, depends on what it had and on what is
built from its section. -/
theorem Call.get_answers (r : Registry) (name : Text) :
    ((get name).run r).1.map Outcome.backend? =
        ((r.find? name).map Prod.snd).elim ((r.build name).map some) (fun b => .ok (some b)) ∧
      (((get name).run r).2.find? name).map Prod.snd =
        ((r.find? name).map Prod.snd).or (r.build name).toOption ∧
      ((get name).run r).2.env = r.env ∧ ((get name).run r).2.config = r.config := by
  have hdoes := (get name).run_does r
  generalize ((get name).run r).1 = result at hdoes ⊢
  generalize ((get name).run r).2 = s at hdoes ⊢
  cases hdoes with
  | found hfind =>
      rw [hfind]
      exact ⟨rfl, rfl, rfl, rfl⟩
  | built hnone hbuild =>
      rw [hnone, hbuild, find?_built hnone, if_pos rfl]
      exact ⟨rfl, rfl, rfl, rfl⟩
  | failed hnone hbuild =>
      rw [hnone, hbuild]
      exact ⟨rfl, rfl, rfl, rfl⟩

/-- A call that matters to the name goes alike. -/
theorem Agree.same {name : Text} {r r' : Registry} (h : Agree name r r') {call : Call}
    (hcall : call.concerns name = true) :
    answersTo name [⟨call, (call.run r).1⟩] = answersTo name [⟨call, (call.run r').1⟩] ∧
      Agree name (call.run r).2 (call.run r').2 := by
  cases call with
  | names => cases hcall
  | setConfig config => exact ⟨rfl, h.env_eq, rfl, h.backend_eq⟩
  | get asked =>
      obtain rfl : asked = name := beq_iff_eq.mp hcall
      obtain ⟨hanswer, hhas, henv, hconfig⟩ := Call.get_answers r asked
      obtain ⟨hanswer', hhas', henv', hconfig'⟩ := Call.get_answers r' asked
      rw [h.backend_eq, h.build_eq] at hanswer hhas
      refine ⟨?_, ?_⟩
      · simp [answersTo, hanswer, hanswer']
      · exact ⟨by rw [henv, henv', h.env_eq], by rw [hconfig, hconfig', h.config_eq],
          hhas.trans hhas'.symm⟩

theorem Agree.run {name : Text} {r r' : Registry} (h : Agree name r r') (calls : List Call) :
    answersTo name (Registry.run r calls).1 =
      answersTo name (Registry.run r' (calls.filter (Call.concerns name))).1 := by
  induction calls generalizing r r' with
  | nil => rfl
  | cons call calls ih =>
      rw [run_cons, answersTo_cons]
      cases hcall : call.concerns name with
      | true =>
          obtain ⟨hanswer, hnext⟩ := h.same hcall
          rw [List.filter_cons_of_pos hcall, run_cons, hanswer, ih hnext, ← answersTo_cons]
      | false =>
          obtain ⟨hanswer, hnext⟩ := h.other hcall
          rw [List.filter_cons_of_neg (by simp [hcall]), hanswer, List.nil_append, ih hnext]

/-- Whatever is asked of a new registry and however its configuration changes: a name is given
the backend of its first section that can be built, and from then on that object and no other;
until then its section in the configuration of the moment decides whether there is a backend,
and which. Different names have different objects. A call that fails might as well not have
been made, and neither might the calls for other names, as far as one name is concerned. -/
theorem run_keeps_backends (config : Json) (env : Environment) (calls : List Call) :
    let opened : Registry := { config, env }
    let turns := (run opened calls).1
    turns.map Turn.call = calls ∧
    (∀ past turn later, turns = past ++ turn :: later → Follows env config past turn) ∧
    (∀ past turn later, turns = past ++ turn :: later → ∀ name id b,
      (∃ t ∈ past, t.Gives name id b) → turn.call = .get name → turn.Gives name id b) ∧
    (∀ past turn later, turns = past ++ turn :: later → ∀ name, New past name →
      turn.call = .get name →
        ((∃ id b, turn.Gives name id b) ↔ ∃ b, Builds env (configAfter config past) name b)) ∧
    (∀ t ∈ turns, ∀ t' ∈ turns, ∀ name name' id id' b b', t.Gives name id b →
      t'.Gives name' id' b' → (id = id' ↔ name = name')) ∧
    (∀ past call e later, turns = past ++ ⟨call, .error e⟩ :: later →
      run opened ((past ++ later).map Turn.call) = (past ++ later, (run opened calls).2)) ∧
    ∀ name, answersTo name turns =
      answersTo name (run opened (calls.filter (Call.concerns name))).1 := by
  intro opened turns
  have hstart : Reached env config [] opened :=
    ⟨rfl, rfl, fun name id b => by simp [opened, find?]⟩
  obtain ⟨hfollows, hlast⟩ := hstart.run calls
  rw [List.nil_append] at hlast
  refine ⟨map_call_run opened calls, along_iff.mp hfollows, ?_, ?_, ?_, ?_, ?_⟩
  · intro past turn later hsplit name id b ⟨t, ht, hgives⟩ hcall
    have hturn := along_iff.mp hfollows past turn later hsplit
    obtain ⟨id', b', hgives'⟩ := hturn.again_of_given hcall ht hgives
    have hmem : t ∈ turns := by
      rw [hsplit]
      exact List.mem_append_left _ ht
    have hmem' : turn ∈ turns := by
      rw [hsplit]
      exact List.mem_append_right _ List.mem_cons_self
    obtain ⟨hid, hb⟩ := hlast.own hmem hmem' hgives hgives'
    rw [hid.mpr rfl, hb rfl]
    exact hgives'
  · intro past turn later hsplit name hnew hcall
    exact (along_iff.mp hfollows past turn later hsplit).gives_iff hcall hnew
  · intro t ht t' ht' name name' id id' b b' hgives hgives'
    exact (hlast.own ht ht' hgives hgives').1
  · intro past call e later hsplit
    exact run_without_failed hsplit
  · intro name
    exact Agree.run ⟨rfl, rfl, rfl⟩ calls

def archiveConfig : Json :=
  .object [("azdls", .object [("backends", .object [("archive", .object
    [("filesystem", .string "data"), ("endpoint", .string "https://acct.dfs.core.windows.net"),
      ("account_key", .string "a2V5")])])])]

/-- A backend is still given when its section is gone. -/
theorem run_keeps_backends_archive : ∃ past t b,
    (run { config := archiveConfig } [.get "archive", .setConfig .null, .get "archive"]).1 =
      past ++ [t] ∧
    (∃ t' ∈ past, t'.Gives "archive" 0 b) ∧ t.Gives "archive" 0 b := by
  have hsplit (r : Registry) (first second third : Call) :
      (run r [first, second, third]).1 =
        [⟨first, (first.run r).1⟩, ⟨second, (second.run (first.run r).2).1⟩] ++
          [⟨third, (third.run (second.run (first.run r).2).2).1⟩] := rfl
  have hbuilt : (({ config := archiveConfig : Registry }).build "archive").toOption.isSome := by
    decide +kernel
  obtain ⟨b, hoption⟩ := Option.isSome_iff_exists.mp hbuilt
  have hb := ok_of_toOption hoption
  have hfirst : ((Call.get "archive").run { config := archiveConfig }).1 = .ok (.backend 0 b) := by
    unfold Call.run Registry.get
    dsimp only
    rw [hb]
    rfl
  have hgiven : Turn.Gives ⟨.get "archive", ((Call.get "archive").run
      { config := archiveConfig }).1⟩ "archive" 0 b := congrArg (Turn.mk _) hfirst
  obtain ⟨_, _, hagain, _⟩ := run_keeps_backends archiveConfig []
    [.get "archive", .setConfig .null, .get "archive"]
  exact ⟨_, _, b, hsplit .., ⟨_, .head _, hgiven⟩,
    hagain _ _ [] (hsplit ..) "archive" 0 b ⟨_, .head _, hgiven⟩ rfl⟩

end Registry

end DataLake
