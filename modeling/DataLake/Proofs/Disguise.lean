import DataLake.Listing
import DataLake.Proofs.Signature
import DataLake.Proofs.Tries
import Mathlib.Data.List.Forall2

/-!
Disguises. A disguise exchanges the secrets of a login and of a token source for others, so
that what an operation does to the world shows them in one place only: the header with the
right to a request. Whatever an operation does and gives under a disguise it does and gives
without one.
-/

namespace DataLake

/-- The outcomes are failures of one kind, or values that are related. -/
inductive Outcomes {α : Type} (R : α → α → Prop) :
    Except Failure α → Except Failure α → Prop where
  | failed (e : Failure) : Outcomes R (.error e) (.error e)
  | given {a a' : α} (h : R a a') : Outcomes R (.ok a) (.ok a')

section Messages

variable (hidden : Text → Text → Prop)

/-- The values are the same, or they are two that may be told apart. -/
def SameBut (value value' : Text) : Prop :=
  value' = value ∨ hidden value value'

/-- The same names in the same order, and the same values but for that of the header with
the right to a request. -/
def Headers.SameBut (h h' : Headers) : Prop :=
  List.Forall₂ (fun e e' => e'.1 = e.1 ∧
    (e'.2 = e.2 ∨ e.1 = Draft.authorization ∧ hidden e.2 e'.2)) h h'

/-- The requests differ in the header with the right to them, if they differ at all. -/
structure Request.SameBut (r r' : Request) : Prop where
  method_eq : r'.method = r.method
  url_eq : r'.url = r.url
  body_eq : r'.body = r.body
  headers : Headers.SameBut hidden r.headers r'.headers

/-- The same was asked of the world outside, with the same reply. A credential stays inside,
so any two may have been loaded. -/
inductive Event.SameBut : Event → Event → Prop where
  | tokenAsked (scope : Text) : SameBut (.tokenAsked scope) (.tokenAsked scope)
  | loaded (c c' : Credential) : SameBut (.loaded c) (.loaded c')
  | sent {r r' : Request} (h : r.SameBut hidden r') (reply : Option Answer) :
      SameBut (.sent ⟨r, reply⟩) (.sent ⟨r', reply⟩)

/-- The exchanges have the same reply, and requests that differ in one header at most. -/
structure Exchange.SameBut (x x' : Exchange) : Prop where
  request : x.request.SameBut hidden x'.request
  reply_eq : x'.reply = x.reply

end Messages

section Messages

variable {hidden : Text → Text → Prop}

theorem Headers.sameBut_set {value value' : Text} (h : DataLake.SameBut hidden value value')
    (headers : Headers) :
    Headers.SameBut hidden (headers.set Draft.authorization value)
      (headers.set Draft.authorization value') := by
  have hsame (rest : Headers) : Headers.SameBut hidden rest rest :=
    List.forall₂_same.mpr fun _ _ => ⟨rfl, .inl rfl⟩
  have hset : value' = value ∨ Draft.authorization = Draft.authorization ∧ hidden value value' :=
    h.imp id fun h => ⟨rfl, h⟩
  induction headers with
  | nil => exact .cons ⟨rfl, hset⟩ .nil
  | cons e rest ih =>
      unfold Headers.set
      split
      · exact .cons ⟨rfl, hset⟩ (hsame rest)
      · exact .cons ⟨rfl, .inl rfl⟩ ih

theorem World.exchanges_sameBut {w w' : World}
    (h : List.Forall₂ (Event.SameBut hidden) w.log w'.log) :
    List.Forall₂ (Exchange.SameBut hidden) w.exchanges w'.exchanges := by
  unfold World.exchanges
  generalize w.log = log at h
  generalize w'.log = log' at h
  induction h with
  | nil => exact .nil
  | cons hevent _ ih =>
      cases hevent with
      | tokenAsked | loaded => exact ih
      | sent hrequest reply => exact .cons ⟨hrequest, rfl⟩ ih

theorem World.scopes_of_sameBut {w w' : World}
    (h : List.Forall₂ (Event.SameBut hidden) w.log w'.log) : w'.scopes = w.scopes := by
  unfold World.scopes
  generalize w.log = log at h
  generalize w'.log = log' at h
  induction h with
  | nil => rfl
  | cons hevent _ ih =>
      cases hevent with
      | tokenAsked scope => exact congrArg (scope :: ·) ih
      | loaded | sent => exact ih

end Messages

/-- The credentials show the right to a request alike. -/
def Credential.Alike (hidden : Text → Text → Prop) (c c' : Credential) : Prop :=
  ∀ r, Outcomes (SameBut hidden) (Signing.authorization r c) (Signing.authorization r c')

theorem Credential.Alike.refl {hidden : Text → Text → Prop} (c : Credential) :
    c.Alike hidden c := by
  intro r
  cases Signing.authorization r c with
  | error e => exact .failed e
  | ok value => exact .given (.inl rfl)

theorem Credential.Alike.sign {hidden : Text → Text → Prop} {c c' : Credential}
    (h : c.Alike hidden c') (version : Text) (now : Int) (plain : Request) :
    (∃ e r r', Signing.sign version now c plain = (r, .error e) ∧
      Signing.sign version now c' plain = (r', .error e)) ∨
    ∃ r r', Signing.sign version now c plain = (r, .ok ()) ∧
      Signing.sign version now c' plain = (r', .ok ()) ∧ r.SameBut hidden r' := by
  unfold Signing.sign
  cases Signing.dateValue now with
  | error e => exact .inl ⟨e, _, _, rfl, rfl⟩
  | ok date =>
      dsimp only
      have hshown := h { plain with
        headers := (plain.headers.set Signing.dateHeader date).set Signing.versionHeader version }
      generalize Signing.authorization _ c = value at hshown ⊢
      generalize Signing.authorization _ c' = value' at hshown ⊢
      cases hshown with
      | failed e => exact .inl ⟨e, _, _, rfl, rfl⟩
      | given hvalue =>
          exact .inr ⟨_, _, rfl, rfl, ⟨rfl, rfl, rfl, Headers.sameBut_set hvalue _⟩⟩

def Loader.mapLogin (f : Login → Login) (l : Loader) : Loader :=
  { l with login := f l.login }

def Backend.mapLogin (f : Login → Login) (b : Backend) : Backend :=
  { b with loader := b.loader.mapLogin f }

/-- Other logins and other answers of a token source in place of some, with what may be told
apart by them. Credentials that are loaded under the disguise show the right to a request
as those that are loaded without it. -/
structure Disguise where
  login : Login → Login
  tokens : List TokenAnswer → List TokenAnswer → Prop
  hidden : Text → Text → Prop
  questions_eq : ∀ l : Loader, (l.mapLogin login).questions = l.questions
  loads : ∀ (l : Loader) (rest rest' : List TokenAnswer), tokens rest rest' →
    Outcomes (Credential.Alike hidden) (l.next rest).1 ((l.mapLogin login).next rest').1 ∧
      tokens (l.next rest).2 ((l.mapLogin login).next rest').2

namespace Disguise

/-- The worlds are the same up to the disguise. -/
structure Worlds (d : Disguise) (w w' : World) : Prop where
  now_eq : w'.now = w.now
  answers_eq : w'.answers = w.answers
  raised_eq : w'.raised = w.raised
  room_eq : w'.room = w.room
  tokens : d.tokens w.tokens w'.tokens
  log : List.Forall₂ (Event.SameBut d.hidden) w.log w'.log

/-- The actions give the same and leave the worlds the same, up to the disguise. -/
def Actions (d : Disguise) {α : Type} (x x' : Action α) : Prop :=
  ∀ w w', d.Worlds w w' → ∃ r v v', x w = (r, v) ∧ x' w' = (r, v') ∧ d.Worlds v v'

variable {d : Disguise} {α β : Type}

theorem Worlds.isRaised_eq {w w' : World} (h : d.Worlds w w') (flag : Option Text) :
    w'.isRaised flag = w.isRaised flag := by
  unfold World.isRaised
  rw [h.raised_eq]

theorem Worlds.raise {w w' : World} (h : d.Worlds w w') (flag : Text) :
    d.Worlds (w.raise flag) (w'.raise flag) := by
  unfold World.raise
  rw [h.raised_eq]
  split
  · exact h
  · exact { h with raised_eq := rfl }

/-- A try loads a credential, and what else it does is the same up to the disguise. -/
theorem Worlds.after {w w' : World} (h : d.Worlds w w') (l : Loader) {rest rest' : List TokenAnswer}
    (hrest : d.tokens rest rest') (answers : List Answer) {t t' : Try}
    (ht : List.Forall₂ (Event.SameBut d.hidden) (t.events l) (t'.events (l.mapLogin d.login))) :
    d.Worlds (w.after l ⟨answers, rest⟩ [t])
      (w'.after (l.mapLogin d.login) ⟨answers, rest'⟩ [t']) where
  now_eq := h.now_eq
  answers_eq := rfl
  raised_eq := h.raised_eq
  room_eq := h.room_eq
  tokens := hrest
  log := by
    simp only [World.after, List.flatMap_cons, List.flatMap_nil, List.append_nil]
    exact List.rel_append h.log ht

theorem events_sameBut (d : Disguise) (l : Loader) {rest rest' : List Event}
    (h : List.Forall₂ (Event.SameBut d.hidden) rest rest') :
    List.Forall₂ (Event.SameBut d.hidden) (l.questions ++ rest)
      ((l.mapLogin d.login).questions ++ rest') := by
  rw [d.questions_eq]
  unfold Loader.questions
  cases l.login with
  | sharedKey name key => exact h
  | token | clientSecret | platform => exact .cons (.tokenAsked _) h

theorem Actions.pure (a : α) : d.Actions (Pure.pure a) (Pure.pure a) :=
  fun w w' h => ⟨.ok a, w, w', rfl, rfl, h⟩

theorem Actions.ofExcept (r : Except Failure α) : d.Actions (.ofExcept r) (.ofExcept r) :=
  fun w w' h => ⟨r, w, w', rfl, rfl, h⟩

theorem Actions.room : d.Actions Action.room Action.room := by
  intro w w' h
  refine ⟨.ok w.room, w, w', rfl, ?_, h⟩
  unfold Action.room
  rw [h.room_eq]

theorem Actions.bind {x x' : Action α} {f f' : α → Action β} (hx : d.Actions x x')
    (hf : ∀ a, d.Actions (f a) (f' a)) : d.Actions (x >>= f) (x' >>= f') := by
  intro w w' h
  obtain ⟨r, v, v', hxw, hxw', hv⟩ := hx w w' h
  change ∃ r u u', Action.bind x f w = (r, u) ∧ Action.bind x' f' w' = (r, u') ∧ d.Worlds u u'
  unfold Action.bind
  rw [hxw, hxw']
  cases r with
  | error e => exact ⟨.error e, v, v', rfl, rfl, hv⟩
  | ok a => exact hf a v v' hv

theorem Actions.mapFault {x x' : Action α} (hx : d.Actions x x') (f : Fault → Fault) :
    d.Actions (x.mapFault f) (x'.mapFault f) := by
  intro w w' h
  obtain ⟨r, v, v', hxw, hxw', hv⟩ := hx w w' h
  unfold Action.mapFault
  rw [hxw, hxw']
  cases r with
  | ok a => exact ⟨.ok a, v, v', rfl, rfl, hv⟩
  | error e => cases e <;> exact ⟨_, v, v', rfl, rfl, hv⟩

/-- A fault tells of a backend only where the backend is. -/
theorem Actions.annotated {x x' : Action α} (hx : d.Actions x x') (b : Backend)
    (operation : String) (path : Text) :
    d.Actions (b.annotated operation path x)
      ((b.mapLogin d.login).annotated operation path x') :=
  hx.mapFault (b.annotate operation path)

end Disguise

namespace Backend

variable (d : Disguise) (b : Backend)

theorem exchange_alike (op : Operation) :
    d.Actions (b.exchange op) ((b.mapLogin d.login).exchange op) := by
  intro w w' h
  have hlocation : (b.mapLogin d.login).location = b.location := rfl
  have hversion : (b.mapLogin d.login).version = b.version := rfl
  rw [exchange_eq, exchange_eq, hlocation, hversion, h.now_eq, h.answers_eq]
  cases op.request b.location with
  | error e => exact ⟨.error e, w, w', rfl, rfl, h⟩
  | ok plain =>
      obtain ⟨hloaded, hleft⟩ := d.loads b.loader _ _ h.tokens
      have hloader : (b.mapLogin d.login).loader = b.loader.mapLogin d.login := rfl
      rw [hloader]
      generalize b.loader.next w.tokens = loaded at hloaded hleft ⊢
      generalize (b.loader.mapLogin d.login).next w'.tokens = loaded' at hloaded hleft ⊢
      obtain ⟨c, rest⟩ := loaded
      obtain ⟨c', rest'⟩ := loaded'
      dsimp only at hloaded hleft ⊢
      cases hloaded with
      | failed e =>
          exact ⟨_, _, _, rfl, rfl, h.after b.loader hleft _ (d.events_sameBut _ .nil)⟩
      | @given c c' hc =>
          obtain ⟨e, r, r', hr, hr'⟩ | ⟨r, r', hr, hr', hsame⟩ := hc.sign b.version w.now plain
          · simp only [hr, hr']
            refine ⟨_, _, _, rfl, rfl, h.after b.loader hleft _ (d.events_sameBut _ ?_)⟩
            exact .cons (.loaded c c') .nil
          · simp only [hr, hr']
            refine ⟨_, _, _, rfl, rfl, h.after b.loader hleft _ (d.events_sameBut _ ?_)⟩
            exact .cons (.loaded c c') (.cons (.sent hsame _) .nil)

theorem perform_alike (op : Operation) (statuses : List Int) :
    d.Actions (b.perform op statuses) ((b.mapLogin d.login).perform op statuses) :=
  Disguise.Actions.room.bind fun _ => (b.exchange_alike d op).bind fun _ =>
    (Disguise.Actions.ofExcept _).bind fun _ => .pure _

/-- An operation whose response is read. -/
theorem operation_alike {α : Type} (operation : String) (path : Text) (op : Operation)
    (statuses : List Int) {read : Response → Action α} (hread : ∀ r, d.Actions (read r) (read r)) :
    d.Actions (b.annotated operation path (b.perform op statuses >>= read))
      ((b.mapLogin d.login).annotated operation path
        ((b.mapLogin d.login).perform op statuses >>= read)) :=
  ((b.perform_alike d op statuses).bind hread).annotated b operation path

theorem createDir_alike (path : Text) :
    d.Actions (b.createDir path) ((b.mapLogin d.login).createDir path) :=
  b.operation_alike d _ path _ _ fun _ => .pure ()

theorem stat_alike (path : Text) : d.Actions (b.stat path) ((b.mapLogin d.login).stat path) := by
  unfold stat
  refine Disguise.Actions.annotated ?_ b _ path
  split
  · exact .pure _
  · refine (b.perform_alike d _ _).bind fun r => ?_
    refine (Disguise.Actions.ofExcept _).bind fun m => ?_
    exact (Disguise.Actions.ofExcept _).bind fun mode => .pure _

theorem read_alike (path : Text) (range : Option ByteRange) :
    d.Actions (b.read path range) ((b.mapLogin d.login).read path range) :=
  (b.perform_alike d _ _).annotated b _ path

theorem delete_alike (path : Text) :
    d.Actions (b.delete path) ((b.mapLogin d.login).delete path) :=
  b.operation_alike d _ path _ _ fun _ => .pure ()

theorem ensureParent_alike (target : Text) :
    d.Actions (b.ensureParent target) ((b.mapLogin d.login).ensureParent target) := by
  unfold ensureParent
  dsimp only
  split
  · exact (b.perform_alike d _ _).bind fun _ => .pure ()
  · exact .pure ()

theorem rename_alike (source target : Text) :
    d.Actions (b.rename source target) ((b.mapLogin d.login).rename source target) := by
  have hmove : d.Actions
      (b.ensureParent target >>= fun _ =>
        b.perform (.rename source target) [201] >>= fun _ => pure ())
      ((b.mapLogin d.login).ensureParent target >>= fun _ =>
        (b.mapLogin d.login).perform (.rename source target) [201] >>= fun _ => pure ()) :=
    (b.ensureParent_alike d target).bind fun _ => (b.perform_alike d _ _).bind fun _ => .pure ()
  exact (hmove.mapFault _).annotated b _ source

theorem page_alike (path : Text) (limit : Option Int) (token : Option Text) :
    d.Actions (Listing.page b path limit token)
      (Listing.page (b.mapLogin d.login) path limit token) :=
  Disguise.Actions.annotated (Disguise.Actions.room.bind fun _ =>
    (b.perform_alike d _ _).bind fun _ => .ofExcept _) b _ path

end Backend

end DataLake
