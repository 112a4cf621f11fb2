import DataLake.Credential
import DataLake.Http.Message
import DataLake.Room
import DataLake.Signing

/-!
The world outside: what the service will answer, what the token source will
hand out, which halt flags are up, how much room there is, and a log of what was
asked of it. An action is a step against the world; when it fails, what it did
before stays done.
-/

namespace DataLake

inductive Answer where
  | response (r : Response)
  | failure (name : Text)

structure Exchange where
  request : Request
  reply : Option Answer

inductive Event where
  /-- The token source was asked for a token. -/
  | tokenAsked (scope : Text)
  /-- A credential was loaded. -/
  | loaded (c : Credential)
  /-- A request was sent. -/
  | sent (x : Exchange)

structure World where
  now : Int := 0
  answers : List Answer := []
  tokens : List TokenAnswer := []
  raised : List Text := []
  room : Room := .usual
  log : List Event := []

namespace World

def record (w : World) (e : Event) : World :=
  { w with log := w.log ++ [e] }

def exchanges (w : World) : List Exchange :=
  w.log.filterMap fun
    | .sent x => some x
    | _ => none

def sent (w : World) : List Request :=
  w.exchanges.map Exchange.request

def scopes (w : World) : List Text :=
  w.log.filterMap fun
    | .tokenAsked scope => some scope
    | _ => none

/-- Whether the flag is up. An object without a flag is never halted. -/
def isRaised (w : World) (flag : Option Text) : Bool :=
  flag.any w.raised.contains

def raise (w : World) (flag : Text) : World :=
  if w.raised.contains flag then w else { w with raised := flag :: w.raised }

end World

def Action (α : Type) : Type :=
  World → Except Failure α × World

namespace Action

protected def pure {α : Type} (a : α) : Action α :=
  fun w => (.ok a, w)

protected def bind {α β : Type} (x : Action α) (f : α → Action β) : Action β :=
  fun w =>
    match x w with
    | (.ok a, w) => f a w
    | (.error e, w) => (.error e, w)

instance : Monad Action where
  pure := Action.pure
  bind := Action.bind

def ofExcept {α : Type} (r : Except Failure α) : Action α :=
  fun w => (r, w)

def room : Action Room :=
  fun w => (.ok w.room, w)

/-- An action whose fault, if it ends with one, is changed on its way out. -/
def mapFault {α : Type} (f : Fault → Fault) (x : Action α) : Action α :=
  fun w =>
    match x w with
    | (.error (.fault fault), w) => (.error (.fault (f fault)), w)
    | r => r

end Action

/-- Loads a credential with a token. The token source hands out its answers in turn
and repeats the last one. -/
def Loader.loadToken (l : Loader) : Action Credential :=
  fun w =>
    let w := w.record (.tokenAsked Signing.storageScope)
    match w.tokens with
    | [] => (.error (.tokenSource []), w)
    | answer :: later =>
        let w := if later.isEmpty then w else { w with tokens := later }
        match answer with
        | .token t =>
            let c : Credential := { accountName := l.accountName, token := some t }
            (.ok c, w.record (.loaded c))
        | .failure f => (.error f.toFailure, w)

/-- Loads a credential. A login without an account key has a token source, and every
such source is asked for the same scope. -/
def Loader.load (l : Loader) : Action Credential :=
  match l.login with
  | .sharedKey name key => fun w =>
      let c : Credential := { accountName := some name, accountKey := some key }
      (.ok c, w.record (.loaded c))
  | .token | .clientSecret | .platform => l.loadToken

def send (r : Request) : Action Response :=
  fun w =>
    let w := w.record (.sent ⟨r, w.answers.head?⟩)
    match w.answers with
    | [] => (.error .noAnswer, w)
    | answer :: later =>
        let w := { w with answers := later }
        match answer with
        | .response response => (.ok response, w)
        | .failure name => (.error (.connection name), w)

end DataLake
