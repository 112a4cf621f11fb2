import DataLake.Proofs.Along
import DataLake.Proofs.PageTurn
import DataLake.Session

/-!
Runs of a page lister. Where a listing goes on is a function of the responses that it
has made pages from so far: after each of them at the continuation that the response
carries, and nowhere after one that carries none. So a call that raises changes
nothing, and the pages of a run are the whole listing, in order, each item once.
-/

namespace DataLake

namespace Listing

/-- The token for the page after a response, if there is such a page. -/
def continuation (r : Response) : Option Text :=
  if r.status = 404 then none else given (r.headers.get? continuationHeader)

def responses (past : List State) : List Response :=
  past.filterMap State.response?

/-- The token that the next page is asked for with. -/
def lastToken (past : List State) : Option Text :=
  (responses past).getLast?.bind continuation

/-- A listing is done after a page without a continuation. -/
def isDone (past : List State) : Bool :=
  (responses past).getLast?.any fun r => (continuation r).isNone

/-- The items in a response that a page was made from. -/
def itemsIn (depth : Nat) (r : Response) : List Json :=
  if r.status = 404 then [] else (items? depth r.body).getD []

/-- The entry for the listed directory, unless the first response says that there is
no such directory. -/
def ownEntry (path : Text) : List Response → List Entry
  | [] => []
  | first :: _ => if first.status = 404 then [] else [⟨path, { mode := .directory }⟩]

def entriesShown (past : List State) : List Entry :=
  (past.filterMap fun s => s.page.toOption).flatMap ListPage.entries

theorem responses_snoc_of_none {past : List State} {s : State} (h : s.response? = none) :
    responses (past ++ [s]) = responses past := by
  simp [responses, h]

theorem responses_snoc_of_some {past : List State} {s : State} {r : Response}
    (h : s.response? = some r) : responses (past ++ [s]) = responses past ++ [r] := by
  simp [responses, h]

theorem Shows.continuation_eq {depth : Nat} {root path : Text} {token : Option Text}
    {r : Response} {page : ListPage} (h : Shows depth root path token r page) :
    page.continuation = continuation r := by
  unfold continuation
  cases h with
  | missing hstatus =>
      rw [if_pos hstatus]
      rfl
  | listed hstatus hitems hentries =>
      have hfound : ¬ r.status = 404 := by simp [hstatus]
      rw [if_neg hfound]

/-- Where asking for pages has led. -/
structure Reached (opened : PageLister) (w : World) (past : List State) (s : State) : Prop where
  /-- It is still the listing that was opened. -/
  same : s.lister = { opened with token := s.lister.token, done := s.lister.done }
  done_eq : s.lister.done = isDone past
  token_eq : s.lister.done = false → s.lister.token = lastToken past
  exchanges_eq : s.world.exchanges = w.exchanges ++ past.flatMap State.made
  /-- The service has answered in turn. -/
  answers_eq : w.answers = (past.flatMap State.made).filterMap Exchange.reply ++ s.world.answers
  room_eq : s.world.room = w.room

/-- How a page is asked for after some others. -/
structure Follows (opened : PageLister) (w : World) (past : List State) (s : State) : Prop where
  reached : Reached opened w past s
  asked : Asked s s.page s.made s.next.lister
  /-- The request is for the page after the last one. -/
  requests : ∀ x ∈ s.made,
    opened.backend.Signs (.list opened.path (lastToken past) opened.limit) x.request
  /-- The service reads in it the directory, the limit and that token. -/
  reads : opened.backend.location.Configured → ∀ x ∈ s.made, ∃ parts,
    Url.Parts.ofUrl? x.request.url = some parts ∧ Url.decodeQuery parts.query =
      (Operation.list opened.path (lastToken past) opened.limit).parameters opened.backend.location

variable {opened : PageLister} {w : World} {past : List State} {s : State}

/-- Asking either shows a page that was made from a response, or leaves the lister as
it is; then there is no page, or an empty one. -/
theorem State.turns_or_stays (s : State) :
    (∃ page r, s.page = .ok page ∧ s.response? = some r ∧ s.lister.done = false ∧
      Shows s.world.room.nesting s.lister.backend.location.root s.lister.path s.lister.token r
        page ∧
      s.next.lister = s.lister.turned (continuation r)) ∨
    (s.response? = none ∧ s.next.lister = s.lister ∧ ∀ page, s.page = .ok page → page = .empty) := by
  have hasked := s.asked
  unfold response?
  generalize s.page = result at hasked ⊢
  generalize s.made = made at hasked ⊢
  generalize s.next.lister = l at hasked ⊢
  cases hasked with
  | finished hdone => exact .inr ⟨rfl, rfl, fun page hpage => (Except.ok.inj hpage).symm⟩
  | halted hopen hhalted => exact .inr ⟨rfl, rfl, fun page hpage => by cases hpage⟩
  | unsent e hwaits hcannot => exact .inr ⟨rfl, rfl, fun page hpage => by cases hpage⟩
  | refused e x hwaits hsigned hnone => exact .inr ⟨rfl, rfl, fun page hpage => by cases hpage⟩
  | shown page x r hwaits hsigned hresponse hshows =>
      refine .inl ⟨page, r, rfl, hresponse, hwaits.1, hshows, ?_⟩
      rw [hshows.continuation_eq]

theorem Reached.next (h : Reached opened w past s) : Reached opened w (past ++ [s]) s.next := by
  have hexchanges : s.next.world.exchanges =
      w.exchanges ++ (past ++ [s]).flatMap State.made := by
    rw [s.next_exchanges, h.exchanges_eq]
    simp
  have hanswers : w.answers =
      ((past ++ [s]).flatMap State.made).filterMap Exchange.reply ++ s.next.world.answers := by
    rw [h.answers_eq, s.answers_eq]
    simp
  have hroom : s.next.world.room = w.room := s.next_room.trans h.room_eq
  rcases s.turns_or_stays with ⟨page, r, -, hr, hopen, -, hlister⟩ | ⟨hr, hlister, -⟩
  · have hresponses : responses (past ++ [s]) = responses past ++ [r] := responses_snoc_of_some hr
    refine ⟨?_, ?_, ?_, hexchanges, hanswers, hroom⟩
    · rw [hlister, h.same]
      cases continuation r <;> rfl
    · unfold isDone
      rw [hlister, hresponses, List.getLast?_concat]
      cases hc : continuation r with
      | none => simp [PageLister.turned, hc]
      | some token => simp [PageLister.turned, hc, hopen]
    · unfold lastToken
      rw [hlister, hresponses, List.getLast?_concat, Option.bind_some]
      cases continuation r with
      | none => exact fun hlast => by cases hlast
      | some token => exact fun _ => rfl
  · have hresponses : responses (past ++ [s]) = responses past := responses_snoc_of_none hr
    refine ⟨?_, ?_, ?_, hexchanges, hanswers, hroom⟩
    · rw [hlister]
      exact h.same
    · unfold isDone
      rw [hlister, hresponses]
      exact h.done_eq
    · unfold lastToken
      rw [hlister, hresponses]
      exact h.token_eq

theorem Reached.follows (h : Reached opened w past s) : Follows opened w past s := by
  have hrequests : ∀ x ∈ s.made,
      opened.backend.Signs (.list opened.path (lastToken past) opened.limit) x.request := by
    intro x hx
    have hasked := s.asked
    -- Only a lister that is not done makes a request, and then its token is the last one.
    have hbackend : s.lister.backend = opened.backend := by rw [h.same]
    have hasking (hwaits : s.Waits) :
        s.asking = .list opened.path (lastToken past) opened.limit := by
      unfold State.asking
      rw [h.token_eq hwaits.1, h.same]
    generalize s.page = result at hasked
    generalize s.next.lister = l at hasked
    generalize s.made = made at hasked hx
    cases hasked with
    | finished hdone => cases hx
    | halted hopen hhalted => cases hx
    | unsent e hwaits hcannot => cases hx
    | refused e x' hwaits hsigned hnone =>
        rw [List.mem_singleton.mp hx, ← hbackend, ← hasking hwaits]
        exact hsigned
    | shown page x' r hwaits hsigned hresponse hshows =>
        rw [List.mem_singleton.mp hx, ← hbackend, ← hasking hwaits]
        exact hsigned
  exact ⟨h, s.asked, hrequests, fun hloc x hx => (hrequests x hx).query hloc⟩

theorem Reached.raise (h : Reached opened w past s) (flag : Text) :
    Reached opened w past ⟨s.lister, s.world.raise flag⟩ := by
  obtain ⟨hsame, hdone, htoken, hexchanges, hanswers, hroom⟩ := h
  unfold World.raise
  split
  · exact ⟨hsame, hdone, htoken, hexchanges, hanswers, hroom⟩
  · exact ⟨hsame, hdone, htoken, hexchanges, hanswers, hroom⟩

/-- The pages so far are the whole listing so far: the listed directory, and then an
entry for each item of each response. -/
def Whole (opened : PageLister) (depth : Nat) (past : List State) : Prop :=
  ∃ entries,
    EntriesOf opened.backend.location.root ((responses past).flatMap (itemsIn depth)) entries ∧
    entriesShown past = ownEntry opened.path (responses past) ++ entries

theorem given_continuation {r : Response} {token : Text} (h : continuation r = some token) :
    given (some token) = some token := by
  unfold continuation at h
  split at h
  · cases h
  · exact Signing.given_some (Signing.given_eq_some h).2

/-- A listing that goes on sends a token for every page but the first. -/
theorem Reached.token_isNone (h : Reached opened w past s) (hopen : s.lister.done = false) :
    (given s.lister.token).isNone = (responses past).isEmpty := by
  have hdone := h.done_eq
  rw [hopen] at hdone
  rw [h.token_eq hopen]
  unfold isDone at hdone
  unfold lastToken
  rcases List.eq_nil_or_concat (responses past) with hnil | ⟨before, r, hsnoc⟩
  · rw [hnil]
    rfl
  · rw [hsnoc, List.concat_eq_append, List.getLast?_concat] at hdone ⊢
    cases hc : continuation r with
    | none => simp [hc] at hdone
    | some token => simp [hc, given_continuation hc]

theorem entriesShown_snoc (past : List State) (s : State) :
    entriesShown (past ++ [s]) =
      entriesShown past ++ (s.page.toOption.elim [] ListPage.entries) := by
  unfold entriesShown
  cases hpage : s.page.toOption <;> simp [hpage]

theorem Reached.whole (h : Reached opened w past s) (hpast : Whole opened w.room.nesting past) :
    Whole opened w.room.nesting (past ++ [s]) := by
  obtain ⟨entries, hentries, hshown⟩ := hpast
  unfold Whole
  rw [entriesShown_snoc, hshown]
  rcases s.turns_or_stays with ⟨page, r, hpage, hr, hopen, hshows, -⟩ | ⟨hr, -, hempty⟩
  · have htoken := h.token_isNone hopen
    have hbackend : s.lister.backend = opened.backend := by rw [h.same]
    have hpath : s.lister.path = opened.path := by rw [h.same]
    rw [hbackend, hpath, h.room_eq] at hshows
    rw [responses_snoc_of_some hr, List.flatMap_append, hpage]
    generalize responses past = before at hentries htoken ⊢
    -- The listed directory is in the new page exactly if no response came before it.
    have hempty : before = [] → entries = [] := by
      rintro rfl
      exact List.forall₂_nil_left_iff.mp hentries
    cases hshows with
    | missing hstatus =>
        refine ⟨entries, by simpa [itemsIn, hstatus] using hentries, ?_⟩
        cases before with
        | nil => simp [ownEntry, hstatus, ListPage.empty, Except.toOption]
        | cons first before => simp [ownEntry, ListPage.empty, Except.toOption]
    | @listed items more hstatus hitems hmore =>
        have hlisted : [r].flatMap (itemsIn w.room.nesting) = items := by
          simp [itemsIn, hstatus, hitems]
        refine ⟨entries ++ more, ?_, ?_⟩
        · rw [hlisted]
          exact hentries.append hmore
        · rw [htoken]
          cases before with
          | nil => simp [ownEntry, hstatus, hempty rfl, Except.toOption]
          | cons first before => simp [ownEntry, Except.toOption]
  · rw [responses_snoc_of_none hr]
    refine ⟨entries, hentries, ?_⟩
    cases hpage : s.page with
    | error e => simp [Except.toOption]
    | ok page =>
        rw [hempty page hpage]
        simp [Except.toOption, ListPage.empty]

/-- Pages are asked for one after another, as long as there may be more of them. -/
inductive Passes : State → List State → List ListPage → State → Prop where
  | nil (s : State) : Passes s [] [] s
  | cons {s s' : State} {later : List State} {page : ListPage} {pages : List ListPage}
      (hopen : s.lister.done = false) (hpage : s.page = .ok page)
      (hmore : Passes s.next later pages s') : Passes s (s :: later) (page :: pages) s'

/-- What is done with a lister, or a flag that goes up meanwhile. Pages that are gone
through with something in between are several calls. -/
inductive Call where
  | nextPage
  | pages (count : Take)
  | raise (flag : Text)

def State.step (s : State) (step : ListerStep) : Except Failure Outcome × State :=
  match step.run s.lister s.world with
  | (r, l, w) => (r, ⟨l, w⟩)

def Call.run (call : Call) (s : State) : Except Failure Outcome × State :=
  match call with
  | nextPage => s.step .nextPage
  | pages count => s.step (.pages count)
  | raise flag => (.ok .nothing, ⟨s.lister, s.world.raise flag⟩)

def run (s : State) : List Call → List (Except Failure Outcome) × State
  | [] => ([], s)
  | call :: calls =>
      match call.run s with
      | (r, s) =>
          match run s calls with
          | (rs, s) => (r :: rs, s)

/-- How a call goes: the states in which it asks for a page, and what it gives. Going
through pages ends when the listing is done, when there are as many as wanted, or at the
first page that cannot be had. -/
inductive Goes : Call → State → List State → Except Failure Outcome → State → Prop where
  | nextPage (s : State) : Goes .nextPage s [s] (s.page.map .page) s.next
  | pages {s s' : State} {count : Take} {asked : List State} {pages : List ListPage}
      (hpasses : Passes s asked pages s') (hcount : ∀ n, count = some n → asked.length ≤ n)
      (hend : s'.lister.done = true ∨ count = some asked.length) :
      Goes (.pages count) s asked (.ok (.pages pages)) s'
  | cut {s s' : State} {count : Take} {asked : List State} {pages : List ListPage} {e : Failure}
      (hpasses : Passes s asked pages s') (hcount : ∀ n, count = some n → asked.length < n)
      (hopen : s'.lister.done = false) (hraised : s'.page = .error e) :
      Goes (.pages count) s (asked ++ [s']) (.error e) s'.next
  | raise (s : State) (flag : Text) :
      Goes (.raise flag) s [] (.ok .nothing) ⟨s.lister, s.world.raise flag⟩

inductive Runs :
    State → List Call → List (List State) → List (Except Failure Outcome) → State → Prop where
  | nil (s : State) : Runs s [] [] [] s
  | cons {s s' s'' : State} {call : Call} {calls : List Call} {asked : List State}
      {turns : List (List State)} {r : Except Failure Outcome} {rs : List (Except Failure Outcome)}
      (hcall : Goes call s asked r s') (hmore : Runs s' calls turns rs s'') :
      Runs s (call :: calls) (asked :: turns) (r :: rs) s''

theorem length_answers_next {page : ListPage} (hopen : s.lister.done = false)
    (hpage : s.page = .ok page) :
    s.world.answers.length = s.next.world.answers.length + 1 := by
  have hasked := s.asked
  have hanswers := s.answers_eq
  rw [hpage] at hasked
  generalize s.made = made at hasked hanswers
  generalize s.next.lister = l at hasked
  cases hasked with
  | finished hdone =>
      rw [hopen] at hdone
      cases hdone
  | shown page x r hwaits hsigned hresponse hshows =>
      rw [hanswers]
      simp [Exchange.reply_of_response? hresponse]

section

variable {s' : State} {asked : List State}

theorem Reached.passes {pages : List ListPage} (h : Reached opened w past s)
    (hpasses : Passes s asked pages s') :
    Reached opened w (past ++ asked) s' ∧ Along (Follows opened w) past asked := by
  induction hpasses generalizing past with
  | nil s => exact ⟨by simpa using h, trivial⟩
  | cons hopen hpage hmore ih =>
      obtain ⟨hlast, hrest⟩ := ih h.next
      exact ⟨by simpa using hlast, h.follows, hrest⟩

theorem Reached.goes {call : Call} {r : Except Failure Outcome} (h : Reached opened w past s)
    (hgoes : Goes call s asked r s') :
    Reached opened w (past ++ asked) s' ∧ Along (Follows opened w) past asked := by
  cases hgoes with
  | nextPage => exact ⟨h.next, h.follows, trivial⟩
  | raise s flag => exact ⟨by simpa using h.raise flag, trivial⟩
  | pages hpasses hcount hend => exact h.passes hpasses
  | cut hpasses hcount hopen hraised =>
      obtain ⟨hlast, hrest⟩ := h.passes hpasses
      refine ⟨by simpa using hlast.next, along_append.mpr ⟨hrest, hlast.follows, trivial⟩⟩

theorem Reached.runs {calls : List Call} {turns : List (List State)}
    {rs : List (Except Failure Outcome)} (h : Reached opened w past s)
    (hruns : Runs s calls turns rs s') :
    Reached opened w (past ++ turns.flatten) s' ∧ Along (Follows opened w) past turns.flatten := by
  induction hruns generalizing past with
  | nil s => exact ⟨by simpa using h, trivial⟩
  | cons hcall hmore ih =>
      obtain ⟨hlast, hfirst⟩ := h.goes hcall
      obtain ⟨hlast, hrest⟩ := ih hlast
      exact ⟨by simpa using hlast, along_append.mpr ⟨hfirst, hrest⟩⟩

end

end Listing

end DataLake
