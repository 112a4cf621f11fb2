import DataLake.Builder
import DataLake.Proofs.LetterCase
import DataLake.Proofs.Segments

/-!
Account names in endpoints. The name is what stands before the first point of an endpoint, after
a scheme in small letters, when one of the known hosts is all that follows. Every endpoint of an
account is recognised in this way, but what stands before the point need not be a label of a
host: a scheme in capitals, user information or a path is taken for a part of the name, and a
missing label for an empty one.
-/

namespace DataLake

/-- A single label of a host. -/
def IsLabel (name : Text) : Prop :=
  name ≠ [] ∧ ∀ c ∈ name, c ≠ .char '.' ∧ c ≠ .char '/' ∧ c ≠ .char ':' ∧ c ≠ .char '@'

/-- The scheme of a web address, in any letter case. -/
def IsWebScheme (scheme : Text) : Prop :=
  Text.fold scheme = "http://" ∨ Text.fold scheme = "https://"

/-- The endpoint of the account: a web scheme or none, the name, a point, a known host in any
letter case, and slashes. -/
def IsAccountEndpoint (endpoint name : Text) : Prop :=
  ∃ scheme host slashes, endpoint = scheme ++ (name ++ .char '.' :: (host ++ slashes)) ∧
    (scheme = [] ∨ IsWebScheme scheme) ∧ IsLabel name ∧ Text.fold host ∈ knownHosts ∧
    ∀ c ∈ slashes, c = .char '/'

/-- The text stands before the first point, and a known host in any letter case and slashes are
all that stands after it. -/
def IsFront (t front : Text) : Prop :=
  ∃ host slashes, t = front ++ .char '.' :: (host ++ slashes) ∧ .char '.' ∉ front ∧
    Text.fold host ∈ knownHosts ∧ ∀ c ∈ slashes, c = .char '/'

theorem not_mem_of_fold {t : Text} {c : CodePoint} (h : c.asciiLower ∉ Text.fold t) : c ∉ t :=
  fun hc => h (List.mem_map_of_mem hc)

theorem IsLabel.not_mem {name : Text} (h : IsLabel name) :
    .char '.' ∉ name ∧ .char '/' ∉ name :=
  ⟨fun hc => (h.2 _ hc).1 rfl, fun hc => (h.2 _ hc).2.1 rfl⟩

theorem slash_not_mem_host {host : Text} (h : Text.fold host ∈ knownHosts) : .char '/' ∉ host := by
  have hall : ∀ known ∈ knownHosts, .char '/' ∉ known := by decide
  exact not_mem_of_fold (hall _ h)

theorem contains_lower_iff (host : Text) :
    knownHosts.contains (Text.lower host) = true ↔ Text.fold host ∈ knownHosts := by
  have hplain : ∀ known ∈ knownHosts, ∀ c ∈ known, c.isAscii = true ∧ c ≠ .char 'k' := by decide
  rw [List.contains_iff_mem]
  constructor
  · intro h
    rw [(Text.lower_eq_iff (hplain _ h)).mp rfl]
    exact h
  · intro h
    rw [(Text.lower_eq_iff (hplain _ h)).mpr rfl]
    exact h

/-- A known host with slashes after it is what is left without them. -/
theorem known_trimmed_iff (rest : Text) :
    Text.fold (Path.dropTrailingSlashes rest) ∈ knownHosts ↔
      ∃ host slashes, rest = host ++ slashes ∧ Text.fold host ∈ knownHosts ∧
        ∀ c ∈ slashes, c = .char '/' := by
  constructor
  · intro h
    obtain ⟨slashes, hsplit, hslashes⟩ := Path.exists_dropTrailingSlashes_append rest
    exact ⟨_, slashes, hsplit, h, hslashes⟩
  · rintro ⟨host, slashes, rfl, hhost, hslashes⟩
    have hnone : Path.dropTrailingSlashes slashes = [] :=
      Path.dropTrailingSlashes_eq_nil_iff.mpr hslashes
    rw [Path.dropTrailingSlashes_append, if_pos hnone,
      Path.dropTrailingSlashes_of_not_mem (slash_not_mem_host hhost)]
    exact hhost

theorem isFront_append_cons_iff {front rest name : Text} (hfront : .char '.' ∉ front) :
    IsFront (front ++ .char '.' :: rest) name ↔
      name = front ∧ Text.fold (Path.dropTrailingSlashes rest) ∈ knownHosts := by
  rw [known_trimmed_iff]
  constructor
  · rintro ⟨host, slashes, hsplit, hname, hhost, hslashes⟩
    have hcut := Text.cutFirst_append_cons hfront rest
    rw [hsplit, Text.cutFirst_append_cons hname, Prod.mk.injEq, Option.some.injEq] at hcut
    exact ⟨hcut.1, host, slashes, hcut.2.symm, hhost, hslashes⟩
  · rintro ⟨rfl, host, slashes, rfl, hhost, hslashes⟩
    exact ⟨host, slashes, rfl, hfront, hhost, hslashes⟩

/-- The name that is inferred is what stands before the first point after a scheme in small
letters. -/
theorem inferAccountName_eq_some_iff {endpoint name : Text} :
    inferAccountName endpoint = some name ↔ IsFront (dropWebScheme endpoint) name := by
  unfold inferAccountName
  by_cases hpoint : .char '.' ∈ dropWebScheme endpoint
  · obtain ⟨front, rest, hsplit, hfront⟩ := List.eq_append_cons_of_mem hpoint
    rw [hsplit, Text.cutFirst_append_cons hfront, isFront_append_cons_iff hfront]
    dsimp only
    rw [Option.getD_some, ← contains_lower_iff, Option.ite_none_right_eq_some, Option.some.injEq,
      and_comm, @eq_comm _ front]
  · rw [Text.cutFirst_of_not_mem hpoint]
    constructor
    · intro h
      cases h
    · rintro ⟨host, slashes, hsplit, _⟩
      rw [hsplit] at hpoint
      simp at hpoint

/-- User information stands before the point like any other text. -/
example : inferAccountName "https://user@acct.dfs.core.windows.net" = some "user@acct" := by
  decide +kernel

/-- What is taken off the front of an endpoint is a scheme in small letters. -/
theorem dropWebScheme_cases (endpoint : Text) :
    dropWebScheme endpoint = endpoint ∨ ∃ scheme : Text,
      (scheme = "http://" ∨ scheme = "https://") ∧ endpoint = scheme ++ dropWebScheme endpoint := by
  unfold dropWebScheme
  cases hplain : (Text.ofString "http://").isPrefixOf? endpoint with
  | some rest => exact .inr ⟨_, .inl rfl, (List.isPrefixOf?_eq_some_iff_append_eq.mp hplain).symm⟩
  | none =>
      cases hsecure : (Text.ofString "https://").isPrefixOf? endpoint with
      | some rest =>
          exact .inr ⟨_, .inr rfl, (List.isPrefixOf?_eq_some_iff_append_eq.mp hsecure).symm⟩
      | none => exact .inl rfl

/-- What stands before the first point goes on after any beginning of the text without a point. -/
theorem IsFront.after {beginning t front : Text} (hbeginning : .char '.' ∉ beginning)
    (h : IsFront (beginning ++ t) front) :
    ∃ later, front = beginning ++ later ∧ IsFront t later := by
  obtain ⟨host, slashes, hsplit, hfront, hhost, hslashes⟩ := h
  rcases List.append_eq_append_iff.mp hsplit with ⟨later, rfl, rfl⟩ | ⟨more, rfl, hmore⟩
  · have hlater : .char '.' ∉ later := fun hc => hfront (List.mem_append_right _ hc)
    exact ⟨later, rfl, host, slashes, rfl, hlater, hhost, hslashes⟩
  · cases more with
    | nil =>
        refine ⟨[], by simp, host, slashes, ?_, List.not_mem_nil, hhost, hslashes⟩
        simpa using hmore.symm
    | cons c more =>
        obtain ⟨rfl, _⟩ := List.cons.inj hmore
        simp at hbeginning

theorem IsWebScheme.of_small {scheme : Text} (h : scheme = "http://" ∨ scheme = "https://") :
    IsWebScheme scheme := by
  rcases h with rfl | rfl
  · exact .inl rfl
  · exact .inr rfl

theorem IsWebScheme.point_not_mem {scheme : Text} (h : IsWebScheme scheme) :
    .char '.' ∉ scheme := by
  apply not_mem_of_fold
  rcases h with h | h <;> rw [h] <;> decide

/-- A web scheme that begins with a web scheme in small letters is that scheme. -/
theorem IsWebScheme.eq_of_append {scheme more : Text} (h : IsWebScheme (scheme ++ more))
    (hscheme : scheme = "http://" ∨ scheme = "https://") : more = [] := by
  have hfold : Text.fold (scheme ++ more) = Text.fold scheme ++ Text.fold more := List.map_append
  unfold IsWebScheme at h
  rw [hfold] at h
  have hnone : Text.fold more = [] := by
    rcases hscheme with rfl | rfl <;> rcases h with h | h
    · exact List.append_cancel_left (h.trans (List.append_nil _).symm)
    · have hfifth : some (CodePoint.char ':') = some (.char 's') := congrArg (fun t => t[4]?) h
      exact absurd hfifth (by decide)
    · have hfifth : some (CodePoint.char 's') = some (.char ':') := congrArg (fun t => t[4]?) h
      exact absurd hfifth (by decide)
    · exact List.append_cancel_left (h.trans (List.append_nil _).symm)
  exact List.map_eq_nil_iff.mp hnone

/-- A web scheme ends with a slash, in whatever letters it is. -/
theorem IsWebScheme.getLast? {scheme : Text} (h : IsWebScheme scheme) :
    scheme.getLast? = some (.char '/') := by
  have hlast : (Text.fold scheme).getLast? = some (.char '/') := by
    rcases h with h | h <;> rw [h] <;> rfl
  unfold Text.fold at hlast
  rw [List.getLast?_map] at hlast
  obtain ⟨c, hc, hslash⟩ := Option.map_eq_some_iff.mp hlast
  rw [hc, (CodePoint.asciiLower_eq_iff (by decide)).mp hslash]

/-- No endpoint of an account is missed. At most its scheme is taken for a part of the name. -/
theorem IsAccountEndpoint.inferred {endpoint name : Text} (h : IsAccountEndpoint endpoint name) :
    ∃ scheme : Text, (scheme = [] ∨ IsWebScheme scheme) ∧
      inferAccountName endpoint = some (scheme ++ name) := by
  obtain ⟨scheme, host, slashes, hsplit, hscheme, hname, hhost, hslashes⟩ := h
  have hpoint : .char '.' ∉ scheme := by
    rcases hscheme with rfl | hscheme
    · exact List.not_mem_nil
    · exact hscheme.point_not_mem
  have hfront : IsFront endpoint (scheme ++ name) := by
    refine ⟨host, slashes, by rw [hsplit, List.append_assoc], ?_, hhost, hslashes⟩
    rw [List.mem_append, not_or]
    exact ⟨hpoint, hname.not_mem.1⟩
  rcases dropWebScheme_cases endpoint with hwhole | ⟨dropped, hdropped, hend⟩
  · refine ⟨scheme, hscheme, inferAccountName_eq_some_iff.mpr ?_⟩
    rw [hwhole]
    exact hfront
  · have hweb := IsWebScheme.of_small hdropped
    rw [hend] at hfront
    obtain ⟨later, hlater, hrest⟩ := hfront.after hweb.point_not_mem
    -- What is dropped is the whole scheme: it ends in a slash, and the name has none.
    have hwhole : dropped = scheme ∧ later = name := by
      rcases List.append_eq_append_iff.mp hlater with ⟨more, hmore, rfl⟩ | ⟨more, hmore, rfl⟩
      · have hslash : more.getLast? ≠ some (.char '/') := fun hlast =>
          hname.not_mem.2 (List.mem_append_left _ (List.mem_of_getLast? hlast))
        have hnone : more = [] := by
          by_contra hne
          have hlast := hweb.getLast?
          rw [hmore, List.getLast?_append_of_ne_nil _ hne] at hlast
          exact hslash hlast
        rw [hmore, hnone]
        simp
      · have hnone : more = [] := by
          rcases hscheme with rfl | hscheme
          · exact (List.append_eq_nil_iff.mp hmore.symm).2
          · rw [hmore] at hscheme
            exact hscheme.eq_of_append hdropped
        rw [hmore, hnone]
        simp
    obtain ⟨rfl, rfl⟩ := hwhole
    exact ⟨[], .inl rfl, inferAccountName_eq_some_iff.mpr hrest⟩

/-- The text that stands before the first point is a label in no endpoint but those of an
account. -/
theorem IsFront.isAccountEndpoint {endpoint name : Text}
    (h : IsFront (dropWebScheme endpoint) name) (hname : IsLabel name) :
    IsAccountEndpoint endpoint name := by
  obtain ⟨host, slashes, hsplit, _, hhost, hslashes⟩ := h
  rcases dropWebScheme_cases endpoint with hwhole | ⟨scheme, hscheme, hend⟩
  · rw [hwhole] at hsplit
    exact ⟨[], host, slashes, hsplit, .inl rfl, hname, hhost, hslashes⟩
  · exact ⟨scheme, host, slashes, by rw [← hsplit, ← hend], .inr (.of_small hscheme), hname,
      hhost, hslashes⟩

/-- The name that is inferred is what stands before the first point after a scheme in small
letters, if a known host and slashes are all that stands after it. Every endpoint of an account is
recognised, with the name of the account or, if the scheme has capitals, with the scheme before
it. Exactly the endpoints of accounts are recognised, each with its name, if what stands before
the first point is a label of a host. -/
theorem inferAccountName_exact_iff (endpoint : Text) :
    (∀ name, inferAccountName endpoint = some name ↔ IsFront (dropWebScheme endpoint) name) ∧
      (∀ name, IsAccountEndpoint endpoint name → ∃ scheme : Text,
        (scheme = [] ∨ IsWebScheme scheme) ∧ inferAccountName endpoint = some (scheme ++ name)) ∧
      ((∀ name, inferAccountName endpoint = some name ↔ IsAccountEndpoint endpoint name) ↔
        ∀ front, IsFront (dropWebScheme endpoint) front → IsLabel front) := by
  refine ⟨fun _ => inferAccountName_eq_some_iff, fun _ => IsAccountEndpoint.inferred, ?_, ?_⟩
  · intro hexact front hfront
    obtain ⟨_, _, _, _, _, hlabel, _⟩ :=
      (hexact front).mp (inferAccountName_eq_some_iff.mpr hfront)
    exact hlabel
  · intro hlabels name
    constructor
    · intro hname
      have hfront := inferAccountName_eq_some_iff.mp hname
      exact hfront.isAccountEndpoint (hlabels name hfront)
    · intro haccount
      obtain ⟨scheme, hscheme, hinferred⟩ := haccount.inferred
      have hlabel := hlabels _ (inferAccountName_eq_some_iff.mp hinferred)
      rcases hscheme with rfl | hscheme
      · exact hinferred
      · have hslash : .char '/' ∈ scheme := List.mem_of_getLast? hscheme.getLast?
        exact absurd (List.mem_append_left _ hslash) hlabel.not_mem.2

/-- The endpoint of an account is recognised with the name of the account. -/
theorem inferAccountName_exact_archive :
    let endpoint : Text := "https://acct.dfs.core.windows.net/"
    (∀ front, IsFront (dropWebScheme endpoint) front → IsLabel front) ∧
      IsAccountEndpoint endpoint "acct" ∧ inferAccountName endpoint = some "acct" := by
  intro endpoint
  have hexact := inferAccountName_exact_iff endpoint
  have hlabels : ∀ front, IsFront (dropWebScheme endpoint) front → IsLabel front := by
    intro front hfront
    have hinferred : inferAccountName endpoint = some "acct" := by decide +kernel
    have hname := (hexact.1 front).mpr hfront
    rw [hinferred] at hname
    cases hname
    exact ⟨by decide, by decide⟩
  have haccount : IsAccountEndpoint endpoint "acct" :=
    ⟨"https://", "dfs.core.windows.net", "/", rfl, .inr (.inr rfl), ⟨by decide, by decide⟩,
      by decide, by decide⟩
  exact ⟨hlabels, haccount, (hexact.2.2.mpr hlabels "acct").mpr haccount⟩

/-- A scheme in capitals is taken for a part of the name of the account. -/
theorem scheme_in_capitals_kept :
    let endpoint : Text := "HTTPS://acct.dfs.core.windows.net"
    IsAccountEndpoint endpoint "acct" ∧ inferAccountName endpoint = some "HTTPS://acct" := by
  intro endpoint
  have haccount : IsAccountEndpoint endpoint "acct" :=
    ⟨"HTTPS://", "dfs.core.windows.net", [], rfl, .inr (.inr rfl), ⟨by decide, by decide⟩,
      by decide, by decide⟩
  exact ⟨haccount, by decide +kernel⟩

end DataLake
