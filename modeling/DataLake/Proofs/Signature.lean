import DataLake.Proofs.Attempt
import DataLake.Proofs.Headers

/-!
Signatures. A signature is computed from a request that does not have it yet, and
put into that request as a header. The string to sign never looks at this header,
so the signature is one of the request as it is sent.
-/

namespace DataLake

namespace Headers

/-- A class of headers that is decided by their names in lower case does not change
when a header outside of it is set. -/
theorem filter_set {p : Text × Text → Bool} {name value : Text} (hnew : p (name, value) = false)
    (hsame : ∀ e, Text.sameLower e.1 name = true → p e = false) (h : Headers) :
    (h.set name value).filter p = List.filter p h := by
  induction h with
  | nil => simp [set, hnew]
  | cons e h ih =>
      unfold set
      split
      · next hreplaced => simp [hnew, hsame e hreplaced]
      · simp [List.filter_cons, ih]

end Headers

namespace Signing

/-- The header with the signature is no header of the service. -/
theorem serviceHeaders_set_authorization (h : Headers) (value : Text) :
    serviceHeaders (h.set Draft.authorization value) = serviceHeaders h := by
  have hname : (Text.ofString "x-ms-").isPrefixOf (Text.lower Draft.authorization) = false := by
    decide
  unfold serviceHeaders
  rw [Headers.filter_set hname]
  intro e he
  rwa [beq_iff_eq.mp he]

def positionalNames : List Text :=
  ["Content-Length", "Content-Encoding", "Content-Language", "Content-MD5", "Content-Type",
    "If-Modified-Since", "If-Match", "If-None-Match", "If-Unmodified-Since", "Range"]

/-- Nothing but the headers under these names is signed by position. -/
theorem signedHeaders_congr {h h' : Headers}
    (hget : ∀ name ∈ positionalNames, h.get? name = h'.get? name) :
    signedHeaders h = signedHeaders h' := by
  simp only [positionalNames, List.forall_mem_cons] at hget
  obtain ⟨hlength, hencoding, hlanguage, hmd5, htype, hsince, hmatch, hnone, hunmodified, hrange, _⟩ :=
    hget
  simp only [signedHeaders, hlength, hencoding, hlanguage, hmd5, htype, hsince, hmatch, hnone,
    hunmodified, hrange]

theorem signedHeaders_set {name : Text}
    (hname : ∀ signed ∈ positionalNames, Text.sameLower name signed = false) (h : Headers)
    (value : Text) : signedHeaders (h.set name value) = signedHeaders h :=
  signedHeaders_congr fun signed hsigned => Headers.get?_set_of_ne (hname signed hsigned)

/-- Of the headers, the string to sign holds those that are signed by position and those of
the service. -/
theorem stringToSign_congr {r r' : Request} (hmethod : r.method = r'.method) (hurl : r.url = r'.url)
    (hpositional : signedHeaders r.headers = signedHeaders r'.headers)
    (hservice : serviceHeaders r.headers = serviceHeaders r'.headers) (account : Text) :
    stringToSign r account = stringToSign r' account := by
  unfold stringToSign canonicalHeaders
  rw [hmethod, hurl, hpositional, hservice]

/-- The string to sign stays the same when the signature is put into the request. -/
theorem stringToSign_set_authorization (r : Request) (value account : Text) :
    stringToSign { r with headers := r.headers.set Draft.authorization value } account =
      stringToSign r account := by
  refine stringToSign_congr ?_ ?_ ?_ ?_ account
  · rfl
  · rfl
  · exact signedHeaders_set (by decide) _ _
  · exact serviceHeaders_set_authorization _ _

/-- A request that shows the right to it: its headers have the time and the version,
and a signature of this very request or a token. -/
structure Signed (version : Text) (now : Int) (c : Credential) (r : Request) : Prop where
  date : ∃ date, dateValue now = .ok date ∧ r.headers.get? dateHeader = some date
  version : r.headers.get? versionHeader = some version
  /-- With an account key the signature is the digest of the string to sign. -/
  sharedKey : ∀ key, c.accountKey = some key → ∃ account secret text message,
    c.accountName = some account ∧ keyBytes key = .ok secret ∧
      stringToSign r account = .ok text ∧ Text.Utf8.encode? text = some message ∧
      r.headers.get? Draft.authorization =
        some ("SharedKey " ++ account ++ ":" ++ Base64.encode (Hmac.sha256 secret message))
  /-- Without one there is a token. -/
  bearer : c.accountKey = none → ∃ token, c.token = some token ∧ token ≠ [] ∧
    r.headers.get? Draft.authorization = some ("Bearer " ++ token)

theorem given_some {t : Text} (h : t ≠ []) : given (some t) = some t := by
  simp [given, h]

theorem given_eq_some {t : Option Text} {u : Text} (h : given t = some u) : t = some u ∧ u ≠ [] := by
  obtain ⟨v, rfl, hgiven⟩ := Option.bind_eq_some_iff.mp h
  split at hgiven
  · cases hgiven
  · next hmore =>
    cases hgiven
    exact ⟨rfl, fun hnone => hmore (by rw [hnone]; rfl)⟩

theorem signature_ok {secret : Bytes} {text value : Text} (h : signature secret text = .ok value) :
    ∃ message, Text.Utf8.encode? text = some message ∧
      value = Base64.encode (Hmac.sha256 secret message) := by
  unfold signature at h
  split at h
  · next message hmessage =>
    cases h
    exact ⟨message, hmessage, rfl⟩
  · cases h

/-- What shows the right to a request is a signature of it or a token. -/
theorem authorization_ok {r : Request} {c : Credential} {value : Text}
    (h : authorization r c = .ok value) :
    (∃ key account secret text message, c.accountKey = some key ∧ c.accountName = some account ∧
      keyBytes key = .ok secret ∧ stringToSign r account = .ok text ∧
      Text.Utf8.encode? text = some message ∧
      value = "SharedKey " ++ account ++ ":" ++ Base64.encode (Hmac.sha256 secret message)) ∨
    (c.accountKey = none ∧ ∃ token, c.token = some token ∧ token ≠ [] ∧
      value = "Bearer " ++ token) := by
  unfold authorization at h
  split at h
  · next key hkey =>
    split at h
    · cases h
    · next account haccount =>
      obtain ⟨text, htext, hrest⟩ := bind_ok h
      obtain ⟨secret, hsecret, hrest⟩ := bind_ok hrest
      obtain ⟨digest, hdigest, hvalue⟩ := bind_ok hrest
      obtain ⟨message, hmessage, rfl⟩ := signature_ok hdigest
      cases hvalue
      exact .inl ⟨key, account, secret, text, message, hkey, (given_eq_some haccount).1, hsecret,
        htext, hmessage, rfl⟩
  · next hkey =>
    split at h
    · next token htoken =>
      cases h
      obtain ⟨hsome, hne⟩ := given_eq_some htoken
      exact .inr ⟨hkey, token, hsome, hne, rfl⟩
    · cases h

/-- Signing states the time and the version first, and then adds what shows the right. -/
theorem sign_parts {version : Text} {now : Int} {c : Credential} {plain r : Request}
    (h : sign version now c plain = (r, .ok ())) :
    ∃ date dated value, dateValue now = .ok date ∧
      dated.headers = (plain.headers.set dateHeader date).set versionHeader version ∧
      authorization dated c = .ok value ∧
      r = { dated with headers := dated.headers.set Draft.authorization value } := by
  unfold sign at h
  split at h
  · cases h
  · next date hdate =>
    dsimp only at h
    split at h
    · cases h
    · next value hvalue =>
      cases h
      exact ⟨date, _, value, hdate, rfl, hvalue, rfl⟩

/-- Signing gives a request that is signed as it is. -/
theorem sign_ok {version : Text} {now : Int} {c : Credential} {plain r : Request}
    (h : sign version now c plain = (r, .ok ())) : Signed version now c r := by
  obtain ⟨date, dated, value, hdate, hheaders, hvalue, rfl⟩ := sign_parts h
  -- The date and the version are still there, as the signature has a header of its own.
  have hself := Headers.get?_set_self dated.headers Draft.authorization value
  have hother (name : Text) (hname : Text.sameLower Draft.authorization name = false) :
      (dated.headers.set Draft.authorization value).get? name = dated.headers.get? name :=
    Headers.get?_set_of_ne hname
  have hdateKept : Text.sameLower versionHeader dateHeader = false := by decide
  refine ⟨⟨date, hdate, ?_⟩, ?_, ?_, ?_⟩
  · rw [hother _ (by decide), hheaders, Headers.get?_set_of_ne hdateKept, Headers.get?_set_self]
  · rw [hother _ (by decide), hheaders, Headers.get?_set_self]
  · intro key hkey
    rcases authorization_ok hvalue with ⟨key', account, secret, text, message, hkey', haccount,
      hsecret, htext, hmessage, rfl⟩ | ⟨hnone, _⟩
    · rw [hkey] at hkey'
      cases hkey'
      refine ⟨account, secret, text, message, haccount, hsecret, ?_, hmessage, hself⟩
      rw [stringToSign_set_authorization, htext]
    · rw [hkey] at hnone
      cases hnone
  · intro hnone
    rcases authorization_ok hvalue with ⟨key, _, _, _, _, hkey, _⟩ | ⟨_, token, htoken, hne, rfl⟩
    · rw [hnone] at hkey
      cases hkey
    · exact ⟨token, htoken, hne, hself⟩

end Signing

end DataLake
