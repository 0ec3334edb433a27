import Mathlib.Data.List.Basic
import Mathlib.Tactic

/-!
# Where an authorization answer goes

An assistant registers redirect URIs, names one of them when it asks for an authorization, and the answer of the
consent page is sent to that address with parameters appended. An app on this computer may name another port than
it registered.

* `redirect_registered`: when the address differs from a registered one in the port of a loopback host only, and
  what the browser is handed in the appended pairs too: exactly when the address that is named carries no user
  information, is a registered string or compares with no registered one.
* `redirect_userinfo`: a user name and a password are compared with nothing.
-/

namespace DenEdge.OAuth

/-- The components of a URL. -/
structure Url where
  scheme : String
  username : String
  password : Option String
  host : Option String
  port : Option ℕ
  path : String
  query : Option String
  fragment : Option String
  deriving DecidableEq

/-- How URLs are read and written, and how a parameter is encoded in a query. -/
structure UrlCodec where
  parse : String → Option Url
  toString : Url → String
  encode : String → String

variable (C : UrlCodec)

/-- The longest redirect URI a client may register, in bytes. -/
def URI_MAX : ℕ := 512

def Url.loopbackHost (u : Url) : Bool :=
  u.host = some "127.0.0.1" || u.host = some "localhost" || u.host = some "[::1]"

/-- A redirect URI a public client may register. -/
def validRedirect (uri : String) : Bool :=
  if URI_MAX < uri.utf8ByteSize || uri.toList.contains '#' then false
  else match C.parse uri with
    | none => false
    | some url =>
      url.username.isEmpty && url.password.isNone && url.host.isSome &&
        (url.scheme = "https" || url.scheme = "http" && url.loopbackHost)

def Url.loopback (u : Url) : Bool := u.scheme = "http" && u.loopbackHost

/-- Is `given` registered: the same URI, or the same loopback URI on any port? -/
def registeredRedirect (registered : List String) (given : String) : Bool :=
  if registered.contains given then true
  else match C.parse given with
    | none => false
    | some given =>
      given.loopback && (registered.filterMap C.parse).any fun r =>
        r.loopback && r.host = given.host && r.path = given.path && r.query = given.query && r.fragment.isNone &&
          given.fragment.isNone

/-- The address of a pending authorization: the one that is named, or the only one that is registered. -/
def redirectUri (registered : List String) : Option String → Option String
  | some uri => if registeredRedirect C registered uri then some uri else none
  | none =>
    match registered with
    | [uri] => some uri
    | _ => none

/-- A pair is appended to a query. -/
def appendPair (query : String) (pair : String × String) : String :=
  (if query.isEmpty then "" else query ++ "&") ++ C.encode pair.1 ++ "=" ++ C.encode pair.2

/-- A URL whose query has pairs appended. -/
def Url.withPairs (u : Url) (pairs : List (String × String)) : Url :=
  { u with query := some (pairs.foldl (appendPair C) (u.query.getD "")) }

/-- The address with the answer's parameters added. It panics where the address does not parse. -/
def withParams (redirectUri : String) (params : List (String × String)) : Option String :=
  (C.parse redirectUri).map fun url => C.toString (url.withPairs C params)

/-- The parameters of an answer: a code if it was approved. -/
def answerParams (issuer : String) (state code : Option String) : List (String × String) :=
  [("iss", issuer)] ++ (state.map (("state", ·))).toList ++
    [match code with
      | some code => ("code", code)
      | none => ("error", "access_denied")]

/-! ## The address -/

/-- The same URL, but for its port. -/
structure SameButPort (u v : Url) : Prop where
  scheme : u.scheme = v.scheme
  username : u.username = v.username
  password : u.password = v.password
  host : u.host = v.host
  path : u.path = v.path
  query : u.query = v.query
  fragment : u.fragment = v.fragment

/-- An address that is registered, or is a loopback URL that differs from a registered one in its port. -/
def Registered (registered : List String) (uri : String) : Prop :=
  uri ∈ registered ∨ ∃ u, C.parse uri = some u ∧ u.loopback = true ∧
    ∃ r ∈ registered, ∃ v, C.parse r = some v ∧ SameButPort u v

variable {C} {registered : List String}

/-- What a registered redirect URI is. -/
theorem validRedirect_spec {uri : String} (h : validRedirect C uri = true) :
    ∃ u, C.parse uri = some u ∧ u.username = "" ∧ u.password = none := by
  unfold validRedirect at h
  split_ifs at h
  split at h
  · cases h
  rename_i u hparse
  simp only [Bool.and_eq_true] at h
  exact ⟨u, hparse, by simpa using h.1.1.1, by simpa using h.1.1.2⟩

theorem Url.loopback_scheme {u : Url} (h : u.loopback = true) : u.scheme = "http" := by
  simpa using ((Bool.and_eq_true _ _).mp h).1

theorem redirectUri_spec {given : Option String} {uri : String} (h : redirectUri C registered given = some uri) :
    uri ∈ registered ∨ given = some uri ∧ registeredRedirect C registered uri = true := by
  unfold redirectUri at h
  split at h
  · split_ifs at h with htaken
    cases h
    exact .inr ⟨rfl, htaken⟩
  · split at h
    · cases h
      exact .inl List.mem_cons_self
    · cases h

/-- What the browser is handed for an address: a registered URL on a port of its own if the host is this computer,
with pairs appended. -/
theorem withParams_registered (hvalid : ∀ r ∈ registered, validRedirect C r = true) {uri : String}
    (h : Registered C registered uri) (params : List (String × String)) :
    ∃ r ∈ registered, ∃ v port, C.parse r = some v ∧ (port ≠ v.port → v.loopbackHost = true) ∧
      withParams C uri params = some (C.toString (Url.withPairs C { v with port := port } params)) := by
  rcases h with hmem | ⟨u, hparse, hloopback, r, hr, v, hread, hsame⟩
  · obtain ⟨v, hread, -⟩ := validRedirect_spec (hvalid uri hmem)
    exact ⟨uri, hmem, v, v.port, hread, fun hne => absurd rfl hne, by simp [withParams, hread]⟩
  · have hu : u = { v with port := u.port } := by
      obtain ⟨hscheme, husername, hpassword, hhost, hpath, hquery, hfragment⟩ := hsame
      cases u
      simp_all
    refine ⟨r, hr, v, u.port, hread, fun _ => ?_, ?_⟩
    · have hhost := ((Bool.and_eq_true _ _).mp hloopback).2
      rw [hu] at hhost
      exact hhost
    · rw [← hu]
      simp [withParams, hparse]

/-- The two URLs are taken for the same loopback URI: what `registered_redirect` compares. -/
structure Compared (u v : Url) : Prop where
  given : u.loopback = true
  registered : v.loopback = true
  host : v.host = u.host
  path : v.path = u.path
  query : v.query = u.query
  fragment : v.fragment = none ∧ u.fragment = none

/-- **What is taken**: a registered string, or a loopback URI that compares with a registered one. Nothing is
asked of its user name and its password. -/
theorem registeredRedirect_iff {given : String} : registeredRedirect C registered given = true ↔
    given ∈ registered ∨ ∃ u ∈ C.parse given, ∃ r ∈ registered, ∃ v ∈ C.parse r, Compared u v := by
  have hcompared : ∀ u v : Url, Compared u v ↔ u.loopback = true ∧ (v.loopback && v.host = u.host &&
      v.path = u.path && v.query = u.query && v.fragment.isNone && u.fragment.isNone) = true := by
    intro u v
    simp only [Bool.and_eq_true, decide_eq_true_eq, Option.isNone_iff_eq_none]
    exact ⟨fun ⟨a, b, c, d, e, f⟩ => ⟨a, ⟨⟨⟨⟨⟨b, c⟩, d⟩, e⟩, f.1⟩, f.2⟩⟩,
      fun ⟨a, ⟨⟨⟨⟨⟨b, c⟩, d⟩, e⟩, f⟩, g⟩⟩ => ⟨a, b, c, d, e, f, g⟩⟩
  unfold registeredRedirect
  split_ifs with hmem
  · simp [List.contains_iff_mem.mp hmem]
  have hnot : given ∉ registered := fun h => hmem (List.contains_iff_mem.mpr h)
  cases hparse : C.parse given with
  | none => simp [hnot]
  | some u =>
    constructor
    · intro h
      obtain ⟨hu, hany⟩ := (Bool.and_eq_true _ _).mp h
      obtain ⟨v, hv, hsame⟩ := List.any_eq_true.mp hany
      obtain ⟨r, hr, hread⟩ := List.mem_filterMap.mp hv
      exact .inr ⟨u, rfl, r, hr, v, hread, (hcompared u v).mpr ⟨hu, hsame⟩⟩
    · rintro (h | ⟨u', hu', r, hr, v, hread, h⟩)
      · exact absurd h hnot
      · cases hu'
        obtain ⟨hu, hsame⟩ := (hcompared u v).mp h
        exact (Bool.and_eq_true _ _).mpr
          ⟨hu, List.any_eq_true.mpr ⟨v, List.mem_filterMap.mpr ⟨r, hr, hread⟩, hsame⟩⟩

/-- Two URLs that compare are the same but for their ports, where neither has user information. -/
theorem Compared.sameButPort {u v : Url} (h : Compared u v) (husername : u.username = v.username)
    (hpassword : u.password = v.password) : SameButPort u v where
  scheme := (Url.loopback_scheme h.given).trans (Url.loopback_scheme h.registered).symm
  username := husername
  password := hpassword
  host := h.host.symm
  path := h.path.symm
  query := h.query.symm
  fragment := h.fragment.2.trans h.fragment.1.symm

/-- **An authorization answer goes only to a registered address, exactly when** the address that is named carries
no user name and no password, or is a registered string, or compares with no registered one. -/
theorem redirect_registered (C : UrlCodec) (registered : List String)
    (hvalid : ∀ r ∈ registered, validRedirect C r = true) (given : Option String) :
    (∀ uri, redirectUri C registered given = some uri → Registered C registered uri ∧
      ∀ issuer state code, ∃ r ∈ registered, ∃ v port, C.parse r = some v ∧
        (port ≠ v.port → v.loopbackHost = true) ∧
        withParams C uri (answerParams issuer state code) =
          some (C.toString (Url.withPairs C { v with port := port } (answerParams issuer state code)))) ↔
    ∀ uri ∈ given, ∀ u ∈ C.parse uri, u.username = "" ∧ u.password = none ∨ uri ∈ registered ∨
      ¬ ∃ r ∈ registered, ∃ v ∈ C.parse r, Compared u v := by
  constructor
  · intro h uri hgiven u hparse
    by_contra! hnot
    obtain ⟨huser, hmem, r, hr, v, hv, hcompared⟩ := hnot
    obtain rfl : given = some uri := hgiven
    have htaken : registeredRedirect C registered uri = true :=
      registeredRedirect_iff.mpr (.inr ⟨u, hparse, r, hr, v, hv, hcompared⟩)
    have huri : redirectUri C registered (some uri) = some uri := by simp [redirectUri, htaken]
    -- it differs in its user information from every registered one
    rcases (h uri huri).1 with hin | ⟨u', hparse', -, r', hr', v', hread, hsame⟩
    · exact hmem hin
    obtain rfl : u = u' := Option.some.inj (Eq.trans (Eq.symm hparse) hparse')
    obtain ⟨v'', hread', husername, hpassword⟩ := validRedirect_spec (hvalid r' hr')
    obtain rfl : v' = v'' := Option.some.inj (hread.symm.trans hread')
    exact huser (hsame.username.trans husername) (hsame.password.trans hpassword)
  · intro hplain uri h
    have hregistered : Registered C registered uri := by
      rcases redirectUri_spec h with hmem | ⟨hgiven, htaken⟩
      · exact .inl hmem
      rcases registeredRedirect_iff.mp htaken with hmem | ⟨u, hparse, r, hr, v, hread, hcompared⟩
      · exact .inl hmem
      rcases hplain uri hgiven u hparse with ⟨husername, hpassword⟩ | hmem | hnone
      · -- neither the address nor, by the registration, the registered one has user information
        obtain ⟨v', hread', husername', hpassword'⟩ := validRedirect_spec (hvalid r hr)
        obtain rfl : v = v' := Option.some.inj (Eq.trans (Eq.symm hread) hread')
        exact .inr ⟨u, hparse, hcompared.given, r, hr, v, hread,
          hcompared.sameButPort (husername.trans husername'.symm) (hpassword.trans hpassword'.symm)⟩
      · exact .inl hmem
      · exact absurd ⟨r, hr, v, hread, hcompared⟩ hnone
    exact ⟨hregistered, fun issuer state code => withParams_registered hvalid hregistered _⟩

/-- An app's redirect URI on this computer. -/
def appUrl : Url := ⟨"http", "", none, some "127.0.0.1", none, "/callback", none, none⟩

/-- The app's redirect URI and two on another port, one of them with user information, are read as they are
written. -/
structure ReadsApp (C : UrlCodec) : Prop where
  registered : C.parse "http://127.0.0.1/callback" = some appUrl
  port : C.parse "http://127.0.0.1:9/callback" = some { appUrl with port := some 9 }
  userinfo : C.parse "http://evil:pw@127.0.0.1:9/callback" =
    some { appUrl with port := some 9, username := "evil", password := some "pw" }

theorem readsApp_exists : ∃ C, ReadsApp C :=
  ⟨{ parse uri :=
      if uri = "http://127.0.0.1/callback" then some appUrl
      else if uri = "http://127.0.0.1:9/callback" then some { appUrl with port := some 9 }
      else some { appUrl with port := some 9, username := "evil", password := some "pw" }
     toString _ := ""
     encode := id }, ⟨by decide +kernel, by decide +kernel, by decide +kernel⟩⟩

theorem ReadsApp.valid (h : ReadsApp C) : ∀ r ∈ ["http://127.0.0.1/callback"], validRedirect C r = true := by
  have hshort : "http://127.0.0.1/callback".utf8ByteSize ≤ URI_MAX := by decide +kernel
  simpa [validRedirect, h.registered, appUrl, Url.loopbackHost] using hshort

/-- Another port of the app's redirect URI. -/
theorem redirect_registered_port : (∃ C, ReadsApp C) ∧ ∀ C, ReadsApp C →
    redirectUri C ["http://127.0.0.1/callback"] (some "http://127.0.0.1:9/callback") =
        some "http://127.0.0.1:9/callback" ∧
      Registered C ["http://127.0.0.1/callback"] "http://127.0.0.1:9/callback" := by
  refine ⟨readsApp_exists, fun C hreads => ?_⟩
  have htaken : redirectUri C ["http://127.0.0.1/callback"] (some "http://127.0.0.1:9/callback") =
      some "http://127.0.0.1:9/callback" := by
    simp [redirectUri, registeredRedirect, hreads.registered, hreads.port, appUrl, Url.loopback, Url.loopbackHost]
  refine ⟨htaken, ((redirect_registered C _ hreads.valid _).mpr ?_ _ htaken).1⟩
  intro uri huri u hu
  cases huri
  cases hreads.port.symm.trans hu
  exact .inl ⟨rfl, rfl⟩

/-- An address with user information is taken, though no registered one has any, and the answer is sent there. -/
theorem redirect_userinfo : (∃ C, ReadsApp C) ∧ ∀ C, ReadsApp C →
    (∀ r ∈ ["http://127.0.0.1/callback"], validRedirect C r = true) ∧
      registeredRedirect C ["http://127.0.0.1/callback"] "http://evil:pw@127.0.0.1:9/callback" = true ∧
      ¬ Registered C ["http://127.0.0.1/callback"] "http://evil:pw@127.0.0.1:9/callback" ∧
      ∀ params, withParams C "http://evil:pw@127.0.0.1:9/callback" params = some (C.toString (Url.withPairs C
        { appUrl with port := some 9, username := "evil", password := some "pw" } params)) := by
  refine ⟨readsApp_exists, fun C hreads => ⟨hreads.valid, ?_, ?_, fun params => ?_⟩⟩
  · simp [registeredRedirect, hreads.registered, hreads.userinfo, appUrl, Url.loopback, Url.loopbackHost]
  · rintro (hmem | ⟨u, hparse, -, r, hr, v, hread, hsame⟩)
    · revert hmem
      decide
    · obtain rfl := List.mem_singleton.mp hr
      have husername := hsame.username
      cases hreads.userinfo.symm.trans hparse
      cases hreads.registered.symm.trans hread
      revert husername
      decide
  · simp [withParams, hreads.userinfo]

end DenEdge.OAuth
