import ClawMux.Lib.Program
import ClawMux.Services.BotAdapters
import ClawMux.Services.Provisioner
import Mathlib.Data.List.TakeWhile

namespace ClawMux
set_option autoImplicit true
open Lib Lib.Text

/-- The settings of Teams; the lists are separated by commas. -/
structure TeamsSettings where
  teams_app_id : String := ""
  teams_jwt_audience : String := ""
  teams_jwks_urls : String :=
    "https://login.microsoftonline.com/common/discovery/keys," ++
      "https://login.microsoftonline.com/common/discovery/v2.0/keys"
  teams_allowed_issuers : String :=
    "https://api.botframework.com," ++
      "https://sts.windows.net/d6d49420-f39b-4df7-a1dc-d59a935871db/," ++
      "https://login.microsoftonline.com/d6d49420-f39b-4df7-a1dc-d59a935871db/v2.0"
  teams_allowed_service_url_hosts : String := "smba.trafficmanager.net,smtg.trafficmanager.net"

/-- Tables in which nothing is the lower case of nothing. -/
structure HostTables extends LibraryTables where
  lower_empty : lower "" = ""

/-- What PyJWT is asked: the key of a token at a JWKS URL, and whether the token is valid. -/
inductive TeamsAuthEffect
  | get_signing_key (jwks_url token : String)
  | decode (token key : String) (algorithms : List String) (audience : String)
      (issuer require : List String)

/-- A key, or the text of an exception. -/
abbrev TeamsAuthEffect.Answer : TeamsAuthEffect → Type
  | .get_signing_key .. => Except String String
  | .decode .. => Except String Unit

abbrev TeamsAuthTrace := List (Sigma TeamsAuthEffect.Answer)

namespace TeamsAuth

def split_csv (value : String) : List String :=
  ((value.toList.splitOn ',').map fun item => strip (String.ofList item)).filter (· ≠ "")

def algorithms : List String := ["RS256"]

def require : List String := ["exp", "iss", "aud"]

/-- The loop over the JWKS URLs; the result is a `TeamsAuthError` by its message. -/
def verify_with (token audience : String) (issuers : List String) :
    List String → String → Program TeamsAuthEffect TeamsAuthEffect.Answer (Except String Unit)
  | [], last_error => .done (.error ("Token verification failed: " ++ last_error))
  | jwks_url :: jwks_urls, _ =>
    .ask (.get_signing_key jwks_url token) fun signing_key =>
      match signing_key with
      | .error e => verify_with token audience issuers jwks_urls e
      | .ok key =>
        .ask (.decode token key algorithms audience issuers require) fun decoded =>
          match decoded with
          | .ok () => .done (.ok ())
          | .error e => verify_with token audience issuers jwks_urls e

variable (s : TeamsSettings)

def audience : String :=
  if strip s.teams_jwt_audience ≠ "" then strip s.teams_jwt_audience else strip s.teams_app_id

/-- The token of an `Authorization` header. -/
def bearer (authorization : Option String) : Except String String :=
  match authorization with
  | none => .error "Missing Bearer token"
  | some header =>
    if startsWith header "Bearer " = false then .error "Missing Bearer token"
    else
      let token := strip (dropLen header "Bearer ")
      if token = "" then .error "Empty Bearer token" else .ok token

def verify_inbound_token (authorization : Option String) :
    Program TeamsAuthEffect TeamsAuthEffect.Answer (Except String Unit) :=
  if audience s = "" then
    .done (.error
      "Teams inbound verification disabled: TEAMS_APP_ID/TEAMS_JWT_AUDIENCE not configured")
  else
    match bearer authorization with
    | .error e => .done (.error e)
    | .ok token =>
      verify_with token (audience s) (split_csv s.teams_allowed_issuers)
        (split_csv s.teams_jwks_urls) "None"

def endsWith (s suffix : String) : Bool := suffix.toList.isSuffixOf s.toList

/-- The test of a URL that has been parsed. -/
def is_allowed_host (t : LibraryTables) (parsed : ParsedUrl) : Bool :=
  let host := t.lower parsed.hostname
  if parsed.scheme ≠ "https" then false
  else if host = "" then false
  else (split_csv s.teams_allowed_service_url_hosts).any fun h =>
    host = t.lower h || endsWith host ("." ++ t.lower h)

/-- `none` when the parser raises. -/
def is_allowed_service_url (t : LibraryTables) (service_url : String) : Option Bool :=
  (urlparse t service_url).map (is_allowed_host s t)

/-! Verified tokens -/

/-- The token is valid. -/
def accepts : Sigma TeamsAuthEffect.Answer → Bool
  | ⟨.decode .., .ok ()⟩ => true
  | _ => false

/-- The exchanges that verify a token: a configured JWKS URL gave its key, and with that key it
is signed as asked for one of the issuers and the audience. -/
structure Verified (token : String) (tr : TeamsAuthTrace) : Prop where
  configured : audience s ≠ ""
  signed : ∃ jwks_url ∈ split_csv s.teams_jwks_urls, ∃ key before,
    tr = before ++ [⟨.get_signing_key jwks_url token, .ok key⟩,
      ⟨.decode token key algorithms (audience s) (split_csv s.teams_allowed_issuers) require,
        .ok ()⟩]

variable {s : TeamsSettings} {token : String} {tr : TeamsAuthTrace} {res : Except String Unit}

/-- What the loop has done when it is through. -/
structure Tried (s : TeamsSettings) (token : String) (jwks_urls : List String)
    (tr : TeamsAuthTrace) (res : Except String Unit) : Prop where
  accepted : res = .ok () ↔ ∃ x ∈ tr, accepts x = true
  signed : res = .ok () → ∃ jwks_url ∈ jwks_urls, ∃ key before,
    tr = before ++ [⟨.get_signing_key jwks_url token, .ok key⟩,
      ⟨.decode token key algorithms (audience s) (split_csv s.teams_allowed_issuers) require,
        .ok ()⟩]

theorem tried_nothing (e : String) : Tried s token jwks_urls [] (.error e) := by
  refine ⟨⟨nofun, fun ⟨x, hx, _⟩ => ?_⟩, nofun⟩
  cases hx

/-- An exchange that accepts nothing. -/
theorem Tried.cons {x : Sigma TeamsAuthEffect.Answer} (h : Tried s token jwks_urls tr res)
    (hx : accepts x = false) : Tried s token jwks_urls (x :: tr) res := by
  constructor
  · rw [h.accepted]
    constructor
    · exact fun ⟨y, hy, ha⟩ => ⟨y, List.mem_cons_of_mem _ hy, ha⟩
    · rintro ⟨y, hy, ha⟩
      rcases List.mem_cons.mp hy with rfl | hy
      · exact absurd (hx.symm.trans ha) Bool.false_ne_true
      · exact ⟨y, hy, ha⟩
  · intro hres
    obtain ⟨url, hurl, key, before, rfl⟩ := h.signed hres
    exact ⟨url, hurl, key, x :: before, rfl⟩

theorem Tried.more (h : Tried s token jwks_urls tr res) (jwks_url : String) :
    Tried s token (jwks_url :: jwks_urls) tr res := by
  refine ⟨h.accepted, fun hres => ?_⟩
  obtain ⟨url, hurl, rest⟩ := h.signed hres
  exact ⟨url, List.mem_cons_of_mem _ hurl, rest⟩

theorem verify_with_ends {jwks_urls : List String} {last_error : String}
    (h : Program.Ends (verify_with token (audience s) (split_csv s.teams_allowed_issuers) jwks_urls
      last_error) tr res) : Tried s token jwks_urls tr res := by
  induction jwks_urls generalizing last_error tr with
  | nil =>
    obtain ⟨rfl, rfl⟩ := Program.ends_done.mp h
    exact tried_nothing _
  | cons jwks_url jwks_urls ih =>
    obtain ⟨signing_key, rest, rfl, hrest⟩ := Program.ends_ask.mp h
    cases signing_key with
    | error e => exact ((ih hrest).more jwks_url).cons rfl
    | ok key =>
      obtain ⟨decoded, rest', rfl, hrest'⟩ := Program.ends_ask.mp hrest
      cases decoded with
      | ok u =>
        obtain ⟨rfl, rfl⟩ := Program.ends_done.mp hrest'
        exact ⟨⟨fun _ => ⟨_, List.mem_cons_of_mem _ List.mem_cons_self, rfl⟩, fun _ => rfl⟩,
          fun _ => ⟨jwks_url, List.mem_cons_self, key, [], rfl⟩⟩
      | error e => exact (((ih hrest').more jwks_url).cons rfl).cons rfl

/-- A request is let in exactly when PyJWT has accepted its token. -/
theorem verify_ends {authorization : Option String}
    (h : Program.Ends (verify_inbound_token s authorization) tr res) :
    (res = .ok () ↔ ∃ x ∈ tr, accepts x = true) ∧
      (res = .ok () → ∃ token, bearer authorization = .ok token ∧ Verified s token tr) := by
  rw [verify_inbound_token] at h
  split at h
  · obtain ⟨rfl, rfl⟩ := Program.ends_done.mp h
    exact ⟨(@tried_nothing s "" [] _).accepted, nofun⟩
  · rename_i haudience
    cases hb : bearer authorization with
    | error e =>
      rw [hb] at h
      obtain ⟨rfl, rfl⟩ := Program.ends_done.mp h
      exact ⟨(@tried_nothing s "" [] _).accepted, nofun⟩
    | ok token =>
      rw [hb] at h
      have ht := verify_with_ends h
      exact ⟨ht.accepted, fun hres => ⟨token, rfl, haudience, ht.signed hres⟩⟩

/-! Slashes at the end of a URL, and a path behind it -/

theorem takeWhile_append_stop {p : Char → Bool} {c : Char} (hc : p c = false) (a b : List Char) :
    (a ++ c :: b).takeWhile p = a.takeWhile p := by
  induction a with
  | nil => rw [List.nil_append, List.takeWhile_cons_of_neg (by simp [hc]), List.takeWhile_nil]
  | cons d a ih =>
    rw [List.cons_append, List.takeWhile_cons, List.takeWhile_cons, ih]

/-- What the parser looks at. -/
def url_text (url : List Char) : List Char :=
  (url.dropWhile (·.toNat ≤ 0x20)).filter fun c => !([0x09, 0x0a, 0x0d].contains c.toNat)

theorem urlparse_congr {t : LibraryTables} {a b : String}
    (hscheme : (split_scheme (url_text a.toList)).1 = (split_scheme (url_text b.toList)).1)
    (hnetloc : split_netloc (split_scheme (url_text a.toList)).2 =
      split_netloc (split_scheme (url_text b.toList)).2) : urlparse t a = urlparse t b := by
  simp only [urlparse]
  simp only [url_text] at hscheme hnetloc
  rw [hscheme, hnetloc]

theorem url_text_append {a b : List Char} (h : url_text a ≠ []) : url_text (a ++ b) =
    url_text a ++ b.filter fun c => !([0x09, 0x0a, 0x0d].contains c.toNat) := by
  have hne : (a.dropWhile (·.toNat ≤ 0x20)).isEmpty = false := by
    rw [List.isEmpty_eq_false_iff]
    intro he
    exact h (by rw [url_text, he, List.filter_nil])
  rw [url_text, List.dropWhile_append, hne, if_neg Bool.false_ne_true, List.filter_append]
  rfl

theorem split_scheme_at {w : List Char} (hw : ':' ∉ w) (r : List Char) :
    split_scheme (w ++ ':' :: r) =
      if w.head?.any Char.isAlpha && w.all scheme_char then (lower (String.ofList w), r)
      else ("", w ++ ':' :: r) := by
  have hword : (w ++ ':' :: r).takeWhile (· ≠ ':') = w := by
    rw [takeWhile_append_stop (by decide), List.takeWhile_eq_self_iff]
    intro c hc
    exact decide_eq_true fun he => hw (he ▸ hc)
  rw [split_scheme]
  simp only [hword, List.drop_left]

theorem split_scheme_none {a : List Char} (h : ':' ∉ a) : split_scheme a = ("", a) := by
  have hword : a.takeWhile (· ≠ ':') = a := by
    rw [List.takeWhile_eq_self_iff]
    intro c hc
    exact decide_eq_true fun he => h (he ▸ hc)
  rw [split_scheme]
  simp only [hword, List.drop_length]

theorem split_scheme_append {a : List Char} (h : ':' ∈ a) (b : List Char) :
    split_scheme (a ++ b) = ((split_scheme a).1, (split_scheme a).2 ++ b) := by
  obtain ⟨w, r, rfl, hw⟩ := List.eq_append_cons_of_mem h
  rw [List.append_assoc, List.cons_append, split_scheme_at hw, split_scheme_at hw]
  split
  · rfl
  · rw [List.append_assoc, List.cons_append]

theorem split_netloc_plain {a : List Char} (h : ∀ r, a ≠ '/' :: '/' :: r) :
    split_netloc a = [] := by
  unfold split_netloc
  split
  · exact absurd rfl (h _)
  · rfl

theorem split_netloc_all {b : List Char} (hb : ∀ c ∈ b, c = '/') : split_netloc b = [] := by
  unfold split_netloc
  split
  · rename_i r
    cases r with
    | nil => rfl
    | cons c r =>
      rw [hb c (by simp)]
      rfl
  · rfl

theorem split_netloc_slashes {b : List Char} (hb : ∀ c ∈ b, c = '/') (a : List Char) :
    split_netloc (a ++ b) = split_netloc a := by
  by_cases ha : ∀ c ∈ a, c = '/'
  · rw [split_netloc_all ha, split_netloc_all]
    intro c hc
    exact (List.mem_append.mp hc).elim (ha c) (hb c)
  · cases b with
    | nil => rw [List.append_nil]
    | cons d b =>
      cases hb d List.mem_cons_self
      by_cases hslash : ∃ r, a = '/' :: '/' :: r
      · obtain ⟨r, rfl⟩ := hslash
        exact takeWhile_append_stop rfl r b
      · rw [split_netloc_plain (not_exists.mp hslash), split_netloc_plain]
        intro r he
        match a, he with
        | [], _ => exact ha nofun
        | [c], he =>
          cases he
          exact ha fun c hc => List.mem_singleton.mp hc
        | c :: c' :: a, he =>
          cases he
          exact hslash ⟨a, rfl⟩

theorem split_netloc_path {a : List Char} (ha : split_netloc a ≠ []) (b : List Char) :
    split_netloc (a ++ '/' :: b) = split_netloc a := by
  by_cases hslash : ∃ r, a = '/' :: '/' :: r
  · obtain ⟨r, rfl⟩ := hslash
    exact takeWhile_append_stop rfl r b
  · exact absurd (split_netloc_plain (not_exists.mp hslash)) ha

theorem mem_url_text_append {a b : List Char} (h : c ∈ url_text (a ++ b)) :
    c ∈ url_text a ∨ c ∈ b := by
  rw [url_text, List.mem_filter, List.dropWhile_append] at h
  obtain ⟨hc, hkept⟩ := h
  split at hc
  · exact .inr ((List.dropWhile_suffix _).subset hc)
  · rcases List.mem_append.mp hc with hc | hc
    · exact .inl (List.mem_filter.mpr ⟨hc, hkept⟩)
    · exact .inr hc

variable {t : HostTables} {url path : String}

/-- A URL that is allowed has a scheme and a host. -/
theorem allowed_parts (h : is_allowed_service_url s t.toLibraryTables url = some true) :
    ':' ∈ url_text url.toList ∧ split_netloc (split_scheme (url_text url.toList)).2 ≠ [] := by
  rw [is_allowed_service_url, Option.map_eq_some_iff] at h
  obtain ⟨parsed, hparsed, hallowed⟩ := h
  rw [urlparse] at hparsed
  dsimp only at hparsed
  split at hparsed
  · cases hparsed
  · cases hparsed
    rw [← url_text] at hallowed
    rw [is_allowed_host] at hallowed
    split at hallowed
    · cases hallowed
    · rename_i hscheme
      split at hallowed
      · cases hallowed
      · rename_i hhost
        constructor
        · by_contra hcolon
          rw [split_scheme_none hcolon] at hscheme
          exact hscheme fun he => absurd he (by simp)
        · intro hnone
          rw [hnone] at hhost
          exact hhost (by simp [hostname, t.lower_empty])

theorem rstrip_slash_append (url : String) :
    ∃ b : List Char, (∀ c ∈ b, c = '/') ∧ url.toList = (rstrip_slash url).toList ++ b := by
  refine ⟨(url.toList.reverse.takeWhile (· = '/')).reverse, fun c hc => ?_, ?_⟩
  · have hslash := List.mem_takeWhile_imp (List.mem_reverse.mp hc)
    exact of_decide_eq_true hslash
  · rw [rstrip_slash, String.toList_ofList, ← List.reverse_append, List.takeWhile_append_dropWhile,
      List.reverse_reverse]

/-- The slashes that are taken off the end of an allowed URL are no part of its host. -/
theorem allowed_rstrip (h : is_allowed_service_url s t.toLibraryTables url = some true) :
    is_allowed_service_url s t.toLibraryTables (rstrip_slash url) = some true := by
  obtain ⟨b, hb, hurl⟩ := rstrip_slash_append url
  have hcolon := (allowed_parts h).1
  rw [hurl] at hcolon
  have hmem : ':' ∈ url_text (rstrip_slash url).toList := by
    rcases mem_url_text_append hcolon with hc | hc
    · exact hc
    · cases hb _ hc
  have hsplit := split_scheme_append hmem (b.filter fun c => !([0x09, 0x0a, 0x0d].contains c.toNat))
  rw [← url_text_append (List.ne_nil_of_mem hmem), ← hurl] at hsplit
  rw [is_allowed_service_url, ← h, is_allowed_service_url]
  refine congrArg _ (urlparse_congr ?_ ?_)
  · rw [hsplit]
  · rw [hsplit, split_netloc_slashes]
    exact fun c hc => hb c (List.mem_of_mem_filter hc)

/-- A URL below an allowed one is allowed. -/
theorem allowed_path (h : is_allowed_service_url s t.toLibraryTables url = some true)
    (hpath : startsWith path "/" = true) :
    is_allowed_service_url s t.toLibraryTables (url ++ path) = some true := by
  obtain ⟨hcolon, hnetloc⟩ := allowed_parts h
  obtain ⟨rest, hrest⟩ := List.isPrefixOf_iff_prefix.mp hpath
  have hsplit := split_scheme_append hcolon
    (path.toList.filter fun c => !([0x09, 0x0a, 0x0d].contains c.toNat))
  rw [← url_text_append (List.ne_nil_of_mem hcolon), ← String.toList_append] at hsplit
  rw [is_allowed_service_url, ← h, is_allowed_service_url]
  refine congrArg _ (urlparse_congr ?_ ?_)
  · rw [hsplit]
  · rw [hsplit, ← hrest]
    exact split_netloc_path hnetloc _

end TeamsAuth

end ClawMux
