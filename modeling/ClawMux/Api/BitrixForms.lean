import ClawMux.Api.Bitrix

namespace ClawMux
set_option autoImplicit true
open Lib Lib.Text

namespace Bitrix

variable (py : Dynamics) (settings : BitrixSettings) (app_router : Bool)

/-! The two forms of a body -/

mutual

/-- A value under its bracketed name. -/
def leaves (name : String) : Json → List (String × String)
  | .str s => [(name, s)]
  | .obj fields => leaves_in name fields
  | _ => []

def leaves_in (name : String) : List (String × Json) → List (String × String)
  | [] => []
  | (key, value) :: fields => leaves (name ++ "[" ++ key ++ "]") value ++ leaves_in name fields

end

def flatten (fields : List (String × Json)) : List (String × String) :=
  fields.flatMap fun field => leaves field.1 field.2

/-- Objects of strings. -/
inductive Nested : Json → Prop
  | str (s : String) : Nested (.str s)
  | obj {fields : List (String × Json)} : (fields.map Prod.fst).Nodup →
      (∀ field ∈ fields, Nested field.2) → Nested (.obj fields)

-- what Starlette's `request.form()` makes of the fields that a body was encoded from
variable (request_form : List (String × String) → Except Raised (List (String × String)))

/-- With python-multipart the fields are read back. -/
def Installed : Prop := ∀ items, request_form items = .ok items

/-- Without it, as the requirements have it, every form raises. -/
def Missing : Prop := ∀ items, request_form items = .error .assertion_error

variable (query_params : List (String × String)) (fields : List (String × Json))

def as_json : BitrixRequest where
  content_type := "application/json"
  query_params := query_params
  json := .obj fields
  form := .ok []

def as_form : BitrixRequest where
  content_type := "application/x-www-form-urlencoded"
  query_params := query_params
  json := .null
  form := request_form (flatten fields)

/-- Neither form raises, and both are answered alike. -/
def Equivalent : Prop :=
  ∃ answer, bitrix_webhook_event py settings app_router (as_json query_params fields) = .ok answer ∧
    bitrix_webhook_event py settings app_router (as_form request_form query_params fields) =
      .ok answer

/-- The token that the JSON body carries, or else the query. -/
def body_token : String :=
  match Json.get fields "auth" .null with
  | .obj auth =>
    match Json.get auth "access_token" .null with
    | .str token => if token ≠ "" then token else query_token query_params
    | _ => query_token query_params
  | _ => query_token query_params

def Ascii (s : String) : Prop := (s.toList.all fun c => c.toNat < 0x80) = true

def Refused (token : String) : Prop :=
  token = "" ∨ token ≠ settings.bitrix_inbound_secret ∧
    Ascii (token ++ settings.bitrix_inbound_secret)

def Accepted (token : String) : Prop :=
  token ≠ "" ∧ token = settings.bitrix_inbound_secret ∧
    Ascii (token ++ settings.bitrix_inbound_secret)

instance (token : String) : Decidable (Refused settings token) :=
  inferInstanceAs (Decidable (token = "" ∨ token ≠ settings.bitrix_inbound_secret ∧
    ((token ++ settings.bitrix_inbound_secret).toList.all fun c => c.toNat < 0x80) = true))

/-- The body has no message to receive, and nothing that makes reading it raise. -/
structure Silent : Prop where
  objects : ∀ name ∈ ["data", "DATA", "PARAMS"], ∀ s, fields.lookup name = some (.str s) → s = ""
  incomplete : ∃ params, find_params (.obj fields) = .ok (.obj params) ∧
    (strip (param py params "MESSAGE") = "" ∨ param py params "FROM_USER_ID" = "" ∨
      param py params "DIALOG_ID" = "") ∧
    (settings.bitrix_bot_id = 0 ∨
      param py params "FROM_USER_ID" ≠ toString settings.bitrix_bot_id)

/-- When the form that the body comes in makes no difference. -/
inductive Indifferent : Prop
  | disabled : settings.bitrix_inbound_secret = "" → Indifferent
  | refused : Refused settings (body_token query_params fields) →
      Refused settings (query_token query_params) → Indifferent
  | silent : Accepted settings (body_token query_params fields) →
      Accepted settings (query_token query_params) → Silent py settings fields → Indifferent

variable {py settings app_router request_form query_params fields}

/-- An object of strings. -/
theorem nested_strings (hnodup : (fields.map Prod.fst).Nodup)
    (h : ∀ field ∈ fields, field.2.string.isSome = true) : Nested (.obj fields) := by
  refine .obj hnodup fun field hfield => ?_
  obtain ⟨key, j⟩ := field
  have hsome := h _ hfield
  cases j with
  | str s => exact .str s
  | null | bool | num | arr | obj => cases hsome

theorem dict_snoc (items : List (String × String)) (item : String × String) :
    dict (items ++ [item]) = item :: (dict items).filter fun old => old.1 ≠ item.1 := by
  rw [dict, List.foldl_append]
  rfl

theorem lookup_filter_ne {d : List (String × String)} (h : key ≠ other) :
    (d.filter fun old => old.1 ≠ other).lookup key = d.lookup key := by
  induction d with
  | nil => rfl
  | cons item d ih =>
    rw [List.filter_cons]
    split
    · rw [List.lookup_cons, List.lookup_cons, ih]
    · rename_i hother
      have he : item.1 = other := by simpa using hother
      have hne : (key == item.1) = false := beq_false_of_ne (he ▸ h)
      rw [ih, List.lookup_cons, hne]

/-- The last value of a key is the one that is found. -/
theorem lookup_dict : (dict items).lookup key =
    ((items.filter fun item => item.1 = key).getLast?).map Prod.snd := by
  induction items using List.reverseRecOn with
  | nil => rfl
  | append_singleton items item ih =>
    rw [dict_snoc, List.lookup_cons, List.filter_append]
    by_cases h : key = item.1
    · simp [h]
    · have hne : (key == item.1) = false := beq_false_of_ne h
      have hlast : ([item].filter fun item => decide (item.1 = key)) = [] := by
        simp [Ne.symm h]
      rw [hne, hlast, List.append_nil, ← ih]
      exact lookup_filter_ne h

mutual

theorem leaves_bracket : ∀ (j : Json) (name : String), '[' ∈ name.toList →
    ∀ item ∈ leaves name j, '[' ∈ item.1.toList
  | .str s, name, h, item, hm => by
    rw [leaves, List.mem_singleton] at hm
    exact hm ▸ h
  | .obj fields, name, _, item, hm => leaves_in_bracket fields name item hm
  | .null, _, _, _, hm => by cases hm
  | .bool _, _, _, _, hm => by cases hm
  | .num _, _, _, _, hm => by cases hm
  | .arr _, _, _, _, hm => by cases hm

/-- A value inside an object has brackets in its name. -/
theorem leaves_in_bracket : ∀ (fields : List (String × Json)) (name : String),
    ∀ item ∈ leaves_in name fields, '[' ∈ item.1.toList
  | [], _, _, hm => by cases hm
  | (key, value) :: fields, name, item, hm => by
    rw [leaves_in] at hm
    rcases List.mem_append.mp hm with hm | hm
    · refine leaves_bracket value _ ?_ item hm
      simp
    · exact leaves_in_bracket fields name item hm

end

/-- The string that a top-level name has. -/
def leaf (fields : List (String × Json)) (key : String) : Option String :=
  (fields.lookup key).bind Json.string

theorem filter_leaves (hkey : '[' ∉ key.toList) (name : String) (j : Json) :
    (leaves name j).filter (fun item => item.1 = key) =
      if name = key then (j.string.map fun s => (key, s)).toList else [] := by
  cases j with
  | str s =>
    rw [leaves]
    by_cases h : name = key
    · simp [h, Json.string]
    · simp [h]
  | obj inner =>
    have hnone : (leaves name (.obj inner)).filter (fun item => item.1 = key) = [] := by
      rw [List.filter_eq_nil_iff]
      intro item hm he
      exact hkey (of_decide_eq_true he ▸ leaves_in_bracket inner name item hm)
    rw [hnone]
    split <;> rfl
  | null | bool | num | arr =>
    rw [leaves]
    · split <;> rfl
    all_goals
      intro
      intros
      contradiction

theorem filter_flatten (hkey : '[' ∉ key.toList) (hnodup : (fields.map Prod.fst).Nodup) :
    (flatten fields).filter (fun item => item.1 = key) =
      ((leaf fields key).map fun s => (key, s)).toList := by
  induction fields with
  | nil => rfl
  | cons field fields ih =>
    rw [List.map_cons, List.nodup_cons] at hnodup
    rw [flatten, List.flatMap_cons, List.filter_append, filter_leaves hkey]
    rw [flatten] at ih
    rw [ih hnodup.2, leaf, leaf, List.lookup_cons]
    by_cases h : field.1 = key
    · have hnone : fields.lookup key = none := by
        rw [List.lookup_eq_none_iff]
        intro item hm
        have hother : key ≠ item.1 := by
          rintro rfl
          exact hnodup.1 (h ▸ List.mem_map_of_mem hm)
        exact bne_iff_ne.mpr hother
      have heq : (key == field.1) = true := by simp [h]
      rw [hnone, heq, if_pos h]
      simp
    · have hne : (key == field.1) = false := beq_false_of_ne (Ne.symm h)
      rw [hne, if_neg h, List.nil_append]

theorem lookup_form (hkey : '[' ∉ key.toList) (hnodup : (fields.map Prod.fst).Nodup) :
    (dict (flatten fields)).lookup key = leaf fields key := by
  rw [lookup_dict, filter_flatten hkey hnodup]
  cases leaf fields key <;> rfl

theorem lookup_map_str (d : List (String × String)) :
    (d.map fun item => (item.1, Json.str item.2)).lookup key = (d.lookup key).map .str := by
  induction d with
  | nil => rfl
  | cons item d ih =>
    rw [List.map_cons, List.lookup_cons, List.lookup_cons, ih]
    split <;> rfl

/-- What the form has under a name that has no brackets. -/
def form_value (fields : List (String × Json)) (key : String) : Json :=
  ((leaf fields key).map Json.str).getD .null

theorem get_form (hkey : '[' ∉ key.toList) (hnodup : (fields.map Prod.fst).Nodup) :
    Dynamic.get key .null (form_payload (flatten fields)) = .ok (form_value fields key) := by
  rw [form_payload, Dynamic.get, Json.get, lookup_map_str, lookup_form hkey hnodup, form_value]

theorem form_value_cases : form_value fields key = .null ∨
    ∃ s, fields.lookup key = some (.str s) ∧ form_value fields key = .str s := by
  rw [form_value, leaf]
  cases hj : fields.lookup key with
  | none => exact .inl rfl
  | some j =>
    cases j with
    | str s => exact .inr ⟨s, rfl, rfl⟩
    | null | bool | num | arr | obj => exact .inl rfl

theorem token_form (hnodup : (fields.map Prod.fst).Nodup) :
    extract_inbound_token query_params (form_payload (flatten fields)) =
      .ok (query_token query_params) := by
  rw [extract_inbound_token, get_form (by decide) hnodup]
  rcases @form_value_cases fields "auth" with h | ⟨s, -, h⟩
  · rw [h]
    rfl
  · rw [h]
    rfl

theorem token_json : extract_inbound_token query_params (.obj fields) =
    .ok (body_token query_params fields) := by
  rw [extract_inbound_token, body_token, Dynamic.get]
  simp only [bind, Except.bind]
  cases Json.get fields "auth" .null with
  | obj auth =>
    dsimp only
    cases Json.get auth "access_token" .null <;> rfl
  | null | bool | num | str | arr => rfl

theorem authorize_cases (token : String) :
    authorize settings token = .ok true ∧ Accepted settings token ∨
      authorize settings token = .ok false ∧ Refused settings token ∨
        ∃ e, authorize settings token = .error e ∧ ¬ Accepted settings token ∧
          ¬ Refused settings token := by
  rw [authorize]
  split
  · rename_i hempty
    exact .inr (.inl ⟨rfl, .inl hempty⟩)
  · rename_i hne
    rw [compare_digest]
    split
    · rename_i hascii
      by_cases he : token = settings.bitrix_inbound_secret
      · exact .inl ⟨by rw [decide_eq_true he], hne, he, hascii⟩
      · exact .inr (.inl ⟨by rw [decide_eq_false he], .inr ⟨he, hascii⟩⟩)
    · rename_i hascii
      refine .inr (.inr ⟨_, rfl, fun h => hascii h.2.2, ?_⟩)
      rintro (h | h)
      · exact hne h
      · exact hascii h.2

theorem Accepted.not_refused (h : Accepted settings token) : ¬ Refused settings token := by
  rintro (he | ⟨hne, -⟩)
  · exact h.1 he
  · exact hne h.2.1

/-- The form has nothing under a name, or a string. -/
theorem form_value_truthy (fields : List (String × Json)) (key : String) :
    (form_value fields key).truthy = false ∧
        (∀ s, fields.lookup key = some (.str s) → s = "") ∨
      ∃ s, fields.lookup key = some (.str s) ∧ s ≠ "" ∧ form_value fields key = .str s := by
  rw [form_value, leaf]
  cases hj : fields.lookup key with
  | none => exact .inl ⟨rfl, fun _ h => by cases h⟩
  | some j =>
    cases j with
    | str s =>
      by_cases hs : s = ""
      · subst hs
        exact .inl ⟨rfl, fun _ h => by cases h; rfl⟩
      · exact .inr ⟨s, rfl, hs, rfl⟩
    | null | bool | num | arr | obj => exact .inl ⟨rfl, fun _ h => by cases h⟩

theorem either_truthy (hs : s ≠ "") (j : Json) : Dynamic.either (.str s) j = .str s := by
  have htruthy : (Json.str s).truthy = true := decide_eq_true hs
  rw [Dynamic.either, htruthy, if_pos rfl]

theorem either_falsy (h : x.truthy = false) (j : Json) : Dynamic.either x j = j := by
  rw [Dynamic.either, h, if_neg Bool.false_ne_true]

/-- A form has no message, and is no object of objects when it has a string for one. -/
theorem find_params_form (hnodup : (fields.map Prod.fst).Nodup) :
    find_params (form_payload (flatten fields)) = .ok (.obj []) ∧
        (∀ name ∈ ["data", "DATA", "PARAMS"], ∀ s, fields.lookup name = some (.str s) → s = "") ∨
      (∀ params, find_params (form_payload (flatten fields)) ≠ .ok (.obj params)) ∧
        ∃ name ∈ ["data", "DATA", "PARAMS"], ∃ s, fields.lookup name = some (.str s) ∧ s ≠ "" := by
  have hfind : find_params (form_payload (flatten fields)) = do
      let data := Dynamic.either (Dynamic.either (form_value fields "data")
        (form_value fields "DATA")) (.obj [])
      return Dynamic.either (Dynamic.either (← Dynamic.get "PARAMS" .null data)
        (form_value fields "PARAMS")) data := by
    rw [find_params, get_form (by decide) hnodup, get_form (by decide) hnodup,
      get_form (by decide) hnodup]
    rfl
  rcases form_value_truthy fields "data" with ⟨hdata, hdata'⟩ | ⟨s, hlookup, hne, hdata⟩
  · rw [either_falsy hdata] at hfind
    rcases form_value_truthy fields "DATA" with ⟨hDATA, hDATA'⟩ | ⟨s, hlookup, hne, hDATA⟩
    · rw [either_falsy hDATA] at hfind
      have hfind' : find_params (form_payload (flatten fields)) =
          .ok (Dynamic.either (Dynamic.either .null (form_value fields "PARAMS")) (.obj [])) :=
        hfind
      rw [either_falsy (x := .null) rfl] at hfind'
      rcases form_value_truthy fields "PARAMS" with ⟨hPARAMS, hPARAMS'⟩ | ⟨s, hlookup, hne, hPARAMS⟩
      · rw [either_falsy hPARAMS] at hfind'
        exact .inl ⟨hfind', List.forall_mem_cons.mpr ⟨hdata', List.forall_mem_cons.mpr ⟨hDATA',
          List.forall_mem_singleton.mpr hPARAMS'⟩⟩⟩
      · rw [hPARAMS, either_truthy hne] at hfind'
        refine .inr ⟨?_, "PARAMS", by decide, s, hlookup, hne⟩
        rw [hfind']
        intro params he
        cases he
    · rw [hDATA, either_truthy hne] at hfind
      refine .inr ⟨?_, "DATA", by decide, s, hlookup, hne⟩
      rw [hfind]
      intro params he
      cases he
  · rw [hdata, either_truthy hne, either_truthy hne] at hfind
    refine .inr ⟨?_, "data", by decide, s, hlookup, hne⟩
    rw [hfind]
    intro params he
    cases he

/-- What is answered, once the body is parsed and its token is known. -/
theorem event_ok (hpayload : payload r = .ok body)
    (htoken : extract_inbound_token r.query_params body = .ok token)
    (hsecret : settings.bitrix_inbound_secret ≠ "") :
    bitrix_webhook_event py settings app_router r = .ok answer ↔
      Refused settings token ∧ answer = .http_exception 401 "Invalid webhook token" ∨
      Accepted settings token ∧ ∃ params, find_params body = .ok (.obj params) ∧
        answer = respond py settings app_router params := by
  rw [bitrix_webhook_event, hpayload]
  simp only [bind, Except.bind, if_neg hsecret, htoken]
  rcases @authorize_cases settings token with
    ⟨hvalid, haccepted⟩ | ⟨hvalid, hrefused⟩ | ⟨e, hvalid, hnot, hnot'⟩
  · rw [hvalid]
    dsimp only
    rw [if_pos rfl]
    cases find_params body with
    | error e =>
      refine iff_of_false (fun h => by cases h) ?_
      rintro (⟨hrefused, -⟩ | ⟨-, params, hparams, -⟩)
      · exact haccepted.not_refused hrefused
      · cases hparams
    | ok params =>
      cases params with
      | obj params =>
        constructor
        · intro h
          cases h
          exact .inr ⟨haccepted, params, rfl, rfl⟩
        · rintro (⟨hrefused, -⟩ | ⟨-, params', hparams, rfl⟩)
          · exact absurd hrefused haccepted.not_refused
          · cases hparams
            rfl
      | null | bool | num | str | arr =>
        refine iff_of_false (fun h => by cases h) ?_
        rintro (⟨hrefused, -⟩ | ⟨-, params, hparams, -⟩)
        · exact haccepted.not_refused hrefused
        · cases hparams
  · rw [hvalid]
    dsimp only
    rw [if_neg Bool.false_ne_true]
    constructor
    · intro h
      cases h
      exact .inl ⟨hrefused, rfl⟩
    · rintro (⟨-, rfl⟩ | ⟨haccepted, -⟩)
      · rfl
      · exact absurd hrefused haccepted.not_refused
  · rw [hvalid]
    refine iff_of_false (fun h => by cases h) ?_
    rintro (⟨hrefused, -⟩ | ⟨haccepted, -⟩)
    · exact hnot' hrefused
    · exact hnot haccepted

theorem event_disabled (hsecret : settings.bitrix_inbound_secret = "")
    (hpayload : payload r = .ok body) : bitrix_webhook_event py settings app_router r =
      .ok (.http_exception 401 "Bitrix webhook is disabled") := by
  rw [bitrix_webhook_event, hpayload]
  simp only [bind, Except.bind, if_pos hsecret]
  rfl

theorem payload_json : payload (as_json query_params fields) = .ok (.obj fields) := by
  have hjson : Text.contains "application/json" "application/json" = true := by decide
  rw [payload, as_json, hjson, if_pos rfl]

theorem payload_form : payload (as_form request_form query_params fields) =
    (request_form (flatten fields)).map form_payload := by
  have hform : Text.contains "application/x-www-form-urlencoded" "application/json" = false := by
    decide
  rw [payload, as_form, hform, if_neg Bool.false_ne_true]

theorem payload_installed (h : Installed request_form) :
    payload (as_form request_form query_params fields) = .ok (form_payload (flatten fields)) := by
  rw [payload_form, h]
  rfl

/-- A form that cannot be parsed is not even refused. -/
theorem event_missing (h : Missing request_form) :
    bitrix_webhook_event py settings app_router (as_form request_form query_params fields) =
      .error .assertion_error := by
  rw [bitrix_webhook_event, payload_form, h]
  rfl

theorem event_json (hsecret : settings.bitrix_inbound_secret ≠ "") :
    bitrix_webhook_event py settings app_router (as_json query_params fields) = .ok answer ↔
      Refused settings (body_token query_params fields) ∧
          answer = .http_exception 401 "Invalid webhook token" ∨
        Accepted settings (body_token query_params fields) ∧
          ∃ params, find_params (.obj fields) = .ok (.obj params) ∧
            answer = respond py settings app_router params :=
  event_ok payload_json token_json hsecret

theorem toString_ne_empty (n : Int) : toString n ≠ "" := by
  cases n with
  | ofNat n => exact Nat.repr_ne_empty
  | negSucc n =>
    intro h
    have hlist : ("-" ++ Nat.repr (n + 1)).toList = [] := congrArg String.toList h
    rw [String.toList_append] at hlist
    exact List.cons_ne_nil _ _ (List.append_eq_nil_iff.mp hlist).1

theorem respond_ignored : respond py settings app_router params = .status "ignored_empty" none ↔
    (strip (param py params "MESSAGE") = "" ∨ param py params "FROM_USER_ID" = "" ∨
      param py params "DIALOG_ID" = "") ∧
    (settings.bitrix_bot_id = 0 ∨
      param py params "FROM_USER_ID" ≠ toString settings.bitrix_bot_id) := by
  rw [respond]
  dsimp only
  split
  · rename_i hown
    constructor
    · intro h
      have htext : "ignored_bot_own_message" = "ignored_empty" := (BitrixAnswer.status.inj h).1
      exact absurd htext (by decide)
    · rintro ⟨-, hzero | hne⟩
      · exact absurd hzero hown.1
      · exact absurd hown.2 hne
  · rename_i hown
    have hother : settings.bitrix_bot_id = 0 ∨
        param py params "FROM_USER_ID" ≠ toString settings.bitrix_bot_id := by
      by_cases hzero : settings.bitrix_bot_id = 0
      · exact .inl hzero
      · exact .inr fun he => hown ⟨hzero, he⟩
    split
    · rename_i hempty
      exact iff_of_true rfl ⟨hempty, hother⟩
    · rename_i hempty
      refine iff_of_false (fun h => ?_) fun h => hempty h.1
      have htext : "received" = "ignored_empty" := (BitrixAnswer.status.inj h).1
      exact absurd htext (by decide)

/-- No bot has an empty id. -/
theorem respond_empty : respond py settings app_router [] = .status "ignored_empty" none :=
  respond_ignored.mpr ⟨.inr (.inl rfl), .inr (Ne.symm (toString_ne_empty _))⟩

theorem respond_not_refused :
    respond py settings app_router params ≠ .http_exception status_code detail := by
  rw [respond]
  dsimp only
  split
  · exact fun h => by cases h
  · split
    · exact fun h => by cases h
    · exact fun h => by cases h

/-- A form is refused or ignored. -/
theorem event_form (hform : Installed request_form) (hnodup : (fields.map Prod.fst).Nodup)
    (hsecret : settings.bitrix_inbound_secret ≠ "") :
    bitrix_webhook_event py settings app_router (as_form request_form query_params fields) =
        .ok answer ↔
      Refused settings (query_token query_params) ∧
          answer = .http_exception 401 "Invalid webhook token" ∨
        Accepted settings (query_token query_params) ∧
          (∀ name ∈ ["data", "DATA", "PARAMS"], ∀ s,
            fields.lookup name = some (.str s) → s = "") ∧
          answer = .status "ignored_empty" none := by
  rw [event_ok (payload_installed hform) (token_form hnodup) hsecret]
  refine or_congr_right (and_congr_right fun _ => ?_)
  rcases @find_params_form fields hnodup with
    ⟨hfind, hobjects⟩ | ⟨hfind, name, hname, s, hlookup, hne⟩
  · rw [hfind]
    constructor
    · rintro ⟨params, hparams, rfl⟩
      cases hparams
      exact ⟨hobjects, respond_empty⟩
    · rintro ⟨-, rfl⟩
      exact ⟨[], rfl, respond_empty.symm⟩
  · apply iff_of_false
    · rintro ⟨params, hparams, -⟩
      exact hfind params hparams
    · rintro ⟨hobjects, -⟩
      exact hne (hobjects name hname s hlookup)

end Bitrix

/-- Where forms can be parsed, one is never received: only what is refused or ignored is treated
alike. -/
theorem bitrix_bodies_equivalent_iff (py : Dynamics) (settings : BitrixSettings)
    (app_router : Bool)
    (request_form : List (String × String) → Except Raised (List (String × String)))
    (query_params : List (String × String)) (fields : List (String × Json))
    (hform : Bitrix.Installed request_form ∨ Bitrix.Missing request_form)
    (h : Bitrix.Nested (.obj fields)) :
    Bitrix.Equivalent py settings app_router request_form query_params fields ↔
      Bitrix.Installed request_form ∧ Bitrix.Indifferent py settings query_params fields := by
  cases h with
  | obj hnodup _ =>
    constructor
    · rintro ⟨answer, hjson, hanswer⟩
      rcases hform with hform | hmissing
      · refine ⟨hform, ?_⟩
        by_cases hsecret : settings.bitrix_inbound_secret = ""
        · exact .disabled hsecret
        · rcases (Bitrix.event_form hform hnodup hsecret).mp hanswer with
            ⟨hrefused, rfl⟩ | ⟨haccepted, hobjects, rfl⟩
          · rcases (Bitrix.event_json hsecret).mp hjson with
              ⟨hrefused', -⟩ | ⟨-, params, -, hanswer⟩
            · exact .refused hrefused' hrefused
            · exact absurd hanswer.symm Bitrix.respond_not_refused
          · rcases (Bitrix.event_json hsecret).mp hjson with
              ⟨-, hanswer⟩ | ⟨haccepted', params, hparams, hanswer⟩
            · cases hanswer
            · obtain ⟨hempty, hother⟩ := Bitrix.respond_ignored.mp hanswer.symm
              exact .silent haccepted' haccepted ⟨hobjects, params, hparams, hempty, hother⟩
      · rw [Bitrix.event_missing hmissing] at hanswer
        cases hanswer
    · rintro ⟨hform, hindifferent⟩
      have hdisabled : settings.bitrix_inbound_secret = "" →
          Bitrix.Equivalent py settings app_router request_form query_params fields :=
        fun hsecret => ⟨_, Bitrix.event_disabled hsecret Bitrix.payload_json,
          Bitrix.event_disabled hsecret (Bitrix.payload_installed hform)⟩
      rcases hindifferent with hsecret | ⟨hbody, hquery⟩ |
        ⟨hbody, hquery, hobjects, params, hparams, hignored⟩
      · exact hdisabled hsecret
      · by_cases hsecret : settings.bitrix_inbound_secret = ""
        · exact hdisabled hsecret
        · exact ⟨_, (Bitrix.event_json hsecret).mpr (.inl ⟨hbody, rfl⟩),
            (Bitrix.event_form hform hnodup hsecret).mpr (.inl ⟨hquery, rfl⟩)⟩
      · have hsecret : settings.bitrix_inbound_secret ≠ "" := hbody.2.1 ▸ hbody.1
        have hanswer : Bitrix.respond py settings app_router params =
            .status "ignored_empty" none := Bitrix.respond_ignored.mpr hignored
        exact ⟨_, (Bitrix.event_json hsecret).mpr
            (.inr ⟨hbody, params, hparams, hanswer.symm⟩),
          (Bitrix.event_form hform hnodup hsecret).mpr (.inr ⟨hquery, hobjects, rfl⟩)⟩

def with_secret : BitrixSettings := { bitrix_inbound_secret := "topsecret" }

def wrong_token : List (String × Json) :=
  [("event", .str "ONIMBOTMESSAGEADD"), ("auth", .obj [("access_token", .str "wrong")])]

theorem bitrix_bodies_equivalent_iff_refused :
    Bitrix.Equivalent {} with_secret true .ok [] wrong_token := by
  have hnested : Bitrix.Nested (.obj wrong_token) :=
    .obj (by decide) (List.forall_mem_cons.mpr ⟨.str _, List.forall_mem_singleton.mpr
      (Bitrix.nested_strings (by decide) (by decide))⟩)
  have hbody : Bitrix.Refused with_secret (Bitrix.body_token [] wrong_token) := by decide
  have hquery : Bitrix.Refused with_secret (Bitrix.query_token []) := .inl rfl
  have hform : Bitrix.Installed .ok := fun _ => rfl
  exact (bitrix_bodies_equivalent_iff {} with_secret true .ok [] wrong_token (.inl hform)
    hnested).mpr ⟨hform, .refused hbody hquery⟩

def hello : List (String × Json) :=
  [("event", .str "ONIMBOTMESSAGEADD"),
    ("data", .obj [("PARAMS", .obj [("FROM_USER_ID", .str "7"), ("DIALOG_ID", .str "chat3"),
      ("MESSAGE", .str "Hello"), ("MESSAGE_ID", .str "11")])]),
    ("auth", .obj [("access_token", .str "topsecret")])]

theorem hello_nested : Bitrix.Nested (.obj hello) := by
  have hparams : Bitrix.Nested (.obj [("FROM_USER_ID", .str "7"), ("DIALOG_ID", .str "chat3"),
      ("MESSAGE", .str "Hello"), ("MESSAGE_ID", .str "11")]) :=
    Bitrix.nested_strings (by decide) (by decide)
  have hdata : Bitrix.Nested (.obj [("PARAMS", _)]) :=
    .obj (by decide) (List.forall_mem_singleton.mpr hparams)
  exact .obj (by decide) (List.forall_mem_cons.mpr ⟨.str _, List.forall_mem_cons.mpr ⟨hdata,
    List.forall_mem_singleton.mpr (Bitrix.nested_strings (by decide) (by decide))⟩⟩)

/-- The JSON body is received; the form raises, or is refused where it can be parsed. -/
theorem not_bitrix_bodies_equivalent :
    (¬ ∀ query_params fields, Bitrix.Nested (.obj fields) → Bitrix.Equivalent {} with_secret true
      (fun _ => .error .assertion_error) query_params fields) ∧
    ¬ ∀ query_params fields, Bitrix.Nested (.obj fields) → Bitrix.Equivalent {} with_secret true
      .ok query_params fields := by
  constructor
  · intro h
    obtain ⟨answer, -, hform⟩ := h [] hello hello_nested
    rw [Bitrix.event_missing fun _ => rfl] at hform
    cases hform
  · intro h
    obtain ⟨answer, hjson, hform⟩ := h [] hello hello_nested
    have hsecret : with_secret.bitrix_inbound_secret ≠ "" := by decide
    have hnodup : (hello.map Prod.fst).Nodup := by decide
    rcases (Bitrix.event_form (fun _ => rfl) hnodup hsecret).mp hform with
      ⟨-, rfl⟩ | ⟨haccepted, -⟩
    · rcases (Bitrix.event_json hsecret).mp hjson with ⟨hrefused, -⟩ | ⟨-, params, -, hanswer⟩
      · exact absurd hrefused (by decide)
      · exact Bitrix.respond_not_refused hanswer.symm
    · exact haccepted.1 rfl

end ClawMux
