import ClawMux.Router.HandleEvent

namespace ClawMux
set_option autoImplicit true
open Lib.Text

/-- The `provider` of the events of an adapter. -/
def Adapter.provider : Adapter → String
  | .mattermost => "mattermost"
  | .telegram => "telegram"
  | .slack => "slack"
  | .bitrix => "bitrix"
  | .teams => "teams"
  | .vk_teams => "vk_teams"

/-- The platform takes the request and answers with the id of the post. -/
def Outcome.Accepts (o : Outcome) (id : String) : Prop :=
  ∃ status, o = .answered status true (some id) ∧ is_success status = true

/-- Every request is accepted; the placeholder has the id `post_id`. -/
structure Outcomes.Accept (o : Outcomes) (post_id : String) : Prop where
  placeholder : o.placeholder.Accepts post_id
  stream : ∀ x ∈ o.stream, ∃ id, x.2.Accepts id
  edit : ∃ id, o.edit.Accepts id
  post : ∃ id, o.post.Accepts id
  files : ∀ i, ∃ id, (o.files i).Accepts id
  error : ∃ id, o.error.Accepts id

/-! The channel -/

/-- A message of the channel; its id where it is edited later. -/
structure Post where
  id : Option String
  text : String
  files : List String

def Post.edit (id text : String) (p : Post) : Post :=
  if p.id = some id then { p with text := text } else p

/-- What a request does to the channel. The placeholder counts once it is edited. -/
def Request.onto (r : Request) (posts : List Post) : List Post :=
  if r.accepted = false then posts
  else
    match r.post_id with
    | none => posts ++ [⟨none, r.text, r.files⟩]
    | some id =>
      if posts.any (·.id = some id) then posts.map (Post.edit id r.text)
      else posts ++ [⟨some id, r.text, []⟩]

def Handled.channel (h : Handled) : List Post :=
  h.requests.foldl (fun posts r => r.onto posts) []

/-- The attachment is the file itself, or what Mattermost made of it. -/
def IsCopy (event : ChannelEvent) (m : Media) (host_path file : String) : Prop :=
  file = host_path ∨ m.upload_to_mattermost host_path event.channel_id = .ok (some file)

theorem Outcome.Accepts.accepted (h : Outcome.Accepts o post_id) : o.accepted = true := by
  obtain ⟨status, rfl, hs⟩ := h
  simp [Outcome.accepted, hs]

/-- An accepted post has its id. -/
theorem Adapter.send_reply_id (adapter : Adapter) (h : Outcome.Accepts o post_id) :
    (adapter.send_reply channel_id message root_id o).result = .ok post_id := by
  obtain ⟨status, rfl, hs⟩ := h
  have hraising : ∀ r,
      (post_raising r (.answered status true (some post_id))).result = .ok post_id := by
    simp [post_raising, hs]
  have hswallowing : ∀ c r, (post_swallowing c r (.answered status true (some post_id))).result =
      .ok post_id := by
    simp [post_swallowing, hs]
  cases adapter with
  | mattermost => exact hraising _
  | telegram => exact hraising _
  | bitrix => exact hraising _
  | slack => exact hswallowing _ _
  | teams => exact hswallowing _ _
  | vk_teams => exact hswallowing _ _

namespace Router

variable {adapter : Adapter} {event : ChannelEvent} {o : Outcomes} {m : Media}
  {media_paths : List String}

theorem placeholder_accepted (ho : o.Accept post_id) :
    placeholder_id adapter event phrase o = post_id := by
  rw [placeholder_id, adapter.send_reply_id ho.placeholder]

/-! What the requests do to the channel -/

def onto (requests : List Request) (posts : List Post) : List Post :=
  requests.foldl (fun posts r => r.onto posts) posts

theorem onto_append (rs rs' : List Request) (posts : List Post) :
    onto (rs ++ rs') posts = onto rs' (onto rs posts) :=
  List.foldl_append ..

/-- A property of all messages that the requests keep. -/
theorem onto_forall
    {P : Post → Prop} (hpost : ∀ r ∈ rs, r.post_id = none → P ⟨none, r.text, r.files⟩)
    (hnew : ∀ r ∈ rs, ∀ id, r.post_id = some id → P ⟨some id, r.text, []⟩)
    (hedit : ∀ r ∈ rs, ∀ id p, r.post_id = some id → P p → P (p.edit id r.text))
    (h : ∀ p ∈ posts, P p) : ∀ p ∈ onto rs posts, P p := by
  induction rs generalizing posts with
  | nil => exact h
  | cons r rs ih =>
    have hr := List.mem_cons_self (a := r) (l := rs)
    apply ih (fun q hq => hpost q (List.mem_cons_of_mem _ hq))
      (fun q hq => hnew q (List.mem_cons_of_mem _ hq))
      (fun q hq => hedit q (List.mem_cons_of_mem _ hq))
    intro p hp
    change p ∈ r.onto posts at hp
    rw [Request.onto] at hp
    split at hp
    · exact h p hp
    · cases hid : r.post_id with
      | none =>
        rw [hid] at hp
        rcases List.mem_append.mp hp with hp | hp
        · exact h p hp
        · rw [List.mem_singleton.mp hp]
          exact hpost r hr hid
      | some id =>
        rw [hid] at hp
        simp only at hp
        split at hp
        · obtain ⟨q, hq, rfl⟩ := List.mem_map.mp hp
          exact hedit r hr id q hid (h q hq)
        · rcases List.mem_append.mp hp with hp | hp
          · exact h p hp
          · rw [List.mem_singleton.mp hp]
            exact hnew r hr id hid

/-- Without files in the requests there are none in the channel. -/
theorem onto_no_files (h : ∀ r ∈ rs, r.files = []) : (onto rs []).flatMap (·.files) = [] := by
  rw [List.flatMap_eq_nil_iff]
  apply onto_forall (P := fun p => p.files = [])
  · exact fun r hr _ => h r hr
  · exact fun _ _ _ _ => rfl
  · intro r _ id p _ hp
    rw [Post.edit]
    split
    · exact hp
    · exact hp
  · intro p hp
    cases hp

/-- Posts add themselves. -/
theorem onto_posts (h : ∀ r ∈ rs, r.post_id = none ∧ r.accepted = true) :
    onto rs posts = posts ++ rs.map fun r => ⟨none, r.text, r.files⟩ := by
  induction rs generalizing posts with
  | nil => simp [onto]
  | cons r rs ih =>
    obtain ⟨hid, ha⟩ := h r List.mem_cons_self
    have hr : r.onto posts = posts ++ [⟨none, r.text, r.files⟩] := by
      simp [Request.onto, ha, hid]
    have hrest : onto rs (r.onto posts) = r.onto posts ++ rs.map fun r => ⟨none, r.text, r.files⟩ :=
      ih fun q hq => h q (List.mem_cons_of_mem _ hq)
    rw [onto, List.foldl_cons]
    rw [onto] at hrest
    rw [hrest, hr, List.append_assoc, List.map_cons, List.singleton_append]

/-! The requests of an accepted delivery -/

/-- One edit, which shows the message and nothing else. -/
theorem update_reply_text (hp : post_id ≠ "") (he : adapter.Edits channel_id) (message : String)
    (out : Outcome) : ∃ r, (adapter.update_reply post_id message channel_id out).requests = [r] ∧
      r.text = message ∧ r.files = [] ∧ r.post_id = some post_id ∧ r.accepted = out.accepted := by
  have htext : message ++ "" = message := String.append_empty
  cases adapter <;>
    exact ⟨_, Adapter.edit_swallowing_requests hp he, htext, rfl, rfl, rfl⟩

theorem send_reply_text (adapter : Adapter) (channel_id message root_id : String) (out : Outcome) :
    ∃ r, (adapter.send_reply channel_id message root_id out).requests = [r] ∧
      r.text = message ∧ r.files = [] ∧ r.post_id = none ∧ r.accepted = out.accepted := by
  have htext : message ++ "" = message := String.append_empty
  cases adapter <;> exact ⟨_, rfl, htext, rfl, rfl, rfl⟩

theorem stream_edits_text (h : r ∈ stream_edits adapter event o post_id) :
    r.post_id = some post_id ∧ r.files = [] ∧ r.text ∈ o.stream.map (·.1) := by
  rw [stream_edits] at h
  split at h
  · cases h
  · rename_i hp
    obtain ⟨⟨text, out⟩, hm, hr⟩ := List.mem_flatMap.mp h
    by_cases he : adapter.Edits event.channel_id
    · obtain ⟨q, hq, htext, hfiles, hid, -⟩ := update_reply_text hp he text out
      simp only [hq] at hr
      rw [List.mem_singleton.mp hr]
      exact ⟨hid, hfiles, List.mem_map.mpr ⟨_, hm, htext.symm⟩⟩
    · simp only [adapter.update_reply_silent he] at hr
      cases hr

/-- Only the first document has the caption. -/
def captions (caption : String) : List String → List String
  | [] => []
  | _ :: files => caption :: files.map fun _ => ""

theorem captions_blank (files : List String) : captions "" files = files.map fun _ => "" := by
  cases files <;> rfl

/-- Documents that are posted one by one. -/
structure Documents (requests : List Request) (caption : String) (files : List String) : Prop where
  posts : ∀ r ∈ requests, r.post_id = none ∧ r.accepted = true
  texts : requests.map Request.text = captions caption files
  attached : requests.flatMap (·.files) = files

theorem send_documents_accepted (channel_id root_id last caption : String) (files : List String)
    {out : Nat → Outcome} (hout : ∀ i, ∃ id, (out i).Accepts id) :
    (∃ id, (Telegram.send_documents channel_id root_id last caption files out).result = .ok id) ∧
      Documents (Telegram.send_documents channel_id root_id last caption files out).requests caption
        files := by
  induction files generalizing last caption out with
  | nil =>
    refine ⟨⟨last, rfl⟩, ?_, rfl, rfl⟩
    intro r hr
    cases hr
  | cons file files ih =>
    obtain ⟨post_id, status, ho, hs⟩ := hout 0
    have hpost : ∀ r, post_raising r (out 0) = ⟨[{ r with accepted := true }], .ok post_id⟩ := by
      simp [post_raising, ho, hs, Outcome.accepted]
    obtain ⟨hok, hrest⟩ := ih post_id "" fun i => hout (i + 1)
    rw [Telegram.send_documents, hpost, Called.bind]
    refine ⟨hok, ?_, ?_, ?_⟩
    · intro r hr
      rcases List.mem_append.mp hr with hr | hr
      · rw [List.mem_singleton.mp hr]
        exact ⟨rfl, rfl⟩
      · exact hrest.posts r hr
    · rw [List.map_append, hrest.texts, captions_blank]
      simp [Request.text, captions]
    · rw [List.flatMap_append, hrest.attached]
      rfl

/-! The files -/

/-- The media paths name existing files within the size limit. -/
structure Mapped (event : ChannelEvent) (m : Media) (workspace_base_path : String)
    (realpath : String → String) (uuid : String) (media_paths : List String) : Prop where
  tenant : m.uuid = some uuid
  mapping : m.container_path_to_host = container_path_to_host workspace_base_path realpath
  host : ∀ path ∈ media_paths, m.container_path_to_host path uuid ≠ ""
  upload : ∀ path ∈ media_paths, ∃ fid, fid ≠ "" ∧
    m.upload_to_mattermost (m.container_path_to_host path uuid) event.channel_id = .ok (some fid)

theorem collect_copies
    (hhost : ∀ path ∈ media_paths, m.container_path_to_host path uuid ≠ "")
    (hupload : ∀ path ∈ media_paths, ∃ fid, fid ≠ "" ∧ m.upload_to_mattermost
      (m.container_path_to_host path uuid) event.channel_id = .ok (some fid)) :
    ∃ files, collect_files event m uuid media_paths = .ok files ∧
      List.Forall₂ (IsCopy event m) (media_paths.map (m.container_path_to_host · uuid)) files := by
  induction media_paths with
  | nil => exact ⟨[], rfl, .nil⟩
  | cons path media_paths ih =>
    obtain ⟨files, hfiles, hcopies⟩ := ih (fun q hq => hhost q (List.mem_cons_of_mem _ hq))
      (fun q hq => hupload q (List.mem_cons_of_mem _ hq))
    have hne := hhost path List.mem_cons_self
    obtain ⟨fid, hfid, hup⟩ := hupload path List.mem_cons_self
    rw [collect_files]
    simp only [if_neg hne, hfiles]
    split
    · rw [hup]
      refine ⟨fid :: files, ?_, .cons (.inr hup) hcopies⟩
      simp [bind, Except.bind, pure, Except.pure, Option.filter, hfid]
    · refine ⟨m.container_path_to_host path uuid :: files, ?_, .cons (.inl rfl) hcopies⟩
      simp [bind, Except.bind, pure, Except.pure, Option.filter, hne]

/-! Complete replies -/

/-- The paths of the files on the host. -/
def hosts (m : Media) (uuid : String) (media_paths : List String) : List String :=
  media_paths.map (m.container_path_to_host · uuid)

/-- The reply that a handler makes when nothing raises. -/
theorem handled_requests {answer : Except Unit (String × List String)}
    (h : (reply adapter event o m (placeholder_id adapter event phrase o) answer).result =
      .ok status) :
    handle_message adapter event phrase o m answer =
      ⟨placeholder_id adapter event phrase o,
        stream_edits adapter event o (placeholder_id adapter event phrase o) ++
          (reply adapter event o m (placeholder_id adapter event phrase o) answer).requests,
        status⟩ := by
  rw [handle_message]
  simp only [h]

theorem reply_deliver
    (hne : response ≠ "") (hfiles : uploaded_files event m media_paths = .ok files) :
    reply adapter event o m post_id (.ok (response, media_paths)) =
      deliver adapter event o post_id response files := by
  simp only [reply, if_neg hne, hfiles]

/-- With a placeholder the documents follow its edit without a text. -/
theorem deliver_edit (event : ChannelEvent) (response : String) (ho : o.Accept accepted_id)
    (hp : post_id ≠ "")
    (hsend : files = [] ∨ adapter = .telegram) :
    ∃ docs, deliver adapter event o post_id response files =
      ⟨(final_edit adapter event o post_id response).requests ++ docs, .ok .success⟩ ∧
        Documents docs "" files := by
  by_cases hf : files = []
  · subst hf
    refine ⟨[], ?_, ⟨(fun _ h => by cases h), rfl, rfl⟩⟩
    rw [deliver, if_neg (not_not_intro rfl), if_pos hp, Called.bind, final_edit,
      adapter.update_reply_ok]
    rfl
  · have ht := hsend.resolve_left hf
    subst ht
    obtain ⟨⟨last, hok⟩, hdocs⟩ :=
      send_documents_accepted event.channel_id event.root_id "" "" files ho.files
    refine ⟨_, ?_, hdocs⟩
    rw [deliver, if_pos hf, if_pos hp, Called.bind, final_edit, Adapter.update_reply_ok, send_files]
    simp only [Adapter.send_post_with_files, Adapter.files_parameter, ne_eq, not_true_eq_false,
      if_false, Telegram.send_post_with_files, Called.bind, hok, Called.pure, List.append_nil]

/-- Without a placeholder the response is posted, alone or with the first document. -/
theorem deliver_post (event : ChannelEvent) (response : String) (ho : o.Accept accepted_id)
    (hsend : files = [] ∨ adapter = .telegram) :
    ∃ posted blanks, deliver adapter event o "" response files = ⟨posted, .ok .success⟩ ∧
      (∀ q ∈ posted, q.post_id = none ∧ q.accepted = true) ∧
      posted.map Request.text = response :: blanks ∧ (∀ text ∈ blanks, text = "") ∧
      posted.flatMap (·.files) = files := by
  by_cases hf : files = []
  · subst hf
    obtain ⟨id', hpost⟩ := ho.post
    obtain ⟨r, hr, htext, hrf, hrid, hra⟩ := send_reply_text adapter event.channel_id response
      event.root_id o.post
    have hok :
        (adapter.send_reply event.channel_id response event.root_id o.post).result = .ok id' :=
      adapter.send_reply_id hpost
    refine ⟨[r], [], ?_, ?_, by simp [htext], (fun _ h => by cases h), by simp [hrf]⟩
    · rw [deliver, if_neg (not_not_intro rfl), if_neg (not_not_intro rfl), Called.bind, hok]
      simp only [hr, Called.pure, List.append_nil]
    · intro q hq
      rw [List.mem_singleton.mp hq]
      exact ⟨hrid, hra.trans hpost.accepted⟩
  · have ht := hsend.resolve_left hf
    subst ht
    obtain ⟨⟨last, hok⟩, hdocs⟩ :=
      send_documents_accepted event.channel_id event.root_id "" response files ho.files
    have hdel : deliver .telegram event o "" response files =
        ⟨(Telegram.send_documents event.channel_id event.root_id "" response files
          o.files).requests, .ok .success⟩ := by
      rw [deliver, if_pos hf, if_neg (not_not_intro rfl), send_files]
      simp only [Adapter.send_post_with_files, Adapter.files_parameter, ne_eq, not_true_eq_false,
        if_false, Telegram.send_post_with_files, Called.bind, hok, Called.pure, List.append_nil]
    cases files with
    | nil => exact absurd rfl hf
    | cons file files =>
      refine ⟨_, _, hdel, hdocs.posts, hdocs.texts, ?_, hdocs.attached⟩
      intro text hm
      obtain ⟨_, -, h⟩ := List.mem_map.mp hm
      exact h.symm

/-- Only Telegram sends files. -/
theorem send_files_bare (ht : adapter ≠ .telegram)
    (hr : r ∈ (send_files adapter event o message files).requests) : r.files = [] := by
  rw [send_files] at hr
  by_cases hm : adapter = .mattermost
  · subst hm
    cases hr
  · obtain ⟨notes, h⟩ := Adapter.send_post_with_files_noted hm ht event.channel_id message
      event.root_id files o.files
    obtain ⟨q, hq, -, hqf, -⟩ := send_reply_text adapter event.channel_id message event.root_id
      (o.files 0)
    rw [h, Called.noted, hq] at hr
    rw [List.mem_singleton.mp hr]
    exact hqf

theorem final_edit_bare (hr : r ∈ (final_edit adapter event o post_id response).requests) :
    r.files = [] := by
  rw [final_edit] at hr
  by_cases hp : post_id = ""
  · subst hp
    cases adapter <;> cases hr
  · by_cases he : adapter.Edits (edit_channel event)
    · obtain ⟨q, hq, -, hqf, -⟩ := update_reply_text hp he response o.edit
      rw [hq] at hr
      rw [List.mem_singleton.mp hr]
      exact hqf
    · rw [adapter.update_reply_silent he] at hr
      cases hr

theorem send_reply_bare
    (hr : r ∈ (adapter.send_reply channel_id message root_id out).requests) : r.files = [] := by
  obtain ⟨q, hq, -, hqf, -⟩ := send_reply_text adapter channel_id message root_id out
  rw [hq] at hr
  rw [List.mem_singleton.mp hr]
  exact hqf

theorem deliver_bare (ht : adapter ≠ .telegram)
    (hr : r ∈ (deliver adapter event o post_id response files).requests) : r.files = [] := by
  have hpure : ∀ {α : Type} {x : α}, r ∉ (Called.pure x).requests := by
    intro α x h
    cases h
  rw [deliver] at hr
  split at hr
  · split at hr
    · rcases mem_bind_requests.mp hr with hr | ⟨_, -, hr⟩
      · exact final_edit_bare hr
      · rcases mem_bind_requests.mp hr with hr | ⟨_, -, hr⟩
        · exact send_files_bare ht hr
        · exact absurd hr hpure
    · rcases mem_bind_requests.mp hr with hr | ⟨_, -, hr⟩
      · exact send_files_bare ht hr
      · exact absurd hr hpure
  · split at hr
    · rcases mem_bind_requests.mp hr with hr | ⟨_, -, hr⟩
      · exact final_edit_bare hr
      · exact absurd hr hpure
    · rcases mem_bind_requests.mp hr with hr | ⟨_, -, hr⟩
      · exact send_reply_bare hr
      · exact absurd hr hpure

theorem handled_bare (ht : adapter ≠ .telegram)
    (hr : r ∈ (handle_message adapter event phrase o m (.ok (response, media_paths))).requests) :
    r.files = [] := by
  have hreply : ∀ {id}, r ∈ (reply adapter event o m id (.ok (response, media_paths))).requests →
      r.files = [] := by
    intro id h
    simp only [reply] at h
    split at h
    · cases h
    · split at h
      · cases h
      · exact deliver_bare ht h
  simp only [handle_message] at hr
  split at hr
  · rcases List.mem_append.mp hr with hr | hr
    · exact (stream_edits_text hr).2.1
    · exact hreply hr
  · rcases List.mem_append.mp hr with hr | hr
    · rcases List.mem_append.mp hr with hr | hr
      · exact (stream_edits_text hr).2.1
      · exact hreply hr
    · exact send_reply_bare hr

def taken : Outcome := .answered 200 true (some "1")

/-- A platform that accepts every request. -/
def all_taken : Outcomes where
  placeholder := taken
  edit := taken
  post := taken
  files := fun _ => taken
  error := taken

theorem all_taken_accept : all_taken.Accept "1" where
  placeholder := ⟨200, rfl, rfl⟩
  stream := fun _ h => by cases h
  edit := ⟨"1", 200, rfl, rfl⟩
  post := ⟨"1", 200, rfl, rfl⟩
  files := fun _ => ⟨"1", 200, rfl, rfl⟩
  error := ⟨"1", 200, rfl, rfl⟩

/-- The tenant `u`, whose files Mattermost takes. -/
def tenant : Media where
  uuid := some "u"
  container_path_to_host := container_path_to_host "/configs" id
  file_manager := true
  upload_to_mattermost := fun _ _ => .ok (some "f")

def report : String := "/home/node/.openclaw/workspace/report.pdf"

end Router

end ClawMux
