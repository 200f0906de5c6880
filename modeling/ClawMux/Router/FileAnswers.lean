import ClawMux.Services.RequestWindow
import ClawMux.Utils.SelectBest
import ClawMux.Router.ReplyFiles

namespace ClawMux
set_option autoImplicit true
open Lib Lib.Text

namespace Router

variable {adapter : Adapter} {event : ChannelEvent} {o : Outcomes} {media : Media}
  {media_paths : List String}

/-- Documents after requests without files are the files of the channel. -/
theorem onto_documents (h : ∀ r ∈ rs, r.files = [])
    (hd : ∀ r ∈ docs, r.post_id = none ∧ r.accepted = true) :
    (onto (rs ++ docs) []).flatMap (·.files) = docs.flatMap (·.files) := by
  rw [onto_append, onto_posts hd, List.flatMap_append, onto_no_files h, List.nil_append,
    List.flatMap_map]

/-- Where files can be sent at all, they arrive, with or without a placeholder. -/
theorem files_arrive (hfiles : uploaded_files event media media_paths = .ok files)
    (ho : o.Accept post_id) (hne : response ≠ "") (hsend : files = [] ∨ adapter = .telegram) :
    (handle_message adapter event phrase o media (.ok (response, media_paths))).channel.flatMap
      (·.files) = files := by
  have hid : placeholder_id adapter event phrase o = post_id := placeholder_accepted ho
  have hreply : reply adapter event o media post_id (.ok (response, media_paths)) =
      deliver adapter event o post_id response files := reply_deliver hne hfiles
  have hstream : ∀ r ∈ stream_edits adapter event o post_id, r.files = [] := fun r hr =>
    (stream_edits_text hr).2.1
  have hall : ∃ rs docs, reply adapter event o media post_id (.ok (response, media_paths)) =
      ⟨rs ++ docs, .ok .success⟩ ∧ (∀ r ∈ rs, r.files = []) ∧
      (∀ r ∈ docs, r.post_id = none ∧ r.accepted = true) ∧ docs.flatMap (·.files) = files := by
    rw [hreply]
    by_cases hp : post_id = ""
    · subst hp
      obtain ⟨posted, blanks, hdel, hposts, -, -, hattached⟩ :=
        deliver_post event response ho hsend
      exact ⟨[], posted, hdel, (fun _ hr => by cases hr), hposts, hattached⟩
    · obtain ⟨docs, hdel, hdocs⟩ := deliver_edit event response ho hp hsend
      exact ⟨_, docs, hdel, fun r hr => final_edit_bare hr, hdocs.posts, hdocs.attached⟩
  obtain ⟨rs, docs, hr, hbare, hdocs, hattached⟩ := hall
  have hres : (reply adapter event o media (placeholder_id adapter event phrase o)
      (.ok (response, media_paths))).result = .ok .success := by
    rw [hid, hr]
  rw [handled_requests hres, hid, hr]
  change (onto (_ ++ (rs ++ docs)) []).flatMap (·.files) = files
  rw [← List.append_assoc, onto_documents _ hdocs, hattached]
  intro r hr
  rcases List.mem_append.mp hr with hr | hr
  · exact hstream r hr
  · exact hbare r hr

/-- The files of a reply arrive on Telegram only. -/
theorem files_arrive_iff (ho : o.Accept post_id)
    (hm : Mapped event media workspace_base_path realpath uuid media_paths) (hne : response ≠ "") :
    List.Forall₂ (IsCopy event media) (hosts media uuid media_paths)
        ((handle_message adapter event phrase o media
          (.ok (response, media_paths))).channel.flatMap (·.files)) ↔
      media_paths = [] ∨ adapter = .telegram := by
  obtain ⟨files, hcollect, hcopies⟩ := collect_copies hm.host hm.upload
  have hfiles : uploaded_files event media media_paths = .ok files := by
    rw [uploaded_files, hm.tenant]
    exact hcollect
  constructor
  · intro h
    by_contra hno
    obtain ⟨hmedia, ht⟩ := not_or.mp hno
    have hbare : (handle_message adapter event phrase o media
        (.ok (response, media_paths))).channel.flatMap (·.files) = [] :=
      onto_no_files fun r hr => handled_bare ht hr
    rw [hbare] at h
    exact hmedia (List.map_eq_nil_iff.mp (List.forall₂_nil_right_iff.mp h))
  · intro hsend
    rw [files_arrive hfiles ho hne]
    · exact hcopies
    · rcases hsend with rfl | ht
      · cases hcopies
        exact .inl rfl
      · exact .inr ht

theorem Mapped.part {part : List String}
    (h : Mapped event media workspace_base_path realpath uuid media_paths)
    (hsub : ∀ path ∈ part, path ∈ media_paths) :
    Mapped event media workspace_base_path realpath uuid part :=
  ⟨h.tenant, h.mapping, fun path hp => h.host path (hsub path hp),
    fun path hp => h.upload path (hsub path hp)⟩

end Router

namespace RequestWindow
open OpenClawClient (Act)

/-- The request is answered with the media paths of all finals of the burst, and their files arrive
in the channel. -/
def FilesDelivered (s : RequestWindow) (m : String) (adapter : Adapter) (event : ChannelEvent)
    (phrase : String) (o : Outcomes) (media : Media) (uuid : String) : Prop :=
  ∃ text reply, s.client.future m = some (.result reply) ∧ reply.text = .str text ∧
    (∀ x ∈ s.finals, ∀ path ∈ x.media_paths, path ∈ reply.media_paths) ∧
    List.Forall₂ (IsCopy event media) (Router.hosts media uuid reply.media_paths)
      ((Router.handle_message adapter event phrase o media
        (.ok (text, reply.media_paths))).channel.flatMap (·.files))

/-- The final of the highest seq, among those that can be selected for their text, has the media
paths of all of them. -/
def Gathering (cfg : ClientConfig) (s : RequestWindow) : Prop :=
  ∃ best, Selected cfg.py cfg.claw_min_valid_text_len s.finals best ∧
    ∀ x ∈ s.finals, ∀ path ∈ x.media_paths, path ∈ best.media_paths

/-- No step but the end of the window answers the request or ends it. -/
def Unanswered (m : String) (s : RequestWindow) (a : Act) : Prop :=
  closes m a = true ∨ s.client.Undecided m a

variable {cfg : ClientConfig} {s s' : RequestWindow}

/-- What the selection from the burst means for the request. -/
inductive Resolution (cfg : ClientConfig) (m : String) (s : RequestWindow) : Prop
  | answered : Selected cfg.py cfg.claw_min_valid_text_len s.finals best →
    s.client.future m = some (.result reply) → reply.text = .str best.text →
    reply.media_paths = best.media_paths → best.text ≠ "" → Resolution cfg m s
  | silent : (∀ best, ¬ Selected cfg.py cfg.claw_min_valid_text_len s.finals best) →
    s.client.future m = some .pending → Resolution cfg m s

/-- The burst is what is buffered. -/
structure Burst (cfg : ClientConfig) (m : String) (s : RequestWindow) : Prop where
  collected : s.closed = false → s.client.Waits cfg m ∧ s.client.aggregator.buffers m = s.finals
  resolution : s.closed = true → s.Resolution cfg m

theorem step_burst (h : s.Burst cfg m) (hu : s.Unanswered m a)
    (hs : s.step cfg m Finals.accepts a = some s') : s'.Burst cfg m := by
  obtain ⟨hopen, -, c, hstep, rfl⟩ := step_cases hs
  obtain ⟨hwaits, hbuf⟩ := h.collected hopen
  cases hc : closes m a with
  | false =>
    have hun : s.client.Undecided m a := hu.resolve_left (Bool.eq_false_iff.mp hc)
    refine ⟨fun _ => ⟨OpenClawClient.waits_step hwaits hun hstep, ?_⟩, fun hcl => by cases hcl⟩
    rw [← hbuf]
    exact OpenClawClient.buffers_step hwaits hun hstep
  | true =>
    refine ⟨(fun hcl => by cases hcl), fun _ => ?_⟩
    cases closes_eq hc
    have hf : ∀ x ∈ s.finals, is_final x = true := by
      rw [← hbuf]
      exact fun x hx => (hwaits.steady.buffered.keyed m x hx).1
    have hiff : ∀ best, select_best cfg.py cfg.claw_min_valid_text_len
        (s.client.aggregator.buffers m) = .ok (some best) ↔
          Selected cfg.py cfg.claw_min_valid_text_len s.finals best := by
      rw [hbuf]
      exact fun best => select_best_iff cfg.py cfg.claw_min_valid_text_len hf
    have hfinals : s.finals ++ (Finals.accepts s.client (.debounce m)).toList = s.finals :=
      List.append_nil _
    rw [hfinals]
    cases OpenClawClient.steps_of_step hstep with
    | debounce ht hd =>
      by_cases hsel : ∃ best, Selected cfg.py cfg.claw_min_valid_text_len s.finals best
      · obtain ⟨best, hbest⟩ := hsel
        have hchosen := (hiff best).mpr hbest
        obtain ⟨-, reply, hfut, htext, hmedia⟩ := OpenClawClient.finalize_answers hwaits hchosen
        exact .answered hbest hfut htext hmedia (select_best_mem hchosen).2
      · have hnone : ∀ best, ¬ Selected cfg.py cfg.claw_min_valid_text_len s.finals best :=
          fun best hbest => hsel ⟨best, hbest⟩
        exact .silent hnone (OpenClawClient.finalize_silent hwaits fun best hbest =>
          hnone best ((hiff best).mp hbest))

theorem burst_reach (h : Reach (step cfg m Finals.accepts) (Unanswered m) (Initial cfg m) s) :
    s.Burst cfg m := by
  refine h.invariant ?_ fun _ _ _ hb hu hs => step_burst hb hu hs
  intro s hi
  refine ⟨fun _ => ⟨hi.waits, hi.buffers.trans hi.finals.symm⟩, fun hcl => ?_⟩
  rw [hi.closed] at hcl
  cases hcl

theorem files_delivered_iff
    (h : Reach (step cfg m Finals.accepts) (Unanswered m) (Initial cfg m) s)
    (hc : s.closed = true) (hfiles : ∃ x ∈ s.finals, x.media_paths ≠ [])
    (ho : o.Accept post_id)
    (hm : Router.Mapped event media workspace_base_path realpath uuid
      (s.finals.flatMap (·.media_paths))) :
    s.FilesDelivered m adapter event phrase o media uuid ↔
      s.Gathering cfg ∧ adapter = .telegram := by
  have hall : ∀ x ∈ s.finals, ∀ path ∈ x.media_paths,
      path ∈ s.finals.flatMap (·.media_paths) := fun x hx path hp =>
    List.mem_flatMap.mpr ⟨x, hx, hp⟩
  obtain ⟨x, hx, hne⟩ := hfiles
  obtain ⟨path, hpath⟩ := List.exists_mem_of_ne_nil x.media_paths hne
  cases (burst_reach h).resolution hc with
  | silent hnone hfut =>
    constructor
    · rintro ⟨text, reply, hanswer, -⟩
      cases hfut.symm.trans hanswer
    · rintro ⟨⟨best, hbest, -⟩, -⟩
      exact absurd hbest (hnone best)
  | @answered best reply hbest hfut htext hmedia hshown =>
    have hmapped : Router.Mapped event media workspace_base_path realpath uuid reply.media_paths :=
      hm.part (by rw [hmedia]; exact hall best (selected_mem hbest))
    constructor
    · rintro ⟨text, reply', hanswer, htext', hcarried, harrive⟩
      cases hfut.symm.trans hanswer
      cases htext.symm.trans htext'
      refine ⟨⟨best, hbest, hmedia ▸ hcarried⟩, ?_⟩
      have hreply : reply.media_paths ≠ [] := List.ne_nil_of_mem (hcarried x hx path hpath)
      exact ((Router.files_arrive_iff ho hmapped hshown).mp harrive).resolve_left hreply
    · rintro ⟨⟨other, hother, hcarried⟩, ht⟩
      cases hbest.unique hother
      rw [← hmedia] at hcarried
      exact ⟨best.text, reply, hfut, htext, hcarried,
        (Router.files_arrive_iff ho hmapped hshown).mpr (.inr ht)⟩

def media_frame (seq : Rat) (text mediaUrl : String) : Json :=
  .obj [("event", .str "chat"), ("payload", .obj [("state", .str "final"), ("seq", .num seq),
    ("text", .str text), ("mediaUrl", .str mediaUrl)])]

theorem mapped_report {paths : List String} (hp : paths = [Router.report]) :
    Router.Mapped ⟨"telegram", "c", ""⟩ Router.tenant "/configs" id "u" paths := by
  subst hp
  refine ⟨rfl, rfl, ?_, fun _ _ => ⟨"f", by decide, rfl⟩⟩
  intro path hpath
  rw [List.mem_singleton.mp hpath]
  decide

/-- The text of the answer arrives in two finals, the second with a file. -/
def burst_window : List Act :=
  [.frame (OpenClawClient.final_frame "r" 1 "your rep"), .tick 100,
    .frame (media_frame 2 "your report" Router.report), .tick 150, .debounce "a"]

theorem files_delivered_iff_text : ∃ s,
    exec (step {} "a" Finals.accepts) { client := asked } burst_window = some s ∧
      s.finals.map (·.text) = ["your rep", "your report"] ∧
      s.FilesDelivered "a" .telegram ⟨"telegram", "c", ""⟩ "⏳ One moment..." Router.all_taken
        Router.tenant "u" := by
  have h : ((exec (step {} "a" Finals.accepts) { client := asked } burst_window).any fun s =>
      s.closed ∧ s.finals.map (·.text) = ["your rep", "your report"] ∧
        s.finals.map (·.media_paths) = [[], [Router.report]] ∧
        s.finals.all is_final ∧
        (select_best {} 5 s.finals).toOption.join.map (·.media_paths) = some [Router.report]) =
      true := by decide
  obtain ⟨s, hs, hall⟩ := (Option.any_eq_true _ _).mp h
  obtain ⟨hclosed, htexts, hmedia, hf, hbest⟩ := of_decide_eq_true hall
  have hm : Meets (step {} "a" Finals.accepts) (Unanswered "a") { client := asked } burst_window :=
    ⟨.inr fun h => h, .inr trivial, .inr fun h => h, .inr trivial, .inl rfl, trivial⟩
  have hpaths : s.finals.flatMap (·.media_paths) = [Router.report] := by
    rw [List.flatMap_def, hmedia]
    rfl
  have hmem : ∀ x ∈ s.finals, ∀ path ∈ x.media_paths, path = Router.report := by
    intro x hx path hpath
    exact List.mem_singleton.mp (hpaths ▸ List.mem_flatMap.mpr ⟨x, hx, hpath⟩)
  have hgathering : s.Gathering {} := by
    obtain ⟨best, hjoin, hreport⟩ := Option.map_eq_some_iff.mp hbest
    cases hselected : select_best {} 5 s.finals with
    | error e =>
      rw [hselected] at hjoin
      cases hjoin
    | ok found =>
      rw [hselected] at hjoin
      have he : found = some best := hjoin
      rw [he] at hselected
      refine ⟨best, (select_best_iff {} 5 (List.all_eq_true.mp hf)).mp hselected, ?_⟩
      intro x hx path hpath
      rw [hreport, hmem x hx path hpath]
      exact List.mem_singleton_self _
  have hfiles : ∃ x ∈ s.finals, x.media_paths ≠ [] := by
    have hreport : Router.report ∈ s.finals.flatMap (·.media_paths) :=
      hpaths ▸ List.mem_singleton_self _
    obtain ⟨x, hx, hpath⟩ := List.mem_flatMap.mp hreport
    exact ⟨x, hx, List.ne_nil_of_mem hpath⟩
  exact ⟨s, hs, htexts, (files_delivered_iff ((Reach.start initial_asked).exec hm hs) hclosed hfiles
    Router.all_taken_accept (mapped_report hpaths)).mpr ⟨hgathering, rfl⟩⟩

/-- The window of a request that is answered by one final with a file. -/
def file_window : List Act :=
  [.frame (media_frame 1 "" Router.report), .tick 150, .debounce "a"]

/-- Nothing is left of the text of a final that is a file only. -/
theorem not_files_delivered : ∃ s, Reach (step {} "a" Finals.accepts) (Unanswered "a")
    (Initial {} "a") s ∧ s.closed = true ∧ s.finals.map (·.media_paths) = [[Router.report]] ∧
      ¬ s.FilesDelivered "a" .telegram ⟨"telegram", "c", ""⟩ "⏳ One moment..." Router.all_taken
        Router.tenant "u" := by
  have h : ((exec (step {} "a" Finals.accepts) { client := asked } file_window).any fun s =>
        s.closed ∧ s.finals.map (·.media_paths) = [[Router.report]] ∧
          s.client.is_pending "a") = true := by decide
  obtain ⟨s, hs, hall⟩ := (Option.any_eq_true _ _).mp h
  obtain ⟨hclosed, hmedia, hpending⟩ := of_decide_eq_true hall
  have hm : Meets (step {} "a" Finals.accepts) (Unanswered "a") { client := asked }
      file_window := ⟨.inr fun h => h, .inr trivial, .inl rfl, trivial⟩
  refine ⟨s, (Reach.start initial_asked).exec hm hs, hclosed, hmedia, ?_⟩
  rintro ⟨text, reply, hanswer, -⟩
  rw [OpenClawClient.is_pending_iff, hanswer] at hpending
  cases hpending

end RequestWindow

end ClawMux
