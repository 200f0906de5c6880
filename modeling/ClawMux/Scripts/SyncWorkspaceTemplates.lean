import ClawMux.Services.WorkspaceSeed

namespace ClawMux
set_option autoImplicit true
open Lib Lib.Text Lib.Replace

/-- The directory of one instance: its workspace, and the backups by their time stamps. -/
structure InstanceDir where
  workspace : FileTree Content
  backups : String → Option (FileTree Content)

/-- How `shutil.copytree` ends, and what a failure leaves behind. -/
inductive Copytree
  | copied
  | failed (left : Option (FileTree Content))

namespace SyncWorkspaceTemplates

/-- `content.replace("{{UUID}}", instance_uuid)` -/
def sync_render (instance_uuid content : String) : String :=
  replace content "{{UUID}}" instance_uuid

def ensure_workspace (host : InstanceDir) : InstanceDir :=
  if (host.workspace []).isNone then
    { host with workspace := (host.workspace.makedirs []).1 } else host

/-- The backup step; a failure is only reported. -/
def back_up (timestamp : String) (copytree : Copytree) (host : InstanceDir) : InstanceDir :=
  if host.workspace.is_dir [] = false then host
  else
    match host.backups timestamp, copytree with
    | some _, _ => host
    | none, .copied => { host with
        backups := Function.update host.backups timestamp (some host.workspace) }
    | none, .failed left => { host with
        backups := Function.update host.backups timestamp left }

/-- The instance directory afterwards, and whether no exception ended the call. -/
def sync_instance_workspace (instance_uuid : String) (template : Template) (timestamp : String)
    (copytree : Copytree) (dry_run backup : Bool) (host : InstanceDir) : InstanceDir × Bool :=
  if dry_run then (host, true)
  else
    let host := ensure_workspace host
    let host := if backup then back_up timestamp copytree host else host
    let result := copy_template (sync_render instance_uuid) template.walk host.workspace
    ({ host with workspace := result.1 }, result.2)

/-! What the two renderings make of a text -/

theorem user_id_placeholder : Placeholder '{' "{{USER_ID}}".toList :=
  ⟨'U', "SER_ID\x7d\x7d".toList, by decide, by decide, by decide⟩

theorem uuid_placeholder : Placeholder '{' "{{UUID}}".toList :=
  ⟨'U', "UID\x7d\x7d".toList, by decide, by decide, by decide⟩

theorem provider_placeholder : Placeholder '{' "{{PROVIDER}}".toList :=
  ⟨'P', "ROVIDER\x7d\x7d".toList, by decide, by decide, by decide⟩

theorem plain_of_contains {s : String} (h : contains s "\x7b\x7b" = false) :
    Replace.Plain '{' s.toList := by
  intro hin
  have ht : contains s "\x7b\x7b" = true := contains_iff.mpr hin
  rw [h] at ht
  cases ht

theorem contains_false_iff {s sub : String} :
    contains s sub = false ↔ ¬ sub.toList <:+: s.toList := by
  rw [← contains_iff, Bool.not_eq_true]

/-- Both renderings agree on a text exactly when only `{{UUID}}` is there to be substituted. -/
theorem render_eq_iff (hi : contains instance_uuid "\x7b\x7b" = false)
    (hp : contains provider "\x7b\x7b" = false) (hu : contains user_id "\x7b\x7b" = false)
    (content : String) :
    seed_render instance_uuid provider user_id content = sync_render instance_uuid content ↔
      contains content "{{USER_ID}}" = false ∧
        contains (sync_render instance_uuid content) "{{PROVIDER}}" = false := by
  have hchain := replaceAll_chain_iff user_id_placeholder uuid_placeholder provider_placeholder
    (plain_of_contains hu) (plain_of_contains hi) (plain_of_contains hp) (by decide) (by decide)
    content.toList
  rw [contains_false_iff, contains_false_iff]
  simp only [seed_render, sync_render, replace, String.toList_ofList, String.ofList_inj]
  exact hchain

/-! The run -/

theorem back_up_workspace (host : InstanceDir) :
    (back_up timestamp copytree host).workspace = host.workspace := by
  unfold back_up
  cases host.workspace.is_dir [] with
  | false => rfl
  | true =>
    cases host.backups timestamp with
    | some b => rfl
    | none => cases copytree <;> rfl

/-- What becomes of the workspace does not depend on the backup. -/
theorem sync_workspace (host : InstanceDir) :
    (sync_instance_workspace instance_uuid template timestamp copytree false backup
      host).1.workspace = (copy_template (sync_render instance_uuid) template.walk
        (ensure_workspace host).workspace).1 := by
  cases backup with
  | false => rfl
  | true =>
    change (copy_template _ _ (back_up _ _ _).workspace).1 = _
    rw [back_up_workspace]

theorem ensure_workspace_self {host : InstanceDir} (h : host.workspace [] = some .dir) :
    ensure_workspace host = host := by
  rw [ensure_workspace, h]
  rfl

/-- A seeded workspace has the root directory, whatever the template. -/
theorem seed_root {t : FileTree Content}
    (h : (seed_workspace_template (some template) instance_uuid provider user_id t).2 = true) :
    (seed_workspace_template (some template) instance_uuid provider user_id t).1 [] =
      some .dir := by
  have hroot : (t.makedirs []).2 = true → (t.makedirs []).1 [] = some .dir :=
    fun hd => FileTree.makedirs_done hd (List.prefix_refl _)
  rw [seed_workspace_template] at h ⊢
  split at h
  · rename_i t' heq
    rw [heq] at hroot
    exact (grown_copy_template t').dir [] (hroot rfl)
  · cases h

theorem seed_done {t : FileTree Content}
    (h : (seed_workspace_template (some template) instance_uuid provider user_id t).2 = true) :
    ∃ t', seed_workspace_template (some template) instance_uuid provider user_id t =
        copy_template (seed_render instance_uuid provider user_id) template.walk t' := by
  rw [seed_workspace_template] at h ⊢
  split at h
  · rename_i t' heq
    exact ⟨t', rfl⟩
  · cases h

/-- Two runs in a row over a place that is ready: the files hold what the second one renders. -/
theorem copy_template_twice {walk : Walk} {t : FileTree Content} {f g : String → String}
    (hdis : ((walk_files walk).map (·.1)).Nodup)
    (htext : ∀ x ∈ walk_files walk, ∃ s, x.2 = .text s)
    (h : (copy_template f walk t).2 = true) :
    (copy_template g walk (copy_template f walk t).1).1 = (copy_template f walk t).1 ↔
      ∀ x ∈ walk_files walk, ∀ s, x.2 = .text s → f (read_text s) = g (read_text s) := by
  have hready := ready_of_done h
  obtain ⟨hdone, hbeside⟩ : (copy_template g walk _).2 = true ∧
    SameBeside walk _ (copy_template g walk _).1 := copy_template_ready hready htext
  constructor
  · intro he x hx s hs
    have hmem : (x.1, Content.text s) ∈ walk_files walk := hs ▸ hx
    have hf := copy_template_text hdis htext h hmem
    have hg := copy_template_text hdis htext hdone hmem
    rw [he, hf] at hg
    simpa only [Option.some.injEq, Node.file.injEq, Content.text.injEq] using hg
  · intro he
    funext path
    by_cases hp : path ∈ (walk_files walk).map (·.1)
    · obtain ⟨x, hx, rfl⟩ := List.mem_map.mp hp
      obtain ⟨s, hs⟩ := htext x hx
      have hmem : (x.1, Content.text s) ∈ walk_files walk := hs ▸ hx
      rw [copy_template_text hdis htext h hmem, copy_template_text hdis htext hdone hmem,
        he x hx s hs]
    · exact hbeside path hp

/-- A second sync finds everything as the first one left it. -/
theorem sync_sync {host : InstanceDir} (htext : template.AllText)
    (hroot : host.workspace [] = some .dir) (hready : Ready template.walk host.workspace) :
    (sync_instance_workspace instance_uuid template timestamp' copytree' false backup'
      (sync_instance_workspace instance_uuid template timestamp copytree false backup
        host).1).1.workspace = (sync_instance_workspace instance_uuid template timestamp copytree
          false backup host).1.workspace := by
  have hgrown : host.workspace.Grown
      (copy_template (sync_render instance_uuid) template.walk host.workspace).1 :=
    grown_copy_template host.workspace
  have hfirst : (sync_instance_workspace instance_uuid template timestamp copytree false backup
      host).1.workspace =
        (copy_template (sync_render instance_uuid) template.walk host.workspace).1 := by
    rw [sync_workspace, ensure_workspace_self hroot]
  rw [sync_workspace, ensure_workspace_self (by rw [hfirst]; exact hgrown.dir [] hroot), hfirst]
  apply (copy_template_twice template.distinct htext (copy_template_ready hready htext).1).mpr
  exact fun _ _ _ _ => rfl

/-- Syncing keeps what seeding put into a workspace, and syncing again changes nothing, exactly for
the templates that only use `{{UUID}}`. -/
theorem sync_keeps_seeded_iff (template : Template) (htext : template.AllText)
    (instance_uuid provider user_id : String) (hi : contains instance_uuid "\x7b\x7b" = false)
    (hp : contains provider "\x7b\x7b" = false) (hu : contains user_id "\x7b\x7b" = false)
    (t : FileTree Content) (host : InstanceDir)
    (hseed : seed_workspace_template (some template) instance_uuid provider user_id t =
      (host.workspace, true)) (timestamp : String) (copytree : Copytree) (backup : Bool) :
    ((sync_instance_workspace instance_uuid template timestamp copytree false backup
        host).1.workspace = host.workspace ∧
      ∀ timestamp' copytree' backup', (sync_instance_workspace instance_uuid template timestamp'
        copytree' false backup' (sync_instance_workspace instance_uuid template timestamp copytree
          false backup host).1).1.workspace = (sync_instance_workspace instance_uuid template
            timestamp copytree false backup host).1.workspace) ↔
    ∀ x ∈ template.files, ∀ s, x.2 = .text s →
      contains (read_text s) "{{USER_ID}}" = false ∧
        contains (sync_render instance_uuid (read_text s)) "{{PROVIDER}}" = false := by
  have hseeded : (seed_workspace_template (some template) instance_uuid provider user_id t).2 =
      true := by rw [hseed]
  have hroot := seed_root hseeded
  rw [hseed] at hroot
  obtain ⟨t', ht'⟩ := seed_done hseeded
  rw [hseed] at ht'
  have hdone : (copy_template (seed_render instance_uuid provider user_id) template.walk t').2 =
      true := by rw [← ht']
  have hws : host.workspace =
      (copy_template (seed_render instance_uuid provider user_id) template.walk t').1 := by
    rw [← ht']
  have hready : Ready template.walk host.workspace := hws ▸ ready_of_done hdone
  have hsame : (copy_template (sync_render instance_uuid) template.walk host.workspace).1 =
      host.workspace ↔ ∀ x ∈ template.files, ∀ s, x.2 = .text s →
        contains (read_text s) "{{USER_ID}}" = false ∧
          contains (sync_render instance_uuid (read_text s)) "{{PROVIDER}}" = false := by
    rw [hws, copy_template_twice template.distinct htext hdone]
    simp only [render_eq_iff hi hp hu]
    rfl
  have hfirst : (sync_instance_workspace instance_uuid template timestamp copytree false backup
      host).1.workspace =
        (copy_template (sync_render instance_uuid) template.walk host.workspace).1 := by
    rw [sync_workspace, ensure_workspace_self hroot]
  rw [← hsame, ← hfirst]
  exact ⟨fun h => h.1, fun h => ⟨h, fun _ _ _ => sync_sync htext hroot hready⟩⟩

def subagent_walk : Walk :=
  [([], []), (["subagents"], [("sec.md", .text "Security subagent for {{UUID}}")])]

theorem subagent_distinct : ((walk_files subagent_walk).map (·.1)).Nodup := by decide

def subagent : Template := ⟨subagent_walk, subagent_distinct⟩

def seeded (template : Template) : InstanceDir where
  workspace := (seed_workspace_template (some template) "inst-uuid-777" "telegram" "user-999"
    fun _ => none).1
  backups _ := none

theorem sync_keeps_seeded_ran : (sync_instance_workspace "inst-uuid-777" subagent "20260101_000000"
    .copied false true (seeded subagent)).1.workspace = (seeded subagent).workspace := by
  have hsingle : ∀ x ∈ subagent.files,
      x = (["subagents", "sec.md"], .text "Security subagent for {{UUID}}") :=
    fun x hx => List.mem_singleton.mp hx
  have htext : subagent.AllText := fun x hx => ⟨_, congrArg Prod.snd (hsingle x hx)⟩
  have hiff := sync_keeps_seeded_iff subagent htext
    "inst-uuid-777" "telegram" "user-999" (by decide) (by decide) (by decide) (fun _ => none)
    (seeded subagent) (Prod.ext rfl (by decide)) "20260101_000000" .copied true
  refine (hiff.mpr ?_).1
  intro x hx s hs
  rw [hsingle x hx] at hs
  cases hs
  decide +kernel

def hello_walk : Walk := [([], [("AGENTS.md", .text "# Hello {{USER_ID}} in {{PROVIDER}}")])]

theorem hello_distinct : ((walk_files hello_walk).map (·.1)).Nodup := by decide

def hello : Template := ⟨hello_walk, hello_distinct⟩

/-- Syncing puts the literal placeholders back into a seeded file. -/
theorem seeded_placeholder_reverts :
    (seed_workspace_template (some hello) "inst-uuid-777" "telegram" "user-999"
      fun _ => none).2 = true ∧
    (seeded hello).workspace ["AGENTS.md"] =
      some (.file (.text "# Hello user-999 in telegram")) ∧
    (sync_instance_workspace "inst-uuid-777" hello "20260101_000000" .copied false true
      (seeded hello)).1.workspace ["AGENTS.md"] =
        some (.file (.text "# Hello {{USER_ID}} in {{PROVIDER}}")) := by
  decide +kernel

/-! The backup -/

theorem back_up_copied {host : InstanceDir} (hnone : host.backups timestamp = none)
    (hdir : host.workspace.is_dir [] = true) :
    (back_up timestamp .copied host).backups timestamp = some host.workspace := by
  simp only [back_up, hdir, hnone, Bool.true_eq_false, ↓reduceIte, Function.update_self]

theorem back_up_kept {host : InstanceDir} (h : host.backups stamp = some b) :
    (back_up timestamp copytree host).backups stamp = some b := by
  have hne : host.backups timestamp = none → stamp ≠ timestamp := by
    rintro hn rfl
    rw [h] at hn
    cases hn
  unfold back_up
  cases host.workspace.is_dir [] with
  | false => exact h
  | true =>
    cases hb : host.backups timestamp with
    | some b' => exact h
    | none =>
      cases copytree with
      | copied => exact (Function.update_of_ne (hne hb) _ _).trans h
      | failed left => exact (Function.update_of_ne (hne hb) _ _).trans h

theorem ensure_workspace_node {host : InstanceDir} (h : host.workspace path = some node) :
    (ensure_workspace host).workspace path = some node := by
  rw [ensure_workspace]
  split
  · exact FileTree.makedirs_node h
  · exact h

theorem ensure_workspace_backups (host : InstanceDir) :
    (ensure_workspace host).backups = host.backups := by
  rw [ensure_workspace]
  split <;> rfl

theorem ensure_workspace_dir {host : InstanceDir}
    (h : host.workspace [] = none ∨ host.workspace [] = some .dir) :
    (ensure_workspace host).workspace.is_dir [] = true := by
  rw [FileTree.is_dir_iff]
  rcases h with h | h
  · rw [ensure_workspace, if_pos (by rw [h]; rfl)]
    apply FileTree.makedirs_done _ (List.prefix_refl _)
    have hfile : host.workspace.is_file [] = false := by rw [FileTree.is_file, h]
    rw [FileTree.makedirs, if_neg (by simp [hfile])]
  · rw [ensure_workspace_self h, h]

/-- A copy that succeeds holds all that the workspace held. Whatever becomes of the copy, the sync
goes on as it does without a backup, and leaves the files that are not the template's alone. -/
theorem sync_with_backup (instance_uuid : String) (template : Template) (timestamp : String)
    (copytree : Copytree) (host : InstanceDir) :
    (copytree = .copied → host.backups timestamp = none →
      (host.workspace [] = none ∨ host.workspace [] = some .dir) →
      ∃ b, (sync_instance_workspace instance_uuid template timestamp copytree false true
          host).1.backups timestamp = some b ∧
        ∀ path content, host.workspace path = some (.file content) →
          b path = some (.file content)) ∧
    (∀ stamp b, host.backups stamp = some b → (sync_instance_workspace instance_uuid template
      timestamp copytree false true host).1.backups stamp = some b) ∧
    (∀ path content, host.workspace path = some (.file content) →
      path ∉ template.files.map (·.1) →
      (∀ x ∈ template.files, ∀ bytes, x.2 = .binary bytes → ¬ x.1 <+: path) →
      (sync_instance_workspace instance_uuid template timestamp copytree false true
        host).1.workspace path = some (.file content)) ∧
    (sync_instance_workspace instance_uuid template timestamp copytree false true
      host).1.workspace = (sync_instance_workspace instance_uuid template timestamp copytree false
        false host).1.workspace := by
  refine ⟨?_, ?_, ?_, ?_⟩
  · rintro rfl hnone hroot
    refine ⟨(ensure_workspace host).workspace, ?_, fun path content => ensure_workspace_node⟩
    apply back_up_copied _ (ensure_workspace_dir hroot)
    rw [ensure_workspace_backups, hnone]
  · intro stamp b hb
    apply back_up_kept
    rw [ensure_workspace_backups, hb]
  · intro path content hp hnot hbin
    rw [sync_workspace]
    exact copy_template_other (ensure_workspace_node hp) hnot hbin
  · rw [sync_workspace, sync_workspace]

def edited : InstanceDir where
  workspace path := if path = [] then some .dir
    else if path = ["AGENTS.md"] then some (.file (.text "mine")) else none
  backups stamp := if stamp = "20260101_000000" then some fun _ => none else none

/-- With the directory of the second taken, a file is overwritten and no backup holds it. -/
theorem overwritten_without_backup :
    edited.workspace ["AGENTS.md"] = some (.file (.text "mine")) ∧
    (sync_instance_workspace "inst-uuid-777" hello "20260101_000000" .copied false true
      edited).1.workspace ["AGENTS.md"] =
        some (.file (.text "# Hello {{USER_ID}} in {{PROVIDER}}")) ∧
    ∀ stamp b, (sync_instance_workspace "inst-uuid-777" hello "20260101_000000" .copied false true
      edited).1.backups stamp = some b → b ["AGENTS.md"] = none := by
  refine ⟨by decide, by decide +kernel, ?_⟩
  intro stamp b hb
  change (if stamp = "20260101_000000" then _ else _) = _ at hb
  split at hb
  · cases hb
    rfl
  · cases hb

end SyncWorkspaceTemplates

end ClawMux
