import ClawMux.Scripts.SyncWorkspaceTemplates

namespace ClawMux
set_option autoImplicit true
open Lib Lib.Text Lib.Replace

namespace SyncWorkspaceTemplates

/-! `main` of the script: the instances that it finds, and the loop over them -/

inductive BaseEntry
  | file
  | dir (host : InstanceDir)

/-- The base directory; one that does not exist has no entries either. -/
abbrev BaseDir := String → Option BaseEntry

structure SyncArgs where
  all : Bool := false
  instance_uuid : Option String := none
  dry_run : Bool := false
  no_backup : Bool := false
  restart_containers : Bool := false
  container_prefix : String := "openclaw-"

/-- The clock and the copies of each instance during a run. -/
structure HostRun where
  timestamp : String → String
  copytree : String → Copytree

inductive SyncExit
  | print_help
  | template_not_found
  | complete (count : Nat)
  | raised
  deriving DecidableEq, Repr

/-- The base directory afterwards, and what was passed to `os.system`. -/
structure SyncRun where
  base : BaseDir
  commands : List String
  exit : SyncExit

/-- The command for the shell, which has the name of the container in it as it is. -/
def restart_command (container_name : String) : String :=
  "docker restart " ++ container_name ++ " >/dev/null 2>&1"

/-- The directories that are neither hidden nor backups. -/
def discover_instance_uuids (listdir : List String) (base : BaseDir) : List String :=
  listdir.filter fun entry =>
    match base entry with
    | some (.dir _) => !startsWith entry "." && !startsWith entry "backups"
    | _ => false

variable (template : Template) (run : HostRun) (args : SyncArgs)

/-- The sync of one instance that is there or is made. -/
def sync_dir (uuid : String) (host : InstanceDir) : InstanceDir × Bool :=
  sync_instance_workspace uuid template (run.timestamp uuid) (run.copytree uuid) args.dry_run
    (!args.no_backup) host

def sync_target (uuid : String) (base : BaseDir) : BaseDir × Bool :=
  match base uuid with
  -- no directory can be made below a file
  | some .file => (base, args.dry_run)
  | some (.dir host) =>
    let result := sync_dir template run args uuid host
    (Function.update base uuid (some (.dir result.1)), result.2)
  | none =>
    if args.dry_run then (base, true)
    else
      let result := sync_dir template run args uuid ⟨fun _ => none, fun _ => none⟩
      (Function.update base uuid (some (.dir result.1)), result.2)

/-- The loop; an exception ends the script. -/
def sync_targets : List String → BaseDir → List String → Nat → SyncRun
  | [], base, commands, count => ⟨base, commands, .complete count⟩
  | uuid :: targets, base, commands, count =>
    match sync_target template run args uuid base with
    | (base, false) => ⟨base, commands, .raised⟩
    | (base, true) =>
      sync_targets targets base
        (if args.restart_containers && !args.dry_run then
          commands ++ [restart_command (args.container_prefix ++ uuid)] else commands) (count + 1)

def main (template : Option Template) (listdir : List String) (base : BaseDir) : SyncRun :=
  match args.instance_uuid.filter (· ≠ ""), args.all with
  | none, false => ⟨base, [], .print_help⟩
  | target, _ =>
    match template with
    | none => ⟨base, [], .template_not_found⟩
    | some template =>
      sync_targets template run args
        (target.elim (discover_instance_uuids listdir base) fun uuid => [uuid]) base [] 0

/-- `--all` without `--instance-uuid` -/
structure SyncArgs.ForAll (args : SyncArgs) : Prop where
  all : args.all = true
  no_uuid : args.instance_uuid.filter (· ≠ "") = none

/-- What `os.listdir` has found in the base directory. -/
structure Listing (listdir : List String) (base : BaseDir) : Prop where
  nodup : listdir.Nodup
  listed : ∀ name, name ∈ listdir ↔ (base name).isSome = true

/-- An instance as the script sees it. -/
structure Tenant (base : BaseDir) (name : String) (host : InstanceDir) : Prop where
  dir : base name = some (.dir host)
  visible : startsWith name "." = false
  no_backup : startsWith name "backups" = false

variable {template run args} {base : BaseDir} {listdir targets : List String}

theorem mem_discover (hl : Listing listdir base) :
    name ∈ discover_instance_uuids listdir base ↔ ∃ host, Tenant base name host := by
  rw [discover_instance_uuids, List.mem_filter, hl.listed]
  constructor
  · rintro ⟨-, h⟩
    split at h
    · rename_i host hdir
      simp only [Bool.and_eq_true, Bool.not_eq_true'] at h
      exact ⟨host, hdir, h.1, h.2⟩
    · cases h
  · rintro ⟨host, hdir, hv, hb⟩
    simp [hdir, hv, hb]

/-- The sync of `name` has raised, and left behind what it had done. -/
def Broken (template : Template) (run : HostRun) (args : SyncArgs) (base : BaseDir) (name : String)
    (r : SyncRun) : Prop :=
  ∃ host host', base name = some (.dir host) ∧
    sync_dir template run args name host = (host', false) ∧ r.base name = some (.dir host')

/-- The targets up to the end or to the first failure are synced, and the only commands are those
for their containers. -/
structure Progress (template : Template) (run : HostRun) (args : SyncArgs) (base : BaseDir)
    (targets done later commands : List String) (count : Nat) (r : SyncRun) : Prop where
  split : targets = done ++ later
  hosts : ∀ name ∈ done, ∃ host host', base name = some (.dir host) ∧
    sync_dir template run args name host = (host', true) ∧ r.base name = some (.dir host')
  commands : r.commands = commands ++
    if args.restart_containers then
      done.map fun uuid => restart_command (args.container_prefix ++ uuid) else []
  ends : (later = [] ∧ r.exit = .complete (count + done.length)) ∨
    ∃ failed rest, later = failed :: rest ∧ r.exit = .raised ∧
      Broken template run args base failed r
  untouched : ∀ name ∈ later.tail, r.base name = base name

theorem sync_targets_other (h : name ∉ targets) (commands : List String) (count : Nat) :
    (sync_targets template run args targets base commands count).base name = base name := by
  have hother : ∀ uuid base, name ≠ uuid →
      (sync_target template run args uuid base).1 name = base name := by
    intro uuid base hne
    rw [sync_target]
    split
    · rfl
    · exact Function.update_of_ne hne _ _
    · split
      · rfl
      · exact Function.update_of_ne hne _ _
  induction targets generalizing base commands count with
  | nil => rfl
  | cons uuid targets ih =>
    obtain ⟨hne, hrest⟩ := List.ne_and_not_mem_of_not_mem_cons h
    rw [sync_targets]
    split
    · rename_i base' hs
      exact (congrArg (fun x => x.1 name) hs).symm.trans (hother uuid base hne)
    · rename_i base' hs
      rw [ih hrest]
      exact (congrArg (fun x => x.1 name) hs).symm.trans (hother uuid base hne)

/-- A dry run. -/
theorem sync_targets_dry (hdry : args.dry_run = true)
    (hdir : ∀ name ∈ targets, ∃ host, base name = some (.dir host)) (count : Nat) :
    sync_targets template run args targets base [] count =
      ⟨base, [], .complete (count + targets.length)⟩ := by
  induction targets generalizing count with
  | nil => rfl
  | cons uuid targets ih =>
    obtain ⟨host, hhost⟩ := hdir uuid List.mem_cons_self
    have hsame : sync_target template run args uuid base = (base, true) := by
      rw [sync_target, hhost]
      simp only [sync_dir, hdry, sync_instance_workspace, if_true]
      rw [← hhost, Function.update_eq_self]
    rw [sync_targets, hsame]
    simp only [hdry, Bool.not_true, Bool.and_false, Bool.false_eq_true, if_false]
    rw [ih fun name hname => hdir name (List.mem_cons_of_mem _ hname), List.length_cons,
      Nat.add_right_comm, Nat.add_assoc]

theorem sync_target_dir {host : InstanceDir} (h : base uuid = some (.dir host)) :
    sync_target template run args uuid base =
      (Function.update base uuid (some (.dir (sync_dir template run args uuid host).1)),
        (sync_dir template run args uuid host).2) := by
  rw [sync_target, h]

theorem sync_targets_progress (hdry : args.dry_run = false) (hn : targets.Nodup)
    (hdir : ∀ name ∈ targets, ∃ host, base name = some (.dir host)) (commands : List String)
    (count : Nat) : ∃ done later, Progress template run args base targets done later commands count
      (sync_targets template run args targets base commands count) := by
  induction targets generalizing base commands count with
  | nil =>
    refine ⟨[], [], rfl, fun name h => absurd h List.not_mem_nil, ?_, .inl ⟨rfl, rfl⟩,
      fun name h => absurd h List.not_mem_nil⟩
    simp [sync_targets]
  | cons uuid targets ih =>
    obtain ⟨host, hhost⟩ := hdir uuid List.mem_cons_self
    obtain ⟨hnew, hrest⟩ := List.nodup_cons.mp hn
    have hs : sync_target template run args uuid base =
        (Function.update base uuid (some (.dir (sync_dir template run args uuid host).1)),
          (sync_dir template run args uuid host).2) := sync_target_dir hhost
    generalize hd : sync_dir template run args uuid host = result at hs
    obtain ⟨host', ok⟩ := result
    have hkeep : ∀ name ∈ targets, Function.update base uuid (some (.dir host')) name =
        base name := by
      intro name hname
      apply Function.update_of_ne
      rintro rfl
      exact hnew hname
    cases ok with
    | false =>
      rw [sync_targets, hs]
      refine ⟨[], uuid :: targets, rfl, fun name h => absurd h List.not_mem_nil, by simp,
        .inr ⟨uuid, targets, rfl, rfl, host, host', hhost, hd, Function.update_self ..⟩, ?_⟩
      exact hkeep
    | true =>
      have hdir' : ∀ name ∈ targets, ∃ host,
          Function.update base uuid (some (.dir host')) name = some (.dir host) := by
        intro name hname
        rw [hkeep name hname]
        exact hdir name (List.mem_cons_of_mem _ hname)
      have hstep : sync_targets template run args (uuid :: targets) base commands count =
          sync_targets template run args targets (Function.update base uuid (some (.dir host')))
            (commands ++ if args.restart_containers then
              [restart_command (args.container_prefix ++ uuid)] else [])
            (count + 1) := by
        rw [sync_targets, hs]
        cases args.restart_containers <;> simp [hdry]
      obtain ⟨done, later, hp⟩ := ih hrest hdir'
        (commands ++ if args.restart_containers then
          [restart_command (args.container_prefix ++ uuid)] else [])
        (count + 1)
      rw [hstep]
      have hdone : ∀ name ∈ done, name ∈ targets := fun name hname => by
        rw [hp.split]
        exact List.mem_append_left _ hname
      have hlater : ∀ name ∈ later, name ∈ targets := fun name hname => by
        rw [hp.split]
        exact List.mem_append_right _ hname
      refine ⟨uuid :: done, later, by rw [hp.split, List.cons_append], ?_, ?_, ?_, ?_⟩
      · intro name hname
        rcases List.mem_cons.mp hname with rfl | hname
        · refine ⟨host, host', hhost, hd, ?_⟩
          rw [sync_targets_other hnew, Function.update_self]
        · obtain ⟨before, after, hbefore, hafter⟩ := hp.hosts name hname
          exact ⟨before, after, (hkeep name (hdone name hname)).symm.trans hbefore, hafter⟩
      · rw [hp.commands, List.append_assoc]
        cases args.restart_containers <;> simp
      · rcases hp.ends with ⟨hnil, hexit⟩ | ⟨failed, rest, hcons, hexit, before, after, hbefore, h⟩
        · refine .inl ⟨hnil, ?_⟩
          rw [hexit, List.length_cons, Nat.add_right_comm, Nat.add_assoc]
        · have hin : failed ∈ targets := hlater failed (hcons ▸ List.mem_cons_self)
          exact .inr ⟨failed, rest, hcons, hexit, before, after,
            (hkeep failed hin).symm.trans hbefore, h⟩
      · intro name hname
        rw [hp.untouched name hname]
        exact hkeep name (hlater name (List.mem_of_mem_tail hname))

theorem main_all (hall : args.ForAll) :
    main run args (some template) listdir base =
      sync_targets template run args (discover_instance_uuids listdir base) base [] 0 := by
  rw [main, hall.no_uuid, hall.all]
  rfl

theorem discover_nodup (hl : Listing listdir base) :
    (discover_instance_uuids listdir base).Nodup := hl.nodup.filter _

theorem discover_dir (hl : Listing listdir base) :
    ∀ name ∈ discover_instance_uuids listdir base, ∃ host, base name = some (.dir host) := by
  intro name hname
  obtain ⟨host, ht⟩ := (mem_discover hl).mp hname
  exact ⟨host, ht.dir⟩

theorem main_other (hl : Listing listdir base) (hall : args.ForAll)
    (hnot : ¬ ∃ host, Tenant base name host) :
    (main run args (some template) listdir base).base name = base name := by
  rw [main_all hall]
  exact sync_targets_other (fun hmem => hnot ((mem_discover hl).mp hmem)) [] 0

theorem main_progress (hl : Listing listdir base) (hall : args.ForAll)
    (hdry : args.dry_run = false) : ∃ done later, Progress template run args base
      (discover_instance_uuids listdir base) done later [] 0
      (main run args (some template) listdir base) := by
  rw [main_all hall]
  exact sync_targets_progress hdry (discover_nodup hl) (discover_dir hl) [] 0

/-- With `--all` the instances are synced one after the other, until one of them fails; everything
else in the base directory is left alone, and a dry run changes nothing. -/
theorem all_instances_are_synced (hl : Listing listdir base) (hall : args.ForAll) :
    (∀ name, (¬ ∃ host, Tenant base name host) →
      (main run args (some template) listdir base).base name = base name) ∧
    (args.dry_run = true → main run args (some template) listdir base =
      ⟨base, [], .complete (discover_instance_uuids listdir base).length⟩) ∧
    (args.dry_run = false → ∃ done later, Progress template run args base
      (discover_instance_uuids listdir base) done later [] 0
      (main run args (some template) listdir base)) := by
  refine ⟨fun name => main_other hl hall, fun hdry => ?_, main_progress hl hall⟩
  rw [main_all hall, sync_targets_dry hdry (discover_dir hl), Nat.zero_add]

/-! A second run -/

theorem sync_done (host : InstanceDir) :
    (sync_instance_workspace instance_uuid template timestamp copytree false backup host).2 =
      (copy_template (sync_render instance_uuid) template.walk
        (ensure_workspace host).workspace).2 := by
  cases backup with
  | false => rfl
  | true =>
    change (copy_template _ _ (back_up _ _ _).workspace).2 = _
    rw [back_up_workspace]

theorem ensure_workspace_there {host : InstanceDir} (h : host.workspace [] ≠ none) :
    ensure_workspace host = host := by
  rw [ensure_workspace, if_neg]
  rw [Option.isNone_iff_eq_none]
  exact h

/-- A workspace that was synced is there. -/
theorem synced_root (host : InstanceDir) :
    (copy_template f walk (ensure_workspace host).workspace).1 [] ≠ none := by
  have hgrown : (ensure_workspace host).workspace.Grown
      (copy_template f walk (ensure_workspace host).workspace).1 := grown_copy_template _
  have hroot : ∀ node, (ensure_workspace host).workspace [] = some node →
      (copy_template f walk (ensure_workspace host).workspace).1 [] ≠ none := by
    intro node hnode
    cases node with
    | dir =>
      rw [hgrown.dir [] hnode]
      exact Option.some_ne_none _
    | file content =>
      obtain ⟨content', hfile⟩ := hgrown.file [] content hnode
      rw [hfile]
      exact Option.some_ne_none _
  cases h : host.workspace [] with
  | none => exact hroot .dir (FileTree.is_dir_iff.mp (ensure_workspace_dir (.inl h)))
  | some node => exact hroot node (ensure_workspace_node h)

/-- Whatever the host was like: a sync that went through is repeated without a change. -/
theorem sync_again {host : InstanceDir} (htext : template.AllText)
    (hdone : (sync_instance_workspace instance_uuid template timestamp copytree false backup
      host).2 = true) (timestamp' : String) (copytree' : Copytree) (backup' : Bool) :
    ((sync_instance_workspace instance_uuid template timestamp' copytree' false backup'
      (sync_instance_workspace instance_uuid template timestamp copytree false backup
        host).1).2 = true) ∧
    (sync_instance_workspace instance_uuid template timestamp' copytree' false backup'
      (sync_instance_workspace instance_uuid template timestamp copytree false backup
        host).1).1.workspace = (sync_instance_workspace instance_uuid template timestamp copytree
          false backup host).1.workspace := by
  rw [sync_done] at hdone
  have hfirst : (sync_instance_workspace instance_uuid template timestamp copytree false backup
      host).1.workspace = (copy_template (sync_render instance_uuid) template.walk
        (ensure_workspace host).workspace).1 := sync_workspace host
  have hroot : (sync_instance_workspace instance_uuid template timestamp copytree false backup
      host).1.workspace [] ≠ none := by
    rw [hfirst]
    exact synced_root host
  rw [sync_done, sync_workspace, ensure_workspace_there hroot, hfirst]
  have hready := ready_of_done hdone
  exact ⟨(copy_template_ready hready htext).1,
    (copy_template_twice template.distinct htext hdone).mpr fun _ _ _ _ => rfl⟩

theorem sync_dir_again {run' : HostRun} {args' : SyncArgs} {host host' : InstanceDir}
    (htext : template.AllText) (hdry : args.dry_run = false) (hdry' : args'.dry_run = false)
    (h : sync_dir template run args name host = (host', true)) :
    ∃ again, sync_dir template run' args' name host' = (again, true) ∧
      again.workspace = host'.workspace := by
  rw [sync_dir, hdry] at h
  have hdone := congrArg Prod.snd h
  obtain ⟨hok, hsame⟩ := sync_again htext hdone (run'.timestamp name) (run'.copytree name)
    (!args'.no_backup)
  rw [h] at hok hsame
  refine ⟨(sync_dir template run' args' name host').1, Prod.ext rfl ?_, ?_⟩
  · rw [sync_dir, hdry']
    exact hok
  · rw [sync_dir, hdry']
    exact hsame

/-- A run that came to its end has synced every instance. -/
theorem complete_progress (hl : Listing listdir base) (hall : args.ForAll)
    (hdry : args.dry_run = false)
    (hdone : (main run args (some template) listdir base).exit = .complete n) :
    (discover_instance_uuids listdir base).length = n ∧
    ∀ name ∈ discover_instance_uuids listdir base, ∃ host host', base name = some (.dir host) ∧
      sync_dir template run args name host = (host', true) ∧
      (main run args (some template) listdir base).base name = some (.dir host') := by
  obtain ⟨done, later, hp⟩ : ∃ done later, Progress template run args base
      (discover_instance_uuids listdir base) done later [] 0
      (main run args (some template) listdir base) := main_progress hl hall hdry
  rcases hp.ends with ⟨rfl, hexit⟩ | ⟨failed, rest, -, hexit, -⟩
  · rw [hdone, Nat.zero_add] at hexit
    cases hexit
    rw [hp.split, List.append_nil]
    exact ⟨rfl, hp.hosts⟩
  · rw [hdone] at hexit
    cases hexit

/-- The instances are the same ones afterwards. -/
theorem listing_after (hl : Listing listdir base) (hall : args.ForAll)
    (hdry : args.dry_run = false)
    (hdone : (main run args (some template) listdir base).exit = .complete n) :
    Listing listdir (main run args (some template) listdir base).base ∧
      discover_instance_uuids listdir (main run args (some template) listdir base).base =
        discover_instance_uuids listdir base := by
  obtain ⟨-, hhosts⟩ := complete_progress hl hall hdry hdone
  have hother : ∀ name, name ∉ discover_instance_uuids listdir base →
      (main run args (some template) listdir base).base name = base name := fun name hname =>
    main_other hl hall fun ht => hname ((mem_discover hl).mpr ht)
  constructor
  · refine ⟨hl.nodup, fun name => ?_⟩
    by_cases hname : name ∈ discover_instance_uuids listdir base
    · obtain ⟨host, host', hbefore, -, hafter⟩ := hhosts name hname
      rw [hl.listed, hbefore, hafter]
      exact Iff.rfl
    · rw [hl.listed, hother name hname]
  · rw [discover_instance_uuids, discover_instance_uuids]
    apply List.filter_congr
    intro name _
    by_cases hname : name ∈ discover_instance_uuids listdir base
    · obtain ⟨host, host', hbefore, -, hafter⟩ := hhosts name hname
      rw [hbefore, hafter]
    · rw [hother name hname]

theorem Listing.perm (h : Listing listdir base) (hp : listdir.Perm listdir') :
    Listing listdir' base :=
  ⟨hp.nodup_iff.mp h.nodup, fun name => hp.mem_iff.symm.trans (h.listed name)⟩

/-- In any order it is the same instances that are found. -/
theorem discover_perm (hl : Listing listdir base) (hl' : Listing listdir' base) :
    (discover_instance_uuids listdir base).Perm (discover_instance_uuids listdir' base) :=
  (List.perm_ext_iff_of_nodup (discover_nodup hl) (discover_nodup hl')).mpr fun _ =>
    (mem_discover hl).trans (mem_discover hl').symm

/-- After a run that came to its end, another one comes to its end too and leaves every workspace
as it was, in whatever order the instances are listed then. -/
theorem synced_instances_stay {run' : HostRun} {args' : SyncArgs} (hl : Listing listdir base)
    (htext : template.AllText) (hall : args.ForAll) (hdry : args.dry_run = false)
    (hdone : (main run args (some template) listdir base).exit = .complete n)
    (hl' : Listing listdir' (main run args (some template) listdir base).base)
    (hall' : args'.ForAll) (hdry' : args'.dry_run = false) :
    (main run' args' (some template) listdir'
      (main run args (some template) listdir base).base).exit = .complete n ∧
    ∀ name host, (main run args (some template) listdir base).base name = some (.dir host) →
      ∃ again, (main run' args' (some template) listdir'
        (main run args (some template) listdir base).base).base name = some (.dir again) ∧
        again.workspace = host.workspace := by
  obtain ⟨hlength, hhosts⟩ := complete_progress hl hall hdry hdone
  obtain ⟨hl₁, hsame⟩ := listing_after hl hall hdry hdone
  generalize main run args (some template) listdir base = first at hhosts hl' hl₁ hsame ⊢
  have hperm : (discover_instance_uuids listdir base).Perm
      (discover_instance_uuids listdir' first.base) := by
    rw [← hsame]
    exact discover_perm hl₁ hl'
  have hrepeat : ∀ name ∈ discover_instance_uuids listdir' first.base, ∀ host,
      first.base name = some (.dir host) → ∃ again,
        sync_dir template run' args' name host = (again, true) ∧
          again.workspace = host.workspace := by
    intro name hname host hhost
    obtain ⟨before, after, -, hsync, hafter⟩ := hhosts name (hperm.mem_iff.mpr hname)
    rw [hafter] at hhost
    cases hhost
    exact sync_dir_again htext hdry hdry' hsync
  have hcomplete : (main run' args' (some template) listdir' first.base).exit = .complete n := by
    obtain ⟨done, later, hp⟩ : ∃ done later, Progress template run' args' first.base
        (discover_instance_uuids listdir' first.base) done later [] 0
        (main run' args' (some template) listdir' first.base) := main_progress hl' hall' hdry'
    rcases hp.ends with ⟨rfl, hexit⟩ | ⟨failed, rest, rfl, -, host, host', hhost, hfail, -⟩
    · rw [hexit, Nat.zero_add, ← hlength, hperm.length_eq, hp.split, List.append_nil]
    · have hin : failed ∈ discover_instance_uuids listdir' first.base := by
        rw [hp.split]
        exact List.mem_append_right _ List.mem_cons_self
      obtain ⟨again, hok, -⟩ := hrepeat failed hin host hhost
      rw [hok] at hfail
      cases hfail
  refine ⟨hcomplete, fun name host hhost => ?_⟩
  by_cases hname : name ∈ discover_instance_uuids listdir' first.base
  · obtain ⟨-, hagain⟩ := complete_progress hl' hall' hdry' hcomplete
    obtain ⟨host', again, hhost', hsync, hafter⟩ := hagain name hname
    rw [hhost] at hhost'
    cases hhost'
    obtain ⟨again', hsync', hws⟩ := hrepeat name hname host hhost
    rw [hsync] at hsync'
    cases hsync'
    exact ⟨again, hafter, hws⟩
  · refine ⟨host, ?_, rfl⟩
    rw [main_other hl' hall', hhost]
    intro ht
    exact hname ((mem_discover hl').mpr ht)

/-! Two instances and a file -/

def sample_base : BaseDir := fun name =>
  if name = "one" ∨ name = "two" then some (.dir ⟨fun _ => none, fun _ => none⟩)
  else if name = "notes" then some .file
  else none

def sample_listdir : List String := ["two", "notes", "one"]

def sample_run : HostRun where
  timestamp _ := "20260101_000000"
  copytree _ := .copied

def sample_args : SyncArgs := { all := true, restart_containers := true }

theorem sample_all : sample_args.ForAll := ⟨rfl, rfl⟩

theorem sample_listing : Listing sample_listdir sample_base := by
  refine ⟨by decide, fun name => ?_⟩
  simp only [sample_listdir, sample_base, List.mem_cons, List.not_mem_nil, or_false]
  split
  · rename_i h
    exact iff_of_true (h.elim (fun ho => .inr (.inr ho)) .inl) rfl
  · rename_i h
    obtain ⟨hone, htwo⟩ := not_or.mp h
    split
    · rename_i hnotes
      exact iff_of_true (.inr (.inl hnotes)) rfl
    · rename_i hnotes
      refine iff_of_false ?_ (by simp)
      rintro (he | he | he)
      · exact htwo he
      · exact hnotes he
      · exact hone he

theorem all_instances_are_synced_sample :
    (main sample_run sample_args (some subagent) sample_listdir sample_base).base "notes" =
      sample_base "notes" ∧
    ∃ done later, Progress subagent sample_run sample_args sample_base ["two", "one"] done later
      [] 0 (main sample_run sample_args (some subagent) sample_listdir sample_base) := by
  obtain ⟨hother, -, hsynced⟩ := all_instances_are_synced sample_listing sample_all
  refine ⟨hother "notes" ?_, hsynced rfl⟩
  rintro ⟨host, hdir, -, -⟩
  cases hdir

theorem sample_complete : (main sample_run sample_args (some subagent) sample_listdir
    sample_base).exit = .complete 2 := by decide +kernel

theorem synced_instances_stay_sample :
    (main sample_run sample_args (some subagent) sample_listdir.reverse
      (main sample_run sample_args (some subagent) sample_listdir sample_base).base).exit =
        .complete 2 := by
  have htext : subagent.AllText := by
    intro x hx
    obtain rfl := List.mem_singleton.mp hx
    exact ⟨_, rfl⟩
  have hlisting := (listing_after sample_listing sample_all rfl sample_complete).1
  have hreverse := hlisting.perm (List.reverse_perm sample_listdir).symm
  exact (synced_instances_stay sample_listing htext sample_all rfl sample_complete hreverse
    sample_all rfl).1

end SyncWorkspaceTemplates

end ClawMux
