import ClawMux.Lib.Interleave
import ClawMux.Lib.Transition
import ClawMux.Services.Downloads

namespace ClawMux
set_option autoImplicit true
open Lib FileManager

/-- Where a path leads to, and what the platform has stored under a file id. -/
structure DownloadWorld where
  realpath : String → String
  content : String → List UInt8

/-- A call of `download_attachments`; `stream` is the number of bytes written to the open file. -/
structure DownloadCall where
  task : Fallible (List DownloadedFile)
  trace : List (Sigma Effect.Answer) := []
  stream : Option Nat := none

/-- The files by their real paths, and the calls that run. -/
structure Downloads (ι : Type) where
  files : String → Option (List UInt8)
  calls : ι → DownloadCall

/-- `get_file` is made of many steps: the file is opened and truncated, one chunk after the other is
written, and the response ends or fails. -/
inductive DownloadAction (ι : Type)
  | answer (i : ι) (world : (e : Effect) → e.Answer)
  | opened (i : ι)
  | chunk (i : ι) (n : Nat)
  | ended (i : ι)
  | failed (i : ι) (e : Exn)

def is_get_file : Effect → Bool
  | .get_file .. => true
  | _ => false

/-- Writing at an offset; what is missing before it is filled with zeros. -/
def write_at (k : Nat) (data old : List UInt8) : List UInt8 :=
  old.take k ++ List.replicate (k - old.length) 0 ++ data ++ old.drop (k + data.length)

def DownloadCall.replied (c : DownloadCall) (e : Effect)
    (next : e.Answer → Fallible (List DownloadedFile)) (r : e.Answer) : DownloadCall where
  task := next r
  trace := c.trace ++ [⟨e, r⟩]

def DownloadCall.returned (c : DownloadCall) : List DownloadedFile :=
  match c.task with
  | .done (.ok files) => files
  | _ => []

def DownloadCall.finished (c : DownloadCall) : Prop := ∃ x, c.task = .done x

namespace Downloads
variable {ι : Type} [DecidableEq ι] (w : DownloadWorld)

def set (s : Downloads ι) (i : ι) (c : DownloadCall) : Downloads ι :=
  { s with calls := Function.update s.calls i c }

def write (s : Downloads ι) (i : ι) (path : String) (bytes : List UInt8) (k : Nat) :
    Downloads ι where
  files := Function.update s.files (w.realpath path) (some bytes)
  calls := Function.update s.calls i { s.calls i with stream := some k }

/-- Files that are there exist, and so may what is no file. -/
def answer_of (s : Downloads ι) (world : (e : Effect) → e.Answer) : (e : Effect) → e.Answer
  | .path_exists path => (s.files (w.realpath path)).isSome || world (.path_exists path)
  | e => world e

def step (s : Downloads ι) : DownloadAction ι → Option (Downloads ι)
  | .answer i world =>
    match (s.calls i).task with
    | .done _ => none
    | .ask e next =>
      if is_get_file e then none
      else some (s.set i ((s.calls i).replied e next (s.answer_of w world e)))
  | .opened i =>
    match (s.calls i).task, (s.calls i).stream with
    | .ask (.get_file _ host_path) _, none => some (s.write w i host_path [] 0)
    | _, _ => none
  | .chunk i n =>
    match (s.calls i).task, (s.calls i).stream with
    | .ask (.get_file file_id host_path) _, some k =>
      let data := ((w.content file_id).drop k).take n
      some (s.write w i host_path
        (write_at k data ((s.files (w.realpath host_path)).getD [])) (k + data.length))
    | _, _ => none
  | .ended i =>
    match (s.calls i).task, (s.calls i).stream with
    | .ask (.get_file file_id host_path) next, some k =>
      if k = (w.content file_id).length then
        some (s.set i ((s.calls i).replied (.get_file file_id host_path) next (.ok ())))
      else none
    | _, _ => none
  | .failed i e =>
    match (s.calls i).task with
    | .ask (.get_file file_id host_path) next =>
      some (s.set i ((s.calls i).replied (.get_file file_id host_path) next (.error e)))
    | _ => none

def start (settings : FileSettings) (args : ι → List String × String)
    (files : String → Option (List UInt8)) : Downloads ι where
  files := files
  calls i := { task := download_attachments settings (args i).1 (args i).2 }

/-- When all calls have finished, there is one new file for each returned, complete, at a path of
its own, and nothing else has changed; a file that was there before never changes. -/
structure Atomic (args : ι → List String × String) (files : String → Option (List UInt8))
    (s : Downloads ι) : Prop where
  untouched : ∀ q, files q ≠ none → s.files q = files q
  complete : (∀ i, (s.calls i).finished) → ∀ i, ∃ file_ids : List String,
    List.Sublist file_ids (args i).1 ∧ List.Forall₂ (fun file_id f =>
      files (w.realpath f.host_path) = none ∧
        s.files (w.realpath f.host_path) = some (w.content file_id))
      file_ids (s.calls i).returned
  own_path : (∀ i, (s.calls i).finished) → ∀ i,
    ((s.calls i).returned.map fun f => w.realpath f.host_path).Nodup
  apart : (∀ i, (s.calls i).finished) → ∀ i j, i ≠ j → ∀ f ∈ (s.calls i).returned,
    ∀ g ∈ (s.calls j).returned, w.realpath f.host_path ≠ w.realpath g.host_path
  no_other : (∀ i, (s.calls i).finished) → ∀ q,
    (∀ i, ∀ f ∈ (s.calls i).returned, w.realpath f.host_path ≠ q) → s.files q = files q

/-- A file is opened where there is none, does not fail once it is open, and nothing raises in a
call that has written a file. -/
def clean (settings : FileSettings) (s : Downloads ι) : DownloadAction ι → Bool
  | .answer i world =>
    match (s.calls i).task with
    | .done _ => true
    | .ask e _ =>
      !raises settings.max_bytes ⟨e, s.answer_of w world e⟩ || (saved (s.calls i).trace).isEmpty
  | .opened i =>
    match (s.calls i).task with
    | .ask (.get_file _ host_path) _ => (s.files (w.realpath host_path)).isNone
    | _ => true
  | .failed i e => (s.calls i).stream.isNone &&
    (e.kind = .http_error || (saved (s.calls i).trace).isEmpty)
  | .chunk .. | .ended _ => true

end Downloads

/-! One call -/

/-- The file that a call writes to. -/
def DownloadCall.current (c : DownloadCall) : List (String × String) :=
  match c.task, c.stream with
  | .ask (.get_file file_id host_path) _, some _ => [(file_id, host_path)]
  | _, _ => []

/-- The files that a call has opened. -/
def DownloadCall.slots (c : DownloadCall) : List (String × String) := saved c.trace ++ c.current

theorem DownloadCall.slots_idle {c : DownloadCall} (h : c.stream = none) :
    c.slots = saved c.trace := by
  rw [slots, current, h, List.append_right_eq_self]
  split
  · rename_i hn
    cases hn
  · rfl

theorem DownloadCall.slots_open {c : DownloadCall}
    (ht : c.task = .ask (.get_file file_id host_path) next) (hs : c.stream = some k) :
    c.slots = saved c.trace ++ [(file_id, host_path)] := by
  rw [slots, current, ht, hs]

theorem DownloadCall.slots_replied (c : DownloadCall) (e : Effect)
    (next : e.Answer → Fallible (List DownloadedFile)) (r : e.Answer) :
    (c.replied e next r).slots = saved c.trace ++ saved [⟨e, r⟩] := by
  rw [slots_idle rfl, replied, saved_append]

namespace Downloads
variable {ι : Type} [DecidableEq ι] {w : DownloadWorld} {s s' : Downloads ι}
  {settings : FileSettings} {args : ι → List String × String}
  {files : String → Option (List UInt8)}

/-- What a clean step does: it answers a call that has no open file, opens a new file, writes to
the open one, or ends with all of it written. -/
theorem clean_step (hc : clean w settings s a = true) (hs : s.step w a = some s') :
    (∃ i e next r, (s.calls i).task = .ask e next ∧ saved [⟨e, r⟩] = [] ∧
      (is_get_file e = true → (s.calls i).stream = none) ∧
      (raises settings.max_bytes ⟨e, r⟩ = true → saved (s.calls i).trace = []) ∧
      s' = s.set i ((s.calls i).replied e next r)) ∨
    (∃ i file_id host_path next, (s.calls i).task = .ask (.get_file file_id host_path) next ∧
      (s.calls i).stream = none ∧ s.files (w.realpath host_path) = none ∧
      s' = s.write w i host_path [] 0) ∨
    (∃ i n file_id host_path next k, (s.calls i).task = .ask (.get_file file_id host_path) next ∧
      (s.calls i).stream = some k ∧
      s' = s.write w i host_path
        (write_at k (((w.content file_id).drop k).take n)
          ((s.files (w.realpath host_path)).getD []))
        (k + (((w.content file_id).drop k).take n).length)) ∨
    ∃ i file_id host_path next, (s.calls i).task = .ask (.get_file file_id host_path) next ∧
      (s.calls i).stream = some (w.content file_id).length ∧
      s' = s.set i ((s.calls i).replied (.get_file file_id host_path) next (.ok ())) := by
  cases a with
  | answer i world =>
    rw [step] at hs
    rw [clean] at hc
    split at hs
    · cases hs
    · next e next ht =>
      rw [ht] at hc
      split at hs
      · cases hs
      · next hget =>
        cases hs
        refine .inl ⟨i, e, next, _, ht, ?_, fun h => absurd h hget, ?_, rfl⟩
        · cases e <;> first | rfl | exact absurd rfl hget
        · intro hr
          simpa [hr] using hc
  | opened i =>
    rw [step] at hs
    rw [clean] at hc
    split at hs
    · next file_id host_path next ht hstream =>
      cases hs
      rw [ht] at hc
      exact .inr (.inl ⟨i, file_id, host_path, next, ht, hstream, by simpa using hc, rfl⟩)
    · cases hs
  | chunk i n =>
    rw [step] at hs
    split at hs
    · next file_id host_path next k ht hstream =>
      cases hs
      exact .inr (.inr (.inl ⟨i, n, file_id, host_path, next, k, ht, hstream, rfl⟩))
    · cases hs
  | ended i =>
    rw [step] at hs
    split at hs
    · next file_id host_path next k ht hstream =>
      split at hs
      · next hk =>
        cases hs
        subst hk
        exact .inr (.inr (.inr ⟨i, file_id, host_path, next, ht, hstream, rfl⟩))
      · cases hs
    · cases hs
  | failed i e =>
    rw [step] at hs
    rw [clean, Bool.and_eq_true] at hc
    split at hs
    · next file_id host_path next ht =>
      cases hs
      refine .inl ⟨i, _, next, .error e, ht, rfl, fun _ => by simpa using hc.1, ?_, rfl⟩
      intro hr
      have hk : e.kind ≠ .http_error := of_decide_eq_true hr
      simpa [hk] using hc.2
    · cases hs

/-- What the calls have asked, the files they have opened, and what is in those. -/
structure Inv (w : DownloadWorld) (settings : FileSettings) (args : ι → List String × String)
    (files : String → Option (List UInt8)) (s : Downloads ι) : Prop where
  reaches : ∀ i, Program.Reaches (download_attachments settings (args i).1 (args i).2)
    (s.calls i).trace (s.calls i).task
  tidy : ∀ i, Tidy settings.max_bytes [] (s.calls i).trace
  stream : ∀ i k, (s.calls i).stream = some k → ∃ file_id host_path next,
    (s.calls i).task = .ask (.get_file file_id host_path) next ∧
      k ≤ (w.content file_id).length ∧
      s.files (w.realpath host_path) = some ((w.content file_id).take k)
  saved : ∀ i, ∀ x ∈ saved (s.calls i).trace, s.files (w.realpath x.2) = some (w.content x.1)
  fresh : ∀ i, ∀ x ∈ (s.calls i).slots, files (w.realpath x.2) = none
  nodup : ∀ i, ((s.calls i).slots.map fun x => w.realpath x.2).Nodup
  apart : ∀ i j, i ≠ j → ∀ x ∈ (s.calls i).slots, ∀ y ∈ (s.calls j).slots,
    w.realpath x.2 ≠ w.realpath y.2
  rest : ∀ q, (∀ i, ∀ x ∈ (s.calls i).slots, w.realpath x.2 ≠ q) → s.files q = files q

omit [DecidableEq ι] in
theorem inv_start (w : DownloadWorld) (settings : FileSettings) (args : ι → List String × String)
    (files : String → Option (List UInt8)) :
    Inv w settings args files (start settings args files) where
  reaches i := .refl _
  tidy i := trivial
  stream i k h := by cases h
  saved i x hx := by cases hx
  fresh i x hx := by
    rw [DownloadCall.slots_idle rfl] at hx
    cases hx
  nodup i := by
    rw [DownloadCall.slots_idle rfl]
    exact List.nodup_nil
  apart i j _ x hx := by
    rw [DownloadCall.slots_idle rfl] at hx
    cases hx
  rest q _ := rfl

omit [DecidableEq ι] in
/-- Every file that was opened is there. -/
theorem Inv.slot_some (h : Inv w settings args files s) (hx : x ∈ (s.calls i).slots) :
    s.files (w.realpath x.2) ≠ none := by
  rcases List.mem_append.mp hx with hx | hx
  · rw [h.saved i x hx]
    exact Option.some_ne_none _
  · rw [DownloadCall.current] at hx
    split at hx
    · next file_id host_path next k ht hs =>
      obtain ⟨file_id', host_path', next', ht', _, hfile⟩ := h.stream i k hs
      cases ht.symm.trans ht'
      rw [List.mem_singleton.mp hx, hfile]
      exact Option.some_ne_none _
    · cases hx

/-- What the invariant says of one call, where `now` are the files. -/
structure CallInv (w : DownloadWorld) (settings : FileSettings) (args : ι → List String × String)
    (files now : String → Option (List UInt8)) (i : ι) (c : DownloadCall) : Prop where
  reaches : Program.Reaches (download_attachments settings (args i).1 (args i).2) c.trace c.task
  tidy : Tidy settings.max_bytes [] c.trace
  stream : ∀ k, c.stream = some k → ∃ file_id host_path next,
    c.task = .ask (.get_file file_id host_path) next ∧ k ≤ (w.content file_id).length ∧
      now (w.realpath host_path) = some ((w.content file_id).take k)
  saved : ∀ x ∈ FileManager.saved c.trace, now (w.realpath x.2) = some (w.content x.1)
  fresh : ∀ x ∈ c.slots, files (w.realpath x.2) = none
  nodup : (c.slots.map fun x => w.realpath x.2).Nodup

omit [DecidableEq ι] in
theorem Inv.call (h : Inv w settings args files s) (i : ι) :
    CallInv w settings args files s.files i (s.calls i) :=
  ⟨h.reaches i, h.tidy i, h.stream i, h.saved i, h.fresh i, h.nodup i⟩

omit [DecidableEq ι] in
theorem Inv.of_calls (hcalls : ∀ i, CallInv w settings args files s.files i (s.calls i))
    (hapart : ∀ i j, i ≠ j → ∀ x ∈ (s.calls i).slots, ∀ y ∈ (s.calls j).slots,
      w.realpath x.2 ≠ w.realpath y.2)
    (hrest : ∀ q, (∀ i, ∀ x ∈ (s.calls i).slots, w.realpath x.2 ≠ q) → s.files q = files q) :
    Inv w settings args files s where
  reaches i := (hcalls i).reaches
  tidy i := (hcalls i).tidy
  stream i := (hcalls i).stream
  saved i := (hcalls i).saved
  fresh i := (hcalls i).fresh
  nodup i := (hcalls i).nodup
  apart := hapart
  rest := hrest

omit [DecidableEq ι] in
/-- Files that the call has not opened may change. -/
theorem CallInv.frame (h : CallInv w settings args files now i c)
    (hframe : ∀ x ∈ c.slots, now' (w.realpath x.2) = now (w.realpath x.2)) :
    CallInv w settings args files now' i c where
  reaches := h.reaches
  tidy := h.tidy
  stream k hk := by
    obtain ⟨file_id, host_path, next, ht, hle, hfile⟩ := h.stream k hk
    have hmem : (file_id, host_path) ∈ c.slots := by
      rw [DownloadCall.slots_open ht hk]
      exact List.mem_append_right _ List.mem_cons_self
    exact ⟨file_id, host_path, next, ht, hle, (hframe _ hmem).trans hfile⟩
  saved x hx := (hframe x (List.mem_append_left _ hx)).trans (h.saved x hx)
  fresh := h.fresh
  nodup := h.nodup

/-- A call goes on, with the files it has opened. -/
theorem Inv.set (h : Inv w settings args files s)
    (hreach : Program.Reaches (download_attachments settings (args i).1 (args i).2) c.trace c.task)
    (htidy : Tidy settings.max_bytes [] c.trace) (hstream : c.stream = none)
    (hslots : c.slots = (s.calls i).slots)
    (hsaved : ∀ x ∈ FileManager.saved c.trace, s.files (w.realpath x.2) = some (w.content x.1)) :
    Inv w settings args files (s.set i c) := by
  have hself : (s.set i c).calls i = c := Function.update_self ..
  have hne : ∀ j, j ≠ i → (s.set i c).calls j = s.calls j := fun j hj => Function.update_of_ne hj ..
  have hsame : ∀ j, ((s.set i c).calls j).slots = (s.calls j).slots := by
    intro j
    by_cases hj : j = i
    · rw [hj, hself, hslots]
    · rw [hne j hj]
  apply Inv.of_calls
  · intro j
    by_cases hj : j = i
    · subst hj
      rw [hself]
      refine ⟨hreach, htidy, ?_, hsaved, hslots ▸ h.fresh j, hslots ▸ h.nodup j⟩
      intro k hk
      cases hstream.symm.trans hk
    · rw [hne j hj]
      exact h.call j
  · intro j j' hj x hx y hy
    exact h.apart j j' hj x (hsame j ▸ hx) y (hsame j' ▸ hy)
  · intro q hq
    exact h.rest q fun j x hx => hq j x (hsame j ▸ hx)

/-- A call writes to a file that no other call has opened, and that it has not saved. -/
theorem Inv.write (h : Inv w settings args files s)
    (ht : (s.calls i).task = .ask (.get_file file_id host_path) next)
    (hown : ∀ x ∈ FileManager.saved (s.calls i).trace, w.realpath x.2 ≠ w.realpath host_path)
    (hothers : ∀ j, j ≠ i → ∀ x ∈ (s.calls j).slots, w.realpath x.2 ≠ w.realpath host_path)
    (hfresh : files (w.realpath host_path) = none) (hk : k ≤ (w.content file_id).length) :
    Inv w settings args files (s.write w i host_path ((w.content file_id).take k) k) := by
  have hself : (s.write w i host_path ((w.content file_id).take k) k).calls i =
      { s.calls i with stream := some k } := Function.update_self ..
  have hne : ∀ j, j ≠ i → (s.write w i host_path ((w.content file_id).take k) k).calls j =
      s.calls j := fun j hj => Function.update_of_ne hj ..
  have hslots : ((s.write w i host_path ((w.content file_id).take k) k).calls i).slots =
      FileManager.saved (s.calls i).trace ++ [(file_id, host_path)] := by
    rw [hself]
    exact DownloadCall.slots_open ht rfl
  have hhere : (s.write w i host_path ((w.content file_id).take k) k).files
      (w.realpath host_path) = some ((w.content file_id).take k) := Function.update_self ..
  have helse : ∀ q, q ≠ w.realpath host_path →
      (s.write w i host_path ((w.content file_id).take k) k).files q = s.files q :=
    fun q hq => Function.update_of_ne hq ..
  have hold : ∀ x ∈ (s.calls i).slots,
      x ∈ FileManager.saved (s.calls i).trace ++ [(file_id, host_path)] := by
    intro x hx
    rw [DownloadCall.slots, DownloadCall.current, ht] at hx
    split at hx
    · next htask _ =>
      cases htask
      exact hx
    · rw [List.append_nil] at hx
      exact List.mem_append_left _ hx
  apply Inv.of_calls
  · intro j
    by_cases hj : j = i
    · subst hj
      refine ⟨?_, ?_, ?_, ?_, ?_, ?_⟩
      · rw [hself]
        exact h.reaches j
      · rw [hself]
        exact h.tidy j
      · intro k' hk'
        rw [hself] at hk' ⊢
        cases hk'
        exact ⟨file_id, host_path, next, ht, hk, hhere⟩
      · intro x hx
        rw [hself] at hx
        rw [helse _ (hown x hx)]
        exact h.saved j x hx
      · intro x hx
        rw [hslots] at hx
        rcases List.mem_append.mp hx with hx | hx
        · exact h.fresh j x (List.mem_append_left _ hx)
        · rw [List.mem_singleton.mp hx]
          exact hfresh
      · rw [hslots, List.map_append, List.map_singleton, List.nodup_append]
        have hnodup := h.nodup j
        rw [DownloadCall.slots, List.map_append, List.nodup_append] at hnodup
        refine ⟨hnodup.1, List.nodup_cons.mpr ⟨List.not_mem_nil, List.nodup_nil⟩, ?_⟩
        intro q hq q' hq' he
        obtain ⟨x, hx, rfl⟩ := List.mem_map.mp hq
        exact hown x hx (he.trans (List.mem_singleton.mp hq'))
    · rw [hne j hj]
      exact (h.call j).frame fun x hx => helse _ (hothers j hj x hx)
  · have hnew : ∀ j, j ≠ i → ∀ x ∈ FileManager.saved (s.calls i).trace ++ [(file_id, host_path)],
        ∀ y ∈ (s.calls j).slots, w.realpath x.2 ≠ w.realpath y.2 := by
      intro j hj x hx y hy
      rcases List.mem_append.mp hx with hx | hx
      · exact h.apart i j hj.symm x (List.mem_append_left _ hx) y hy
      · rw [List.mem_singleton.mp hx]
        exact (hothers j hj y hy).symm
    intro j j' hjj x hx y hy
    by_cases hj : j = i
    · subst hj
      rw [hslots] at hx
      rw [hne j' hjj.symm] at hy
      exact hnew j' hjj.symm x hx y hy
    · rw [hne j hj] at hx
      by_cases hj' : j' = i
      · subst hj'
        rw [hslots] at hy
        exact (hnew j hj y hy x hx).symm
      · rw [hne j' hj'] at hy
        exact h.apart j j' hjj x hx y hy
  · intro q hq
    have hlast : (file_id, host_path) ∈
        ((s.write w i host_path ((w.content file_id).take k) k).calls i).slots := by
      rw [hslots]
      exact List.mem_append_right _ List.mem_cons_self
    rw [helse q (hq i _ hlast).symm]
    apply h.rest q
    intro j x hx
    by_cases hj : j = i
    · subst hj
      exact hq j x (hslots ▸ hold x hx)
    · exact hq j x ((hne j hj).symm ▸ hx)

theorem write_at_take (content : List UInt8) (h : k ≤ content.length) :
    write_at k ((content.drop k).take n) (content.take k) =
      content.take (k + ((content.drop k).take n).length) := by
  have hlen : (content.take k).length = k := List.length_take_of_le h
  have hpast : (content.take k).length ≤ k + ((content.drop k).take n).length := by omega
  rw [write_at, hlen, Nat.sub_self, List.replicate_zero, List.append_nil, List.take_of_length_le
    (le_of_eq hlen), List.drop_of_length_le hpast, List.append_nil, List.take_add]
  congr 1
  rw [List.length_take]
  exact List.take_eq_take_min

theorem Inv.step (h : Inv w settings args files s) (hc : clean w settings s a = true)
    (hs : s.step w a = some s') : Inv w settings args files s' := by
  rcases clean_step hc hs with
    ⟨i, e, next, r, ht, hsaved, hidle, hraise, rfl⟩ |
    ⟨i, file_id, host_path, next, ht, hstream, hnone, rfl⟩ |
    ⟨i, n, file_id, host_path, next, k, ht, hstream, rfl⟩ |
    ⟨i, file_id, host_path, next, ht, hstream, rfl⟩
  · have hstream : (s.calls i).stream = none := by
      cases hk : (s.calls i).stream with
      | none => rfl
      | some k =>
        obtain ⟨file_id, host_path, next', ht', _⟩ := h.stream i k hk
        cases ht.symm.trans ht'
        exact absurd (hidle rfl) (by rw [hk]; exact Option.some_ne_none k)
    have hreach := h.reaches i
    rw [ht] at hreach
    refine h.set (.snoc r hreach) ?_ rfl ?_ ?_
    · refine tidy_append.mpr ⟨h.tidy i, ?_, trivial⟩
      rw [List.nil_append]
      exact hraise
    · rw [DownloadCall.slots_replied, hsaved, List.append_nil, DownloadCall.slots_idle hstream]
    · intro x hx
      rw [DownloadCall.replied, saved_append, hsaved, List.append_nil] at hx
      exact h.saved i x hx
  · have hopen : ∀ j, ∀ x ∈ (s.calls j).slots, w.realpath x.2 ≠ w.realpath host_path := by
      intro j x hx he
      exact h.slot_some hx (he ▸ hnone)
    have hfresh : files (w.realpath host_path) = none :=
      (h.rest _ hopen).symm.trans hnone
    exact h.write ht (fun x hx => hopen i x (List.mem_append_left _ hx)) (fun j _ => hopen j)
      hfresh (Nat.zero_le _)
  · obtain ⟨file_id', host_path', next', ht', hle, hfile⟩ := h.stream i k hstream
    cases ht.symm.trans ht'
    have hslots := DownloadCall.slots_open ht hstream
    have hmem : (file_id, host_path) ∈ (s.calls i).slots := by
      rw [hslots]
      exact List.mem_append_right _ List.mem_cons_self
    have hown : ∀ x ∈ FileManager.saved (s.calls i).trace,
        w.realpath x.2 ≠ w.realpath host_path := by
      intro x hx
      have hnodup := h.nodup i
      rw [hslots, List.map_append, List.nodup_append] at hnodup
      exact hnodup.2.2 _ (List.mem_map_of_mem hx) _ List.mem_cons_self
    rw [hfile, Option.getD_some, write_at_take _ hle]
    refine h.write ht hown (fun j hj x hx => h.apart j i hj x hx _ hmem) (h.fresh i _ hmem) ?_
    rw [List.length_take, List.length_drop]
    omega
  · obtain ⟨file_id', host_path', next', ht', _, hfile⟩ := h.stream i _ hstream
    cases ht.symm.trans ht'
    have hreach := h.reaches i
    rw [ht] at hreach
    have hsaved : FileManager.saved [(⟨.get_file file_id host_path, .ok ()⟩ :
        Sigma Effect.Answer)] = [(file_id, host_path)] := rfl
    have hnext : Program.Reaches
        (download_attachments settings (args i).1 (args i).2)
        ((s.calls i).trace ++ [⟨.get_file file_id host_path, .ok ()⟩]) (next (.ok ())) :=
      .snoc _ hreach
    refine h.set hnext ?_ rfl ?_ ?_
    · refine tidy_append.mpr ⟨h.tidy i, ?_, trivial⟩
      intro hr
      cases hr
    · rw [DownloadCall.slots_replied, hsaved, DownloadCall.slots_open ht hstream]
    · intro x hx
      rw [DownloadCall.replied, saved_append, hsaved] at hx
      rcases List.mem_append.mp hx with hx | hx
      · exact h.saved i x hx
      · rw [List.mem_singleton.mp hx, hfile, List.take_length]

theorem reach_inv (h : Reach (step w) (fun s a => clean w settings s a = true)
    (· = start settings args files) s) : Inv w settings args files s := by
  apply h.invariant
  · rintro s rfl
    exact inv_start w settings args files
  · intro s a s' hinv hc hs
    exact hinv.step hc hs

omit [DecidableEq ι] in
/-- The files that a finished call returns are those it has opened. -/
theorem Inv.returned (h : Inv w settings args files s) (hi : (s.calls i).finished) :
    (s.calls i).slots = FileManager.saved (s.calls i).trace ∧
      Matches (args i).1 (s.calls i).trace (s.calls i).returned := by
  obtain ⟨x, hx⟩ := hi
  have hslots : (s.calls i).slots = FileManager.saved (s.calls i).trace := by
    rw [DownloadCall.slots, DownloadCall.current, hx]
    exact List.append_nil _
  have hreach := h.reaches i
  rw [hx] at hreach
  have hends := hreach.ends (.done x)
  rw [List.append_nil] at hends
  refine ⟨hslots, ?_⟩
  rw [DownloadCall.returned, hx]
  rcases download_attachments_tidy hends (h.tidy i) with ⟨found, rfl, hm⟩ | ⟨e, rfl, hnone⟩
  · exact hm
  · refine ⟨?_, ?_⟩
    · rw [hnone]
      exact List.nil_sublist _
    · rw [hnone]
      rfl

omit [DecidableEq ι] in
theorem Inv.atomic (h : Inv w settings args files s) : Atomic w args files s := by
  have hpaths : ∀ i, (s.calls i).finished →
      ((s.calls i).slots.map Prod.snd) = (s.calls i).returned.map DownloadedFile.host_path := by
    intro i hi
    obtain ⟨hslots, _, hsame⟩ := h.returned hi
    rw [hslots, hsame]
  have hslot : ∀ i, (s.calls i).finished → ∀ f ∈ (s.calls i).returned,
      ∃ x ∈ (s.calls i).slots, x.2 = f.host_path := by
    intro i hi f hf
    have hmem : f.host_path ∈ (s.calls i).slots.map Prod.snd := by
      rw [hpaths i hi]
      exact List.mem_map_of_mem hf
    obtain ⟨x, hx, he⟩ := List.mem_map.mp hmem
    exact ⟨x, hx, he⟩
  constructor
  case untouched =>
    intro q hq
    apply h.rest q
    rintro i x hx rfl
    exact hq (h.fresh i x hx)
  case complete =>
    intro hall i
    obtain ⟨hslots, hids, hsame⟩ := h.returned (hall i)
    refine ⟨(FileManager.saved (s.calls i).trace).map Prod.fst, hids, ?_⟩
    rw [List.forall₂_map_left_iff]
    have hforall : List.Forall₂ (fun x path => files (w.realpath path) = none ∧
        s.files (w.realpath path) = some (w.content x.1)) (FileManager.saved (s.calls i).trace)
        ((FileManager.saved (s.calls i).trace).map Prod.snd) := by
      rw [List.forall₂_map_right_iff, List.forall₂_same]
      intro x hx
      exact ⟨h.fresh i x (hslots ▸ hx), h.saved i x hx⟩
    rw [hsame, List.forall₂_map_right_iff] at hforall
    exact hforall
  case own_path =>
    intro hall i
    have hnodup : (((s.calls i).slots.map Prod.snd).map w.realpath).Nodup := by
      rw [List.map_map]
      exact h.nodup i
    rw [hpaths i (hall i), List.map_map] at hnodup
    exact hnodup
  case apart =>
    intro hall i j hij f hf g hg
    obtain ⟨x, hx, hxf⟩ := hslot i (hall i) f hf
    obtain ⟨y, hy, hyg⟩ := hslot j (hall j) g hg
    rw [← hxf, ← hyg]
    exact h.apart i j hij x hx y hy
  case no_other =>
    intro hall q hq
    apply h.rest q
    intro i x hx
    have hmem : x.2 ∈ (s.calls i).returned.map DownloadedFile.host_path := by
      rw [← hpaths i (hall i)]
      exact List.mem_map_of_mem hx
    obtain ⟨f, hf, he⟩ := List.mem_map.mp hmem
    rw [← he]
    exact hq i f hf

end Downloads

/-- However the calls interleave, and whatever the platform and the file system answer. -/
theorem download_attachments_atomic {ι : Type} [DecidableEq ι] (w : DownloadWorld)
    (settings : FileSettings) (args : ι → List String × String)
    (files : String → Option (List UInt8)) {s : Downloads ι}
    (h : Reach (Downloads.step w) (fun s a => Downloads.clean w settings s a = true)
      (· = Downloads.start settings args files) s) :
    Downloads.Atomic w args files s :=
  (Downloads.reach_inv h).atomic

/-! Two messages, each with a file of the same name -/

def sample_platform : DownloadWorld where
  realpath := id
  content file_id := if file_id = "f0" then [1, 2] else [3]

def sample_attachments (second : Bool) : List String × String :=
  (if second then ["f1"] else ["f0"], "u")

def sample_answers : (e : Effect) → e.Answer
  | .remember_channel .. | .update_reply .. | .makedirs _ | .get_file .. | .chmod _ => .ok ()
  | .get_cached_info _ => none
  | .path_exists _ => false
  | .uuid4_hex => "0123456789abcdef"
  | .get_instance_by_identity .. | .provision_instance .. => .error ⟨.other, ""⟩
  | .send_reply .. | .send_post_with_files .. | .dify_chat .. | .container_path_to_host .. =>
    .ok ""
  | .send_message .. => .ok ("", [])
  | .get_info _ => .ok (.obj [("name", .str "a.txt"), ("size", .num 2)])
  | .upload .. => .ok none

def no_files : String → Option (List UInt8) := fun _ => none

/-- The second call looks for the name when the first has opened its file. -/
def second_after_first : List (DownloadAction Bool) :=
  [.answer false sample_answers, .answer false sample_answers, .answer false sample_answers,
    .answer true sample_answers, .answer true sample_answers, .opened false, .chunk false 1,
    .answer true sample_answers, .answer true sample_answers, .opened true, .chunk true 5,
    .chunk false 5, .ended false, .ended true, .answer true sample_answers,
    .answer false sample_answers]

/-- Both calls find the name free. -/
def both_find_it_free : List (DownloadAction Bool) :=
  [.answer false sample_answers, .answer false sample_answers, .answer false sample_answers,
    .answer true sample_answers, .answer true sample_answers, .answer true sample_answers,
    .opened false, .chunk false 5, .ended false, .opened true, .chunk true 5, .ended true,
    .answer true sample_answers, .answer false sample_answers]

/-- The paths that a finished call returns. -/
def DownloadCall.host_paths (c : DownloadCall) : Option (List String) :=
  match c.task with
  | .done (.ok files) => some (files.map DownloadedFile.host_path)
  | _ => none

theorem DownloadCall.host_paths_some {c : DownloadCall} (h : c.host_paths = some paths) :
    c.finished ∧ c.returned.map DownloadedFile.host_path = paths := by
  rw [host_paths] at h
  split at h
  · next files ht =>
    refine ⟨⟨_, ht⟩, ?_⟩
    rw [returned, ht]
    exact Option.some.inj h
  · cases h

def both_paths (s : Downloads Bool) : Option (List String) × Option (List String) :=
  ((s.calls false).host_paths, (s.calls true).host_paths)

theorem download_attachments_atomic_ran : ∃ s : Downloads Bool,
    Downloads.Atomic sample_platform sample_attachments no_files s ∧
      both_paths s = (some ["/configs/u/workspace/downloads/a.txt"],
        some ["/configs/u/workspace/downloads/a_012345.txt"]) := by
  have hread : (exec (Downloads.step sample_platform)
      (Downloads.start {} sample_attachments no_files) second_after_first).map both_paths =
        some (some ["/configs/u/workspace/downloads/a.txt"],
          some ["/configs/u/workspace/downloads/a_012345.txt"]) := by decide +kernel
  have hmeets : Meets (Downloads.step sample_platform)
      (fun s a => Downloads.clean sample_platform {} s a = true)
      (Downloads.start {} sample_attachments no_files) second_after_first := by decide +kernel
  obtain ⟨s, hs, hval⟩ := Option.map_eq_some_iff.mp hread
  have hstart : Reach (Downloads.step sample_platform)
      (fun s a => Downloads.clean sample_platform {} s a = true)
      (· = Downloads.start {} sample_attachments no_files)
      (Downloads.start {} sample_attachments no_files) := .start rfl
  exact ⟨s, download_attachments_atomic sample_platform {} sample_attachments no_files
    (hstart.exec hmeets hs), hval⟩

/-- Both calls return the one file, which has the bytes of the second. -/
theorem same_names_collide : ¬ ∀ s : Downloads Bool,
    Reach (Downloads.step sample_platform) Any
      (· = Downloads.start {} sample_attachments no_files) s →
        Downloads.Atomic sample_platform sample_attachments no_files s := by
  intro h
  have hread : (exec (Downloads.step sample_platform)
      (Downloads.start {} sample_attachments no_files) both_find_it_free).map both_paths =
        some (some ["/configs/u/workspace/downloads/a.txt"],
          some ["/configs/u/workspace/downloads/a.txt"]) := by decide +kernel
  obtain ⟨s, hs, hval⟩ := Option.map_eq_some_iff.mp hread
  obtain ⟨hfirst, hsecond⟩ := Prod.mk.inj hval
  obtain ⟨hdone₀, hpaths₀⟩ := DownloadCall.host_paths_some hfirst
  obtain ⟨hdone₁, hpaths₁⟩ := DownloadCall.host_paths_some hsecond
  have hall : ∀ i, (s.calls i).finished := fun i =>
    match i with
    | false => hdone₀
    | true => hdone₁
  obtain ⟨f, hf, hfpath⟩ := List.mem_map.mp (hpaths₀ ▸ List.mem_cons_self)
  obtain ⟨g, hg, hgpath⟩ := List.mem_map.mp (hpaths₁ ▸ List.mem_cons_self)
  apply (h s (reach_of_exec rfl hs)).apart hall false true Bool.false_ne_true f hf g hg
  rw [hfpath, hgpath]

end ClawMux
