import Mathlib.Data.List.TakeWhile
import Mathlib.Tactic.IntervalCases
import ClawMux.Lib.Scan
import ClawMux.Services.GatewayFrames

namespace ClawMux
set_option autoImplicit true
open Lib Lib.Text

/-! What the patterns match -/

/-- The prefix before and after its dot. -/
def home : List Char := ['/', 'h', 'o', 'm', 'e', '/', 'n', 'o', 'd', 'e', '/']

def word : List Char := ['o', 'p', 'e', 'n', 'c', 'l', 'a', 'w']

def openclaw : List Char := word ++ ['/']

/-- What `raw_pattern` matches as a whole. -/
def IsPath (path : List Char) : Prop :=
  ∃ dot body, path = home ++ dot :: (openclaw ++ body) ∧ dot ≠ '\n' ∧ body ≠ [] ∧
    ∀ c ∈ body, path_char c = true

/-- No character that would go on with a path. -/
def Ended (rest : List Char) : Prop := ∀ c, rest.head? = some c → path_char c = false

theorem match_prefix_literal {w : List Char} (h : '.' ∉ w) :
    match_prefix (w ++ q) s = some tail ↔ ∃ s', s = w ++ s' ∧ match_prefix q s' = some tail := by
  induction w generalizing s with
  | nil => simp
  | cons p w ih =>
    have hp : p ≠ '.' := fun he => h (he ▸ List.mem_cons_self)
    have hw : '.' ∉ w := fun hm => h (List.mem_cons_of_mem _ hm)
    cases s with
    | nil =>
      refine iff_of_false (fun he => by cases he) ?_
      rintro ⟨s', he, -⟩
      cases he
    | cons c s =>
      rw [List.cons_append, match_prefix]
      by_cases hc : c = p
      · subst hc
        rw [if_pos (.inl rfl), ih hw]
        simp
      · rw [if_neg (by simp [hc, hp])]
        refine iff_of_false (fun he => by cases he) ?_
        rintro ⟨s', he, -⟩
        exact hc (List.cons.inj he).1

theorem match_prefix_iff : match_prefix openclaw_prefix.toList s = some tail ↔
    ∃ dot, dot ≠ '\n' ∧ s = home ++ dot :: (openclaw ++ tail) := by
  have hsplit : openclaw_prefix.toList = home ++ '.' :: (openclaw ++ []) := String.toList_ofList
  rw [hsplit, match_prefix_literal (by decide)]
  constructor
  · rintro ⟨s', rfl, hs⟩
    cases s' with
    | nil => cases hs
    | cons dot s' =>
      unfold match_prefix at hs
      split at hs
      · rename_i hdot
        obtain ⟨tail', rfl, ht⟩ := (match_prefix_literal (by decide)).mp hs
        cases ht
        refine ⟨dot, ?_, rfl⟩
        rcases hdot with rfl | ⟨-, hdot⟩
        · decide
        · exact hdot
      · cases hs
  · rintro ⟨dot, hdot, rfl⟩
    refine ⟨_, rfl, ?_⟩
    unfold match_prefix
    rw [if_pos (.inr ⟨rfl, hdot⟩)]
    exact (match_prefix_literal (by decide)).mpr ⟨tail, rfl, rfl⟩

theorem ended_dropWhile (s : List Char) : Ended (s.dropWhile path_char) := by
  intro c hc
  have hnot := List.head?_dropWhile_not path_char s
  rw [hc] at hnot
  exact hnot

theorem dropWhile_path {body : List Char} (hbody : ∀ c ∈ body, path_char c = true)
    (hend : Ended rest) : (body ++ rest).dropWhile path_char = rest := by
  rw [List.dropWhile_append_of_pos hbody]
  cases rest with
  | nil => rfl
  | cons c rest => rw [List.dropWhile_cons_of_neg (by simp [hend c rfl])]

theorem raw_pattern_parts {body : List Char} (hdot : dot ≠ '\n')
    (hbody : ∀ c ∈ body, path_char c = true) (hend : Ended rest) :
    raw_pattern (home ++ dot :: (openclaw ++ (body ++ rest))) =
      if body = [] then none else some (home ++ dot :: (openclaw ++ body), rest) := by
  rw [raw_pattern, match_prefix_iff.mpr ⟨dot, hdot, rfl⟩]
  simp only [dropWhile_path hbody hend]
  by_cases hne : body = []
  · rw [if_pos hne, if_pos (by simp [hne])]
  · rw [if_neg hne, if_neg (by simpa using hne)]
    have hs : home ++ dot :: (openclaw ++ (body ++ rest)) =
        (home ++ dot :: (openclaw ++ body)) ++ rest := by
      simp
    rw [hs, List.length_append, Nat.add_sub_cancel, List.take_left']
    rfl

theorem raw_pattern_shape (h : raw_pattern s = some (x, rest)) :
    s = x ++ rest ∧ IsPath x ∧ Ended rest := by
  cases htail : match_prefix openclaw_prefix.toList s with
  | none =>
    rw [raw_pattern, htail] at h
    cases h
  | some tail =>
    obtain ⟨dot, hdot, rfl⟩ := match_prefix_iff.mp htail
    have hbody : ∀ c ∈ tail.takeWhile path_char, path_char c = true :=
      fun c hc => List.mem_takeWhile_imp hc
    rw [← List.takeWhile_append_dropWhile (p := path_char) (l := tail),
      raw_pattern_parts hdot hbody (ended_dropWhile tail)] at h
    split at h
    · cases h
    · rename_i hne
      cases h
      refine ⟨?_, ⟨dot, _, rfl, hdot, hne, hbody⟩, ended_dropWhile tail⟩
      simp

theorem raw_pattern_takes (hp : IsPath x) (hend : Ended rest) :
    raw_pattern (x ++ rest) = some (x, rest) := by
  obtain ⟨dot, body, rfl, hdot, hne, hbody⟩ := hp
  have hparts := raw_pattern_parts hdot hbody hend
  rw [if_neg hne] at hparts
  rw [← hparts]
  simp

theorem raw_pattern_sound : Matcher.Sound raw_pattern := by
  intro s x rest h
  obtain ⟨hs, ⟨dot, body, rfl, -⟩, -⟩ := raw_pattern_shape h
  exact ⟨hs, List.append_ne_nil_of_left_ne_nil (by decide) _⟩

/-- A path that is found is not followed by another one. -/
theorem raw_pattern_separated : Matcher.Separated raw_pattern := by
  intro s x rest h
  obtain ⟨-, -, hend⟩ := raw_pattern_shape h
  cases hr : raw_pattern rest with
  | none => rfl
  | some found =>
    obtain ⟨y, rest'⟩ := found
    obtain ⟨rfl, ⟨dot, body, rfl, -⟩, -⟩ := raw_pattern_shape hr
    exact absurd (hend '/' rfl) (by decide)

/-- After the prefix one character is enough for a match. -/
theorem raw_pattern_found (hdot : dot ≠ '\n') (hc : path_char c = true) :
    raw_pattern (home ++ dot :: (openclaw ++ c :: after)) ≠ none := by
  intro h
  rw [← List.takeWhile_append_dropWhile (p := path_char) (l := c :: after),
    raw_pattern_parts hdot (fun c hc => List.mem_takeWhile_imp hc) (ended_dropWhile _),
    List.takeWhile_cons_of_pos hc, if_neg (List.cons_ne_nil _ _)] at h
  cases h

theorem raw_pattern_none (h : ∀ dot c after, dot ≠ '\n' → path_char c = true →
    s ≠ home ++ dot :: (openclaw ++ c :: after)) : raw_pattern s = none := by
  cases hr : raw_pattern s with
  | none => rfl
  | some found =>
    obtain ⟨y, rest⟩ := found
    obtain ⟨rfl, ⟨dot, body, rfl, hdot, hne, hbody⟩, -⟩ := raw_pattern_shape hr
    obtain ⟨c, body, rfl⟩ := List.exists_cons_of_ne_nil hne
    refine absurd ?_ (h dot c (body ++ rest) hdot (hbody c List.mem_cons_self))
    simp

theorem raw_pattern_head (h : c ≠ '/') : raw_pattern (c :: s) = none := by
  apply raw_pattern_none
  rintro dot d after - - he
  exact h (List.cons.inj he).1

theorem raw_pattern_second (h : c ≠ 'h') : raw_pattern ('/' :: c :: s) = none := by
  apply raw_pattern_none
  rintro dot d after - - he
  exact h (List.cons.inj (List.cons.inj he).2).1

/-- The prefix does not go on behind its dot with another character. -/
theorem raw_pattern_dot (h : c ≠ 'o') : raw_pattern (home ++ dot :: c :: s) = none := by
  apply raw_pattern_none
  rintro dot' d after - - he
  have htail := List.append_cancel_left he
  exact h (List.cons.inj (List.cons.inj htail).2).1

/-! What is left when the paths are removed -/

/-- The scan for paths comes to the rest. -/
def Arrives (s rest : List Char) : Prop := ∃ hits kept, Scan raw_pattern s hits kept rest

/-- Somewhere in the text `raw_pattern` matches. -/
def Leaks (s : List Char) : Prop := ∃ before v, s = before ++ v ∧ raw_pattern v ≠ none

theorem leaks_iff : Leaks s ↔ ∃ dot c, dot ≠ '\n' ∧ path_char c = true ∧
    home ++ dot :: (openclaw ++ [c]) <:+: s := by
  constructor
  · rintro ⟨before, v, rfl, hv⟩
    by_contra hno
    refine hv (raw_pattern_none ?_)
    rintro dot c after hdot hc rfl
    refine hno ⟨dot, c, hdot, hc, before, after, ?_⟩
    simp
  · rintro ⟨dot, c, hdot, hc, before, after, rfl⟩
    refine ⟨before, home ++ dot :: (openclaw ++ c :: after), by simp, ?_⟩
    intro hnone
    exact raw_pattern_found hdot hc hnone

/-- A path directly behind the beginning of the prefix, where the text goes on with its end: the
dot matches the character that ends the path. -/
def Joined (s : List Char) : Prop :=
  ∃ path dot c after, Arrives s (home ++ (path ++ dot :: (openclaw ++ c :: after))) ∧
    IsPath path ∧ dot ≠ '\n' ∧ path_char dot = false ∧ path_char c = true ∧
    raw_pattern ('/' :: c :: after) = none ∧ raw_pattern (c :: after) = none

theorem scan_next (hc : path_char c = true) (h : Scan raw_pattern s hits (c :: kept) rest) :
    ∃ v hits', s = c :: v ∧ raw_pattern (c :: v) = none ∧ Scan raw_pattern v hits' kept rest := by
  obtain ⟨v, hits', hnone, hv, rfl | ⟨x, hx⟩⟩ := h.next raw_pattern_separated
  · exact ⟨v, hits', rfl, hnone, hv⟩
  · obtain ⟨-, -, hend⟩ := raw_pattern_shape hx
    exact absurd (hc.symm.trans (hend c rfl)) (by decide)

/-- What is kept and consists of path characters stands together in the text. -/
theorem scan_run (hw : ∀ c ∈ w, path_char c = true)
    (h : Scan raw_pattern s hits (w ++ kept) rest) :
    ∃ v hits', s = w ++ v ∧ Scan raw_pattern v hits' kept rest := by
  induction w generalizing s hits with
  | nil => exact ⟨s, hits, rfl, h⟩
  | cons c w ih =>
    obtain ⟨v, hits', rfl, -, hv⟩ := scan_next (hw c List.mem_cons_self) h
    obtain ⟨v', hits'', rfl, hv'⟩ := ih (fun c hc => hw c (List.mem_cons_of_mem _ hc)) hv
    exact ⟨v', hits'', rfl, hv'⟩

theorem scan_word (hw : '/' ∉ w) (h : Scan raw_pattern s hits kept rest) :
    Scan raw_pattern (w ++ s) hits (w ++ kept) rest := by
  induction w with
  | nil => exact h
  | cons c w ih =>
    obtain ⟨hc, hw⟩ := List.ne_and_not_mem_of_not_mem_cons hw
    exact .pass (raw_pattern_head (Ne.symm hc)) (ih hw)

theorem home_chars : ∀ c ∈ home, path_char c = true := List.all_eq_true.mp (by decide)

theorem word_chars : ∀ c ∈ word, path_char c = true := List.all_eq_true.mp (by decide)

theorem joined_of_leaks (h : Scan raw_pattern s hits kept []) (hl : Leaks kept) : Joined s := by
  obtain ⟨left, right, hk, hr⟩ := hl
  have hshape : ∃ dot c after, dot ≠ '\n' ∧ path_char c = true ∧
      right = home ++ dot :: (openclaw ++ c :: after) := by
    by_contra hno
    refine hr (raw_pattern_none ?_)
    rintro dot c after hdot hc rfl
    exact hno ⟨dot, c, after, hdot, hc, rfl⟩
  obtain ⟨dot, c, kept', hdot, hc, rfl⟩ := hshape
  obtain ⟨hits₁, v₀, hits₂, hleft, hright⟩ := h.split hk
  -- the pieces of the prefix stand together, but for a path before the character at its dot
  have hopen : openclaw ++ c :: kept' = word ++ '/' :: c :: kept' := rfl
  rw [hopen] at hright
  obtain ⟨w, -, hw, hnone, -⟩ := scan_next (by decide) hright
  obtain ⟨v₁, hits₃, hv₀, hscan₁⟩ := scan_run home_chars hright
  obtain ⟨v₂, hits₄, -, hscan₂, hjoin⟩ := hscan₁.next raw_pattern_separated
  obtain ⟨v₃, hits₅, rfl, hscan₃⟩ := scan_run word_chars hscan₂
  obtain ⟨v₄, hits₆, rfl, hslash, hscan₄⟩ := scan_next (by decide) hscan₃
  obtain ⟨after, hits₇, rfl, hlast, -⟩ := scan_next hc hscan₄
  rcases hjoin with rfl | ⟨path, hpath⟩
  · rw [← hw, hv₀] at hnone
    exact absurd hnone (raw_pattern_found hdot hc)
  · obtain ⟨rfl, hp, hend⟩ := raw_pattern_shape hpath
    exact ⟨path, dot, c, after, ⟨hits₁, left, hv₀ ▸ hleft⟩, hp, hdot, hend dot rfl, hc, hslash,
      hlast⟩

/-- The beginning of the prefix before a path is passed over. -/
theorem scan_home (hp : IsPath path) (h : Scan raw_pattern (path ++ s) hits kept rest) :
    Scan raw_pattern (home ++ (path ++ s)) hits (home ++ kept) rest := by
  obtain ⟨dot, body, rfl, -⟩ := hp
  have hlast : Scan raw_pattern ('/' :: (home ++ dot :: (openclaw ++ body) ++ s)) hits
      ('/' :: kept) rest := .pass (raw_pattern_second (by decide)) h
  have hnode := scan_word (by decide : '/' ∉ ['n', 'o', 'd', 'e']) hlast
  have hsecond := Scan.pass (raw_pattern_second (by decide)) hnode
  have hhome := scan_word (by decide : '/' ∉ ['h', 'o', 'm', 'e']) hsecond
  exact .pass (raw_pattern_dot (by decide)) hhome

theorem leaks_of_joined (h : Joined s) :
    ∃ hits kept, Scan raw_pattern s hits kept [] ∧ Leaks kept := by
  obtain ⟨path, dot, c, after, ⟨hits, kept, hscan⟩, hp, hdot, hend, hc, hslash, hlast⟩ := h
  have hafter := Scan.all raw_pattern_sound after.length after (Nat.le_refl _)
  have hopen := scan_word (by decide : '/' ∉ word) (.pass hslash (.pass hlast hafter))
  have hnot : dot ≠ '/' := by
    rintro rfl
    exact absurd hend (by decide)
  have hfound : raw_pattern (path ++ dot :: (openclaw ++ c :: after)) =
      some (path, dot :: (openclaw ++ c :: after)) := by
    refine raw_pattern_takes hp ?_
    rintro d hd
    cases hd
    exact hend
  have hrest := scan_home hp (.hit hfound (.pass (raw_pattern_head hnot) hopen))
  refine ⟨_, _, hscan.append hrest, ?_⟩
  refine ⟨kept, _, rfl, fun hnone => ?_⟩
  exact raw_pattern_found hdot hc hnone

/-- The text without its paths still holds one exactly when two pieces join to it. -/
theorem leaks_eraseAll : Leaks (eraseAll raw_pattern s.length s) ↔ Joined s := by
  have hall := Scan.all raw_pattern_sound s.length s (Nat.le_refl _)
  constructor
  · exact joined_of_leaks hall
  · intro h
    obtain ⟨hits, kept, hscan, hl⟩ := leaks_of_joined h
    rw [(hall.unique raw_pattern_sound hscan).2]
    exact hl

theorem path_char_not_space (h : path_char c = true) : isSpace c = false := by
  rw [path_char] at h
  simp only [Bool.not_eq_true', Bool.or_eq_false_iff] at h
  exact h.1

theorem leaks_strip {s : String} : Leaks (strip s).toList ↔ Leaks s.toList := by
  have hiff : ∀ dot c, path_char c = true →
      (home ++ dot :: (openclaw ++ [c]) <:+: (strip s).toList ↔
        home ++ dot :: (openclaw ++ [c]) <:+: s.toList) := by
    intro dot c hc
    have hw : home ++ dot :: (openclaw ++ [c]) =
        '/' :: ((home.tail ++ dot :: openclaw) ++ [c]) := by simp [home]
    rw [hw]
    exact infix_strip (by decide) (path_char_not_space hc)
  rw [leaks_iff, leaks_iff]
  constructor
  · rintro ⟨dot, c, hdot, hc, hin⟩
    exact ⟨dot, c, hdot, hc, (hiff dot c hc).mp hin⟩
  · rintro ⟨dot, c, hdot, hc, hin⟩
    exact ⟨dot, c, hdot, hc, (hiff dot c hc).mpr hin⟩

theorem strip_path (h : IsPath path) : strip (String.ofList path) = String.ofList path := by
  obtain ⟨dot, body, rfl, -, hne, hbody⟩ := h
  obtain ⟨init, c, rfl⟩ := (List.eq_nil_or_concat' body).resolve_left hne
  have hw : home ++ dot :: (openclaw ++ (init ++ [c])) =
      '/' :: ((home.tail ++ dot :: (openclaw ++ init)) ++ [c]) := by simp [home]
  rw [hw]
  exact strip_ends (by decide) (path_char_not_space (hbody c (by simp)))

/-! The files of a final -/

/-- The links that are removed from a text. -/
def links (text : List Char) : List (List Char) := findAll markdown_pattern text.length text

def unlinked (text : List Char) : List Char := eraseAll markdown_pattern text.length text

/-- A path that path_pattern reads in the text: no path that begins before it runs into it, and it
is read to its end. -/
def Stands (text path : List Char) : Prop :=
  ∃ rest, Arrives text (path ++ rest) ∧ IsPath path ∧ Ended rest

theorem stands_iff : Stands text path ↔ path ∈ findAll raw_pattern text.length text := by
  rw [mem_findAll raw_pattern_sound]
  constructor
  · rintro ⟨rest, ⟨hits, kept, hscan⟩, hp, hend⟩
    exact ⟨hits, kept, _, rest, hscan, raw_pattern_takes hp hend⟩
  · rintro ⟨hits, kept, v, rest, hscan, hv⟩
    obtain ⟨rfl, hp, hend⟩ := raw_pattern_shape hv
    exact ⟨rest, ⟨hits, kept, hscan⟩, hp, hend⟩

/-! Where a path is read -/

/-- The text ends in a path prefix with path characters behind it, so that a path which begins there
goes on with a slash that follows. -/
def RunsOn (s : List Char) (dot : Char) : Prop :=
  ∃ before body, s = before ++ (home ++ dot :: (word ++ body)) ∧ dot ≠ '\n' ∧
    (∀ c ∈ body, path_char c = true) ∧ (body = [] ∨ body.head? = some '/')

/-- A path that goes on with the beginning of another one has its own prefix before it. -/
theorem over_home (hp : IsPath (h₁ ++ h₂)) (hne : h₁ ≠ []) (hv : h₂ ++ y = home ++ z) :
    ∃ dot body, h₁ = home ++ dot :: (word ++ body) ∧ dot ≠ '\n' ∧
      (∀ c ∈ body, path_char c = true) ∧ (body = [] ∨ body.head? = some '/') := by
  obtain ⟨dot, rest, hs, hdot, -, hrest⟩ := hp
  have hsplit : home ++ dot :: (openclaw ++ rest) = home ++ dot :: word ++ '/' :: rest := by
    simp [openclaw]
  rw [hsplit] at hs
  rcases List.append_eq_append_iff.mp hs with ⟨beyond, hover, rfl⟩ | ⟨more, rfl, hmore⟩
  · by_cases hnil : beyond = []
    · subst hnil
      rw [List.append_nil] at hover
      exact ⟨dot, [], by rw [← hover]; simp, hdot, (fun c hc => by cases hc), .inl rfl⟩
    · have hpos := List.length_pos_of_ne_nil hne
      have hpos' := List.length_pos_of_ne_nil hnil
      have hlen : 20 = h₁.length + beyond.length := by
        rw [← List.length_append, ← hover]
        rfl
      have hdrop : beyond = (home ++ dot :: word).drop h₁.length := by
        rw [hover, List.drop_left]
      have hlt : h₁.length < 20 := by omega
      rw [hdrop] at hv
      generalize h₁.length = k at *
      interval_cases k <;> simp [home, word] at hv
  · refine ⟨dot, more, by simp, hdot, fun c hc => ?_, ?_⟩
    · have hin : c ∈ '/' :: rest := hmore ▸ List.mem_append_left _ hc
      rcases List.mem_cons.mp hin with rfl | hin
      · decide
      · exact hrest c hin
    · cases more with
      | nil => exact .inl rfl
      | cons c more =>
        obtain ⟨rfl, -⟩ := List.cons.inj hmore
        exact .inr rfl

/-- A path is read unless one that begins before it runs on to it. -/
theorem arrives_or_runsOn (hv : v = home ++ z) :
    Arrives (before ++ v) v ∨ ∃ x h₁ h₂ y dot body, before = x ++ h₁ ∧ v = h₂ ++ y ∧ h₂ ≠ [] ∧
      h₁ = home ++ dot :: (word ++ body) ∧ dot ≠ '\n' ∧ (∀ c ∈ body, path_char c = true) ∧
      (body = [] ∨ body.head? = some '/') := by
  rcases Scan.reach raw_pattern_sound before v with
    h | ⟨x, h₁, h₂, y, _, _, hx, hy, hne₁, hne₂, -, hm⟩
  · exact .inl h
  · obtain ⟨-, hp, -⟩ := raw_pattern_shape hm
    obtain ⟨dot, body, hshape⟩ := over_home hp hne₁ (hy.symm.trans hv)
    exact .inr ⟨x, h₁, h₂, y, dot, body, hx, hy, hne₂, hshape⟩

theorem IsPath.home (h : IsPath path) : ∃ z, path = ClawMux.home ++ z := by
  obtain ⟨dot, body, rfl, -⟩ := h
  exact ⟨_, rfl⟩

/-! The links -/

theorem markdown_pattern_shape (h : markdown_pattern s = some (x, rest)) : s = x ++ rest ∧
    ∃ label target, x = '[' :: (label ++ ']' :: '(' :: (target ++ [')'])) ∧ ']' ∉ label ∧
      ∃ dot body, target = home ++ dot :: (openclaw ++ body) ∧ body ≠ [] ∧ ')' ∉ body := by
  unfold markdown_pattern at h
  split at h
  · rename_i label
    split at h
    · rename_i link hlink
      split at h
      · cases h
      · rename_i tail htail
        split at h
        · rename_i rest' hrest
          split at h
          · cases h
          · rename_i hne
            obtain ⟨dot, -, rfl⟩ := match_prefix_iff.mp htail
            have hlabel := List.takeWhile_append_dropWhile (p := (· ≠ ']')) (l := label)
            have hbody := List.takeWhile_append_dropWhile (p := (· ≠ ')')) (l := tail)
            have hno : ']' ∉ label.takeWhile (· ≠ ']') := fun hm => by
              simpa using List.mem_takeWhile_imp hm
            have hno' : ')' ∉ tail.takeWhile (· ≠ ')') := fun hm => by
              simpa using List.mem_takeWhile_imp hm
            rw [hlink] at hlabel
            rw [hrest] at hbody
            generalize label.takeWhile (· ≠ ']') = label₀ at hlabel hno
            generalize tail.takeWhile (· ≠ ')') = body at hbody hno'
            have hs : '[' :: label = '[' :: (label₀ ++ ']' :: '(' ::
                (home ++ dot :: (openclaw ++ body) ++ [')'])) ++ rest' := by
              rw [← hlabel, ← hbody]
              simp
            cases h
            have htake : ('[' :: label).take (('[' :: label).length - rest.length) =
                '[' :: (label₀ ++ ']' :: '(' :: (home ++ dot :: (openclaw ++ body) ++ [')'])) := by
              rw [hs, List.length_append, Nat.add_sub_cancel, List.take_left']
              rfl
            refine ⟨by rw [htake, hs], label₀, _, htake, hno, dot, body, rfl, ?_, hno'⟩
            intro hnil
            refine hne ?_
            rw [← hbody, hnil]
            rfl
        · cases h
    · cases h
  · cases h

theorem markdown_pattern_sound : Matcher.Sound markdown_pattern := by
  intro s x rest h
  obtain ⟨hs, label, target, rfl, -⟩ := markdown_pattern_shape h
  exact ⟨hs, List.cons_ne_nil _ _⟩

/-- A link ends in a character that ends a path. -/
theorem markdown_pattern_last (s x rest : List Char) (h : markdown_pattern s = some (x, rest)) :
    ∃ init c, x = init ++ [c] ∧ path_char c = false := by
  obtain ⟨-, label, target, rfl, -⟩ := markdown_pattern_shape h
  exact ⟨'[' :: (label ++ ']' :: '(' :: target), ')', by simp, by decide⟩

/-! What the links do to the paths -/

/-- A path that is read in the text without its links, at its place in the text: `before` comes
before it and `rest` begins with it. -/
structure PathPlace (text path before rest : List Char) : Prop where
  split : text = before ++ rest
  slash : rest.head? = some '/'
  read : ∃ hits left hits' right, Scan markdown_pattern text hits left rest ∧
    Scan markdown_pattern rest hits' (path ++ right) [] ∧
    Arrives (unlinked text) (path ++ right) ∧ IsPath path ∧ Ended right

/-- A link is taken out of the path or from right behind it, or the text before it ends in a path
prefix with a character at its dot that ends a path. -/
def Disturbed (text path : List Char) : Prop :=
  ∃ before rest, PathPlace text path before rest ∧
    ((∃ p₁ p₂ v link after, path = p₁ ++ p₂ ∧ p₁ ≠ [] ∧ rest = p₁ ++ v ∧
        markdown_pattern v = some (link, after)) ∨
      ∃ dot, RunsOn before dot ∧ path_char dot = false)

theorem Disturbed.stands (h : Disturbed text path) : Stands (unlinked text) path := by
  obtain ⟨before, rest, hplace, -⟩ := h
  obtain ⟨hits, left, hits', right, -, -, harr, hp, hend⟩ := hplace.read
  exact ⟨right, harr, hp, hend⟩

theorem prefix_chars (hdot : path_char dot = true) (hbody : ∀ c ∈ body, path_char c = true) :
    ∀ c ∈ home ++ dot :: (word ++ body), path_char c = true := by
  intro c hc
  rcases List.mem_append.mp hc with hc | hc
  · exact home_chars c hc
  · rcases List.mem_cons.mp hc with rfl | hc
    · exact hdot
    · rcases List.mem_append.mp hc with hc | hc
      · exact word_chars c hc
      · exact hbody c hc

/-- A prefix with path characters only behind it is read, or a path that begins before it. -/
theorem not_arrives (hchars : ∀ c ∈ h₁, path_char c = true)
    (hh : h₁ = home ++ dot :: (word ++ body)) (hdot : dot ≠ '\n')
    (hhead : body = [] ∨ body.head? = some '/') :
    ¬ Arrives (left ++ (h₁ ++ (home ++ z))) (home ++ z) := by
  rintro ⟨hits, kept, hscan⟩
  have hne : h₁ ≠ [] := by
    rw [hh]
    exact List.append_ne_nil_of_left_ne_nil (by decide) _
  -- the match runs over the home of what follows
  have htake : (home ++ z).takeWhile path_char = home ++ z.takeWhile path_char :=
    List.takeWhile_append_of_pos home_chars
  have hpath : IsPath (h₁ ++ (home ++ z).takeWhile path_char) := by
    have hrun : ∀ c ∈ (home ++ z).takeWhile path_char, path_char c = true :=
      fun c hc => List.mem_takeWhile_imp hc
    rcases hhead with rfl | hslash
    · refine ⟨dot, (home ++ z.takeWhile path_char).tail, ?_, hdot, ?_, ?_⟩
      · rw [htake, hh]
        simp [openclaw, home]
      · exact List.cons_ne_nil _ _
      · exact fun c hc => hrun c (htake ▸ List.mem_of_mem_tail hc)
    · obtain ⟨rest, rfl⟩ : ∃ rest, body = '/' :: rest := by
        cases body with
        | nil => cases hslash
        | cons c rest => exact ⟨rest, by cases hslash; rfl⟩
      refine ⟨dot, rest ++ (home ++ z).takeWhile path_char, ?_, hdot, ?_, ?_⟩
      · rw [hh]
        simp [openclaw]
      · rw [htake]
        exact List.append_ne_nil_of_right_ne_nil _ (List.cons_ne_nil _ _)
      · intro c hc
        rcases List.mem_append.mp hc with hc | hc
        · exact hchars c (by rw [hh]; simp [hc])
        · exact hrun c hc
  have hm := raw_pattern_takes hpath (ended_dropWhile (home ++ z))
  rw [List.append_assoc, List.takeWhile_append_dropWhile] at hm
  have hover : (home ++ z).takeWhile path_char ≠ [] := by
    rw [htake]
    exact List.cons_ne_nil _ _
  rcases Scan.reach raw_pattern_sound left (h₁ ++ (home ++ z)) with ⟨_, _, harr⟩ |
    ⟨x, g₁, g₂, y, _, _, rfl, hy, hne₁, hne₂, hat, hm'⟩
  · exact harr.not_inside raw_pattern_sound hm hne hover hscan
  · obtain ⟨-, -, hend⟩ := raw_pattern_shape hm'
    have hnot : y ≠ home ++ z := by
      rintro rfl
      exact absurd (hend '/' rfl) (by decide)
    rcases List.append_eq_append_iff.mp hy with ⟨beyond, rfl, hv⟩ | ⟨beyond, rfl, hv⟩
    · have hnil : beyond ≠ [] := by
        rintro rfl
        exact hnot hv.symm
      have hm' : raw_pattern (g₁ ++ h₁ ++ (home ++ z)) = some (g₁ ++ h₁ ++ beyond, y) := by
        rw [List.append_assoc, List.append_assoc]
        exact hm'
      rw [← List.append_assoc g₁] at hat
      exact hat.not_inside raw_pattern_sound hm' (List.append_ne_nil_of_left_ne_nil hne₁ _) hnil
        hscan
    · cases beyond with
      | nil => exact hnot hv
      | cons c beyond =>
        have hc := hchars c (by simp)
        rw [hend c (by rw [hv]; rfl)] at hc
        cases hc

/-- A path that is not disturbed is read in the text itself. -/
theorem stands_or_disturbed (h : Stands (unlinked text) path) :
    Stands text path ∨ Disturbed text path := by
  obtain ⟨right, harr, hp, hend⟩ := h
  obtain ⟨hits₀, kept₀, hscan⟩ := harr
  obtain ⟨left, hleft⟩ := hscan.ends raw_pattern_sound
  have hall : Scan markdown_pattern text (links text) (unlinked text) [] :=
    Scan.all markdown_pattern_sound text.length text (Nat.le_refl _)
  obtain ⟨hits₁, v₀, hits₂, h₁, h₂⟩ := hall.split hleft
  obtain ⟨z, hz⟩ := hp.home
  have hslash : path ++ right = '/' :: (path.tail ++ right) := by
    rw [hz]
    rfl
  rw [hslash] at h₂
  obtain ⟨hits₃, v, hits₄, h₃, hnone, h₄⟩ := h₂.first
  have hon : Scan markdown_pattern ('/' :: v) hits₄ (path ++ right) [] := by
    rw [hslash]
    exact .pass hnone h₄
  have hat := h₁.append h₃
  rw [List.append_nil] at hat
  obtain ⟨before, hsplit⟩ := hat.ends markdown_pattern_sound
  have hplace : PathPlace text path before ('/' :: v) :=
    ⟨hsplit, rfl, _, left, _, right, hat, hon, ⟨_, _, hscan⟩, hp, hend⟩
  rcases hon.run with ⟨b, hits₅, hv, h₅⟩ | ⟨w₁, w₂, x, link, after, hw, hne, hv, hlink⟩
  · by_cases hb : Ended b
    · have hhome : path ++ b = home ++ (z ++ b) := by rw [hz, List.append_assoc]
      rcases @arrives_or_runsOn (path ++ b) (z ++ b) before hhome with hreads |
        ⟨x, g₁, g₂, y, dot, body, hx, hy, hne, hh, hdot, hbody, hhead⟩
      · rw [← hv, ← hsplit, hv] at hreads
        exact .inl ⟨b, hreads, hp, hb⟩
      · cases hdc : path_char dot with
        | false =>
          refine .inr ⟨before, _, hplace, .inr ⟨dot, ⟨x, body, ?_, hdot, hbody, hhead⟩, hdc⟩⟩
          rw [hx, hh]
        | true =>
          -- without the links the prefix stands there as well
          have hchars : ∀ c ∈ g₁, path_char c = true := by
            rw [hh]
            exact prefix_chars hdc hbody
          rw [hsplit, hx, List.append_assoc] at hat
          obtain ⟨left', rfl⟩ := hat.kept_end markdown_pattern_sound markdown_pattern_last hchars
          have harr : Arrives (unlinked text) (path ++ right) := ⟨_, _, hscan⟩
          rw [hleft, hz, List.append_assoc home, List.append_assoc left'] at harr
          exact absurd harr (not_arrives hchars hh hdot hhead)
    · refine .inr ⟨before, _, hplace, .inl ?_⟩
      cases h₅ with
      | done =>
        refine absurd ?_ hb
        rintro c hc
        cases hc
      | pass hc h =>
        refine absurd ?_ hb
        rintro c' hc'
        cases hc'
        exact hend _ rfl
      | hit hx _ =>
        refine ⟨path, [], _, _, _, (List.append_nil _).symm, ?_, hv, hx⟩
        rw [hz]
        exact List.append_ne_nil_of_left_ne_nil (by decide) _
  · refine .inr ⟨before, _, hplace, .inl ⟨w₁, w₂, x, link, after, hw, ?_, hv, hlink⟩⟩
    rintro rfl
    rw [List.nil_append] at hv
    rw [hv, hlink] at hnone
    cases hnone

/-- A target of path characters is read unless a path that begins before it runs on to it. -/
theorem target_stands (hlabel : ']' ∉ label)
    (hlink : '[' :: (label ++ ']' :: '(' :: (target ++ [')'])) ∈ links text)
    (hchars : ∀ c ∈ target, path_char c = true) : Stands text target ∨
      ∃ before after dot,
        text = before ++ '[' :: (label ++ ']' :: '(' :: (target ++ [')'])) ++ after ∧
        RunsOn (before ++ '[' :: (label ++ [']', '('])) dot := by
  obtain ⟨hits, kept, v, after, hscan, hm⟩ := (mem_findAll markdown_pattern_sound).mp hlink
  obtain ⟨before, hsplit⟩ := hscan.ends markdown_pattern_sound
  obtain ⟨rfl, label', target', he, hlabel', dot, body, htarget, hne, -⟩ :=
    markdown_pattern_shape hm
  obtain ⟨rfl, hrest⟩ := append_sep_inj hlabel hlabel' (List.cons.inj he).2
  have htarget' : target = target' := List.append_cancel_right (List.cons.inj hrest).2
  rw [← htarget'] at htarget
  rw [htarget] at hchars
  have hdot : dot ≠ '\n' := by
    rintro rfl
    exact absurd (hchars '\n' (by simp)) (by decide)
  have hpath : IsPath target :=
    ⟨dot, body, htarget, hdot, hne, fun c hc => hchars c (by simp [hc])⟩
  have hplace : text = (before ++ '[' :: (label ++ [']', '('])) ++ (target ++ ')' :: after) := by
    rw [hsplit]
    simp
  have hhome : target ++ ')' :: after = home ++ (dot :: (openclaw ++ body) ++ ')' :: after) := by
    rw [htarget, List.append_assoc]
  rcases @arrives_or_runsOn _ _ (before ++ '[' :: (label ++ [']', '('])) hhome with hreads |
    ⟨x, h₁, h₂, y, dot', body', hx, -, -, hh, hshape⟩
  · rw [← hplace] at hreads
    refine .inl ⟨_, hreads, hpath, ?_⟩
    rintro c hc
    cases hc
    rfl
  · refine .inr ⟨before, after, dot', ?_, x, body', ?_, hshape⟩
    · rw [hsplit, List.append_assoc]
    · rw [hx, hh]

/-- A target with another character in it is no path. -/
theorem target_no_path (hpre : startsWith (String.ofList target) openclaw_prefix = true)
    (hc : c ∈ target) (hstop : path_char c = false) : ¬ Stands text target := by
  rintro ⟨rest, -, ⟨dot, body, rfl, -, -, hbody⟩, -⟩
  rw [startsWith, String.toList_ofList, List.isPrefixOf_iff_prefix] at hpre
  obtain ⟨tail, htail⟩ := hpre
  have hsplit : openclaw_prefix.toList = home ++ '.' :: (openclaw ++ []) := String.toList_ofList
  rw [hsplit, List.append_assoc] at htail
  obtain ⟨rfl, -⟩ := List.cons.inj (List.append_cancel_left htail)
  have hslash : ∀ c ∈ '/' :: body, path_char c = true :=
    List.forall_mem_cons.mpr ⟨by decide, hbody⟩
  have hchars : ∀ c ∈ home ++ '.' :: (openclaw ++ body), path_char c = true :=
    prefix_chars (by decide) hslash
  rw [hchars c hc] at hstop
  cases hstop

theorem mem_append_new {paths : List String} :
    x ∈ append_new paths path ↔ x ∈ paths ∨ x = path := by
  rw [append_new]
  split
  · rename_i hm
    refine ⟨.inl, ?_⟩
    rintro (h | rfl)
    · exact h
    · exact hm
  · simp

theorem mem_foldl_append_new {found paths : List String} :
    x ∈ found.foldl append_new paths ↔ x ∈ paths ∨ x ∈ found := by
  induction found generalizing paths with
  | nil => simp
  | cons path found ih => simp [ih, mem_append_new, or_assoc]

/-- The files are those that the payload lists, and the paths that stand in the text. -/
theorem mem_media_paths {text : String} : String.ofList path ∈ media_paths payload text ↔
    String.ofList path ∈ media_urls payload ∨ Stands text.toList path := by
  rw [media_paths, mem_foldl_append_new, stands_iff]
  refine or_congr_right ?_
  have hlen : text.length = text.toList.length := String.length_toList.symm
  rw [hlen, List.mem_map]
  constructor
  · rintro ⟨found, hfound, he⟩
    obtain ⟨-, -, hp, -⟩ := stands_iff.mpr hfound
    rw [strip_path hp] at he
    exact String.ofList_injective he ▸ hfound
  · intro hfound
    obtain ⟨-, -, hp, -⟩ := stands_iff.mpr hfound
    exact ⟨path, hfound, strip_path hp⟩

variable (payload : List (String × Json)) (text : String)

/-- Every internal target that is removed from the text is among the files, and no path is left. -/
structure Extracted : Prop where
  targets : ∀ label target, ']' ∉ label →
    '[' :: (label ++ ']' :: '(' :: (target ++ [')'])) ∈ links text.toList →
    startsWith (String.ofList target) openclaw_prefix = true →
    String.ofList target ∈ media_paths payload text
  paths : ∀ path ∈ findAll raw_pattern (unlinked text.toList).length (unlinked text.toList),
    String.ofList path ∈ media_paths payload text
  clean : ∀ before v, (clean_text text).toList = before ++ v → raw_pattern v = none

/-- A target with a character that ends a path is listed in the payload; a target that a path runs
on to, and a path that a link disturbs, is listed or stands elsewhere in the text; and the text
without its links has no pieces that join to a path. -/
structure Legible (urls : List String) (text : List Char) : Prop where
  unbroken : ∀ label target, ']' ∉ label →
    '[' :: (label ++ ']' :: '(' :: (target ++ [')'])) ∈ links text →
    startsWith (String.ofList target) openclaw_prefix = true →
    (∃ c ∈ target, path_char c = false) → String.ofList target ∈ urls
  reached : ∀ before label target after dot, ']' ∉ label →
    '[' :: (label ++ ']' :: '(' :: (target ++ [')'])) ∈ links text →
    startsWith (String.ofList target) openclaw_prefix = true →
    text = before ++ '[' :: (label ++ ']' :: '(' :: (target ++ [')'])) ++ after →
    RunsOn (before ++ '[' :: (label ++ [']', '('])) dot →
    String.ofList target ∈ urls ∨ Stands text target
  undisturbed : ∀ path, Disturbed text path → String.ofList path ∈ urls ∨ Stands text path
  seams : ¬ Joined (unlinked text)

variable {payload text}

theorem leaks_clean_text : Leaks (clean_text text).toList ↔ Joined (unlinked text.toList) := by
  rw [clean_text, leaks_strip, String.toList_ofList, ← String.length_toList]
  exact leaks_eraseAll

/-- For every text and every payload. -/
theorem extracted_iff (payload : List (String × Json)) (text : String) :
    Extracted payload text ↔ Legible (media_urls payload) text.toList := by
  constructor
  · rintro ⟨htargets, hpaths, hclean⟩
    refine ⟨?_, ?_, ?_, ?_⟩
    · rintro label target hlabel hlink hpre ⟨c, hc, hstop⟩
      exact (mem_media_paths.mp (htargets label target hlabel hlink hpre)).resolve_right
        (target_no_path hpre hc hstop)
    · intro before label target after dot hlabel hlink hpre _ _
      exact mem_media_paths.mp (htargets label target hlabel hlink hpre)
    · intro path hpath
      exact mem_media_paths.mp (hpaths path (stands_iff.mp hpath.stands))
    · intro hjoined
      obtain ⟨before, v, hsplit, hv⟩ := leaks_clean_text.mpr hjoined
      exact hv (hclean before v hsplit)
  · rintro ⟨hunbroken, hreached, hundisturbed, hseams⟩
    refine ⟨?_, ?_, ?_⟩
    · intro label target hlabel hlink hpre
      apply mem_media_paths.mpr
      by_cases hchars : ∀ c ∈ target, path_char c = true
      · rcases target_stands hlabel hlink hchars with h | ⟨before, after, dot, hplace, hruns⟩
        · exact .inr h
        · exact hreached before label target after dot hlabel hlink hpre hplace hruns
      · obtain ⟨c, hc, hstop⟩ := not_forall₂.mp hchars
        exact .inl (hunbroken label target hlabel hlink hpre
          ⟨c, hc, Bool.eq_false_iff.mpr hstop⟩)
    · intro path hpath
      apply mem_media_paths.mpr
      rcases stands_or_disturbed (stands_iff.mpr hpath) with h | h
      · exact .inr h
      · exact hundisturbed path h
    · intro before v hsplit
      by_contra hv
      exact hseams (leaks_clean_text.mp ⟨before, v, hsplit, hv⟩)

/-- A path with a space in a link. -/
theorem not_extracted : ¬ Extracted [] "[a](/home/node/.openclaw/b c)" := by
  intro h
  have hm := h.targets ['a'] "/home/node/.openclaw/b c".toList (by decide) (by decide) (by decide)
  revert hm
  decide

end ClawMux
