import Mathlib.Data.List.Infix

namespace Lib.Text

/-- The code points that Python's `str.isspace`, `str.strip` and `\s` treat as white space. -/
def isSpace (c : Char) : Bool :=
  let n := c.toNat
  (0x09 ≤ n && n ≤ 0x0d) || (0x1c ≤ n && n ≤ 0x20) || n == 0x85 || n == 0xa0 || n == 0x1680 ||
    (0x2000 ≤ n && n ≤ 0x200a) || n == 0x2028 || n == 0x2029 || n == 0x202f || n == 0x205f ||
    n == 0x3000

/-- The zeros of the decimal digits of Unicode 15.0; each is followed by its other nine digits. -/
def decimalZeros : List Nat :=
  [0x30, 0x660, 0x6f0, 0x7c0, 0x966, 0x9e6, 0xa66, 0xae6, 0xb66, 0xbe6, 0xc66, 0xce6, 0xd66, 0xde6,
    0xe50, 0xed0, 0xf20, 0x1040, 0x1090, 0x17e0, 0x1810, 0x1946, 0x19d0, 0x1a80, 0x1a90, 0x1b50,
    0x1bb0, 0x1c40, 0x1c50, 0xa620, 0xa8d0, 0xa900, 0xa9d0, 0xa9f0, 0xaa50, 0xabf0, 0xff10,
    0x104a0, 0x10d30, 0x11066, 0x110f0, 0x11136, 0x111d0, 0x112f0, 0x11450, 0x114d0, 0x11650,
    0x116c0, 0x11730, 0x118e0, 0x11950, 0x11c50, 0x11d50, 0x11da0, 0x11f50, 0x16a60, 0x16ac0,
    0x16b50, 0x1d7ce, 0x1d7d8, 0x1d7e2, 0x1d7ec, 0x1d7f6, 0x1e140, 0x1e2f0, 0x1e4f0, 0x1e950,
    0x1fbf0]

/-- The value of a decimal digit. -/
def decimal (c : Char) : Option Nat :=
  (decimalZeros.find? fun n => n ≤ c.toNat && c.toNat ≤ n + 9).map (c.toNat - ·)

/-- The digits that are no decimal ones: superscripts, subscripts and enclosed ones. -/
def otherDigits : List (Nat × Nat) :=
  [(0xb2, 0xb3), (0xb9, 0xb9), (0x1369, 0x1371), (0x19da, 0x19da), (0x2070, 0x2070),
    (0x2074, 0x2079), (0x2080, 0x2089), (0x2460, 0x2468), (0x2474, 0x247c), (0x2488, 0x2490),
    (0x24ea, 0x24ea), (0x24f5, 0x24fd), (0x24ff, 0x24ff), (0x2776, 0x277e), (0x2780, 0x2788),
    (0x278a, 0x2792), (0x10a40, 0x10a43), (0x10e60, 0x10e68), (0x11052, 0x1105a),
    (0x1f100, 0x1f10a)]

/-- `str.isdigit` -/
def isDigit (s : String) : Bool :=
  s ≠ "" && s.toList.all fun c =>
    (decimal c).isSome || otherDigits.any fun (first, last) => first ≤ c.toNat && c.toNat ≤ last

/-- What `int` takes off the ends: white space without the separators `\x1c` to `\x1f`. -/
def intSpace (c : Char) : Bool := isSpace c && !(0x1c ≤ c.toNat && c.toNat ≤ 0x1f)

def intStrip (s : List Char) : List Char :=
  ((s.dropWhile intSpace).reverse.dropWhile intSpace).reverse

/-- Decimal digits with single underscores between them. -/
def readDigits : List Char → Option (List Nat)
  | [] => none
  | [c] => (decimal c).map fun d => [d]
  | c :: '_' :: rest => (decimal c).bind fun d => (readDigits rest).map (d :: ·)
  | c :: rest => (decimal c).bind fun d => (readDigits rest).map (d :: ·)

/-- The most digits that `int` reads from a text. -/
def maxStrDigits : Nat := 4300

def readNat (s : List Char) : Option Nat :=
  (readDigits s).bind fun digits =>
    if maxStrDigits < digits.length then none else some (digits.foldl (10 * · + ·) 0)

/-- `int(s)`; `none` when it raises. -/
def readInt (s : String) : Option Int :=
  match intStrip s.toList with
  | '-' :: digits => (readNat digits).map (-Int.ofNat ·)
  | '+' :: digits => (readNat digits).map Int.ofNat
  | digits => (readNat digits).map Int.ofNat

def strip (s : String) : String :=
  String.ofList (((s.toList.dropWhile isSpace).reverse.dropWhile isSpace).reverse)

/-- Lower case of the letters whose lower case is ASCII: `A`-`Z` and the Kelvin sign.
Every other upper-case letter has a lower case outside ASCII and is left alone. -/
def lowerChar (c : Char) : Char := if c.toNat = 0x212a then 'k' else c.toLower

def lower (s : String) : String := String.ofList (s.toList.map lowerChar)

def startsWith (s pre : String) : Bool := pre.toList.isPrefixOf s.toList

/-- `s[len(pre):]` -/
def dropLen (s pre : String) : String := String.ofList (s.toList.drop pre.toList.length)

def contains (s sub : String) : Bool := s.toList.tails.any sub.toList.isPrefixOf

/-- What a pattern matches at the beginning of a text, and the rest of the text. -/
abbrev Matcher := List Char → Option (List Char × List Char)

/-- `re.finditer`, for a pattern that matches no empty text; `fuel` is the length of the text. -/
def findAll (m : Matcher) : Nat → List Char → List (List Char)
  | 0, _ | _, [] => []
  | fuel + 1, c :: s =>
    match m (c :: s) with
    | some (found, rest) => found :: findAll m fuel rest
    | none => findAll m fuel s

/-- `re.sub` by the empty text. -/
def eraseAll (m : Matcher) : Nat → List Char → List Char
  | 0, s => s
  | _, [] => []
  | fuel + 1, c :: s =>
    match m (c :: s) with
    | some (_, rest) => eraseAll m fuel rest
    | none => c :: eraseAll m fuel s

theorem startsWith_append (pre s : String) : startsWith (pre ++ s) pre = true := by
  simp [startsWith, String.toList_append]

theorem startsWith_trans {s t u : String} (h : startsWith s t = true) (h' : startsWith t u = true) :
    startsWith s u = true := by
  simp only [startsWith, List.isPrefixOf_iff_prefix] at *
  exact h'.trans h

theorem contains_iff {s sub : String} : contains s sub = true ↔ sub.toList <:+: s.toList := by
  simp only [contains, List.any_eq_true, List.mem_tails, List.isPrefixOf_iff_prefix]
  constructor
  · rintro ⟨t, ht, hsub⟩
    exact hsub.isInfix.trans ht.isInfix
  · rintro ⟨before, after, h⟩
    refine ⟨sub.toList ++ after, ⟨before, ?_⟩, ⟨after, rfl⟩⟩
    rw [← h, List.append_assoc]

theorem dropLen_append (pre s : String) : dropLen (pre ++ s) pre = s := by
  simp [dropLen, String.toList_append]

/-- A string with the prefix is the prefix followed by the rest. -/
theorem append_dropLen {s pre : String} (h : startsWith s pre = true) :
    pre ++ dropLen s pre = s := by
  rw [startsWith, List.isPrefixOf_iff_prefix] at h
  obtain ⟨t, ht⟩ := h
  apply String.toList_inj.mp
  rw [String.toList_append, dropLen, ← ht, List.drop_left, String.toList_ofList]

theorem append_right_inj {pre s t : String} : pre ++ s = pre ++ t ↔ s = t := by
  rw [← String.toList_inj, String.toList_append, String.toList_append, List.append_cancel_left_eq,
    String.toList_inj]

/-- Two texts split at their first separator in one way only. -/
theorem append_sep_inj {sep : Char} {p q s t : List Char} (hp : sep ∉ p) (hq : sep ∉ q)
    (h : p ++ sep :: s = q ++ sep :: t) : p = q ∧ s = t := by
  induction p generalizing q with
  | nil =>
    cases q with
    | nil => exact ⟨rfl, List.cons.inj h |>.2⟩
    | cons c q =>
      obtain ⟨he, _⟩ := List.cons.inj h
      exact absurd (he ▸ List.mem_cons_self) hq
  | cons c p ih =>
    cases q with
    | nil =>
      obtain ⟨he, _⟩ := List.cons.inj h
      exact absurd (he ▸ List.mem_cons_self) hp
    | cons d q =>
      obtain ⟨he, ht⟩ := List.cons.inj h
      obtain ⟨hpq, hst⟩ := ih (fun hm => hp (List.mem_cons_of_mem _ hm))
        (fun hm => hq (List.mem_cons_of_mem _ hm)) ht
      exact ⟨by rw [he, hpq], hst⟩

/-- Nothing is lost of what does not begin with a character that is dropped. -/
theorem infix_dropWhile {p : Char → Bool} {c : Char} {w s : List Char} (hc : p c = false) :
    c :: w <:+: s.dropWhile p ↔ c :: w <:+: s := by
  induction s with
  | nil => exact Iff.rfl
  | cons d s ih =>
    by_cases hd : p d = true
    · rw [List.dropWhile_cons_of_pos hd, ih, List.infix_cons_iff]
      refine ⟨.inr, fun h => h.resolve_left ?_⟩
      rintro ⟨rest, hrest⟩
      obtain ⟨rfl, -⟩ := List.cons.inj hrest
      rw [hd] at hc
      cases hc
    · rw [List.dropWhile_cons_of_neg hd]

theorem infix_strip {c d : Char} {w : List Char} {s : String} (hc : isSpace c = false)
    (hd : isSpace d = false) : c :: (w ++ [d]) <:+: (strip s).toList ↔
      c :: (w ++ [d]) <:+: s.toList := by
  have hrev : (c :: (w ++ [d])).reverse = d :: (w.reverse ++ [c]) := by simp
  rw [strip, String.toList_ofList, ← List.reverse_infix, List.reverse_reverse, hrev,
    infix_dropWhile hd, ← hrev, List.reverse_infix, infix_dropWhile hc]

theorem strip_ends {c d : Char} {w : List Char} (hc : isSpace c = false) (hd : isSpace d = false) :
    strip (String.ofList (c :: (w ++ [d]))) = String.ofList (c :: (w ++ [d])) := by
  have hrev : (c :: (w ++ [d])).reverse = d :: (w.reverse ++ [c]) := by simp
  rw [strip, String.toList_ofList, List.dropWhile_cons_of_neg (by simp [hc]), hrev,
    List.dropWhile_cons_of_neg (by simp [hd]), ← hrev, List.reverse_reverse]

end Lib.Text
