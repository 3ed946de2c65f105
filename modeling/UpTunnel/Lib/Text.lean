import Mathlib.Data.List.DropRight
import UpTunnel.Lib.Js

/-!
# UpTunnel.Lib.Text

Text as a list of characters: what Node makes of bytes in latin1, and ECMAScript's `toLowerCase`,
`trim` and `split("\\r\\n")` of it, and `parseInt`.

* `trimChars_append`, `rdropWhile_append`: `trim` takes the blanks at the front, and those at the end.
* `exists_trim`: `trim` takes away blanks only; `Trimmed.trim_pad_iff`: when a given text is left.
* `splitLines_joinLines`, `joinLines_splitLines`: lines without a CRLF are found again.
-/

namespace Js

def latin1 (buf : Bytes) : List Char := buf.map fun b => Char.ofNat b.toNat

/-- `toLowerCase()` on a character that is one byte in latin1. -/
def lowerLatin1 (c : Char) : Char :=
  if ('A' ≤ c ∧ c ≤ 'Z') ∨ ('À' ≤ c ∧ c ≤ 'Þ' ∧ c ≠ '×') then Char.ofNat (c.toNat + 32) else c

/-- `text.split("\r\n")` -/
def splitLines : List Char → List (List Char)
  | [] => [[]]
  | '\r' :: '\n' :: rest => [] :: splitLines rest
  | c :: rest =>
    match splitLines rest with
    | [] => [[c]]
    | l :: ls => (c :: l) :: ls

def CRLF : List Char := ['\r', '\n']

/-- `lines.join("\r\n")` -/
def joinLines : List (List Char) → List Char
  | [] => []
  | l :: ls => l ++ ls.flatMap (CRLF ++ ·)

/-- An optional sign: whether it is a minus, and what follows. -/
def signed : List Char → Bool × List Char
  | '-' :: cs => (true, cs)
  | '+' :: cs => (false, cs)
  | cs => (false, cs)

/-- `Number.parseInt(text, 10)`; `none` is NaN. From 2 ^ 53 on the Number is the nearest there is. -/
def parseInt (text : List Char) : Option Int :=
  let (neg, cs) := signed (text.dropWhile isSpace)
  match cs.takeWhile isDigit with
  | [] => none
  | ds => some (if neg then -(digitsVal ds : Int) else digitsVal ds)

/-! ## Letters and blanks -/

theorem lowerLatin1_of_not {c : Char} (h : ¬ (('A' ≤ c ∧ c ≤ 'Z') ∨ ('À' ≤ c ∧ c ≤ 'Þ' ∧ c ≠ '×'))) :
    lowerLatin1 c = c := if_neg h

/-- The blanks below U+2000, and the others. -/
theorem isSpace_range {c : Char} (h : isSpace c = true) :
    c.toNat ≤ 0x20 ∨ c.toNat = 0xa0 ∨ 0x1680 ≤ c.toNat := by
  simp only [isSpace, decide_eq_true_eq] at h
  rcases h with hm | ⟨h1, -⟩
  · simp only [List.mem_cons, List.not_mem_nil, or_false] at hm
    rcases hm with rfl | rfl | rfl | rfl | rfl | rfl | rfl | rfl | rfl | rfl | rfl | rfl | rfl | rfl <;> decide
  · have h1 : 0x2000 ≤ c.toNat := h1
    omega

theorem isSpace_of_isDigit {c : Char} (h : isDigit c = true) : isSpace c = false := by
  refine Bool.eq_false_iff.mpr fun hs => ?_
  simp only [isDigit, decide_eq_true_eq] at h
  have h1 : 0x30 ≤ c.toNat := h.1
  have h2 : c.toNat ≤ 0x39 := h.2
  have hr := isSpace_range hs
  omega

theorem signed_of_isDigit {c : Char} (h : isDigit c = true) (cs : List Char) : signed (c :: cs) = (false, c :: cs) := by
  have hm : c ≠ '-' := by rintro rfl; exact absurd h (by decide)
  have hp : c ≠ '+' := by rintro rfl; exact absurd h (by decide)
  unfold signed
  split
  · rename_i h1
    simp only [List.cons.injEq] at h1
    exact absurd h1.1 hm
  · rename_i h1
    simp only [List.cons.injEq] at h1
    exact absurd h1.1 hp
  · rfl

theorem parseInt_of_digits {cs : List Char} (hne : cs ≠ []) (h : ∀ c ∈ cs, isDigit c = true) :
    parseInt cs = some (digitsVal cs : Int) := by
  obtain ⟨c, rest, rfl⟩ := List.exists_cons_of_ne_nil hne
  have hc := h c List.mem_cons_self
  have hdrop : (c :: rest).dropWhile isSpace = c :: rest :=
    List.dropWhile_cons_of_neg (by simp [isSpace_of_isDigit hc])
  have htake : (c :: rest).takeWhile isDigit = c :: rest := List.takeWhile_eq_self_iff.mpr h
  unfold parseInt
  rw [hdrop, signed_of_isDigit hc]
  dsimp only
  rw [htake]
  rfl

theorem lowerLatin1_of_isSpace {c : Char} (h : isSpace c = true) : lowerLatin1 c = c := by
  have hr := isSpace_range h
  refine lowerLatin1_of_not ?_
  rintro (⟨h1, h2⟩ | ⟨h1, h2, -⟩)
  · have h1 : 65 ≤ c.toNat := h1
    have h2 : c.toNat ≤ 90 := h2
    omega
  · have h1 : 192 ≤ c.toNat := h1
    have h2 : c.toNat ≤ 222 := h2
    omega

theorem isSpace_of_lower {c : Char} (h : isSpace (lowerLatin1 c) = false) : isSpace c = false := by
  refine Bool.eq_false_iff.mpr fun hs => ?_
  rw [lowerLatin1_of_isSpace hs, hs] at h
  cases h

/-! ## `trim` -/

variable {l r before after : List Char} {c : Char}

theorem trimChars_eq (l : List Char) : trimChars l = (l.dropWhile isSpace).rdropWhile isSpace := rfl

/-- A text that ends in no blank keeps its end. -/
theorem rdropWhile_append (hc : isSpace c = false) (l r : List Char) :
    (l ++ c :: r).rdropWhile isSpace = l ++ c :: r.rdropWhile isSpace := by
  induction r using List.reverseRecOn with
  | nil => simpa using List.rdropWhile_concat_neg isSpace l c (by simp [hc])
  | append_singleton r d ih =>
    rw [← List.cons_append, ← List.append_assoc]
    by_cases hs : isSpace d = true
    · rw [List.rdropWhile_concat_pos _ _ _ hs, List.rdropWhile_concat_pos _ _ _ hs, ih]
    · rw [List.rdropWhile_concat_neg _ _ _ hs, List.rdropWhile_concat_neg _ _ _ hs]
      simp

/-- In front of a text that begins with no blank, the blanks go. -/
theorem trimChars_append (hb : ∀ b ∈ before, isSpace b = true) (hc : isSpace c = false) (l : List Char) :
    trimChars (before ++ c :: l) = (c :: l).rdropWhile isSpace := by
  rw [trimChars_eq, List.dropWhile_append_of_pos hb, List.dropWhile_cons_of_neg (by simp [hc])]

theorem exists_trim (l : List Char) : ∃ before after, (∀ b ∈ before ++ after, isSpace b = true) ∧
    l = before ++ trimChars l ++ after := by
  refine ⟨l.takeWhile isSpace, (l.dropWhile isSpace).rtakeWhile isSpace, fun b hb => ?_, ?_⟩
  · rcases List.mem_append.mp hb with hb | hb
    · exact List.mem_takeWhile_imp hb
    · exact List.mem_rtakeWhile_imp hb
  · rw [trimChars_eq, List.append_assoc, List.rdropWhile_append_rtakeWhile, List.takeWhile_append_dropWhile]

/-! ## Lines -/

section
variable {text l rest : List Char} {ls before after : List (List Char)}

theorem splitLines_cons {c : Char} (h : ¬ CRLF <+: c :: rest) :
    splitLines (c :: rest) = match splitLines rest with
      | [] => [[c]]
      | l :: ls => (c :: l) :: ls := by
  rw [splitLines]
  rintro r rfl rfl
  exact h ⟨r, rfl⟩

theorem splitLines_ne_nil (text : List Char) : splitLines text ≠ [] := by
  fun_cases splitLines text <;> simp

theorem joinLines_splitLines (text : List Char) : joinLines (splitLines text) = text := by
  fun_induction splitLines text with
  | case1 => rfl
  | case2 rest ih =>
    obtain ⟨l, ls, he⟩ := List.exists_cons_of_ne_nil (splitLines_ne_nil rest)
    rw [he] at ih ⊢
    rw [← ih]
    rfl
  | case3 c rest h he ih => exact absurd he (splitLines_ne_nil rest)
  | case4 c rest h l ls he ih =>
    rw [he] at ih
    rw [← ih]
    rfl

theorem crlf_of_mem_splitLines (h : l ∈ splitLines text) : ¬ CRLF <:+: l := by
  fun_induction splitLines text generalizing l with
  | case1 =>
    obtain rfl := List.mem_singleton.mp h
    simp [CRLF]
  | case2 rest ih =>
    rcases List.mem_cons.mp h with rfl | h
    · simp [CRLF]
    · exact ih h
  | case3 c rest hne he ih => exact absurd he (splitLines_ne_nil rest)
  | case4 c rest hne m ls he ih =>
    rw [he] at ih
    rcases List.mem_cons.mp h with rfl | h
    · intro hin
      rcases List.infix_cons_iff.mp hin with hp | hin
      · have hrest := joinLines_splitLines rest
        rw [he] at hrest
        have hp' : CRLF <+: c :: rest := by
          rw [← hrest, joinLines, ← List.cons_append]
          exact hp.trans (List.prefix_append _ _)
        obtain ⟨r, hr⟩ := hp'
        obtain ⟨rfl, hr2⟩ := List.cons.inj hr
        exact hne r rfl hr2.symm
      · exact ih List.mem_cons_self hin
    · exact ih (List.mem_cons_of_mem m h)

theorem splitLines_of_not (h : ¬ CRLF <:+: l) : splitLines l = [l] := by
  induction l with
  | nil => rfl
  | cons c l ih =>
    rw [List.infix_cons_iff, not_or] at h
    rw [splitLines_cons h.1, ih h.2]

theorem splitLines_append (h : ¬ CRLF <:+: l) (rest : List Char) :
    splitLines (l ++ (CRLF ++ rest)) = l :: splitLines rest := by
  induction l with
  | nil =>
    show splitLines ('\r' :: '\n' :: rest) = _
    rw [splitLines]
  | cons c l ih =>
    rw [List.infix_cons_iff, not_or] at h
    have hp : ¬ CRLF <+: c :: (l ++ (CRLF ++ rest)) := by
      intro hp
      obtain ⟨r, hr⟩ := hp
      obtain ⟨rfl, hr2⟩ := List.cons.inj hr
      cases l with
      | nil => exact absurd (List.cons.inj hr2).1 (by decide)
      | cons d l =>
        obtain ⟨rfl, -⟩ := List.cons.inj hr2
        exact h.1 ⟨l, rfl⟩
    rw [List.cons_append, splitLines_cons hp, ih h.2]

theorem splitLines_joinLines (hne : ls ≠ []) (h : ∀ l ∈ ls, ¬ CRLF <:+: l) : splitLines (joinLines ls) = ls := by
  induction ls with
  | nil => exact absurd rfl hne
  | cons l ls ih =>
    have hl := h l List.mem_cons_self
    cases ls with
    | nil =>
      rw [joinLines, List.flatMap_nil, List.append_nil]
      exact splitLines_of_not hl
    | cons m ms =>
      have hj : joinLines (l :: m :: ms) = l ++ (CRLF ++ joinLines (m :: ms)) := by
        simp [joinLines]
      rw [hj, splitLines_append hl, ih (by simp) fun k hk => h k (List.mem_cons_of_mem l hk)]

theorem joinLines_append (before after : List (List Char)) (l : List Char) :
    joinLines (before ++ l :: after) =
      before.flatMap (· ++ CRLF) ++ (l ++ after.flatMap (CRLF ++ ·)) := by
  induction before with
  | nil => rfl
  | cons b before ih =>
    have hj : ∀ ms : List (List Char), ms ≠ [] → joinLines (b :: ms) = b ++ CRLF ++ joinLines ms := by
      intro ms hms
      cases ms with
      | nil => exact absurd rfl hms
      | cons m ms => simp [joinLines]
    rw [List.cons_append, hj _ (by simp), ih, List.flatMap_cons, List.append_assoc (b ++ CRLF)]

end

/-! ## What `trim` leaves -/

/-- Neither end is a blank, and there is something between. -/
structure Trimmed (t : List Char) : Prop where
  ne_nil : t ≠ []
  first : ∀ c ∈ t.head?, isSpace c = false
  last : ∀ c ∈ t.getLast?, isSpace c = false

section
variable {t l r : List Char} {b a : List Char} {c : Char}

theorem trimmed_trimChars (h : trimChars l ≠ []) : Trimmed (trimChars l) where
  ne_nil := h
  first c hc := by
    have hne : l.dropWhile isSpace ≠ [] := by
      intro he
      rw [trimChars_eq, he] at h
      exact h rfl
    obtain ⟨d, rest, hd⟩ := List.exists_cons_of_ne_nil hne
    have hdn : isSpace d = false := by
      have hnot := List.head?_dropWhile_not isSpace l
      rw [hd] at hnot
      exact hnot
    obtain ⟨k, hk⟩ := List.rdropWhile_prefix isSpace (d :: rest)
    rw [trimChars_eq, hd] at hc h
    obtain ⟨e, es, he⟩ := List.exists_cons_of_ne_nil h
    rw [he] at hc hk
    obtain rfl : e = c := by simpa using hc
    obtain ⟨rfl, -⟩ := List.cons.inj hk
    exact hdn
  last c hc := by
    rw [trimChars_eq] at hc h
    have hl := List.rdropWhile_last_not isSpace (l.dropWhile isSpace) h
    rw [List.getLast?_eq_some_getLast h] at hc
    obtain rfl := Option.some.inj hc
    simpa using hl

/-- A run of blanks at the front ends before the first character that is none. -/
theorem length_le_of_blank (hb : ∀ d ∈ b, isSpace d = true) (hc : isSpace c = false) (h : b ++ t = l ++ c :: r) :
    b.length ≤ l.length := by
  rcases List.append_eq_append_iff.mp h with ⟨k, rfl, -⟩ | ⟨k, rfl, hk⟩
  · simp
  · cases k with
    | nil => simp
    | cons d k =>
      obtain ⟨rfl, -⟩ := List.cons.inj hk
      rw [hb c (by simp)] at hc
      cases hc

theorem length_le_of_blank_right (ha : ∀ d ∈ a, isSpace d = true) (hc : isSpace c = false) (h : t ++ a = l ++ c :: r) :
    a.length ≤ r.length := by
  have h1 : a.reverse ++ t.reverse = r.reverse ++ c :: l.reverse := by
    rw [← List.reverse_append, h]
    simp
  have h2 := length_le_of_blank (fun d hd => ha d (List.mem_reverse.mp hd)) hc h1
  simpa using h2

theorem Trimmed.trim_pad (h : Trimmed t) (hb : ∀ d ∈ b, isSpace d = true) (ha : ∀ d ∈ a, isSpace d = true) :
    trimChars (b ++ (t ++ a)) = t := by
  obtain ⟨c, rest, rfl⟩ := List.exists_cons_of_ne_nil h.ne_nil
  have hc := h.first c rfl
  rw [List.cons_append, trimChars_append hb hc]
  obtain ⟨init, e, he⟩ := List.eq_nil_or_concat' (c :: rest) |>.resolve_left h.ne_nil
  have hlast := h.last e (by rw [he]; simp)
  rw [← List.cons_append, he, List.append_assoc, List.singleton_append, rdropWhile_append hlast,
    List.rdropWhile_eq_nil_iff.mpr ha]

theorem Trimmed.trim_pad_iff (h : Trimmed t) (hb : ∀ d ∈ b, isSpace d = true) :
    trimChars (b ++ (t ++ a)) = t ↔ ∀ d ∈ a, isSpace d = true := by
  refine ⟨fun he => ?_, h.trim_pad hb⟩
  obtain ⟨b', a', hblank, hsplit⟩ := exists_trim (b ++ (t ++ a))
  rw [he] at hsplit
  obtain ⟨c, rest, rfl⟩ := List.exists_cons_of_ne_nil h.ne_nil
  have hc := h.first c rfl
  have h1 : b.length ≤ b'.length := length_le_of_blank hb hc (t := c :: rest ++ a) (r := rest ++ a') (by simpa using hsplit)
  have h2 : b'.length ≤ b.length := length_le_of_blank (fun d hd => hblank d (List.mem_append_left _ hd)) hc
    (t := c :: rest ++ a') (r := rest ++ a) (by simpa using hsplit.symm)
  rw [List.append_assoc] at hsplit
  obtain ⟨-, hrest⟩ := List.append_inj hsplit (by omega)
  have ha := List.append_cancel_left hrest
  exact fun d hd => hblank d (List.mem_append_right _ (ha ▸ hd))

/-- Of a text with a character before `t` that is no blank, more than `t` is left. -/
theorem Trimmed.trim_ne (h : Trimmed t) (hc : isSpace c = false) : trimChars (l ++ c :: (r ++ (t ++ a))) ≠ t := by
  intro he
  obtain ⟨b', a', hblank, hsplit⟩ := exists_trim (l ++ c :: (r ++ (t ++ a)))
  rw [he] at hsplit
  have h1 : b'.length ≤ l.length := length_le_of_blank (fun d hd => hblank d (List.mem_append_left _ hd)) hc
    (t := t ++ a') (r := r ++ (t ++ a)) (by simpa using hsplit.symm)
  obtain ⟨init, e, hlast⟩ := List.eq_nil_or_concat' t |>.resolve_left h.ne_nil
  have h2 : a'.length ≤ a.length := length_le_of_blank_right (fun d hd => hblank d (List.mem_append_right _ hd))
    (h.last e (by rw [hlast]; simp)) (t := b' ++ t) (l := l ++ c :: (r ++ init)) (by
      rw [← hsplit]
      conv => lhs; rw [hlast]
      simp)
  have hlen := congrArg List.length hsplit
  simp only [List.length_append, List.length_cons] at hlen
  omega

end

end Js
