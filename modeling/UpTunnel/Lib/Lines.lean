import Mathlib.Data.List.DropRight
import UpTunnel.Lib.JsonRound

/-!
# UpTunnel.Lib.Lines

Files of lines, each with a terminator behind it.

* `splitOn_unlines`: the lines of a file are found again by cutting it at the terminators.
* `newest_unlines`: and so are the last of them.
* `utf8Chars_unlines`: decoding UTF-8 works line by line, whatever the lines hold.
* `newline_stringify`: what `JSON.stringify` returns is one line.
-/

namespace Lines

variable {α β : Type} [DecidableEq α] {x : α} {ls ms : List (List α)} {b : List α}

def unlines (x : α) (ls : List (List α)) : List α := ls.flatMap (· ++ [x])

/-- The last `n` lines of a file. -/
def newest (x : α) (n : Nat) (b : List α) : List α := unlines x ((b.splitOn x).dropLast.rtake n)

omit [DecidableEq α] in
@[simp] theorem unlines_nil : unlines x [] = [] := rfl

omit [DecidableEq α] in
@[simp] theorem unlines_cons (l : List α) : unlines x (l :: ls) = l ++ x :: unlines x ls := by
  simp [unlines]

omit [DecidableEq α] in
theorem unlines_append : unlines x (ls ++ ms) = unlines x ls ++ unlines x ms := by
  simp [unlines]

omit [DecidableEq α] in
theorem intercalate_unlines (hne : ls ≠ []) : [x].intercalate ls ++ [x] = unlines x ls := by
  induction ls with
  | nil => exact absurd rfl hne
  | cons l ls ih =>
    cases ls with
    | nil => simp
    | cons m ms =>
      have h := ih (by simp)
      rw [List.intercalate_cons_cons, unlines_cons, ← h]
      simp

theorem splitOn_unlines (h : ∀ l ∈ ls, x ∉ l) : (unlines x ls).splitOn x = ls ++ [[]] := by
  induction ls with
  | nil => simp [List.splitOn_nil]
  | cons l ls ih =>
    have hl := h l List.mem_cons_self
    rw [unlines_cons, List.splitOn_append_cons_self, List.splitOn_eq_singleton hl,
      ih fun m hm => h m (List.mem_cons_of_mem l hm)]
    rfl

theorem count_unlines (h : ∀ l ∈ ls, x ∉ l) : (unlines x ls).count x = ls.length := by
  induction ls with
  | nil => rfl
  | cons l ls ih =>
    have hl := h l List.mem_cons_self
    rw [unlines_cons, List.count_append, List.count_cons, List.count_eq_zero.mpr hl,
      ih fun m hm => h m (List.mem_cons_of_mem l hm)]
    simp

theorem unlines_inj (hl : ∀ l ∈ ls, x ∉ l) (hm : ∀ l ∈ ms, x ∉ l) (h : unlines x ls = unlines x ms) : ls = ms := by
  have h1 := splitOn_unlines hl
  rw [h, splitOn_unlines hm] at h1
  exact (List.append_inj_left' h1 rfl).symm

/-- A file that is empty or ends in a terminator is made of lines. -/
theorem exists_unlines (h : b = [] ∨ b.getLast? = some x) : ∃ ls, b = unlines x ls ∧ ∀ l ∈ ls, x ∉ l := by
  have hsplit : ∀ b : List α, ∃ ls l, b = unlines x ls ++ l ∧ (∀ m ∈ ls, x ∉ m) ∧ x ∉ l := by
    intro b
    induction b with
    | nil => exact ⟨[], [], rfl, by simp, by simp⟩
    | cons c b ih =>
      obtain ⟨ls, l, rfl, hls, hl⟩ := ih
      by_cases hc : c = x
      · subst hc
        exact ⟨[] :: ls, l, by simp, by simpa using hls, hl⟩
      · cases ls with
        | nil => exact ⟨[], c :: l, rfl, by simp, by simp [hl, Ne.symm hc]⟩
        | cons m ms =>
          refine ⟨(c :: m) :: ms, l, by simp, ?_, hl⟩
          simpa [Ne.symm hc] using hls
  obtain ⟨ls, l, rfl, hls, hl⟩ := hsplit b
  cases l with
  | nil => exact ⟨ls, by simp, hls⟩
  | cons c l =>
    rcases h with h | h
    · simp at h
    · rw [List.getLast?_append_of_ne_nil _ (by simp)] at h
      exact absurd (List.mem_of_getLast? h) hl

theorem newest_unlines (h : ∀ l ∈ ls, x ∉ l) (n : Nat) : newest x n (unlines x ls) = unlines x (ls.rtake n) := by
  rw [newest, splitOn_unlines h, List.dropLast_concat]

omit [DecidableEq α] in
theorem unlines_rtake_suffix (n : Nat) : unlines x (ls.rtake n) <:+ unlines x ls := by
  refine ⟨unlines x (ls.take (ls.length - n)), ?_⟩
  rw [← unlines_append, List.rtake, List.take_append_drop]

end Lines

/-! ## Text in UTF-8 -/

namespace Js

open Lines

variable {n : UInt8}

theorem isTail_ascii (hn : n < 0x80) : isTail n = false := by
  simp only [isTail, decide_eq_false_iff_not, not_and]
  intro h
  exact absurd hn (UInt8.not_lt.mpr h)

theorem isSecond_ascii (hn : n < 0x80) (a : UInt8) : isSecond a n = false := by
  have h1 : ∀ m : UInt8, 0x80 ≤ m → ¬ m ≤ n := fun m hm h => absurd hn (UInt8.not_lt.mpr (UInt8.le_trans hm h))
  unfold isSecond
  split
  · simp [h1 0xa0 (by decide)]
  · split
    · simp [h1 0x80 (by decide)]
    · split
      · simp [h1 0x90 (by decide)]
      · split
        · simp [h1 0x80 (by decide)]
        · exact isTail_ascii hn

/-- An ASCII byte is a character, whatever is before it. -/
theorem utf8Chars_append (hn : n < 0x80) (a b : Bytes) :
    utf8Chars (a ++ n :: b) = utf8Chars a ++ Char.ofNat n.toNat :: utf8Chars b := by
  have h1 := isTail_ascii hn
  have h2 := isSecond_ascii hn
  have h3 : ∀ b, utf8Chars (n :: b) = Char.ofNat n.toNat :: utf8Chars b := fun b => utf8Chars_one hn
  fun_induction utf8Chars a
  case case1 => exact h3 b
  all_goals
    simp only [List.nil_append, List.cons_append] at *
    conv => lhs; rw [utf8Chars.eq_def]
    simp only [*, and_self, if_true, if_false, Bool.false_eq_true]
  -- the byte is where the rest of a longer sequence would be, and ends it
  all_goals rcases b with - | ⟨c, - | ⟨d, b⟩⟩ <;> simp only [*, if_true, if_false, Bool.false_eq_true]

theorem ofNat_ne_newline {v : Nat} (h : v ≠ 10) : Char.ofNat v ≠ '\n' := by
  by_cases hv : v.isValidChar
  · rw [Char.ofNat, dif_pos hv]
    exact fun he => h (congrArg Char.toNat he)
  · rw [Char.ofNat, dif_neg hv]
    decide

theorem second_three {a b c : UInt8} (ha : 0xe0 ≤ a ∧ a ≤ 0xef) (hb : isSecond a b = true) :
    64 ≤ a.toNat % 0x10 * 0x1000 + tailBits b * 0x40 + tailBits c := by
  by_cases he : a = 0xe0
  · subst he
    simp only [isSecond, if_true, decide_eq_true_eq, UInt8.le_iff_toNat_le, UInt8.reduceToNat, tailBits] at hb ⊢
    omega
  · have h1 : a.toNat ≠ 0xe0 := fun h => he (UInt8.toNat_inj.mp h)
    simp only [UInt8.le_iff_toNat_le, UInt8.reduceToNat] at ha
    omega

theorem second_four {a b c d : UInt8} (ha : 0xf0 ≤ a ∧ a ≤ 0xf4) (hb : isSecond a b = true) :
    64 ≤ a.toNat % 0x08 * 0x40000 + tailBits b * 0x1000 + tailBits c * 0x40 + tailBits d := by
  by_cases he : a = 0xf0
  · subst he
    rw [isSecond, if_neg (by decide), if_neg (by decide), if_pos rfl] at hb
    simp only [decide_eq_true_eq, UInt8.le_iff_toNat_le, UInt8.reduceToNat, tailBits] at hb ⊢
    omega
  · have h1 : a.toNat ≠ 0xf0 := fun h => he (UInt8.toNat_inj.mp h)
    simp only [UInt8.le_iff_toNat_le, UInt8.reduceToNat] at ha
    omega

/-- No newline is decoded from other bytes. -/
theorem newline_utf8Chars {l : Bytes} (h : 10 ∉ l) : '\n' ∉ utf8Chars l := by
  have hrep : '\n' ≠ replacement := by decide
  have hchar : ∀ v : Nat, 64 ≤ v → '\n' ≠ Char.ofNat v := fun v hv => (ofNat_ne_newline (by omega)).symm
  fun_induction utf8Chars l
  case case2 a _ _ ih =>
    have ha : a.toNat ≠ 10 := fun he => h (by simp [← UInt8.toNat_inj, he])
    simp only [List.mem_cons, not_or] at h ⊢
    exact ⟨(ofNat_ne_newline ha).symm, ih h.2⟩
  -- a sequence of two, three or four bytes is never for a character below 64
  case case3 a _ hlead b _ _ ih =>
    simp only [List.mem_cons, not_or] at h ⊢
    refine ⟨hchar _ ?_, ih h.2.2⟩
    simp only [UInt8.le_iff_toNat_le, UInt8.reduceToNat] at hlead
    omega
  case case6 a _ _ hlead b c _ hb _ ih =>
    simp only [List.mem_cons, not_or] at h ⊢
    exact ⟨hchar _ (second_three hlead hb), ih h.2.2.2⟩
  case case12 a _ _ _ hlead b c d _ hb _ _ ih =>
    simp only [List.mem_cons, not_or] at h ⊢
    exact ⟨hchar _ (second_four hlead hb), ih h.2.2.2.2⟩
  all_goals simp_all only [List.mem_cons, not_or, not_false_eq_true, and_self, List.not_mem_nil, ne_eq]

theorem newline_encodeChar {c : Char} (h : 10 ∈ String.utf8EncodeChar c) : c = '\n' := by
  obtain ⟨p, q, he⟩ := List.append_of_mem h
  have h1 := utf8Chars_encodeChar c []
  rw [List.append_nil, he, utf8Chars_append (by decide)] at h1
  cases hp : utf8Chars p with
  | nil =>
    rw [hp, List.nil_append] at h1
    exact (List.cons.inj h1).1.symm
  | cons d ds => simp [hp, utf8Chars] at h1

theorem newline_utf8Encode {t : List Char} (h : '\n' ∉ t) : 10 ∉ utf8Encode (String.ofList t) := by
  intro hm
  simp only [utf8Encode, String.toList_ofList, List.mem_flatMap] at hm
  obtain ⟨c, hc, hm⟩ := hm
  exact h (newline_encodeChar hm ▸ hc)

theorem utf8Chars_unlines (ls : List Bytes) : utf8Chars (unlines 10 ls) = unlines '\n' (ls.map utf8Chars) := by
  induction ls with
  | nil => simp [utf8Chars]
  | cons l ls ih =>
    rw [unlines_cons, utf8Chars_append (by decide), ih, List.map_cons, unlines_cons]
    rfl

theorem utf8Encode_unlines (ts : List (List Char)) :
    utf8Encode (String.ofList (unlines '\n' ts)) = unlines 10 (ts.map fun t => utf8Encode (String.ofList t)) := by
  induction ts with
  | nil => rfl
  | cons t ts ih =>
    rw [List.map_cons, unlines_cons, unlines_cons, ← ih]
    simp only [utf8Encode, String.toList_ofList, List.flatMap_append, List.flatMap_cons]
    rfl

/-! ## JSON is one line -/

theorem newline_repr (n : Nat) : '\n' ∉ (toString n).toList := by
  intro h
  have h1 : '\n' ∈ Nat.toDigits 10 n := by simpa [toString, Nat.repr] using h
  exact absurd (Nat.isDigit_of_mem_toDigits (by decide) (by decide) h1) (by decide)

theorem newline_zeros (n : Nat) : '\n' ∉ (zeros n).toList := by
  simp [zeros, List.mem_replicate]

theorem newline_posToString (q : ℚ) : '\n' ∉ (posToString q).toList := by
  have htake : ∀ n m : Nat, '\n' ∉ (toString n).toList.take m := fun n m h => newline_repr n (List.mem_of_mem_take h)
  have hdrop : ∀ n m : Nat, '\n' ∉ (toString n).toList.drop m := fun n m h => newline_repr n (List.mem_of_mem_drop h)
  unfold posToString
  dsimp only
  split_ifs <;> simp only [String.toList_append, String.toList_ofList, List.mem_append, newline_repr, newline_zeros,
    htake, hdrop, or_false, false_or, not_false_eq_true] <;> decide

theorem newline_toStr (n : Num) : '\n' ∉ n.toStr.toList := by
  cases n with
  | nan => decide
  | inf negative => cases negative <;> decide
  | fin q =>
    simp only [Num.toStr]
    split_ifs
    · decide
    · rw [String.toList_append, List.mem_append]
      exact fun h => h.elim (by decide) (newline_posToString _)
    · exact newline_posToString q

theorem newline_quote (s : String) : '\n' ∉ (quote s).toList := by
  have hchar : ∀ c : Char, '\n' ∉ quoteChar c := by
    intro c
    have hhex : ∀ m < 32, hexDigit (m / 16) ≠ '\n' ∧ hexDigit (m % 16) ≠ '\n' := by decide
    unfold quoteChar
    split_ifs with h1 h2 h3 h4 h5 h6 h7 h8
    all_goals try decide
    · simp [(hhex _ h8).1.symm, (hhex _ h8).2.symm]
    · simp [Ne.symm h5]
  simp [quote, hchar]

theorem newline_intercalate {ss : List String} (h : ∀ s ∈ ss, '\n' ∉ s.toList) :
    '\n' ∉ (",".intercalate ss).toList := by
  rw [String.toList_intercalate]
  induction ss with
  | nil => simp
  | cons s ss ih =>
    have hs := h s List.mem_cons_self
    cases ss with
    | nil => simpa using hs
    | cons t ts =>
      have h1 := ih fun u hu => h u (List.mem_cons_of_mem s hu)
      simpa [hs] using h1

mutual

theorem newline_stringify : ∀ v : Json, '\n' ∉ v.stringify.toList
  | .null => by decide
  | .bool b => by cases b <;> decide
  | .num n => by
    cases n with
    | fin q => exact newline_toStr _
    | nan => decide
    | inf negative => cases negative <;> decide
  | .str s => newline_quote s
  | .arr xs => by
    have h := newline_intercalate (newline_elemTexts xs)
    simpa [Json.stringify] using h
  | .obj kvs => by
    have h := newline_intercalate (newline_memberTexts kvs)
    simpa [Json.stringify] using h

theorem newline_elemTexts : ∀ xs : List Json, ∀ s ∈ elemTexts xs, '\n' ∉ s.toList
  | [] => by simp [elemTexts]
  | x :: xs => by
    intro s hs
    rcases List.mem_cons.mp hs with rfl | hs
    · exact newline_stringify x
    · exact newline_elemTexts xs s hs

theorem newline_memberTexts : ∀ kvs : List (String × Json), ∀ s ∈ memberTexts kvs, '\n' ∉ s.toList
  | [] => by simp [memberTexts]
  | (k, v) :: kvs => by
    intro s hs
    rcases List.mem_cons.mp hs with rfl | hs
    · have hk := newline_quote k
      have hv := newline_stringify v
      simp [hk, hv]
    · exact newline_memberTexts kvs s hs

end

end Js
