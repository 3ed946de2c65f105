import UpTunnel.Lib.Text

/-!
# UpTunnel.Lib.Py

The part of Python's `str` and `int` that reads numbers: `isspace`, `strip`, `isdigit` and `int(s)`,
over the Unicode data of Python 3.11.

* `int_of_digits`: `int` of a run of ASCII digits is the number they denote, if they are not too many.
* `exists_strip`: `strip` takes away blanks only.
-/

namespace Py

open Js

/-- `str.isspace` of one character. -/
def isspace (c : Char) : Bool :=
  c ∈ ['\t', '\n', '\x0b', '\x0c', '\r', '\x1c', '\x1d', '\x1e', '\x1f', ' ', '\u0085', '\u00a0', '\u1680',
    '\u2028', '\u2029', '\u202f', '\u205f', '\u3000'] ∨ ('\u2000' ≤ c ∧ c ≤ '\u200a')

def strip (cs : List Char) : List Char := (cs.dropWhile isspace).rdropWhile isspace

/-- Where the decimal digits 0 to 9 of each script begin. -/
def zeros : List Nat :=
  [0x30, 0x660, 0x6f0, 0x7c0, 0x966, 0x9e6, 0xa66, 0xae6, 0xb66, 0xbe6, 0xc66, 0xce6, 0xd66, 0xde6, 0xe50, 0xed0,
    0xf20, 0x1040, 0x1090, 0x17e0, 0x1810, 0x1946, 0x19d0, 0x1a80, 0x1a90, 0x1b50, 0x1bb0, 0x1c40, 0x1c50, 0xa620,
    0xa8d0, 0xa900, 0xa9d0, 0xa9f0, 0xaa50, 0xabf0, 0xff10, 0x104a0, 0x10d30, 0x11066, 0x110f0, 0x11136, 0x111d0,
    0x112f0, 0x11450, 0x114d0, 0x11650, 0x116c0, 0x11730, 0x118e0, 0x11950, 0x11c50, 0x11d50, 0x11da0, 0x16a60,
    0x16ac0, 0x16b50, 0x1d7ce, 0x1d7d8, 0x1d7e2, 0x1d7ec, 0x1d7f6, 0x1e140, 0x1e2f0, 0x1e950, 0x1fbf0]

/-- `unicodedata.decimal` -/
def decimal (c : Char) : Option Nat :=
  (zeros.find? fun z => decide (z ≤ c.toNat ∧ c.toNat < z + 10)).map fun z => c.toNat - z

/-- The digits that are not decimal: superscripts, circled digits and the like. -/
def otherDigits : List (Nat × Nat) :=
  [(0xb2, 0xb3), (0xb9, 0xb9), (0x1369, 0x1371), (0x19da, 0x19da), (0x2070, 0x2070), (0x2074, 0x2079), (0x2080, 0x2089),
    (0x2460, 0x2468), (0x2474, 0x247c), (0x2488, 0x2490), (0x24ea, 0x24ea), (0x24f5, 0x24fd), (0x24ff, 0x24ff),
    (0x2776, 0x277e), (0x2780, 0x2788), (0x278a, 0x2792), (0x10a40, 0x10a43), (0x10e60, 0x10e68), (0x11052, 0x1105a),
    (0x1f100, 0x1f10a)]

def isDigitChar (c : Char) : Bool :=
  (decimal c).isSome || otherDigits.any fun r => decide (r.1 ≤ c.toNat ∧ c.toNat ≤ r.2)

/-- `s.isdigit()` -/
def isdigit (cs : List Char) : Bool := !cs.isEmpty && cs.all isDigitChar

/-- The blanks that `int` takes at either end; it does not take the separators U+001C to U+001F. -/
def intSpace (c : Char) : Bool := isspace c && !decide ('\x1c' ≤ c ∧ c ≤ '\x1f')

/-- Decimal digits, with single underscores between them. -/
def digitRun : List Char → Option (List Nat)
  | [] => none
  | [c] => (decimal c).map ([·])
  | c :: '_' :: cs => (decimal c).bind fun d => (digitRun cs).map (d :: ·)
  | c :: c' :: cs => (decimal c).bind fun d => (digitRun (c' :: cs)).map (d :: ·)

def value (ds : List Nat) : Nat := ds.foldl (fun n d => 10 * n + d) 0

/-- `int(s)`; `none` is a ValueError. `maxStrDigits` is `sys.get_int_max_str_digits()`, where 0 is no
limit, as it is in the versions that do not have it. -/
def int (maxStrDigits : Nat) (cs : List Char) : Option Int :=
  let cs := (cs.dropWhile intSpace).rdropWhile intSpace
  match digitRun (signed cs).2 with
  | none => none
  | some ds =>
    if maxStrDigits ≠ 0 ∧ maxStrDigits < ds.length then none
    else some (if (signed cs).1 then -(value ds : Int) else value ds)

/-! ## ASCII digits -/

variable {c : Char} {cs : List Char}

theorem isspace_of_isDigit (h : Js.isDigit c = true) : isspace c = false := by
  simp only [Js.isDigit, decide_eq_true_eq] at h
  have h1 : 0x30 ≤ c.toNat := h.1
  have h2 : c.toNat ≤ 0x39 := h.2
  refine decide_eq_false ?_
  rintro (hm | ⟨h3, -⟩)
  · simp only [List.mem_cons, List.not_mem_nil, or_false] at hm
    rcases hm with rfl | rfl | rfl | rfl | rfl | rfl | rfl | rfl | rfl | rfl | rfl | rfl | rfl | rfl | rfl | rfl |
      rfl | rfl <;> revert h1 h2 <;> decide
  · have h3 : 0x2000 ≤ c.toNat := h3
    omega

theorem decimal_of_isDigit (h : Js.isDigit c = true) : decimal c = some (c.toNat - '0'.toNat) := by
  simp only [Js.isDigit, decide_eq_true_eq] at h
  have h1 : 0x30 ≤ c.toNat := h.1
  have h2 : c.toNat ≤ 0x39 := h.2
  have hz : decide (0x30 ≤ c.toNat ∧ c.toNat < 0x30 + 10) = true := decide_eq_true ⟨h1, by omega⟩
  simp only [decimal, zeros, List.find?_cons, hz, Option.map_some]
  rfl

theorem digitRun_of_digits (hne : cs ≠ []) (h : ∀ c ∈ cs, Js.isDigit c = true) :
    digitRun cs = some (cs.map fun c => c.toNat - '0'.toNat) := by
  induction cs with
  | nil => exact absurd rfl hne
  | cons c cs ih =>
    have hc := decimal_of_isDigit (h c List.mem_cons_self)
    have hcs : ∀ d ∈ cs, Js.isDigit d = true := fun d hd => h d (List.mem_cons_of_mem c hd)
    cases cs with
    | nil => simp [digitRun, hc]
    | cons c' cs =>
      have hne' : c' ≠ '_' := by
        rintro rfl
        exact absurd (hcs '_' List.mem_cons_self) (by decide)
      rw [digitRun]
      · rw [hc, ih (by simp) hcs]
        rfl
      · rintro rfl
        exact hne' rfl

theorem value_map (cs : List Char) : value (cs.map fun c => c.toNat - '0'.toNat) = digitsVal cs := by
  simp [value, digitsVal, List.foldl_map]

theorem intSpace_of_isDigit (h : Js.isDigit c = true) : intSpace c = false := by
  have hs : isspace c = false := isspace_of_isDigit h
  simp [intSpace, hs]

theorem int_of_digits (maxStrDigits : Nat) (hne : cs ≠ []) (h : ∀ c ∈ cs, Js.isDigit c = true) :
    int maxStrDigits cs =
      if maxStrDigits ≠ 0 ∧ maxStrDigits < cs.length then none else some (digitsVal cs : Int) := by
  have hsp : ∀ c ∈ cs, ¬ intSpace c = true := fun c hc => by simp [intSpace_of_isDigit (h c hc)]
  obtain ⟨c, rest, rfl⟩ := List.exists_cons_of_ne_nil hne
  have hdrop : (c :: rest).dropWhile intSpace = c :: rest :=
    List.dropWhile_cons_of_neg (hsp c List.mem_cons_self)
  have hrdrop : (c :: rest).rdropWhile intSpace = c :: rest :=
    List.rdropWhile_eq_self_iff.mpr fun hl => hsp _ (List.getLast_mem hl)
  have hsign := signed_of_isDigit (h c List.mem_cons_self) rest
  unfold int
  rw [hdrop, hrdrop]
  dsimp only
  rw [hsign]
  dsimp only
  rw [digitRun_of_digits hne h]
  dsimp only
  rw [value_map, List.length_map]
  rfl

theorem exists_strip (l : List Char) : ∃ before after, (∀ b ∈ before ++ after, isspace b = true) ∧
    l = before ++ strip l ++ after := by
  refine ⟨l.takeWhile isspace, (l.dropWhile isspace).rtakeWhile isspace, fun b hb => ?_, ?_⟩
  · rcases List.mem_append.mp hb with hb | hb
    · exact List.mem_takeWhile_imp hb
    · exact List.mem_rtakeWhile_imp hb
  · rw [strip, List.append_assoc, List.rdropWhile_append_rtakeWhile, List.takeWhile_append_dropWhile]

end Py
