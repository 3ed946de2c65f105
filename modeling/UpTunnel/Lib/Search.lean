import Mathlib.Data.List.TakeDrop
import Mathlib.Data.List.TakeWhile

/-!
# UpTunnel.Lib.Search

The first occurrence of a pattern in a list, and in a list of which more and more arrives. The first
and the last occurrence of an element.

* `indexOf_split`: the pattern is where it was found. `indexOf_append`: the first occurrence stays the first when more
  arrives.
* `indexOf_of_append`: it is found as soon as all of it has arrived, and not before
  (`indexOf_eq_none_of_append`).
* `span_of_split`, `dropWhile_reverse_of_split`: cutting a list at the first, and at the last, `x`.
-/

namespace Search

variable {α : Type*} [DecidableEq α] {pat l l' : List α} {n : Nat}

/-- The position of the first occurrence of `pat`. -/
def indexOf (pat : List α) : List α → Option Nat
  | [] => if pat = [] then some 0 else none
  | x :: xs => if pat <+: x :: xs then some 0 else (indexOf pat xs).map (· + 1)

/-- An occurrence lies within the list. -/
theorem indexOf_le (h : indexOf pat l = some n) : n + pat.length ≤ l.length := by
  induction l generalizing n with
  | nil =>
    simp only [indexOf, Option.ite_none_right_eq_some, Option.some.injEq] at h
    obtain ⟨rfl, rfl⟩ := h
    simp
  | cons x xs ih =>
    simp only [indexOf] at h
    split at h
    · rename_i hp
      cases h
      have h1 := hp.length_le
      omega
    · obtain ⟨m, hm, rfl⟩ := Option.map_eq_some_iff.mp h
      have h1 := ih hm
      simp only [List.length_cons]
      omega

theorem indexOf_split (h : indexOf pat l = some n) : ∃ a b, l = a ++ (pat ++ b) ∧ a.length = n := by
  induction l generalizing n with
  | nil =>
    simp only [indexOf, Option.ite_none_right_eq_some, Option.some.injEq] at h
    obtain ⟨rfl, rfl⟩ := h
    exact ⟨[], [], rfl, rfl⟩
  | cons x xs ih =>
    simp only [indexOf] at h
    split at h
    · rename_i hp
      cases h
      obtain ⟨b, hb⟩ := hp
      exact ⟨[], b, hb.symm, rfl⟩
    · obtain ⟨m, hm, rfl⟩ := Option.map_eq_some_iff.mp h
      obtain ⟨a, b, rfl, rfl⟩ := ih hm
      exact ⟨x :: a, b, rfl, rfl⟩

theorem indexOf_append (h : indexOf pat l = some n) (l' : List α) : indexOf pat (l ++ l') = some n := by
  induction l generalizing n with
  | nil =>
    simp only [indexOf, Option.ite_none_right_eq_some, Option.some.injEq] at h
    obtain ⟨rfl, rfl⟩ := h
    cases l' <;> simp [indexOf]
  | cons x xs ih =>
    simp only [List.cons_append, indexOf] at h ⊢
    split at h
    · rename_i hp
      cases h
      exact if_pos (hp.trans (List.prefix_append (x :: xs) l'))
    · rename_i hp
      obtain ⟨m, hm, rfl⟩ := Option.map_eq_some_iff.mp h
      rw [if_neg, ih hm]
      · rfl
      · intro hp'
        have hle := indexOf_le hm
        refine hp (List.prefix_of_prefix_length_le hp' (List.prefix_append (x :: xs) l') ?_)
        simp only [List.length_cons]
        omega

theorem indexOf_of_append (h : indexOf pat (l ++ l') = some n) (hn : n + pat.length ≤ l.length) :
    indexOf pat l = some n := by
  induction l generalizing n with
  | nil =>
    have h1 : n = 0 ∧ pat.length = 0 := by simpa using hn
    simp [indexOf, List.length_eq_zero_iff.mp h1.2, h1.1]
  | cons x xs ih =>
    simp only [List.cons_append, indexOf] at h ⊢
    split at h
    · rename_i hp
      cases h
      rw [if_pos (List.prefix_of_prefix_length_le hp (List.prefix_append (x :: xs) l') (by simpa using hn))]
    · rename_i hp
      obtain ⟨m, hm, rfl⟩ := Option.map_eq_some_iff.mp h
      rw [if_neg fun hp' => hp (hp'.trans (List.prefix_append (x :: xs) l')), ih hm]
      · rfl
      · simp only [List.length_cons] at hn
        omega

theorem indexOf_eq_none_of_append (h : indexOf pat (l ++ l') = some n) (hn : l.length < n + pat.length) :
    indexOf pat l = none := by
  cases hl : indexOf pat l with
  | none => rfl
  | some m =>
    have hm := indexOf_append hl l'
    rw [h] at hm
    have h1 := indexOf_le hl
    cases hm
    omega

/-! ## One element -/

variable {x : α} {a b : List α}

/-- The position of the last `x`. -/
def lastIndexOf (x : α) (l : List α) : Option Nat := (l.reverse.idxOf? x).map fun n => l.length - 1 - n

theorem idxOf?_of_split (h : x ∉ a) : (a ++ x :: b).idxOf? x = some a.length := by
  induction a with
  | nil => simp [List.idxOf?_cons]
  | cons y a ih =>
    have hy : y ≠ x := fun e => h (e ▸ List.mem_cons_self)
    have ha : x ∉ a := fun hm => h (List.mem_cons_of_mem y hm)
    simp [List.idxOf?_cons, hy, ih ha]

theorem lastIndexOf_of_split (h : x ∉ b) : lastIndexOf x (a ++ x :: b) = some a.length := by
  have hr : (a ++ x :: b).reverse = b.reverse ++ x :: a.reverse := by simp
  rw [lastIndexOf, hr, idxOf?_of_split (by simpa using h)]
  simp

theorem lastIndexOf_of_notMem (h : x ∉ l) : lastIndexOf x l = none := by
  rw [lastIndexOf, List.idxOf?_eq_none_iff.mpr (by simpa using h)]
  rfl

/-- The last `x` is in one place. -/
theorem split_last_unique {a' b' : List α} (he : a ++ x :: b = a' ++ x :: b') (hb : x ∉ b) (hb' : x ∉ b') :
    a = a' ∧ b = b' := by
  have h1 := lastIndexOf_of_split (a := a) hb
  rw [he, lastIndexOf_of_split hb'] at h1
  obtain ⟨h2, h3⟩ := List.append_inj he (Option.some.inj h1).symm
  exact ⟨h2, (List.cons.inj h3).2⟩

theorem span_of_notMem (h : x ∉ l) : l.span (· ≠ x) = (l, []) := by
  have hl : ∀ y ∈ l, decide (y ≠ x) = true := fun y hy => decide_eq_true fun he => h (he ▸ hy)
  rw [List.span_eq_takeWhile_dropWhile, List.takeWhile_eq_self_iff.mpr hl, List.dropWhile_eq_nil_iff.mpr hl]

theorem span_of_split (h : x ∉ a) : (a ++ x :: b).span (· ≠ x) = (a, x :: b) := by
  have ha : ∀ y ∈ a, decide (y ≠ x) = true := fun y hy => decide_eq_true fun he => h (he ▸ hy)
  rw [List.span_eq_takeWhile_dropWhile, List.takeWhile_append_of_pos ha, List.dropWhile_append_of_pos ha]
  simp

omit [DecidableEq α] in
/-- Where `x` is in a list, it has a last occurrence. -/
theorem exists_last (h : x ∈ l) : ∃ a b, l = a ++ x :: b ∧ x ∉ b := by
  obtain ⟨b, a, he, hb⟩ := List.eq_append_cons_of_mem (List.mem_reverse.mpr h)
  refine ⟨a.reverse, b.reverse, ?_, by simpa using hb⟩
  rw [← List.reverse_reverse l, he]
  simp

theorem dropWhile_reverse_of_notMem (h : x ∉ l) : l.reverse.dropWhile (· ≠ x) = [] := by
  refine List.dropWhile_eq_nil_iff.mpr fun y hy => decide_eq_true fun he => h ?_
  exact he ▸ List.mem_reverse.mp hy

theorem dropWhile_reverse_of_split (h : x ∉ b) : (a ++ x :: b).reverse.dropWhile (· ≠ x) = x :: a.reverse := by
  have hb : ∀ y ∈ b.reverse, decide (y ≠ x) = true :=
    fun y hy => decide_eq_true fun he => h (he ▸ List.mem_reverse.mp hy)
  rw [List.reverse_append, List.reverse_cons, List.append_assoc, List.dropWhile_append_of_pos hb]
  simp

end Search
