import UpTunnel.Lib.Dict

/-!
# UpTunnel.Lib.Index

A map kept as an index of a set of objects: `Index m key mem` says that `m` takes `k` to `a` exactly
when `a` is one of the objects of `mem` and `k` is its key. An object may have no key; then it is
not in the map.

* `Index.unique`: two objects of the set do not share a key.
* `Index.insert`, `Index.erase`: entering an object under a free key, and taking one out by its key.
* `Index.add`, `Index.remove`: the same for an object without a key, for which the map stays.
* `Index.eraseKey`: taking out an object that may or may not have a key.
* `Index.nodup_values`: no object is in the map twice.
-/

/-- `m` without its entry for the key, if there is one. -/
def Dict.eraseKey {κ ν : Type*} [DecidableEq κ] (m : Dict κ ν) : Option κ → Dict κ ν
  | none => m
  | some k => m.erase k

/-- `m` is the index by `key` of the objects of `mem`. -/
def Index {κ α : Type*} [DecidableEq κ] (m : Dict κ α) (key : α → Option κ) (mem : α → Prop) : Prop :=
  ∀ k a, m.lookup k = some a ↔ mem a ∧ key a = some k

namespace Index

variable {κ α : Type*} [DecidableEq κ] {m : Dict κ α} {key key' : α → Option κ} {mem mem' : α → Prop}
  {k : κ} {a b : α}

theorem empty : Index (∅ : Dict κ α) key fun _ => False := by
  intro k a
  simp

theorem mem_of_lookup (h : Index m key mem) (hk : m.lookup k = some a) : mem a := ((h k a).mp hk).1

theorem key_of_lookup (h : Index m key mem) (hk : m.lookup k = some a) : key a = some k :=
  ((h k a).mp hk).2

theorem lookup_of_mem (h : Index m key mem) (ha : mem a) (hk : key a = some k) : m.lookup k = some a :=
  (h k a).mpr ⟨ha, hk⟩

theorem unique (h : Index m key mem) (ha : mem a) (hb : mem b) (hka : key a = some k)
    (hkb : key b = some k) : a = b := by
  have h1 := h.lookup_of_mem ha hka
  have h2 := h.lookup_of_mem hb hkb
  rw [h1] at h2
  exact Option.some.inj h2

theorem mem_values_iff (h : Index m key mem) : a ∈ m.values ↔ mem a ∧ ∃ k, key a = some k := by
  rw [Dict.mem_values]
  constructor
  · rintro ⟨k, hk⟩
    exact ⟨h.mem_of_lookup hk, k, h.key_of_lookup hk⟩
  · rintro ⟨ha, k, hk⟩
    exact ⟨k, h.lookup_of_mem ha hk⟩

theorem nodup_values (h : Index m key mem) : m.values.Nodup := by
  refine List.Nodup.map_on (fun x hx y hy he => ?_) (List.NodupKeys.nodup m.nodupKeys)
  obtain ⟨k, a⟩ := x
  obtain ⟨k', b⟩ := y
  obtain rfl : a = b := he
  have hk := h.key_of_lookup (AList.mem_lookup_iff.mpr hx)
  have hk' := h.key_of_lookup (AList.mem_lookup_iff.mpr hy)
  rw [hk] at hk'
  rw [Option.some.inj hk']

/-- A set with the same objects, whose keys have stayed, has the same index. -/
theorem congr (h : Index m key mem) (hmem : ∀ a, mem' a ↔ mem a)
    (hkey : ∀ a, mem a → key' a = key a) : Index m key' mem' := by
  intro k a
  rw [h k a, hmem a]
  constructor
  · rintro ⟨ha, hk⟩
    exact ⟨ha, by rw [hkey a ha]; exact hk⟩
  · rintro ⟨ha, hk⟩
    exact ⟨ha, by rw [← hkey a ha]; exact hk⟩

theorem insert (h : Index m key mem) (hfree : m.lookup k = none) (hk : key a = some k) :
    Index (m.insert k a) key fun b => b = a ∨ mem b := by
  intro k' b
  rw [Dict.lookup_insert_ite]
  by_cases hkk : k' = k
  · subst hkk
    rw [if_pos rfl]
    constructor
    · intro hb
      cases hb
      exact ⟨.inl rfl, hk⟩
    · rintro ⟨rfl | hb, hkb⟩
      · rfl
      · rw [h.lookup_of_mem hb hkb] at hfree
        cases hfree
  · rw [if_neg hkk, h k' b]
    constructor
    · rintro ⟨hb, hkb⟩
      exact ⟨.inr hb, hkb⟩
    · rintro ⟨rfl | hb, hkb⟩
      · rw [hk] at hkb
        exact absurd (Option.some.inj hkb).symm hkk
      · exact ⟨hb, hkb⟩

theorem erase (h : Index m key mem) (ha : mem a) (hk : key a = some k) :
    Index (m.erase k) key fun b => mem b ∧ b ≠ a := by
  intro k' b
  rw [Dict.lookup_erase_ite]
  by_cases hkk : k' = k
  · subst hkk
    rw [if_pos rfl]
    constructor
    · intro hb
      cases hb
    · rintro ⟨⟨hb, hne⟩, hkb⟩
      exact absurd (h.unique hb ha hkb hk) hne
  · rw [if_neg hkk, h k' b]
    constructor
    · rintro ⟨hb, hkb⟩
      refine ⟨⟨hb, ?_⟩, hkb⟩
      rintro rfl
      rw [hk] at hkb
      exact hkk (Option.some.inj hkb).symm
    · rintro ⟨⟨hb, _⟩, hkb⟩
      exact ⟨hb, hkb⟩

theorem add (h : Index m key mem) (hk : key a = none) : Index m key fun b => b = a ∨ mem b := by
  intro k b
  rw [h k b]
  constructor
  · rintro ⟨hb, hkb⟩
    exact ⟨.inr hb, hkb⟩
  · rintro ⟨rfl | hb, hkb⟩
    · rw [hk] at hkb
      cases hkb
    · exact ⟨hb, hkb⟩

theorem remove (h : Index m key mem) (hk : key a = none) : Index m key fun b => mem b ∧ b ≠ a := by
  intro k b
  rw [h k b]
  constructor
  · rintro ⟨hb, hkb⟩
    refine ⟨⟨hb, ?_⟩, hkb⟩
    rintro rfl
    rw [hk] at hkb
    cases hkb
  · rintro ⟨⟨hb, _⟩, hkb⟩
    exact ⟨hb, hkb⟩

theorem eraseKey (h : Index m key mem) (ha : mem a) :
    Index (m.eraseKey (key a)) key fun b => mem b ∧ b ≠ a := by
  cases hk : key a with
  | none => exact h.remove hk
  | some k => exact h.erase ha hk

end Index
