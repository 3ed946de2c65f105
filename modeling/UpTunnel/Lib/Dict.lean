import Mathlib.Data.List.AList

/-!
# UpTunnel.Lib.Dict

Finite maps with at most one value for a key, as Mathlib's association lists. Added here: the list
of values and how often one occurs in it, and the update lemmas with the key comparison in the
statement.
-/

/-- A finite map; the keys of `entries` are pairwise different. -/
abbrev Dict (κ ν : Type*) := AList fun _ : κ => ν

namespace Dict

variable {κ ν : Type*} [DecidableEq κ]

theorem lookup_insert_ite (m : Dict κ ν) (k k' : κ) (v : ν) :
    (m.insert k v).lookup k' = if k' = k then some v else m.lookup k' := by
  by_cases h : k' = k
  · subst h; simp
  · rw [AList.lookup_insert_ne h, if_neg h]

theorem lookup_erase_ite (m : Dict κ ν) (k k' : κ) :
    (m.erase k).lookup k' = if k' = k then none else m.lookup k' := by
  by_cases h : k' = k
  · subst h; simp
  · rw [AList.lookup_erase_ne h, if_neg h]

omit [DecidableEq κ] in
theorem eq_empty {m : Dict κ ν} (h : ∀ k, k ∉ m) : m = ∅ := by
  obtain ⟨entries, hnd⟩ := m
  cases entries with
  | nil => rfl
  | cons e l => exact absurd (AList.mem_keys.mpr (by simp [AList.keys])) (h e.1)

def size (m : Dict κ ν) : Nat := m.entries.length

def values (m : Dict κ ν) : List ν := m.entries.map (·.2)

theorem mem_values {m : Dict κ ν} {v : ν} : v ∈ m.values ↔ ∃ k, m.lookup k = some v := by
  constructor
  · intro h
    obtain ⟨⟨k, v'⟩, he, rfl⟩ := List.mem_map.mp h
    exact ⟨k, AList.mem_lookup_iff.mpr he⟩
  · rintro ⟨k, h⟩
    exact List.mem_map.mpr ⟨⟨k, v⟩, AList.mem_lookup_iff.mp h, rfl⟩

theorem values_insert {m : Dict κ ν} {k : κ} (v : ν) (h : k ∉ m) : values (m.insert k v) = v :: m.values := by
  rw [values, AList.entries_insert_of_notMem h]
  rfl

/-- An erased entry was counted once. -/
theorem count_values_erase [DecidableEq ν] {m : Dict κ ν} {k : κ} {v : ν} (h : m.lookup k = some v) (w : ν) :
    m.values.count w = (values (m.erase k)).count w + if w = v then 1 else 0 := by
  have hk : k ∈ m.entries.keys := List.dlookup_isSome.mp (by rw [show m.entries.dlookup k = some v from h]; rfl)
  obtain ⟨u, l1, l2, hn, he, hr⟩ := List.exists_of_kerase hk
  have hu : u = v := by
    have h2 : (l1 ++ ⟨k, u⟩ :: l2).dlookup k = some v := he ▸ h
    rw [List.dlookup_append, List.dlookup_eq_none.mpr hn] at h2
    simpa using h2
  subst hu
  have he' : (m.erase k).entries = l1 ++ l2 := hr
  simp only [values, he, he', List.map_append, List.map_cons, List.count_append, List.count_cons]
  by_cases hw : w = u
  · subst hw
    simp
    omega
  · simp [hw, Ne.symm hw]

end Dict
