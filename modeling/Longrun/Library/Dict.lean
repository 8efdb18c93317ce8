import Mathlib

/-!
# Insertion-ordered dictionaries

A Python dictionary keeps its keys in the order of their first insertion: assigning to a key that
is present keeps its place, and a removed key that comes back goes to the end. An `OrderedDict`
exposes this order through `popitem(last=False)`, which is why a map without an order would not do.
-/

namespace Longrun

universe u v

/-- A dictionary: its entries in insertion order, no key twice. -/
structure Dict (Key : Type u) (Value : Type v) where
  entries : List (Key × Value)
  keys_nodup : (entries.map Prod.fst).Nodup

namespace Dict

variable {Key : Type u} {Value : Type v}

def empty : Dict Key Value := ⟨[], List.nodup_nil⟩

/-- Keeps the entries that satisfy a condition, in their order. -/
def filter (dict : Dict Key Value) (keep : Key × Value → Bool) : Dict Key Value :=
  ⟨dict.entries.filter keep, dict.keys_nodup.sublist (List.filter_sublist.map _)⟩

/-- `popitem(last=False)` until at most `bound` entries are left: the oldest ones go. -/
def evict (dict : Dict Key Value) (bound : Nat) : Dict Key Value :=
  ⟨dict.entries.drop (dict.entries.length - bound),
    dict.keys_nodup.sublist ((List.drop_sublist _ _).map _)⟩

variable [DecidableEq Key]

/-- `dict.get(key)`. -/
def get? (dict : Dict Key Value) (key : Key) : Option Value :=
  (dict.entries.find? fun entry => entry.1 = key).map Prod.snd

/-- `dict.pop(key, None)`. -/
def pop (dict : Dict Key Value) (key : Key) : Dict Key Value :=
  dict.filter fun entry => entry.1 ≠ key

private def assign (entries : List (Key × Value)) (key : Key) (value : Value) : List (Key × Value) :=
  entries.map fun entry => if entry.1 = key then (key, value) else entry

private theorem map_fst_assign (entries : List (Key × Value)) (key : Key) (value : Value) :
    (assign entries key value).map Prod.fst = entries.map Prod.fst := by
  rw [assign, List.map_map]
  apply List.map_congr_left
  intro entry _
  by_cases same : entry.1 = key <;> simp [same]

/-- `dict[key] = value`. -/
def set (dict : Dict Key Value) (key : Key) (value : Value) : Dict Key Value :=
  if present : key ∈ dict.entries.map Prod.fst then
    ⟨assign dict.entries key value, by rw [map_fst_assign]; exact dict.keys_nodup⟩
  else
    ⟨dict.entries ++ [(key, value)], by
      rw [List.map_append, List.nodup_append]
      refine ⟨dict.keys_nodup, List.nodup_singleton _, ?_⟩
      rintro left leftMem right rightMem rfl
      simp only [List.map_cons, List.map_nil, List.mem_singleton] at rightMem
      exact present (rightMem ▸ leftMem)⟩

/-! ### Reading back -/

@[simp]
theorem get?_empty (key : Key) : (empty : Dict Key Value).get? key = none := rfl

/-- An entry is what a lookup of its key finds. -/
theorem mem_entries_iff {dict : Dict Key Value} {key : Key} {value : Value} :
    (key, value) ∈ dict.entries ↔ dict.get? key = some value := by
  rcases dict with ⟨entries, nodup⟩
  induction entries with
  | nil => simp [get?]
  | cons entry entries ih =>
      rw [List.map_cons, List.nodup_cons] at nodup
      rcases nodup with ⟨fresh, nodup⟩
      specialize ih nodup
      simp only [get?] at ih
      simp only [get?, List.mem_cons, List.find?_cons]
      by_cases same : entry.1 = key
      · subst same
        have absent : (entry.1, value) ∉ entries :=
          fun mem => fresh (List.mem_map.mpr ⟨_, mem, rfl⟩)
        simp [absent, Prod.ext_iff, eq_comm]
      · have other : (key, value) ≠ entry := fun equal => same (by rw [← equal])
        simp [same, other, ih]

theorem get?_filter {dict : Dict Key Value} {keep : Key × Value → Bool} {key : Key}
    {value : Value} :
    (dict.filter keep).get? key = some value ↔
      dict.get? key = some value ∧ keep (key, value) = true := by
  rw [← mem_entries_iff, ← mem_entries_iff]
  simp [filter]

theorem get?_evict {dict : Dict Key Value} {bound : Nat} {key : Key} {value : Value}
    (found : (dict.evict bound).get? key = some value) : dict.get? key = some value := by
  rw [← mem_entries_iff] at found ⊢
  exact List.mem_of_mem_drop found

@[simp]
theorem get?_pop_self (dict : Dict Key Value) (key : Key) : (dict.pop key).get? key = none := by
  rw [Option.eq_none_iff_forall_ne_some]
  intro value found
  rw [pop, get?_filter] at found
  simp at found

@[simp]
theorem get?_pop_of_ne (dict : Dict Key Value) {key other : Key} (different : other ≠ key) :
    (dict.pop key).get? other = dict.get? other := by
  ext value
  rw [pop, get?_filter]
  simp [different]

theorem get?_pop (dict : Dict Key Value) (key other : Key) :
    (dict.pop key).get? other = if other = key then none else dict.get? other := by
  by_cases same : other = key
  · simp [same]
  · simp [same]

@[simp]
theorem get?_set_self (dict : Dict Key Value) (key : Key) (value : Value) :
    (dict.set key value).get? key = some value := by
  rw [← mem_entries_iff, set]
  split
  · rename_i present
    rcases List.mem_map.mp present with ⟨entry, mem, rfl⟩
    exact List.mem_map.mpr ⟨entry, mem, by simp⟩
  · simp

@[simp]
theorem get?_set_of_ne (dict : Dict Key Value) {key other : Key} (value : Value)
    (different : other ≠ key) : (dict.set key value).get? other = dict.get? other := by
  ext found
  rw [← mem_entries_iff, ← mem_entries_iff, set]
  split
  · simp only [assign, List.mem_map, Prod.exists]
    constructor
    · rintro ⟨entryKey, entryValue, mem, equal⟩
      by_cases same : entryKey = key
      · simp only [same, if_true, Prod.mk.injEq] at equal
        exact absurd equal.1.symm different
      · simpa [same, ← equal] using mem
    · intro mem
      exact ⟨other, found, mem, by simp [different]⟩
  · simp [different]

theorem get?_set (dict : Dict Key Value) (key other : Key) (value : Value) :
    (dict.set key value).get? other = if other = key then some value else dict.get? other := by
  by_cases same : other = key
  · simp [same]
  · simp [same]

theorem isSome_get?_iff {dict : Dict Key Value} {key : Key} :
    (dict.get? key).isSome = true ↔ key ∈ dict.entries.map Prod.fst := by
  rw [Option.isSome_iff_exists, List.mem_map]
  constructor
  · rintro ⟨value, found⟩
    exact ⟨(key, value), mem_entries_iff.mpr found, rfl⟩
  · rintro ⟨⟨_, value⟩, mem, rfl⟩
    exact ⟨value, mem_entries_iff.mp mem⟩

/-- A new key goes to the end, and the oldest keys go. -/
theorem keys_evict_set (dict : Dict Key Value) {key : Key}
    (absent : key ∉ dict.entries.map Prod.fst) (value : Value) (bound : Nat) :
    ((dict.set key value).evict bound).entries.map Prod.fst =
      (dict.entries.map Prod.fst ++ [key]).drop (dict.entries.length + 1 - bound) := by
  rw [set, dif_neg absent, evict]
  simp [List.map_drop]

end Dict

end Longrun
