import Mathlib.Data.List.Nodup

/-!
# Finite maps in order of insertion

The purpose of a hash table with an insertion list, stated without tables: a list
of values whose keys are pairwise distinct, the oldest value first.  A table without
such a list is one of these maps whose order nothing reads.
-/

namespace Wan.Library

/-- A finite map given by its values in the order in which they were inserted. -/
@[ext]
structure InsertionMap {K V : Type} (key : V → K) where
  toList : List V
  distinct : (toList.map key).Nodup

namespace InsertionMap

variable {K V : Type} {key : V → K} {v w : V} {earlier later : List V}

/-- The map without values. -/
def empty : InsertionMap key := ⟨[], List.nodup_nil⟩

/-- The number of values. -/
def size (map : InsertionMap key) : Nat := map.toList.length

/-- No other value has the key of a stored one. -/
theorem key_ne_of_mem {map : InsertionMap key} (split : map.toList = earlier ++ v :: later)
    (member : w ∈ earlier ++ later) : key w ≠ key v := by
  have distinct := map.distinct
  rw [split] at distinct
  have moved : ((v :: (earlier ++ later)).map key).Nodup :=
    (List.perm_middle.map key).nodup distinct
  rw [List.map_cons, List.nodup_cons] at moved
  intro same
  exact moved.1 (List.mem_map.mpr ⟨w, member, same⟩)

variable [DecidableEq K]

/-- The value stored under a key. -/
def find? (map : InsertionMap key) (k : K) : Option V :=
  map.toList.find? fun v => key v = k

variable {map : InsertionMap key} {k : K}

theorem find?_eq_none : map.find? k = none ↔ ∀ v ∈ map.toList, key v ≠ k := by
  simp [find?]

/-- Store a value unless its key is taken. -/
def insert (map : InsertionMap key) (v : V) : InsertionMap key :=
  if absent : map.find? (key v) = none then
    { toList := map.toList ++ [v]
      distinct := by
        rw [find?_eq_none] at absent
        rw [List.map_append, List.nodup_append]
        refine ⟨map.distinct, List.nodup_singleton _, ?_⟩
        intro k member other single
        rcases List.mem_map.mp member with ⟨w, stored, rfl⟩
        rw [List.map_singleton, List.mem_singleton] at single
        rw [single]
        exact absent w stored }
  else
    map

/-- Remove the value stored under a key. -/
def erase (map : InsertionMap key) (k : K) : InsertionMap key where
  toList := map.toList.filter fun v => key v ≠ k
  distinct := map.distinct.sublist (List.filter_sublist.map key)

theorem insert_of_some (present : map.find? (key v) = some w) : map.insert v = map := by
  simp [insert, present]

theorem insert_of_none (absent : map.find? (key v) = none) :
    (map.insert v).toList = map.toList ++ [v] := by
  simp [insert, absent]

/-- What is stored stays when a value is inserted. -/
theorem mem_insert (stored : w ∈ map.toList) : w ∈ (map.insert v).toList := by
  rw [insert]
  split
  · exact List.mem_append_left _ stored
  · exact stored

theorem erase_of_none (absent : map.find? k = none) : map.erase k = map := by
  rw [find?_eq_none] at absent
  ext1
  exact List.filter_eq_self.mpr fun v member => by simpa using absent v member

section Middle

variable (split : map.toList = earlier ++ v :: later)

include split

/-- A stored value is found under its key. -/
theorem find?_middle : map.find? (key v) = some v := by
  rw [find?, split, List.find?_append, List.find?_eq_none.mpr]
  · simp
  · intro w member
    simpa using key_ne_of_mem split (List.mem_append_left _ member)

/-- Erasing removes exactly the value stored under the key. -/
theorem erase_middle : (map.erase (key v)).toList = earlier ++ later := by
  have filtered : (map.erase (key v)).toList =
      (earlier ++ v :: later).filter fun w => key w ≠ key v := by
    rw [← split]
    rfl
  rw [filtered, List.filter_append, List.filter_cons_of_neg (by simp), ← List.filter_append]
  exact List.filter_eq_self.mpr fun w member => by simpa using key_ne_of_mem split member

end Middle

section Overwrite

/-- Put a value in the place of the one that has its key. -/
def overwrite (key : V → K) (v w : V) : V := if key w = key v then v else w

theorem comp_overwrite (v : V) : key ∘ overwrite key v = key := by
  funext w
  rw [Function.comp_apply, overwrite]
  split
  next same => exact same.symm
  next => rfl

/-- Store a value under its key, in the place of the value that was there. -/
def assign (map : InsertionMap key) (v : V) : InsertionMap key :=
  if map.find? (key v) = none then
    map.insert v
  else
    { toList := map.toList.map (overwrite key v)
      distinct := by
        rw [List.map_map, comp_overwrite]
        exact map.distinct }

/-- Keep the values that satisfy a predicate. -/
def filter (map : InsertionMap key) (keeps : V → Bool) : InsertionMap key where
  toList := map.toList.filter keeps
  distinct := map.distinct.sublist (List.filter_sublist.map key)

theorem mem_of_find? (found : map.find? k = some v) : v ∈ map.toList :=
  List.mem_of_find?_eq_some found

theorem key_of_find? (found : map.find? k = some v) : key v = k := by
  simpa using List.find?_some found

theorem find?_of_mem (stored : v ∈ map.toList) : map.find? (key v) = some v := by
  rcases List.append_of_mem stored with ⟨earlier, later, split⟩
  exact find?_middle split

/-- What is found under a key after any change of the list that keeps its keys apart. -/
theorem find?_eq_some : map.find? k = some v ↔ v ∈ map.toList ∧ key v = k := by
  constructor
  · intro found
    exact ⟨mem_of_find? found, key_of_find? found⟩
  · rintro ⟨stored, rfl⟩
    exact find?_of_mem stored

theorem mem_assign : w ∈ (map.assign v).toList ↔ w = v ∨ w ∈ map.toList ∧ key w ≠ key v := by
  rw [assign]
  split
  next absent =>
    rw [insert_of_none absent, List.mem_append, List.mem_singleton, or_comm]
    rw [find?_eq_none] at absent
    constructor
    · intro found
      exact found.imp_right fun stored => ⟨stored, absent w stored⟩
    · intro found
      exact found.imp_right And.left
  next present =>
    rcases Option.ne_none_iff_exists'.mp present with ⟨older, found⟩
    rw [List.mem_map]
    constructor
    · rintro ⟨other, stored, rfl⟩
      rw [overwrite]
      split
      next => exact .inl rfl
      next different => exact .inr ⟨stored, different⟩
    · rintro (rfl | ⟨stored, different⟩)
      · exact ⟨older, mem_of_find? found, if_pos (key_of_find? found)⟩
      · exact ⟨w, stored, if_neg different⟩

theorem find?_assign : (map.assign v).find? k = if key v = k then some v else map.find? k := by
  split
  next same => exact find?_eq_some.mpr ⟨mem_assign.mpr (.inl rfl), same⟩
  next different =>
    apply Option.ext
    intro w
    rw [find?_eq_some, find?_eq_some, mem_assign]
    constructor
    · rintro ⟨rfl | ⟨stored, -⟩, found⟩
      · exact absurd found different
      · exact ⟨stored, found⟩
    · rintro ⟨stored, rfl⟩
      exact ⟨.inr ⟨stored, Ne.symm different⟩, rfl⟩

/-- After storing values one after the other, the last one of a key is found. -/
theorem find?_foldl_assign (values : List V) :
    (values.foldl assign map).find? k =
      (values.reverse.find? fun v => key v = k).or (map.find? k) := by
  induction values generalizing map with
  | nil => rfl
  | cons v values ih =>
      rw [List.foldl_cons, ih, find?_assign, List.reverse_cons, List.find?_append,
        Option.or_assoc, List.find?_singleton]
      congr 1
      by_cases same : key v = k <;> simp [same]

/-- Storing values with distinct keys makes a map of these values. -/
theorem find?_foldl_assign_of_nodup {values : List V} (distinct : (values.map key).Nodup) :
    (values.foldl assign (empty : InsertionMap key)).find? k =
      values.find? fun v => key v = k := by
  have reversed : (values.reverse.map key).Nodup := by
    rw [List.map_reverse]
    exact List.nodup_reverse.mpr distinct
  have same : (⟨values.reverse, reversed⟩ : InsertionMap key).find? k =
      (⟨values, distinct⟩ : InsertionMap key).find? k := by
    apply Option.ext
    intro v
    rw [find?_eq_some, find?_eq_some, List.mem_reverse]
  rw [find?_foldl_assign]
  exact (Option.or_none ..).trans same

theorem find?_erase {k' : K} :
    (map.erase k).find? k' = if k' = k then none else map.find? k' := by
  split
  next same =>
    rw [find?_eq_none]
    intro w kept
    rw [same]
    simpa using (List.mem_filter.mp kept).2
  next different =>
    apply Option.ext
    intro w
    rw [find?_eq_some, find?_eq_some, erase, List.mem_filter]
    constructor
    · rintro ⟨⟨stored, -⟩, found⟩
      exact ⟨stored, found⟩
    · rintro ⟨stored, rfl⟩
      exact ⟨⟨stored, by simpa using different⟩, rfl⟩

theorem find?_filter {keeps : V → Bool} :
    (map.filter keeps).find? k = (map.find? k).filter keeps := by
  apply Option.ext
  intro w
  rw [find?_eq_some, filter, List.mem_filter, Option.filter_eq_some_iff, find?_eq_some,
    and_right_comm]

theorem size_assign_of_none (absent : map.find? (key v) = none) :
    (map.assign v).size = map.size + 1 := by
  rw [assign, if_pos absent, size, insert_of_none absent, List.length_append,
    List.length_singleton, size]

theorem size_assign_of_some (present : map.find? (key v) = some w) :
    (map.assign v).size = map.size := by
  rw [assign, if_neg (by simp [present]), size, List.length_map, size]

omit [DecidableEq K] in
theorem size_filter_le {keeps : V → Bool} : (map.filter keeps).size ≤ map.size :=
  List.length_filter_le ..

theorem size_erase_le : (map.erase k).size ≤ map.size := List.length_filter_le ..

end Overwrite

end InsertionMap

end Wan.Library
