import Mathlib.Algebra.Ring.Nat
import Mathlib.Order.Lattice
import Mathlib.Order.Defs.Unbundled
import Mathlib.Order.Defs.LinearOrder
import Mathlib.Data.List.Basic
import Mathlib.Data.List.TakeWhile

/-!
# Finite ordered maps

The purpose of a search tree, stated without trees: a list of values whose keys
are strictly increasing for a comparator that is a strict weak order.  Keys that
neither precede each other count as the same key.
-/

namespace Wan.Library

section Comparator

variable {K : Type} (lt : K → K → Bool)

/-- The comparator is a strict weak order. -/
abbrev StrictWeak : Prop := IsStrictWeakOrder K fun a b => lt a b = true

/-- Neither key comes before the other. -/
def equivalent (a b : K) : Bool := !lt a b && !lt b a

variable {lt} {a b c : K}

theorem equivalent_iff : equivalent lt a b = true ↔ lt a b = false ∧ lt b a = false := by
  simp [equivalent]

theorem equivalent_comm : equivalent lt a b = equivalent lt b a := by
  simp [equivalent, Bool.and_comm]

theorem lt_ne_equivalent (before : lt a b = true) : equivalent lt a b = false := by
  simp [equivalent, before]

variable [StrictWeak lt]

theorem lt_irrefl (a : K) : lt a a = false := by
  simpa using (inferInstance : StrictWeak lt).irrefl a

theorem lt_trans (first : lt a b = true) (second : lt b c = true) : lt a c = true :=
  (inferInstance : StrictWeak lt).trans a b c first second

theorem lt_asymm (first : lt a b = true) : lt b a = false := by
  by_contra second
  rw [Bool.not_eq_false] at second
  simpa [lt_irrefl] using lt_trans first second

theorem equivalent_trans (first : equivalent lt a b = true)
    (second : equivalent lt b c = true) : equivalent lt a c = true := by
  rw [equivalent_iff] at *
  have whole := (inferInstance : StrictWeak lt).incomp_trans a b c
    (by simpa using first) (by simpa using second)
  simpa using whole

/-- Equivalent keys stand on the same side of every other key. -/
theorem lt_of_lt_of_equivalent (first : lt a b = true) (second : equivalent lt b c = true) :
    lt a c = true := by
  by_contra notBefore
  rw [Bool.not_eq_true] at notBefore
  cases later : lt c a with
  | true =>
      have reversed := lt_trans later first
      simp [(equivalent_iff.mp second).2] at reversed
  | false =>
      have same : equivalent lt a c = true := equivalent_iff.mpr ⟨notBefore, later⟩
      have joined := equivalent_trans same (equivalent_comm.trans second)
      simp [lt_ne_equivalent first] at joined

theorem lt_of_equivalent_of_lt (first : equivalent lt a b = true) (second : lt b c = true) :
    lt a c = true := by
  by_contra notBefore
  rw [Bool.not_eq_true] at notBefore
  cases later : lt c a with
  | true =>
      have reversed := lt_trans second later
      simp [(equivalent_iff.mp first).2] at reversed
  | false =>
      have same : equivalent lt a c = true := equivalent_iff.mpr ⟨notBefore, later⟩
      have joined := equivalent_trans (equivalent_comm.trans first) same
      simp [lt_ne_equivalent second] at joined

/-- The comparator of a linear order. -/
def less [LinearOrder K] (a b : K) : Bool := decide (a < b)

instance [LinearOrder K] : StrictWeak (less (K := K)) where
  irrefl a := by simp [less]
  trans a b c first second := by
    simp only [less, decide_eq_true_eq] at *
    exact first.trans second
  incomp_trans a b c first second := by
    simp only [less, decide_eq_true_eq, not_lt] at *
    exact ⟨second.1.trans first.1, first.2.trans second.2⟩

end Comparator

/-- A finite map given by its values in strictly increasing order of their
keys. -/
@[ext]
structure OrderedMap {K V : Type} (key : V → K) (lt : K → K → Bool) where
  toList : List V
  sorted : toList.Pairwise fun v w => lt (key v) (key w) = true

namespace OrderedMap

variable {K V : Type} {key : V → K} {lt : K → K → Bool}

/-- The map without values. -/
def empty : OrderedMap key lt := ⟨[], List.Pairwise.nil⟩

/-- The value stored under a key. -/
def find? (map : OrderedMap key lt) (k : K) : Option V :=
  map.toList.find? fun v => equivalent lt (key v) k

/-- The number of values. -/
def size (map : OrderedMap key lt) : Nat := map.toList.length

/-- Remove the value stored under a key. -/
def erase (map : OrderedMap key lt) (k : K) : OrderedMap key lt where
  toList := map.toList.filter fun v => !equivalent lt (key v) k
  sorted := map.sorted.filter _

variable {map : OrderedMap key lt} {k : K} {v w : V} {earlier later : List V}

theorem find?_eq_none : map.find? k = none ↔ ∀ w ∈ map.toList, equivalent lt (key w) k = false := by
  simp [find?]

theorem erase_of_none (absent : map.find? k = none) : map.erase k = map := by
  rw [find?_eq_none] at absent
  ext1
  exact List.filter_eq_self.mpr fun w member => by simp [absent w member]

theorem find?_erase (map : OrderedMap key lt) (k : K) : (map.erase k).find? k = none := by
  rw [find?_eq_none]
  intro w member
  simpa using (List.mem_filter.mp member).2

/-- A key between two neighbours is not in the map. -/
theorem find?_between (split : map.toList = earlier ++ later)
    (below : ∀ w ∈ earlier, lt (key w) k = true)
    (above : ∀ w ∈ later, lt k (key w) = true) : map.find? k = none := by
  rw [find?_eq_none, split]
  intro w member
  rcases List.mem_append.mp member with member | member
  · exact lt_ne_equivalent (below w member)
  · rw [equivalent_comm]
    exact lt_ne_equivalent (above w member)

variable [StrictWeak lt]

/-- A key that is not in the map splits it into what comes before and after. -/
theorem sorted_around (map : OrderedMap key lt) (absent : map.find? (key v) = none) :
    ((map.toList.takeWhile fun w => lt (key w) (key v)) ++
      v :: (map.toList.dropWhile fun w => lt (key w) (key v))).Pairwise
        fun v w => lt (key v) (key w) = true := by
  rw [find?_eq_none] at absent
  have parts := map.sorted
  rw [← List.takeWhile_append_dropWhile (p := fun w => lt (key w) (key v)) (l := map.toList),
    List.pairwise_append] at parts
  rcases parts with ⟨first, second, across⟩
  have above : ∀ w ∈ map.toList.dropWhile fun w => lt (key w) (key v),
      lt (key v) (key w) = true := by
    cases rest : map.toList.dropWhile fun w => lt (key w) (key v) with
    | nil => simp
    | cons head tail =>
        have headMember : head ∈ map.toList :=
          (List.dropWhile_sublist _).subset (by rw [rest]; exact List.mem_cons_self)
        have headFails : lt (key head) (key v) = false := by
          simpa [rest] using List.head_dropWhile_not (p := fun w => lt (key w) (key v))
            (l := map.toList) (by simp [rest])
        have headAbove : lt (key v) (key head) = true := by
          simpa [equivalent, headFails] using absent head headMember
        rw [rest, List.pairwise_cons] at second
        intro w member
        rcases List.mem_cons.mp member with rfl | member
        · exact headAbove
        · exact lt_trans headAbove (second.1 w member)
  rw [List.pairwise_append, List.pairwise_cons]
  refine ⟨first, ⟨above, second⟩, ?_⟩
  intro w member other otherMember
  have below : lt (key w) (key v) = true := by simpa using List.mem_takeWhile_imp member
  rcases List.mem_cons.mp otherMember with rfl | otherMember
  · exact below
  · exact lt_trans below (above other otherMember)

/-- Store a value unless its key is taken. -/
def insert (map : OrderedMap key lt) (v : V) : OrderedMap key lt :=
  if absent : map.find? (key v) = none then
    ⟨_, map.sorted_around absent⟩
  else
    map

theorem insert_of_some (present : map.find? (key v) = some w) : map.insert v = map := by
  simp [insert, present]

/-- A value whose key lies between two neighbours is inserted there. -/
theorem insert_between (split : map.toList = earlier ++ later)
    (below : ∀ w ∈ earlier, lt (key w) (key v) = true)
    (above : ∀ w ∈ later, lt (key v) (key w) = true) :
    (map.insert v).toList = earlier ++ v :: later := by
  have absent := find?_between split below above
  simp only [insert, absent, dite_true, split]
  rw [List.takeWhile_append_of_pos below, List.dropWhile_append_of_pos below]
  cases later with
  | nil => simp
  | cons head tail =>
      have fails : lt (key head) (key v) = false :=
        lt_asymm (above head List.mem_cons_self)
      simp [fails]

section Middle

variable (split : map.toList = earlier ++ v :: later) (same : equivalent lt (key v) k = true)

include split same

/-- A value is found under every equivalent key. -/
theorem find?_middle : map.find? k = some v := by
  have sorted := map.sorted
  rw [split, List.pairwise_append] at sorted
  rw [find?, split, List.find?_append, List.find?_eq_none.mpr]
  · simp [same]
  · intro w member
    have before := sorted.2.2 w member v List.mem_cons_self
    simp [lt_ne_equivalent (lt_of_lt_of_equivalent before same)]

/-- Erasing removes exactly the value with an equivalent key. -/
theorem erase_middle : (map.erase k).toList = earlier ++ later := by
  have sorted := map.sorted
  rw [split, List.pairwise_append, List.pairwise_cons] at sorted
  rcases sorted with ⟨_, ⟨above, _⟩, across⟩
  simp only [erase, split, List.filter_append, List.filter_cons, same, Bool.not_true]
  have keepEarlier : ∀ w ∈ earlier, (!equivalent lt (key w) k) = true := by
    intro w member
    have before := across w member v List.mem_cons_self
    simp [lt_ne_equivalent (lt_of_lt_of_equivalent before same)]
  have keepLater : ∀ w ∈ later, (!equivalent lt (key w) k) = true := by
    intro w member
    have after := lt_of_equivalent_of_lt (equivalent_comm.trans same) (above w member)
    rw [equivalent_comm, lt_ne_equivalent after]
    rfl
  rw [List.filter_eq_self.mpr keepEarlier, List.filter_eq_self.mpr keepLater]
  rfl

end Middle

section Assign

/-- Store a value in place of any value with an equivalent key. -/
def assign (map : OrderedMap key lt) (v : V) : OrderedMap key lt := (map.erase (key v)).insert v

theorem mem_insert (absent : map.find? (key v) = none) :
    w ∈ (map.insert v).toList ↔ w = v ∨ w ∈ map.toList := by
  have parts := List.takeWhile_append_dropWhile (p := fun w => lt (key w) (key v)) (l := map.toList)
  rw [insert, dif_pos absent]
  conv_rhs => rw [← parts]
  simp only [List.mem_append, List.mem_cons]
  constructor
  · rintro (before | same | after)
    · exact .inr (.inl before)
    · exact .inl same
    · exact .inr (.inr after)
  · rintro (same | before | after)
    · exact .inr (.inl same)
    · exact .inl before
    · exact .inr (.inr after)

theorem mem_of_mem_insert (member : w ∈ (map.insert v).toList) : w = v ∨ w ∈ map.toList := by
  cases absent : map.find? (key v) with
  | none => exact (mem_insert absent).mp member
  | some other =>
      rw [insert_of_some absent] at member
      exact .inr member

/-- An assigned map holds the new value and all others with different keys. -/
theorem mem_assign : w ∈ (map.assign v).toList ↔
    w = v ∨ (w ∈ map.toList ∧ equivalent lt (key w) (key v) = false) := by
  rw [assign, mem_insert (find?_erase map (key v)), erase, List.mem_filter]
  simp

theorem size_assign_le : (map.assign v).size ≤ map.size + 1 := by
  have parts := congrArg List.length
    (List.takeWhile_append_dropWhile (p := fun w => lt (key w) (key v))
      (l := (map.erase (key v)).toList))
  have short : (map.erase (key v)).toList.length ≤ map.toList.length := List.length_filter_le _ _
  rw [assign, insert, dif_pos (find?_erase map (key v)), size, size]
  rw [List.length_append] at parts
  simp only [List.length_append, List.length_cons]
  omega

/-- A value behind all others is appended. -/
theorem assign_last (last : ∀ w ∈ map.toList, lt (key w) (key v) = true) :
    (map.assign v).toList = map.toList ++ [v] := by
  have absent : map.find? (key v) = none := by
    rw [find?_eq_none]
    exact fun w member => lt_ne_equivalent (last w member)
  rw [assign, erase_of_none absent]
  exact insert_between (List.append_nil _).symm last nofun

theorem foldl_assign_toList {values : List V} (map : OrderedMap key lt)
    (sorted : (map.toList ++ values).Pairwise fun v w => lt (key v) (key w) = true) :
    (values.foldl assign map).toList = map.toList ++ values := by
  induction values generalizing map with
  | nil => rw [List.foldl_nil, List.append_nil]
  | cons v values ih =>
      have last : ∀ w ∈ map.toList, lt (key w) (key v) = true := by
        intro w member
        exact (List.pairwise_append.mp sorted).2.2 w member v (List.mem_cons_self ..)
      have appended := assign_last last
      rw [List.foldl_cons, ih, appended, List.append_assoc, List.singleton_append]
      rw [appended, List.append_assoc, List.singleton_append]
      exact sorted

/-- A map is rebuilt by assigning its values in their order. -/
theorem foldl_assign (map : OrderedMap key lt) : map.toList.foldl assign empty = map := by
  ext1
  exact foldl_assign_toList empty map.sorted

/-- Maps with the same values are equal. -/
theorem ext_mem {other : OrderedMap key lt} (same : ∀ w, w ∈ map.toList ↔ w ∈ other.toList) :
    map = other := by
  have distinct : ∀ m : OrderedMap key lt, m.toList.Nodup := by
    intro m
    refine m.sorted.imp fun {v w} before equal => ?_
    have never := (lt_irrefl (key w) : lt (key w) (key w) = false)
    rw [equal, never] at before
    cases before
  ext1
  apply List.Perm.eq_of_pairwise _ map.sorted other.sorted
  · exact (List.perm_ext_iff_of_nodup (distinct map) (distinct other)).mpr same
  · intro v w _ _ before after
    rw [lt_asymm before] at after
    cases after

end Assign

end OrderedMap

end Wan.Library
