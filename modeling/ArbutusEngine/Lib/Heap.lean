import Mathlib.Data.List.Basic

/-!
# A heap that never reuses an address

Objects of one type live in a list of cells; the address of an object is its position. Allocation
appends a cell, and freeing an object empties its cell, so that an address, once handed out, either
still names the object it was handed out for or names nothing. A read through a dangling pointer is
therefore visible as a read of an empty cell.

## Main definitions

* `Heap`, `Heap.get?`, `Heap.alloc`, `Heap.free`, `Heap.set`, `Heap.freeAll`.
* `Heap.Live`: a list of addresses of allocated objects.

## Main results

* `Heap.get?_alloc`, `Heap.get?_free`, `Heap.get?_freeAll`, `Heap.get?_set`: what a read sees after
  each operation.
-/

/-- An address, the identity of an allocated object. -/
abbrev Addr : Type := ℕ

/-- The cells of a heap; a freed cell is empty. -/
structure Heap (α : Type) where
  cells : List (Option α)
  deriving DecidableEq

namespace Heap

variable {α : Type} (h : Heap α)

/-- The heap before any allocation. -/
def empty : Heap α := ⟨[]⟩

/-- The object at an address, if it has been allocated and not freed. -/
def get? (a : Addr) : Option α := h.cells[a]?.join

/-- The address the next allocation hands out. -/
def next : Addr := h.cells.length

/-- Allocate an object at the address `h.next`. -/
def alloc (x : α) : Heap α := ⟨h.cells ++ [some x]⟩

/-- Free the object at an address. -/
def free (a : Addr) : Heap α := ⟨h.cells.set a none⟩

/-- Overwrite the object at an address. -/
def set (a : Addr) (x : α) : Heap α := ⟨h.cells.set a (some x)⟩

/-- Free the objects at a list of addresses. -/
def freeAll (l : List Addr) : Heap α := l.foldl free h

/-- Every address of the list holds an object. -/
def Live (l : List Addr) : Prop := ∀ a ∈ l, ∃ x, h.get? a = some x

@[simp] theorem get?_empty (a : Addr) : (empty : Heap α).get? a = none := rfl

@[simp] theorem next_alloc (x : α) : (h.alloc x).next = h.next + 1 := by
  simp [next, alloc]

@[simp] theorem next_free (a : Addr) : (h.free a).next = h.next := by
  simp [next, free]

@[simp] theorem next_set (a : Addr) (x : α) : (h.set a x).next = h.next := by
  simp [next, set]

/-- A live object lies below the next address. -/
theorem lt_next_of_get? {a : Addr} {x : α} (hx : h.get? a = some x) : a < h.next := by
  by_contra hge
  rw [get?, List.getElem?_eq_none (Nat.le_of_not_lt hge)] at hx
  cases hx

/-- After an allocation the new address holds the new object and every other read is as before. -/
theorem get?_alloc (x : α) (a : Addr) :
    (h.alloc x).get? a = if a = h.next then some x else h.get? a := by
  rcases Nat.lt_trichotomy a h.next with hlt | heq | hgt
  · rw [if_neg (Nat.ne_of_lt hlt), get?, alloc, List.getElem?_append_left hlt, get?]
  · rw [if_pos heq, heq]
    simp [get?, alloc, next]
  · rw [if_neg (Nat.ne_of_gt hgt), get?, get?, List.getElem?_eq_none (Nat.le_of_lt hgt),
      List.getElem?_eq_none]
    rw [alloc, List.length_append, List.length_singleton]
    exact hgt

theorem get?_alloc_next (x : α) : (h.alloc x).get? h.next = some x := by
  rw [get?_alloc, if_pos rfl]

theorem get?_alloc_of_some {x y : α} {a : Addr} (hy : h.get? a = some y) :
    (h.alloc x).get? a = some y := by
  rw [get?_alloc, if_neg (Nat.ne_of_lt (h.lt_next_of_get? hy)), hy]

/-- Freeing empties one cell and no other. -/
theorem get?_free (a b : Addr) : (h.free a).get? b = if b = a then none else h.get? b := by
  by_cases hba : b = a
  · subst hba
    rw [if_pos rfl, get?, free]
    by_cases hb : b < h.cells.length
    · rw [List.getElem?_set_self hb]
      rfl
    · rw [List.getElem?_eq_none (by simpa using Nat.le_of_not_lt hb)]
      rfl
  · rw [if_neg hba, get?, free, List.getElem?_set_ne (Ne.symm hba), get?]

theorem get?_free_of_ne {a b : Addr} (hba : b ≠ a) : (h.free a).get? b = h.get? b := by
  rw [get?_free, if_neg hba]

@[simp] theorem next_freeAll (l : List Addr) : (h.freeAll l).next = h.next := by
  induction l generalizing h with
  | nil => rfl
  | cons a rest ih => rw [freeAll, List.foldl_cons, ← freeAll, ih, next_free]

/-- Freeing a list empties the cells of the list and no other. -/
theorem get?_freeAll (l : List Addr) (b : Addr) :
    (h.freeAll l).get? b = if b ∈ l then none else h.get? b := by
  induction l generalizing h with
  | nil => simp [freeAll]
  | cons a l ih =>
    rw [freeAll, List.foldl_cons, ← freeAll, ih, get?_free]
    by_cases hba : b = a <;> by_cases hbl : b ∈ l <;> simp [hba, hbl]

/-- An object allocated and overwritten at once is the object written. -/
theorem set_alloc_next (x y : α) : (h.alloc x).set h.next y = h.alloc y := by
  simp [set, alloc, next]

/-- Overwriting a live object changes that object and no other. -/
theorem get?_set {a : Addr} {x : α} (hx : h.get? a = some x) (y : α) (b : Addr) :
    (h.set a y).get? b = if b = a then some y else h.get? b := by
  by_cases hba : b = a
  · subst hba
    rw [if_pos rfl, get?, set, List.getElem?_set_self (h.lt_next_of_get? hx)]
    rfl
  · rw [if_neg hba, get?, set, List.getElem?_set_ne (Ne.symm hba), get?]

/-! ### Live addresses -/

variable {h}

/-- Overwriting two objects in either order. -/
theorem set_set_of_ne {a b : Addr} (x y : α) (hab : a ≠ b) :
    (h.set a x).set b y = (h.set b y).set a x :=
  congrArg mk (List.set_comm _ _ hab)

theorem Live.alloc {l : List Addr} (hl : h.Live l) (x : α) : (h.alloc x).Live l := by
  intro a ha
  obtain ⟨y, hy⟩ := hl a ha
  exact ⟨y, h.get?_alloc_of_some hy⟩

theorem Live.append_next {l : List Addr} (hl : h.Live l) (x : α) :
    (h.alloc x).Live (l ++ [h.next]) := by
  intro a ha
  rcases List.mem_append.mp ha with ha | ha
  · exact hl.alloc x a ha
  · rw [List.mem_singleton.mp ha]
    exact ⟨x, h.get?_alloc_next x⟩

theorem Live.next_notMem {l : List Addr} (hl : h.Live l) : h.next ∉ l := by
  intro ha
  obtain ⟨x, hx⟩ := hl _ ha
  exact absurd (h.lt_next_of_get? hx) (Nat.lt_irrefl _)

theorem Live.mono {l l' : List Addr} (hl : h.Live l) (hsub : ∀ a ∈ l', a ∈ l) : h.Live l' :=
  fun a ha => hl a (hsub a ha)

theorem Live.freeAll {l l' : List Addr} (hl : h.Live l) (hd : ∀ a ∈ l, a ∉ l') :
    (h.freeAll l').Live l := by
  intro a ha
  obtain ⟨x, hx⟩ := hl a ha
  exact ⟨x, by rw [get?_freeAll, if_neg (hd a ha), hx]⟩

end Heap
