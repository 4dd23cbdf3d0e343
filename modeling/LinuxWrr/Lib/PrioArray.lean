import Mathlib.Algebra.BigOperators.Group.Finset.Piecewise
import Mathlib.Algebra.Order.BigOperators.Group.Finset
import Mathlib.Data.List.Nodup
import Mathlib.Logic.Function.Basic

/-!
# Bitmap-indexed priority arrays

A priority array keeps one FIFO list per level and a bitmap with one bit per
level plus a delimiter bit, so that "the best non-empty level" is a find-first-bit.
Schedulers maintain the lists and the bits by hand, one statement at a time; this
file gives those statements their meaning and the one fact they have to add up to.

- `PrioArray α`: the lists and the bitmap, with the primitive operations
  (`listAdd`, `listAddTail`, `listDelInit`, `setBit`, `clearBit`, `findFirstBit`).
- `Repr n a lvl`: the array `a` with `n` levels *represents* the abstract map
  `lvl : α → Option Nat` that says at which level each element is queued, if at
  any. Everything else (no element linked twice, bit set iff list non-empty, the
  delimiter set) is part of the representation.
- one lemma per composite operation (`Repr.enqueue`, `Repr.dequeue`, `Repr.move`,
  `Repr.rotate`): the hand-written sequence of primitives commutes with the
  obvious update of `lvl`, and changes the number of linked elements accordingly.
- `Repr.findFirstBit_*`: the first set bit is the least non-empty level.
- `Least n lvl j`: the rules for a cache of that level (`Least.insert`, `Least.erase`).
-/

universe u

/-- One list per level and one bit per level. -/
structure PrioArray (α : Type u) where
  bitmap : Nat → Bool
  queue : Nat → List α

namespace PrioArray

variable {α : Type u}

/-- `n` empty levels with only the delimiter bit `n` set. -/
def init (n : Nat) : PrioArray α where
  bitmap i := decide (i = n)
  queue _ := []

def setBit (i : Nat) (a : PrioArray α) : PrioArray α :=
  { a with bitmap := Function.update a.bitmap i true }

def clearBit (i : Nat) (a : PrioArray α) : PrioArray α :=
  { a with bitmap := Function.update a.bitmap i false }

/-- Link `x` at the head of list `i`. -/
def listAdd (x : α) (i : Nat) (a : PrioArray α) : PrioArray α :=
  { a with queue := Function.update a.queue i (x :: a.queue i) }

/-- Link `x` at the tail of list `i`. -/
def listAddTail (x : α) (i : Nat) (a : PrioArray α) : PrioArray α :=
  { a with queue := Function.update a.queue i (a.queue i ++ [x]) }

/-- `listAdd` or `listAddTail`, as the `head` flag asks. -/
def listAddAt (head : Bool) (x : α) (i : Nat) (a : PrioArray α) : PrioArray α :=
  if head then a.listAdd x i else a.listAddTail x i

/-- The first set bit among `0..n`, or `n + 1` when there is none. -/
def findFirstBit (n : Nat) (a : PrioArray α) : Nat :=
  ((List.range (n + 1)).find? a.bitmap).getD (n + 1)

/-- How many links the `n` lists hold. -/
def size (n : Nat) (a : PrioArray α) : Nat :=
  ∑ i ∈ Finset.range n, (a.queue i).length

/-- The array with another list at level `i`. -/
def setQueue (i : Nat) (q : List α) (a : PrioArray α) : PrioArray α :=
  { a with queue := Function.update a.queue i q }

section DecEq

variable [DecidableEq α]

/-- Unlink `x` from whichever list holds it. -/
def listDelInit (x : α) (a : PrioArray α) : PrioArray α :=
  { a with queue := fun i => (a.queue i).erase x }

/-- Whether `x` is linked in one of the first `n` lists. -/
def linked (n : Nat) (x : α) (a : PrioArray α) : Bool :=
  (List.range n).any fun i => decide (x ∈ a.queue i)

/-- Whether the two neighbours of `x` in the circular list `i` differ, the list head
being `none`: `prev != next` on an element's own links. -/
def notAlone (x : α) (i : Nat) (a : PrioArray α) : Bool :=
  let q := a.queue i
  decide (x ∈ q) && (q.take (q.idxOf x)).getLast? != (q.drop (q.idxOf x + 1)).head?

end DecEq

@[simp] theorem setBit_queue (i : Nat) (a : PrioArray α) : (a.setBit i).queue = a.queue := rfl

@[simp] theorem clearBit_queue (i : Nat) (a : PrioArray α) :
    (a.clearBit i).queue = a.queue := rfl

@[simp] theorem listDelInit_bitmap [DecidableEq α] (x : α) (a : PrioArray α) :
    (a.listDelInit x).bitmap = a.bitmap := rfl

@[simp] theorem listAddAt_bitmap (head : Bool) (x : α) (i : Nat) (a : PrioArray α) :
    (a.listAddAt head x i).bitmap = a.bitmap := by
  cases head <;> rfl

theorem listAddAt_queue_self (head : Bool) (x : α) (i : Nat) (a : PrioArray α) :
    (a.listAddAt head x i).queue i = if head then x :: a.queue i else a.queue i ++ [x] := by
  cases head <;> simp [listAddAt, listAdd, listAddTail]

theorem listAddAt_queue_of_ne (head : Bool) (x : α) {i j : Nat} (h : j ≠ i)
    (a : PrioArray α) : (a.listAddAt head x i).queue j = a.queue j := by
  cases head <;> simp [listAddAt, listAdd, listAddTail, h]

/-- Adding to one list puts the element there and leaves the other lists alone. -/
theorem mem_listAddAt (head : Bool) (x y : α) (i j : Nat) (a : PrioArray α) :
    y ∈ (a.listAddAt head x i).queue j ↔ y ∈ a.queue j ∨ (y = x ∧ j = i) := by
  by_cases h : j = i
  · subst h
    rw [listAddAt_queue_self]
    cases head <;> simp [or_comm]
  · rw [listAddAt_queue_of_ne head x h]
    simp [h]

theorem listAddAt_queue_ne_nil (head : Bool) (x : α) (i : Nat) (a : PrioArray α) :
    (a.listAddAt head x i).queue i ≠ [] :=
  List.ne_nil_of_mem ((mem_listAddAt head x x i i a).mpr (.inr ⟨rfl, rfl⟩))

@[simp] theorem setQueue_queue_self (i : Nat) (q : List α) (a : PrioArray α) :
    (a.setQueue i q).queue i = q := by
  show Function.update a.queue i q i = q
  rw [Function.update_self]

theorem setQueue_queue_of_ne {i j : Nat} (h : j ≠ i) (q : List α) (a : PrioArray α) :
    (a.setQueue i q).queue j = a.queue j := by
  show Function.update a.queue i q j = a.queue j
  rw [Function.update_of_ne h]

/-! ## The representation predicate -/

/-- The array `a`, with `n` levels, represents the map `lvl` from elements to the
level they are queued at. -/
structure Repr (n : Nat) (a : PrioArray α) (lvl : α → Option Nat) : Prop where
  nodup : ∀ i, (a.queue i).Nodup
  mem_iff : ∀ i x, x ∈ a.queue i ↔ lvl x = some i
  bit_iff : ∀ i, i < n → (a.bitmap i = true ↔ a.queue i ≠ [])
  delimiter : a.bitmap n = true
  level_lt : ∀ x i, lvl x = some i → i < n

variable {n : Nat} {a : PrioArray α} {lvl : α → Option Nat}

theorem Repr.init (n : Nat) : Repr n (PrioArray.init n : PrioArray α) fun _ => none where
  nodup _ := List.nodup_nil
  mem_iff i x := by simp [PrioArray.init]
  bit_iff i hi := by
    show decide (i = n) = true ↔ ([] : List α) ≠ []
    simp [Nat.ne_of_lt hi]
  delimiter := decide_eq_true rfl
  level_lt _ _ h := nomatch h

@[simp] theorem size_init (n : Nat) : size n (PrioArray.init n : PrioArray α) = 0 := by
  simp [size, PrioArray.init]

/-- An element is linked in at most one list. -/
theorem Repr.level_unique (h : Repr n a lvl) {x : α} {i j : Nat}
    (hi : x ∈ a.queue i) (hj : x ∈ a.queue j) : i = j := by
  have h₁ := (h.mem_iff i x).mp hi
  have h₂ := (h.mem_iff j x).mp hj
  rw [h₁] at h₂
  exact Option.some.inj h₂

/-- An element without a level is in no list. -/
theorem Repr.not_mem (h : Repr n a lvl) {x : α} (hx : lvl x = none) (i : Nat) :
    x ∉ a.queue i := by
  rw [h.mem_iff, hx]
  simp

/-- An element is linked exactly when it has a level. -/
theorem Repr.linked_iff [DecidableEq α] (h : Repr n a lvl) (x : α) :
    a.linked n x = true ↔ lvl x ≠ none := by
  simp only [linked, List.any_eq_true, List.mem_range, decide_eq_true_eq, h.mem_iff]
  constructor
  · rintro ⟨i, -, hi⟩
    simp [hi]
  · intro hx
    obtain ⟨i, hi⟩ := Option.ne_none_iff_exists'.mp hx
    exact ⟨i, h.level_lt x i hi, hi⟩

/-- The represented map is determined by the array. -/
theorem Repr.congr (h : Repr n a lvl) {lvl' : α → Option Nat} (heq : ∀ x, lvl' x = lvl x) :
    Repr n a lvl' := by
  have : lvl' = lvl := funext heq
  rwa [this]

/-- The size depends on the lists only. -/
theorem size_congr {b : PrioArray α} (h : a.queue = b.queue) : size n a = size n b := by
  simp only [size, h]

/-- Linking `x` at level `i` adds one link. -/
theorem size_listAddAt (head : Bool) (x : α) {i : Nat} (hi : i < n) (a : PrioArray α) :
    size n (a.listAddAt head x i) = size n a + 1 := by
  have hmem : i ∈ Finset.range n := Finset.mem_range.mpr hi
  have hself : ((a.listAddAt head x i).queue i).length = (a.queue i).length + 1 := by
    rw [listAddAt_queue_self]
    cases head <;> simp
  have hrest : ∑ j ∈ (Finset.range n).erase i, ((a.listAddAt head x i).queue j).length
      = ∑ j ∈ (Finset.range n).erase i, (a.queue j).length := by
    refine Finset.sum_congr rfl fun j hj => ?_
    rw [listAddAt_queue_of_ne head x (Finset.ne_of_mem_erase hj)]
  rw [size, size, ← Finset.add_sum_erase _ _ hmem, ← Finset.add_sum_erase _ _ hmem, hself, hrest]
  omega

/-- An array without elements is one in which nobody has a level. -/
theorem Repr.size_eq_zero_iff (h : Repr n a lvl) : size n a = 0 ↔ ∀ x, lvl x = none := by
  rw [size, Finset.sum_eq_zero_iff]
  constructor
  · intro hz x
    by_contra hx
    obtain ⟨i, hi⟩ := Option.ne_none_iff_exists'.mp hx
    have hmem := (h.mem_iff i x).mpr hi
    have hnil := hz i (Finset.mem_range.mpr (h.level_lt x i hi))
    rw [List.length_eq_zero_iff] at hnil
    rw [hnil] at hmem
    cases hmem
  · intro hn i _
    rw [List.length_eq_zero_iff, List.eq_nil_iff_forall_not_mem]
    exact fun x => h.not_mem (hn x) i

/-! ## Composite operations -/

section Ops

variable [DecidableEq α] {x : α} {i : Nat}

theorem Repr.listDelInit_queue_of_ne (h : Repr n a lvl) (hx : lvl x = some i) {j : Nat}
    (hj : j ≠ i) : (a.listDelInit x).queue j = a.queue j := by
  refine List.erase_of_not_mem fun hmem => hj ?_
  exact h.level_unique hmem ((h.mem_iff i x).mpr hx)

/-- Unlinking takes out the element and nothing else. -/
theorem Repr.mem_listDelInit (h : Repr n a lvl) {y : α} (j : Nat) :
    y ∈ (a.listDelInit x).queue j ↔ y ≠ x ∧ y ∈ a.queue j :=
  (h.nodup j).mem_erase_iff

/-- Unlinking a queued element removes one link. -/
theorem Repr.size_listDelInit (h : Repr n a lvl) (hx : lvl x = some i) :
    size n (a.listDelInit x) + 1 = size n a := by
  have hi : i ∈ Finset.range n := Finset.mem_range.mpr (h.level_lt x i hx)
  have hmem : x ∈ a.queue i := (h.mem_iff i x).mpr hx
  have hself : ((a.listDelInit x).queue i).length + 1 = (a.queue i).length := by
    have hpos := List.length_pos_of_mem hmem
    have := List.length_erase_of_mem hmem
    show ((a.queue i).erase x).length + 1 = _
    omega
  have hrest : ∑ j ∈ (Finset.range n).erase i, ((a.listDelInit x).queue j).length
      = ∑ j ∈ (Finset.range n).erase i, (a.queue j).length := by
    refine Finset.sum_congr rfl fun j hj => ?_
    rw [h.listDelInit_queue_of_ne hx (Finset.ne_of_mem_erase hj)]
  rw [size, size, ← Finset.add_sum_erase _ _ hi, ← Finset.add_sum_erase _ _ hi, hrest]
  omega

/-- `list_add[_tail]` then `__set_bit`: queue an element that is linked nowhere. -/
theorem Repr.enqueue (h : Repr n a lvl) (hx : lvl x = none) (hi : i < n) (head : Bool) :
    Repr n ((a.listAddAt head x i).setBit i) (Function.update lvl x (some i)) where
  nodup j := by
    rw [setBit_queue]
    by_cases hj : j = i
    · subst hj
      have hnot := h.not_mem hx j
      rw [listAddAt_queue_self]
      cases head
      · simpa using (h.nodup j).concat hnot
      · exact List.nodup_cons.mpr ⟨hnot, h.nodup j⟩
    · rw [listAddAt_queue_of_ne head x hj]
      exact h.nodup j
  mem_iff j y := by
    rw [setBit_queue, mem_listAddAt, h.mem_iff]
    by_cases hy : y = x
    · subst hy
      rw [Function.update_self, hx]
      simp [eq_comm]
    · rw [Function.update_of_ne hy]
      simp [hy]
  bit_iff j hj := by
    by_cases hji : j = i
    · subst hji
      simp [setBit, listAddAt_queue_ne_nil]
    · -- no other list and no other bit is touched
      have := h.bit_iff j hj
      simpa [setBit, hji, listAddAt_queue_of_ne head x hji] using this
  delimiter := by
    have := h.delimiter
    simp [setBit, Nat.ne_of_gt hi, this]
  level_lt y j hy := by
    by_cases hyx : y = x
    · subst hyx
      rw [Function.update_self] at hy
      cases hy
      exact hi
    · rw [Function.update_of_ne hyx] at hy
      exact h.level_lt y j hy

/-- `list_del_init`, then `__clear_bit` if the list it left is empty. -/
def unlink (x : α) (i : Nat) (a : PrioArray α) : PrioArray α :=
  if ((a.listDelInit x).queue i).isEmpty then (a.listDelInit x).clearBit i
  else a.listDelInit x

@[simp] theorem unlink_queue (x : α) (i : Nat) (a : PrioArray α) :
    (a.unlink x i).queue = (a.listDelInit x).queue := by
  unfold unlink
  split <;> rfl

/-- A dequeued element has no level any more; everything else is as it was. -/
theorem Repr.dequeue (h : Repr n a lvl) (hx : lvl x = some i) :
    Repr n (a.unlink x i) (Function.update lvl x none) where
  nodup j := by
    rw [unlink_queue]
    exact (h.nodup j).erase x
  mem_iff j y := by
    rw [unlink_queue, h.mem_listDelInit, h.mem_iff]
    by_cases hy : y = x
    · subst hy
      simp
    · simp [hy]
  bit_iff j hj := by
    by_cases hji : j = i
    · subst hji
      rw [unlink_queue]
      unfold unlink
      split
      -- the list is empty now, and the bit is cleared
      next hnil => simp [clearBit, List.isEmpty_iff.mp hnil]
      next hnil =>
        -- neither the list before nor the list after is empty
        have hne : (a.listDelInit x).queue j ≠ [] := by simpa using hnil
        have hold : a.queue j ≠ [] := List.ne_nil_of_mem ((h.mem_iff j x).mpr hx)
        rw [listDelInit_bitmap, h.bit_iff j hj]
        exact ⟨fun _ => hne, fun _ => hold⟩
    · have hbit : (a.unlink x i).bitmap j = a.bitmap j := by
        unfold unlink
        split <;> simp [clearBit, hji]
      rw [hbit, unlink_queue, h.listDelInit_queue_of_ne hx hji]
      exact h.bit_iff j hj
  delimiter := by
    have hin := h.level_lt x i hx
    have := h.delimiter
    unfold unlink
    split <;> simp [clearBit, Nat.ne_of_gt hin, this]
  level_lt y j hy := by
    by_cases hyx : y = x
    · subst hyx
      rw [Function.update_self] at hy
      cases hy
    · rw [Function.update_of_ne hyx] at hy
      exact h.level_lt y j hy

/-- Dequeueing makes the array smaller by one. -/
theorem Repr.size_dequeue (h : Repr n a lvl) (hx : lvl x = some i) :
    size n (a.unlink x i) + 1 = size n a := by
  rw [size_congr (unlink_queue x i a)]
  exact h.size_listDelInit hx

/-- `list_del_init`, `list_add[_tail]` elsewhere, and only then the bit of the old
level is cleared if its list became empty and the bit of the new level is set. -/
def moveTo (head : Bool) (x : α) (i j : Nat) (a : PrioArray α) : PrioArray α :=
  let b := (a.listDelInit x).listAddAt head x j
  let c := if (b.queue i).isEmpty then b.clearBit i else b
  c.setBit j

/-- Between two different levels the late bit updates see the same lists as the
early ones, so a move is a dequeue followed by an enqueue. -/
theorem moveTo_eq (head : Bool) (x : α) {i j : Nat} (hij : i ≠ j) (a : PrioArray α) :
    a.moveTo head x i j = ((a.unlink x i).listAddAt head x j).setBit j := by
  have hq : ((a.listDelInit x).listAddAt head x j).queue i = (a.listDelInit x).queue i :=
    listAddAt_queue_of_ne head x hij _
  unfold moveTo unlink
  dsimp only
  rw [hq]
  split <;> cases head <;> rfl

/-- Moving an element to another list changes its level and nothing else. -/
theorem Repr.move (h : Repr n a lvl) (hx : lvl x = some i) {j : Nat} (hj : j < n)
    (hij : i ≠ j) (head : Bool) :
    Repr n (a.moveTo head x i j) (Function.update lvl x (some j)) := by
  rw [moveTo_eq head x hij]
  have hdel := h.dequeue hx
  have := hdel.enqueue (x := x) (Function.update_self x none lvl) hj head
  rwa [Function.update_idem] at this

/-- Moving an element keeps the size. -/
theorem Repr.size_move (h : Repr n a lvl) (hx : lvl x = some i) {j : Nat} (hj : j < n)
    (hij : i ≠ j) (head : Bool) : size n (a.moveTo head x i j) = size n a := by
  rw [moveTo_eq head x hij, size_congr (setBit_queue j _), size_listAddAt head x hj]
  exact h.size_dequeue hx

/-- `list_move[_tail]` within the element's own level, bits untouched. -/
theorem Repr.rotate (h : Repr n a lvl) (hx : lvl x = some i) (head : Bool) :
    Repr n ((a.listDelInit x).listAddAt head x i) lvl where
  nodup j := by
    by_cases hji : j = i
    · subst hji
      have hnot : x ∉ (a.listDelInit x).queue j := (h.nodup j).not_mem_erase
      have hnd : ((a.listDelInit x).queue j).Nodup := (h.nodup j).erase x
      rw [listAddAt_queue_self]
      cases head
      · simpa using hnd.concat hnot
      · exact List.nodup_cons.mpr ⟨hnot, hnd⟩
    · rw [listAddAt_queue_of_ne head x hji]
      exact (h.nodup j).erase x
  mem_iff j y := by
    rw [mem_listAddAt, h.mem_listDelInit, h.mem_iff]
    by_cases hy : y = x
    · subst hy
      simp [hx, eq_comm]
    · simp [hy]
  bit_iff j hj := by
    rw [listAddAt_bitmap, listDelInit_bitmap, h.bit_iff j hj]
    by_cases hji : j = i
    · subst hji
      have hold : a.queue j ≠ [] := List.ne_nil_of_mem ((h.mem_iff j x).mpr hx)
      simp [hold, listAddAt_queue_ne_nil]
    · rw [listAddAt_queue_of_ne head x hji, h.listDelInit_queue_of_ne hx hji]
  delimiter := by
    rw [listAddAt_bitmap]
    exact h.delimiter
  level_lt := h.level_lt

theorem Repr.size_rotate (h : Repr n a lvl) (hx : lvl x = some i) (head : Bool) :
    size n ((a.listDelInit x).listAddAt head x i) = size n a := by
  rw [size_listAddAt head x (h.level_lt x i hx)]
  exact h.size_listDelInit hx

/-- Unlinked and linked again within one level: the bit that was cleared is set again. -/
theorem Repr.relink (h : Repr n a lvl) (hx : lvl x = some i) (head : Bool) :
    ((a.unlink x i).listAddAt head x i).setBit i = (a.listDelInit x).listAddAt head x i := by
  have hbit : a.bitmap i = true :=
    (h.bit_iff i (h.level_lt x i hx)).mpr (List.ne_nil_of_mem ((h.mem_iff i x).mpr hx))
  have hset : Function.update a.bitmap i true = a.bitmap := by
    rw [← hbit, Function.update_eq_self]
  have hclear : Function.update (Function.update a.bitmap i false) i true = a.bitmap := by
    rw [Function.update_idem, hset]
  unfold unlink
  split
  · cases head <;> exact congrArg (PrioArray.mk · _) hclear
  · cases head <;> exact congrArg (PrioArray.mk · _) hset

omit [DecidableEq α] in
/-- The order within a level may change freely. -/
theorem Repr.permute (h : Repr n a lvl) {q : List α} (hq : q.Perm (a.queue i)) :
    Repr n (a.setQueue i q) lvl where
  nodup j := by
    by_cases hji : j = i
    · rw [hji, setQueue_queue_self]
      exact hq.nodup_iff.mpr (h.nodup i)
    · rw [setQueue_queue_of_ne hji]
      exact h.nodup j
  mem_iff j y := by
    by_cases hji : j = i
    · rw [hji, setQueue_queue_self, hq.mem_iff]
      exact h.mem_iff i y
    · rw [setQueue_queue_of_ne hji]
      exact h.mem_iff j y
  bit_iff j hj := by
    refine (h.bit_iff j hj).trans ?_
    by_cases hji : j = i
    · rw [hji, setQueue_queue_self, Ne, Ne, ← List.length_eq_zero_iff, ← List.length_eq_zero_iff,
        hq.length_eq]
    · rw [setQueue_queue_of_ne hji]
  delimiter := h.delimiter
  level_lt := h.level_lt

/-- `list_move_tail` of the first element of a level. -/
theorem Repr.rotate_head (h : Repr n a lvl) {xs : List α} (hq : (x :: xs).Perm (a.queue i)) :
    ((a.setQueue i (x :: xs)).listDelInit x).listAddAt false x i = a.setQueue i (xs ++ [x]) := by
  have hx : lvl x = some i := (h.mem_iff i x).mp (hq.subset List.mem_cons_self)
  have hqueue : (((a.setQueue i (x :: xs)).listDelInit x).listAddAt false x i).queue =
      (a.setQueue i (xs ++ [x])).queue := by
    funext j
    by_cases hji : j = i
    · rw [hji, listAddAt_queue_self, setQueue_queue_self]
      show ((a.setQueue i (x :: xs)).queue i).erase x ++ [x] = _
      rw [setQueue_queue_self, List.erase_cons_head]
    · rw [listAddAt_queue_of_ne false x hji, (h.permute hq).listDelInit_queue_of_ne hx hji,
        setQueue_queue_of_ne hji, setQueue_queue_of_ne hji]
  exact congrArg (PrioArray.mk a.bitmap) hqueue

/-- In a list without repetitions an element's neighbours differ exactly when it is
not the only element. -/
theorem neighbours_ne_iff {q : List α} (hnd : q.Nodup) (hx : x ∈ q) :
    (q.take (q.idxOf x)).getLast? ≠ (q.drop (q.idxOf x + 1)).head? ↔ 2 ≤ q.length := by
  obtain ⟨l, r, rfl⟩ := List.append_of_mem hx
  have hdisj := List.nodup_append.mp hnd
  have hxl : x ∉ l := fun h => hdisj.2.2 x h x List.mem_cons_self rfl
  have hidx : (l ++ x :: r).idxOf x = l.length := by
    rw [List.idxOf_append_of_notMem hxl]
    simp
  have htake : (l ++ x :: r).take l.length = l := by simp
  have hdrop : (l ++ x :: r).drop (l.length + 1) = r := by simp
  rw [hidx, htake, hdrop]
  cases r with
  | nil =>
    cases l using List.reverseRecOn with
    | nil => simp
    | append_singleton l y => simp
  | cons z r =>
    cases l using List.reverseRecOn with
    | nil => simp
    | append_singleton l y =>
      -- both neighbours are elements, and they are distinct elements
      have hyz : y ≠ z := hdisj.2.2 y (by simp) z (by simp)
      simp only [List.getLast?_append, List.getLast?_singleton, List.head?_cons,
        Option.some_or, ne_eq, Option.some.injEq, hyz, not_false_eq_true, true_iff,
        List.length_append, List.length_cons]
      omega

/-- An element is not alone in its list when the list has two or more. -/
theorem Repr.notAlone_iff (h : Repr n a lvl) (hx : lvl x = some i) :
    a.notAlone x i = true ↔ 2 ≤ (a.queue i).length := by
  have hmem := (h.mem_iff i x).mpr hx
  rw [← neighbours_ne_iff (h.nodup i) hmem]
  simp [notAlone, hmem]

end Ops

/-! ## Finding the best level -/

/-- With the delimiter set, the search finds the first bit that is set. -/
theorem findFirstBit_eq_of (hbit : a.bitmap n = true) :
    a.findFirstBit n ≤ n ∧ a.bitmap (a.findFirstBit n) = true ∧
      ∀ j, j < a.findFirstBit n → a.bitmap j = false := by
  unfold findFirstBit
  cases hf : (List.range (n + 1)).find? a.bitmap with
  | none =>
    rw [List.find?_eq_none] at hf
    exact absurd hbit (hf n (List.mem_range.mpr (Nat.lt_succ_self n)))
  | some i =>
    obtain ⟨hbi, hmem, hlt⟩ := List.find?_range_eq_some.mp hf
    refine ⟨?_, hbi, fun j hj => ?_⟩
    · exact Nat.le_of_lt_succ (List.mem_range.mp hmem)
    · simpa using hlt j hj

/-- The delimiter at `n` bounds the search. -/
theorem Repr.findFirstBit_le (h : Repr n a lvl) : a.findFirstBit n ≤ n :=
  (findFirstBit_eq_of h.delimiter).1

/-- No level below the first set bit has anything queued. -/
theorem Repr.findFirstBit_le_level (h : Repr n a lvl) {x : α} {i : Nat} (hx : lvl x = some i) :
    a.findFirstBit n ≤ i := by
  obtain ⟨-, -, hlow⟩ := findFirstBit_eq_of h.delimiter
  by_contra hlt
  have hi := h.level_lt x i hx
  have hbit := (h.bit_iff i hi).mpr (List.ne_nil_of_mem ((h.mem_iff i x).mpr hx))
  rw [hlow i (by omega)] at hbit
  cases hbit

/-- A first set bit below the delimiter is the level of a queued element, the head
of its list. -/
theorem Repr.findFirstBit_head (h : Repr n a lvl) (hlt : a.findFirstBit n < n) :
    ∃ x, (a.queue (a.findFirstBit n)).head? = some x ∧ lvl x = some (a.findFirstBit n) := by
  obtain ⟨-, hbit, -⟩ := findFirstBit_eq_of h.delimiter
  have hne := (h.bit_iff _ hlt).mp hbit
  obtain ⟨x, rest, hq⟩ := List.exists_cons_of_ne_nil hne
  refine ⟨x, by rw [hq]; rfl, (h.mem_iff _ x).mp ?_⟩
  rw [hq]
  exact List.mem_cons_self

/-- The delimiter is found first exactly when nothing is queued. -/
theorem Repr.findFirstBit_lt_iff (h : Repr n a lvl) :
    a.findFirstBit n < n ↔ ∃ x, lvl x ≠ none := by
  constructor
  · intro hlt
    obtain ⟨x, -, hx⟩ := h.findFirstBit_head hlt
    exact ⟨x, by simp [hx]⟩
  · rintro ⟨x, hx⟩
    obtain ⟨i, hi⟩ := Option.ne_none_iff_exists'.mp hx
    exact Nat.lt_of_le_of_lt (h.findFirstBit_le_level hi) (h.level_lt x i hi)

/-! ## The least level in use

A cache of the first set bit can be kept without a search, as long as the level that is
given up is not the cached one. -/

/-- `j` is the least level of `lvl`, or `n` when nothing is queued. -/
structure Least (n : Nat) (lvl : α → Option Nat) (j : Nat) : Prop where
  le : ∀ x i, lvl x = some i → j ≤ i
  attained : (∃ x, lvl x = some j) ∨ j = n ∧ ∀ x, lvl x = none

/-- The first bit set is the least level that anybody has. -/
theorem Repr.least (h : Repr n a lvl) : Least n lvl (a.findFirstBit n) where
  le _ _ hx := h.findFirstBit_le_level hx
  attained := by
    rcases Nat.lt_or_ge (a.findFirstBit n) n with hlt | hge
    · obtain ⟨x, -, hx⟩ := h.findFirstBit_head hlt
      exact .inl ⟨x, hx⟩
    · refine .inr ⟨Nat.le_antisymm h.findFirstBit_le hge, fun x => ?_⟩
      by_contra hx
      exact Nat.not_lt.mpr hge (h.findFirstBit_lt_iff.mpr ⟨x, hx⟩)

theorem Least.unique {j k : Nat} (h : Least n lvl j) (h' : Least n lvl k) : j = k := by
  rcases h.attained with ⟨x, hx⟩ | ⟨hj, hnone⟩
  · rcases h'.attained with ⟨y, hy⟩ | ⟨-, hnone⟩
    · exact Nat.le_antisymm (h.le y k hy) (h'.le x j hx)
    · rw [hnone x] at hx
      cases hx
  · rcases h'.attained with ⟨y, hy⟩ | ⟨hk, -⟩
    · rw [hnone y] at hy
      cases hy
    · rw [hj, hk]

section Least

variable [DecidableEq α] {x : α} {i j : Nat}

/-- Queueing lowers the least level to the new one, if that is lower. -/
theorem Least.insert (h : Least n lvl j) (hx : lvl x = none) (hi : i < n) :
    Least n (Function.update lvl x (some i)) (if i < j then i else j) where
  le y k hy := by
    by_cases hyx : y = x
    · rw [hyx, Function.update_self] at hy
      cases hy
      split <;> omega
    · rw [Function.update_of_ne hyx] at hy
      have hle := h.le y k hy
      split <;> omega
  attained := by
    left
    by_cases hij : i < j
    · rw [if_pos hij]
      exact ⟨x, Function.update_self _ _ _⟩
    · rw [if_neg hij]
      rcases h.attained with ⟨y, hy⟩ | ⟨hj, -⟩
      · refine ⟨y, ?_⟩
        rwa [Function.update_of_ne]
        rintro rfl
        rw [hx] at hy
        cases hy
      · omega

/-- Giving up another level leaves the least one. -/
theorem Least.erase (h : Least n lvl j) (hx : lvl x = some i) (hij : i ≠ j) :
    Least n (Function.update lvl x none) j where
  le y k hy := by
    by_cases hyx : y = x
    · rw [hyx, Function.update_self] at hy
      cases hy
    · rw [Function.update_of_ne hyx] at hy
      exact h.le y k hy
  attained := by
    rcases h.attained with ⟨y, hy⟩ | ⟨-, hnone⟩
    · refine .inl ⟨y, ?_⟩
      rwa [Function.update_of_ne]
      rintro rfl
      rw [hx] at hy
      exact hij (Option.some.inj hy)
    · rw [hnone x] at hx
      cases hx

end Least

end PrioArray
