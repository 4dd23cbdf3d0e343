import Mathlib.Data.Finset.Insert
import Mathlib.Data.Finset.SDiff
import Mathlib.Data.Finset.Option

/-!
# A heap of objects

Objects are handed out under fresh names and may be freed; a pointer is a name or NULL. The
heap records the live objects and every free that was made, so that a leak is a live object
that nobody has a pointer to, and a double free is a name that occurs twice among the frees.

- `Heap.alloc`, `Heap.free`: an allocation may fail; freeing NULL does nothing.
- `Heap.Accounts`: a set of objects is live, and every other object that was handed out has
  been freed exactly once. One rule for each operation says how the set changes.
-/

/-- The name of an object, or `none` for NULL. -/
abbrev Heap.Ptr := Option Nat

structure Heap where
  /-- The name of the next object. -/
  next : Nat
  live : Finset Nat
  /-- What has been freed, the last first. -/
  freed : List Nat

namespace Heap

def init : Heap := ⟨0, ∅, []⟩

/-- An allocation, which succeeds or fails. -/
def alloc (h : Heap) (ok : Bool) : Ptr × Heap :=
  if ok then (some h.next, { h with next := h.next + 1, live := insert h.next h.live })
  else (none, h)

def free (h : Heap) : Ptr → Heap
  | none => h
  | some a => { h with live := h.live.erase a, freed := a :: h.freed }

theorem alloc_true (h : Heap) : h.alloc true =
    (some h.next, { h with next := h.next + 1, live := insert h.next h.live }) := rfl

theorem alloc_false (h : Heap) : h.alloc false = (none, h) := rfl

/-- The objects in `owned` are live; every other one has been freed exactly once. -/
structure Accounts (h : Heap) (owned : Finset Nat) : Prop where
  live : h.live = owned
  bound : ∀ a ∈ owned, a < h.next
  freed : ∀ a, h.freed.count a = if a < h.next ∧ a ∉ owned then 1 else 0

namespace Accounts

variable {h : Heap} {owned : Finset Nat} {a : Nat} {p : Ptr}

theorem init : Heap.init.Accounts ∅ :=
  ⟨rfl, fun _ ha => absurd ha (Finset.notMem_empty _), fun _ => rfl⟩

/-- The next address handed out is not in use. -/
theorem next_notMem (h' : h.Accounts owned) : h.next ∉ owned :=
  fun hmem => Nat.lt_irrefl _ (h'.bound _ hmem)

/-- Nothing is freed twice. -/
theorem count_le (h' : h.Accounts owned) (a : Nat) : h.freed.count a ≤ 1 := by
  rw [h'.freed]
  split <;> omega

/-- What has been allocated and is not owned any more has been freed exactly once. -/
theorem freed_once (h' : h.Accounts owned) (hlt : a < h.next) (ha : a ∉ owned) :
    a ∉ h.live ∧ h.freed.count a = 1 := by
  rw [h'.live, h'.freed]
  exact ⟨ha, if_pos ⟨hlt, ha⟩⟩

/-- What is owned is live and has never been freed. -/
theorem not_freed (h' : h.Accounts owned) (ha : a ∈ owned) : a ∈ h.live ∧ h.freed.count a = 0 := by
  rw [h'.live, h'.freed]
  exact ⟨ha, if_neg fun hno => hno.2 ha⟩

/-- A new object is owned. -/
theorem alloc (h' : h.Accounts owned) : (h.alloc true).2.Accounts (insert h.next owned) := by
  refine ⟨congrArg (insert h.next) h'.live, fun a ha => ?_, fun a => ?_⟩
  · show a < h.next + 1
    rcases Finset.mem_insert.mp ha with rfl | ha
    · exact Nat.lt_succ_self _
    · exact Nat.lt_succ_of_lt (h'.bound a ha)
  · show h.freed.count a = if a < h.next + 1 ∧ a ∉ insert h.next owned then 1 else 0
    rw [h'.freed]
    refine if_congr ?_ rfl rfl
    constructor
    · rintro ⟨hlt, ha⟩
      refine ⟨Nat.lt_succ_of_lt hlt, fun hmem => ?_⟩
      rcases Finset.mem_insert.mp hmem with rfl | hmem
      · exact Nat.lt_irrefl _ hlt
      · exact ha hmem
    · rintro ⟨hlt, ha⟩
      have hne : a ≠ h.next := fun heq => ha (heq ▸ Finset.mem_insert_self _ _)
      exact ⟨Nat.lt_of_le_of_ne (Nat.lt_succ_iff.mp hlt) hne,
        fun hmem => ha (Finset.mem_insert_of_mem hmem)⟩

/-- What is owned may be freed. -/
theorem free (h' : h.Accounts owned) (hp : p.toFinset ⊆ owned) :
    (h.free p).Accounts (owned \ p.toFinset) := by
  cases p with
  | none => rwa [show (none : Ptr).toFinset = ∅ from rfl, Finset.sdiff_empty]
  | some a =>
    have ha : a ∈ owned := hp (Option.mem_toFinset.mpr rfl)
    have hsingle : (some a : Ptr).toFinset = {a} := rfl
    rw [hsingle, Finset.sdiff_singleton_eq_erase]
    refine ⟨congrArg (Finset.erase · a) h'.live, fun b hb => h'.bound b (Finset.mem_of_mem_erase hb),
      fun b => ?_⟩
    show (a :: h.freed).count b = if b < h.next ∧ b ∉ owned.erase a then 1 else 0
    by_cases hb : b = a
    · have hlt := h'.bound a ha
      rw [hb, List.count_cons_self, (h'.not_freed ha).2, if_pos ⟨hlt, Finset.notMem_erase a owned⟩]
    · rw [List.count_cons_of_ne (Ne.symm hb), h'.freed]
      refine if_congr (and_congr_right fun _ => not_congr ?_) rfl rfl
      rw [Finset.mem_erase]
      exact (and_iff_right hb).symm

/-- An object that is allocated and given back at once is no longer owned. -/
theorem alloc_free (h' : h.Accounts owned) :
    ((h.alloc true).2.free (some h.next)).Accounts owned := by
  have hmem : (some h.next : Ptr).toFinset ⊆ insert h.next owned :=
    Finset.singleton_subset_iff.mpr (Finset.mem_insert_self _ _)
  have hfree := h'.alloc.free hmem
  rwa [show (some h.next : Ptr).toFinset = {h.next} from rfl, Finset.sdiff_singleton_eq_erase,
    Finset.erase_insert h'.next_notMem] at hfree

end Accounts

end Heap
