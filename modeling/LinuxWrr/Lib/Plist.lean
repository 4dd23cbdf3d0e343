import LinuxWrr.Lib.PrioArray

/-!
# Priority-sorted lists

A list of elements in ascending order of a key that is stored with each of them; an element
goes behind those of the same key. `Plist.Repr l key` says that `l` holds the elements that
have a key, with that key; the rules say what adding and unlinking make of the map, and that
the first entry has the least key (`PrioArray.Least`, as for the bitmap arrays).
-/

universe u

namespace Plist

variable {α : Type u}

/-- Link `x` in front of the first entry with a larger key. -/
def add (k : Nat) (x : α) : List (Nat × α) → List (Nat × α)
  | [] => [(k, x)]
  | (j, y) :: l => if k < j then (k, x) :: (j, y) :: l else (j, y) :: add k x l

/-- Unlink `x`. -/
def del [DecidableEq α] (x : α) (l : List (Nat × α)) : List (Nat × α) := l.filter fun e => e.2 ≠ x

/-- The key of the first entry, or `n` in an empty list. -/
def firstKey (n : Nat) : List (Nat × α) → Nat
  | [] => n
  | (k, _) :: _ => k

/-- The list holds the elements that have a key, in the order of the keys. -/
structure Repr (l : List (Nat × α)) (key : α → Option Nat) : Prop where
  sorted : l.Pairwise fun a b => a.1 ≤ b.1
  mem_iff : ∀ k x, (k, x) ∈ l ↔ key x = some k

variable {l : List (Nat × α)} {key : α → Option Nat} {x y : α} {j k : Nat}

theorem Repr.nil : Repr ([] : List (Nat × α)) fun _ => none where
  sorted := List.Pairwise.nil
  mem_iff _ _ := by simp

/-- Adding an entry adds this entry and nothing else. -/
theorem mem_add : (j, y) ∈ add k x l ↔ j = k ∧ y = x ∨ (j, y) ∈ l := by
  induction l with
  | nil => simp [add]
  | cons e l ih =>
    obtain ⟨i, z⟩ := e
    rw [add]
    split
    · simp
    · rw [List.mem_cons, List.mem_cons, ih]
      exact or_left_comm

/-- Adding an entry keeps the list sorted by key. -/
theorem sorted_add (h : l.Pairwise fun a b => a.1 ≤ b.1) :
    (add k x l).Pairwise fun a b => a.1 ≤ b.1 := by
  induction l with
  | nil => exact List.pairwise_singleton _ _
  | cons e l ih =>
    obtain ⟨i, z⟩ := e
    obtain ⟨hfirst, hrest⟩ := List.pairwise_cons.mp h
    rw [add]
    split
    next hlt =>
      refine List.pairwise_cons.mpr ⟨fun e he => ?_, h⟩
      rcases List.mem_cons.mp he with rfl | hmem
      · exact Nat.le_of_lt hlt
      · exact (Nat.le_of_lt hlt).trans (hfirst e hmem)
    next hge =>
      refine List.pairwise_cons.mpr ⟨fun e he => ?_, ih hrest⟩
      obtain ⟨j, y⟩ := e
      rcases mem_add.mp he with ⟨rfl, -⟩ | hmem
      · exact Nat.le_of_not_lt hge
      · exact hfirst _ hmem

section Ops

variable [DecidableEq α]

/-- Deleting takes out all that the list has of the element. -/
theorem mem_del : (j, y) ∈ del x l ↔ (j, y) ∈ l ∧ y ≠ x := by
  simp [del]

/-- After a deletion the list represents the keys without the deleted one. -/
theorem Repr.del (h : Repr l key) (x : α) : Repr (del x l) (Function.update key x none) where
  sorted := h.sorted.filter _
  mem_iff j y := by
    rw [mem_del, h.mem_iff]
    by_cases hy : y = x
    · subst hy
      simp
    · simp [hy]

/-- Unlinking what is not linked changes nothing. -/
theorem Repr.del_absent (h : Repr l key) (hx : key x = none) : Plist.del x l = l := by
  refine List.filter_eq_self.mpr fun e he => ?_
  obtain ⟨j, y⟩ := e
  refine decide_eq_true fun hy => ?_
  subst hy
  rw [(h.mem_iff j y).mp he] at hx
  cases hx

/-- An element that may be linked already is unlinked first. -/
theorem Repr.add (h : Repr l key) (k : Nat) (x : α) :
    Repr (add k x (Plist.del x l)) (Function.update key x (some k)) where
  sorted := sorted_add (h.del x).sorted
  mem_iff j y := by
    rw [mem_add, mem_del, h.mem_iff]
    by_cases hy : y = x
    · subst hy
      rw [Function.update_self]
      simp [eq_comm]
    · rw [Function.update_of_ne hy]
      simp [hy]

end Ops

/-- The first entry has the least key. -/
theorem Repr.least (h : Repr l key) (n : Nat) : PrioArray.Least n key (firstKey n l) := by
  cases l with
  | nil =>
    have hnone : ∀ x, key x = none := fun x => by
      by_contra hx
      obtain ⟨k, hk⟩ := Option.ne_none_iff_exists'.mp hx
      cases (h.mem_iff k x).mpr hk
    refine ⟨fun x k hx => ?_, .inr ⟨rfl, hnone⟩⟩
    rw [hnone x] at hx
    cases hx
  | cons e l =>
    obtain ⟨j, y⟩ := e
    refine ⟨fun x k hx => ?_, .inl ⟨y, (h.mem_iff j y).mp List.mem_cons_self⟩⟩
    rcases List.mem_cons.mp ((h.mem_iff k x).mpr hx) with heq | hmem
    · exact Nat.le_of_eq (congrArg Prod.fst heq).symm
    · exact (List.pairwise_cons.mp h.sorted).1 _ hmem

end Plist
