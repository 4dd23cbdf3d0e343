import Mathlib.Algebra.BigOperators.Group.Finset.Basic
import Mathlib.Data.Finset.Option

/-!
# Booking the time a resource is held

At every moment one party holds a resource, or none does. A stopwatch is started when a party
takes over; at moments of the bookkeeper's choosing, the time since then is booked to the
holder and the stopwatch restarted. This file says when the books are right.

- `Stopwatch`: the books, and beside them the time each party really held the resource.
- `Stopwatch.pending`: the time of the holder that is not booked yet.
- `Rebooks`: the clock stands still, and every party is either left alone or booked out.
- `Stopwatch.Exact`: **booked and pending time of every party is the time it held the
  resource**; `Exact.advance` and `Exact.rebooks` keep it.
-/

universe u

variable {ι : Type u} [DecidableEq ι]

/-- The books, the clock, and the time the parties held the resource. -/
structure Stopwatch (ι : Type u) where
  clock : Nat
  holder : Option ι
  /-- When the stopwatch of a party was last started. -/
  since : ι → Nat
  booked : ι → Nat
  held : ι → Nat
  /-- The time during which some party held the resource. -/
  total : Nat

namespace Stopwatch

variable {w w' : Stopwatch ι} {now : Nat} {i : ι}

/-- The time of the holder that is not booked yet. -/
def pending (w : Stopwatch ι) (i : ι) : Nat :=
  if w.holder = some i then w.clock - w.since i else 0

/-- What is pending for the holder is the time since it was last booked. -/
theorem pending_holder (h : w.holder = some i) : w.pending i = w.clock - w.since i := if_pos h

theorem pending_other (h : w.holder ≠ some i) : w.pending i = 0 := if_neg h

/-- Time passes until `now`. -/
def advance (w : Stopwatch ι) (now : Nat) : Stopwatch ι :=
  { w with
    clock := now
    held := fun i => w.held i + if w.holder = some i then now - w.clock else 0
    total := w.total + if w.holder.isSome then now - w.clock else 0 }

/-- What a party sees of a change of the books and the holder: nothing, or its pending time is
booked and its stopwatch starts again, if it holds the resource from now on. -/
inductive Party (w w' : Stopwatch ι) (i : ι) : Prop where
  | kept (since : w'.since i = w.since i) (holder : w'.holder = some i ↔ w.holder = some i)
      (booked : w'.booked i = w.booked i)
  | settled (booked : w'.booked i = w.booked i + w.pending i)
      (since : w'.holder = some i → w'.since i = w.clock)

/-- The books and the holder change, while the clock stands still. -/
structure Rebooks (w w' : Stopwatch ι) : Prop where
  clock : w'.clock = w.clock
  held : w'.held = w.held
  total : w'.total = w.total
  party : ∀ i, Party w w' i

/-- The books are right. -/
structure Exact (w : Stopwatch ι) : Prop where
  since : ∀ i, w.holder = some i → w.since i ≤ w.clock
  booked : ∀ i, w.booked i + w.pending i = w.held i
  total : ∃ S : Finset ι, (∀ i ∉ S, w.held i = 0) ∧ ∑ i ∈ S, w.held i = w.total

/-- Nothing is booked and nobody holds the resource. -/
theorem Exact.init (hholder : w.holder = none) (hbooked : ∀ i, w.booked i = 0)
    (hheld : ∀ i, w.held i = 0) (htotal : w.total = 0) : w.Exact where
  since i hi := by
    rw [hholder] at hi
    cases hi
  booked i := by
    have hi : w.holder ≠ some i := by
      rw [hholder]
      exact (Option.some_ne_none i).symm
    rw [pending_other hi, hbooked, hheld]
  total := ⟨∅, fun i _ => hheld i, by rw [Finset.sum_empty, htotal]⟩

/-- While the clock runs, only what is pending for the holder grows. -/
theorem pending_advance (h : w.Exact) (hnow : w.clock ≤ now) (i : ι) :
    (w.advance now).pending i =
      w.pending i + if w.holder = some i then now - w.clock else 0 := by
  by_cases hi : w.holder = some i
  · have hle := h.since i hi
    rw [pending_holder hi, pending_holder (w := w.advance now) hi, if_pos hi]
    show now - w.since i = _
    omega
  · rw [pending_other hi, pending_other (w := w.advance now) hi, if_neg hi]

/-- The time that passes is held by one party, or by none. -/
theorem sum_elapsed {S : Finset ι} (hS : ∀ i, w.holder = some i → i ∈ S) (n : Nat) :
    (∑ i ∈ S, if w.holder = some i then n else 0) = if w.holder.isSome then n else 0 := by
  cases hh : w.holder with
  | none => simp
  | some j =>
    have hj : j ∈ S := hS j hh
    rw [if_pos (Option.isSome_some), Finset.sum_eq_single_of_mem j hj]
    · exact if_pos rfl
    · intro i _ hij
      refine if_neg fun heq => ?_
      cases heq
      exact hij rfl

/-- The parties of an exact book can be taken to include the holder. -/
theorem Exact.exists_parties (h : w.Exact) : ∃ S : Finset ι, (∀ i, w.holder = some i → i ∈ S) ∧
    (∀ i ∉ S, w.held i = 0) ∧ ∑ i ∈ S, w.held i = w.total := by
  obtain ⟨S, hS, hsum⟩ := h.total
  refine ⟨S ∪ w.holder.toFinset, ?_, ?_, ?_⟩
  · intro i hi
    rw [hi]
    simp
  · intro i hi
    exact hS i fun hmem => hi (Finset.mem_union_left _ hmem)
  · rw [← hsum]
    refine (Finset.sum_subset Finset.subset_union_left ?_).symm
    exact fun i _ hi => hS i hi

/-- The books stay exact while the clock runs. -/
theorem Exact.advance (h : w.Exact) (hnow : w.clock ≤ now) : (w.advance now).Exact where
  since i hi := (h.since i hi).trans hnow
  booked i := by
    rw [pending_advance h hnow]
    show w.booked i + _ = w.held i + _
    rw [← h.booked i, Nat.add_assoc]
  total := by
    obtain ⟨S, hholder, hS, hsum⟩ := h.exists_parties
    refine ⟨S, fun i hi => ?_, ?_⟩
    · have hi' : w.holder ≠ some i := fun heq => hi (hholder i heq)
      show w.held i + _ = 0
      rw [hS i hi, if_neg hi']
    · show (∑ i ∈ S, (w.held i + _)) = w.total + _
      rw [Finset.sum_add_distrib, hsum, sum_elapsed hholder]

/-- Rebooking leaves the pending time of a party, or makes it zero. -/
theorem Rebooks.pending_cases (hw : Rebooks w w') (i : ι) :
    w'.pending i = w.pending i ∧ w'.booked i = w.booked i ∨
      w'.pending i = 0 ∧ w'.booked i = w.booked i + w.pending i := by
  cases hw.party i with
  | kept hsince hholder hbooked =>
    refine .inl ⟨?_, hbooked⟩
    unfold pending
    rw [hsince, hw.clock, if_congr hholder rfl rfl]
  | settled hbooked hsince =>
    refine .inr ⟨?_, hbooked⟩
    by_cases hi : w'.holder = some i
    · rw [pending_holder hi, hsince hi, hw.clock, Nat.sub_self]
    · exact pending_other hi

/-- Booking never makes more pending. -/
theorem Rebooks.pending_le (hw : Rebooks w w') (i : ι) : w'.pending i ≤ w.pending i := by
  rcases hw.pending_cases i with ⟨hp, -⟩ | ⟨hp, -⟩
  · exact hp.le
  · rw [hp]
    exact Nat.zero_le _

/-- **Rebooking keeps the books right**, whoever holds the resource afterwards. -/
theorem Exact.rebooks (h : w.Exact) (hw : Rebooks w w') : w'.Exact where
  since i hi := by
    cases hw.party i with
    | kept hsince hholder =>
      rw [hsince, hw.clock]
      exact h.since i (hholder.mp hi)
    | settled _ hsince => rw [hsince hi, hw.clock]
  booked i := by
    rw [hw.held, ← h.booked i]
    rcases hw.pending_cases i with ⟨hp, hb⟩ | ⟨hp, hb⟩
    · rw [hp, hb]
    · rw [hp, hb, Nat.add_zero]
  total := by
    rw [hw.held, hw.total]
    exact h.total

end Stopwatch
