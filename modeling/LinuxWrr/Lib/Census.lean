import Mathlib.Data.Finset.Card
import Mathlib.Data.Finset.Insert
import Mathlib.Data.Int.Basic

/-!
# Counters that are kept by hand

A counter goes up when something starts to have a property and down when it stops. `Census P n`
says that `n` is the number of things with the property `P`; the rules say which change of the
counter goes with which change of `P`, and what the usual tests of the counter mean.
-/

universe u

/-- Finitely many things satisfy `P`, and `n` of them. -/
def Census {α : Type u} (P : α → Prop) (n : Int) : Prop :=
  ∃ F : Finset α, (∀ x, x ∈ F ↔ P x) ∧ (F.card : Int) = n

namespace Census

variable {α : Type u} {P Q : α → Prop} {n m : Int} {x : α}

/-- A property that nobody has is counted as nothing. -/
theorem empty (h : ∀ x, ¬P x) : Census P 0 :=
  ⟨∅, fun x => iff_of_false (Finset.notMem_empty x) (h x), rfl⟩

/-- The count depends only on who has the property, not on how it is said. -/
theorem congr (h : Census P n) (hQ : ∀ x, Q x ↔ P x) : Census Q n := by
  obtain ⟨F, hF, hn⟩ := h
  exact ⟨F, fun x => (hF x).trans (hQ x).symm, hn⟩

/-- Two counters of the same property agree. -/
theorem unique (h : Census P n) (h' : Census P m) : n = m := by
  obtain ⟨F, hF, rfl⟩ := h
  obtain ⟨G, hG, rfl⟩ := h'
  have hFG : F = G := Finset.ext fun x => (hF x).trans (hG x).symm
  rw [hFG]

theorem nonneg (h : Census P n) : 0 ≤ n := by
  obtain ⟨F, -, rfl⟩ := h
  exact Int.natCast_nonneg _

/-- One more member raises the counter by one. -/
theorem insert [DecidableEq α] (h : Census P n) (hx : ¬P x) (hQ : ∀ y, Q y ↔ P y ∨ y = x) :
    Census Q (n + 1) := by
  obtain ⟨F, hF, rfl⟩ := h
  refine ⟨Insert.insert x F, fun y => ?_, ?_⟩
  · rw [Finset.mem_insert, hQ, hF, or_comm]
  · rw [Finset.card_insert_of_notMem fun hmem => hx ((hF x).mp hmem)]
    exact Int.natCast_succ _

/-- One member less lowers the counter by one. -/
theorem erase [DecidableEq α] (h : Census P n) (hx : P x) (hQ : ∀ y, Q y ↔ P y ∧ y ≠ x) :
    Census Q (n - 1) := by
  obtain ⟨F, hF, rfl⟩ := h
  refine ⟨F.erase x, fun y => ?_, ?_⟩
  · rw [Finset.mem_erase, hQ, hF, and_comm]
  · have hcard := Finset.card_erase_add_one ((hF x).mpr hx)
    omega

/-- The property of one thing changes, or not, and the counter with it. -/
theorem change [DecidableEq α] [DecidablePred P] [DecidablePred Q] (h : Census P n)
    (hQ : ∀ y, y ≠ x → (Q y ↔ P y))
    (hm : m = n + (if Q x then 1 else 0) - if P x then 1 else 0) : Census Q m := by
  by_cases hP : P x
  · by_cases hQx : Q x
    · rw [if_pos hP, if_pos hQx, Int.add_sub_cancel] at hm
      rw [hm]
      refine h.congr fun y => ?_
      by_cases hy : y = x
      · rw [hy]
        exact iff_of_true hQx hP
      · exact hQ y hy
    · rw [if_pos hP, if_neg hQx, Int.add_zero] at hm
      rw [hm]
      refine h.erase hP fun y => ?_
      by_cases hy : y = x
      · rw [hy]
        exact iff_of_false hQx fun hpy => hpy.2 rfl
      · rw [hQ y hy, and_iff_left hy]
  · by_cases hQx : Q x
    · rw [if_neg hP, if_pos hQx, Int.sub_zero] at hm
      rw [hm]
      refine h.insert hP fun y => ?_
      by_cases hy : y = x
      · rw [hy]
        exact iff_of_true hQx (.inr rfl)
      · rw [hQ y hy, or_iff_left hy]
    · rw [if_neg hP, if_neg hQx, Int.add_zero, Int.sub_zero] at hm
      rw [hm]
      refine h.congr fun y => ?_
      by_cases hy : y = x
      · rw [hy]
        exact iff_of_false hQx hP
      · exact hQ y hy

/-- A counter is positive exactly when somebody is counted. -/
theorem pos_iff (h : Census P n) : 0 < n ↔ ∃ x, P x := by
  obtain ⟨F, hF, rfl⟩ := h
  rw [Int.natCast_pos, Finset.card_pos]
  exact exists_congr hF

theorem eq_zero_iff (h : Census P n) : n = 0 ↔ ∀ x, ¬P x := by
  have hpos := h.pos_iff
  have hnonneg := h.nonneg
  constructor
  · intro hz x hx
    have hlt := hpos.mpr ⟨x, hx⟩
    omega
  · intro hnone
    by_contra hne
    obtain ⟨x, hx⟩ := hpos.mp (by omega)
    exact hnone x hx

/-- A counter exceeds one exactly when two different ones are counted. -/
theorem one_lt_iff (h : Census P n) : 1 < n ↔ ∃ x y, P x ∧ P y ∧ x ≠ y := by
  obtain ⟨F, hF, rfl⟩ := h
  have hcast : 1 < (F.card : Int) ↔ 1 < F.card := by omega
  rw [hcast, Finset.one_lt_card]
  constructor
  · rintro ⟨x, hx, y, hy, hxy⟩
    exact ⟨x, y, (hF x).mp hx, (hF y).mp hy, hxy⟩
  · rintro ⟨x, y, hx, hy, hxy⟩
    exact ⟨x, (hF x).mpr hx, y, (hF y).mpr hy, hxy⟩

end Census
