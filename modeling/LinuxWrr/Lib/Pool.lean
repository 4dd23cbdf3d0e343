import Mathlib.Algebra.BigOperators.Group.Finset.Piecewise
import Mathlib.Algebra.Order.BigOperators.Group.Finset
import Mathlib.Algebra.Order.Module.Defs

/-!
# A pool of members that lend to each other

Every member of a pool is entitled to the same quota. Members lend: what one holds goes down
by what another holds more. A member leaves with its quota, no more and no less; for that it
first settles with the others in turn, taking from each what it is still owed, as far as the
other has it, or handing over what it has borrowed.

- `Pool.pay`, `Pool.settle`, `Pool.join`, `Pool.leave`: the operations.
- `Pool.Balanced`: together the members hold what they are entitled to, and nobody has debts.
- `settle_held_iff`: when settling with every other member ends at the quota;
  `Balanced.settle_held`: **in a balanced pool it always does**, whatever the order and the loans.
-/

universe u v

/-- The members of a pool and what everyone holds. -/
structure Pool (ι : Type u) (M : Type v) where
  members : Finset ι
  held : ι → M

namespace Pool

variable {ι : Type u} [DecidableEq ι] {M : Type v} [AddCommGroup M]
variable {P Q : Pool ι M} {i j c : ι} {d quota : M}

def total (P : Pool ι M) : M := ∑ i ∈ P.members, P.held i

/-- `i` hands `d` over to `j`. -/
def pay (P : Pool ι M) (i j : ι) (d : M) : Pool ι M where
  members := P.members
  held k := P.held k - (if k = i then d else 0) + (if k = j then d else 0)

@[simp] theorem pay_members : (P.pay i j d).members = P.members := rfl

theorem pay_from (h : i ≠ j) : (P.pay i j d).held i = P.held i - d := by
  simp [pay, h]

theorem pay_to (h : i ≠ j) : (P.pay i j d).held j = P.held j + d := by
  simp [pay, h.symm]

theorem pay_other {k : ι} (hi : k ≠ i) (hj : k ≠ j) : (P.pay i j d).held k = P.held k := by
  simp [pay, hi, hj]

/-- A payment between two members changes nothing of the total. -/
theorem total_pay (hi : i ∈ P.members) (hj : j ∈ P.members) : (P.pay i j d).total = P.total := by
  simp only [total, pay, Finset.sum_add_distrib, Finset.sum_sub_distrib, Finset.sum_ite_eq', hi,
    hj, if_true]
  exact sub_add_cancel _ _

/-- `c` becomes a member and is given its quota. -/
def join (P : Pool ι M) (c : ι) (quota : M) : Pool ι M where
  members := insert c P.members
  held := Function.update P.held c quota

/-- `c` leaves, with what it holds. -/
def leave (P : Pool ι M) (c : ι) : Pool ι M where
  members := P.members.erase c
  held := P.held

omit [AddCommGroup M] in
theorem join_self : (P.join c quota).held c = quota := Function.update_self _ _ _

omit [AddCommGroup M] in
theorem join_other (h : i ≠ c) : (P.join c quota).held i = P.held i :=
  Function.update_of_ne h _ _

/-- A new member brings its quota. -/
theorem total_join (hc : c ∉ P.members) : (P.join c quota).total = quota + P.total := by
  have hsum : (P.join c quota).total = (P.join c quota).held c + ∑ i ∈ P.members, (P.join c quota).held i :=
    Finset.sum_insert hc
  rw [hsum, join_self]
  refine congrArg (quota + ·) (Finset.sum_congr rfl fun i hi => ?_)
  exact join_other fun h => hc (h ▸ hi)

/-- What leaves and what stays are together what there was. -/
theorem total_leave (hc : c ∈ P.members) : P.held c + (P.leave c).total = P.total :=
  Finset.add_sum_erase _ _ hc

theorem total_leave_alone (h : P.members = {c}) : (P.leave c).total = 0 := by
  rw [total, leave, h, Finset.erase_singleton, Finset.sum_empty]

variable [LinearOrder M]

/-- `c` settles with `i`: it takes what it is owed, as far as `i` has it, or hands over what
it holds above the quota. -/
def settleWith (quota : M) (c : ι) (P : Pool ι M) (i : ι) : Pool ι M :=
  if i = c ∨ i ∉ P.members ∨ quota - P.held c = 0 then P
  else P.pay i c
    (if 0 < quota - P.held c then min (P.held i) (quota - P.held c) else quota - P.held c)

/-- `c` settles with the members among `is`, in turn. -/
def settle (quota : M) (c : ι) (P : Pool ι M) (is : List ι) : Pool ι M :=
  is.foldl (settleWith quota c) P

/-- The members hold together what they are entitled to, and none of them has debts. -/
structure Balanced (P : Pool ι M) (quota : M) : Prop where
  total : P.total = P.members.card • quota
  nonneg : ∀ i ∈ P.members, 0 ≤ P.held i

/-- A member that holds its quota settles with nobody. -/
theorem settleWith_done (h : P.held c = quota) : settleWith quota c P i = P :=
  if_pos (.inr (.inr (sub_eq_zero.mpr h.symm)))

/-- Once the quota is reached, nothing moves any more. -/
theorem settle_done (h : P.held c = quota) (is : List ι) : P.settle quota c is = P := by
  induction is with
  | nil => rfl
  | cons i is ih => rw [settle, List.foldl_cons, settleWith_done h, ← settle, ih]

theorem settle_cons (is : List ι) :
    P.settle quota c (i :: is) = (settleWith quota c P i).settle quota c is := rfl

theorem settle_concat (is : List ι) :
    P.settle quota c (is ++ [i]) = settleWith quota c (P.settle quota c is) i := by
  rw [settle, List.foldl_append]
  rfl

/-- Settling with one member is nothing or a payment. -/
theorem settleWith_cases (quota : M) (c : ι) (P : Pool ι M) (i : ι) :
    settleWith quota c P i = P ∨
      i ≠ c ∧ i ∈ P.members ∧ ∃ d, settleWith quota c P i = P.pay i c d := by
  unfold settleWith
  split
  · exact .inl rfl
  · rename_i h
    rw [not_or, not_or, not_not] at h
    exact .inr ⟨h.1, h.2.1, _, rfl⟩

@[simp] theorem settleWith_members : (settleWith quota c P i).members = P.members := by
  obtain h | ⟨-, -, d, h⟩ := settleWith_cases quota c P i
  · rw [h]
  · rw [h, pay_members]

@[simp] theorem settle_members (is : List ι) : (P.settle quota c is).members = P.members := by
  induction is using List.reverseRecOn with
  | nil => rfl
  | append_singleton is i ih => rw [settle_concat, settleWith_members, ih]

theorem settleWith_total (hc : c ∈ P.members) : (settleWith quota c P i).total = P.total := by
  obtain h | ⟨-, hi, d, h⟩ := settleWith_cases quota c P i
  · rw [h]
  · rw [h, total_pay hi hc]

/-- Settling moves what the members hold and keeps the total. -/
theorem settle_total (hc : c ∈ P.members) (is : List ι) :
    (P.settle quota c is).total = P.total := by
  induction is using List.reverseRecOn with
  | nil => rfl
  | append_singleton is i ih =>
    rw [settle_concat, settleWith_total (by rwa [settle_members]), ih]

variable [IsOrderedAddMonoid M]

theorem settleWith_nonneg (hquota : 0 ≤ quota) (h : ∀ k ∈ P.members, 0 ≤ P.held k) :
    ∀ k ∈ P.members, 0 ≤ (settleWith quota c P i).held k := by
  intro k hk
  unfold settleWith
  split
  · exact h k hk
  · rename_i hskip
    rw [not_or, not_or, not_not] at hskip
    obtain ⟨hic, hi, -⟩ := hskip
    -- what `i` pays is at most what it holds, and `c` ends at most at the quota or loses the surplus
    have hpay : ∀ d, d ≤ P.held i → 0 ≤ P.held c + d → 0 ≤ (P.pay i c d).held k := by
      intro d hd hcd
      by_cases hki : k = i
      · rw [hki, pay_from hic]
        exact sub_nonneg.mpr hd
      · by_cases hkc : k = c
        · rw [hkc, pay_to hic]
          exact hcd
        · rw [pay_other hki hkc]
          exact h k hk
    by_cases hwant : 0 < quota - P.held c
    · rw [if_pos hwant]
      by_cases hcm : c ∈ P.members
      · exact hpay _ (min_le_left _ _) (add_nonneg (h c hcm) (le_min (h i hi) hwant.le))
      · by_cases hki : k = i
        · rw [hki, pay_from hic]
          exact sub_nonneg.mpr (min_le_left _ _)
        · have hkc : k ≠ c := fun hkc => hcm (hkc ▸ hk)
          rw [pay_other hki hkc]
          exact h k hk
    · rw [if_neg hwant]
      have hle : quota - P.held c ≤ 0 := not_lt.mp hwant
      refine hpay _ (hle.trans (h i hi)) ?_
      rw [add_sub_cancel]
      exact hquota

/-- Settling leaves nobody with debts: a member hands over no more than it has. -/
theorem settle_nonneg (hquota : 0 ≤ quota) (h : ∀ k ∈ P.members, 0 ≤ P.held k) (is : List ι) :
    ∀ k ∈ P.members, 0 ≤ (P.settle quota c is).held k := by
  induction is using List.reverseRecOn with
  | nil => exact h
  | append_singleton is i ih =>
    rw [settle_concat]
    have hstep := settleWith_nonneg (P := P.settle quota c is) (c := c) (i := i) hquota
    rw [settle_members] at hstep
    exact hstep ih

/-- Until the quota is reached, everyone asked has given all it holds; a surplus is handed to
the first one asked. -/
theorem settle_progress (h : ∀ k ∈ P.members, 0 ≤ P.held k) (hquota : 0 ≤ quota) (is : List ι) :
    (P.settle quota c is).held c = quota ∨
      (P.settle quota c is).held c < quota ∧
        (∀ i ∈ is, i ∈ P.members → i ≠ c → (P.settle quota c is).held i = 0) ∨
      quota < (P.settle quota c is).held c ∧ ∀ i ∈ is, i ∈ P.members → i = c := by
  induction is using List.reverseRecOn with
  | nil =>
    rcases lt_trichotomy (P.held c) quota with hlt | heq | hgt
    · exact .inr (.inl ⟨hlt, fun i hi => absurd hi List.not_mem_nil⟩)
    · exact .inl heq
    · exact .inr (.inr ⟨hgt, fun i hi => absurd hi List.not_mem_nil⟩)
  | append_singleton is i ih =>
    have hnn := settle_nonneg (c := c) hquota h is
    have hmem : (P.settle quota c is).members = P.members := settle_members is
    rw [settle_concat]
    generalize P.settle quota c is = Q at ih hnn hmem ⊢
    by_cases hdone : Q.held c = quota
    · -- nothing is owed any more, so the turn does nothing
      left
      rw [settleWith_done hdone]
      exact hdone
    replace ih := ih.resolve_left hdone
    have hwant : quota - Q.held c ≠ 0 := fun h0 => hdone (sub_eq_zero.mp h0).symm
    by_cases hskip : i = c ∨ i ∉ Q.members
    · have hsame : settleWith quota c Q i = Q :=
        if_pos (hskip.elim .inl fun hi => .inr (.inl hi))
      rw [hsame]
      right
      rcases ih with ⟨hlt, hzero⟩ | ⟨hgt, hnone⟩
      · refine .inl ⟨hlt, fun k hk hkm hkc => ?_⟩
        rcases List.mem_append.mp hk with hk | hk
        · exact hzero k hk hkm hkc
        · rw [List.mem_singleton.mp hk] at hkm hkc
          exact absurd hskip (not_or.mpr ⟨hkc, not_not.mpr (hmem ▸ hkm)⟩)
      · refine .inr ⟨hgt, fun k hk hkm => ?_⟩
        rcases List.mem_append.mp hk with hk | hk
        · exact hnone k hk hkm
        · rw [List.mem_singleton.mp hk] at hkm ⊢
          exact hskip.resolve_right (not_not.mpr (hmem ▸ hkm))
    rw [not_or, not_not] at hskip
    obtain ⟨hic, hi⟩ := hskip
    have hstep : settleWith quota c Q i =
        Q.pay i c (if 0 < quota - Q.held c then min (Q.held i) (quota - Q.held c)
          else quota - Q.held c) :=
      if_neg (by rw [not_or, not_or, not_not]; exact ⟨hic, hi, hwant⟩)
    rw [hstep]
    rcases ih with ⟨hlt, hzero⟩ | ⟨hgt, -⟩
    · rw [if_pos (sub_pos.mpr hlt)]
      rcases le_total (Q.held i) (quota - Q.held c) with hle | hle
      · -- `i` has no more than what is owed and gives all of it
        rw [min_eq_left hle]
        rcases hle.lt_or_eq with hless | heq
        · refine .inr (.inl ⟨?_, fun k hk hkm hkc => ?_⟩)
          · rw [pay_to hic]
            exact lt_sub_iff_add_lt'.mp hless
          · by_cases hki : k = i
            · rw [hki, pay_from hic, sub_self]
            · rw [pay_other hki hkc]
              rcases List.mem_append.mp hk with hk | hk
              · exact hzero k hk hkm hkc
              · exact absurd (List.mem_singleton.mp hk) hki
        · left
          rw [pay_to hic, heq, add_sub_cancel]
      · left
        rw [min_eq_right hle, pay_to hic, add_sub_cancel]
    · left
      rw [if_neg (not_lt.mpr (sub_nonpos.mpr hgt.le)), pay_to hic, add_sub_cancel]

/-- Settling with every other member ends at the quota exactly when the others have what is
owed, and somebody is there to take a surplus. -/
theorem settle_held_iff (h : ∀ k ∈ P.members, 0 ≤ P.held k) (hquota : 0 ≤ quota)
    (hc : c ∈ P.members) {is : List ι} (hall : ∀ i ∈ P.members, i ∈ is) :
    (P.settle quota c is).held c = quota ↔
      quota ≤ P.held c + (P.leave c).total ∧ (quota < P.held c → P.members ≠ {c}) := by
  have hmem : (P.settle quota c is).members = P.members := settle_members is
  have hcQ : c ∈ (P.settle quota c is).members := hmem ▸ hc
  have hsum : (P.settle quota c is).held c + ((P.settle quota c is).leave c).total =
      P.held c + (P.leave c).total := by
    rw [total_leave hcQ, total_leave hc, settle_total hc]
  have hothers : 0 ≤ ((P.settle quota c is).leave c).total :=
    Finset.sum_nonneg fun i hi =>
      settle_nonneg hquota h is i (hmem ▸ Finset.mem_of_mem_erase hi)
  constructor
  · intro hdone
    rw [hdone] at hsum
    refine ⟨hsum ▸ le_add_of_nonneg_right hothers, fun hlt hsingle => ?_⟩
    rw [total_leave_alone hsingle, total_leave_alone (hmem.trans hsingle), add_zero, add_zero] at hsum
    exact absurd hsum hlt.ne
  · rintro ⟨hcover, htaker⟩
    rcases settle_progress (c := c) h hquota is with hdone | ⟨hlt, hzero⟩ | ⟨hgt, hnone⟩
    · exact hdone
    · -- the others have nothing left, so `c` holds the total
      have htotal : ((P.settle quota c is).leave c).total = 0 :=
        Finset.sum_eq_zero fun i hi => by
          have hi' := Finset.mem_of_mem_erase hi
          exact hzero i (hall i (hmem ▸ hi')) (hmem ▸ hi') (Finset.ne_of_mem_erase hi)
      rw [htotal, add_zero] at hsum
      exact absurd hlt (not_lt.mpr (hsum ▸ hcover))
    · -- there is nobody else, so nothing has moved
      have hsingle : P.members = {c} := by
        refine Finset.eq_singleton_iff_unique_mem.mpr ⟨hc, fun i hi => ?_⟩
        exact hnone i (hall i hi) hi
      rw [total_leave_alone hsingle, total_leave_alone (hmem.trans hsingle), add_zero, add_zero]
        at hsum
      exact absurd hsingle (htaker (hsum ▸ hgt))

namespace Balanced

omit [DecidableEq ι] [IsOrderedAddMonoid M] in
/-- Balance depends on who the members are and on what they hold. -/
theorem congr (h : P.Balanced quota) (hmem : Q.members = P.members)
    (hheld : ∀ i ∈ P.members, Q.held i = P.held i) : Q.Balanced quota where
  total := by
    rw [hmem, ← h.total, Pool.total, Pool.total, hmem]
    exact Finset.sum_congr rfl hheld
  nonneg i hi := by
    rw [hmem] at hi
    rw [hheld i hi]
    exact h.nonneg i hi

omit [DecidableEq ι] in
/-- No member of a balanced pool holds more than all are entitled to. -/
theorem held_le (h : P.Balanced quota) (hi : i ∈ P.members) :
    P.held i ≤ P.members.card • quota := by
  rw [← h.total]
  exact Finset.single_le_sum h.nonneg hi

/-- A payment that leaves neither side in debt keeps the balance. -/
theorem pay (h : P.Balanced quota) (hij : i ≠ j) (hi : i ∈ P.members) (hj : j ∈ P.members)
    (hfrom : d ≤ P.held i) (hto : 0 ≤ P.held j + d) : (P.pay i j d).Balanced quota where
  total := (total_pay hi hj).trans h.total
  nonneg k hk := by
    by_cases hki : k = i
    · rw [hki, pay_from hij]
      exact sub_nonneg.mpr hfrom
    · by_cases hkj : k = j
      · rw [hkj, pay_to hij]
        exact hto
      · rw [pay_other hki hkj]
        exact h.nonneg k hk

omit [IsOrderedAddMonoid M] in
/-- A member that joins with its quota keeps the balance. -/
theorem join (h : P.Balanced quota) (hquota : 0 ≤ quota) (hc : c ∉ P.members) :
    (P.join c quota).Balanced quota where
  total := by
    rw [total_join hc, h.total, Pool.join, Finset.card_insert_of_notMem hc, succ_nsmul, add_comm]
  nonneg k hk := by
    by_cases hkc : k = c
    · rw [hkc, join_self]
      exact hquota
    · rw [join_other hkc]
      exact h.nonneg k ((Finset.mem_insert.mp hk).resolve_left hkc)

/-- A member that leaves with its quota keeps the balance. -/
theorem leave (h : P.Balanced quota) (hc : c ∈ P.members) (hheld : P.held c = quota) :
    (P.leave c).Balanced quota where
  total := by
    have hsum := total_leave hc
    rw [h.total, hheld, ← Finset.card_erase_add_one hc, succ_nsmul, add_comm] at hsum
    exact add_right_cancel hsum
  nonneg k hk := h.nonneg k (Finset.mem_of_mem_erase hk)

/-- Settling keeps the balance, whatever has been lent before. -/
theorem settle (h : P.Balanced quota) (hquota : 0 ≤ quota) (hc : c ∈ P.members) (is : List ι) :
    (P.settle quota c is).Balanced quota where
  total := by rw [settle_total hc, settle_members, h.total]
  nonneg k hk := settle_nonneg hquota h.nonneg is k (settle_members (P := P) is ▸ hk)

/-- A member that has settled with every other member holds its quota. -/
theorem settle_held (h : P.Balanced quota) (hquota : 0 ≤ quota) (hc : c ∈ P.members)
    {is : List ι} (hall : ∀ i ∈ P.members, i ∈ is) : (P.settle quota c is).held c = quota := by
  refine (settle_held_iff h.nonneg hquota hc hall).mpr ⟨?_, fun hlt hsingle => ?_⟩
  · rw [total_leave hc, h.total]
    conv_lhs => rw [← one_nsmul quota]
    exact nsmul_le_nsmul_left hquota (Finset.card_pos.mpr ⟨c, hc⟩)
  · have htotal := h.total
    rw [Pool.total, hsingle, Finset.sum_singleton, Finset.card_singleton, one_nsmul] at htotal
    exact absurd htotal hlt.ne'

end Balanced

end Pool
