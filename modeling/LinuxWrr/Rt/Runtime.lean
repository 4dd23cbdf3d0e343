import LinuxWrr.Lib.Pool
import LinuxWrr.Rt.Bandwidth

/-!
# Real-time runtime is neither lost nor made

The CPUs of a root domain that take part in the bandwidth accounting (those whose `rt_runtime`
is not `RUNTIME_INF`) form a pool in the sense of `Lib/Pool.lean`: each is entitled to
`def_rt_bandwidth.rt_runtime`, or already to the new limit while `sched_rt_handler` has not written
that yet. The words of the source never wrap here, so that borrowing is
`Pool.pay`, `__disable_runtime` is `Pool.settle` and `Pool.leave`, and `__enable_runtime` is
`Pool.join`.
-/

namespace LinuxWrr.Bandwidth

variable {cfg : Config} {s t : State} {c i k : Cpu} {d : Nat}

/-- The CPUs of a root domain that take part, and their runtimes. -/
def State.pool (cfg : Config) (s : State) (d : Nat) : Pool Cpu Int where
  members := (s.span cfg d).toFinset.filter fun c => (s.rq c).rtRuntime ≠ runtimeInf
  held c := (s.rq c).rtRuntime

/-- The members of a pool are the CPUs of the domain whose runtime is not infinite. -/
theorem mem_pool : c ∈ (s.pool cfg d).members ↔
    c ∈ cfg.cpus ∧ (s.rq c).rd = d ∧ (s.rq c).rtRuntime ≠ runtimeInf := by
  simp [State.pool, mem_span, and_assoc]

/-- A pool has no more members than the kernel can have CPUs. -/
theorem pool_card_le : (s.pool cfg d).members.card ≤ 2 ^ 20 :=
  (Finset.card_filter_le _ _).trans ((List.toFinset_card_le _).trans span_length_le)

/-- A limit of the sysctl, as nanoseconds: none, or what an `int` of microseconds can say. -/
def Limit (x : Int) : Prop := x = runtimeInf ∨ 0 ≤ x ∧ x < 2 ^ 42

/-- The time on a run queue is far from wrapping, and a throttled run queue has time on it. -/
structure RtRq.Sane (rt : RtRq) : Prop where
  nonneg : 0 ≤ rt.rtTime
  lt : rt.rtTime < 2 ^ 63
  throttled : rt.rtThrottled = true → 0 < rt.rtTime

theorem RtRq.Sane.congr {rt rt' : RtRq} (h : rt.Sane) (htime : rt'.rtTime = rt.rtTime)
    (hthrottled : rt'.rtThrottled = rt.rtThrottled) : rt'.Sane where
  nonneg := htime ▸ h.nonneg
  lt := htime ▸ h.lt
  throttled ht := htime ▸ h.throttled (hthrottled ▸ ht)

/-- A run queue without time on it that is not throttled. -/
theorem RtRq.Sane.zero {rt : RtRq} (htime : rt.rtTime = 0) (hthrottled : rt.rtThrottled = false) :
    rt.Sane where
  nonneg := htime ▸ le_refl _
  lt := by
    rw [htime]
    norm_num
  throttled ht := by
    rw [hthrottled] at ht
    cases ht

/-- What every CPU that takes part is entitled to. -/
def State.level (s : State) : Int :=
  if s.handler = .constrained then globalRtRuntime s else s.rtRuntime

/-- The CPUs of the root domain `d` that take part hold together as many limits as they are. -/
def State.Conserved (cfg : Config) (s : State) (d : Nat) : Prop :=
  ∑ c ∈ (s.pool cfg d).members, (s.rq c).rtRuntime = (s.pool cfg d).members.card * s.level

/-- What an `unsigned int` and an `int` can say. -/
structure SysctlRange (period runtime : Int) : Prop where
  period_nonneg : 0 ≤ period
  period_lt : period < 2 ^ 32
  runtime_ge : -2 ^ 31 ≤ runtime
  runtime_lt : runtime < 2 ^ 31

structure Inv (cfg : Config) (s : State) : Prop where
  pools : ∀ d, (s.pool cfg d).Balanced s.level
  limit : Limit s.level
  /-- Without a limit nobody takes part. -/
  unlimited : s.level = runtimeInf → ∀ c ∈ cfg.cpus, (s.rq c).rtRuntime = runtimeInf
  period : 0 ≤ s.rtPeriod ∧ s.rtPeriod < 2 ^ 42
  sysctl : SysctlRange s.sysctlRtPeriod s.sysctlRtRuntime
  /-- So were the values that a writer may restore. -/
  old : ∀ period runtime, s.handler = .stored period runtime → SysctlRange period runtime
  sane : ∀ c, (s.rq c).Sane
  noBug : s.bug = false

/-- The invariant gives the conservation of runtime in every domain. -/
theorem Inv.conserved (h : Inv cfg s) (d : Nat) : s.Conserved cfg d := by
  rw [State.Conserved, ← nsmul_eq_mul]
  exact (h.pools d).total

/-- What a CPU that takes part holds is far from wrapping. -/
theorem Inv.bounds (h : Inv cfg s) (hc : c ∈ cfg.cpus) (hin : (s.rq c).rtRuntime ≠ runtimeInf) :
    0 ≤ (s.rq c).rtRuntime ∧ (s.rq c).rtRuntime < 2 ^ 62 ∧ 0 ≤ s.level ∧
      s.level < 2 ^ 42 := by
  have hmem : c ∈ (s.pool cfg (s.rq c).rd).members := mem_pool.mpr ⟨hc, rfl, hin⟩
  obtain hinf | ⟨h0, hlt⟩ := h.limit
  · exact absurd (h.unlimited hinf c hc) hin
  have hle : (s.rq c).rtRuntime ≤ (s.pool cfg (s.rq c).rd).members.card • s.level :=
    (h.pools _).held_le hmem
  have hcard : ((s.pool cfg (s.rq c).rd).members.card : Int) ≤ 2 ^ 20 :=
    by exact_mod_cast pool_card_le
  rw [nsmul_eq_mul] at hle
  have hmul : ((s.pool cfg (s.rq c).rd).members.card : Int) * s.level ≤ 2 ^ 20 * s.level :=
    Int.mul_le_mul_of_nonneg_right hcard h0
  exact ⟨(h.pools _).nonneg c hmem, by omega, h0, hlt⟩

/-! ## Steps that leave the runtimes alone -/

/-- Only fields of run queues change, and of those neither the runtime nor the root domain. -/
structure SameRuntime (s t : State) : Prop where
  rest : t = { s with rq := t.rq }
  rq : ∀ c, (t.rq c).rtRuntime = (s.rq c).rtRuntime ∧ (t.rq c).rd = (s.rq c).rd

/-- Rewriting queues and flags leaves the entitlement alone. -/
theorem level_of_rest (h : t = { s with rq := t.rq }) : t.level = s.level := by
  rw [h]
  rfl

theorem SameRuntime.pool (h : SameRuntime s t) : t.pool cfg d = s.pool cfg d := by
  have hmem : (t.pool cfg d).members = (s.pool cfg d).members := by
    ext c
    rw [mem_pool, mem_pool, (h.rq c).1, (h.rq c).2]
  have hheld : (t.pool cfg d).held = (s.pool cfg d).held := funext fun c => (h.rq c).1
  cases ht : t.pool cfg d
  cases hs : s.pool cfg d
  rw [ht, hs] at hmem hheld
  simp only at hmem hheld
  rw [hmem, hheld]

/-- The part of the invariant that is not about run queues. -/
theorem Inv.of_rest (h : Inv cfg s) (hrest : t = { s with rq := t.rq })
    (hpools : ∀ d, (t.pool cfg d).Balanced s.level)
    (hunlimited : s.level = runtimeInf → ∀ c ∈ cfg.cpus, (t.rq c).rtRuntime = runtimeInf)
    (hsane : ∀ c, (t.rq c).Sane) : Inv cfg t where
  pools := level_of_rest hrest ▸ hpools
  limit := level_of_rest hrest ▸ h.limit
  unlimited := level_of_rest hrest ▸ hunlimited
  period := by
    rw [hrest]
    exact h.period
  sysctl := by
    rw [hrest]
    exact h.sysctl
  old := by
    rw [hrest]
    exact h.old
  sane := hsane
  noBug := by
    rw [hrest]
    exact h.noBug

theorem SameRuntime.inv (h : SameRuntime s t) (hs : Inv cfg s)
    (hsane : ∀ c, (t.rq c).Sane) : Inv cfg t := by
  refine hs.of_rest h.rest (fun d => ?_) (fun hinf c hc => ?_) hsane
  · rw [h.pool]
    exact hs.pools d
  · rw [(h.rq c).1]
    exact hs.unlimited hinf c hc

theorem SameRuntime.setRq {rt : RtRq} (hruntime : rt.rtRuntime = (s.rq c).rtRuntime)
    (hrd : rt.rd = (s.rq c).rd) : SameRuntime s (s.setRq c rt) where
  rest := rfl
  rq k := by
    by_cases hk : k = c
    · rw [hk, setRq_self]
      exact ⟨hruntime, hrd⟩
    · rw [setRq_other hk]
      exact ⟨rfl, rfl⟩

theorem setRq_inv (h : Inv cfg s) {rt : RtRq} (hruntime : rt.rtRuntime = (s.rq c).rtRuntime)
    (hrd : rt.rd = (s.rq c).rd) (hsane : rt.Sane) : Inv cfg (s.setRq c rt) := by
  refine (SameRuntime.setRq hruntime hrd).inv h fun k => ?_
  by_cases hk : k = c
  · rw [hk, setRq_self]
    exact hsane
  · rw [setRq_other hk]
    exact h.sane k

theorem charge_inv (h : Inv cfg s) {delta : Int} (h0 : 0 ≤ delta)
    (hlt : (s.rq c).rtTime + delta < 2 ^ 63) : Inv cfg (charge s c delta) := by
  have hnn := (h.sane c).nonneg
  have hu : u64 ((s.rq c).rtTime + delta) = (s.rq c).rtTime + delta :=
    Word.unsigned_of_range (by omega) (by omega)
  refine setRq_inv h rfl rfl ⟨?_, ?_, fun ht => ?_⟩
  · show 0 ≤ u64 _
    omega
  · show u64 _ < 2 ^ 63
    omega
  · have hpos := (h.sane c).throttled ht
    show 0 < u64 _
    omega

/-- No CPU is in debt, and `RUNTIME_INF` is not negative either. -/
theorem Inv.runtime_nonneg (h : Inv cfg s) (hc : c ∈ cfg.cpus) : 0 ≤ (s.rq c).rtRuntime := by
  by_cases hin : (s.rq c).rtRuntime = runtimeInf
  · rw [hin]
    decide
  · exact (h.bounds hc hin).1

theorem throttle_inv (h : Inv cfg s) (hc : c ∈ cfg.cpus) (hnot : (s.rq c).rtThrottled = false) :
    Inv cfg (throttle s c).1 := by
  have hsane := h.sane c
  have hnn := h.runtime_nonneg hc
  unfold throttle
  dsimp only
  split
  · exact h
  · split
    · rename_i hlt
      split
      · exact setRq_inv h rfl rfl ⟨hsane.nonneg, hsane.lt, fun _ => hnn.trans_lt hlt⟩
      · exact setRq_inv h rfl rfl (.zero rfl hnot)
    · exact h

/-- `refill` takes the runtime of the periods that have passed off the time used, down to 0. -/
theorem refill_time (h : Inv cfg s) (c : Cpu) (overrun : Int) :
    ((refill s c overrun).rq c).rtTime =
      (s.rq c).rtTime - min (s.rq c).rtTime (u64 (overrun * (s.rq c).rtRuntime)) := by
  have hsane := h.sane c
  have hlt := hsane.lt
  have hmin := min_le_left (s.rq c).rtTime (u64 (overrun * (s.rq c).rtRuntime))
  have hmin0 : 0 ≤ min (s.rq c).rtTime (u64 (overrun * (s.rq c).rtRuntime)) :=
    le_min hsane.nonneg Word.unsigned_nonneg
  rw [refill, setRq_self]
  exact Word.unsigned_of_range (by omega) (by omega)

/-- A refill unthrottles the queue exactly when its time falls below its runtime. -/
theorem refill_throttled (s : State) (c : Cpu) (overrun : Int) :
    ((refill s c overrun).rq c).rtThrottled = ((s.rq c).rtThrottled &&
      !((s.rq c).rtThrottled &&
        decide (((refill s c overrun).rq c).rtTime < (s.rq c).rtRuntime))) := by
  rw [refill, setRq_self]

theorem refill_inv (h : Inv cfg s) (hc : c ∈ cfg.cpus) (overrun : Int) :
    Inv cfg (refill s c overrun) := by
  have hsane := h.sane c
  have htime := refill_time h c overrun
  have hnn := h.runtime_nonneg hc
  have hlt := hsane.lt
  have hmin := min_le_left (s.rq c).rtTime (u64 (overrun * (s.rq c).rtRuntime))
  have hmin0 : 0 ≤ min (s.rq c).rtTime (u64 (overrun * (s.rq c).rtRuntime)) :=
    le_min hsane.nonneg Word.unsigned_nonneg
  have hthrottled := refill_throttled s c overrun
  have hself : refill s c overrun = s.setRq c ((refill s c overrun).rq c) := by
    rw [refill, setRq_self]
  rw [hself]
  refine setRq_inv h ?_ ?_ ⟨by omega, by omega, fun ht => ?_⟩
  · rw [refill, setRq_self]
  · rw [refill, setRq_self]
  · -- still throttled: what is left is at least the runtime, and no runtime takes nothing off
    rw [hthrottled] at ht
    have hwas : (s.rq c).rtThrottled = true := Bool.and_elim_left ht
    have hpos := hsane.throttled hwas
    rw [hwas] at ht
    have hle : (s.rq c).rtRuntime ≤ ((refill s c overrun).rq c).rtTime := by simpa using ht
    rcases hnn.lt_or_eq with hR | hR
    · omega
    · have hzero : u64 (overrun * (s.rq c).rtRuntime) = 0 := by
        rw [← hR, mul_zero]
        rfl
      rw [hzero] at htime
      omega

/-! ## Borrowing is a payment -/

/-- What is taken from a neighbour is a share of its spare time and never makes it overdrawn. -/
theorem takeSpare_spec {period : Int} {weight : Nat} {rt iter rt' iter' : RtRq}
    (hrt : 0 ≤ rt.rtRuntime ∧ rt.rtRuntime < 2 ^ 62)
    (hiter : iter.rtRuntime ≠ runtimeInf → 0 ≤ iter.rtRuntime ∧ iter.rtRuntime < 2 ^ 62)
    (htime : 0 ≤ iter.rtTime ∧ iter.rtTime < 2 ^ 63) (hperiod : 0 ≤ period ∧ period < 2 ^ 42)
    (h : takeSpare period weight rt iter = some (rt', iter')) :
    iter.rtRuntime ≠ runtimeInf ∧ ∃ diff, diff ≤ iter.rtRuntime - iter.rtTime ∧
      0 ≤ rt.rtRuntime + diff ∧ rt' = { rt with rtRuntime := rt.rtRuntime + diff } ∧
      iter' = { iter with rtRuntime := iter.rtRuntime - diff } := by
  unfold takeSpare at h
  split at h
  · cases h
  rename_i hin
  obtain ⟨hi0, hi1⟩ := hiter hin
  have hdiff : s64 (iter.rtRuntime - iter.rtTime) = iter.rtRuntime - iter.rtTime :=
    Word.signed_of_range (by omega) (by omega)
  simp only [hdiff] at h
  split at h
  · rename_i hpos
    -- the part of the spare time that is on offer
    generalize hspare : (iter.rtRuntime - iter.rtTime) / (weight : Int) = spare at h
    have hs0 : 0 ≤ spare := hspare ▸ Int.ediv_nonneg hpos.le (Int.natCast_nonneg _)
    have hs1 : spare ≤ iter.rtRuntime - iter.rtTime := by
      rw [← hspare]
      exact Int.ediv_le_self _ hpos.le
    have hss : s64 spare = spare := Word.signed_of_range (by omega) (by omega)
    have hsum : u64 (rt.rtRuntime + spare) = rt.rtRuntime + spare :=
      Word.unsigned_of_range (by omega) (by omega)
    have hroom : s64 (period - rt.rtRuntime) = period - rt.rtRuntime :=
      Word.signed_of_range (by omega) (by omega)
    rw [hss, hsum, hroom] at h
    generalize htaken : (if period < rt.rtRuntime + spare then period - rt.rtRuntime else spare) =
      diff at h
    have htake : diff ≤ spare ∧ 0 ≤ rt.rtRuntime + diff ∧ -2 ^ 62 ≤ diff := by
      split at htaken <;> omega
    have hrt' : u64 (rt.rtRuntime + diff) = rt.rtRuntime + diff :=
      Word.unsigned_of_range (by omega) (by omega)
    have hiter' : u64 (iter.rtRuntime - diff) = iter.rtRuntime - diff :=
      Word.unsigned_of_range (by omega) (by omega)
    rw [hrt', hiter'] at h
    cases h
    exact ⟨hin, diff, by omega, htake.2.1, rfl, rfl⟩
  · cases h

/-- `c` is another CPU of the root domain of `i`, and takes part. -/
structure CanBorrow (cfg : Config) (s : State) (c i : Cpu) : Prop where
  borrower : c ∈ cfg.cpus
  lender : i ∈ cfg.cpus
  ne : i ≠ c
  domain : (s.rq i).rd = (s.rq c).rd
  takesPart : (s.rq c).rtRuntime ≠ runtimeInf

/-- A turn of `do_balance_runtime` does nothing, or moves some of the spare time of `i` to `c`. -/
theorem borrow_cases (h : Inv cfg s) (hci : CanBorrow cfg s c i) :
    borrow cfg s c i = s ∨
      (s.rq i).rtRuntime ≠ runtimeInf ∧ ∃ diff, diff ≤ (s.rq i).rtRuntime - (s.rq i).rtTime ∧
        0 ≤ (s.rq c).rtRuntime + diff ∧
        borrow cfg s c i = (s.setRuntime i ((s.rq i).rtRuntime - diff)).setRuntime c
          ((s.rq c).rtRuntime + diff) := by
  have hb := h.bounds hci.borrower hci.takesPart
  cases htake : takeSpare s.rtPeriod (s.span cfg (s.rq c).rd).length (s.rq c) (s.rq i) with
  | none =>
    left
    simp only [borrow, htake]
  | some r =>
    right
    obtain ⟨rt, iter⟩ := r
    have hi := fun hin => h.bounds (c := i) hci.lender hin
    obtain ⟨hin, diff, hle, hnn, rfl, rfl⟩ := takeSpare_spec ⟨hb.1, hb.2.1⟩
      (fun hin => ⟨(hi hin).1, (hi hin).2.1⟩) ⟨(h.sane i).nonneg, (h.sane i).lt⟩ h.period htake
    refine ⟨hin, diff, hle, hnn, ?_⟩
    simp only [borrow, htake, State.setRuntime, setRq_other hci.ne.symm]

section setRuntime

variable {x y : Int}

@[simp] theorem setRuntime_self : ((s.setRuntime c x).rq c).rtRuntime = x := by
  simp [State.setRuntime]

theorem setRuntime_other (h : k ≠ c) : (s.setRuntime c x).rq k = s.rq k := setRq_other h

@[simp] theorem setRuntime_rd : ((s.setRuntime c x).rq k).rd = (s.rq k).rd := by
  by_cases h : k = c
  · simp [State.setRuntime, h]
  · rw [setRuntime_other h]

@[simp] theorem setRuntime_time : ((s.setRuntime c x).rq k).rtTime = (s.rq k).rtTime := by
  by_cases h : k = c
  · simp [State.setRuntime, h]
  · rw [setRuntime_other h]

@[simp] theorem setRuntime_throttled :
    ((s.setRuntime c x).rq k).rtThrottled = (s.rq k).rtThrottled := by
  by_cases h : k = c
  · simp [State.setRuntime, h]
  · rw [setRuntime_other h]

@[simp] theorem setRuntime_online : ((s.setRuntime c x).rq k).online = (s.rq k).online := by
  by_cases h : k = c
  · simp [State.setRuntime, h]
  · rw [setRuntime_other h]

@[simp] theorem setRuntime_limit : (s.setRuntime c x).rtRuntime = s.rtRuntime := rfl

/-- A new runtime that is not `RUNTIME_INF` leaves the CPU in its pool. -/
theorem pool_setRuntime_members (hc : (s.rq c).rtRuntime ≠ runtimeInf) (hx : x ≠ runtimeInf) :
    ((s.setRuntime c x).pool cfg d).members = (s.pool cfg d).members := by
  ext k
  rw [mem_pool, mem_pool, setRuntime_rd]
  by_cases h : k = c
  · rw [h, setRuntime_self]
    simp only [ne_eq, hc, hx]
  · rw [setRuntime_other h]

end setRuntime

theorem borrow_inv (h : Inv cfg s) (hci : CanBorrow cfg s c i) : Inv cfg (borrow cfg s c i) := by
  obtain heq | ⟨hin, diff, hdiff, hnn, heq⟩ := borrow_cases h hci
  · rw [heq]
    exact h
  have hb := h.bounds hci.borrower hci.takesPart
  have hbi := h.bounds hci.lender hin
  have htime := (h.sane i).nonneg
  have hx : (s.rq i).rtRuntime - diff ≠ runtimeInf := by
    unfold runtimeInf
    omega
  have hy : (s.rq c).rtRuntime + diff ≠ runtimeInf := by
    unfold runtimeInf
    omega
  rw [heq]
  have hmem : ∀ d, (((s.setRuntime i ((s.rq i).rtRuntime - diff)).setRuntime c
      ((s.rq c).rtRuntime + diff)).pool cfg d).members = (s.pool cfg d).members := fun d => by
    rw [pool_setRuntime_members _ hy, pool_setRuntime_members hin hx]
    rw [setRuntime_other hci.ne.symm]
    exact hci.takesPart
  refine h.of_rest rfl (fun d => ?_)
    (fun hinf => absurd (h.unlimited hinf c hci.borrower) hci.takesPart) fun k => ?_
  · by_cases hd : (s.rq c).rd = d
    · have hpay := (h.pools d).pay (d := diff) hci.ne
        (mem_pool.mpr ⟨hci.lender, hci.domain.trans hd, hin⟩)
        (mem_pool.mpr ⟨hci.borrower, hd, hci.takesPart⟩)
        (show diff ≤ (s.rq i).rtRuntime by omega) hnn
      refine hpay.congr (hmem d) fun k _ => ?_
      by_cases hkc : k = c
      · rw [hkc, Pool.pay_to hci.ne]
        exact setRuntime_self
      · by_cases hki : k = i
        · rw [hki, Pool.pay_from hci.ne]
          show (State.rq _ i).rtRuntime = _
          rw [setRuntime_other hci.ne, setRuntime_self]
          rfl
        · rw [Pool.pay_other hki hkc]
          show (State.rq _ k).rtRuntime = (s.rq k).rtRuntime
          rw [setRuntime_other hkc, setRuntime_other hki]
    · refine (h.pools d).congr (hmem d) fun k hk => ?_
      have hkd := (mem_pool.mp hk).2.1
      have hkc : k ≠ c := fun hkc => hd (hkc ▸ hkd)
      have hki : k ≠ i := fun hki => hd (hci.domain ▸ hki ▸ hkd)
      show (State.rq _ k).rtRuntime = (s.rq k).rtRuntime
      rw [setRuntime_other hkc, setRuntime_other hki]
  · refine (h.sane k).congr ?_ ?_
    · rw [setRuntime_time, setRuntime_time]
    · rw [setRuntime_throttled, setRuntime_throttled]

/-! ## Settling -/

/-- From `s` to `t` only runtimes changed, and only those of CPUs of domain `d` that take part,
other than `c`. -/
structure Repaid (cfg : Config) (d : Nat) (c : Cpu) (s t : State) : Prop where
  rest : t = { s with rq := t.rq }
  rd : ∀ k, (t.rq k).rd = (s.rq k).rd
  time : ∀ k, (t.rq k).rtTime = (s.rq k).rtTime
  throttled : ∀ k, (t.rq k).rtThrottled = (s.rq k).rtThrottled
  away : ∀ k, k = c ∨ k ∉ (s.pool cfg d).members → t.rq k = s.rq k
  members : (t.pool cfg d).members = (s.pool cfg d).members

theorem Repaid.refl (s : State) : Repaid cfg d c s s where
  rest := rfl
  rd _ := rfl
  time _ := rfl
  throttled _ := rfl
  away _ _ := rfl
  members := rfl

/-- Repaying may go on in several turns. -/
theorem Repaid.trans {u : State} (h : Repaid cfg d c s t) (h' : Repaid cfg d c t u) :
    Repaid cfg d c s u where
  rest := by
    rw [h'.rest, h.rest]
  rd k := (h'.rd k).trans (h.rd k)
  time k := (h'.time k).trans (h.time k)
  throttled k := (h'.throttled k).trans (h.throttled k)
  away k hk := (h'.away k (hk.imp_right (h.members ▸ ·))).trans (h.away k hk)
  members := h'.members.trans h.members

theorem Repaid.limit (h : Repaid cfg d c s t) : t.rtRuntime = s.rtRuntime := by
  rw [h.rest]

theorem repaid_setRuntime {x : Int} (hi : i ∈ (s.pool cfg d).members) (hic : i ≠ c)
    (hx : x ≠ runtimeInf) : Repaid cfg d c s (s.setRuntime i x) where
  rest := rfl
  rd _ := setRuntime_rd
  time _ := setRuntime_time
  throttled _ := setRuntime_throttled
  away k hk := by
    refine setRuntime_other fun hki => ?_
    rw [hki] at hk
    exact hk.elim hic (absurd hi)
  members := pool_setRuntime_members (mem_pool.mp hi).2.2 hx

/-- `c` of domain `d` still wants `want`; in the pool `P` it has been handed what it got so far. -/
structure Reclaiming (cfg : Config) (d : Nat) (c : Cpu) (s : State) (want : Int)
    (P : Pool Cpu Int) : Prop where
  mem : c ∈ (s.pool cfg d).members
  members : P.members = (s.pool cfg d).members
  held : ∀ i, i ≠ c → P.held i = (s.rq i).rtRuntime
  want : P.held c + want = s.rtRuntime
  nonneg : ∀ i ∈ P.members, 0 ≤ P.held i
  total : P.total < 2 ^ 62
  limit : 0 ≤ s.rtRuntime ∧ s.rtRuntime < 2 ^ 42

/-- While runtime is reclaimed every member's runtime stays within the word. -/
theorem Reclaiming.bounds {want : Int} {P : Pool Cpu Int} (h : Reclaiming cfg d c s want P)
    (hi : i ∈ (s.pool cfg d).members) : 0 ≤ P.held i ∧ P.held i < 2 ^ 62 := by
  have hmem : i ∈ P.members := h.members ▸ hi
  exact ⟨h.nonneg i hmem, (Finset.single_le_sum h.nonneg hmem).trans_lt h.total⟩

/-- One turn of the loop of `__disable_runtime` that is not skipped. -/
def reclaimFrom (s : State) (i : Cpu) (want : Int) : State × Int :=
  let diff := if 0 < want then min (s64 (s.rq i).rtRuntime) want else want
  (s.setRuntime i (u64 ((s.rq i).rtRuntime - diff)), s64 (want - diff))

/-- One turn of the reclaiming loop skips the CPU or settles with it, and stops when nothing is
wanted. -/
theorem reclaim_cons (s : State) (c : Cpu) (want : Int) (i : Cpu) (is : List Cpu) :
    reclaim s c want (i :: is) =
      if i = c ∨ (s.rq i).rtRuntime = runtimeInf then reclaim s c want is
      else if (reclaimFrom s i want).2 = 0 then reclaimFrom s i want
      else reclaim (reclaimFrom s i want).1 c (reclaimFrom s i want).2 is := rfl

/-- Settling with one neighbour keeps the books of the reclaiming loop. -/
theorem Reclaiming.turn {want : Int} {P : Pool Cpu Int} (h : Reclaiming cfg d c s want P)
    (hi : i ∈ (s.pool cfg d).members) (hic : i ≠ c) (hwant : want ≠ 0) :
    Reclaiming cfg d c (reclaimFrom s i want).1 (reclaimFrom s i want).2
        (Pool.settleWith s.rtRuntime c P i) ∧
      Repaid cfg d c s (reclaimFrom s i want).1 := by
  have hri := h.bounds hi
  have hrc := h.bounds h.mem
  have hheld := h.held i hic
  have hw := h.want
  have hlim := h.limit
  have hiP : i ∈ P.members := h.members ▸ hi
  have hcP : c ∈ P.members := h.members ▸ h.mem
  -- in the pool this is a payment of the same amount
  have hsigned : s64 (s.rq i).rtRuntime = (s.rq i).rtRuntime :=
    Word.signed_of_range (by omega) (by omega)
  have howed : s.rtRuntime - P.held c = want := by omega
  have hpay : Pool.settleWith s.rtRuntime c P i =
      P.pay i c (if 0 < want then min (P.held i) want else want) := by
    rw [Pool.settleWith, howed, if_neg]
    rw [not_or, not_or, not_not]
    exact ⟨hic, hiP, hwant⟩
  generalize hdiff : (if 0 < want then min (P.held i) want else want) = diff at hpay
  have hle : diff ≤ P.held i ∧ 0 ≤ P.held c + diff ∧ -2 ^ 62 ≤ diff ∧ diff < 2 ^ 62 := by
    split at hdiff <;> omega
  have hu : u64 ((s.rq i).rtRuntime - diff) = (s.rq i).rtRuntime - diff :=
    Word.unsigned_of_range (by omega) (by omega)
  have hs : s64 (want - diff) = want - diff :=
    Word.signed_of_range (by omega) (by omega)
  have hturn : reclaimFrom s i want =
      (s.setRuntime i ((s.rq i).rtRuntime - diff), want - diff) := by
    rw [reclaimFrom, hsigned, ← hheld, hdiff, hheld, hu, hs]
  have hx : (s.rq i).rtRuntime - diff ≠ runtimeInf := by
    unfold runtimeInf
    omega
  have hmem : ((s.setRuntime i ((s.rq i).rtRuntime - diff)).pool cfg d).members =
      (s.pool cfg d).members := pool_setRuntime_members (mem_pool.mp hi).2.2 hx
  rw [hturn, hpay]
  refine ⟨?_, repaid_setRuntime hi hic hx⟩
  exact {
    mem := hmem ▸ h.mem
    members := h.members.trans hmem.symm
    held := fun k hk => by
      by_cases hki : k = i
      · rw [hki, Pool.pay_from hic, hheld, setRuntime_self]
      · rw [Pool.pay_other hki hk, setRuntime_other hki]
        exact h.held k hk
    want := by
      rw [Pool.pay_to hic, setRuntime_limit]
      omega
    nonneg := fun k hk => hpay ▸ Pool.settleWith_nonneg hlim.1 h.nonneg k hk
    total := (Pool.total_pay hiP hcP).trans_lt h.total
    limit := hlim }

/-- The loop of `__disable_runtime` is `Pool.settle`. -/
theorem reclaim_spec (is : List Cpu) {want : Int} {P : Pool Cpu Int}
    (h : Reclaiming cfg d c s want P) (hwant : want ≠ 0)
    (his : ∀ i ∈ is, i ∈ cfg.cpus ∧ (s.rq i).rd = d) :
    Reclaiming cfg d c (reclaim s c want is).1 (reclaim s c want is).2
        (P.settle s.rtRuntime c is) ∧
      Repaid cfg d c s (reclaim s c want is).1 := by
  induction is generalizing s want P with
  | nil => exact ⟨h, Repaid.refl s⟩
  | cons i is ih =>
    have hrest := fun k hk => his k (List.mem_cons_of_mem i hk)
    obtain ⟨hcpu, hrd⟩ := his i List.mem_cons_self
    rw [reclaim_cons, Pool.settle_cons]
    split
    · rename_i hskip
      have hsame : Pool.settleWith s.rtRuntime c P i = P := by
        refine if_pos (hskip.imp_right fun hinf => .inl ?_)
        rw [h.members, mem_pool]
        exact fun hmem => hmem.2.2 hinf
      rw [hsame]
      exact ih h hwant hrest
    · rename_i hskip
      rw [not_or] at hskip
      obtain ⟨hturn, hrepaid⟩ := h.turn (mem_pool.mpr ⟨hcpu, hrd, hskip.2⟩) hskip.1 hwant
      split
      · rename_i hzero
        have hdone : (Pool.settleWith s.rtRuntime c P i).held c = s.rtRuntime := by
          have hw := hturn.want
          rw [hzero, hrepaid.limit] at hw
          omega
        rw [Pool.settle_done hdone]
        exact ⟨hturn, hrepaid⟩
      · rename_i hmore
        have hnext := ih hturn hmore fun k hk => by
          rw [hrepaid.rd k]
          exact hrest k hk
        rw [hrepaid.limit] at hnext
        exact ⟨hnext.1, hrepaid.trans hnext.2⟩

/-- A CPU with infinite runtime leaves the pool. -/
theorem pool_setRuntime_inf : ((s.setRuntime c runtimeInf).pool cfg d).members =
    (s.pool cfg d).members.erase c := by
  ext k
  rw [Finset.mem_erase, mem_pool, mem_pool, setRuntime_rd]
  by_cases h : k = c
  · rw [h, setRuntime_self]
    simp
  · rw [setRuntime_other h]
    simp [h]

/-- `c` goes away, the others having settled with it. -/
theorem leave_inv (h : Inv cfg s) (hrepaid : Repaid cfg (s.rq c).rd c s t)
    (hP : ∃ P : Pool Cpu Int, P.Balanced s.level ∧
      P.members = (s.pool cfg (s.rq c).rd).members.erase c ∧
      ∀ k ∈ P.members, P.held k = (t.rq k).rtRuntime) :
    Inv cfg (t.setRuntime c runtimeInf) := by
  obtain ⟨P, hbal, hmem, hheld⟩ := hP
  have hrest : t.setRuntime c runtimeInf = { s with rq := (t.setRuntime c runtimeInf).rq } := by
    rw [hrepaid.rest]
    rfl
  refine h.of_rest hrest (fun d => ?_) (fun hinf k hk => ?_) fun k => ?_
  · by_cases hd : (s.rq c).rd = d
    · subst hd
      refine hbal.congr ?_ fun k hk => ?_
      · rw [pool_setRuntime_inf, hrepaid.members, hmem]
      · have hkc : k ≠ c := Finset.ne_of_mem_erase (hmem ▸ hk)
        rw [hheld k hk]
        show (State.rq _ k).rtRuntime = _
        rw [setRuntime_other hkc]
    · -- another domain is not touched
      have haway : ∀ k, (s.rq k).rd = d → t.rq k = s.rq k := fun k hk =>
        hrepaid.away k (.inr fun hk' => hd ((mem_pool.mp hk').2.1.symm.trans hk))
      refine (h.pools d).congr ?_ fun k hk => ?_
      · ext k
        rw [pool_setRuntime_inf, Finset.mem_erase, mem_pool, mem_pool, hrepaid.rd]
        constructor
        · rintro ⟨-, hk, hkd, hin⟩
          exact ⟨hk, hkd, haway k hkd ▸ hin⟩
        · rintro ⟨hk, hkd, hin⟩
          exact ⟨fun hkc => hd (hkc ▸ hkd), hk, hkd, (haway k hkd).symm ▸ hin⟩
      · have hkd := (mem_pool.mp hk).2.1
        have hkc : k ≠ c := fun hkc => hd (hkc ▸ hkd)
        show (State.rq _ k).rtRuntime = (s.rq k).rtRuntime
        rw [setRuntime_other hkc, haway k hkd]
  · by_cases hkc : k = c
    · rw [hkc, setRuntime_self]
    · have hsk := h.unlimited hinf k hk
      rw [setRuntime_other hkc, hrepaid.away k, hsk]
      exact .inr fun hk' => (mem_pool.mp hk').2.2 hsk
  · refine (h.sane k).congr ?_ ?_
    · rw [setRuntime_time, hrepaid.time]
    · rw [setRuntime_throttled, hrepaid.throttled]

/-- Together the members of a balanced pool hold far less than a word. -/
theorem Inv.total_lt (h : Inv cfg s) (hc : c ∈ (s.pool cfg d).members) :
    (s.pool cfg d).total < 2 ^ 62 := by
  have hb := h.bounds (mem_pool.mp hc).1 (mem_pool.mp hc).2.2
  have hcard : ((s.pool cfg d).members.card : Int) ≤ 2 ^ 20 :=
    by exact_mod_cast pool_card_le
  have hmul : ((s.pool cfg d).members.card : Int) * s.level ≤ 2 ^ 20 * s.level :=
    Int.mul_le_mul_of_nonneg_right hcard hb.2.2.1
  rw [(h.pools d).total, nsmul_eq_mul]
  omega

/-- How `__disable_runtime` runs on a CPU that takes part and does not hold exactly its limit. -/
theorem disableRuntime_eq (hrun : s.schedulerRunning = true)
    (hmem : c ∈ (s.pool cfg (s.rq c).rd).members) (hne : (s.rq c).rtRuntime ≠ s.rtRuntime)
    (hnn : ∀ k ∈ (s.pool cfg (s.rq c).rd).members, 0 ≤ (s.rq k).rtRuntime)
    (htotal : (s.pool cfg (s.rq c).rd).total < 2 ^ 62)
    (hlimit : 0 ≤ s.rtRuntime ∧ s.rtRuntime < 2 ^ 42) :
    ∃ t want, Repaid cfg (s.rq c).rd c s t ∧
      Reclaiming cfg (s.rq c).rd c t want
        ((s.pool cfg (s.rq c).rd).settle s.rtRuntime c (s.span cfg (s.rq c).rd)) ∧
      disableRuntime cfg s c =
        State.setRuntime { t with bug := t.bug || decide (want ≠ 0) } c runtimeInf := by
  have hin := (mem_pool.mp hmem).2.2
  have hstart : Reclaiming cfg (s.rq c).rd c s (s.rtRuntime - (s.rq c).rtRuntime)
      (s.pool cfg (s.rq c).rd) :=
    { mem := hmem
      members := rfl
      held := fun _ _ => rfl
      want := add_sub_cancel _ _
      nonneg := hnn
      total := htotal
      limit := hlimit }
  have hb : 0 ≤ (s.rq c).rtRuntime ∧ (s.rq c).rtRuntime < 2 ^ 62 := hstart.bounds hmem
  have hs : s64 (s.rtRuntime - (s.rq c).rtRuntime) = s.rtRuntime - (s.rq c).rtRuntime :=
    Word.signed_of_range (by omega) (by omega)
  have hwant : s.rtRuntime - (s.rq c).rtRuntime ≠ 0 := fun h0 => hne (by omega)
  obtain ⟨hend, hrepaid⟩ := reclaim_spec (s.span cfg (s.rq c).rd) hstart hwant
    fun i hi => mem_span.mp hi
  refine ⟨_, _, hrepaid, hend, ?_⟩
  rw [disableRuntime, if_neg (not_not.mpr hrun), if_neg (not_or.mpr ⟨hin, hne⟩)]
  simp only [hs]

/-- The limit that every CPU is entitled to is the one that `__disable_runtime` and
`__enable_runtime` read: no writer is between its two stores. -/
def Published (s : State) : Prop := s.level = s.rtRuntime

theorem Published.setRq {rt : RtRq} (h : Published s) : Published (s.setRq c rt) := h

/-- `__disable_runtime` settles exactly: the assertion in it holds. -/
theorem disableRuntime_inv (h : Inv cfg s) (hpub : Published s) (hc : c ∈ cfg.cpus) :
    Inv cfg (disableRuntime cfg s c) := by
  by_cases hrun : s.schedulerRunning = true
  swap
  · rw [disableRuntime, if_pos hrun]
    exact h
  have hpools : (s.pool cfg (s.rq c).rd).Balanced s.rtRuntime := hpub ▸ h.pools (s.rq c).rd
  by_cases hbalanced : (s.rq c).rtRuntime = runtimeInf ∨ (s.rq c).rtRuntime = s.rtRuntime
  · rw [disableRuntime, if_neg (not_not.mpr hrun), if_pos hbalanced]
    refine leave_inv h (Repaid.refl s) ?_
    by_cases hin : (s.rq c).rtRuntime = runtimeInf
    · refine ⟨s.pool cfg (s.rq c).rd, h.pools _, (Finset.erase_eq_of_notMem ?_).symm, fun _ _ => rfl⟩
      exact fun hmem => (mem_pool.mp hmem).2.2 hin
    · have hmem : c ∈ (s.pool cfg (s.rq c).rd).members := mem_pool.mpr ⟨hc, rfl, hin⟩
      have hheld : (s.rq c).rtRuntime = s.level := (hbalanced.resolve_left hin).trans hpub.symm
      exact ⟨_, (h.pools _).leave hmem hheld, rfl, fun _ _ => rfl⟩
  · rw [not_or] at hbalanced
    obtain ⟨hin, hne⟩ := hbalanced
    have hb := h.bounds hc hin
    rw [hpub] at hb
    have hmem : c ∈ (s.pool cfg (s.rq c).rd).members := mem_pool.mpr ⟨hc, rfl, hin⟩
    obtain ⟨t, want, hrepaid, hend, heq⟩ := disableRuntime_eq hrun hmem hne
      (h.pools _).nonneg (h.total_lt hmem) hb.2.2
    have hall : ∀ i ∈ (s.pool cfg (s.rq c).rd).members, i ∈ s.span cfg (s.rq c).rd := fun i hi => by
      rw [mem_pool] at hi
      exact mem_span.mpr ⟨hi.1, hi.2.1⟩
    have hsettled := hpools.settle_held hb.2.2.1 hmem hall
    have hzero : want = 0 := by
      have hw := hend.want
      rw [hsettled, hrepaid.limit] at hw
      omega
    -- the assertion adds nothing to the state
    have hbug : ({ t with bug := t.bug || decide (want ≠ 0) } : State) = t := by
      simp [hzero]
    rw [heq, hbug]
    have hbal := hpools.settle hb.2.2.1 hmem (s.span cfg (s.rq c).rd)
    have hmem' : c ∈ (Pool.settle s.rtRuntime c (s.pool cfg (s.rq c).rd)
        (s.span cfg (s.rq c).rd)).members := by rwa [Pool.settle_members]
    have hleft := hbal.leave hmem' hsettled
    have hlevel : s.rtRuntime = s.level := hpub.symm
    rw [hlevel] at hleft hend
    refine leave_inv h hrepaid ⟨_, hleft, ?_, fun k hk => ?_⟩
    · exact congrArg (Finset.erase · c) (Pool.settle_members _)
    · exact hend.held k (Finset.ne_of_mem_erase hk)
/-- The loop of `__disable_runtime` writes run queues only. -/
theorem reclaim_rest (s : State) (c : Cpu) (want : Int) (is : List Cpu) :
    (reclaim s c want is).1 = { s with rq := (reclaim s c want is).1.rq } := by
  induction is generalizing s want with
  | nil => rfl
  | cons i is ih =>
    rw [reclaim_cons]
    split
    · exact ih s want
    · split
      · rfl
      · rw [ih]
        rfl

/-- Disabling a CPU leaves the published limit alone. -/
theorem disableRuntime_published (hpub : Published s) : Published (disableRuntime cfg s c) := by
  unfold disableRuntime
  split
  · exact hpub
  split
  · exact hpub
  · dsimp only
    rw [reclaim_rest]
    exact hpub

/-! ## Starting afresh -/

/-- A CPU whose runtime may be set afresh: it takes no part, or holds what it is entitled to. -/
def Settled (s : State) (c : Cpu) : Prop :=
  (s.rq c).rtRuntime = runtimeInf ∨ (s.rq c).rtRuntime = s.level

theorem Limit.nonneg {x : Int} (h : Limit x) : 0 ≤ x := by
  rcases h with rfl | h
  · decide
  · exact h.1

/-- A settled CPU gets the limit as its runtime; its fields are otherwise arbitrary, and it may
be in another domain than before. -/
theorem join_inv (h : Inv cfg s) (hc : c ∈ cfg.cpus) (hset : Settled s c) {rt : RtRq}
    (hruntime : rt.rtRuntime = s.level) (hsane : rt.Sane) : Inv cfg (s.setRq c rt) := by
  have hother : ∀ {k}, k ≠ c → (s.setRq c rt).rq k = s.rq k := fun hk => setRq_other hk
  refine h.of_rest rfl (fun d => ?_) (fun hinf k hk => ?_) fun k => ?_
  · -- first `c` leaves its old domain, then it joins the new one
    have hleft : ((s.setRuntime c runtimeInf).pool cfg d).Balanced s.level := by
      by_cases hmem : c ∈ (s.pool cfg d).members
      · have hR := hset.resolve_left (mem_pool.mp hmem).2.2
        refine ((h.pools d).leave hmem hR).congr pool_setRuntime_inf fun k hk => ?_
        show (State.rq _ k).rtRuntime = (s.rq k).rtRuntime
        rw [setRuntime_other (Finset.ne_of_mem_erase hk)]
      · refine (h.pools d).congr ?_ fun k hk => ?_
        · rw [pool_setRuntime_inf, Finset.erase_eq_of_notMem hmem]
        · have hkc : k ≠ c := fun hkc => hmem (hkc ▸ hk)
          show (State.rq _ k).rtRuntime = (s.rq k).rtRuntime
          rw [setRuntime_other hkc]
    have hmem : ((s.setRq c rt).pool cfg d).members =
        if rt.rd = d ∧ s.level ≠ runtimeInf then insert c ((s.setRuntime c runtimeInf).pool cfg d).members
        else ((s.setRuntime c runtimeInf).pool cfg d).members := by
      ext k
      rw [pool_setRuntime_inf, mem_pool]
      by_cases hk : k = c
      · subst hk
        rw [setRq_self, hruntime]
        split
        · rename_i hin
          simp [hc, hin]
        · rename_i hin
          simp only [Finset.mem_erase, ne_eq, not_true_eq_false, false_and, iff_false]
          exact fun hin' => hin hin'.2
      · rw [hother hk, ← mem_pool]
        split
        · rw [Finset.mem_insert, Finset.mem_erase]
          simp [hk]
        · rw [Finset.mem_erase]
          simp [hk]
    split at hmem
    · have hnew : c ∉ ((s.setRuntime c runtimeInf).pool cfg d).members := by
        rw [pool_setRuntime_inf]
        exact Finset.notMem_erase c _
      refine (hleft.join h.limit.nonneg hnew).congr hmem fun k hk => ?_
      by_cases hkc : k = c
      · rw [hkc, Pool.join_self]
        show (State.rq _ c).rtRuntime = _
        rw [setRq_self, hruntime]
      · rw [Pool.join_other hkc]
        show (State.rq _ k).rtRuntime = (State.rq _ k).rtRuntime
        rw [hother hkc, setRuntime_other hkc]
    · refine hleft.congr hmem fun k hk => ?_
      rw [pool_setRuntime_inf] at hk
      have hkc := Finset.ne_of_mem_erase hk
      show (State.rq _ k).rtRuntime = (State.rq _ k).rtRuntime
      rw [hother hkc, setRuntime_other hkc]
  · by_cases hkc : k = c
    · rw [hkc, setRq_self, hruntime]
      exact hinf
    · rw [hother hkc]
      exact h.unlimited hinf k hk
  · by_cases hkc : k = c
    · rw [hkc, setRq_self]
      exact hsane
    · rw [hother hkc]
      exact h.sane k

theorem enableRuntime_inv (h : Inv cfg s) (hpub : Published s) (hc : c ∈ cfg.cpus)
    (hset : Settled s c) : Inv cfg (enableRuntime s c) := by
  unfold enableRuntime
  split
  · exact h
  · exact join_inv h hc hset hpub.symm (.zero rfl rfl)

/-- **Only a settled CPU may be started afresh**: `__enable_runtime` on another one makes or
loses runtime at once. -/
theorem enableRuntime_conserved_iff (h : Inv cfg s) (hpub : Published s)
    (hrun : s.schedulerRunning = true) (hc : c ∈ cfg.cpus) :
    (enableRuntime s c).Conserved cfg (s.rq c).rd ↔ Settled s c := by
  refine ⟨fun hconserved => ?_, fun hset => (enableRuntime_inv h hpub hc hset).conserved _⟩
  by_contra hset
  rw [Settled, not_or] at hset
  obtain ⟨hin, hne⟩ := hset
  have hlimit : s.level ≠ runtimeInf := fun hinf => hin (h.unlimited hinf c hc)
  obtain ⟨u, hu⟩ : ∃ u, u = enableRuntime s c := ⟨_, rfl⟩
  have hrq := hu
  rw [enableRuntime, if_neg (not_not.mpr hrun)] at hrq
  have hself : (u.rq c).rtRuntime = s.level ∧ (u.rq c).rd = (s.rq c).rd := by
    rw [hrq, setRq_self]
    exact ⟨hpub.symm, rfl⟩
  have hother : ∀ {k}, k ≠ c → u.rq k = s.rq k := fun hk => by rw [hrq, setRq_other hk]
  have hlevel : u.level = s.level := by
    rw [hrq]
    rfl
  have hmembers : (u.pool cfg (s.rq c).rd).members = (s.pool cfg (s.rq c).rd).members := by
    ext k
    rw [mem_pool, mem_pool]
    by_cases hk : k = c
    · rw [hk, hself.1, hself.2]
      simp [hin, hlimit]
    · rw [hother hk]
  have hmem : c ∈ (s.pool cfg (s.rq c).rd).members := mem_pool.mpr ⟨hc, rfl, hin⟩
  -- the others hold together what they held, so that `c` must hold what it held
  have hrest : ∑ k ∈ (s.pool cfg (s.rq c).rd).members.erase c, (u.rq k).rtRuntime =
      ∑ k ∈ (s.pool cfg (s.rq c).rd).members.erase c, (s.rq k).rtRuntime :=
    Finset.sum_congr rfl fun k hk => by rw [hother (Finset.ne_of_mem_erase hk)]
  have hold := h.conserved (s.rq c).rd
  rw [← hu, State.Conserved, hmembers, hlevel, ← Finset.add_sum_erase _ _ hmem, hrest, hself.1]
    at hconserved
  rw [State.Conserved, ← Finset.add_sum_erase _ _ hmem] at hold
  exact hne (by omega)

theorem disableRuntime_settled (hrun : s.schedulerRunning = true) :
    Settled (disableRuntime cfg s c) c := by
  left
  unfold disableRuntime
  rw [hrun]
  simp only [not_true_eq_false, if_false]
  split <;> exact setRuntime_self

theorem Settled.setRq {rt : RtRq} (h : Settled s c) (hrt : rt.rtRuntime = (s.rq c).rtRuntime) :
    Settled (s.setRq c rt) c := by
  unfold Settled
  rw [setRq_self, hrt]
  exact h

theorem setRqOnline_inv (h : Inv cfg s) (hpub : Published s) (hc : c ∈ cfg.cpus)
    (hset : (s.rq c).online = false → Settled s c) : Inv cfg (setRqOnline s c) := by
  unfold setRqOnline
  split
  · exact h
  · rename_i hoff
    refine enableRuntime_inv (setRq_inv h rfl rfl ((h.sane c).congr rfl rfl)) hpub.setRq hc ?_
    exact (hset (by simpa using hoff)).setRq rfl

theorem setRqOffline_inv (h : Inv cfg s) (hpub : Published s) (hc : c ∈ cfg.cpus) :
    Inv cfg (setRqOffline cfg s c) := by
  unfold setRqOffline
  split
  · exact h
  · have hdis := disableRuntime_inv h hpub hc
    exact setRq_inv hdis rfl rfl ((hdis.sane c).congr rfl rfl)

theorem setRqOffline_published (hpub : Published s) : Published (setRqOffline cfg s c) := by
  unfold setRqOffline
  split
  · exact hpub
  · exact (disableRuntime_published hpub).setRq

/-- A CPU that goes off line while the scheduler runs is settled. -/
theorem setRqOffline_settled
    (hset : (s.rq c).online = true ∧ s.schedulerRunning = true ∨ Settled s c) :
    Settled (setRqOffline cfg s c) c := by
  unfold setRqOffline
  split
  · rename_i hoff
    exact hset.resolve_left fun hon => hoff hon.1
  · by_cases hrun : s.schedulerRunning = true
    · exact (disableRuntime_settled hrun).setRq rfl
    · have hsame : disableRuntime cfg s c = s := if_pos hrun
      rw [hsame]
      exact (hset.resolve_left fun hon => hrun hon.2).setRq rfl

/-- A settled CPU moves to another domain with what it has. -/
theorem setRd_inv (h : Inv cfg s) (hc : c ∈ cfg.cpus) (hset : Settled s c) :
    Inv cfg (s.setRq c { s.rq c with rd := d }) := by
  have hsane : RtRq.Sane { s.rq c with rd := d } := (h.sane c).congr rfl rfl
  by_cases hin : (s.rq c).rtRuntime = runtimeInf
  · -- it is in no pool before or after
    have hother : ∀ {k}, k ≠ c → (s.setRq c { s.rq c with rd := d }).rq k = s.rq k :=
      fun hk => setRq_other hk
    have hruntime : ∀ k, ((s.setRq c { s.rq c with rd := d }).rq k).rtRuntime =
        (s.rq k).rtRuntime := fun k => by
      by_cases hkc : k = c
      · rw [hkc, setRq_self]
      · rw [hother hkc]
    refine h.of_rest rfl (fun d' => (h.pools d').congr ?_ fun k _ => hruntime k)
      (fun hinf k hk => (hruntime k).trans (h.unlimited hinf k hk)) fun k => ?_
    · ext k
      rw [mem_pool, mem_pool, hruntime]
      by_cases hkc : k = c
      · simp [hkc, hin]
      · rw [hother hkc]
    · by_cases hkc : k = c
      · rw [hkc, setRq_self]
        exact hsane
      · rw [hother hkc]
        exact h.sane k
  · exact join_inv h hc hset (hset.resolve_left hin) hsane

/-- Attaching a CPU to a root domain keeps the invariant if it is settled or goes offline first. -/
theorem rqAttachRoot_inv (h : Inv cfg s) (hpub : Published s) (hc : c ∈ cfg.cpus)
    (hset : (s.rq c).online = true ∧ s.schedulerRunning = true ∨ Settled s c) (active : Bool) :
    Inv cfg (rqAttachRoot cfg s c d active) := by
  have hoff := setRqOffline_inv h hpub hc
  have hoffPub : Published (setRqOffline cfg s c) := setRqOffline_published hpub
  have hsettled : Settled (setRqOffline cfg s c) c := setRqOffline_settled hset
  have hmoved := setRd_inv (d := d) hoff hc hsettled
  unfold rqAttachRoot
  dsimp only
  split
  · exact setRqOnline_inv hmoved hoffPub.setRq hc fun _ => hsettled.setRq rfl
  · exact hmoved

/-! ## The sysctl -/

/-- Within the range of the sysctls the global runtime is a limit. -/
theorem globalRtRuntime_limit (h : SysctlRange s.sysctlRtPeriod s.sysctlRtRuntime) :
    Limit (globalRtRuntime s) := by
  have hge := h.runtime_ge
  have hlt := h.runtime_lt
  unfold globalRtRuntime
  split
  · exact .inl rfl
  · right
    have hu : u64 (s.sysctlRtRuntime * 1000) = s.sysctlRtRuntime * 1000 :=
      Word.unsigned_of_range (by omega) (by omega)
    omega

/-- Within the range of the sysctls the global period fits the word. -/
theorem globalRtPeriod_range (h : SysctlRange s.sysctlRtPeriod s.sysctlRtRuntime) :
    0 ≤ globalRtPeriod s ∧ globalRtPeriod s < 2 ^ 42 := by
  have hge := h.period_nonneg
  have hlt := h.period_lt
  have hu : u64 (s.sysctlRtPeriod * 1000) = s.sysctlRtPeriod * 1000 :=
    Word.unsigned_of_range (by omega) (by omega)
  rw [globalRtPeriod, hu]
  omega

/-- When every CPU holds the level, every pool is balanced. -/
theorem balanced_of_level {x : Int} (hx : Limit x) (hruntime : ∀ c ∈ cfg.cpus, (s.rq c).rtRuntime = x)
    (d : Nat) : (s.pool cfg d).Balanced x := by
  have hheld : ∀ k ∈ (s.pool cfg d).members, (s.pool cfg d).held k = x :=
    fun k hk => hruntime k (mem_pool.mp hk).1
  exact ⟨Finset.sum_eq_card_nsmul hheld, fun k hk => (hheld k hk).symm ▸ hx.nonneg⟩

/-- A writer gets in only when the one before it is done; what it stores is not yet the limit. -/
theorem schedRtStore_inv (h : Inv cfg s) {period runtime : Int} (hidle : s.handler = .idle)
    (hrange : SysctlRange period runtime) : Inv cfg (schedRtStore s period runtime) := by
  have hlevel : (schedRtStore s period runtime).level = s.level := by
    rw [State.level, State.level, hidle]
    rfl
  refine ⟨hlevel ▸ h.pools, hlevel ▸ h.limit, hlevel ▸ h.unlimited, h.period, hrange, ?_, h.sane,
    h.noBug⟩
  intro oldPeriod oldRuntime hstored
  cases hstored
  exact h.sysctl

/-- Every step of `sched_rt_handler`: all CPUs get the new limit at once, and it is published
later without changing what they are entitled to. -/
theorem schedRtHandler_inv (h : Inv cfg s) : Inv cfg (schedRtHandler cfg s) := by
  unfold schedRtHandler
  cases hstep : s.handler with
  | idle => exact h
  | stored oldPeriod oldRuntime =>
    have hlevel : s.level = s.rtRuntime := by
      rw [State.level, hstep]
      rfl
    dsimp only
    cases hnew : schedRtGlobalConstraints cfg s with
    | none =>
      -- the old values are restored
      refine ⟨fun d => hlevel ▸ h.pools d, hlevel ▸ h.limit, fun hinf => h.unlimited (hlevel.trans hinf),
        h.period, h.old _ _ hstep, fun _ _ hidle => (nomatch hidle), h.sane, h.noBug⟩
    | some t =>
      unfold schedRtGlobalConstraints at hnew
      split at hnew
      · cases hnew
      split at hnew
      · cases hnew
      cases hnew
      have hlim := globalRtRuntime_limit h.sysctl
      have hgiven : ∀ c ∈ cfg.cpus, (if c ∈ cfg.cpus then
          { s.rq c with rtRuntime := globalRtRuntime s } else s.rq c).rtRuntime =
            globalRtRuntime s := fun c hc => by rw [if_pos hc]
      refine ⟨fun d => balanced_of_level hlim hgiven d, hlim, fun hinf c hc => (hgiven c hc).trans hinf,
        h.period, h.sysctl, fun _ _ hidle => (nomatch hidle), fun c => ?_, h.noBug⟩
      dsimp only
      split
      · exact (h.sane c).congr rfl rfl
      · exact h.sane c
  | constrained =>
    have hlevel : s.level = globalRtRuntime s := by
      rw [State.level, if_pos hstep]
    exact ⟨fun d => hlevel ▸ h.pools d, hlevel ▸ h.limit, fun hinf => h.unlimited (hlevel.trans hinf),
      h.period, h.sysctl, fun _ _ hidle => (nomatch hidle), h.sane, h.noBug⟩
  | limited =>
    have hlevel : s.level = s.rtRuntime := by
      rw [State.level, hstep]
      rfl
    exact ⟨fun d => hlevel ▸ h.pools d, hlevel ▸ h.limit, fun hinf => h.unlimited (hlevel.trans hinf),
      globalRtPeriod_range h.sysctl, h.sysctl, fun _ _ hidle => (nomatch hidle), h.sane, h.noBug⟩

end LinuxWrr.Bandwidth
