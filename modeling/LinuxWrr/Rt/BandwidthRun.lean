import LinuxWrr.Lib.Reach
import LinuxWrr.Rt.Runtime

/-!
# Runs of the bandwidth code

`Op` is what one CPU does to the bandwidth state while it holds the locks for it; a run is any
interleaving. The functions of `Rt/Bandwidth.lean` that drop a lock are runs themselves
(`updateCurrRt_reach`, `Pass.spec`).

Two things that the code allows are kept out of the runs, since runtime is lost or made there: a
CPU that is started afresh, or moved to another root domain, while it owes runtime or is owed some
(`Settled`), and one that comes or goes while the writer of a new limit is between its two stores
(`Published`).

- `runtime_reach`: **runtime is conserved in every root domain**, and no `BUG_ON` fires; only a
  settled CPU may be started afresh.
- `disableRuntime_bug_iff`: when the `BUG_ON` of `__disable_runtime` does fire, in any state.
- `periodTimer_stop`: the period timer stops only if it has left no CPU throttled.
-/

namespace LinuxWrr.Bandwidth

variable {cfg : Config} {s t : State} {c i : Cpu}

inductive Op where
  | charge (c : Cpu) (delta : Int)
  | borrow (c i : Cpu)
  | throttle (c : Cpu)
  | refill (c : Cpu) (overrun : Int)
  | resched (c : Cpu)
  | hotplug (c : Cpu) (action : CpuAction)
  | online (c : Cpu)
  | offline (c : Cpu)
  | attach (c : Cpu) (d : Nat) (active : Bool)
  /-- A write of the sysctls, and the next step of the writer. -/
  | sysctlStore (period runtime : Int)
  | sysctlStep
  /-- The rest of the scheduler changes what it owns of the run queue. -/
  | others (c : Cpu) (rtNrRunning : Nat) (currIdle : Bool) (skipClockUpdate : Int) (resched : Bool)
  /-- `scheduler_running = 1`. -/
  | start

def exec (cfg : Config) (s : State) : Op → State
  | .charge c delta => charge s c delta
  | .borrow c i => borrow cfg s c i
  | .throttle c => (throttle s c).1
  | .refill c overrun => refill s c overrun
  | .resched c => s.reschedCurr c
  | .hotplug c action => updateRuntime cfg s c action
  | .online c => setRqOnline s c
  | .offline c => setRqOffline cfg s c
  | .attach c d active => rqAttachRoot cfg s c d active
  | .sysctlStore period runtime => schedRtStore s period runtime
  | .sysctlStep => schedRtHandler cfg s
  | .others c rtNrRunning currIdle skipClockUpdate resched =>
    s.setRq c { s.rq c with rtNrRunning, currIdle, skipClockUpdate, resched }
  | .start => { s with schedulerRunning := true }

instance : Decidable (Settled s c) := inferInstanceAs (Decidable (_ ∨ _))

instance : Decidable (Published s) := inferInstanceAs (Decidable (_ = _))

instance (period runtime : Int) : Decidable (SysctlRange period runtime) :=
  decidable_of_iff (0 ≤ period ∧ period < 2 ^ 32 ∧ -2 ^ 31 ≤ runtime ∧ runtime < 2 ^ 31)
    ⟨fun h => ⟨h.1, h.2.1, h.2.2.1, h.2.2.2⟩,
      fun h => ⟨h.period_nonneg, h.period_lt, h.runtime_ge, h.runtime_lt⟩⟩

/-- When an operation may be issued. The clock of a run queue stays below 2^63 ns, a CPU borrows
only where `balance_runtime` calls for it, and one writer at a time is in `sched_rt_handler`: so
much the code sees to. It does not see to the rest: `__enable_runtime` does not ask whether a CPU
is settled, nor does anything keep a CPU from coming or going while a limit is not published. -/
def Op.Ok (cfg : Config) (s : State) : Op → Prop
  | .charge c delta => 0 ≤ delta ∧ (s.rq c).rtTime + delta < 2 ^ 63
  | .borrow c i => c ∈ cfg.cpus ∧ i ∈ cfg.cpus ∧ i ≠ c ∧ (s.rq i).rd = (s.rq c).rd ∧
      (s.rq c).rtRuntime ≠ runtimeInf
  | .throttle c => c ∈ cfg.cpus ∧ (s.rq c).rtThrottled = false
  | .refill c _ => c ∈ cfg.cpus
  | .resched _ | .others _ _ _ _ _ | .start => True
  | .hotplug c action => c ∈ cfg.cpus ∧ Published s ∧
      (action = .downFailed ∨ action = .online → Settled s c)
  | .online c => c ∈ cfg.cpus ∧ Published s ∧ ((s.rq c).online = false → Settled s c)
  | .offline c => c ∈ cfg.cpus ∧ Published s
  | .attach c _ _ => c ∈ cfg.cpus ∧ Published s ∧
      ((s.rq c).online = true ∧ s.schedulerRunning = true ∨ Settled s c)
  | .sysctlStore period runtime => s.handler = .idle ∧ SysctlRange period runtime
  | .sysctlStep => True

instance Op.decidableOk (cfg : Config) (s : State) : (op : Op) → Decidable (op.Ok cfg s)
  | .charge _ _ | .borrow _ _ | .throttle _ | .hotplug _ _ | .online _ | .offline _ | .attach _ _ _
  | .sysctlStore _ _ => inferInstanceAs (Decidable (_ ∧ _))
  | .refill _ _ => inferInstanceAs (Decidable (_ ∈ _))
  | .resched _ | .others _ _ _ _ _ | .start | .sysctlStep => inferInstanceAs (Decidable True)

theorem exec_inv (h : Inv cfg s) (op : Op) (hok : op.Ok cfg s) : Inv cfg (exec cfg s op) := by
  cases op with
  | charge c delta => exact charge_inv h hok.1 hok.2
  | borrow c i => exact borrow_inv h ⟨hok.1, hok.2.1, hok.2.2.1, hok.2.2.2.1, hok.2.2.2.2⟩
  | throttle c => exact throttle_inv h hok.1 hok.2
  | refill c overrun => exact refill_inv h hok overrun
  | resched c => exact setRq_inv h rfl rfl ((h.sane c).congr rfl rfl)
  | hotplug c action =>
    cases action with
    | downPrepare => exact disableRuntime_inv h hok.2.1 hok.1
    | downFailed => exact enableRuntime_inv h hok.2.1 hok.1 (hok.2.2 (.inl rfl))
    | online => exact enableRuntime_inv h hok.2.1 hok.1 (hok.2.2 (.inr rfl))
    | other => exact h
  | online c => exact setRqOnline_inv h hok.2.1 hok.1 hok.2.2
  | offline c => exact setRqOffline_inv h hok.2 hok.1
  | attach c d active => exact rqAttachRoot_inv h hok.2.1 hok.1 hok.2.2 active
  | sysctlStore period runtime => exact schedRtStore_inv h hok.1 hok.2
  | sysctlStep => exact schedRtHandler_inv h
  | others c nr idle skip resched => exact setRq_inv h rfl rfl ((h.sane c).congr rfl rfl)
  | start => exact ⟨h.pools, h.limit, h.unlimited, h.period, h.sysctl, h.old, h.sane, h.noBug⟩

/-- What `sched_init` sets up. -/
structure Boot (cfg : Config) (s : State) : Prop where
  limit : Limit s.rtRuntime
  period : 0 ≤ s.rtPeriod ∧ s.rtPeriod < 2 ^ 42
  sysctl : SysctlRange s.sysctlRtPeriod s.sysctlRtRuntime
  handler : s.handler = .idle
  runtime : ∀ c ∈ cfg.cpus, (s.rq c).rtRuntime = s.rtRuntime
  time : ∀ c, (s.rq c).rtTime = 0 ∧ (s.rq c).rtThrottled = false
  noBug : s.bug = false

theorem Boot.inv (h : Boot cfg s) : Inv cfg s := by
  have hlevel : s.level = s.rtRuntime := by
    rw [State.level, h.handler]
    rfl
  refine ⟨fun d => ?_, hlevel ▸ h.limit, fun hinf c hc => ?_, h.period, h.sysctl, ?_,
    fun c => .zero (h.time c).1 (h.time c).2, h.noBug⟩
  · rw [hlevel]
    exact balanced_of_level h.limit h.runtime d
  · exact (h.runtime c hc).trans (hlevel.symm.trans hinf)
  · intro period runtime hstored
    rw [h.handler] at hstored
    cases hstored

/-- The state after `sched_init`, with the sysctls as they are initialised. -/
def schedInit : State where
  rq _ :=
    { rtTime := 0
      rtRuntime := 950000 * 1000
      rtThrottled := false
      rtNrRunning := 0
      currIdle := false
      skipClockUpdate := 0
      resched := false
      online := false
      rd := 0 }
  rtPeriod := 1000000 * 1000
  rtRuntime := 950000 * 1000
  sysctlRtPeriod := 1000000
  sysctlRtRuntime := 950000
  handler := .idle
  schedulerRunning := false
  bug := false

/-- What `sched_init` sets up is such a boot state. -/
theorem schedInit_boot : Boot cfg schedInit where
  limit := .inr (by decide)
  period := by decide
  sysctl := by decide
  handler := rfl
  runtime _ _ := rfl
  time _ := ⟨rfl, rfl⟩
  noBug := rfl

/-- A run keeps the invariant. -/
theorem run_inv (hs : Inv cfg s) (h : Reach (Op.Ok cfg) (exec cfg) s t) : Inv cfg t :=
  h.invariant (fun _ op hs hok => exec_inv hs op hok) hs

/-! ## The functions are runs -/

theorem run_single (op : Op) (hok : op.Ok cfg s) :
    Reach (Op.Ok cfg) (exec cfg) s (exec cfg s op) := Reach.single hok

theorem run_tail (h : Reach (Op.Ok cfg) (exec cfg) s t) (op : Op) (hok : op.Ok cfg t) :
    Reach (Op.Ok cfg) (exec cfg) s (exec cfg t op) := h.tail hok

/-- A turn of `do_balance_runtime` leaves everything but two runtimes alone. -/
theorem borrow_frame (hne : i ≠ c) (k : Cpu) :
    ((borrow cfg s c i).rq k).rd = (s.rq k).rd ∧
      ((borrow cfg s c i).rq k).rtTime = (s.rq k).rtTime ∧
      ((borrow cfg s c i).rq k).rtThrottled = (s.rq k).rtThrottled ∧
      ((borrow cfg s c i).rq k).rtNrRunning = (s.rq k).rtNrRunning := by
  unfold borrow
  split
  · exact ⟨rfl, rfl, rfl, rfl⟩
  · rename_i rt iter htake
    unfold takeSpare at htake
    split at htake
    · cases htake
    dsimp only at htake
    split at htake
    · cases htake
      by_cases hkc : k = c
      · subst hkc
        rw [setRq_self]
        exact ⟨rfl, rfl, rfl, rfl⟩
      · rw [setRq_other hkc]
        by_cases hki : k = i
        · subst hki
          rw [setRq_self]
          exact ⟨rfl, rfl, rfl, rfl⟩
        · rw [setRq_other hki]
          exact ⟨rfl, rfl, rfl, rfl⟩
    · cases htake

/-- A borrower takes part before and after. -/
theorem borrow_takesPart (h : Inv cfg s) (hci : CanBorrow cfg s c i) :
    ((borrow cfg s c i).rq c).rtRuntime ≠ runtimeInf := by
  obtain heq | ⟨hin, diff, hdiff, hnn, heq⟩ := borrow_cases h hci
  · rw [heq]
    exact hci.takesPart
  · have hb := h.bounds hci.borrower hci.takesPart
    have hbi := h.bounds hci.lender hin
    have htime := (h.sane i).nonneg
    rw [heq, setRuntime_self]
    unfold runtimeInf
    omega

/-- Nothing of a run queue changes that the timer and the throttling look at, but the runtime. -/
structure SameTime (s t : State) : Prop where
  time : ∀ k, (t.rq k).rtTime = (s.rq k).rtTime
  throttled : ∀ k, (t.rq k).rtThrottled = (s.rq k).rtThrottled
  nrRunning : ∀ k, (t.rq k).rtNrRunning = (s.rq k).rtNrRunning

theorem SameTime.refl (s : State) : SameTime s s := ⟨fun _ => rfl, fun _ => rfl, fun _ => rfl⟩

theorem SameTime.trans {u : State} (h : SameTime s t) (h' : SameTime t u) : SameTime s u where
  time k := (h'.time k).trans (h.time k)
  throttled k := (h'.throttled k).trans (h.throttled k)
  nrRunning k := (h'.nrRunning k).trans (h.nrRunning k)

/-- The loop of `do_balance_runtime` is a run, in which only runtimes change. -/
theorem balanceLoop_reach (h : Inv cfg s) (hc : c ∈ cfg.cpus)
    (hin : (s.rq c).rtRuntime ≠ runtimeInf) {is : List Cpu}
    (his : ∀ i ∈ is, i ∈ cfg.cpus ∧ (s.rq i).rd = (s.rq c).rd) :
    Reach (Op.Ok cfg) (exec cfg) s (balanceLoop cfg s c is).1 ∧
      SameTime s (balanceLoop cfg s c is).1 := by
  induction is generalizing s with
  | nil => exact ⟨Reach.refl s, SameTime.refl s⟩
  | cons i is ih =>
    have hrest := fun k hk => his k (List.mem_cons_of_mem i hk)
    unfold balanceLoop
    split
    · exact ih h hin hrest
    · rename_i hne
      have hci : CanBorrow cfg s c i :=
        ⟨hc, (his i List.mem_cons_self).1, hne, (his i List.mem_cons_self).2, hin⟩
      have hstep : Reach (Op.Ok cfg) (exec cfg) s (borrow cfg s c i) :=
        run_single (.borrow c i) ⟨hci.borrower, hci.lender, hci.ne, hci.domain, hci.takesPart⟩
      have hframe := @borrow_frame cfg s c i hne
      have hsame : SameTime s (borrow cfg s c i) :=
        ⟨fun k => (hframe k).2.1, fun k => (hframe k).2.2.1, fun k => (hframe k).2.2.2⟩
      split
      · exact ih h hin hrest
      · split
        · exact ⟨hstep, hsame⟩
        · have hnext := ih (borrow_inv h hci) (borrow_takesPart h hci) fun k hk => by
            rw [(hframe k).1, (hframe c).1]
            exact hrest k hk
          exact ⟨hstep.trans hnext.1, hsame.trans hnext.2⟩

/-- Balancing is itself a run, and it moves no clock. -/
theorem balanceRuntime_reach (h : Inv cfg s) (hc : c ∈ cfg.cpus) :
    Reach (Op.Ok cfg) (exec cfg) s (balanceRuntime cfg s c).1 ∧
      SameTime s (balanceRuntime cfg s c).1 := by
  unfold balanceRuntime
  split
  · exact ⟨Reach.refl s, SameTime.refl s⟩
  split
  · rename_i hlt
    have htime := (h.sane c).lt
    have hin : (s.rq c).rtRuntime ≠ runtimeInf := by
      unfold runtimeInf
      omega
    exact balanceLoop_reach h hc hin fun i hi => mem_span.mp hi
  · exact ⟨Reach.refl s, SameTime.refl s⟩

/-- The bandwidth part of `update_curr_rt` is a run. -/
theorem updateCurrRt_reach (h : Inv cfg s) (hc : c ∈ cfg.cpus) {delta : Int}
    (hok : (Op.charge c delta).Ok cfg s) :
    Reach (Op.Ok cfg) (exec cfg) s (updateCurrRt cfg s c delta) := by
  unfold updateCurrRt
  split
  · exact Reach.refl s
  split
  · exact Reach.refl s
  have hcharge : Reach (Op.Ok cfg) (exec cfg) s (charge s c delta) := run_single _ hok
  have hexceeded : Reach (Op.Ok cfg) (exec cfg) s
      (schedRtRuntimeExceeded cfg (charge s c delta) c).1 := by
    unfold schedRtRuntimeExceeded
    split
    · exact hcharge
    split
    · exact hcharge
    rename_i hnot _
    obtain ⟨hbalance, hsame⟩ := balanceRuntime_reach (run_inv h hcharge) hc
    refine run_tail (hcharge.trans hbalance) (.throttle c) ⟨hc, ?_⟩
    rw [hsame.throttled]
    simpa using hnot
  dsimp only
  split
  · exact run_tail hexceeded (.resched c) trivial
  · exact hexceeded

/-- The first half of a turn of the period timer is a run, in which only runtimes change. -/
theorem periodTimerBalance_reach (h : Inv cfg s) (hc : c ∈ cfg.cpus) :
    Reach (Op.Ok cfg) (exec cfg) s (periodTimerBalance cfg s c) ∧
      SameTime s (periodTimerBalance cfg s c) := by
  unfold periodTimerBalance
  split
  · exact balanceRuntime_reach h hc
  · exact ⟨Reach.refl s, SameTime.refl s⟩

/-- The second half is a run too, and leaves the other CPUs alone. -/
theorem periodTimerRefill_reach (s : State) (hc : c ∈ cfg.cpus) (overrun : Int) (scan : Scan) :
    Reach (Op.Ok cfg) (exec cfg) s (periodTimerRefill s c overrun scan).1 ∧
      ∀ k, k ≠ c → (periodTimerRefill s c overrun scan).1.rq k = s.rq k := by
  unfold periodTimerRefill
  dsimp only
  split
  · refine ⟨run_single (.refill c overrun) hc, fun k hk => ?_⟩
    show (refill s c overrun).rq k = _
    rw [refill, setRq_other hk]
  · split
    · split
      · exact ⟨Reach.refl s, fun _ _ => rfl⟩
      · exact ⟨run_single (.resched c) trivial, fun k hk => setRq_other hk⟩
    · exact ⟨Reach.refl s, fun _ _ => rfl⟩

/-- What the timer reports is true of the CPUs it has looked after, each in the state in which it
has left it. -/
structure ScanOk (scan : Scan) (left : List (Cpu × State)) : Prop where
  idle : scan.idle = true → ∀ l ∈ left, (l.2.rq l.1).rtTime = 0 ∧ (l.2.rq l.1).rtNrRunning = 0
  throttled : scan.throttled = false → ∀ l ∈ left, (l.2.rq l.1).rtThrottled = false

/-- A pass of the timer over CPUs, from one state and scan to another. The timer holds no lock
before a turn and after the last, and only `rq->lock` when `balance_runtime` is done: there other
CPUs do anything. The list says in which state it has left each CPU. -/
inductive Pass (cfg : Config) (overrun : Int) : State → Scan → List (Cpu × State) → State → Scan → Prop where
  | done {s t : State} {scan : Scan} (h : Reach (Op.Ok cfg) (exec cfg) s t) :
    Pass cfg overrun s scan [] t scan
  | turn {s u v t : State} {c : Cpu} {scan scan' : Scan} {left : List (Cpu × State)}
    (hc : c ∈ cfg.cpus) (hbefore : Reach (Op.Ok cfg) (exec cfg) s u)
    (hwithin : Reach (Op.Ok cfg) (exec cfg) (periodTimerBalance cfg u c) v)
    (hrest : Pass cfg overrun (periodTimerRefill v c overrun scan).1
      (periodTimerRefill v c overrun scan).2 left t scan') :
    Pass cfg overrun s scan ((c, (periodTimerRefill v c overrun scan).1) :: left) t scan'

/-- A turn reports the CPU as it leaves it, and keeps what was reported before. -/
theorem periodTimerRefill_scan (s : State) (c : Cpu) (overrun : Int) (scan : Scan) :
    ((periodTimerRefill s c overrun scan).2.idle = true → scan.idle = true ∧
      ((periodTimerRefill s c overrun scan).1.rq c).rtTime = 0 ∧
      ((periodTimerRefill s c overrun scan).1.rq c).rtNrRunning = 0) ∧
    ((periodTimerRefill s c overrun scan).2.throttled = false → scan.throttled = false ∧
      ((periodTimerRefill s c overrun scan).1.rq c).rtThrottled = false) := by
  refine ⟨fun hidle => ?_, fun hthrottled => ?_⟩
  · unfold periodTimerRefill at hidle ⊢
    dsimp only at hidle ⊢
    split at hidle
    · rename_i htime
      rw [if_pos htime]
      simpa using hidle
    · rename_i htime
      rw [if_neg htime]
      split at hidle
      · cases hidle
      · rename_i hnr
        rw [if_neg hnr]
        exact ⟨hidle, not_not.mp htime, not_not.mp hnr⟩
  · exact Bool.or_eq_false_iff.mp hthrottled

/-- A pass is a run, and what it reports is true of every CPU as the timer has left it. -/
theorem Pass.spec {overrun : Int} {scan scan' : Scan} {left : List (Cpu × State)}
    (hpass : Pass cfg overrun s scan left t scan') (h : Inv cfg s) :
    Reach (Op.Ok cfg) (exec cfg) s t ∧ (∀ l ∈ left, Inv cfg l.2) ∧ ScanOk scan' left ∧
      (scan'.idle = true → scan.idle = true) ∧ (scan'.throttled = false → scan.throttled = false) := by
  induction hpass with
  | done hothers =>
    exact ⟨hothers, fun _ hl => absurd hl List.not_mem_nil, ⟨fun _ _ hl => absurd hl List.not_mem_nil,
      fun _ _ hl => absurd hl List.not_mem_nil⟩, id, id⟩
  | @turn s u v t c scan scan' left hc hbefore hwithin _ ih =>
    obtain ⟨hbalance, -⟩ := periodTimerBalance_reach (run_inv h hbefore) hc
    have hv := (hbefore.trans hbalance).trans hwithin
    have hturn := hv.trans (periodTimerRefill_reach v hc overrun scan).1
    have hnext := run_inv h hturn
    obtain ⟨hidle, hthrottled⟩ := periodTimerRefill_scan v c overrun scan
    obtain ⟨hrest, hinv, hscan, hkeepIdle, hkeepThrottled⟩ := ih hnext
    refine ⟨hturn.trans hrest, fun l hl => ?_, ⟨fun hi l hl => ?_, fun ht l hl => ?_⟩,
      fun hi => (hidle (hkeepIdle hi)).1, fun ht => (hthrottled (hkeepThrottled ht)).1⟩
    · rcases List.mem_cons.mp hl with rfl | hl
      · exact hnext
      · exact hinv l hl
    · rcases List.mem_cons.mp hl with rfl | hl
      · exact (hidle (hkeepIdle hi)).2
      · exact hscan.idle hi l hl
    · rcases List.mem_cons.mp hl with rfl | hl
      · exact (hthrottled (hkeepThrottled ht)).2
      · exact hscan.throttled ht l hl

/-- Nothing of the CPU changes any more that the timer asks of it. -/
def Untouched (t : State) (l : Cpu × State) : Prop :=
  (t.rq l.1).rtTime = (l.2.rq l.1).rtTime ∧ (t.rq l.1).rtThrottled = (l.2.rq l.1).rtThrottled ∧
    (t.rq l.1).rtNrRunning = (l.2.rq l.1).rtNrRunning

/-- A CPU that is untouched since a turn about another CPU was untouched during that turn too. -/
theorem Untouched.before_turn {u v : State} {k : Cpu} (h : Untouched t (k, u)) (hk : u.rq k = v.rq k)
    (hsame : SameTime s v) : Untouched t (k, s) := by
  obtain ⟨htime, hthrottled, hnr⟩ := h
  refine ⟨htime.trans ?_, hthrottled.trans ?_, hnr.trans ?_⟩
  · exact (congrArg RtRq.rtTime hk).trans (hsame.time k)
  · exact (congrArg RtRq.rtThrottled hk).trans (hsame.throttled k)
  · exact (congrArg RtRq.rtNrRunning hk).trans (hsame.nrRunning k)

/-- `do_sched_rt_period_timer` without interruption is a pass, at whose end every CPU is as the
timer has left it. -/
theorem doSchedRtPeriodTimer_pass (h : Inv cfg s) (overrun : Int) {mask : List Cpu}
    (hmask : ∀ c ∈ mask, c ∈ cfg.cpus) (hnodup : mask.Nodup) :
    ∃ left scan, Pass cfg overrun s ⟨true, false⟩ left (doSchedRtPeriodTimer cfg s mask overrun).1 scan ∧
      (doSchedRtPeriodTimer cfg s mask overrun).2 =
        timerStops (doSchedRtPeriodTimer cfg s mask overrun).1 scan ∧
      left.map Prod.fst = mask ∧
      ∀ l ∈ left, Untouched (doSchedRtPeriodTimer cfg s mask overrun).1 l := by
  unfold doSchedRtPeriodTimer
  dsimp only
  generalize hr : mask.foldl (fun r c => periodTimerOn cfg r.1 c overrun r.2) (s, ⟨true, false⟩) = r
  suffices hgoal : ∃ left, Pass cfg overrun s ⟨true, false⟩ left r.1 r.2 ∧ left.map Prod.fst = mask ∧
      (∀ l ∈ left, Untouched r.1 l) ∧ ∀ k, k ∉ mask → Untouched r.1 (k, s) by
    obtain ⟨left, hpass, hmap, huntouched, -⟩ := hgoal
    exact ⟨left, r.2, hpass, rfl, hmap, huntouched⟩
  -- turn by turn, from the front
  generalize (⟨true, false⟩ : Scan) = scan at hr ⊢
  induction mask generalizing s scan with
  | nil =>
    subst hr
    exact ⟨[], .done (Reach.refl s), rfl, fun _ hl => absurd hl List.not_mem_nil,
      fun k _ => ⟨rfl, rfl, rfl⟩⟩
  | cons c mask ih =>
    rw [List.foldl_cons] at hr
    have hc := hmask c List.mem_cons_self
    obtain ⟨hcmask, hnodup'⟩ := List.nodup_cons.mp hnodup
    obtain ⟨hbalance, hsame⟩ := periodTimerBalance_reach h hc
    obtain ⟨hrefill, hframe⟩ := periodTimerRefill_reach (periodTimerBalance cfg s c) hc overrun scan
    obtain ⟨left, hpass, hmap, huntouched, hothers⟩ := ih (run_inv h (hbalance.trans hrefill))
      (fun k hk => hmask k (List.mem_cons_of_mem c hk)) hnodup' _ hr
    refine ⟨_ :: left, .turn hc (Reach.refl s) (Reach.refl _) hpass, congrArg (c :: ·) hmap,
      fun l hl => ?_, fun k hk => ?_⟩
    · rcases List.mem_cons.mp hl with rfl | hl
      · exact hothers c hcmask
      · exact huntouched l hl
    · obtain ⟨hkc, hkmask⟩ := not_or.mp (mt List.mem_cons.mpr hk)
      exact (hothers k hkmask).before_turn (hframe k hkc) hsame

/-! ## Results -/

/-- **Runtime is conserved**: in every interleaving that keeps to `Op.Ok`, the CPUs of a root domain
that take part hold together as many limits as they are, and no `BUG_ON` has fired. Starting a
CPU afresh keeps it so if and only if the CPU is settled. -/
theorem runtime_reach (hs : Boot cfg s) (h : Reach (Op.Ok cfg) (exec cfg) s t) :
    (∀ d, t.Conserved cfg d) ∧ t.bug = false ∧
      ∀ c ∈ cfg.cpus, Published t → t.schedulerRunning = true →
        ((enableRuntime t c).Conserved cfg (t.rq c).rd ↔ Settled t c) := by
  have hinv := run_inv hs.inv h
  exact ⟨hinv.conserved, hinv.noBug, fun c hc hpub hrun => enableRuntime_conserved_iff hinv hpub hrun hc⟩

/-- Two CPUs. -/
def twoCpus : Config where
  cpus := [0, 1]
  rtRuntimeShare := true
  nodup := by decide
  nrCpus := by decide

theorem run_of_test {ops : List Op}
    (hrun : Reach.runTest (fun s op => decide (op.Ok twoCpus s)) (exec twoCpus) schedInit ops = true) :
    Reach (Op.Ok twoCpus) (exec twoCpus) schedInit (ops.foldl (exec twoCpus) schedInit) :=
  Reach.of_runTest (I := fun _ => True) (fun _ _ _ _ => trivial)
    (fun _ _ _ h => of_decide_eq_true h) trivial hrun

/-- CPU 0 runs out and borrows from CPU 1. -/
def borrowing : List Op :=
  [.start, .online 0, .online 1, .charge 0 960000000, .borrow 0 1, .throttle 0]

/-- The limit is halved. Before the new one is published CPU 0 runs out and borrows from CPU 1, and
afterwards it is brought down. -/
def halved : List Op :=
  [.start, .online 0, .online 1, .sysctlStore 1000000 475000, .sysctlStep, .charge 0 480000000,
    .borrow 0 1, .throttle 0, .sysctlStep, .sysctlStep]

def lent : State := halved.foldl (exec twoCpus) schedInit

theorem lent_reach : Reach (Op.Ok twoCpus) (exec twoCpus) schedInit lent :=
  run_of_test (by decide +kernel)

def repaid : State := exec twoCpus lent (.hotplug 0 .downPrepare)

theorem repaid_reach : Reach (Op.Ok twoCpus) (exec twoCpus) schedInit repaid :=
  run_tail lent_reach (.hotplug 0 .downPrepare) (by decide +kernel)

theorem runtime_reach_repaid :
    ((lent.rq 0).rtRuntime = 712500000 ∧ (lent.rq 1).rtRuntime = 237500000 ∧
        lent.level = 475000000 ∧ lent.Conserved twoCpus 0 ∧ ¬(enableRuntime lent 1).Conserved twoCpus 0) ∧
      (repaid.rq 0).rtRuntime = runtimeInf ∧ (repaid.rq 1).rtRuntime = 475000000 ∧
        repaid.Conserved twoCpus 0 ∧ repaid.bug = false := by
  obtain ⟨hlent, -, honly⟩ := runtime_reach schedInit_boot lent_reach
  obtain ⟨hrepaid, hquiet, -⟩ := runtime_reach schedInit_boot repaid_reach
  have hunsettled : ¬Settled lent 1 := by decide +kernel
  have hrd : (lent.rq 1).rd = 0 := by decide +kernel
  refine ⟨⟨by decide +kernel, by decide +kernel, by decide +kernel, hlent 0, fun hkept => ?_⟩,
    by decide +kernel, by decide +kernel, hrepaid 0, hquiet⟩
  exact hunsettled ((honly 1 (by decide) (by decide +kernel) (by decide +kernel)).mp (hrd ▸ hkept))

/-- When the `BUG_ON` of `__disable_runtime` fires, in any state in which the scheduler is running
and whose numbers do not wrap: the CPU takes part, and its root domain holds together less than one
limit, or the CPU is left alone with more than the limit. -/
theorem disableRuntime_bug_iff (hrun : s.schedulerRunning = true) (hbug : s.bug = false)
    (hc : c ∈ cfg.cpus) (hnn : ∀ k ∈ (s.pool cfg (s.rq c).rd).members, 0 ≤ (s.rq k).rtRuntime)
    (htotal : (s.pool cfg (s.rq c).rd).total < 2 ^ 62)
    (hlimit : 0 ≤ s.rtRuntime ∧ s.rtRuntime < 2 ^ 42) :
    (disableRuntime cfg s c).bug = true ↔ (s.rq c).rtRuntime ≠ runtimeInf ∧
      ((s.pool cfg (s.rq c).rd).total < s.rtRuntime ∨
        s.rtRuntime < (s.rq c).rtRuntime ∧ (s.pool cfg (s.rq c).rd).members = {c}) := by
  by_cases hin : (s.rq c).rtRuntime = runtimeInf
  · rw [disableRuntime, if_neg (not_not.mpr hrun), if_pos (.inl hin)]
    simp [State.setRuntime, hbug, hin]
  have hmem : c ∈ (s.pool cfg (s.rq c).rd).members := mem_pool.mpr ⟨hc, rfl, hin⟩
  by_cases hne : (s.rq c).rtRuntime = s.rtRuntime
  · have hle : (s.rq c).rtRuntime ≤ (s.pool cfg (s.rq c).rd).total :=
      Finset.single_le_sum hnn hmem
    rw [disableRuntime, if_neg (not_not.mpr hrun), if_pos (.inr hne)]
    constructor
    · intro hfired
      rw [State.setRuntime, setRq_bug, hbug] at hfired
      cases hfired
    · rintro ⟨-, hlt | ⟨hlt, -⟩⟩ <;> omega
  · obtain ⟨t, want, hrepaid, hend, heq⟩ := disableRuntime_eq hrun hmem hne hnn htotal hlimit
    have hall : ∀ i ∈ (s.pool cfg (s.rq c).rd).members, i ∈ s.span cfg (s.rq c).rd := fun i hi => by
      rw [mem_pool] at hi
      exact mem_span.mpr ⟨hi.1, hi.2.1⟩
    have hheld : (s.pool cfg (s.rq c).rd).held c = (s.rq c).rtRuntime := rfl
    have hwant := hend.want
    have htbug : t.bug = false := by
      rw [hrepaid.rest]
      exact hbug
    have hfired : (disableRuntime cfg s c).bug = true ↔ want ≠ 0 := by
      rw [heq, State.setRuntime, setRq_bug]
      simp [htbug]
    rw [hrepaid.limit] at hwant
    -- nothing is wanted any more exactly when the pool settles
    have hzero : want = 0 ↔ ((s.pool cfg (s.rq c).rd).settle s.rtRuntime c
        (s.span cfg (s.rq c).rd)).held c = s.rtRuntime := by omega
    rw [hfired, ne_eq, hzero, Pool.settle_held_iff hnn hlimit.1 hmem hall, Pool.total_leave hmem,
      hheld, not_and_or, not_le, Classical.not_imp, not_not]
    exact (and_iff_right hin).symm

/-- `CPU_ONLINE` reaches a CPU twice, through `migration_call` and through `update_runtime`. Here
CPU 0 borrows from CPU 1 in between: the second time CPU 1 starts afresh without being settled,
and what CPU 0 has is never asked back. When CPU 1 has gone, so can nobody. -/
def onlineTwice : State :=
  (borrowing ++ [Op.hotplug 1 .online, Op.hotplug 1 .downPrepare]).foldl (exec twoCpus) schedInit

theorem disableRuntime_bug_onlineTwice : (disableRuntime twoCpus onlineTwice 0).bug = true :=
  (disableRuntime_bug_iff (by decide +kernel) (by decide +kernel) (by decide +kernel)
    (by decide +kernel) (by decide +kernel) (by decide +kernel)).mpr
    ⟨by decide +kernel, .inr (by decide +kernel)⟩

/-- A CPU that needs no timer: it is not throttled and, where RT bandwidth is limited, it has no
time to work off and nothing to run. -/
def NoNeed (limited : Prop) (s : State) (c : Cpu) : Prop :=
  (s.rq c).rtThrottled = false ∧
    (limited → (s.rq c).rtTime = 0 ∧ (s.rq c).rtNrRunning = 0)

/-- RT bandwidth is limited. -/
def Limited (s : State) : Prop := rtBandwidthEnabled s = true ∧ s.rtRuntime ≠ runtimeInf

instance : Decidable (Limited s) := inferInstanceAs (Decidable (_ ∧ _))

/-- What a pass says that lets the timer stop. -/
theorem Pass.stop {overrun : Int} {scan scan' : Scan} {left : List (Cpu × State)}
    (hpass : Pass cfg overrun s scan left t scan') (h : Inv cfg s) (hstop : timerStops t scan' = true)
    {l : Cpu × State} (hl : l ∈ left) : NoNeed (Limited t) l.2 l.1 := by
  obtain ⟨-, hinv, hscan, -, -⟩ := hpass.spec h
  unfold timerStops at hstop
  split at hstop
  · rename_i hoff
    obtain ⟨hthrottled, hnone⟩ := Bool.and_eq_true_iff.mp hoff
    refine ⟨hscan.throttled (by simpa using hthrottled) l hl, fun ⟨hon, hlim⟩ => ?_⟩
    rw [hon] at hnone
    simp [hlim] at hnone
  · obtain ⟨htime, hnr⟩ := hscan.idle hstop l hl
    refine ⟨?_, fun _ => ⟨htime, hnr⟩⟩
    by_contra hthrottled
    have hpos := ((hinv l hl).sane l.1).throttled (by simpa using hthrottled)
    omega

/-- **The period timer stops only where it is not needed**: whatever other CPUs do where it drops
its locks, every CPU that it has looked after was left in need of no timer. Without interruption
this still holds of all of them when the pass ends. -/
theorem periodTimer_stop (hs : Boot cfg s) (h : Reach (Op.Ok cfg) (exec cfg) s t) (overrun : Int) :
    (∀ left u scan, Pass cfg overrun t ⟨true, false⟩ left u scan → timerStops u scan = true →
      ∀ l ∈ left, NoNeed (Limited u) l.2 l.1) ∧
    ∀ mask, (∀ c ∈ mask, c ∈ cfg.cpus) → mask.Nodup →
      (doSchedRtPeriodTimer cfg t mask overrun).2 = true → ∀ c ∈ mask,
        NoNeed (Limited (doSchedRtPeriodTimer cfg t mask overrun).1)
          (doSchedRtPeriodTimer cfg t mask overrun).1 c := by
  have hinv := run_inv hs.inv h
  refine ⟨fun left u scan hpass hstop l hl => hpass.stop hinv hstop hl,
    fun mask hmask hnodup hstop c hc => ?_⟩
  obtain ⟨left, scan, hpass, hresult, hmap, huntouched⟩ := doSchedRtPeriodTimer_pass hinv overrun hmask hnodup
  rw [← hmap] at hc
  obtain ⟨l, hl, rfl⟩ := List.mem_map.mp hc
  rw [hresult] at hstop
  obtain ⟨hthrottled, hleft⟩ := hpass.stop hinv hstop hl
  obtain ⟨htime, hthrottled', hnr⟩ := huntouched l hl
  exact ⟨hthrottled'.trans hthrottled, fun hlimited =>
    ⟨htime.trans (hleft hlimited).1, hnr.trans (hleft hlimited).2⟩⟩

/-- CPU 0 has run for a tenth of a second and is idle again. -/
def workedOff : State :=
  [Op.start, Op.online 0, Op.charge 0 100000000].foldl (exec twoCpus) schedInit

theorem workedOff_reach : Reach (Op.Ok twoCpus) (exec twoCpus) schedInit workedOff :=
  run_of_test (by decide +kernel)

/-- The timer takes the tenth off CPU 0. Then a task is queued there, and CPU 1 has its turn. -/
def passed : State :=
  (periodTimerOn twoCpus
    (exec twoCpus (periodTimerOn twoCpus workedOff 0 1 ⟨true, false⟩).1 (.others 0 1 false 0 false))
    1 1 (periodTimerOn twoCpus workedOff 0 1 ⟨true, false⟩).2).1

/-- It stops, and had left CPU 0 with nothing to run. -/
theorem periodTimer_stop_workedOff :
    (Limited passed ∧ NoNeed (Limited passed) (periodTimerOn twoCpus workedOff 0 1 ⟨true, false⟩).1 0 ∧
      (passed.rq 0).rtNrRunning = 1) ∧
    ((doSchedRtPeriodTimer twoCpus workedOff [0, 1] 1).1.rq 0).rtTime = 0 ∧
      NoNeed (Limited (doSchedRtPeriodTimer twoCpus workedOff [0, 1] 1).1)
        (doSchedRtPeriodTimer twoCpus workedOff [0, 1] 1).1 0 := by
  obtain ⟨hpasses, hwhole⟩ := periodTimer_stop schedInit_boot workedOff_reach 1
  refine ⟨⟨by decide +kernel, ?_, by decide +kernel⟩, by decide +kernel, ?_⟩
  · exact hpasses _ passed _ (.turn (by decide) (Reach.refl workedOff) (Reach.refl _)
      (.turn (by decide) (run_single (.others 0 1 false 0 false) trivial) (Reach.refl _)
        (.done (Reach.refl _))))
      (by decide +kernel) (0, _) List.mem_cons_self
  · exact hwhole [0, 1] (by decide) (by decide) (by decide +kernel) 0 (by decide)

end LinuxWrr.Bandwidth
