import LinuxWrr.Lib.Word
import LinuxWrr.Sched.Types

/-!
# Real-time bandwidth

The part of `rt.c` that limits how long real-time tasks may run, with RT group scheduling off:
every CPU may use `rt_runtime` nanoseconds of each period, a CPU that runs out borrows from its
root domain, and one that goes away takes back what it lent. From `core.c`: what brings a run
queue on and off line, and the sysctl that sets the limits.

- `doBalanceRuntime`, `disableRuntime`, `enableRuntime`: borrowing, settling, starting afresh.
- `updateCurrRt`, `doSchedRtPeriodTimer`: charging and throttling, refilling and unthrottling.
- `setRqOnline`, `setRqOffline`, `rqAttachRoot`: what brings them about.
- `schedRtHandler`: a write of the limit, step by step.

The functions that drop a lock in the middle are cut there (`borrow`, `throttle`, `refill`, the
steps of `sched_rt_handler`), so that other CPUs may run in between. `rd->span` is the set of CPUs
whose `rq->rd` is `rd`: the two are only ever written together, as are `rq->online` and the bit in
`rd->online`.
-/

namespace LinuxWrr.Bandwidth

/-- The value of a `u64` after `x` is stored. -/
def u64 (x : Int) : Int := Word.unsigned 64 x

/-- The value of an `s64` after `x` is stored. -/
def s64 (x : Int) : Int := Word.signed 64 x

/-- `RUNTIME_INF`, which is `(u64)~0ULL`. -/
def runtimeInf : Int := 2 ^ 64 - 1

/-- The fields of `rt_rq`, and of the `rq` around it, that the bandwidth code uses. -/
structure RtRq where
  rtTime : Int
  rtRuntime : Int
  rtThrottled : Bool
  rtNrRunning : Nat
  /-- `rq->curr == rq->idle`. -/
  currIdle : Bool
  skipClockUpdate : Int
  /-- `resched_task(rq->curr)` was called. -/
  resched : Bool
  online : Bool
  /-- The root domain, `rq->rd`. -/
  rd : Nat

/-- Where `sched_rt_handler` stands. Its mutex lets one writer in at a time; of the locks that the
scheduler takes it holds none between these points. -/
inductive Handler where
  | idle
  /-- `proc_dointvec` has stored new values, not checked yet; the old ones are kept. -/
  | stored (oldPeriod oldRuntime : Int)
  /-- `sched_rt_global_constraints` has given every CPU the new runtime. -/
  | constrained
  /-- `def_rt_bandwidth.rt_runtime` is written as well. -/
  | limited
  deriving DecidableEq, Repr

structure State where
  rq : Cpu → RtRq
  /-- `def_rt_bandwidth.rt_period` and `def_rt_bandwidth.rt_runtime`. -/
  rtPeriod : Int
  rtRuntime : Int
  sysctlRtPeriod : Int
  sysctlRtRuntime : Int
  handler : Handler
  schedulerRunning : Bool
  /-- A `BUG_ON` has fired. -/
  bug : Bool

/-- `cpu_possible_mask` in ascending order, and `sched_feat(RT_RUNTIME_SHARE)`. -/
structure Config where
  cpus : List Cpu
  rtRuntimeShare : Bool
  /-- The mask is a set of at most `2 ^ 20` CPUs. -/
  nodup : cpus.Nodup
  nrCpus : cpus.length ≤ 2 ^ 20

variable (cfg : Config)

/-- `rd->span`. -/
def State.span (s : State) (d : Nat) : List Cpu := cfg.cpus.filter fun c => (s.rq c).rd = d

def State.setRq (s : State) (c : Cpu) (rt : RtRq) : State :=
  { s with rq := Function.update s.rq c rt }

/-- `global_rt_period`. -/
def globalRtPeriod (s : State) : Int := u64 (s.sysctlRtPeriod * 1000)

/-- `global_rt_runtime`. -/
def globalRtRuntime (s : State) : Int :=
  if s.sysctlRtRuntime < 0 then runtimeInf else u64 (s.sysctlRtRuntime * 1000)

/-- `rt_bandwidth_enabled`. -/
def rtBandwidthEnabled (s : State) : Bool := 0 ≤ s.sysctlRtRuntime

/-! ## Borrowing -/

/-- What `do_balance_runtime` takes from `iter` for `rt`: the new pair, if anything is taken. -/
def takeSpare (period : Int) (weight : Nat) (rt iter : RtRq) : Option (RtRq × RtRq) :=
  if iter.rtRuntime = runtimeInf then none
  else
    let diff := s64 (iter.rtRuntime - iter.rtTime)
    if 0 < diff then
      let diff := s64 (diff / weight)
      -- take no more than what brings us to a full period
      let diff := if period < u64 (rt.rtRuntime + diff) then s64 (period - rt.rtRuntime) else diff
      some ({ rt with rtRuntime := u64 (rt.rtRuntime + diff) },
        { iter with rtRuntime := u64 (iter.rtRuntime - diff) })
    else none

/-- One turn of the loop of `do_balance_runtime`, which holds the lock of `i` only. -/
def borrow (s : State) (c i : Cpu) : State :=
  match takeSpare s.rtPeriod (s.span cfg (s.rq c).rd).length (s.rq c) (s.rq i) with
  | none => s
  | some (rt, iter) => (s.setRq i iter).setRq c rt

/-- The loop of `do_balance_runtime` over the neighbours `is`, and `more`. -/
def balanceLoop (s : State) (c : Cpu) : List Cpu → State × Bool
  | [] => (s, false)
  | i :: is =>
    if i = c then balanceLoop s c is
    else
      match takeSpare s.rtPeriod (s.span cfg (s.rq c).rd).length (s.rq c) (s.rq i) with
      | none => balanceLoop s c is
      | some (rt, _) =>
        if rt.rtRuntime = s.rtPeriod then (borrow cfg s c i, true)
        else ((balanceLoop (borrow cfg s c i) c is).1, true)

def doBalanceRuntime (s : State) (c : Cpu) : State × Bool :=
  balanceLoop cfg s c (s.span cfg (s.rq c).rd)

def balanceRuntime (s : State) (c : Cpu) : State × Bool :=
  if ¬cfg.rtRuntimeShare then (s, false)
  else if (s.rq c).rtRuntime < (s.rq c).rtTime then doBalanceRuntime cfg s c
  else (s, false)

/-! ## Settling -/

/-- The loop of `__disable_runtime` over `rd->span`, with what is still wanted at its end. -/
def reclaim (s : State) (c : Cpu) (want : Int) : List Cpu → State × Int
  | [] => (s, want)
  | i :: is =>
    if i = c ∨ (s.rq i).rtRuntime = runtimeInf then reclaim s c want is
    else
      let iter := s.rq i
      let diff := if 0 < want then min (s64 iter.rtRuntime) want else want
      let s := s.setRq i { iter with rtRuntime := u64 (iter.rtRuntime - diff) }
      let want := s64 (want - diff)
      if want = 0 then (s, want) else reclaim s c want is

def State.setRuntime (s : State) (c : Cpu) (runtime : Int) : State :=
  s.setRq c { s.rq c with rtRuntime := runtime }

/-- `__disable_runtime`; there is one `rt_rq` to an `rq`. -/
def disableRuntime (s : State) (c : Cpu) : State :=
  if ¬s.schedulerRunning then s
  else if (s.rq c).rtRuntime = runtimeInf ∨ (s.rq c).rtRuntime = s.rtRuntime then
    s.setRuntime c runtimeInf
  else
    let r := reclaim s c (s64 (s.rtRuntime - (s.rq c).rtRuntime)) (s.span cfg (s.rq c).rd)
    -- `BUG_ON(want)`
    let s := { r.1 with bug := r.1.bug || r.2 ≠ 0 }
    s.setRuntime c runtimeInf

/-- `__enable_runtime`. It does not look at what the CPU has: what it has lent or borrowed is
forgotten. -/
def enableRuntime (s : State) (c : Cpu) : State :=
  if ¬s.schedulerRunning then s
  else s.setRq c { s.rq c with rtRuntime := s.rtRuntime, rtTime := 0, rtThrottled := false }

/-- The hotplug events that `update_runtime` tells apart. -/
inductive CpuAction where
  | downPrepare
  | downFailed
  | online
  | other
  deriving DecidableEq, Repr

def updateRuntime (s : State) (c : Cpu) : CpuAction → State
  | .downPrepare => disableRuntime cfg s c
  | .downFailed | .online => enableRuntime s c
  | .other => s

/-! ## Charging and throttling -/

/-- The rest of `sched_rt_runtime_exceeded` once the runtime is balanced. -/
def throttle (s : State) (c : Cpu) : State × Bool :=
  let rt := s.rq c
  if rt.rtRuntime = runtimeInf then (s, false)
  else if rt.rtRuntime < rt.rtTime then
    let s :=
      if s.rtRuntime ≠ 0 then s.setRq c { rt with rtThrottled := true }
      else s.setRq c { rt with rtTime := 0 }
    (s, (s.rq c).rtThrottled)
  else (s, false)

def schedRtRuntimeExceeded (s : State) (c : Cpu) : State × Bool :=
  if (s.rq c).rtThrottled then (s, true)
  else if s.rtPeriod ≤ (s.rq c).rtRuntime then (s, false)
  else throttle (balanceRuntime cfg s c).1 c

/-- `rt_rq->rt_time += delta_exec`. -/
def charge (s : State) (c : Cpu) (delta : Int) : State :=
  s.setRq c { s.rq c with rtTime := u64 ((s.rq c).rtTime + delta) }

def State.reschedCurr (s : State) (c : Cpu) : State :=
  s.setRq c { s.rq c with resched := true }

/-- `update_curr_rt` from `rt_bandwidth_enabled()` on, with a real-time task running. -/
def updateCurrRt (s : State) (c : Cpu) (deltaExec : Int) : State :=
  if ¬rtBandwidthEnabled s then s
  else if (s.rq c).rtRuntime = runtimeInf then s
  else
    let r := schedRtRuntimeExceeded cfg (charge s c deltaExec) c
    if r.2 then r.1.reschedCurr c else r.1

/-! ## The period timer -/

/-- What `do_sched_rt_period_timer` does to a run queue with `rt_time` on it, once the runtime is
balanced. -/
def refill (s : State) (c : Cpu) (overrun : Int) : State :=
  let rt := s.rq c
  let runtime := rt.rtRuntime
  let time := u64 (rt.rtTime - min rt.rtTime (u64 (overrun * runtime)))
  let enqueue := rt.rtThrottled && time < runtime
  s.setRq c { rt with
    rtTime := time
    rtThrottled := rt.rtThrottled && !enqueue
    skipClockUpdate :=
      if enqueue && rt.rtNrRunning ≠ 0 && rt.currIdle then -1 else rt.skipClockUpdate
    -- `sched_rt_rq_enqueue`
    resched := rt.resched || enqueue && rt.rtNrRunning ≠ 0 }

/-- What the timer finds out: a CPU is not idle; a CPU is throttled. -/
structure Scan where
  idle : Bool
  throttled : Bool

/-- The body of the loop of `do_sched_rt_period_timer` up to `balance_runtime`, in which the lock of
the runtime is dropped. -/
def periodTimerBalance (s : State) (c : Cpu) : State :=
  if (s.rq c).rtTime ≠ 0 ∧ (s.rq c).rtThrottled then (balanceRuntime cfg s c).1 else s

/-- The rest of the body: what it asks of the run queue is guarded by `rq->lock`, which it holds
throughout. -/
def periodTimerRefill (s : State) (c : Cpu) (overrun : Int) (scan : Scan) : State × Scan :=
  let rt := s.rq c
  let (s, idle) :=
    if rt.rtTime ≠ 0 then
      let s := refill s c overrun
      (s, scan.idle && !((s.rq c).rtTime ≠ 0 || (s.rq c).rtNrRunning ≠ 0))
    else if rt.rtNrRunning ≠ 0 then
      (if rt.rtThrottled then s else s.reschedCurr c, false)
    else (s, scan.idle)
  (s, { idle, throttled := scan.throttled || (s.rq c).rtThrottled })

/-- The body of the loop of `do_sched_rt_period_timer`, if no other CPU comes in between. -/
def periodTimerOn (s : State) (c : Cpu) (overrun : Int) (scan : Scan) : State × Scan :=
  periodTimerRefill (periodTimerBalance cfg s c) c overrun scan

/-- The end of `do_sched_rt_period_timer`: whether the timer may stop. -/
def timerStops (s : State) (scan : Scan) : Bool :=
  if !scan.throttled && (!rtBandwidthEnabled s || s.rtRuntime = runtimeInf) then true
  else scan.idle

/-- `do_sched_rt_period_timer` over the online CPUs `mask`, if no other CPU comes in between. -/
def doSchedRtPeriodTimer (s : State) (mask : List Cpu) (overrun : Int) : State × Bool :=
  let r := mask.foldl (fun r c => periodTimerOn cfg r.1 c overrun r.2) (s, ⟨true, false⟩)
  (r.1, timerStops r.1 r.2)

/-! ## On and off line -/

/-- `set_rq_online`, of whose class hooks `rq_online_rt` concerns the bandwidth. -/
def setRqOnline (s : State) (c : Cpu) : State :=
  if (s.rq c).online then s
  else enableRuntime (s.setRq c { s.rq c with online := true }) c

/-- `set_rq_offline`. -/
def setRqOffline (s : State) (c : Cpu) : State :=
  if ¬(s.rq c).online then s
  else
    let s := disableRuntime cfg s c
    s.setRq c { s.rq c with online := false }

/-- `rq_attach_root`; `active` is the bit of the CPU in `cpu_active_mask`. -/
def rqAttachRoot (s : State) (c : Cpu) (d : Nat) (active : Bool) : State :=
  let s := setRqOffline cfg s c
  let s := s.setRq c { s.rq c with rd := d }
  if active then setRqOnline s c else s

/-! ## The sysctl -/

/-- `sched_rt_global_constraints`: the new state, or the error. -/
def schedRtGlobalConstraints (s : State) : Option State :=
  if s.sysctlRtPeriod ≤ 0 then none
  else if s.sysctlRtRuntime = 0 then none
  else some { s with
    rq := fun c =>
      if c ∈ cfg.cpus then { s.rq c with rtRuntime := globalRtRuntime s } else s.rq c }

/-- `sched_rt_handler` on a write: `proc_dointvec` stores `period` and `runtime`. -/
def schedRtStore (s : State) (period runtime : Int) : State :=
  { s with
    sysctlRtPeriod := period
    sysctlRtRuntime := runtime
    handler := .stored s.sysctlRtPeriod s.sysctlRtRuntime }

/-- The next step of `sched_rt_handler`. -/
def schedRtHandler (s : State) : State :=
  match s.handler with
  | .idle => s
  | .stored oldPeriod oldRuntime =>
    match schedRtGlobalConstraints cfg s with
    | none =>
      { s with sysctlRtPeriod := oldPeriod, sysctlRtRuntime := oldRuntime, handler := .idle }
    | some s => { s with handler := .constrained }
  | .constrained => { s with rtRuntime := globalRtRuntime s, handler := .limited }
  | .limited => { s with rtPeriod := globalRtPeriod s, handler := .idle }

/-! ## Frame lemmas -/

variable {cfg} {s : State} {c i k : Cpu} {d : Nat} {rt : RtRq}

@[simp] theorem setRq_self : (s.setRq c rt).rq c = rt := Function.update_self _ _ _

theorem setRq_other (h : i ≠ c) : (s.setRq c rt).rq i = s.rq i := Function.update_of_ne h _ _

@[simp] theorem setRq_rtRuntime : (s.setRq c rt).rtRuntime = s.rtRuntime := rfl
@[simp] theorem setRq_rtPeriod : (s.setRq c rt).rtPeriod = s.rtPeriod := rfl
@[simp] theorem setRq_bug : (s.setRq c rt).bug = s.bug := rfl
@[simp] theorem setRq_running : (s.setRq c rt).schedulerRunning = s.schedulerRunning := rfl
@[simp] theorem setRq_handler : (s.setRq c rt).handler = s.handler := rfl
@[simp] theorem setRq_sysctlRuntime : (s.setRq c rt).sysctlRtRuntime = s.sysctlRtRuntime := rfl
@[simp] theorem setRq_sysctlPeriod : (s.setRq c rt).sysctlRtPeriod = s.sysctlRtPeriod := rfl

/-- The span of a root domain has the CPUs attached to it. -/
theorem mem_span : k ∈ s.span cfg d ↔ k ∈ cfg.cpus ∧ (s.rq k).rd = d := by
  simp [State.span]

/-- No root domain spans more CPUs than the kernel can have. -/
theorem span_length_le : (s.span cfg d).length ≤ 2 ^ 20 :=
  (List.length_filter_le _ _).trans cfg.nrCpus

end LinuxWrr.Bandwidth
