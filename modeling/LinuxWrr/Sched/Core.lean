import LinuxWrr.Sched.Classes

/-!
# The core scheduler (`core.c`)

The functions of `core.c` that move tasks between run queues and classes, written
against the class hooks. Each of them runs under the run-queue lock and is one
atomic step of the model; `__sched_setscheduler`, which makes its checks before it
takes the lock, gets the task as those checks saw it as a separate argument.

`update_rq_clock` is not part of these functions: the clock of a run queue is data,
and its advance is a step of its own. Leading underscores are dropped from names:
`setscheduler` is `__setscheduler`, `schedSetscheduler` is `__sched_setscheduler`,
`schedule` is `__schedule`, `migrateTask` is `__migrate_task`.
-/

namespace LinuxWrr

/-! ## Priorities -/

/-- `rt_policy`. -/
def rtPolicy (policy : Policy) : Bool := policy = .fifo || policy = .rr

/-- `wrr_policy`. -/
def wrrPolicy (policy : Policy) : Bool := policy = .wrr

/-- `rt_prio`. -/
def rtPrio (prio : Int) : Bool := prio < maxRtPrio

/-- `normal_prio`. -/
def normalPrio (t : Task) : Int :=
  if rtPolicy t.policy then maxRtPrio - 1 - t.rtPriority else t.staticPrio

/-- `effective_prio`: the task with its new `normal_prio`, and the priority. -/
def effectivePrio (t : Task) : Task × Int :=
  let t := { t with normalPrio := normalPrio t }
  -- an RT priority, also one by boosting, is kept
  (t, if rtPrio t.prio then t.prio else t.normalPrio)

/-- `rt_mutex_getprio` (outside the repository). -/
def rtMutexGetprio (t : Task) : Int :=
  match t.piTopWaiter with
  | none => t.normalPrio
  | some w => min t.normalPrio w

/-! ## Class dispatch -/

def enqueueTask (cfg : Config) (s : System) (c : Cpu) (p : Pid) (flags : Nat) : System :=
  (schedClassOf cfg (s.task p).schedClass).enqueueTask s c p flags

def dequeueTask (cfg : Config) (s : System) (c : Cpu) (p : Pid) : System :=
  (schedClassOf cfg (s.task p).schedClass).dequeueTask s c p

def putPrevTask (cfg : Config) (s : System) (c : Cpu) (p : Pid) : System :=
  (schedClassOf cfg (s.task p).schedClass).putPrevTask s c p

/-- `p->sched_class->set_curr_task(rq)` for the current task `p`. -/
def setCurrTask (cfg : Config) (s : System) (c : Cpu) (p : Pid) : System :=
  (schedClassOf cfg (s.task p).schedClass).setCurrTask s c

/-- `check_class_changed`. -/
def checkClassChanged (cfg : Config) (s : System) (c : Cpu) (p : Pid) (prevClass : ClassId)
    (oldprio : Int) (o : Outside) : System :=
  if prevClass ≠ (s.task p).schedClass then
    -- the hook of the old class runs first, and may pull RT tasks
    let s := (schedClassOf cfg prevClass).switchedFrom s c p o
    (schedClassOf cfg (s.task p).schedClass).switchedTo s c p o
  else if oldprio ≠ (s.task p).prio then
    (schedClassOf cfg (s.task p).schedClass).prioChanged s c p oldprio o
  else s

/-- `check_preempt_curr`. -/
def checkPreemptCurr (cfg : Config) (s : System) (c : Cpu) (p : Pid) (o : Outside) : System :=
  let curr := (s.rq c).curr
  if (s.task p).schedClass = (s.task curr).schedClass then
    (schedClassOf cfg (s.task curr).schedClass).checkPreemptCurr s c p o
  else if (s.task p).schedClass.precedes (s.task curr).schedClass then s.reschedCurr c
  else s

/-- The `for_each_class` loop of `pick_next_task`. -/
def pickFrom (cfg : Config) (c : Cpu) (o : Outside) : List ClassId → System → Option Pid × System
  | [], s => (none, s)
  | k :: ks, s =>
    match (schedClassOf cfg k).pickNextTask s c o with
    | (some p, s) => (some p, s)
    | (none, s) => pickFrom cfg c o ks s

/-- `pick_next_task`, with its shortcut for run queues that hold only fair tasks. -/
def pickNextTask (cfg : Config) (s : System) (c : Cpu) (o : Outside) : Option Pid × System :=
  -- "if all tasks are in the fair class we can call that function directly"
  if (s.rq c).nrRunning = (s.rq c).cfs.hNrRunning then
    match fairSchedClass.pickNextTask s c o with
    | (some p, s) => (some p, s)
    | (none, s) => pickFrom cfg c o forEachClass s
  else pickFrom cfg c o forEachClass s

/-! ## Scheduling, ticks and wake-ups -/

/-- `deactivate_task` and `p->on_rq = 0`. -/
def deactivateTask (cfg : Config) (s : System) (c : Cpu) (p : Pid) : System :=
  (dequeueTask cfg s c p).updTask p fun t => { t with onRq := false }

/-- `__schedule` up to the pick: `sleep` says that the previous task is not runnable
and has no pending signal, so that it is deactivated. -/
def retirePrev (cfg : Config) (s : System) (c : Cpu) (sleep : Bool) : System :=
  let prev := (s.rq c).curr
  let s := if sleep then deactivateTask cfg s c prev else s
  putPrevTask cfg s c prev

/-- `__schedule` from the pick on: the chosen task becomes the current one. -/
def switchTo (cfg : Config) (s : System) (c : Cpu) (prev : Pid) (o : Outside) : System :=
  match pickNextTask cfg s c o with
  | (some next, s) => (s.clearTskNeedResched prev).updRq c fun r => { r with curr := next }
  | (none, s) => s

/-- `__schedule` on cpu `c`. -/
def schedule (cfg : Config) (s : System) (c : Cpu) (sleep : Bool) (o : Outside) : System :=
  switchTo cfg (retirePrev cfg s c sleep) c (s.rq c).curr o

/-- `scheduler_tick`. -/
def schedulerTick (cfg : Config) (s : System) (c : Cpu) (o : Outside) : System :=
  let curr := (s.rq c).curr
  (schedClassOf cfg (s.task curr).schedClass).taskTick s c curr o

/-- `current->sched_class->yield_task(rq)`. -/
def yieldTask (cfg : Config) (s : System) (c : Cpu) (o : Outside) : System :=
  (schedClassOf cfg (s.task (s.rq c).curr).schedClass).yieldTask s c o

/-- `sys_sched_yield`: the class hook, then `schedule`. -/
def schedYield (cfg : Config) (s : System) (c : Cpu) (o : Outside) : System :=
  schedule cfg (yieldTask cfg s c o) c false o

/-- `set_task_cpu`, `activate_task` and `p->on_rq = 1`. -/
def activateTask (cfg : Config) (s : System) (p : Pid) (c : Cpu) (flags : Nat) : System :=
  let s := s.updTask p fun t => { t with cpu := c }
  let s := enqueueTask cfg s c p flags
  s.updTask p fun t => { t with onRq := true }

/-- Activate `p` on cpu `c` and `check_preempt_curr`. -/
def activateOn (cfg : Config) (s : System) (p : Pid) (c : Cpu) (flags : Nat) (o : Outside) :
    System :=
  checkPreemptCurr cfg (activateTask cfg s p c flags) c p o

/-- `try_to_wake_up` of a task that is not on a run queue, woken on cpu `c`. -/
def tryToWakeUp (cfg : Config) (s : System) (p : Pid) (c : Cpu) (o : Outside) : System :=
  activateOn cfg s p c (enqueueWakeupFlag + enqueueWakingFlag) o

/-- `wake_up_new_task`. -/
def wakeUpNewTask (cfg : Config) (s : System) (p : Pid) (c : Cpu) (o : Outside) : System :=
  activateOn cfg s p c 0 o

/-- `__migrate_task` from the cpu `p` is assigned to. -/
def migrateTask (cfg : Config) (s : System) (p : Pid) (dest : Cpu) (o : Outside) : System :=
  if (s.task p).onRq then
    let s := dequeueTask cfg s (s.task p).cpu p
    -- between the two the task is on no run queue
    let s := s.updTask p fun t => { t with cpu := dest }
    let s := enqueueTask cfg s dest p 0
    checkPreemptCurr cfg s dest p o
  else s

/-! ## Changing a task's policy and priority -/

/-- `if (on_rq) dequeue_task(..)`. -/
def detach (cfg : Config) (s : System) (p : Pid) : System :=
  if (s.task p).onRq then dequeueTask cfg s (s.task p).cpu p else s

/-- `if (on_rq) dequeue_task(..); if (running) put_prev_task(..)`, as most of the
functions below begin. -/
def takeOff (cfg : Config) (s : System) (p : Pid) : System :=
  let c := (s.task p).cpu
  let running := (s.rq c).curr = p
  let s := detach cfg s p
  if running then putPrevTask cfg s c p else s

/-- `if (running) set_curr_task(..); if (on_rq) enqueue_task(..)`, as they end. -/
def putBack (cfg : Config) (s : System) (c : Cpu) (p : Pid) (onRq running : Bool)
    (flags : Nat) : System :=
  let s := if running then setCurrTask cfg s c p else s
  if onRq then enqueueTask cfg s c p flags else s

/-- The fields `__setscheduler` writes before it chooses the class. -/
def Task.setPolicy (t : Task) (policy : Policy) (prio : Nat) : Task :=
  let t := { t with policy := policy, rtPriority := prio }
  let t := { t with normalPrio := LinuxWrr.normalPrio t }
  { t with prio := rtMutexGetprio t }

/-- The `SCHED_WRR` branch of `__setscheduler`. -/
def enterWrr (cfg : Config) (s : System) (p : Pid) : System :=
  let s := s.updTask p fun t => { t with schedClass := .wrr }
  -- the interval is asked for with the new priority already written
  let interval := getRrIntervalWrr cfg s (some p)
  interval.2.updTask p fun t => { t with timeSlice := interval.1, times := 1 }

/-- `__setscheduler`, with the new policy and `rt_priority`. -/
def setscheduler (cfg : Config) (s : System) (p : Pid) (policy : Policy) (prio : Nat) : System :=
  let s := s.updTask p fun t => t.setPolicy policy prio
  -- `SCHED_WRR` is asked before the priority: a boosted task enters the WRR class too
  if policy = .wrr then enterWrr cfg s p
  else if rtPrio (s.task p).prio then s.updTask p fun t => { t with schedClass := .rt }
  else s.updTask p fun t => { t with schedClass := .fair }

/-- Error returns of `__sched_setscheduler`. -/
inductive Errno where
  | einval
  | eperm
  /-- What `security_task_setscheduler` returned. -/
  | security (retval : Int)
  deriving DecidableEq, Repr

/-- What the permission checks ask about the caller. -/
structure Caller where
  user : Bool
  capSysNice : Bool
  sameOwner : Bool
  /-- The error of `security_task_setscheduler`, if any. -/
  security : Option Int
  deriving DecidableEq, Repr

/-- The policy numbers of `linux/sched.h`. -/
def decodePolicy : Nat → Option Policy
  | 0 => some .normal
  | 1 => some .fifo
  | 2 => some .rr
  | 3 => some .batch
  | 5 => some .idle
  | 6 => some .wrr
  | _ => none

/-- The policy and the reset-on-fork flag a call asks for: those of the task when
`policy` is negative; else bit 30 is `SCHED_RESET_ON_FORK` and the rest must be a
known policy. -/
def requestedPolicy (seen : Task) (policy : Int) : Option (Policy × Bool) :=
  if policy < 0 then some (seen.policy, seen.schedResetOnFork)
  else
    let n := policy.toNat
    let reset := n.testBit 30
    (decodePolicy (if reset then n - 2 ^ 30 else n)).map fun q => (q, reset)

/-- The range checks on `param->sched_priority`. -/
def validParam (seen : Task) (policy : Policy) (prio : Int) : Bool :=
  -- "valid priorities for SCHED_FIFO and SCHED_RR are 1..MAX_USER_RT_PRIO-1"
  if prio < 0 || (seen.mm && decide (prio > maxUserRtPrio - 1)) ||
      (!seen.mm && decide (prio > maxRtPrio - 1)) then false
  -- refused only when both comparisons fail
  else if rtPolicy policy != (prio != 0) && wrrPolicy policy != (prio != 0) then false
  else true

/-- `sys_sched_get_priority_max`. -/
def schedGetPriorityMax (policy : Nat) : Except Errno Int :=
  match decodePolicy policy with
  | some .fifo | some .rr => .ok (maxUserRtPrio - 1)
  | some .wrr => .ok (maxUserWrrPrio - 1)
  | some .normal | some .batch | some .idle => .ok 0
  | none => .error .einval

/-- `sys_sched_get_priority_min`. -/
def schedGetPriorityMin (policy : Nat) : Except Errno Int :=
  match decodePolicy policy with
  | some .fifo | some .rr | some .wrr => .ok 1
  | some .normal | some .batch | some .idle => .ok 0
  | none => .error .einval

/-- `can_nice`. -/
def canNice (t : Task) (nice : Int) (capSysNice : Bool) : Bool :=
  decide (20 - nice ≤ t.rlimNice) || capSysNice

/-- The checks for callers without `CAP_SYS_NICE`: the error, if any. -/
def unprivilegedCheck (caller : Caller) (seen : Task) (policy : Policy) (reset : Bool)
    (prio : Int) : Option Errno :=
  -- "can't set/change the rt policy"
  if rtPolicy policy && (policy != seen.policy && seen.rlimRtprio == 0) then some .eperm
  -- "can't increase priority"
  else if rtPolicy policy && (decide (prio > seen.rtPriority) && decide (prio > seen.rlimRtprio))
    then some .eperm
  -- "treat SCHED_IDLE as nice 20"
  else if seen.policy = .idle && policy != .idle && !canNice seen seen.nice caller.capSysNice
    then some .eperm
  -- "can't change other user's priorities"
  else if !caller.sameOwner then some .eperm
  -- "normal users shall not reset the sched_reset_on_fork flag"
  else if seen.schedResetOnFork && !reset then some .eperm
  else none

/-- All permission checks. -/
def permissionCheck (caller : Caller) (seen : Task) (policy : Policy) (reset : Bool)
    (prio : Int) : Option Errno :=
  if caller.user then
    match if caller.capSysNice then none else unprivilegedCheck caller seen policy reset prio with
    | some e => some e
    | none => caller.security.map .security
  else none

/-- The part of `__sched_setscheduler` that changes the task, under the lock. -/
def changeScheduler (cfg : Config) (s : System) (p : Pid) (policy : Policy) (reset : Bool)
    (prio : Nat) (o : Outside) : System :=
  let c := (s.task p).cpu
  let onRq := (s.task p).onRq
  let running := decide ((s.rq c).curr = p)
  let oldprio := (s.task p).prio
  let prevClass := (s.task p).schedClass
  let s := takeOff cfg s p
  let s := s.updTask p fun t => { t with schedResetOnFork := reset }
  let s := setscheduler cfg s p policy prio
  let s := putBack cfg s c p onRq running 0
  checkClassChanged cfg s c p prevClass oldprio o

/-- The outcome of one pass from the label `recheck`. -/
inductive Pass where
  | done (result : Except Errno Unit) (s : System)
  | recheck

/-- One pass of `__sched_setscheduler`: `seen` is the task as the unlocked checks read
it, `s` the state once the run-queue lock is held. -/
def schedSetschedulerPass (cfg : Config) (caller : Caller) (o : Outside) (seen : Task)
    (s : System) (p : Pid) (policy : Int) (prio : Int) : Pass :=
  match requestedPolicy seen policy with
  | none => .done (.error .einval) s
  | some (pol, reset) =>
    if validParam seen pol prio = false then .done (.error .einval) s
    else
      match permissionCheck caller seen pol reset prio with
      | some e => .done (.error e) s
      | none =>
        let t := s.task p
        -- "changing the policy of the stop threads its a very bad idea"
        if (s.rq t.cpu).stop = some p then .done (.error .einval) s
        -- "if not changing anything there's no need to proceed further"
        else if pol = t.policy ∧ (rtPolicy pol = false ∨ prio = t.rtPriority) then
          .done (.ok ()) s
        -- "recheck policy now with rq lock held"
        else if policy < 0 ∧ seen.policy ≠ t.policy then .recheck
        else .done (.ok ()) (changeScheduler cfg s p pol reset prio.toNat o)

/-- `__sched_setscheduler`. Every element of the list is one pass: the task as its
unlocked checks saw it and the state when it got the lock. The call returns in the
first pass that does not go back to `recheck`; the result is that pass's. -/
def schedSetscheduler (cfg : Config) (caller : Caller) (o : Outside) (p : Pid) (policy : Int)
    (prio : Int) : List (Task × System) → Option (Task × System × Except Errno Unit × System)
  | [] => none
  | (seen, s) :: passes =>
    match schedSetschedulerPass cfg caller o seen s p policy prio with
    | .done result s' => some (seen, s, result, s')
    | .recheck => schedSetscheduler cfg caller o p policy prio passes

/-- `__sched_setscheduler` when nothing interferes between its checks and the lock. -/
def schedSetschedulerAlone (cfg : Config) (caller : Caller) (o : Outside) (s : System) (p : Pid)
    (policy : Int) (prio : Int) : Except Errno Unit × System :=
  match schedSetschedulerPass cfg caller o (s.task p) s p policy prio with
  | .done result s' => (result, s')
  | .recheck => (.ok (), s)

/-- The writes of `rt_mutex_setprio`. -/
def Task.setPrio (t : Task) (prio : Int) : Task :=
  { t with schedClass := if rtPrio prio then .rt else .fair, prio := prio }

/-- `rt_mutex_setprio`. -/
def rtMutexSetprio (cfg : Config) (s : System) (p : Pid) (prio : Int) (o : Outside) : System :=
  let c := (s.task p).cpu
  -- "idle task boosting is a nono in general"
  if p = (s.rq c).idle then s
  else
    let onRq := (s.task p).onRq
    let running := decide ((s.rq c).curr = p)
    let oldprio := (s.task p).prio
    let prevClass := (s.task p).schedClass
    let s := takeOff cfg s p
    let s := s.updTask p fun t => t.setPrio prio
    let s := putBack cfg s c p onRq running (if oldprio < prio then enqueueHeadFlag else 0)
    checkClassChanged cfg s c p prevClass oldprio o

/-- The writes of `set_user_nice` outside the RT policies. -/
def Task.setNice (t : Task) (nice : Int) : Task :=
  let t := { t with staticPrio := niceToPrio nice }
  let e := effectivePrio t
  { e.1 with prio := e.2 }

/-- `set_user_nice`. -/
def setUserNice (cfg : Config) (s : System) (p : Pid) (nice : Int) : System :=
  -- out of range, or no change
  if (s.task p).nice = nice ∨ nice < -20 ∨ nice > 19 then s
  -- the nice value is written and has no effect yet
  else if rtPolicy (s.task p).policy then
    s.updTask p fun t => { t with staticPrio := niceToPrio nice }
  else
    let c := (s.task p).cpu
    let onRq := (s.task p).onRq
    let oldPrio := (s.task p).prio
    let s := detach cfg s p
    let s := s.updTask p fun t => t.setNice nice
    let delta := (s.task p).prio - oldPrio
    if onRq then
      let s := enqueueTask cfg s c p 0
      -- "if the task increased its priority or is running and lowered its priority"
      if delta < 0 ∨ (delta > 0 ∧ (s.rq c).curr = p) then s.reschedCurr c else s
    else s

/-- `sched_move_task`, into the group `tg`. -/
def schedMoveTask (cfg : Config) (s : System) (p : Pid) (tg : Nat) : System :=
  let c := (s.task p).cpu
  let onRq := (s.task p).onRq
  let running := decide ((s.rq c).curr = p)
  let s := takeOff cfg s p
  -- `autogroup_task_group` has been applied to `tg`
  let s := s.updTask p fun t => { t with schedTaskGroup := tg }
  putBack cfg s c p onRq running 0

/-- `normalize_task`. -/
def normalizeTask (cfg : Config) (s : System) (p : Pid) (o : Outside) : System :=
  let c := (s.task p).cpu
  let prevClass := (s.task p).schedClass
  let oldPrio := (s.task p).prio
  let onRq := (s.task p).onRq
  let s := detach cfg s p
  let s := setscheduler cfg s p .normal 0
  let s := if onRq then (enqueueTask cfg s c p 0).reschedCurr c else s
  checkClassChanged cfg s c p prevClass oldPrio o

/-- The reset-on-fork part of `sched_fork`. -/
def forkReset (p : Task) : Task :=
  if p.schedResetOnFork then
    let p :=
      -- only RT policies are reverted
      if rtPolicy p.policy then
        { p with policy := .normal, staticPrio := niceToPrio 0, rtPriority := 0 }
      else if prioToNice p.staticPrio < 0 then { p with staticPrio := niceToPrio 0 }
      else p
    { p with prio := p.staticPrio, normalPrio := p.staticPrio, schedResetOnFork := false }
  else p

/-- The class assignments of `sched_fork`. -/
def forkClass (p : Task) : Task :=
  -- with an RT priority the class of the parent stays
  let p := if rtPrio p.prio then p else { p with schedClass := .fair }
  if p.policy = .wrr then { p with schedClass := .wrr } else p

/-- The copy of `current` that `dup_task_struct` makes, at the priority `sched_fork` gives
it first: the PI boosting priority does not leak to the child. -/
def dupTask (current : Task) : Task :=
  { current with
    onRq := false
    alive := true
    piTopWaiter := none
    prio := current.normalPrio }

/-- `sched_fork` on the copy of `current`. -/
def forkTask (current : Task) : Task := forkClass (forkReset (dupTask current))

/-- `sched_fork` for the new task `child` of the current task `parent`. -/
def schedFork (s : System) (parent child : Pid) : System :=
  let s := s.setTask child (forkTask (s.task parent))
  let s := s.setSe child { execStart := 0, sumExecRuntime := 0 }
  s.clearTskNeedResched child

/-! ## RT bandwidth -/

/-- The run queue exceeded its RT runtime (`sched_rt_runtime_exceeded`). -/
def rtThrottle (s : System) (c : Cpu) : System :=
  (s.setRt c { (s.rq c).rt with rtThrottled := true }).reschedCurr c

/-- The period timer refilled the RT runtime (`sched_rt_rq_enqueue`). -/
def rtUnthrottle (s : System) (c : Cpu) : System :=
  let s := s.setRt c { (s.rq c).rt with rtThrottled := false }
  if (s.rq c).rt.rtNrRunning ≠ 0 then s.reschedCurr c else s

end LinuxWrr
