import LinuxWrr.Lib.Plist
import LinuxWrr.Sched.Types
import Mathlib.Data.Finset.Insert

/-!
# Pushing and pulling real-time tasks

The part of `rt.c` that spreads real-time tasks over the CPUs, with RT group scheduling off:
every run queue caches its best priority, counts the tasks that may run elsewhere and keeps
those that wait in a priority list; the run queues with too many are marked in the root domain.
A CPU pushes what waits behind its current task, and pulls what it could run sooner.

- `enqueueTaskRt`, `dequeueTaskRt`, `updateRtMigration`: the books.
- `pushRtTask`, `pullFrom`, `pullRtTask`: moving tasks.
- `activateTask`, `changeTask`, `doSetCpusAllowed`, `switchTo`, `rqAttachRoot`: the callers in
  `core.c`.

Tasks of other classes have no queues here, and the runtimes of the CPUs with the timer that
refills them are `Rt/Bandwidth.lean`. What `find_lowest_rq` answers is an input, since
`cpupri_find` is not in the repository; `cpupri_set` is kept as what it was last told.
-/

namespace LinuxWrr.PushPull

structure RtTask where
  /-- `p->sched_class == &rt_sched_class`. -/
  rtClass : Bool
  prio : Nat
  cpu : Cpu
  onRq : Bool
  cpusAllowed : Finset Cpu
  /-- `p->rt.nr_cpus_allowed`. -/
  nrCpusAllowed : Nat

/-- `rt_rq`, and what the code uses of the `rq` around it. -/
structure RtRq where
  active : PrioArray Pid
  rtNrRunning : Int
  /-- `highest_prio.curr`. -/
  highestCurr : Nat
  /-- `highest_prio.next`. -/
  highestNext : Nat
  rtNrMigratory : Int
  rtNrTotal : Int
  overloaded : Bool
  rtThrottled : Bool
  curr : Pid
  /-- `resched_task(rq->curr)` was called. -/
  resched : Bool
  postSchedule : Bool
  online : Bool
  /-- The root domain, `rq->rd`. -/
  rd : Nat

structure RootDomain where
  rtoMask : Finset Cpu
  rtoCount : Int
  /-- What `cpupri_set` was last told, `none` being `CPUPRI_INVALID`. -/
  cpupri : Cpu → Option Nat

structure State where
  task : Pid → RtTask
  rq : Cpu → RtRq
  /-- `rq->rt.pushable_tasks` of every CPU. A task has one link: unlinking does not ask for
  the list. -/
  pushable : Cpu → List (Nat × Pid)
  rd : Nat → RootDomain
  /-- A `BUG_ON` or a `WARN_ON` of the code below has fired. -/
  bug : Bool

def State.setTask (s : State) (p : Pid) (t : RtTask) : State :=
  { s with task := Function.update s.task p t }

def State.updRq (s : State) (c : Cpu) (f : RtRq → RtRq) : State :=
  { s with rq := Function.update s.rq c (f (s.rq c)) }

def State.updRd (s : State) (d : Nat) (f : RootDomain → RootDomain) : State :=
  { s with rd := Function.update s.rd d (f (s.rd d)) }

/-- `BUG_ON(b)` or `WARN_ON(b)`. -/
def State.bugOn (s : State) (b : Bool) : State := { s with bug := s.bug || b }

/-! ## Overload -/

/-- `rt_overloaded`. -/
def rtOverloaded (s : State) (c : Cpu) : Bool := (s.rd (s.rq c).rd).rtoCount ≠ 0

def rtSetOverload (s : State) (c : Cpu) : State :=
  if (s.rq c).online then
    s.updRd (s.rq c).rd fun d => { d with rtoMask := insert c d.rtoMask, rtoCount := d.rtoCount + 1 }
  else s

def rtClearOverload (s : State) (c : Cpu) : State :=
  if (s.rq c).online then
    s.updRd (s.rq c).rd fun d => { d with rtoCount := d.rtoCount - 1, rtoMask := d.rtoMask.erase c }
  else s

def updateRtMigration (s : State) (c : Cpu) : State :=
  if (s.rq c).rtNrMigratory ≠ 0 ∧ (s.rq c).rtNrTotal > 1 then
    if (s.rq c).overloaded then s
    else (rtSetOverload s c).updRq c fun r => { r with overloaded := true }
  else if (s.rq c).overloaded then
    (rtClearOverload s c).updRq c fun r => { r with overloaded := false }
  else s

/-- 1 if the task may run on several CPUs. -/
def migratory (t : RtTask) : Int := if t.nrCpusAllowed > 1 then 1 else 0

def incRtMigration (s : State) (c : Cpu) (p : Pid) : State :=
  updateRtMigration (s.updRq c fun r =>
    { r with rtNrTotal := r.rtNrTotal + 1, rtNrMigratory := r.rtNrMigratory + migratory (s.task p) }) c

def decRtMigration (s : State) (c : Cpu) (p : Pid) : State :=
  updateRtMigration (s.updRq c fun r =>
    { r with rtNrTotal := r.rtNrTotal - 1, rtNrMigratory := r.rtNrMigratory - migratory (s.task p) }) c

/-! ## The pushable tasks -/

def hasPushableTasks (s : State) (c : Cpu) : Bool := !(s.pushable c).isEmpty

/-- `plist_del(&p->pushable_tasks, ..)`. -/
def State.unlink (s : State) (p : Pid) : State :=
  { s with pushable := fun c => Plist.del p (s.pushable c) }

def enqueuePushableTask (s : State) (c : Cpu) (p : Pid) : State :=
  { s.unlink p with
    pushable := Function.update (s.unlink p).pushable c
      (Plist.add (s.task p).prio p ((s.unlink p).pushable c)) }.updRq c fun r =>
    { r with
      highestNext := if (s.task p).prio < r.highestNext then (s.task p).prio else r.highestNext }

/-- The priority of the first pushable task. -/
def firstPrio (task : Pid → RtTask) : List (Nat × Pid) → Nat
  | [] => maxRtPrio
  | (_, q) :: _ => (task q).prio

def dequeuePushableTask (s : State) (c : Cpu) (p : Pid) : State :=
  (s.unlink p).updRq c fun r =>
    { r with highestNext := firstPrio s.task ((s.unlink p).pushable c) }

/-! ## The queue -/

/-- `cpupri_set(&rq->rd->cpupri, rq->cpu, prio)`. -/
def cpupriSet (s : State) (c : Cpu) (prio : Option Nat) : State :=
  s.updRd (s.rq c).rd fun d => { d with cpupri := Function.update d.cpupri c prio }

def incRtPrioSmp (s : State) (c : Cpu) (prio prev : Nat) : State :=
  if (s.rq c).online ∧ prio < prev then cpupriSet s c (some prio) else s

def decRtPrioSmp (s : State) (c : Cpu) (prev : Nat) : State :=
  if (s.rq c).online ∧ (s.rq c).highestCurr ≠ prev then cpupriSet s c (some (s.rq c).highestCurr)
  else s

def incRtPrio (s : State) (c : Cpu) (prio : Nat) : State :=
  incRtPrioSmp
    (s.updRq c fun r => { r with highestCurr := if prio < r.highestCurr then prio else r.highestCurr })
    c prio (s.rq c).highestCurr

def decRtPrio (s : State) (c : Cpu) (prio : Nat) : State :=
  decRtPrioSmp
    (if (s.rq c).rtNrRunning ≠ 0 then
      (s.bugOn (prio < (s.rq c).highestCurr)).updRq c fun r =>
        -- "this may have been our highest task, and therefore we may have some recomputation to do"
        { r with highestCurr :=
            if prio = r.highestCurr then r.active.findFirstBit maxRtPrio else r.highestCurr }
    else s.updRq c fun r => { r with highestCurr := maxRtPrio })
    c (s.rq c).highestCurr

/-- `inc_rt_tasks`. The RT bandwidth timer that it starts is not part of this model. -/
def incRtTasks (s : State) (c : Cpu) (p : Pid) : State :=
  incRtMigration
    (incRtPrio
      ((s.bugOn (maxRtPrio ≤ (s.task p).prio)).updRq c fun r =>
        { r with rtNrRunning := r.rtNrRunning + 1 })
      c (s.task p).prio)
    c p

def decRtTasks (s : State) (c : Cpu) (p : Pid) : State :=
  decRtMigration
    (decRtPrio
      ((s.bugOn (maxRtPrio ≤ (s.task p).prio || (s.rq c).rtNrRunning = 0)).updRq c fun r =>
        { r with rtNrRunning := r.rtNrRunning - 1 })
      c (s.task p).prio)
    c p

/-- `on_rt_rq`. -/
def onRtRq (s : State) (p : Pid) : Bool := (s.rq (s.task p).cpu).active.linked maxRtPrio p

/-- `__enqueue_rt_entity`. -/
def enqueueRtEntity (s : State) (p : Pid) (head : Bool) : State :=
  incRtTasks
    (s.updRq (s.task p).cpu fun r =>
      { r with active := (r.active.listAddAt head p (s.task p).prio).setBit (s.task p).prio })
    (s.task p).cpu p

/-- `__dequeue_rt_entity`. -/
def dequeueRtEntity (s : State) (p : Pid) : State :=
  decRtTasks
    (s.updRq (s.task p).cpu fun r => { r with active := r.active.unlink p (s.task p).prio })
    (s.task p).cpu p

/-- `dequeue_rt_stack`; without group scheduling the stack is the task itself. -/
def dequeueRtStack (s : State) (p : Pid) : State := if onRtRq s p then dequeueRtEntity s p else s

/-! ## The class hooks -/

/-- `task_current`. -/
def taskCurrent (s : State) (c : Cpu) (p : Pid) : Bool := (s.rq c).curr = p

def enqueueTaskRt (s : State) (c : Cpu) (p : Pid) (head : Bool) : State :=
  let s := enqueueRtEntity (dequeueRtStack s p) p head
  if !taskCurrent s c p ∧ (s.task p).nrCpusAllowed > 1 then enqueuePushableTask s c p else s

def dequeueTaskRt (s : State) (c : Cpu) (p : Pid) : State :=
  dequeuePushableTask (dequeueRtStack s p) c p

/-- `requeue_task_rt`. -/
def requeueTaskRt (s : State) (p : Pid) (head : Bool) : State :=
  if onRtRq s p then
    s.updRq (s.task p).cpu fun r =>
      { r with active := (r.active.listDelInit p).listAddAt head p (s.task p).prio }
  else s

/-- `_pick_next_task_rt`: the pick, and whether its `BUG_ON` stays quiet. -/
def pickRtEntity (s : State) (c : Cpu) : Option Pid × Bool :=
  if (s.rq c).rtNrRunning = 0 then (none, true)
  else if (s.rq c).rtThrottled then (none, true)
  else
    (((s.rq c).active.queue ((s.rq c).active.findFirstBit maxRtPrio)).head?,
      (s.rq c).active.findFirstBit maxRtPrio < maxRtPrio)

def pickNextTaskRt (s : State) (c : Cpu) : Option Pid × State :=
  let t := s.bugOn (!(pickRtEntity s c).2)
  let t := match (pickRtEntity s c).1 with
    -- "the running task is never eligible for pushing"
    | some p => dequeuePushableTask t c p
    | none => t
  ((pickRtEntity s c).1, t.updRq c fun r => { r with postSchedule := hasPushableTasks t c })

def putPrevTaskRt (s : State) (c : Cpu) (p : Pid) : State :=
  if onRtRq s p ∧ (s.task p).nrCpusAllowed > 1 then enqueuePushableTask s c p else s

/-- `set_curr_task_rt`. -/
def setCurrTaskRt (s : State) (c : Cpu) : State := dequeuePushableTask s c (s.rq c).curr

/-- The list in `set_cpus_allowed_rt`: "It will either remain off of the list because we are no
longer pushable, or it will be requeued." -/
def repush (s : State) (p : Pid) (weight : Nat) : State :=
  if taskCurrent s (s.task p).cpu p then s
  else
    let u := if (s.task p).nrCpusAllowed > 1 then dequeuePushableTask s (s.task p).cpu p else s
    if weight > 1 then enqueuePushableTask u (s.task p).cpu p else u

/-- The counter in `set_cpus_allowed_rt`. -/
def recount (s : State) (c : Cpu) (old weight : Nat) : State :=
  if old ≤ 1 ∧ weight > 1 then s.updRq c fun r => { r with rtNrMigratory := r.rtNrMigratory + 1 }
  else if old > 1 ∧ weight ≤ 1 then
    (s.bugOn ((s.rq c).rtNrMigratory = 0)).updRq c fun r =>
      { r with rtNrMigratory := r.rtNrMigratory - 1 }
  else s

/-- `set_cpus_allowed_rt`, for a mask of the weight `weight`. -/
def setCpusAllowedRt (s : State) (p : Pid) (weight : Nat) : State :=
  let s := s.bugOn (maxRtPrio ≤ (s.task p).prio)
  if (s.task p).onRq ∧ weight ≠ (s.task p).nrCpusAllowed then
    updateRtMigration
      (recount (repush s p weight) (s.task p).cpu (s.task p).nrCpusAllowed weight) (s.task p).cpu
  else s

/-- `rq_online_rt`. Of what `__enable_runtime` writes this model has only the throttling; the
runtimes are those of `LinuxWrr.Bandwidth.enableRuntime`. -/
def rqOnlineRt (s : State) (c : Cpu) : State :=
  let s := if (s.rq c).overloaded then rtSetOverload s c else s
  -- `__enable_runtime`; before the scheduler runs nothing is throttled
  let s := s.updRq c fun r => { r with rtThrottled := false }
  cpupriSet s c (some (s.rq c).highestCurr)

/-- `rq_offline_rt`. `__disable_runtime` writes only runtimes, which this model does not have: it
is `LinuxWrr.Bandwidth.disableRuntime`, and its `BUG_ON(want)` is not among those counted here. -/
def rqOfflineRt (s : State) (c : Cpu) : State :=
  let s := if (s.rq c).overloaded then rtClearOverload s c else s
  cpupriSet s c none

/-! ## The callers in `core.c` -/

def enqueueTask (s : State) (c : Cpu) (p : Pid) (head : Bool) : State :=
  if (s.task p).rtClass then enqueueTaskRt s c p head else s

def dequeueTask (s : State) (c : Cpu) (p : Pid) : State :=
  if (s.task p).rtClass then dequeueTaskRt s c p else s

/-- `set_task_cpu`, `activate_task` and `p->on_rq = 1`. -/
def activateTask (s : State) (p : Pid) (c : Cpu) (head : Bool) : State :=
  let s := enqueueTask (s.setTask p { s.task p with cpu := c }) c p head
  s.setTask p { s.task p with onRq := true }

/-- `deactivate_task` and `p->on_rq = 0`. -/
def deactivateTask (s : State) (p : Pid) : State :=
  let s := dequeueTask s (s.task p).cpu p
  s.setTask p { s.task p with onRq := false }

/-- `deactivate_task`, `set_task_cpu` and `activate_task`, as the balancing code calls them;
`__migrate_task` does the same with `dequeue_task` and `enqueue_task`. `p->on_rq` stays set. -/
def moveTask (s : State) (p : Pid) (dest : Cpu) : State :=
  let s := dequeueTask s (s.task p).cpu p
  let s := s.setTask p { s.task p with cpu := dest }
  enqueueTask s dest p false

/-- The way in which `__sched_setscheduler`, `rt_mutex_setprio` and `normalize_task` give a task
another class and priority. -/
def changeTask (s : State) (p : Pid) (rtClass : Bool) (prio : Nat) (head : Bool) : State :=
  let c := (s.task p).cpu
  let onRq := (s.task p).onRq
  let running := taskCurrent s c p
  let s := if onRq then dequeueTask s c p else s
  let s := if running ∧ (s.task p).rtClass then putPrevTaskRt s c p else s
  let s := s.setTask p { s.task p with rtClass := rtClass, prio := prio }
  let s := if running ∧ (s.task p).rtClass then setCurrTaskRt s c else s
  if onRq then enqueueTask s c p head else s

def doSetCpusAllowed (s : State) (p : Pid) (mask : Finset Cpu) : State :=
  let s := if (s.task p).rtClass then setCpusAllowedRt s p mask.card else s
  s.setTask p { s.task p with cpusAllowed := mask, nrCpusAllowed := mask.card }

/-- `put_prev_task`, `pick_next_task` and `rq->curr = next` of `__schedule`: `stop` is what the
stop class offers before the RT class is asked, `other` what the classes after it offer. -/
def switchTo (s : State) (c : Cpu) (stop : Option Pid) (other : Pid) : State :=
  let prev := (s.rq c).curr
  let s := if (s.task prev).rtClass then putPrevTaskRt s c prev else s
  let picked := match stop with
    | some p => (p, s)
    | none => ((pickNextTaskRt s c).1.getD other, (pickNextTaskRt s c).2)
  picked.2.updRq c fun r => { r with resched := false, curr := picked.1 }

def setRqOnline (s : State) (c : Cpu) : State :=
  if (s.rq c).online then s else rqOnlineRt (s.updRq c fun r => { r with online := true }) c

def setRqOffline (s : State) (c : Cpu) : State :=
  if (s.rq c).online then (rqOfflineRt s c).updRq c fun r => { r with online := false } else s

/-- `rq_attach_root`; `active` is the bit of the CPU in `cpu_active_mask`. -/
def rqAttachRoot (s : State) (c : Cpu) (d : Nat) (active : Bool) : State :=
  let s := (setRqOffline s c).updRq c fun r => { r with rd := d }
  if active then setRqOnline s c else s

/-! ## Push -/

def reschedCurr (s : State) (c : Cpu) : State := s.updRq c fun r => { r with resched := true }

/-- `pick_next_pushable_task`: the task, and whether its `BUG_ON`s stay quiet. -/
def pickNextPushableTask (s : State) (c : Cpu) : Option Pid × Bool :=
  match s.pushable c with
  | [] => (none, true)
  | (_, p) :: _ =>
    (some p, decide (c = (s.task p).cpu ∧ taskCurrent s c p = false ∧ 1 < (s.task p).nrCpusAllowed ∧
      (s.task p).onRq = true ∧ (s.task p).prio < maxRtPrio))

/-- `find_lock_lowest_rq` while no lock is dropped: `tries` are the answers of
`find_lowest_rq`. -/
def findLockLowestRq (s : State) (c : Cpu) (p : Pid) : List (Option Cpu) → Option Cpu
  | [] => none
  | none :: _ => none
  | some cpu :: tries =>
    if cpu = c then none
    -- "If this rq is still suitable use it."
    else if (s.task p).prio < (s.rq cpu).highestCurr then some cpu
    else findLockLowestRq s c p tries

/-- The part of `push_rt_task` from `retry` on, while no lock is dropped: no retry then, since
the same task is picked again. -/
def pushTask (s : State) (c : Cpu) (p : Pid) (tries : List (Option Cpu)) : State × Bool :=
  if p = (s.rq c).curr then (s.bugOn true, false)
  -- "It's possible that the next_task slipped in of higher priority than current."
  else if (s.task p).prio < (s.task (s.rq c).curr).prio then (reschedCurr s c, false)
  else
    match findLockLowestRq s c p tries with
    | none => (s, false)
    | some dest => (reschedCurr (moveTask s p dest) dest, true)

/-- `push_rt_task` without its first test. -/
def pushNext (s : State) (c : Cpu) (tries : List (Option Cpu)) : State × Bool :=
  match pickNextPushableTask s c with
  | (none, ok) => (s.bugOn (!ok), false)
  | (some p, ok) => pushTask (s.bugOn (!ok)) c p tries

/-- `push_rt_task` while no lock is dropped: `RT_MAX_TRIES` is three. -/
def pushRtTask (s : State) (c : Cpu) (tries : List (Option Cpu)) : State × Bool :=
  if (s.rq c).overloaded then pushNext s c (tries.take 3) else (s, false)

/-- The end of `push_rt_task` after `double_lock_balance` has dropped the lock of `c`: `p` was
picked before, and `find_lock_lowest_rq` looks at it again. -/
def pushResume (s : State) (c : Cpu) (p : Pid) (dest : Cpu) : State :=
  if (s.task p).cpu = c ∧ dest ∈ (s.task p).cpusAllowed ∧ taskCurrent s c p = false ∧
      (s.task p).onRq = true ∧ dest ≠ c ∧ (s.task p).prio < (s.rq dest).highestCurr then
    reschedCurr (moveTask s p dest) dest
  else s

/-! ## Pull -/

/-- `pick_rt_task`. -/
def pickRtTask (s : State) (src : Cpu) (p : Pid) (cpu : Cpu) : Bool :=
  !taskCurrent s src p && (decide (cpu ∈ (s.task p).cpusAllowed) && decide ((s.task p).nrCpusAllowed > 1))

/-- `find_next_bit(bitmap, MAX_RT_PRIO, off)`. -/
def findNextBit (bitmap : Nat → Bool) (off : Nat) : Nat :=
  ((List.range' off (maxRtPrio - off)).find? bitmap).getD maxRtPrio

/-- The loop of `pick_next_highest_task_rt` from the level `idx` on, for at most `fuel` levels. -/
def pickFromLevel (s : State) (src cpu : Cpu) : Nat → Nat → Option Pid
  | 0, _ => none
  | fuel + 1, idx =>
    if maxRtPrio ≤ idx then none
    else
      match ((s.rq src).active.queue idx).find? fun p => pickRtTask s src p cpu with
      | some p => some p
      | none => pickFromLevel s src cpu fuel (findNextBit (s.rq src).active.bitmap (idx + 1))

/-- `pick_next_highest_task_rt`: there is one leaf `rt_rq`. -/
def pickNextHighestTaskRt (s : State) (src cpu : Cpu) : Option Pid :=
  pickFromLevel s src cpu (maxRtPrio + 1) ((s.rq src).active.findFirstBit maxRtPrio)

/-- The loop body of `pull_rt_task` once both run queues are locked. -/
def pullLocked (s : State) (thisCpu src : Cpu) : State :=
  if (s.rq src).rtNrRunning ≤ 1 then s
  else
    match pickNextHighestTaskRt s src thisCpu with
    | none => s
    | some p =>
      if (s.task p).prio < (s.rq thisCpu).highestCurr then
        let s := s.bugOn (taskCurrent s src p || !(s.task p).onRq)
        -- "We only pull p if it is lower in priority than the current task on the run queue"
        if (s.task p).prio < (s.task (s.rq src).curr).prio then s else moveTask s p thisCpu
      else s

/-- One turn of the loop of `pull_rt_task` while no lock is dropped: `double_lock_balance` may drop
that of `thisCpu` before `pullLocked`. -/
def pullFrom (s : State) (thisCpu src : Cpu) : State :=
  if src ∉ (s.rd (s.rq thisCpu).rd).rtoMask then s
  else if thisCpu = src then s
  -- "Don't bother taking the src_rq->lock if the next highest task is known to be
  -- lower-priority than our current task."
  else if (s.rq thisCpu).highestCurr ≤ (s.rq src).highestNext then s
  else pullLocked s thisCpu src

/-- `pull_rt_task` while no lock is dropped; `cpus` are all CPUs in the order of a mask. -/
def pullRtTask (s : State) (thisCpu : Cpu) (cpus : List Cpu) : State :=
  if rtOverloaded s thisCpu then cpus.foldl (fun s src => pullFrom s thisCpu src) s else s

end LinuxWrr.PushPull
