import LinuxWrr.Sched.WrrBasic
import LinuxWrr.Sched.WrrRmlfq

/-!
# The other scheduling classes

- The RT class (`rt.c`) with RT group scheduling off: queueing, the cached highest
  priority, picking, round robin and the preemption hooks. Bandwidth throttling
  enters as the flag `rt_throttled`. Which tasks `push_rt_task` and `pull_rt_task`
  choose (overload masks, affinity, a search over cpus) is taken from `Outside`; what
  they do with them is here. The balancing that `__schedule` and wake-ups ask for is a
  step of its own.
- The fair, stop and idle classes live outside the repository. What the core relies
  on is modelled: the fair and the stop class add and remove exactly one from
  `rq->nr_running` per task (the fair class from `h_nr_running` too), the stop class
  offers `rq->stop` when it is queued, the idle class always offers `rq->idle`.
  Decisions of `fair.c` are taken from `Outside`.
-/

namespace LinuxWrr

/-! ## The RT class -/

namespace Rt

/-- `rt_se_prio`. -/
def rtSePrio (t : Task) : Nat := t.prio.toNat

/-- `update_curr_rt`. -/
def updateCurrRt (s : System) (c : Cpu) : System :=
  if (s.task (s.rq c).curr).schedClass ≠ .rt then s else s.chargeCurr c

@[simp] theorem updateCurrRt_rq (s : System) (c : Cpu) : (updateCurrRt s c).rq = s.rq := by
  unfold updateCurrRt
  split <;> rfl

@[simp] theorem updateCurrRt_task (s : System) (c : Cpu) :
    (updateCurrRt s c).task = s.task := by
  unfold updateCurrRt
  split <;> rfl

@[simp] theorem updateCurrRt_needResched (s : System) (c : Cpu) :
    (updateCurrRt s c).needResched = s.needResched := by
  unfold updateCurrRt
  split <;> rfl

@[simp] theorem updateCurrRt_groupPath (s : System) (c : Cpu) :
    (updateCurrRt s c).groupPath = s.groupPath := by
  unfold updateCurrRt
  split <;> rfl

/-- `on_rt_rq`. -/
def onRtRq (s : System) (p : Pid) : Bool :=
  (s.rq (s.task p).cpu).rt.active.linked maxRtPrio p

/-- `inc_rt_prio`. -/
def incRtPrio (prio highest : Nat) : Nat := if prio < highest then prio else highest

/-- `dec_rt_prio`, after the counter has been decremented. -/
def decRtPrio (rt : RtRq) (prio : Nat) : Nat :=
  if rt.rtNrRunning ≠ 0 then
    -- "this may have been our highest task, and therefore we may have some recomputation to do"
    if prio = rt.highestPrio then rt.active.findFirstBit maxRtPrio else rt.highestPrio
  else maxRtPrio

/-- `__enqueue_rt_entity`. -/
def enqueueRtEntity (s : System) (p : Pid) (head : Bool) : System :=
  let c := (s.task p).cpu
  let rt := (s.rq c).rt
  let prio := rtSePrio (s.task p)
  let array := rt.active.listAddAt head p prio
  s.setRt c
    { rt with
      active := array.setBit prio
      rtNrRunning := rt.rtNrRunning + 1
      highestPrio := incRtPrio prio rt.highestPrio }

/-- `__dequeue_rt_entity`. -/
def dequeueRtEntity (s : System) (p : Pid) : System :=
  let c := (s.task p).cpu
  let rt := (s.rq c).rt
  let prio := rtSePrio (s.task p)
  let array := rt.active.listDelInit p
  let array := if (array.queue prio).isEmpty then array.clearBit prio else array
  let rt := { rt with active := array, rtNrRunning := rt.rtNrRunning - 1 }
  s.setRt c { rt with highestPrio := decRtPrio rt prio }

/-- `dequeue_rt_stack`; without group scheduling the stack is the task itself. -/
def dequeueRtStack (s : System) (p : Pid) : System :=
  if onRtRq s p then dequeueRtEntity s p else s

/-- `enqueue_task_rt`. -/
def enqueueTaskRt (s : System) (c : Cpu) (p : Pid) (flags : Nat) : System :=
  -- `enqueue_rt_entity` takes a linked entity off first
  let s := dequeueRtStack s p
  let s := enqueueRtEntity s p (enqueueHead flags)
  s.incNrRunning c

/-- `dequeue_task_rt`. -/
def dequeueTaskRt (s : System) (c : Cpu) (p : Pid) : System :=
  let s := updateCurrRt s c
  let s := dequeueRtStack s p
  s.decNrRunning c

/-- `requeue_task_rt`. -/
def requeueTaskRt (s : System) (p : Pid) (head : Bool) : System :=
  if onRtRq s p then
    let c := (s.task p).cpu
    let array := (s.rq c).rt.active
    s.setRt c
      { (s.rq c).rt with
        active := (array.listDelInit p).listAddAt head p (rtSePrio (s.task p)) }
  else s

/-- `check_preempt_curr_rt`. -/
def checkPreemptCurrRt (cfg : Config) (s : System) (c : Cpu) (p : Pid) (o : Outside) : System :=
  let curr := (s.rq c).curr
  if (s.task p).prio < (s.task curr).prio then s.reschedCurr c
  else if cfg.smp ∧ (s.task p).prio = (s.task curr).prio ∧ s.needResched curr = false ∧
      o.rtPushAway then
    -- `check_preempt_equal_prio` found a cpu for the current task
    (requeueTaskRt s p true).reschedCurr c
  else s

/-- `pick_next_task_rt`. -/
def pickNextTaskRt (s : System) (c : Cpu) : Option Pid × System :=
  let rt := (s.rq c).rt
  if rt.rtNrRunning = 0 then (none, s)
  else if rt.rtThrottled then (none, s)
  else
    let idx := rt.active.findFirstBit maxRtPrio
    match (rt.active.queue idx).head? with
    | none => (none, s)
    | some p => (some p, s.startExec c p)

/-- `task_tick_rt`. -/
def taskTickRt (cfg : Config) (s : System) (c : Cpu) (p : Pid) : System :=
  let s := updateCurrRt s c
  -- "FIFO tasks have no timeslices"
  if (s.task p).policy ≠ .rr then s
  else
    let ts := decU32 (s.task p).rtTimeSlice
    let s := s.updTask p fun t => { t with rtTimeSlice := ts }
    if ts ≠ 0 then s
    else
      let s := s.updTask p fun t => { t with rtTimeSlice := cfg.rrTimeslice }
      if (s.rq (s.task p).cpu).rt.active.notAlone p (rtSePrio (s.task p)) then
        (requeueTaskRt s p false).setTskNeedResched p
      else s

/-- `deactivate_task`, `set_task_cpu` and `activate_task` of an RT task that
`push_rt_task` or `pull_rt_task` has chosen: it is queued and not running. -/
def moveRtTask (s : System) (q : Pid) (dest : Cpu) : System :=
  let src := (s.task q).cpu
  if (s.task q).schedClass = .rt ∧ (s.task q).onRq ∧ (s.rq src).curr ≠ q then
    let s := dequeueTaskRt s src q
    let s := s.updTask q fun t => { t with cpu := dest }
    enqueueTaskRt s dest q 0
  else s

/-- `pull_rt_task`. -/
def pullRtTask (s : System) (c : Cpu) (tasks : List Pid) : System :=
  tasks.foldl (fun s q => moveRtTask s q c) s

/-- `push_rt_task` when it finds a task and a cpu to push it to. -/
def pushRtTask (s : System) (q : Pid) (dest : Cpu) : System :=
  (moveRtTask s q dest).reschedCurr dest

/-- `switched_from_rt`. -/
def switchedFromRt (cfg : Config) (s : System) (c : Cpu) (p : Pid) (o : Outside) : System :=
  -- only "if we are the last RT task"
  if cfg.smp ∧ (s.task p).onRq ∧ (s.rq c).rt.rtNrRunning = 0 then pullRtTask s c o.rtPull else s

/-- `switched_to_rt`. -/
def switchedToRt (cfg : Config) (s : System) (c : Cpu) (p : Pid) (o : Outside) : System :=
  let preempt (s : System) :=
    if (s.task p).prio < (s.task (s.rq c).curr).prio then s.reschedCurr c else s
  if (s.task p).onRq ∧ (s.rq c).curr ≠ p then
    match if cfg.smp then o.rtPush else none with
    -- not overloaded, or nothing to push
    | none => preempt s
    | some (q, dest) =>
      let s := pushRtTask s q dest
      -- "don't resched if we changed runqueues"
      if (s.task p).cpu ≠ c then s else preempt s
  else s

/-- `prio_changed_rt`. -/
def prioChangedRt (cfg : Config) (s : System) (c : Cpu) (p : Pid) (oldprio : Int) (o : Outside) :
    System :=
  if (s.task p).onRq = false then s
  else if (s.rq c).curr = p then
    if cfg.smp then
      -- "if our priority decreases while running, we may need to pull tasks"
      let s := if oldprio < (s.task p).prio then pullRtTask s c o.rtPull else s
      if (s.task p).prio > (s.rq c).rt.highestPrio then s.setTskNeedResched p else s
    -- "for UP simply resched on drop of prio"
    else if oldprio < (s.task p).prio then s.setTskNeedResched p
    else s
  -- not running, but better than the task that is
  else if (s.task p).prio < (s.task (s.rq c).curr).prio then s.reschedCurr c
  else s

/-- `rt_sched_class`. -/
def rtSchedClass (cfg : Config) : SchedClass where
  enqueueTask := enqueueTaskRt
  dequeueTask := dequeueTaskRt
  yieldTask s c _ := requeueTaskRt s (s.rq c).curr false
  checkPreemptCurr := checkPreemptCurrRt cfg
  pickNextTask s c _ := pickNextTaskRt s c
  putPrevTask s c _ := updateCurrRt s c
  setCurrTask s c := s.startExec c (s.rq c).curr
  taskTick s c p _ := taskTickRt cfg s c p
  switchedFrom := switchedFromRt cfg
  switchedTo := switchedToRt cfg
  prioChanged := prioChangedRt cfg

end Rt

/-! ## The classes outside the repository -/

/-- A hook of `fair.c` that may ask to reschedule the current task. -/
def fairHook (s : System) (c : Cpu) (o : Outside) : System :=
  if o.fairResched then s.reschedCurr c else s

/-- `fair_sched_class`. -/
def fairSchedClass : SchedClass where
  enqueueTask s c p _ :=
    let cfs := (s.rq c).cfs
    (s.setCfs c { tasks := p :: cfs.tasks, hNrRunning := cfs.hNrRunning + 1 }).incNrRunning c
  dequeueTask s c p :=
    let cfs := (s.rq c).cfs
    (s.setCfs c { tasks := cfs.tasks.erase p, hNrRunning := cfs.hNrRunning - 1 }).decNrRunning c
  yieldTask s _ _ := s
  checkPreemptCurr s c _ o := fairHook s c o
  pickNextTask s _ o := (o.fairPick, s)
  putPrevTask s _ _ := s
  setCurrTask s _ := s
  taskTick s c _ o := fairHook s c o
  switchedFrom s _ _ _ := s
  switchedTo s c _ o := fairHook s c o
  prioChanged s c _ _ o := fairHook s c o

/-- `stop_sched_class`. -/
def stopSchedClass : SchedClass where
  enqueueTask s c _ _ := s.incNrRunning c
  dequeueTask s c _ := s.decNrRunning c
  yieldTask s _ _ := s
  checkPreemptCurr s _ _ _ := s
  pickNextTask s c _ :=
    match (s.rq c).stop with
    | none => (none, s)
    | some p => if (s.task p).onRq then (some p, s) else (none, s)
  putPrevTask s _ _ := s
  setCurrTask s _ := s
  taskTick s _ _ _ := s
  switchedFrom s _ _ _ := s
  switchedTo s _ _ _ := s
  prioChanged s _ _ _ _ := s

/-- `idle_sched_class`. -/
def idleSchedClass : SchedClass where
  enqueueTask s _ _ _ := s
  dequeueTask s _ _ := s
  yieldTask s _ _ := s
  checkPreemptCurr s c _ _ := s.setTskNeedResched (s.rq c).idle
  pickNextTask s c _ := (some (s.rq c).idle, s)
  putPrevTask s _ _ := s
  setCurrTask s _ := s
  taskTick s _ _ _ := s
  switchedFrom s _ _ _ := s
  switchedTo s _ _ _ := s
  prioChanged s _ _ _ _ := s

/-- The `wrr_sched_class` of the file that is built. -/
def wrrSchedClass (cfg : Config) : SchedClass :=
  match cfg.wrr with
  | .basic => Basic.wrrSchedClass cfg
  | .rmlfq => Rmlfq.wrrSchedClass cfg

/-! The hooks that are the same in both files. -/

section Hooks

variable (cfg : Config) (s : System) (c : Cpu) (p : Pid)

/-- Both files pick the first entity of the first list. -/
theorem wrrSchedClass_pick (o : Outside) :
    (wrrSchedClass cfg).pickNextTask s c o = pickNextTaskWrr s c := by
  unfold wrrSchedClass
  cases cfg.wrr <;> rfl

/-- Both files book the time of the task that leaves. -/
theorem wrrSchedClass_putPrevTask :
    (wrrSchedClass cfg).putPrevTask s c p = updateCurrWrr s c := by
  unfold wrrSchedClass
  cases cfg.wrr <;> rfl

/-- Both files start the clock of the task that comes. -/
theorem wrrSchedClass_setCurrTask :
    (wrrSchedClass cfg).setCurrTask s c = s.startExec c (s.rq c).curr := by
  unfold wrrSchedClass
  cases cfg.wrr <;> rfl

/-- Neither file does anything when a task leaves the class. -/
theorem wrrSchedClass_switchedFrom (o : Outside) :
    (wrrSchedClass cfg).switchedFrom s c p o = s := by
  unfold wrrSchedClass
  cases cfg.wrr <;> rfl

/-- Neither file reacts to a changed priority. -/
theorem wrrSchedClass_prioChanged (oldprio : Int) (o : Outside) :
    (wrrSchedClass cfg).prioChanged s c p oldprio o = s := by
  unfold wrrSchedClass
  cases cfg.wrr <;> rfl

end Hooks

/-- The `requeue_task_wrr` of the file that is built; the basic one draws no word. -/
def requeueTaskWrr (cfg : Config) (s : System) (c : Cpu) (p : Pid) (head : Bool)
    (rand : UInt32) : System :=
  match cfg.wrr with
  | .basic => Basic.requeueTaskWrr s c p head
  | .rmlfq => Rmlfq.requeueTaskWrr cfg s c p head rand

/-- `wrr_sched_class.get_rr_interval`. -/
def getRrIntervalWrr (cfg : Config) : System → Option Pid → Nat × System :=
  match cfg.wrr with
  | .basic => Basic.getRrIntervalWrr cfg
  | .rmlfq => Rmlfq.getRrIntervalWrr cfg

/-- The hooks behind `p->sched_class`. -/
def schedClassOf (cfg : Config) : ClassId → SchedClass
  | .stop => stopSchedClass
  | .rt => Rt.rtSchedClass cfg
  | .wrr => wrrSchedClass cfg
  | .fair => fairSchedClass
  | .idle => idleSchedClass

end LinuxWrr
