import LinuxWrr.Lib.PrioArray

/-!
# Scheduler state

The data the modelled functions of `core.c`, `rt.c` and the two flat WRR classes
read and write, under the source's names (in camel case): `task_struct`, the
embedded `sched_entity`, the run queue `rq` with its per-class parts, and the
static path buffer of the WRR file.

- The `sched_entity` and the need-resched flag live in maps of their own
  (`System.se`, `System.needResched`): the first is an embedded structure, the
  second a bit of `thread_info`, and no function writes them together with the rest
  of the task.
- Counters (`nr_running` and friends) are integers, so that an unbalanced decrement
  would show as a wrong count and not be absorbed at zero. `time_slice` and `times`
  are `unsigned int` and wrap.
- Linked lists are Lean lists inside `PrioArray`.
-/

namespace LinuxWrr

abbrev Pid := Nat
abbrev Cpu := Nat

/-- The scheduling policies of `linux/sched.h`. -/
inductive Policy where
  | normal
  | fifo
  | rr
  | batch
  | idle
  | wrr
  deriving DecidableEq, Repr

/-- The value of `p->sched_class`. -/
inductive ClassId where
  | stop
  | rt
  | wrr
  | fair
  | idle
  deriving DecidableEq, Repr

/-- `sched_class::next`. `rt.c` and both WRR files set theirs; the stop class is
the head of the chain and the fair class is followed by the idle class. -/
def ClassId.next : ClassId → Option ClassId
  | .stop => some .rt
  | .rt => some .wrr
  | .wrr => some .fair
  | .fair => some .idle
  | .idle => none

/-- `for_each_class`: the chain from `sched_class_highest` on. -/
def forEachClass : List ClassId := [.stop, .rt, .wrr, .fair, .idle]

theorem forEachClass_chain :
    forEachClass.head? = some .stop ∧
      ∀ i k, forEachClass[i]? = some k → forEachClass[i + 1]? = k.next := by
  refine ⟨rfl, fun i k h => ?_⟩
  match i, h with
  | 0, h | 1, h | 2, h | 3, h | 4, h =>
    cases h
    rfl

/-- `a` comes strictly before `b` in the `for_each_class` order. -/
def ClassId.precedes (a b : ClassId) : Bool :=
  decide (forEachClass.idxOf a < forEachClass.idxOf b)

/-- `MAX_RT_PRIO`, `MAX_WRR_PRIO`, `MAX_USER_RT_PRIO`, `MAX_USER_WRR_PRIO` and `MAX_PRIO`. -/
def maxRtPrio : Nat := 100
def maxWrrPrio : Nat := 100
def maxUserRtPrio : Nat := 100
def maxUserWrrPrio : Nat := 100
def maxPrio : Nat := maxRtPrio + 40

/-- `NICE_TO_PRIO`. -/
def niceToPrio (nice : Int) : Int := maxRtPrio + nice + 20

/-- `PRIO_TO_NICE`. -/
def prioToNice (prio : Int) : Int := prio - maxRtPrio - 20

/-- `task_struct`. -/
structure Task where
  /-- The pid is in use. -/
  alive : Bool
  policy : Policy
  rtPriority : Nat
  staticPrio : Int
  normalPrio : Int
  prio : Int
  schedClass : ClassId
  onRq : Bool
  /-- `task_thread_info(p)->cpu`. -/
  cpu : Cpu
  /-- `p->wrr.time_slice`. -/
  timeSlice : Nat
  times : Nat
  /-- `p->rt.time_slice`. -/
  rtTimeSlice : Nat
  schedResetOnFork : Bool
  schedTaskGroup : Nat
  /-- `p->mm` is not NULL. -/
  mm : Bool
  rlimRtprio : Nat
  rlimNice : Nat
  /-- The priority of the top waiter on the rt-mutexes `p` owns. -/
  piTopWaiter : Option Int
  deriving DecidableEq, Repr

/-- `TASK_NICE`. -/
def Task.nice (t : Task) : Int := prioToNice t.staticPrio

/-- The fields of `sched_entity` that run-time accounting uses. -/
structure SchedEntity where
  execStart : Nat
  sumExecRuntime : Nat
  deriving DecidableEq, Repr

/-- `wrr_rq`; `onLeafList` says that its `leaf_wrr_rq_list` node is linked. -/
structure WrrRq where
  active : PrioArray Pid
  wrrNrRunning : Int
  onLeafList : Bool

/-- `rt_rq`, with RT group scheduling off. -/
structure RtRq where
  active : PrioArray Pid
  rtNrRunning : Int
  /-- `highest_prio.curr`. -/
  highestPrio : Nat
  rtThrottled : Bool

/-- `init_wrr_rq`; the run queues are zero-initialised static data, and the leaf-list
node is a list of its own. -/
def initWrrRq : WrrRq where
  active := PrioArray.init maxWrrPrio
  wrrNrRunning := 0
  onLeafList := false

/-- `init_rt_rq`. -/
def initRtRq : RtRq where
  active := PrioArray.init maxRtPrio
  rtNrRunning := 0
  highestPrio := maxRtPrio
  rtThrottled := false

/-- What `fair.c` (not part of the repository) keeps: the tasks it has queued and
their number. -/
structure CfsRq where
  tasks : List Pid
  hNrRunning : Int

/-- `struct rq`. -/
structure Rq where
  nrRunning : Int
  wrr : WrrRq
  rt : RtRq
  cfs : CfsRq
  curr : Pid
  idle : Pid
  stop : Option Pid
  clockTask : Nat

/-- Everything the modelled functions read or write. -/
structure System where
  task : Pid → Task
  se : Pid → SchedEntity
  /-- `TIF_NEED_RESCHED`. -/
  needResched : Pid → Bool
  rq : Cpu → Rq
  /-- `static char group_path[10000]`. -/
  groupPath : Nat → Char

/-- What `task_group_path` asks of code outside the repository: the path
`autogroup_path` writes (it returns 0 and writes nothing when there is none), and the
path `cgroup_path` writes when `css.cgroup` is not NULL. -/
structure TaskGroup where
  autogroupPath : Option (List Char)
  cgroupPath : Option (List Char)

/-- Which file is built as `wrr.o`. -/
inductive WrrFile where
  | basic
  | rmlfq
  deriving DecidableEq, Repr

/-- Build-time and boot-time constants. `longBits` is the width of the type of the
decimal literal `4294967295`. -/
structure Config where
  wrr : WrrFile
  smp : Bool
  hz : Nat
  longBits : Nat
  group : Nat → TaskGroup
  /-- `100 * HZ` is an `int` expression. -/
  hzFits : 100 * hz < 2 ^ 31

/-- `RR_TIMESLICE`, `WRR_FORE_TIMESLICE` and `WRR_BACK_TIMESLICE`, in ticks. -/
def Config.rrTimeslice (cfg : Config) : Nat := 100 * cfg.hz / 1000
def Config.wrrForeTimeslice (cfg : Config) : Nat := 100 * cfg.hz / 1000
def Config.wrrBackTimeslice (cfg : Config) : Nat := 10 * cfg.hz / 1000

/-- The answers of code outside the repository that one operation may ask for. -/
structure Outside where
  /-- `get_random_bytes`. -/
  rand : UInt32
  /-- `fair_sched_class.pick_next_task`. -/
  fairPick : Option Pid
  /-- Whether the `fair.c` hook that is called asks to reschedule the current task. -/
  fairResched : Bool
  /-- Whether `check_preempt_equal_prio` finds a better cpu for the current task. -/
  rtPushAway : Bool
  /-- The RT tasks of other cpus that `pull_rt_task` decides to move here. -/
  rtPull : List Pid
  /-- The RT task and the cpu that `push_rt_task` decides on. -/
  rtPush : Option (Pid × Cpu)
  deriving DecidableEq, Repr

/-- `unsigned int` decrement. -/
def decU32 (n : Nat) : Nat := (n + (2 ^ 32 - 1)) % 2 ^ 32

/-! ## State updates -/

namespace System

def setTask (s : System) (p : Pid) (t : Task) : System :=
  { s with task := Function.update s.task p t }

def setRq (s : System) (c : Cpu) (r : Rq) : System :=
  { s with rq := Function.update s.rq c r }

/-- Write some fields of the task `p`. -/
def updTask (s : System) (p : Pid) (f : Task → Task) : System := s.setTask p (f (s.task p))

/-- Write some fields of the run queue of `c`. -/
def updRq (s : System) (c : Cpu) (f : Rq → Rq) : System := s.setRq c (f (s.rq c))

def setWrr (s : System) (c : Cpu) (w : WrrRq) : System := s.updRq c fun r => { r with wrr := w }

def setRt (s : System) (c : Cpu) (rt : RtRq) : System := s.updRq c fun r => { r with rt := rt }

def setCfs (s : System) (c : Cpu) (f : CfsRq) : System := s.updRq c fun r => { r with cfs := f }

def setSe (s : System) (p : Pid) (e : SchedEntity) : System :=
  { s with se := Function.update s.se p e }

/-- `set_tsk_need_resched`. -/
def setTskNeedResched (s : System) (p : Pid) : System :=
  { s with needResched := Function.update s.needResched p true }

/-- `clear_tsk_need_resched`. -/
def clearTskNeedResched (s : System) (p : Pid) : System :=
  { s with needResched := Function.update s.needResched p false }

/-- `inc_nr_running`. -/
def incNrRunning (s : System) (c : Cpu) : System :=
  s.updRq c fun r => { r with nrRunning := r.nrRunning + 1 }

/-- `dec_nr_running`. -/
def decNrRunning (s : System) (c : Cpu) : System :=
  s.updRq c fun r => { r with nrRunning := r.nrRunning - 1 }

/-- `resched_task(rq->curr)`. -/
def reschedCurr (s : System) (c : Cpu) : System :=
  s.setTskNeedResched (s.rq c).curr

/-- The part of `update_curr_rt` and `update_curr_wrr` after the class test: charge
the time since `exec_start` to the current task. The subtraction is on `u64`, and a
difference that is negative as `s64` counts as 0. -/
def chargeCurr (s : System) (c : Cpu) : System :=
  let curr := (s.rq c).curr
  let clock := (s.rq c).clockTask
  let delta := (clock + (2 ^ 64 - (s.se curr).execStart)) % 2 ^ 64
  -- `if (unlikely((s64)delta_exec < 0)) delta_exec = 0`
  let delta := if 2 ^ 63 ≤ delta then 0 else delta
  s.setSe curr
    { execStart := clock
      sumExecRuntime := ((s.se curr).sumExecRuntime + delta) % 2 ^ 64 }

/-- `p->se.exec_start = rq->clock_task`. -/
def startExec (s : System) (c : Cpu) (p : Pid) : System :=
  s.setSe p { s.se p with execStart := (s.rq c).clockTask }

section Fields

variable (s : System) (p : Pid) (c : Cpu)

@[simp] theorem setTask_task (t : Task) : (s.setTask p t).task = Function.update s.task p t := rfl
@[simp] theorem setTask_se (t : Task) : (s.setTask p t).se = s.se := rfl
@[simp] theorem setTask_needResched (t : Task) : (s.setTask p t).needResched = s.needResched := rfl
@[simp] theorem setTask_rq (t : Task) : (s.setTask p t).rq = s.rq := rfl
@[simp] theorem setTask_groupPath (t : Task) : (s.setTask p t).groupPath = s.groupPath := rfl

@[simp] theorem setRq_task (r : Rq) : (s.setRq c r).task = s.task := rfl
@[simp] theorem setRq_se (r : Rq) : (s.setRq c r).se = s.se := rfl
@[simp] theorem setRq_needResched (r : Rq) : (s.setRq c r).needResched = s.needResched := rfl
@[simp] theorem setRq_rq (r : Rq) : (s.setRq c r).rq = Function.update s.rq c r := rfl
@[simp] theorem setRq_groupPath (r : Rq) : (s.setRq c r).groupPath = s.groupPath := rfl

@[simp] theorem updTask_task (f : Task → Task) :
    (s.updTask p f).task = Function.update s.task p (f (s.task p)) := rfl
@[simp] theorem updTask_se (f : Task → Task) : (s.updTask p f).se = s.se := rfl
@[simp] theorem updTask_needResched (f : Task → Task) :
    (s.updTask p f).needResched = s.needResched := rfl
@[simp] theorem updTask_rq (f : Task → Task) : (s.updTask p f).rq = s.rq := rfl
@[simp] theorem updTask_groupPath (f : Task → Task) : (s.updTask p f).groupPath = s.groupPath := rfl

@[simp] theorem updRq_task (f : Rq → Rq) : (s.updRq c f).task = s.task := rfl
@[simp] theorem updRq_se (f : Rq → Rq) : (s.updRq c f).se = s.se := rfl
@[simp] theorem updRq_needResched (f : Rq → Rq) : (s.updRq c f).needResched = s.needResched := rfl
@[simp] theorem updRq_rq (f : Rq → Rq) :
    (s.updRq c f).rq = Function.update s.rq c (f (s.rq c)) := rfl
@[simp] theorem updRq_groupPath (f : Rq → Rq) : (s.updRq c f).groupPath = s.groupPath := rfl

@[simp] theorem setSe_task (e : SchedEntity) : (s.setSe p e).task = s.task := rfl
@[simp] theorem setSe_needResched (e : SchedEntity) :
    (s.setSe p e).needResched = s.needResched := rfl
@[simp] theorem setSe_rq (e : SchedEntity) : (s.setSe p e).rq = s.rq := rfl
@[simp] theorem setSe_groupPath (e : SchedEntity) : (s.setSe p e).groupPath = s.groupPath := rfl

@[simp] theorem setTskNeedResched_task : (s.setTskNeedResched p).task = s.task := rfl
@[simp] theorem setTskNeedResched_needResched :
    (s.setTskNeedResched p).needResched = Function.update s.needResched p true := rfl
@[simp] theorem setTskNeedResched_rq : (s.setTskNeedResched p).rq = s.rq := rfl
@[simp] theorem setTskNeedResched_groupPath :
    (s.setTskNeedResched p).groupPath = s.groupPath := rfl

@[simp] theorem clearTskNeedResched_task : (s.clearTskNeedResched p).task = s.task := rfl
@[simp] theorem clearTskNeedResched_needResched :
    (s.clearTskNeedResched p).needResched = Function.update s.needResched p false := rfl
@[simp] theorem clearTskNeedResched_rq : (s.clearTskNeedResched p).rq = s.rq := rfl
@[simp] theorem clearTskNeedResched_groupPath :
    (s.clearTskNeedResched p).groupPath = s.groupPath := rfl

end Fields

end System

/-- `struct sched_class`: the hooks the core calls through `p->sched_class`. -/
structure SchedClass where
  enqueueTask : System → Cpu → Pid → (flags : Nat) → System
  dequeueTask : System → Cpu → Pid → System
  yieldTask : System → Cpu → Outside → System
  checkPreemptCurr : System → Cpu → Pid → Outside → System
  pickNextTask : System → Cpu → Outside → Option Pid × System
  putPrevTask : System → Cpu → Pid → System
  setCurrTask : System → Cpu → System
  taskTick : System → Cpu → Pid → Outside → System
  switchedFrom : System → Cpu → Pid → Outside → System
  switchedTo : System → Cpu → Pid → Outside → System
  prioChanged : System → Cpu → Pid → (oldprio : Int) → Outside → System

/-- The `ENQUEUE_*` flags. -/
def enqueueWakeupFlag : Nat := 1
def enqueueHeadFlag : Nat := 2
def enqueueWakingFlag : Nat := 4

/-- `flags & ENQUEUE_HEAD`. -/
def enqueueHead (flags : Nat) : Bool := flags &&& enqueueHeadFlag != 0

end LinuxWrr
