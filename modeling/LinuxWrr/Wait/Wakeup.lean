import LinuxWrr.Lib.Census
import LinuxWrr.Wait.Queue
import Mathlib.Algebra.BigOperators.Group.Finset.Piecewise

/-!
# Going to sleep and being woken

`try_to_wake_up` and `__schedule` meet on the same task without a common lock: the waker holds
`p->pi_lock`, the task itself writes `p->state` under no lock, and `__schedule` takes it off its run
queue under `rq->lock`. Both are cut into the steps between which others may come.

`__schedule` is cut twice. `rq->lock` may be dropped between `deactivate_task` and the switch, by
`try_to_wake_up_local` for the lock of the worker, by `pull_rt_task` and by `idle_balance` for that
of another run queue (`scheduleSleep`, `scheduleSwitch`); and after the switch it is held until
`finish_lock_switch`, which is when the task before is off its CPU (`finishSwitch`). Interrupts are
off in between.

The caller's part of the protocol is modelled with them: `set_current_state`, the test whether to
sleep, `schedule`; and on the other side the condition, then the wake-up.

Run queues are here what is on them, what they run, their lists of remote wake-ups and
`nr_uninterruptible`. The memory is sequentially consistent. The variants for
`__ARCH_WANT_INTERRUPTS_ON_CTXSW` and `__ARCH_WANT_UNLOCKED_CTXSW` are left out.
-/

namespace LinuxWrr

/-- `TASK_WAKING`. -/
def taskWaking : Nat := 256

namespace Wakeup

/-- Where a task is in its own code. -/
inductive Place where
  /-- After `sched_fork`, before `wake_up_new_task`. -/
  | unborn
  /-- An idle task. -/
  | idle
  | busy
  /-- `set_current_state` was called. -/
  | set
  /-- The condition was tested: the task is going to call `schedule`. -/
  | decided
  deriving DecidableEq

/-- Where `try_to_wake_up` is with a task, from the lock of `p->pi_lock` on. -/
inductive Phase where
  | none
  /-- `p->state & state` was true. -/
  | matched
  /-- `p->on_rq` was true: in `ttwu_remote`, before the lock of the run queue. -/
  | remote
  /-- `while (p->on_cpu) cpu_relax();` -/
  | offCpu
  /-- In front of `ttwu_queue`. -/
  | queue
  deriving DecidableEq

structure Task where
  state : Nat
  onRq : Bool
  onCpu : Bool
  cpu : Cpu
  /-- The run queue on which the class has the task. -/
  queued : Option Cpu
  /-- `p->sched_contributes_to_load`. -/
  contributes : Bool
  /-- `p->flags & PF_FROZEN`. -/
  frozen : Bool
  place : Place

structure Rq where
  curr : Pid
  /-- The task from which the CPU is switching; `rq->lock` is held until `finish_lock_switch`. -/
  prev : Option Pid
  /-- The CPU is in `__schedule`, past the sleep of the current task and before the switch. -/
  scheduling : Bool
  nrUninterruptible : Int
  /-- `rq->wake_list`. -/
  wakeList : List Pid
  /-- What `sched_ttwu_pending` has taken from it. -/
  pending : List Pid
  /-- `smp_send_reschedule` was called, and the interrupt has not come yet. -/
  ipi : Bool

structure State where
  task : Pid → Task
  rq : Cpu → Rq
  ttwu : Pid → Phase
  /-- What the task waits for has happened. -/
  cond : Pid → Bool
  /-- Whoever has made it happen has not called `try_to_wake_up` yet. -/
  owed : Pid → Bool
  /-- A task was queued twice or dequeued where it is not, or a CPU took one that is running. -/
  bug : Bool

/-- The CPUs there are, and their idle tasks. -/
structure Machine where
  cpus : Finset Cpu
  idle : Cpu → Pid

def State.updTask (s : State) (p : Pid) (f : Task → Task) : State :=
  { s with task := Function.update s.task p (f (s.task p)) }

def State.updRq (s : State) (c : Cpu) (f : Rq → Rq) : State :=
  { s with rq := Function.update s.rq c (f (s.rq c)) }

def State.setTtwu (s : State) (p : Pid) (phase : Phase) : State :=
  { s with ttwu := Function.update s.ttwu p phase }

def State.bugOn (s : State) (b : Bool) : State := { s with bug := s.bug || b }

/-! ## Activation -/

/-- `task_contributes_to_load`. -/
def contributesToLoad (t : Task) : Bool := decide (t.state &&& taskUninterruptible ≠ 0) && !t.frozen

/-- 1 if the task counts as uninterruptible. -/
def load (b : Bool) : Int := if b then 1 else 0

def enqueueTask (s : State) (c : Cpu) (p : Pid) : State :=
  (s.bugOn (s.task p).queued.isSome).updTask p fun t => { t with queued := some c }

def dequeueTask (s : State) (c : Cpu) (p : Pid) : State :=
  (s.bugOn ((s.task p).queued ≠ some c)).updTask p fun t => { t with queued := none }

def State.addNr (s : State) (c : Cpu) (k : Int) : State :=
  s.updRq c fun r => { r with nrUninterruptible := r.nrUninterruptible + k }

def activateTask (s : State) (c : Cpu) (p : Pid) : State :=
  enqueueTask (s.addNr c (-load (contributesToLoad (s.task p)))) c p

def deactivateTask (s : State) (c : Cpu) (p : Pid) : State :=
  dequeueTask (s.addNr c (load (contributesToLoad (s.task p)))) c p

/-- `ttwu_activate`. -/
def ttwuActivate (s : State) (c : Cpu) (p : Pid) : State :=
  (activateTask s c p).updTask p fun t => { t with onRq := true }

/-- `ttwu_do_wakeup`. -/
def ttwuDoWakeup (s : State) (p : Pid) : State :=
  s.updTask p fun t => { t with state := taskRunning }

/-- `ttwu_do_activate`. -/
def ttwuDoActivate (s : State) (c : Cpu) (p : Pid) : State :=
  ttwuDoWakeup (ttwuActivate (s.addNr c (-load (s.task p).contributes)) c p) p

/-! ## `__schedule` -/

/-- The sleep in `__schedule`: `preempt` is `PREEMPT_ACTIVE`, `signal` what `signal_pending_state`
answers. -/
def deschedule (s : State) (c : Cpu) (preempt signal : Bool) : State :=
  if (s.task (s.rq c).curr).state ≠ taskRunning ∧ preempt = false then
    if signal then ttwuDoWakeup s (s.rq c).curr
    else (deactivateTask s c (s.rq c).curr).updTask (s.rq c).curr fun t => { t with onRq := false }
  else s

/-- `rq->curr = next` and `prepare_lock_switch`. -/
def switchTo (s : State) (c : Cpu) (next : Pid) : State :=
  if (s.rq c).curr = next then s
  else
    ((s.bugOn (s.task next).onCpu).updTask next fun t => { t with onCpu := true }).updRq c fun r =>
      { r with curr := next, prev := some r.curr }

def State.setScheduling (s : State) (c : Cpu) (b : Bool) : State :=
  s.updRq c fun r => { r with scheduling := b }

/-- `__schedule` up to the first point where `rq->lock` may be dropped. -/
def scheduleSleep (s : State) (c : Cpu) (preempt signal : Bool) : State :=
  (deschedule s c preempt signal).setScheduling c true

/-- `__schedule` from `pick_next_task`, which has picked `next`, to `switch_to`. -/
def scheduleSwitch (s : State) (c : Cpu) (next : Pid) : State :=
  (switchTo s c next).setScheduling c false

/-- `finish_lock_switch`. -/
def finishSwitch (s : State) (c : Cpu) : State :=
  match (s.rq c).prev with
  | none => s
  | some p => (s.updTask p fun t => { t with onCpu := false }).updRq c fun r => { r with prev := none }

/-! ## `try_to_wake_up` -/

/-- Under `p->pi_lock`, the test of `p->state`. A call with `TASK_NORMAL` may be the one that was
owed. -/
def ttwuStart (s : State) (p : Pid) (mode : Nat) : State :=
  let s := if mode = taskNormal then { s with owed := Function.update s.owed p false } else s
  if (s.task p).state &&& mode = 0 then s else s.setTtwu p .matched

/-- `p->on_rq && ..`. -/
def ttwuOnRq (s : State) (p : Pid) : State := s.setTtwu p (if (s.task p).onRq then .remote else .offCpu)

/-- `ttwu_remote` under the lock of the run queue. -/
def ttwuRemote (s : State) (p : Pid) : State :=
  if (s.task p).onRq then (ttwuDoWakeup s p).setTtwu p .none else s.setTtwu p .offCpu

/-- From the end of the loop on `p->on_cpu` to `set_task_cpu`; `select_task_rq` answers `dest`. -/
def ttwuOffCpu (s : State) (p : Pid) (dest : Cpu) : State :=
  (s.updTask p fun t =>
    { t with contributes := contributesToLoad t, state := taskWaking, cpu := dest }).setTtwu p .queue

/-- `ttwu_queue` for the run queue of another cache, and the unlock of `p->pi_lock`. -/
def ttwuQueueRemote (s : State) (p : Pid) : State :=
  (s.updRq (s.task p).cpu fun r =>
    { r with wakeList := p :: r.wakeList, ipi := r.ipi || r.wakeList.isEmpty }).setTtwu p .none

/-- `ttwu_queue` under the lock of the run queue. -/
def ttwuQueue (s : State) (p : Pid) : State := (ttwuDoActivate s (s.task p).cpu p).setTtwu p .none

/-- `scheduler_ipi`, and `llist_del_all` in `sched_ttwu_pending`. -/
def schedulerIpi (s : State) (c : Cpu) : State :=
  s.updRq c fun r => { r with ipi := false, pending := r.wakeList, wakeList := [] }

/-- One turn of the loop in `sched_ttwu_pending`. -/
def ttwuPending (s : State) (c : Cpu) : State :=
  match (s.rq c).pending with
  | [] => s
  | p :: l => ttwuDoActivate (s.updRq c fun r => { r with pending := l }) c p

/-- `try_to_wake_up_local` once it has both locks. `__schedule` calls it for a worker that is bound to
the CPU, after the current worker has gone to sleep. -/
def tryToWakeUpLocal (s : State) (c : Cpu) (p : Pid) : State :=
  if (s.task p).state &&& taskNormal = 0 then s
  else ttwuDoWakeup (if (s.task p).onRq then s else ttwuActivate s c p) p

/-- `wake_up_new_task`. -/
def wakeUpNewTask (s : State) (p : Pid) (c : Cpu) : State :=
  (activateTask (s.updTask p fun t => { t with cpu := c }) c p).updTask p fun t =>
    { t with onRq := true, place := .busy }

/-- `__migrate_task`; the balancing code does the same with `deactivate_task` and
`activate_task`, `counted`. -/
def migrateTask (s : State) (p : Pid) (dest : Cpu) (counted : Bool) : State :=
  let k := if counted then load (contributesToLoad (s.task p)) else 0
  let s := dequeueTask (s.addNr (s.task p).cpu k) (s.task p).cpu p
  enqueueTask ((s.updTask p fun t => { t with cpu := dest }).addNr dest (-k)) dest p

/-- `migrate_nr_uninterruptible`. -/
def migrateNrUninterruptible (s : State) (src dest : Cpu) : State :=
  (s.addNr dest (s.rq src).nrUninterruptible).updRq src fun r => { r with nrUninterruptible := 0 }

end Wakeup

end LinuxWrr
