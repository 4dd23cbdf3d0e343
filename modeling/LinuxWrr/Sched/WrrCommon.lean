import LinuxWrr.Sched.Types

/-!
# What the two flat WRR classes share

`wrr_basic.c` and `wrr_RMLFQ.c` repeat one another except for the map from
`rt_priority` to a queue index (`wrr_se_prio`), `requeue_task_wrr`, `task_tick_wrr`,
the slice, and the comparisons of the two preemption hooks. The repeated functions
are defined here once, with the index map `sePrio` as an argument where they use it.

A WRR entity is identified with its task (`wrr_task_of` is `container_of`), and
`wrr_rq_of_se` is the WRR queue of `task_rq(p)`, the cpu the task is assigned to.
-/

namespace LinuxWrr

/-- `(s.rq c).wrr` with its priority array replaced. -/
def System.setActive (s : System) (c : Cpu) (a : PrioArray Pid) : System :=
  s.setWrr c { (s.rq c).wrr with active := a }

@[simp] theorem System.setActive_task (s : System) (c : Cpu) (a : PrioArray Pid) :
    (s.setActive c a).task = s.task := rfl

@[simp] theorem System.setActive_needResched (s : System) (c : Cpu) (a : PrioArray Pid) :
    (s.setActive c a).needResched = s.needResched := rfl

/-- `update_curr_wrr`: skip current tasks that are not in the WRR class. -/
def updateCurrWrr (s : System) (c : Cpu) : System :=
  if (s.task (s.rq c).curr).schedClass ≠ .wrr then s else s.chargeCurr c

@[simp] theorem updateCurrWrr_rq (s : System) (c : Cpu) : (updateCurrWrr s c).rq = s.rq := by
  unfold updateCurrWrr
  split <;> rfl

@[simp] theorem updateCurrWrr_task (s : System) (c : Cpu) :
    (updateCurrWrr s c).task = s.task := by
  unfold updateCurrWrr
  split <;> rfl

@[simp] theorem updateCurrWrr_needResched (s : System) (c : Cpu) :
    (updateCurrWrr s c).needResched = s.needResched := by
  unfold updateCurrWrr
  split <;> rfl

@[simp] theorem updateCurrWrr_groupPath (s : System) (c : Cpu) :
    (updateCurrWrr s c).groupPath = s.groupPath := by
  unfold updateCurrWrr
  split <;> rfl

/-- `put_prev_task_wrr`. -/
def putPrevTaskWrr (s : System) (c : Cpu) (_p : Pid) : System := updateCurrWrr s c

/-- `set_curr_task_wrr`. -/
def setCurrTaskWrr (s : System) (c : Cpu) : System := s.startExec c (s.rq c).curr

/-! ## The path buffer -/

/-- Writing the NUL-terminated `path` to the front of the buffer. -/
def writePath (buf : Nat → Char) (path : List Char) : Nat → Char := fun i =>
  -- the buffer behind the NUL keeps what earlier calls wrote
  if i < path.length then path.getD i '\x00' else if i = path.length then '\x00' else buf i

/-- `task_group_path`: the buffer it returns is the static `group_path`. -/
def taskGroupPath (cfg : Config) (s : System) (tg : Nat) : System :=
  match (cfg.group tg).autogroupPath with
  -- `autogroup_path` returned non-zero
  | some path => { s with groupPath := writePath s.groupPath path }
  | none =>
    match (cfg.group tg).cgroupPath with
    -- `css.cgroup` is NULL: `group_path[0] = '\0'` and no more
    | none => { s with groupPath := Function.update s.groupPath 0 '\x00' }
    | some path => { s with groupPath := writePath s.groupPath path }

/-- `task_group_path` writes the buffer and nothing else. -/
theorem taskGroupPath_eq (cfg : Config) (s : System) (tg : Nat) : taskGroupPath cfg s tg =
    { s with groupPath := (taskGroupPath cfg s tg).groupPath } := by
  unfold taskGroupPath
  split
  · rfl
  · split <;> rfl

theorem taskGroupPath_task (cfg : Config) (s : System) (tg : Nat) :
    (taskGroupPath cfg s tg).task = s.task := by
  rw [taskGroupPath_eq]

theorem taskGroupPath_se (cfg : Config) (s : System) (tg : Nat) :
    (taskGroupPath cfg s tg).se = s.se := by
  rw [taskGroupPath_eq]

theorem taskGroupPath_needResched (cfg : Config) (s : System) (tg : Nat) :
    (taskGroupPath cfg s tg).needResched = s.needResched := by
  rw [taskGroupPath_eq]

theorem taskGroupPath_rq (cfg : Config) (s : System) (tg : Nat) :
    (taskGroupPath cfg s tg).rq = s.rq := by
  rw [taskGroupPath_eq]

/-- `task_group_path(tg)[1] != 'b'`, read after the call. -/
def System.foreground (s : System) : Bool := s.groupPath 1 != 'b'

/-! ## Queueing -/

namespace WrrCommon

variable (sePrio : Task → Nat)

/-- `dequeue_wrr_entity`. -/
def dequeueWrrEntity (s : System) (p : Pid) : System :=
  let c := (s.task p).cpu
  let wrr := (s.rq c).wrr
  let prio := sePrio (s.task p)
  let array := wrr.active.listDelInit p
  let array := if (array.queue prio).isEmpty then array.clearBit prio else array
  let nr := wrr.wrrNrRunning - 1
  s.setWrr c
    { active := array
      wrrNrRunning := nr
      onLeafList := if nr = 0 then false else wrr.onLeafList }

/-- `enqueue_wrr_entity`. -/
def enqueueWrrEntity (s : System) (p : Pid) (head : Bool) : System :=
  let c := (s.task p).cpu
  let wrr := (s.rq c).wrr
  let prio := sePrio (s.task p)
  let leaf := if wrr.wrrNrRunning = 0 then true else wrr.onLeafList
  let array := wrr.active.listAddAt head p prio
  s.setWrr c
    { active := array.setBit prio
      wrrNrRunning := wrr.wrrNrRunning + 1
      onLeafList := leaf }

/-- `dequeue_task_wrr`. -/
def dequeueTaskWrr (s : System) (c : Cpu) (p : Pid) : System :=
  let s := updateCurrWrr s c
  let s := dequeueWrrEntity sePrio s p
  s.decNrRunning c

/-- `enqueue_task_wrr`. -/
def enqueueTaskWrr (s : System) (c : Cpu) (p : Pid) (flags : Nat) : System :=
  let s := enqueueWrrEntity sePrio s p (enqueueHead flags)
  s.incNrRunning c

end WrrCommon

/-- The test of `BUG_ON(idx >= MAX_WRR_PRIO)` in `pick_next_task_wrr`. -/
def pickBugOn (s : System) (c : Cpu) : Bool :=
  (s.rq c).wrr.wrrNrRunning != 0 &&
    decide (maxWrrPrio ≤ (s.rq c).wrr.active.findFirstBit maxWrrPrio)

/-- `pick_next_task_wrr`: the head of the first queue whose bit is set. -/
def pickNextTaskWrr (s : System) (c : Cpu) : Option Pid × System :=
  let wrr := (s.rq c).wrr
  if wrr.wrrNrRunning = 0 then (none, s)
  else
    let idx := wrr.active.findFirstBit maxWrrPrio
    match (wrr.active.queue idx).head? with
    -- an empty list here would make `list_entry` return the list head itself
    | none => (none, s)
    | some p => (some p, s.startExec c p)

end LinuxWrr
