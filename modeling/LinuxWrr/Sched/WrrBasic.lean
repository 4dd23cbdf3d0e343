import LinuxWrr.Sched.WrrCommon

/-!
# The basic WRR class (`wrr_basic.c`)

Level `i` of the priority array holds the tasks with `rt_priority = i`, and
`pick_next_task_wrr` takes the lowest index first.
-/

namespace LinuxWrr.Basic

/-- `wrr_se_prio`. -/
def wrrSePrio (t : Task) : Nat := t.rtPriority

def dequeueTaskWrr : System → Cpu → Pid → System := WrrCommon.dequeueTaskWrr wrrSePrio

def enqueueTaskWrr : System → Cpu → Pid → Nat → System := WrrCommon.enqueueTaskWrr wrrSePrio

/-- `requeue_task_wrr`: `list_move` or `list_move_tail` within the task's level. -/
def requeueTaskWrr (s : System) (c : Cpu) (p : Pid) (head : Bool) : System :=
  let array := (s.rq c).wrr.active
  let queue := wrrSePrio (s.task p)
  s.setActive c ((array.listDelInit p).listAddAt head p queue)

/-- `yield_task_wrr`. -/
def yieldTaskWrr (s : System) (c : Cpu) : System := requeueTaskWrr s c (s.rq c).curr false

/-- `check_preempt_curr_wrr`. -/
def checkPreemptCurrWrr (s : System) (c : Cpu) (p : Pid) : System :=
  -- the pick takes the lowest index first, this asks for a higher one
  if (s.task p).rtPriority > (s.task (s.rq c).curr).rtPriority then s.reschedCurr c else s

/-- `wrr_se->run_list.prev != wrr_se->run_list.next`. -/
def notAlone (s : System) (c : Cpu) (p : Pid) : Bool :=
  (s.rq c).wrr.active.notAlone p (wrrSePrio (s.task p))

/-- The slice of the group whose path was just written. -/
def refill (cfg : Config) (s : System) : Nat :=
  if s.foreground then cfg.wrrForeTimeslice else cfg.wrrBackTimeslice

/-- Give `p` a new slice. -/
def refillSlice (cfg : Config) (s : System) (p : Pid) : System :=
  let s := taskGroupPath cfg s (s.task p).schedTaskGroup
  let slice := refill cfg s
  s.updTask p fun t => { t with timeSlice := slice }

/-- `task_tick_wrr` once the slice is used up: requeue to the end of the queue unless
we are its only element. -/
def sliceExpired (cfg : Config) (s : System) (c : Cpu) (p : Pid) : System :=
  let s := refillSlice cfg s p
  -- the current task goes to the end of its queue, if there is another
  if notAlone s c p then (requeueTaskWrr s c p false).setTskNeedResched p else s

/-- `task_tick_wrr`. -/
def taskTickWrr (cfg : Config) (s : System) (c : Cpu) (p : Pid) : System :=
  let s := updateCurrWrr s c
  if (s.task p).policy ≠ .wrr then s
  else
    let ts := decU32 (s.task p).timeSlice
    let s := s.updTask p fun t => { t with timeSlice := ts }
    -- `if (--p->wrr.time_slice) return`
    if ts ≠ 0 then s else sliceExpired cfg s c p

section Tick

variable {cfg : Config} {s : System} {c : Cpu} {p : Pid}

/-- Only a task whose policy is `SCHED_WRR` is counted. -/
theorem taskTickWrr_eq_charge (hpolicy : (s.task p).policy ≠ .wrr) :
    taskTickWrr cfg s c p = updateCurrWrr s c := by
  simp only [taskTickWrr, updateCurrWrr_task, if_pos hpolicy]

theorem taskTickWrr_eq_count (hpolicy : (s.task p).policy = .wrr)
    (hts : decU32 (s.task p).timeSlice ≠ 0) : taskTickWrr cfg s c p =
      (updateCurrWrr s c).updTask p fun t =>
        { t with timeSlice := decU32 (s.task p).timeSlice } := by
  simp only [taskTickWrr, updateCurrWrr_task, if_neg (not_not.mpr hpolicy), if_pos hts]

theorem taskTickWrr_eq_expired (hpolicy : (s.task p).policy = .wrr)
    (hts : decU32 (s.task p).timeSlice = 0) : taskTickWrr cfg s c p =
      sliceExpired cfg ((updateCurrWrr s c).updTask p fun t => { t with timeSlice := 0 }) c p := by
  simp only [taskTickWrr, updateCurrWrr_task, if_neg (not_not.mpr hpolicy), hts,
    if_neg (not_not.mpr rfl)]

/-- What a tick does after it has charged the task: nothing, count the slice down, or find it
used up. -/
theorem taskTickWrr_cases (cfg : Config) (s : System) (c : Cpu) (p : Pid) :
    (s.task p).policy ≠ .wrr ∧ taskTickWrr cfg s c p = updateCurrWrr s c ∨
    (s.task p).policy = .wrr ∧ decU32 (s.task p).timeSlice ≠ 0 ∧
      taskTickWrr cfg s c p = ((updateCurrWrr s c).updTask p fun t =>
        { t with timeSlice := decU32 (s.task p).timeSlice }) ∨
    (s.task p).policy = .wrr ∧ decU32 (s.task p).timeSlice = 0 ∧
      taskTickWrr cfg s c p =
        sliceExpired cfg ((updateCurrWrr s c).updTask p fun t => { t with timeSlice := 0 })
          c p := by
  by_cases hpolicy : (s.task p).policy = .wrr
  · by_cases hts : decU32 (s.task p).timeSlice = 0
    · exact .inr (.inr ⟨hpolicy, hts, taskTickWrr_eq_expired hpolicy hts⟩)
    · exact .inr (.inl ⟨hpolicy, hts, taskTickWrr_eq_count hpolicy hts⟩)
  · exact .inl ⟨hpolicy, taskTickWrr_eq_charge hpolicy⟩

end Tick

/-- `get_rr_interval_wrr`. -/
def getRrIntervalWrr (cfg : Config) (s : System) (task : Option Pid) : Nat × System :=
  match task with
  | none => (2 ^ 32 - 22, s)
  | some p =>
    let s := taskGroupPath cfg s (s.task p).schedTaskGroup
    (refill cfg s, s)

/-- `switched_to_wrr`. -/
def switchedToWrr (s : System) (c : Cpu) (p : Pid) : System :=
  if (s.task p).onRq ∧ (s.rq c).curr ≠ p then
    if (s.task p).rtPriority < (s.task (s.rq c).curr).rtPriority then s.reschedCurr c else s
  else s

/-- `wrr_sched_class` of `wrr_basic.c`. -/
def wrrSchedClass (cfg : Config) : SchedClass where
  enqueueTask := enqueueTaskWrr
  dequeueTask := dequeueTaskWrr
  yieldTask s c _ := yieldTaskWrr s c
  checkPreemptCurr s c p _ := checkPreemptCurrWrr s c p
  pickNextTask s c _ := pickNextTaskWrr s c
  putPrevTask := putPrevTaskWrr
  setCurrTask := setCurrTaskWrr
  taskTick s c p _ := taskTickWrr cfg s c p
  switchedFrom s _ _ _ := s
  switchedTo s c p _ := switchedToWrr s c p
  prioChanged s _ _ _ _ := s

end LinuxWrr.Basic
