import LinuxWrr.Sched.WrrCommon

/-!
# The random multilevel feedback class (`wrr_RMLFQ.c`)

Level `i` of the priority array holds the tasks with `rt_priority = 99 - i`. A requeue
draws a random word and moves the task ten levels down, ten levels up, or leaves it;
at the lowest and the highest stage a move is only a rotation. `times` counts how
often the task has stayed, and shifts the odds towards a move.
-/

namespace LinuxWrr.Rmlfq

/-- `UNSIGNED_MAX`. -/
def unsignedMax : Nat := 4294967295

/-- `wrr_se_prio`. Every task has `rt_priority` at most 99. -/
def wrrSePrio (t : Task) : Nat := 99 - t.rtPriority

/-- `wrr_task_prio`. -/
def wrrTaskPrio (t : Task) : Nat := 99 - t.rtPriority

def dequeueTaskWrr : System → Cpu → Pid → System := WrrCommon.dequeueTaskWrr wrrSePrio

def enqueueTaskWrr : System → Cpu → Pid → Nat → System := WrrCommon.enqueueTaskWrr wrrSePrio

/-- `(p->times + prio/20) * UNSIGNED_MAX / 10`: the sum is an `unsigned int`, the
product has the type of the literal. -/
def downThreshold (cfg : Config) (times prio : Nat) : Nat :=
  (times + prio / 20) % 2 ^ 32 * unsignedMax % 2 ^ cfg.longBits / 10

/-- `(5 - p->times + prio/20) * UNSIGNED_MAX / 10`. -/
def upThreshold (cfg : Config) (times prio : Nat) : Nat :=
  (5 + (2 ^ 32 - times) + prio / 20) % 2 ^ 32 * unsignedMax % 2 ^ cfg.longBits / 10

/-- The body of the two moving branches of `requeue_task_wrr`: link the task in the
queue of `stage`, and unless the task is at the edge (`inside` is false, and `stage`
is its own level) update the bitmap and `rt_priority`. -/
def changeStage (s : System) (c : Cpu) (p : Pid) (head : Bool) (prio stage : Nat)
    (inside : Bool) (rtPriority : Nat) : System :=
  let array := (s.rq c).wrr.active
  let array := (array.listDelInit p).listAddAt head p stage
  if inside then
    let array := if (array.queue prio).isEmpty then array.clearBit prio else array
    let array := array.setBit stage
    (s.setActive c array).updTask p fun t => { t with times := 1, rtPriority := rtPriority }
  else (s.setActive c array).updTask p fun t => { t with times := 1 }

/-- `requeue_task_wrr`, with the word `getRand` returns. -/
def requeueTaskWrr (cfg : Config) (s : System) (c : Cpu) (p : Pid) (head : Bool)
    (rand : UInt32) : System :=
  let r := rand.toNat
  let t := s.task p
  let prio := wrrTaskPrio t
  let highQueue := if prio < 90 then prio + 10 else prio
  let lowQueue := if prio > 9 then prio - 10 else prio
  if r < downThreshold cfg t.times prio then
    -- go down to the low stage
    changeStage s c p head prio lowQueue (decide (prio > 9)) (t.rtPriority + 10)
  else if r > upThreshold cfg t.times prio then
    -- go up to the high stage
    changeStage s c p head prio highQueue (decide (prio < 90)) (t.rtPriority - 10)
  else
    -- stay in the current stage
    let array := (s.rq c).wrr.active
    (s.setActive c ((array.listDelInit p).listAddAt head p prio)).updTask p fun t =>
      { t with times := (t.times + 1) % 2 ^ 32 }

/-- `yield_task_wrr`. -/
def yieldTaskWrr (cfg : Config) (s : System) (c : Cpu) (rand : UInt32) : System :=
  requeueTaskWrr cfg s c (s.rq c).curr false rand

/-- `check_preempt_curr_wrr`. -/
def checkPreemptCurrWrr (s : System) (c : Cpu) (p : Pid) : System :=
  if wrrTaskPrio (s.task p) < wrrTaskPrio (s.task (s.rq c).curr) then s.reschedCurr c else s

/-- The slice of a task at `prio` in the group whose path was just written. -/
def refill (cfg : Config) (s : System) (prio : Nat) : Nat :=
  let stage := prio / 10 + 1
  if s.foreground then cfg.wrrForeTimeslice * stage else cfg.wrrBackTimeslice

/-- Give `p` a new slice. -/
def refillSlice (cfg : Config) (s : System) (p : Pid) : System :=
  let prio := wrrTaskPrio (s.task p)
  let s := taskGroupPath cfg s (s.task p).schedTaskGroup
  let slice := refill cfg s prio
  s.updTask p fun t => { t with timeSlice := slice }

/-- `task_tick_wrr` once the slice is used up. -/
def sliceExpired (cfg : Config) (s : System) (c : Cpu) (p : Pid) (rand : UInt32) : System :=
  -- the slice is that of the stage before the requeue
  let s := refillSlice cfg s p
  let s := s.setTskNeedResched p
  requeueTaskWrr cfg s c p false rand

/-- `task_tick_wrr`. -/
def taskTickWrr (cfg : Config) (s : System) (c : Cpu) (p : Pid) (rand : UInt32) : System :=
  let s := updateCurrWrr s c
  if (s.task p).policy ≠ .wrr then s
  else
    let ts := decU32 (s.task p).timeSlice
    let s := s.updTask p fun t => { t with timeSlice := ts }
    -- `if (--p->wrr.time_slice) return`
    if ts ≠ 0 then s else sliceExpired cfg s c p rand

section Tick

variable {cfg : Config} {s : System} {c : Cpu} {p : Pid} {rand : UInt32}

/-- Only a task whose policy is `SCHED_WRR` is counted. -/
theorem taskTickWrr_eq_charge (hpolicy : (s.task p).policy ≠ .wrr) :
    taskTickWrr cfg s c p rand = updateCurrWrr s c := by
  simp only [taskTickWrr, updateCurrWrr_task, if_pos hpolicy]

theorem taskTickWrr_eq_count (hpolicy : (s.task p).policy = .wrr)
    (hts : decU32 (s.task p).timeSlice ≠ 0) : taskTickWrr cfg s c p rand =
      (updateCurrWrr s c).updTask p fun t =>
        { t with timeSlice := decU32 (s.task p).timeSlice } := by
  simp only [taskTickWrr, updateCurrWrr_task, if_neg (not_not.mpr hpolicy), if_pos hts]

theorem taskTickWrr_eq_expired (hpolicy : (s.task p).policy = .wrr)
    (hts : decU32 (s.task p).timeSlice = 0) : taskTickWrr cfg s c p rand =
      sliceExpired cfg ((updateCurrWrr s c).updTask p fun t => { t with timeSlice := 0 }) c p
        rand := by
  simp only [taskTickWrr, updateCurrWrr_task, if_neg (not_not.mpr hpolicy), hts,
    if_neg (not_not.mpr rfl)]

/-- What a tick does after it has charged the task: nothing, count the slice down, or find it
used up. -/
theorem taskTickWrr_cases (cfg : Config) (s : System) (c : Cpu) (p : Pid) (rand : UInt32) :
    (s.task p).policy ≠ .wrr ∧ taskTickWrr cfg s c p rand = updateCurrWrr s c ∨
    (s.task p).policy = .wrr ∧ decU32 (s.task p).timeSlice ≠ 0 ∧
      taskTickWrr cfg s c p rand = ((updateCurrWrr s c).updTask p fun t =>
        { t with timeSlice := decU32 (s.task p).timeSlice }) ∨
    (s.task p).policy = .wrr ∧ decU32 (s.task p).timeSlice = 0 ∧
      taskTickWrr cfg s c p rand =
        sliceExpired cfg ((updateCurrWrr s c).updTask p fun t => { t with timeSlice := 0 }) c p
          rand := by
  by_cases hpolicy : (s.task p).policy = .wrr
  · by_cases hts : decU32 (s.task p).timeSlice = 0
    · exact .inr (.inr ⟨hpolicy, hts, taskTickWrr_eq_expired hpolicy hts⟩)
    · exact .inr (.inl ⟨hpolicy, hts, taskTickWrr_eq_count hpolicy hts⟩)
  · exact .inl ⟨hpolicy, taskTickWrr_eq_charge hpolicy⟩

end Tick

/-- `get_rr_interval_wrr`. -/
def getRrIntervalWrr (cfg : Config) (s : System) (task : Option Pid) : Nat × System :=
  match task with
  | none => (2 ^ 32 - 22, s)
  | some p =>
    let prio := wrrTaskPrio (s.task p)
    let s := taskGroupPath cfg s (s.task p).schedTaskGroup
    (refill cfg s prio, s)

/-- `switched_to_wrr`. -/
def switchedToWrr (s : System) (c : Cpu) (p : Pid) : System :=
  if (s.task p).onRq ∧ (s.rq c).curr ≠ p then
    if wrrTaskPrio (s.task p) < wrrTaskPrio (s.task (s.rq c).curr) then s.reschedCurr c else s
  else s

/-- `wrr_sched_class` of `wrr_RMLFQ.c`. -/
def wrrSchedClass (cfg : Config) : SchedClass where
  enqueueTask := enqueueTaskWrr
  dequeueTask := dequeueTaskWrr
  yieldTask s c o := yieldTaskWrr cfg s c o.rand
  checkPreemptCurr s c p _ := checkPreemptCurrWrr s c p
  pickNextTask s c _ := pickNextTaskWrr s c
  putPrevTask := putPrevTaskWrr
  setCurrTask := setCurrTaskWrr
  taskTick s c p o := taskTickWrr cfg s c p o.rand
  switchedFrom s _ _ _ := s
  switchedTo s c p _ := switchedToWrr s c p
  prioChanged s _ _ _ _ := s

end LinuxWrr.Rmlfq
