import LinuxWrr.Sched.Stage

/-!
# Slices and stays of the random multilevel feedback class

Three places write the slice and the stay counter of a `SCHED_WRR` task: `__setscheduler`
when the task takes the policy, `sched_fork` by copying them, and the tick and the yield
through `requeue_task_wrr`.

- `WrrStep`: **what one operation can do to the slice and the stay counter** of a
  `SCHED_WRR` task (`exec_wrrStep`). The two invariants below are derived from it alone.
- `Watched`, `watch`: runs that count how often a task has stayed in its stage in a row, and
  how many ticks of its slice it has used.
- `stays_reach`: no task stays more than twice, with thresholds that do not wrap.
- `slice_reach`: every slice is positive and at most ten foreground slices.
- `expiry_slice_iff`: when the slice after an expiry is that of the new stage.
-/

namespace LinuxWrr

variable {cfg : Config} {s t : System} {c : Cpu} {p q : Pid} {rand : UInt32}

/-! ## Requeues and ticks -/

/-- The move of a task depends on its counter, its priority and the random word. -/
theorem Task.stageMove_congr {f g : Task} (htimes : f.times = g.times)
    (hrtp : f.rtPriority = g.rtPriority) (rand : UInt32) :
    f.stageMove cfg rand = g.stageMove cfg rand := by
  unfold Task.stageMove Rmlfq.wrrTaskPrio
  rw [htimes, hrtp]

/-! ## The slice -/

/-- What `task_group_path(tg)[1] != 'b'` says. -/
def System.foregroundOf (cfg : Config) (s : System) (tg : Nat) : Bool :=
  (taskGroupPath cfg s tg).foreground

/-- The path that is written depends on the buffer and the group only. -/
theorem taskGroupPath_groupPath_congr (cfg : Config) (h : t.groupPath = s.groupPath) (tg : Nat) :
    (taskGroupPath cfg t tg).groupPath = (taskGroupPath cfg s tg).groupPath := by
  unfold taskGroupPath
  cases (cfg.group tg).autogroupPath with
  | some path => simp only [h]
  | none =>
    cases (cfg.group tg).cgroupPath with
    | some path => simp only [h]
    | none => simp only [h]

/-- The ground of a group depends on the buffer only. -/
theorem System.foregroundOf_congr {tg : Nat} (h : t.groupPath = s.groupPath) :
    t.foregroundOf cfg tg = s.foregroundOf cfg tg := by
  unfold System.foregroundOf System.foreground
  rw [taskGroupPath_groupPath_congr cfg h]

namespace Rmlfq

/-- The slice `get_rr_interval_wrr` reports, which is the one the tick refills with. -/
def interval (cfg : Config) (s : System) (p : Pid) : Nat := (getRrIntervalWrr cfg s (some p)).1

/-- The slice of a task at `prio`, in the foreground or not. -/
def sliceAt (cfg : Config) (fore : Bool) (prio : Nat) : Nat :=
  if fore then cfg.wrrForeTimeslice * (prio / 10 + 1) else cfg.wrrBackTimeslice

/-- A refill is the slice of the level, in the foreground or the background. -/
theorem refill_eq (cfg : Config) (s : System) (prio : Nat) :
    refill cfg s prio = sliceAt cfg s.foreground prio := rfl

/-- The interval that is asked for is what a refill would give. -/
theorem interval_refill (cfg : Config) (s : System) (p : Pid) : interval cfg s p =
    refill cfg (taskGroupPath cfg s (s.task p).schedTaskGroup) (wrrTaskPrio (s.task p)) := by
  rw [interval, getRrIntervalWrr]

/-- The interval depends on the group's ground and on the level. -/
theorem interval_eq (cfg : Config) (s : System) (p : Pid) : interval cfg s p =
    sliceAt cfg (s.foregroundOf cfg (s.task p).schedTaskGroup) (wrrTaskPrio (s.task p)) := by
  rw [interval_refill, refill_eq, System.foregroundOf]

/-- A refill writes the path buffer and the slice. -/
theorem refillSlice_eq (cfg : Config) (s : System) (p : Pid) : refillSlice cfg s p =
    (taskGroupPath cfg s (s.task p).schedTaskGroup).updTask p fun t =>
      { t with timeSlice := interval cfg s p } := by
  rw [interval_refill, refillSlice]

/-- A refill writes the slice of its task and nothing else of any task. -/
theorem refillSlice_task (cfg : Config) (s : System) (p : Pid) : (refillSlice cfg s p).task =
    Function.update s.task p { s.task p with timeSlice := interval cfg s p } := by
  rw [refillSlice_eq, System.updTask_task, taskGroupPath_task]

/-- An expired slice refills the task at its old level and relabels it for the new one. -/
theorem sliceExpired_task (hle : (s.task p).rtPriority ≤ 99) :
    (sliceExpired cfg s c p rand).task =
      Function.update s.task p (((s.task p).stageMove cfg rand).relabel
        { s.task p with timeSlice := interval cfg s p }) := by
  have htask : ((refillSlice cfg s p).setTskNeedResched p).task =
      Function.update s.task p { s.task p with timeSlice := interval cfg s p } :=
    refillSlice_task cfg s p
  rw [sliceExpired]
  generalize (refillSlice cfg s p).setTskNeedResched p = u at htask
  have hself : u.task p = { s.task p with timeSlice := interval cfg s p } := by
    rw [htask, Function.update_self]
  have hle' : (u.task p).rtPriority ≤ 99 := by
    rw [hself]
    exact hle
  have hmove : (u.task p).stageMove cfg rand = (s.task p).stageMove cfg rand := by
    rw [hself]
    exact Task.stageMove_congr rfl rfl rand
  rw [requeueTaskWrr_task u c hle', hmove, hself, htask, Function.update_idem]

/-- A tick within a slice takes one from it. -/
theorem taskTickWrr_counted (hpolicy : (s.task p).policy = .wrr)
    (hts : decU32 (s.task p).timeSlice ≠ 0) : (taskTickWrr cfg s c p rand).task =
      Function.update s.task p { s.task p with timeSlice := decU32 (s.task p).timeSlice } := by
  rw [taskTickWrr_eq_count hpolicy hts, System.updTask_task, updateCurrWrr_task]

/-- What the path buffer decides is the same after accounting. -/
theorem interval_spent (cfg : Config) (s : System) (c : Cpu) (p : Pid) :
    interval cfg ((updateCurrWrr s c).updTask p fun t => { t with timeSlice := 0 }) p =
      interval cfg s p := by
  have hpath : ((updateCurrWrr s c).updTask p fun t => { t with timeSlice := 0 }).groupPath =
      s.groupPath := updateCurrWrr_groupPath s c
  rw [interval_eq, interval_eq, System.foregroundOf_congr hpath, System.updTask_task,
    Function.update_self, updateCurrWrr_task]
  simp only [wrrTaskPrio]

/-- The slice is refilled for the old stage, and then the task is requeued. -/
theorem taskTickWrr_expired (hpolicy : (s.task p).policy = .wrr)
    (hts : decU32 (s.task p).timeSlice = 0) (hle : (s.task p).rtPriority ≤ 99) :
    (taskTickWrr cfg s c p rand).task =
      Function.update s.task p (((s.task p).stageMove cfg rand).relabel
        { s.task p with timeSlice := interval cfg s p }) := by
  have hself : ((updateCurrWrr s c).updTask p fun t => { t with timeSlice := 0 }).task p =
      { s.task p with timeSlice := 0 } := by
    rw [System.updTask_task, updateCurrWrr_task, Function.update_self]
  rw [taskTickWrr_eq_expired hpolicy hts, sliceExpired_task (by rwa [hself]), interval_spent, hself,
    System.updTask_task, updateCurrWrr_task, Function.update_idem,
    Task.stageMove_congr (f := { s.task p with timeSlice := 0 }) (g := s.task p) rfl rfl]

end Rmlfq

/-! ## What one operation does -/

/-- The task an operation requeues, and the random word. -/
def Op.requeues (s : System) : Op → Option (Pid × UInt32)
  | .yield c o | .schedYield c o =>
    if (s.task (s.rq c).curr).schedClass = .wrr then some ((s.rq c).curr, o.rand) else none
  | .tick c o =>
    if (s.task (s.rq c).curr).schedClass = .wrr ∧ (s.task (s.rq c).curr).policy = .wrr ∧
        decU32 (s.task (s.rq c).curr).timeSlice = 0 then some ((s.rq c).curr, o.rand) else none
  | .requeue p _ rand => some (p, rand)
  | _ => none

/-- The task whose slice an operation counts down. -/
def Op.counts (s : System) : Op → Option Pid
  | .tick c _ =>
    if (s.task (s.rq c).curr).schedClass = .wrr ∧ (s.task (s.rq c).curr).policy = .wrr
      then some (s.rq c).curr else none
  | _ => none

/-- The task that an operation gives a new slice and a new place: by `__setscheduler`, or by
a fork. -/
def Op.starts : Op → Option Pid
  | .setscheduler p _ _ _ _ => some p
  | .fork _ child => some child
  | _ => none

/-- What an operation can have done to a task `q` that is live and `SCHED_WRR` in `t`. -/
inductive WrrStep (cfg : Config) (s t : System) (op : Op) (q : Pid) : Prop where
  | same (hstart : op.starts ≠ some q) (hcount : op.counts s ≠ some q)
      (hreq : ∀ rand, op.requeues s ≠ some (q, rand))
      (halive : (s.task q).alive = true) (hpolicy : (s.task q).policy = .wrr)
      (hslice : (t.task q).timeSlice = (s.task q).timeSlice)
      (htimes : (t.task q).times = (s.task q).times)
  | entered (hstart : op.starts = some q)
      (hslice : ∃ u, (t.task q).timeSlice = Rmlfq.interval cfg u q)
      (htimes : (t.task q).times = 1)
  | forked (hstart : op.starts = some q) {parent : Pid}
      (halive : (s.task parent).alive = true) (hpolicy : (s.task parent).policy = .wrr)
      (hslice : (t.task q).timeSlice = (s.task parent).timeSlice)
      (htimes : (t.task q).times = (s.task parent).times)
  | counted (hstart : op.starts ≠ some q) (hcount : op.counts s = some q)
      (hreq : ∀ rand, op.requeues s ≠ some (q, rand))
      (halive : (s.task q).alive = true) (hpolicy : (s.task q).policy = .wrr)
      (hleft : decU32 (s.task q).timeSlice ≠ 0)
      (hslice : (t.task q).timeSlice = decU32 (s.task q).timeSlice)
      (htimes : (t.task q).times = (s.task q).times)
  | requeued (hstart : op.starts ≠ some q) {rand : UInt32}
      (hreq : op.requeues s = some (q, rand))
      (halive : (s.task q).alive = true) (hpolicy : (s.task q).policy = .wrr)
      (hslice : op.counts s ≠ some q ∧ (t.task q).timeSlice = (s.task q).timeSlice ∨
        op.counts s = some q ∧ decU32 (s.task q).timeSlice = 0 ∧
          (t.task q).timeSlice = Rmlfq.interval cfg s q)
      (htimes : (t.task q).times = ((s.task q).stageMove cfg rand).times (s.task q).times)

/-- The fields `WrrStep` is about. -/
def Task.counters (t : Task) : Bool × Policy × Nat × Nat :=
  (t.alive, t.policy, t.timeSlice, t.times)

/-- Two tasks have the same counters if they agree on being alive, policy, slice and times. -/
theorem Task.counters_eq_iff {f g : Task} : f.counters = g.counters ↔ f.alive = g.alive ∧
    f.policy = g.policy ∧ f.timeSlice = g.timeSlice ∧ f.times = g.times := by
  simp only [Task.counters, Prod.mk.injEq]

/-- Where a task is queued does not show in its counters. -/
theorem counters_blind : PlaceBlind Task.counters := fun _ _ _ _ => rfl

/-- A step that leaves the counters of a WRR task alone is accounted for. -/
theorem WrrStep.of_same {op : Op} (hsame : (t.task q).counters = (s.task q).counters)
    (hstart : op.starts ≠ some q) (hcount : op.counts s ≠ some q)
    (hreq : ∀ rand, op.requeues s ≠ some (q, rand)) (halive : (t.task q).alive = true)
    (hpolicy : (t.task q).policy = .wrr) : WrrStep cfg s t op q := by
  obtain ⟨ha, hp, hslice, htimes⟩ := Task.counters_eq_iff.mp hsame
  exact .same hstart hcount hreq (ha ▸ halive) (hp ▸ hpolicy) hslice htimes

/-- Rewriting a task outside the view changes nothing of the view. -/
theorem SameOn.updTask {α : Type} {π : Task → α} {f : Task → Task} (hf : ∀ t, π (f t) = π t)
    (s : System) (p : Pid) : SameOn π s (s.updTask p f) := by
  intro q
  rw [System.updTask_task]
  by_cases hq : q = p
  · rw [hq, Function.update_self, hf]
  · rw [Function.update_of_ne hq]

theorem requeueTaskRt_task (s : System) (p : Pid) (head : Bool) :
    (Rt.requeueTaskRt s p head).task = s.task := by
  unfold Rt.requeueTaskRt
  split <;> rfl

/-- The RT tick counts the RT slice and leaves the WRR counters alone. -/
theorem taskTickRt_sameOn {α : Type} {π : Task → α}
    (hπ : ∀ t n, π { t with rtTimeSlice := n } = π t) (cfg : Config) (s : System) (c : Cpu)
    (p : Pid) : SameOn π s (Rt.taskTickRt cfg s c p) := by
  have htick : ∀ (s : System) (n : Nat),
      SameOn π s (s.updTask p fun t => { t with rtTimeSlice := n }) :=
    fun s n => SameOn.updTask (f := fun t : Task => { t with rtTimeSlice := n }) (hπ · n) s p
  unfold Rt.taskTickRt
  dsimp only
  refine (SameOn.of_task (Rt.updateCurrRt_task s c)).trans ?_
  generalize Rt.updateCurrRt s c = u
  split
  · exact SameOn.refl _ u
  · refine (htick u (decU32 (u.task p).rtTimeSlice)).trans ?_
    split
    · exact SameOn.refl _ _
    · refine (htick _ cfg.rrTimeslice).trans ?_
      split
      · exact SameOn.of_task (requeueTaskRt_task _ p false)
      · exact SameOn.refl _ _

/-- A task that enters the class gets a slice and starts to count. -/
theorem enterWrr_slice (hcfg : cfg.wrr = .rmlfq) (s : System) (p : Pid) :
    (∃ u, ((enterWrr cfg s p).task p).timeSlice = Rmlfq.interval cfg u p) ∧
      ((enterWrr cfg s p).task p).times = 1 := by
  have hinterval : ∀ u, (getRrIntervalWrr cfg u (some p)).1 = Rmlfq.interval cfg u p := by
    intro u
    rw [getRrIntervalWrr, hcfg, Rmlfq.interval]
  rw [enterWrr, System.updTask_task, Function.update_self]
  exact ⟨⟨_, hinterval _⟩, rfl⟩

/-- `__setscheduler` to `SCHED_WRR` gives the slice of the new level, and one stay. -/
theorem changeScheduler_wrr (hcfg : cfg.wrr = .rmlfq) (s : System) (p : Pid) (reset : Bool)
    (prio : Nat) (o : Outside) :
    (∃ u, ((changeScheduler cfg s p .wrr reset prio o).task p).timeSlice =
        Rmlfq.interval cfg u p) ∧
      ((changeScheduler cfg s p .wrr reset prio o).task p).times = 1 := by
  have hbal := (checkClassChanged_balance cfg (withScheduler cfg s p .wrr reset prio)
    (s.task p).cpu p (s.task p).schedClass (s.task p).prio o).sameOn counters_blind p
  rw [← changeScheduler_eq] at hbal
  obtain ⟨-, -, hslice, htimes⟩ := Task.counters_eq_iff.mp hbal
  rw [hslice, htimes, withScheduler, putBack_task, setscheduler, if_pos rfl]
  exact enterWrr_slice hcfg _ p

/-- A WRR task yields by being requeued. -/
theorem yieldTask_wrr (hcfg : cfg.wrr = .rmlfq) {o : Outside}
    (hk : (s.task (s.rq c).curr).schedClass = .wrr) :
    yieldTask cfg s c o = Rmlfq.requeueTaskWrr cfg s c (s.rq c).curr false o.rand := by
  rw [yieldTask, hk]
  show (wrrSchedClass cfg).yieldTask s c o = _
  rw [wrrSchedClass, hcfg]
  rfl

/-- The tick of a WRR task is that of its class. -/
theorem schedulerTick_wrr (hcfg : cfg.wrr = .rmlfq) {o : Outside}
    (hk : (s.task (s.rq c).curr).schedClass = .wrr) :
    schedulerTick cfg s c o = Rmlfq.taskTickWrr cfg s c (s.rq c).curr o.rand := by
  rw [schedulerTick, hk]
  show (wrrSchedClass cfg).taskTick s c (s.rq c).curr o = _
  rw [wrrSchedClass, hcfg]
  rfl

/-- What follows an operation in the same step, and leaves slices and counters alone. -/
theorem WrrStep.congr {u : System} {op : Op} (h : WrrStep cfg s t op q)
    (hsame : (u.task q).counters = (t.task q).counters) : WrrStep cfg s u op q := by
  obtain ⟨-, -, hts, htm⟩ := Task.counters_eq_iff.mp hsame
  cases h with
  | same hstart hcount hreq halive hpolicy hslice htimes =>
    exact .same hstart hcount hreq halive hpolicy (hts.trans hslice) (htm.trans htimes)
  | entered hstart hslice htimes => exact .entered hstart (hts ▸ hslice) (htm.trans htimes)
  | forked hstart halive hpolicy hslice htimes =>
    exact .forked hstart halive hpolicy (hts.trans hslice) (htm.trans htimes)
  | counted hstart hcount hreq halive hpolicy hleft hslice htimes =>
    exact .counted hstart hcount hreq halive hpolicy hleft (hts.trans hslice) (htm.trans htimes)
  | requeued hstart hreq halive hpolicy hslice htimes =>
    exact .requeued hstart hreq halive hpolicy (hts ▸ hslice) (htm.trans htimes)

/-- An operation that leaves the slices and counters of all tasks alone. -/
theorem WrrStep.of_quiet {op : Op} (hsame : SameOn Task.counters s t) (hstart : op.starts = none)
    (hcount : op.counts s = none) (hreq : op.requeues s = none)
    (halive : (t.task q).alive = true) (hpolicy : (t.task q).policy = .wrr) :
    WrrStep cfg s t op q := by
  refine .of_same (hsame q) (fun hno => ?_) (fun hno => ?_) (fun rand hno => ?_) halive hpolicy
  · rw [hstart] at hno
    cases hno
  · rw [hcount] at hno
    cases hno
  · rw [hreq] at hno
    cases hno

/-- Steps that only place tasks start, count and requeue nothing. -/
theorem Op.places_quiet {op : Op} (hop : op.places = true) :
    op.starts = none ∧ op.counts s = none ∧ op.requeues s = none := by
  cases op with
  | fork | nice | setscheduler | setprio | normalize | tick | schedYield | yield | requeue =>
    cases hop
  | _ => exact ⟨rfl, rfl, rfl⟩

/-- An operation on another task than `q`, which it may give a new slice. -/
theorem WrrStep.of_other {op : Op} (hsame : (t.task q).counters = (s.task q).counters) {p : Pid}
    (hstart : op.starts = some p) (hq : q ≠ p) (hcount : op.counts s = none)
    (hreq : op.requeues s = none) (halive : (t.task q).alive = true)
    (hpolicy : (t.task q).policy = .wrr) : WrrStep cfg s t op q := by
  refine .of_same hsame (fun hno => ?_) (fun hno => ?_) (fun rand hno => ?_) halive hpolicy
  · rw [hstart] at hno
    exact hq (Option.some.inj hno).symm
  · rw [hcount] at hno
    cases hno
  · rw [hreq] at hno
    cases hno

/-- A requeue of `p` outside a tick is accounted for by the stage it takes. -/
theorem WrrStep.of_requeue {op : Op} (hstart : op.starts ≠ some q) (hcount : op.counts s ≠ some q)
    (hreq : op.requeues s = some (p, rand)) (hp : (s.task p).alive = true)
    (hwrr : (s.task p).policy = .wrr)
    (htask : t.task =
      Function.update s.task p (((s.task p).stageMove cfg rand).relabel (s.task p)))
    (halive : (t.task q).alive = true) (hpolicy : (t.task q).policy = .wrr) :
    WrrStep cfg s t op q := by
  by_cases hq : q = p
  · subst hq
    refine .requeued hstart hreq hp hwrr (.inl ⟨hcount, ?_⟩) ?_
    · rw [htask, Function.update_self, StageMove.relabel_timeSlice]
    · rw [htask, Function.update_self, StageMove.relabel_times]
  · refine .of_same ?_ hstart hcount (fun rand' hno => ?_) halive hpolicy
    · rw [htask, Function.update_of_ne hq]
    · rw [hreq] at hno
      exact hq (Prod.mk.inj (Option.some.inj hno)).1.symm

/-- The reset on fork spares the slice, the counter, and the policy `SCHED_WRR`. -/
theorem forkReset_counters (f : Task) : (forkReset f).timeSlice = f.timeSlice ∧
    (forkReset f).times = f.times ∧ ((forkReset f).policy = .wrr ↔ f.policy = .wrr) := by
  by_cases hreset : f.schedResetOnFork = true
  · rw [forkReset, if_pos hreset]
    by_cases hrt : rtPolicy f.policy = true
    · rw [if_pos hrt]
      refine ⟨rfl, rfl, iff_of_false (fun hno => nomatch hno) fun hwrr => ?_⟩
      rw [hwrr] at hrt
      cases hrt
    · rw [if_neg hrt]
      split <;> exact ⟨rfl, rfl, Iff.rfl⟩
  · rw [forkReset, if_neg hreset]
    exact ⟨rfl, rfl, Iff.rfl⟩

/-- A child has the slice, the counter and the policy of its parent. -/
theorem forkTask_counters (f : Task) : (forkTask f).timeSlice = f.timeSlice ∧
    (forkTask f).times = f.times ∧ ((forkTask f).policy = .wrr ↔ f.policy = .wrr) := by
  rw [forkTask, forkClass_eq]
  exact forkReset_counters (dupTask f)

/-- The state of `rt_mutex_setprio`, from the operation's point of view. -/
theorem setprio_counters {prio : Int} {waiter : Option Int} {o : Outside}
    (hidle : p ≠ (s.rq (s.task p).cpu).idle) :
    SameOn Task.counters s (exec cfg s (.setprio p prio waiter o)) := by
  obtain ⟨u, heff, hbal⟩ := setprio_effect cfg s p prio waiter o hidle
  exact (heff.sameOn rfl).trans (hbal.sameOn counters_blind)

/-- `sched_fork` is accounted for: the child starts with its parent's counters. -/
theorem schedFork_wrrStep {parent child : Pid} (hp : s.Ordinary parent)
    (halive : ((schedFork s parent child).task q).alive = true)
    (hpolicy : ((schedFork s parent child).task q).policy = .wrr) :
    WrrStep cfg s (schedFork s parent child) (.fork parent child) q := by
  have htask : (schedFork s parent child).task =
      Function.update s.task child (forkTask (s.task parent)) := rfl
  by_cases hq : q = child
  · subst hq
    obtain ⟨hslice, htimes, hwrr⟩ := forkTask_counters (s.task parent)
    rw [htask, Function.update_self] at hpolicy
    refine .forked rfl hp.1 (hwrr.mp hpolicy) ?_ ?_
    · rw [htask, Function.update_self, hslice]
    · rw [htask, Function.update_self, htimes]
  · refine .of_other ?_ rfl hq rfl rfl halive hpolicy
    rw [htask, Function.update_of_ne hq]

/-- The tick of the WRR class is accounted for. -/
theorem taskTickWrr_wrrStep {o : Outside} (h : Inv cfg s) (hon : s.CurrOnRq c)
    (hk : (s.task (s.rq c).curr).schedClass = .wrr)
    (halive : ((Rmlfq.taskTickWrr cfg s c (s.rq c).curr o.rand).task q).alive = true)
    (hpolicy : ((Rmlfq.taskTickWrr cfg s c (s.rq c).curr o.rand).task q).policy = .wrr) :
    WrrStep cfg s (Rmlfq.taskTickWrr cfg s c (s.rq c).curr o.rand) (.tick c o) q := by
  have hcurr := h.alive_of_onRq hon.1
  have hwrr := (h.task _ hcurr).wrr hk
  have hle := (h.task _ hcurr).rtPriority
  have hstart : (Op.tick c o).starts ≠ some q := fun h => nomatch h
  have hcounts : (Op.tick c o).counts s = some (s.rq c).curr := if_pos ⟨hk, hwrr⟩
  have hother : q ≠ (s.rq c).curr → (Op.tick c o).counts s ≠ some q := by
    intro hq hno
    rw [hcounts] at hno
    exact hq (Option.some.inj hno).symm
  by_cases hts : decU32 (s.task (s.rq c).curr).timeSlice = 0
  · have hrequeues : (Op.tick c o).requeues s = some ((s.rq c).curr, o.rand) :=
      if_pos ⟨hk, hwrr, hts⟩
    have htask : (Rmlfq.taskTickWrr cfg s c (s.rq c).curr o.rand).task = _ :=
      Rmlfq.taskTickWrr_expired hwrr hts hle
    by_cases hq : q = (s.rq c).curr
    · subst hq
      refine .requeued hstart hrequeues hcurr hwrr (.inr ⟨hcounts, hts, ?_⟩) ?_
      · rw [htask, Function.update_self, StageMove.relabel_timeSlice]
      · rw [htask, Function.update_self, StageMove.relabel_times]
    · refine .of_same (by rw [htask, Function.update_of_ne hq]) hstart (hother hq)
        (fun rand hno => ?_) halive hpolicy
      rw [hrequeues] at hno
      exact hq (Prod.mk.inj (Option.some.inj hno)).1.symm
  · have hreq : ∀ rand, (Op.tick c o).requeues s ≠ some (q, rand) := by
      intro rand
      rw [show (Op.tick c o).requeues s = none from if_neg fun hno => hts hno.2.2]
      exact fun hno => nomatch hno
    have htask : (Rmlfq.taskTickWrr cfg s c (s.rq c).curr o.rand).task = _ :=
      Rmlfq.taskTickWrr_counted hwrr hts
    by_cases hq : q = (s.rq c).curr
    · subst hq
      refine .counted hstart hcounts hreq hcurr hwrr hts ?_ ?_
      · rw [htask, Function.update_self]
      · rw [htask, Function.update_self]
    · exact .of_same (by rw [htask, Function.update_of_ne hq]) hstart (hother hq) hreq halive
        hpolicy

section Step

variable (hcfg : cfg.wrr = .rmlfq)

include hcfg

/-- `__sched_setscheduler` is accounted for. -/
theorem setscheduler_wrrStep {policy : Policy} {reset : Bool} {prio : Nat} {o : Outside}
    (halive : ((exec cfg s (.setscheduler p policy reset prio o)).task q).alive = true)
    (hpolicy : ((exec cfg s (.setscheduler p policy reset prio o)).task q).policy = .wrr) :
    WrrStep cfg s (exec cfg s (.setscheduler p policy reset prio o))
      (.setscheduler p policy reset prio o) q := by
  obtain ⟨u, slice, times, heff, hbal⟩ := changeScheduler_effect cfg s p policy reset prio o
  have hcounters := hbal.sameOn counters_blind
  by_cases hq : q = p
  · subst hq
    -- the task has the new policy now, so this is `SCHED_WRR`
    have hnew : policy = .wrr := by
      have hsame := hcounters q
      rw [heff.self] at hsame
      exact (Task.counters_eq_iff.mp hsame).2.1.symm.trans hpolicy
    subst hnew
    obtain ⟨hslice, htimes⟩ := changeScheduler_wrr hcfg s q reset prio o
    exact .entered rfl hslice htimes
  · refine .of_other ?_ rfl hq rfl rfl halive hpolicy
    exact (hcounters q).trans (by rw [heff.other hq])

variable (h : Inv cfg s)

include h

/-- `yield_task_wrr` and the yields of the other classes. -/
theorem yieldTask_wrrStep {o : Outside} (hpre : (s.rq c).curr = (s.rq c).idle ∨ s.CurrOnRq c)
    {op : Op} (hop : op = .yield c o ∨ op = .schedYield c o)
    (halive : ((yieldTask cfg s c o).task q).alive = true)
    (hpolicy : ((yieldTask cfg s c o).task q).policy = .wrr) :
    WrrStep cfg s (yieldTask cfg s c o) op q := by
  have hstart : op.starts ≠ some q := by rcases hop with rfl | rfl <;> exact fun h => nomatch h
  have hcount : op.counts s ≠ some q := by rcases hop with rfl | rfl <;> exact fun h => nomatch h
  have hreq : op.requeues s = if (s.task (s.rq c).curr).schedClass = .wrr
      then some ((s.rq c).curr, o.rand) else none := by
    rcases hop with rfl | rfl <;> rfl
  by_cases hk : (s.task (s.rq c).curr).schedClass = .wrr
  · rw [if_pos hk] at hreq
    have hon := h.currOnRq_of_wrr hpre hk
    have hcurr := h.alive_of_onRq hon.1
    have htask : (yieldTask cfg s c o).task = Function.update s.task (s.rq c).curr
        (((s.task (s.rq c).curr).stageMove cfg o.rand).relabel (s.task (s.rq c).curr)) := by
      rw [yieldTask_wrr hcfg hk]
      exact Rmlfq.requeueTaskWrr_task s c (h.task _ hcurr).rtPriority false o.rand
    exact .of_requeue hstart hcount hreq hcurr ((h.task _ hcurr).wrr hk) htask halive hpolicy
  · -- another class yields, and writes no counter of any task
    rw [if_neg hk] at hreq
    have htask : (yieldTask cfg s c o).task = s.task := by
      rw [yieldTask]
      cases hclass : (s.task (s.rq c).curr).schedClass with
      | rt => exact requeueTaskRt_task s _ false
      | wrr => exact absurd hclass hk
      | stop | fair | idle => rfl
    refine .of_same (by rw [htask]) hstart hcount (fun rand hno => ?_) halive hpolicy
    rw [hreq] at hno
    cases hno

/-- `scheduler_tick` is accounted for. -/
theorem schedulerTick_wrrStep {o : Outside} (hpre : (s.rq c).curr = (s.rq c).idle ∨ s.CurrOnRq c)
    (halive : ((schedulerTick cfg s c o).task q).alive = true)
    (hpolicy : ((schedulerTick cfg s c o).task q).policy = .wrr) :
    WrrStep cfg s (schedulerTick cfg s c o) (.tick c o) q := by
  by_cases hk : (s.task (s.rq c).curr).schedClass = .wrr
  · rw [schedulerTick_wrr hcfg hk] at halive hpolicy ⊢
    exact taskTickWrr_wrrStep h (h.currOnRq_of_wrr hpre hk) hk halive hpolicy
  · -- the tick of another class
    have hsame : SameOn Task.counters s (schedulerTick cfg s c o) := by
      rw [schedulerTick]
      cases hclass : (s.task (s.rq c).curr).schedClass with
      | rt => exact taskTickRt_sameOn (fun _ _ => rfl) cfg s c _
      | wrr => exact absurd hclass hk
      | fair => exact SameOn.of_task (fairHook_flagged s c o).task
      | stop | idle => exact SameOn.refl _ s
    exact .of_quiet hsame rfl (if_neg fun hno => hk hno.1) (if_neg fun hno => hk hno.1) halive
      hpolicy

/-- `requeue_task_wrr` is accounted for. -/
theorem requeue_wrrStep {head : Bool} (hpre : (Op.requeue p head rand).Pre s)
    (halive : ((exec cfg s (.requeue p head rand)).task q).alive = true)
    (hpolicy : ((exec cfg s (.requeue p head rand)).task q).policy = .wrr) :
    WrrStep cfg s (exec cfg s (.requeue p head rand)) (.requeue p head rand) q := by
  have hp := h.alive_of_onRq hpre.1
  have hok := h.task p hp
  have htask : (exec cfg s (.requeue p head rand)).task =
      Function.update s.task p (((s.task p).stageMove cfg rand).relabel (s.task p)) := by
    have hfile : exec cfg s (.requeue p head rand) =
        Rmlfq.requeueTaskWrr cfg s (s.task p).cpu p head rand := by
      show requeueTaskWrr cfg s (s.task p).cpu p head rand = _
      rw [requeueTaskWrr, hcfg]
    rw [hfile]
    exact Rmlfq.requeueTaskWrr_task s _ hok.rtPriority head rand
  have hstart : (Op.requeue p head rand).starts ≠ some q := fun hno => nomatch hno
  have hcount : (Op.requeue p head rand).counts s ≠ some q := fun hno => nomatch hno
  exact .of_requeue hstart hcount rfl hp (hok.wrr hpre.2) htask halive hpolicy

/-- **What every operation does to a `SCHED_WRR` task.** -/
theorem exec_wrrStep {op : Op} (hpre : op.Pre s) (halive : ((exec cfg s op).task q).alive = true)
    (hpolicy : ((exec cfg s op).task q).policy = .wrr) : WrrStep cfg s (exec cfg s op) op q := by
  by_cases hplaces : op.places = true
  · obtain ⟨hstart, hcount, hreq⟩ := Op.places_quiet (s := s) hplaces
    exact .of_quiet (exec_places counters_blind hplaces) hstart hcount hreq halive hpolicy
  cases op with
  | tick c o => exact schedulerTick_wrrStep hcfg h hpre halive hpolicy
  | yield c o => exact yieldTask_wrrStep hcfg h hpre (.inl rfl) halive hpolicy
  | schedYield c o =>
    -- the reschedule writes neither
    have hsame : ((schedYield cfg s c o).task q).counters =
        ((yieldTask cfg s c o).task q).counters :=
      schedule_sameOn counters_blind cfg (yieldTask cfg s c o) c false o q
    obtain ⟨ha, hp, -⟩ := Task.counters_eq_iff.mp hsame
    exact (yieldTask_wrrStep hcfg h hpre (.inr rfl) (ha.symm.trans halive)
      (hp.symm.trans hpolicy)).congr hsame
  | requeue p head rand => exact requeue_wrrStep hcfg h hpre halive hpolicy
  | setscheduler p policy reset prio o => exact setscheduler_wrrStep hcfg halive hpolicy
  | fork parent child => exact schedFork_wrrStep hpre.1 halive hpolicy
  | nice p nice =>
    refine .of_quiet ?_ rfl rfl rfl halive hpolicy
    rcases setUserNice_effect cfg s p nice with ⟨-, heq⟩ | ⟨-, ⟨-, heff⟩ | ⟨-, heff⟩⟩
    · rw [show exec cfg s (.nice p nice) = s from heq]
      exact SameOn.refl _ s
    · exact heff.sameOn rfl
    · exact heff.sameOn rfl
  | setprio p prio waiter o =>
    exact .of_quiet (setprio_counters (Ne.symm (hpre.1.2 _).1)) rfl rfl rfl halive hpolicy
  | normalize p o =>
    obtain ⟨u, slice, times, heff, hbal⟩ := normalizeTask_effect cfg s p o
    have hsame := hbal.sameOn counters_blind q
    by_cases hq : q = p
    · -- the task is `SCHED_NORMAL` now
      subst hq
      rw [heff.self] at hsame
      have hnormal := (Task.counters_eq_iff.mp hsame).2.1.symm.trans hpolicy
      cases hnormal
    · rw [heff.other hq] at hsame
      exact .of_same hsame (fun hno => nomatch hno) (fun hno => nomatch hno)
        (fun _ hno => nomatch hno) halive hpolicy
  | wakeUp | wakeUpNew | schedule | migrate | moveGroup | throttle | unthrottle | clock | enqueue
  | dequeue | pick => exact absurd rfl hplaces

end Step

/-! ## Runs that count -/

/-- A system with two counters a task: how often it has stayed in a row, and how many ticks
of its slice it has used. -/
structure Watched where
  sys : System
  stays : Pid → Nat
  ticks : Pid → Nat

/-- One stay more, or a move. -/
def StageMove.stays (n : Nat) : StageMove → Nat
  | .down | .up => 0
  | .stay => n + 1

/-- One step of a run that counts. A new place and a move start the count of the stays
afresh, a new slice that of the ticks. -/
def watch (cfg : Config) (w : Watched) (op : Op) : Watched where
  sys := exec cfg w.sys op
  stays q :=
    if op.starts = some q then 0
    else
      match op.requeues w.sys with
      | some (p, rand) =>
        if p = q then ((w.sys.task q).stageMove cfg rand).stays (w.stays q) else w.stays q
      | none => w.stays q
  ticks q :=
    if op.starts = some q then 0
    else if op.counts w.sys = some q then
      if decU32 (w.sys.task q).timeSlice = 0 then 0 else w.ticks q + 1
    else w.ticks q

/-- A freshly initialised system, whose `SCHED_WRR` tasks are as `__setscheduler` leaves
them. -/
structure WatchedBoot (cfg : Config) (w : Watched) : Prop where
  boot : Boot w.sys
  fresh : ∀ p, (w.sys.task p).alive = true → (w.sys.task p).policy = .wrr →
    (w.sys.task p).times = 1 ∧ 1 ≤ (w.sys.task p).timeSlice ∧
      (w.sys.task p).timeSlice ≤ 10 * cfg.wrrForeTimeslice
  stays : ∀ p, w.stays p = 0
  ticks : ∀ p, w.ticks p = 0

section Watch

variable {w w₀ : Watched} {op : Op}

/-- A task that starts has stayed for no move and no tick yet. -/
theorem watch_start (hstart : op.starts = some q) :
    (watch cfg w op).stays q = 0 ∧ (watch cfg w op).ticks q = 0 :=
  ⟨if_pos hstart, if_pos hstart⟩

/-- Who is not requeued keeps its number of stays. -/
theorem watch_stays_keep (hstart : op.starts ≠ some q)
    (hreq : ∀ rand, op.requeues w.sys ≠ some (q, rand)) :
    (watch cfg w op).stays q = w.stays q := by
  simp only [watch, if_neg hstart]
  cases hr : op.requeues w.sys with
  | none => rfl
  | some pair =>
    obtain ⟨p, rand⟩ := pair
    have hp : p ≠ q := by
      rintro rfl
      exact hreq rand hr
    exact if_neg hp

/-- A requeue counts a stay, or starts anew where the task moves. -/
theorem watch_stays_requeue (hstart : op.starts ≠ some q)
    (hreq : op.requeues w.sys = some (q, rand)) :
    (watch cfg w op).stays q = ((w.sys.task q).stageMove cfg rand).stays (w.stays q) := by
  simp only [watch, if_neg hstart, hreq, if_true]

/-- Who is not charged keeps its number of ticks. -/
theorem watch_ticks_keep (hstart : op.starts ≠ some q) (hcount : op.counts w.sys ≠ some q) :
    (watch cfg w op).ticks q = w.ticks q := by
  simp only [watch, if_neg hstart, if_neg hcount]

/-- A tick is counted, and an expired slice starts anew. -/
theorem watch_ticks_count (hstart : op.starts ≠ some q) (hcount : op.counts w.sys = some q) :
    (watch cfg w op).ticks q =
      if decU32 (w.sys.task q).timeSlice = 0 then 0 else w.ticks q + 1 := by
  simp only [watch, if_neg hstart, if_pos hcount]

/-- What holds of the tasks of a system holds along the systems of a watched run. -/
theorem watched_inv (hboot : WatchedBoot cfg w₀)
    (h : Reach (fun w op => op.Pre w.sys) (watch cfg) w₀ w) : Inv cfg w.sys :=
  h.invariant (I := fun w : Watched => Inv cfg w.sys) (fun _ op hinv hpre => exec_inv hinv op hpre)
    hboot.boot.inv

/-- What holds of the `SCHED_WRR` tasks at the start and is kept by every step. -/
theorem watched_reach {P : Watched → Pid → Prop} (hboot : WatchedBoot cfg w₀)
    (hfirst : ∀ q, (w₀.sys.task q).alive = true → (w₀.sys.task q).policy = .wrr → P w₀ q)
    (hstep : ∀ w op q, Inv cfg w.sys → op.Pre w.sys →
      (∀ q, (w.sys.task q).alive = true → (w.sys.task q).policy = .wrr → P w q) →
      ((watch cfg w op).sys.task q).alive = true →
      ((watch cfg w op).sys.task q).policy = .wrr → P (watch cfg w op) q)
    (h : Reach (fun w op => op.Pre w.sys) (watch cfg) w₀ w) (hp : (w.sys.task p).alive = true)
    (hpolicy : (w.sys.task p).policy = .wrr) : P w p := by
  refine h.invariant_of (J := fun w : Watched => Inv cfg w.sys)
    (I := fun w : Watched => ∀ q, (w.sys.task q).alive = true → (w.sys.task q).policy = .wrr → P w q)
    (fun _ hrun => watched_inv hboot hrun) ?_ hfirst p hp hpolicy
  exact fun w op hinv hall hpre q => hstep w op q hinv hpre hall

/-- A list of steps that passes the executable test is a watched run. -/
theorem watched_of_check (hboot : WatchedBoot cfg w₀) (ops : List Op)
    (hrun : Reach.runTest (fun w op => op.check w.sys) (watch cfg) w₀ ops = true) :
    Reach (fun w op => op.Pre w.sys) (watch cfg) w₀ (ops.foldl (watch cfg) w₀) :=
  Reach.of_runTest (I := fun w : Watched => Inv cfg w.sys)
    (fun _ op hinv hpre => exec_inv hinv op hpre) (fun _ _ hinv => Op.pre_of_check hinv)
    hboot.boot.inv hrun

/-- A system of sleeping WRR tasks in the middle stage, on a 64-bit target. -/
def watchedTasks : Watched where
  sys := wrrSystem fun _ => 50
  stays _ := 0
  ticks _ := 0

def wideConfig : Config := { upConfig .rmlfq with longBits := 64 }

theorem watchedTasks_boot : WatchedBoot wideConfig watchedTasks where
  boot := wrrSystem_boot _
  fresh p _ hwrr := by
    have htask : watchedTasks.sys.task p = bootTask (fun _ => wrrTask 50) p := rfl
    rw [htask] at hwrr ⊢
    by_cases hp : p % 2 = 0
    · rw [bootTask_even _ hp] at hwrr
      cases hwrr
    · rw [bootTask_odd _ hp]
      show 1 = 1 ∧ 1 ≤ 10 ∧ 10 ≤ 10 * wideConfig.wrrForeTimeslice
      decide
  stays _ := rfl
  ticks _ := rfl

/-- The first task runs, and yields twice with a word that lets it stay. -/
def stayTwice : List Op :=
  [.wakeUp 1 0 .quiet, .schedule 0 false .quiet, .tick 0 .quiet,
    .schedYield 0 { Outside.quiet with rand := 2000000000 },
    .schedYield 0 { Outside.quiet with rand := 2000000000 }]

/-! ### Stays -/

/-- A task has stayed less often than its counter says, and the counter is at most three. -/
def StaysOk (w : Watched) (q : Pid) : Prop :=
  w.stays q + 1 ≤ (w.sys.task q).times ∧ (w.sys.task q).times ≤ 3

/-- **Step lemma**: the thresholds cross when the counter reaches three. -/
theorem watch_stays (hcfg : cfg.wrr = .rmlfq) (hw : cfg.longBits = 64) (hinv : Inv cfg w.sys)
    (hpre : op.Pre w.sys)
    (hall : ∀ q, (w.sys.task q).alive = true → (w.sys.task q).policy = .wrr → StaysOk w q)
    (halive : ((watch cfg w op).sys.task q).alive = true)
    (hpolicy : ((watch cfg w op).sys.task q).policy = .wrr) : StaysOk (watch cfg w op) q := by
  unfold StaysOk
  cases exec_wrrStep hcfg hinv hpre halive hpolicy with
  | same hstart hcount hreq halive hpolicy hslice htimes =>
    rw [watch_stays_keep hstart hreq, show ((watch cfg w op).sys.task q).times = _ from htimes]
    exact hall q halive hpolicy
  | entered hstart hslice htimes =>
    rw [(watch_start hstart).1, show ((watch cfg w op).sys.task q).times = _ from htimes]
    decide
  | @forked hstart parent halive hpolicy hslice htimes =>
    have hparent := hall parent halive hpolicy
    unfold StaysOk at hparent
    rw [(watch_start hstart).1, show ((watch cfg w op).sys.task q).times = _ from htimes]
    omega
  | counted hstart hcount hreq halive hpolicy hleft hslice htimes =>
    rw [watch_stays_keep hstart hreq, show ((watch cfg w op).sys.task q).times = _ from htimes]
    exact hall q halive hpolicy
  | @requeued hstart rand hreq halive hpolicy hslice htimes =>
    have hq := hall q halive hpolicy
    unfold StaysOk at hq
    rw [watch_stays_requeue hstart hreq,
      show ((watch cfg w op).sys.task q).times = _ from htimes]
    cases hm : (w.sys.task q).stageMove cfg rand with
    | down | up =>
      show 0 + 1 ≤ 1 ∧ 1 ≤ 3
      decide
    | stay =>
      -- a task that stays had stayed at most once
      have hlt := stay_lt_three hw (by omega) (Nat.sub_le 99 (w.sys.task q).rtPriority) hm
      show w.stays q + 1 + 1 ≤ ((w.sys.task q).times + 1) % 2 ^ 32 ∧
        ((w.sys.task q).times + 1) % 2 ^ 32 ≤ 3
      omega

/-- A requeued task stays live and `SCHED_WRR`. -/
theorem exec_requeues {p : Pid} (h : Inv cfg s) (hpre : op.Pre s)
    (hreq : op.requeues s = some (p, rand)) :
    ((exec cfg s op).task p).alive = true ∧ ((exec cfg s op).task p).policy = .wrr := by
  have hlive : (s.task p).onRq = true → (s.task p).schedClass = .wrr →
      (s.task p).alive = true ∧ (s.task p).policy = .wrr := fun hon hk =>
    ⟨h.alive_of_onRq hon, (h.task p (h.alive_of_onRq hon)).wrr hk⟩
  have hmove : ∀ {t : System}, Move cfg s t p →
      (s.task p).alive = true ∧ (s.task p).policy = .wrr →
        (t.task p).alive = true ∧ (t.task p).policy = .wrr := by
    intro t hmove hs
    obtain ⟨_, _, _, _, -, heff⟩ := hmove.effect
    rw [heff.self]
    exact hs
  cases op with
  | yield c o =>
    simp only [Op.requeues] at hreq
    split at hreq
    next hk =>
      cases hreq
      obtain ⟨hon, hcpu⟩ := h.currOnRq_of_wrr hpre hk
      have hs := hlive hon hk
      exact hmove (yieldTask_move hcpu (h.task _ hs.1).rtPriority o) hs
    next => cases hreq
  | schedYield c o =>
    simp only [Op.requeues] at hreq
    split at hreq
    next hk =>
      cases hreq
      obtain ⟨hon, hcpu⟩ := h.currOnRq_of_wrr hpre hk
      have hs := hlive hon hk
      -- the reschedule after the yield writes no counter and no policy
      have ht := hmove (yieldTask_move hcpu (h.task _ hs.1).rtPriority o) hs
      obtain ⟨ha, hp, -⟩ := Task.counters_eq_iff.mp
        (schedule_sameOn counters_blind cfg (yieldTask cfg s c o) c false o (s.rq c).curr)
      exact ⟨ha.trans ht.1, hp.trans ht.2⟩
    next => cases hreq
  | tick c o =>
    simp only [Op.requeues] at hreq
    split at hreq
    next hk =>
      cases hreq
      obtain ⟨hon, hcpu⟩ := h.currOnRq_of_wrr hpre hk.1
      have hs := hlive hon hk.1
      exact hmove (schedulerTick_move hcpu (h.task _ hs.1).rtPriority o) hs
    next => cases hreq
  | requeue p head rand =>
    cases hreq
    have hs := hlive hpre.1 hpre.2
    exact hmove (requeueTaskWrr_move hpre.2 (h.task _ hs.1).rtPriority head rand) hs
  | _ => cases hreq

/-- A requeue writes the branch's counter. -/
theorem exec_requeues_times (hcfg : cfg.wrr = .rmlfq) (h : Inv cfg s) (hpre : op.Pre s)
    (hreq : op.requeues s = some (p, rand)) : ((exec cfg s op).task p).times =
      ((s.task p).stageMove cfg rand).times (s.task p).times := by
  obtain ⟨halive, hpolicy⟩ := exec_requeues h hpre hreq
  have hstart : op.starts ≠ some p := by
    intro hno
    cases op with
    | setscheduler | fork => cases hreq
    | _ => cases hno
  cases exec_wrrStep hcfg h hpre halive hpolicy with
  | same _ _ hno | counted _ _ hno => exact absurd hreq (hno rand)
  | entered hno | forked hno => exact absurd hno hstart
  | requeued _ hreq' _ _ _ htimes =>
    rw [hreq] at hreq'
    cases hreq'
    exact htimes

/-- **A task stays in its stage at most twice in a row.** In every state of every run its
stay counter is 1, 2 or 3, so that the third decision in a row is a move, the factors of the
thresholds do not underflow and their products do not overflow, and the longer it has stayed,
the fewer words let it stay. -/
theorem stays_reach (hcfg : cfg.wrr = .rmlfq) (hw : cfg.longBits = 64)
    (hboot : WatchedBoot cfg w₀) (h : Reach (fun w op => op.Pre w.sys) (watch cfg) w₀ w)
    (hp : (w.sys.task p).alive = true) (hpolicy : (w.sys.task p).policy = .wrr) :
    (1 ≤ (w.sys.task p).times ∧ (w.sys.task p).times ≤ 3 ∧ w.stays p ≤ 2) ∧
      (∀ op rand, op.Pre w.sys → op.requeues w.sys = some (p, rand) → w.stays p = 2 →
        (w.sys.task p).stageMove cfg rand ≠ .stay ∧ ((exec cfg w.sys op).task p).times = 1) ∧
      (let times := (w.sys.task p).times
       let prio := Rmlfq.wrrTaskPrio (w.sys.task p)
       (5 + (2 ^ 32 - times) + prio / 20) % 2 ^ 32 = 5 - times + prio / 20 ∧
        (times + prio / 20) * Rmlfq.unsignedMax ≤ 2 ^ 63 - 1 ∧
        (5 - times + prio / 20) * Rmlfq.unsignedMax ≤ 2 ^ 63 - 1) ∧
      ∀ n m, 1 ≤ n → n < m → m ≤ 3 →
        {rand : UInt32 | stageMove cfg m (Rmlfq.wrrTaskPrio (w.sys.task p)) rand.toNat = .stay} ⊂
          {rand : UInt32 |
            stageMove cfg n (Rmlfq.wrrTaskPrio (w.sys.task p)) rand.toNat = .stay} := by
  have hinv := watched_inv hboot h
  have hok : StaysOk w p := by
    refine watched_reach hboot ?_ ?_ h hp hpolicy
    · intro q hq hwrr
      unfold StaysOk
      rw [hboot.stays q, (hboot.fresh q hq hwrr).1]
      decide
    · intro w op q hinv hpre hall halive hwrr
      exact watch_stays hcfg hw hinv hpre hall halive hwrr
  unfold StaysOk at hok
  have hprio : Rmlfq.wrrTaskPrio (w.sys.task p) ≤ 99 := Nat.sub_le 99 _
  have htimes : 1 ≤ (w.sys.task p).times ∧ (w.sys.task p).times ≤ 3 := by omega
  refine ⟨⟨htimes.1, htimes.2, by omega⟩, ?_, ?_, ?_⟩
  · intro op rand hpre hreq htwo
    have hmove : (w.sys.task p).stageMove cfg rand ≠ .stay := by
      intro hstay
      have hlt := stay_lt_three hw htimes hprio hstay
      omega
    refine ⟨hmove, ?_⟩
    rw [exec_requeues_times hcfg hinv hpre hreq]
    cases hm : (w.sys.task p).stageMove cfg rand with
    | down | up => rfl
    | stay => exact absurd hm hmove
  · exact ⟨(factors_le htimes hprio).2.1, products_le htimes hprio⟩
  · intro n m hn hnm hm
    exact stay_ssubset hw hprio hn hnm hm

theorem stays_reach_boot :
    let w := stayTwice.foldl (watch wideConfig) watchedTasks
    1 ≤ (w.sys.task 1).times ∧ (w.sys.task 1).times ≤ 3 ∧ w.stays 1 ≤ 2 :=
  (stays_reach rfl rfl watchedTasks_boot
    (watched_of_check watchedTasks_boot stayTwice (by decide +kernel)) (by decide +kernel)
    (by decide +kernel)).1

/-! ### Slices -/

/-- Every interval is at least a tick and at most ten foreground slices. -/
theorem interval_bounds (hhz : 100 ≤ cfg.hz) (s : System) (p : Pid) :
    1 ≤ Rmlfq.interval cfg s p ∧ Rmlfq.interval cfg s p ≤ 10 * cfg.wrrForeTimeslice := by
  have hprio : Rmlfq.wrrTaskPrio (s.task p) / 10 + 1 ≤ 10 := by
    unfold Rmlfq.wrrTaskPrio
    omega
  have hfore : 10 ≤ cfg.wrrForeTimeslice := by
    unfold Config.wrrForeTimeslice
    omega
  have hback : 1 ≤ cfg.wrrBackTimeslice ∧ cfg.wrrBackTimeslice ≤ cfg.wrrForeTimeslice := by
    unfold Config.wrrBackTimeslice Config.wrrForeTimeslice
    omega
  rw [Rmlfq.interval_eq]
  generalize Rmlfq.wrrTaskPrio (s.task p) = prio at hprio ⊢
  unfold Rmlfq.sliceAt
  split
  · -- a foreground task gets its stage's multiple
    have hpos : 0 < cfg.wrrForeTimeslice * (prio / 10 + 1) := Nat.mul_pos (by omega) (by omega)
    have hle := Nat.mul_le_mul_left cfg.wrrForeTimeslice hprio
    omega
  · omega

/-- The longest slice is far within the word. -/
theorem wrrForeTimeslice_lt (cfg : Config) : 10 * cfg.wrrForeTimeslice < 2 ^ 25 := by
  have hfits := cfg.hzFits
  unfold Config.wrrForeTimeslice
  omega

/-- What a task has used of its slice and what it has left is one slice. -/
def TicksOk (cfg : Config) (w : Watched) (q : Pid) : Prop :=
  1 ≤ (w.sys.task q).timeSlice ∧
    w.ticks q + (w.sys.task q).timeSlice ≤ 10 * cfg.wrrForeTimeslice

/-- **Step lemma**: a tick uses one tick of the slice, and the last one refills it. -/
theorem watch_ticks (hcfg : cfg.wrr = .rmlfq) (hhz : 100 ≤ cfg.hz) (hinv : Inv cfg w.sys)
    (hpre : op.Pre w.sys)
    (hall : ∀ q, (w.sys.task q).alive = true → (w.sys.task q).policy = .wrr → TicksOk cfg w q)
    (halive : ((watch cfg w op).sys.task q).alive = true)
    (hpolicy : ((watch cfg w op).sys.task q).policy = .wrr) : TicksOk cfg (watch cfg w op) q := by
  have hlt := wrrForeTimeslice_lt cfg
  unfold TicksOk
  cases exec_wrrStep hcfg hinv hpre halive hpolicy with
  | same hstart hcount hreq halive hpolicy hslice htimes =>
    rw [watch_ticks_keep hstart hcount,
      show ((watch cfg w op).sys.task q).timeSlice = _ from hslice]
    exact hall q halive hpolicy
  | entered hstart hslice htimes =>
    obtain ⟨u, hslice⟩ := hslice
    have hbounds := interval_bounds hhz u q
    rw [(watch_start hstart).2, show ((watch cfg w op).sys.task q).timeSlice = _ from hslice]
    omega
  | @forked hstart parent halive hpolicy hslice htimes =>
    have hparent := hall parent halive hpolicy
    unfold TicksOk at hparent
    rw [(watch_start hstart).2, show ((watch cfg w op).sys.task q).timeSlice = _ from hslice]
    omega
  | counted hstart hcount hreq halive hpolicy hleft hslice htimes =>
    have hq := hall q halive hpolicy
    unfold TicksOk at hq
    rw [watch_ticks_count hstart hcount, if_neg hleft,
      show ((watch cfg w op).sys.task q).timeSlice = _ from hslice]
    unfold decU32 at hleft ⊢
    omega
  | requeued hstart hreq halive hpolicy hslice htimes =>
    have hq := hall q halive hpolicy
    unfold TicksOk at hq
    rcases hslice with ⟨hcount, hslice⟩ | ⟨hcount, hzero, hslice⟩
    · rw [watch_ticks_keep hstart hcount,
        show ((watch cfg w op).sys.task q).timeSlice = _ from hslice]
      exact hq
    · have hbounds := interval_bounds hhz w.sys q
      rw [watch_ticks_count hstart hcount, if_pos hzero,
        show ((watch cfg w op).sys.task q).timeSlice = _ from hslice]
      omega

/-- **Every slice is finite.** In every state of every run a task of the class has between one
tick and ten foreground slices left, so that the decrement does not wrap, the slice is used up
after at most as many of its ticks, and no slice is the error of `get_rr_interval_wrr`. -/
theorem slice_reach (hcfg : cfg.wrr = .rmlfq) (hhz : 100 ≤ cfg.hz) (hboot : WatchedBoot cfg w₀)
    (h : Reach (fun w op => op.Pre w.sys) (watch cfg) w₀ w) (hp : (w.sys.task p).alive = true)
    (hk : (w.sys.task p).schedClass = .wrr) :
    (1 ≤ (w.sys.task p).timeSlice ∧ (w.sys.task p).timeSlice ≤ 10 * cfg.wrrForeTimeslice) ∧
      decU32 (w.sys.task p).timeSlice = (w.sys.task p).timeSlice - 1 ∧
      w.ticks p + (w.sys.task p).timeSlice ≤ 10 * cfg.wrrForeTimeslice ∧
      (w.sys.task p).timeSlice ≠ (Rmlfq.getRrIntervalWrr cfg w.sys none).1 := by
  have hpolicy := ((watched_inv hboot h).task p hp).wrr hk
  have hok : TicksOk cfg w p := by
    refine watched_reach hboot ?_ ?_ h hp hpolicy
    · intro q hq hwrr
      unfold TicksOk
      rw [hboot.ticks q, Nat.zero_add]
      exact (hboot.fresh q hq hwrr).2
    · intro w op q hinv hpre hall halive hwrr
      exact watch_ticks hcfg hhz hinv hpre hall halive hwrr
  have hlt := wrrForeTimeslice_lt cfg
  have herror : (Rmlfq.getRrIntervalWrr cfg w.sys none).1 = 2 ^ 32 - 22 := rfl
  unfold TicksOk at hok
  rw [herror]
  unfold decU32
  omega

theorem slice_reach_boot :
    let w := stayTwice.foldl (watch wideConfig) watchedTasks
    1 ≤ (w.sys.task 1).timeSlice ∧ (w.sys.task 1).timeSlice ≤ 10 * wideConfig.wrrForeTimeslice :=
  (slice_reach rfl (by decide) watchedTasks_boot
    (watched_of_check watchedTasks_boot stayTwice (by decide +kernel)) (by decide +kernel)
    (by decide +kernel)).1

end Watch

/-! ## The slice after an expiry -/

namespace Rmlfq

/-- Changing the stage of a task does not touch the path buffer. -/
theorem changeStage_groupPath (s : System) (c : Cpu) (p : Pid) (head : Bool)
    (prio stage : Nat) (inside : Bool) (rtPriority : Nat) :
    (changeStage s c p head prio stage inside rtPriority).groupPath = s.groupPath := by
  cases inside with
  | true =>
    rw [changeStage_true]
    rfl
  | false =>
    rw [changeStage_false]
    rfl

/-- A requeue does not look at any group. -/
theorem requeueTaskWrr_groupPath (cfg : Config) (s : System) (c : Cpu) (p : Pid) (head : Bool)
    (rand : UInt32) : (requeueTaskWrr cfg s c p head rand).groupPath = s.groupPath := by
  cases hm : (s.task p).stageMove cfg rand with
  | down => rw [requeueTaskWrr_down hm, changeStage_groupPath]
  | up => rw [requeueTaskWrr_up hm, changeStage_groupPath]
  | stay =>
    rw [requeueTaskWrr_stay hm]
    rfl

/-- The buffer holds the path of the task's group after an expiry. -/
theorem taskTickWrr_groupPath (hpolicy : (s.task p).policy = .wrr)
    (hts : decU32 (s.task p).timeSlice = 0) : (taskTickWrr cfg s c p rand).groupPath =
      (taskGroupPath cfg s (s.task p).schedTaskGroup).groupPath := by
  have hspent : ((updateCurrWrr s c).updTask p fun t => { t with timeSlice := 0 }).groupPath =
      s.groupPath := updateCurrWrr_groupPath s c
  have hgroup : (((updateCurrWrr s c).updTask p fun t => { t with timeSlice := 0 }).task
      p).schedTaskGroup = (s.task p).schedTaskGroup := by
    rw [System.updTask_task, Function.update_self, updateCurrWrr_task]
  rw [taskTickWrr_eq_expired hpolicy hts, sliceExpired, requeueTaskWrr_groupPath]
  show (refillSlice cfg _ p).groupPath = _
  rw [refillSlice_eq]
  show (taskGroupPath cfg _ _).groupPath = _
  rw [hgroup]
  exact taskGroupPath_groupPath_congr cfg hspent _

end Rmlfq

/-- Writing the path of a group twice is writing it once. -/
theorem foregroundOf_of_written {tg : Nat}
    (h : t.groupPath = (taskGroupPath cfg s tg).groupPath) :
    t.foregroundOf cfg tg = s.foregroundOf cfg tg := by
  -- the buffer behind the path differs, but the character that is read does not
  have hone : ∀ (buf : Nat → Char) (path : List Char),
      writePath (writePath buf path) path 1 = writePath buf path 1 := by
    intro buf path
    unfold writePath
    split_ifs <;> rfl
  have hread : ∀ u : System, u.foregroundOf cfg tg =
      ((taskGroupPath cfg u tg).groupPath 1 != 'b') := fun _ => rfl
  rw [hread, hread]
  refine congrArg (· != 'b') ?_
  unfold taskGroupPath at h ⊢
  cases hauto : (cfg.group tg).autogroupPath with
  | some path =>
    rw [hauto] at h
    dsimp only at h ⊢
    rw [h, hone]
  | none =>
    rw [hauto] at h
    cases hcgroup : (cfg.group tg).cgroupPath with
    | some path =>
      rw [hcgroup] at h
      dsimp only at h ⊢
      rw [h, hone]
    | none =>
      rw [hcgroup] at h
      dsimp only at h ⊢
      rw [h, Function.update_idem]

/-- The decisions after which a task is still in its stage: to stay, or to move at the edge. -/
def StageMove.Clamped (prio : Nat) : StageMove → Prop
  | .down => prio ≤ 9
  | .up => 90 ≤ prio
  | .stay => True

/-- A move stays in its decade exactly when it is stopped at an end. -/
theorem StageMove.level_div_eq_iff {prio : Nat} (m : StageMove) :
    m.level prio / 10 = prio / 10 ↔ m.Clamped prio := by
  cases m with
  | down =>
    show (if prio > 9 then prio - 10 else prio) / 10 = prio / 10 ↔ prio ≤ 9
    split <;> omega
  | up =>
    show (if prio < 90 then prio + 10 else prio) / 10 = prio / 10 ↔ 90 ≤ prio
    split <;> omega
  | stay => exact iff_of_true rfl trivial

/-- Slices depend on the decade, in the foreground and if slices are not empty. -/
theorem Rmlfq.sliceAt_eq_iff {fore : Bool} {n m : Nat} :
    sliceAt cfg fore n = sliceAt cfg fore m ↔
      fore = false ∨ cfg.wrrForeTimeslice = 0 ∨ m / 10 = n / 10 := by
  cases fore with
  | false => exact iff_of_true rfl (.inl rfl)
  | true =>
    show cfg.wrrForeTimeslice * (n / 10 + 1) = cfg.wrrForeTimeslice * (m / 10 + 1) ↔ _
    by_cases hzero : cfg.wrrForeTimeslice = 0
    · rw [hzero]
      simp
    · rw [Nat.mul_right_inj hzero]
      simp only [Bool.true_eq_false, hzero, false_or]
      omega

/-- **A task whose slice expires gets the slice of the stage it is in afterwards exactly when
it is in the background, or does not leave its stage.** -/
theorem expiry_slice_iff {s₀ : System} {o : Outside} (hcfg : cfg.wrr = .rmlfq) (hs : Boot s₀)
    (h : Reach (fun s op => op.Core cfg s) (exec cfg) s₀ s)
    (hk : (s.task (s.rq c).curr).schedClass = .wrr)
    (hts : decU32 (s.task (s.rq c).curr).timeSlice = 0) :
    ((exec cfg s (.tick c o)).task (s.rq c).curr).timeSlice =
        (getRrIntervalWrr cfg (exec cfg s (.tick c o)) (some (s.rq c).curr)).1 ↔
      s.foregroundOf cfg (s.task (s.rq c).curr).schedTaskGroup = false ∨
        cfg.wrrForeTimeslice = 0 ∨
          ((s.task (s.rq c).curr).stageMove cfg o.rand).Clamped
            (Rmlfq.wrrTaskPrio (s.task (s.rq c).curr)) := by
  obtain ⟨hinv, hcurr⟩ := core_inv (fun _ _ hop => hop) hs h
  have hon := hinv.currOnRq_of_wrr (hcurr c) hk
  have hok := hinv.task _ (hinv.alive_of_onRq hon.1)
  have hpolicy := hok.wrr hk
  have hle := hok.rtPriority
  have htick : exec cfg s (.tick c o) = Rmlfq.taskTickWrr cfg s c (s.rq c).curr o.rand :=
    schedulerTick_wrr hcfg hk
  have hinterval : ∀ u p, (getRrIntervalWrr cfg u (some p)).1 = Rmlfq.interval cfg u p := by
    intro u p
    rw [getRrIntervalWrr, hcfg, Rmlfq.interval]
  generalize (s.rq c).curr = p at *
  have htask : (exec cfg s (.tick c o)).task p =
      ((s.task p).stageMove cfg o.rand).relabel
        { s.task p with timeSlice := Rmlfq.interval cfg s p } := by
    rw [htick, Rmlfq.taskTickWrr_expired hpolicy hts hle, Function.update_self]
  have hfore : (exec cfg s (.tick c o)).foregroundOf cfg (s.task p).schedTaskGroup =
      s.foregroundOf cfg (s.task p).schedTaskGroup := by
    rw [htick]
    exact foregroundOf_of_written (Rmlfq.taskTickWrr_groupPath hpolicy hts)
  generalize (s.task p).stageMove cfg o.rand = m at htask ⊢
  -- the slice is that of the level before the requeue, the interval that of the level after it
  generalize exec cfg s (.tick c o) = t at htask hfore ⊢
  have hgroup : (t.task p).schedTaskGroup = (s.task p).schedTaskGroup := by
    rw [htask, StageMove.relabel]
  have hlevel : Rmlfq.wrrTaskPrio (t.task p) = m.level (Rmlfq.wrrTaskPrio (s.task p)) := by
    rw [htask]
    exact StageMove.wrrSePrio_relabel m { s.task p with timeSlice := Rmlfq.interval cfg s p }
  have hslice : (t.task p).timeSlice = Rmlfq.interval cfg s p := by
    rw [htask, StageMove.relabel_timeSlice]
  rw [hinterval, hslice, Rmlfq.interval_eq, Rmlfq.interval_eq, hgroup, hfore, hlevel,
    Rmlfq.sliceAt_eq_iff, StageMove.level_div_eq_iff]

/-- A foreground task in the middle stage has one tick left. -/
def lastTick : List Op :=
  [.wakeUp 1 0 .quiet, .schedule 0 false .quiet] ++ List.replicate 9 (.tick 0 .quiet)

theorem lastTick_core : Reach (fun s op => op.Core wideConfig s) (exec wideConfig)
    (wrrSystem fun _ => 50) (lastTick.foldl (exec wideConfig) (wrrSystem fun _ => 50)) :=
  coreRun_of_check (wrrSystem_boot _) lastTick (by decide +kernel)

/-- With a word that lets it stay it gets the slice of its stage. -/
theorem expiry_slice_boot :
    let t := exec wideConfig (lastTick.foldl (exec wideConfig) (wrrSystem fun _ => 50))
      (.tick 0 { Outside.quiet with rand := 2000000000 })
    (t.task 1).timeSlice = (getRrIntervalWrr wideConfig t (some 1)).1 :=
  (expiry_slice_iff (c := 0) rfl (wrrSystem_boot _) lastTick_core (by decide +kernel)
    (by decide +kernel)).mpr (.inr (.inr (by
      rw [show Task.stageMove wideConfig _ _ = .stay by decide +kernel]
      trivial)))

/-- With the word 0 it goes down to the stage of 40 ticks, with the 50 ticks of the stage it
has left. -/
theorem expiry_slice_wrong :
    let s := lastTick.foldl (exec wideConfig) (wrrSystem fun _ => 50)
    let t := exec wideConfig s (.tick 0 .quiet)
    Boot (wrrSystem fun _ => 50) ∧
      Reach (fun s op => op.Core wideConfig s) (exec wideConfig) (wrrSystem fun _ => 50) s ∧
      (s.rq 0).curr = 1 ∧ (s.task 1).schedClass = .wrr ∧ decU32 (s.task 1).timeSlice = 0 ∧
      (t.task 1).timeSlice = 50 ∧ (getRrIntervalWrr wideConfig t (some 1)).1 = 40 :=
  ⟨wrrSystem_boot _, lastTick_core, by decide +kernel, by decide +kernel, by decide +kernel,
    by decide +kernel, by decide +kernel⟩

end LinuxWrr
