import LinuxWrr.Lib.Stopwatch
import LinuxWrr.Sched.Slices

/-!
# WRR run time

`update_curr_wrr` is called by the tick, by dequeues and by `put_prev_task`; `exec_start` is
written there, by `pick_next_task_wrr` and by `set_curr_task_wrr`. Together they are a
stopwatch on `rq->curr`, as long as it is a WRR task.

- `SchedEntity.charge`: what one update leaves of the entity of the current task.
- `updateCurr`: the accounting of a dequeue and of `put_prev_task`, by class.
- `Metered`: a system, and beside it what was charged to every task and what should be.
- `charged_reach`: **WRR run time is charged exactly once** over every run of one run queue.
- `charged_lost`: unless it is charged too late. A difference of 2^63 ns counts as none.

Inside an operation the clock stands still: of the calls of `update_rq_clock` in `core.c`, none
comes between charging a task and starting its stopwatch again.
-/

namespace LinuxWrr

variable {cfg : Config} {s t u : System} {c : Cpu} {p q : Pid} {k : ClassId} {o : Outside}

/-! ## One charge -/

namespace SchedEntity

variable {e : SchedEntity} {clock : Nat}

/-- `delta_exec`, before the test of its sign. -/
def delta (e : SchedEntity) (clock : Nat) : Nat := (clock + (2 ^ 64 - e.execStart)) % 2 ^ 64

/-- The entity after `update_curr_wrr` or `update_curr_rt`. -/
def charge (e : SchedEntity) (clock : Nat) : SchedEntity where
  execStart := clock
  sumExecRuntime :=
    (e.sumExecRuntime + if 2 ^ 63 ≤ e.delta clock then 0 else e.delta clock) % 2 ^ 64

/-- What was added to `sum_exec_runtime` from `e` to `e'`. -/
def added (e e' : SchedEntity) : Nat :=
  (e'.sumExecRuntime + (2 ^ 64 - e.sumExecRuntime % 2 ^ 64)) % 2 ^ 64

/-- Within the word the time that passed is the plain difference. -/
theorem delta_eq (hle : e.execStart ≤ clock) (hclock : clock < 2 ^ 64) :
    e.delta clock = clock - e.execStart := by
  unfold delta
  omega

/-- Charging twice at one time is charging once. -/
theorem charge_charge (hclock : clock < 2 ^ 64) : (e.charge clock).charge clock = e.charge clock := by
  have hzero : (e.charge clock).delta clock = 0 := by
    rw [delta_eq (Nat.le_refl clock) hclock]
    exact Nat.sub_self clock
  rw [charge, hzero]
  simp [charge]

/-- Nothing has been added to an entity that is compared with itself. -/
theorem added_self (e : SchedEntity) : e.added e = 0 := by
  unfold added
  omega

/-- What was added depends on the sum only. -/
theorem added_congr {e' e'' : SchedEntity} (h : e'.sumExecRuntime = e''.sumExecRuntime) :
    e.added e' = e.added e'' := by
  rw [added, added, h]

/-- A charge adds the time since `exec_start`, if that is less than 2^63. -/
theorem added_charge (hle : e.execStart ≤ clock) (hclock : clock < 2 ^ 64)
    (hnear : clock - e.execStart < 2 ^ 63) : e.added (e.charge clock) = clock - e.execStart := by
  have hpos : ¬2 ^ 63 ≤ e.delta clock := by
    rw [delta_eq hle hclock]
    omega
  show ((e.sumExecRuntime + if 2 ^ 63 ≤ e.delta clock then 0 else e.delta clock) % 2 ^ 64 + _) % _ = _
  rw [if_neg hpos, delta_eq hle hclock]
  omega

end SchedEntity

/-! ## What the hooks charge -/

/-- `rq->curr`, if it is a WRR task. -/
def System.wrrHolder (s : System) (c : Cpu) : Option Pid :=
  if (s.task (s.rq c).curr).schedClass = .wrr then some (s.rq c).curr else none

/-- The holder of a CPU is its current task, if that is a WRR task. -/
theorem System.wrrHolder_eq_some : s.wrrHolder c = some q ↔
    (s.rq c).curr = q ∧ (s.task q).schedClass = .wrr := by
  unfold System.wrrHolder
  split
  next hk =>
    rw [Option.some_inj]
    constructor
    · rintro rfl
      exact ⟨rfl, hk⟩
    · exact fun hq => hq.1
  next hk =>
    constructor
    · intro hq
      cases hq
    · rintro ⟨rfl, hq⟩
      exact absurd hq hk

/-- Charging changes the entity of the current task and no other. -/
theorem System.chargeCurr_se (s : System) (c : Cpu) : (s.chargeCurr c).se =
    Function.update s.se (s.rq c).curr ((s.se (s.rq c).curr).charge (s.rq c).clockTask) := rfl

/-- `update_curr_wrr` charges the WRR task that runs. -/
theorem updateCurrWrr_se_holder (h : s.wrrHolder c = some q) :
    (updateCurrWrr s c).se q = (s.se q).charge (s.rq c).clockTask := by
  obtain ⟨hq, hk⟩ := System.wrrHolder_eq_some.mp h
  subst hq
  unfold updateCurrWrr
  rw [if_neg (not_not.mpr hk), System.chargeCurr_se, Function.update_self]

/-- It charges nothing to any other task. -/
theorem updateCurrWrr_se_other (h : s.wrrHolder c ≠ some q) :
    (updateCurrWrr s c).se q = s.se q := by
  unfold updateCurrWrr
  split
  · rfl
  next hk =>
    have hne : q ≠ (s.rq c).curr := by
      rintro rfl
      exact h (System.wrrHolder_eq_some.mpr ⟨rfl, not_not.mp hk⟩)
    rw [System.chargeCurr_se, Function.update_of_ne hne]

/-- `update_curr_rt` charges no task outside the RT class. -/
theorem updateCurrRt_se_other (h : (s.task q).schedClass ≠ .rt) :
    (Rt.updateCurrRt s c).se q = s.se q := by
  unfold Rt.updateCurrRt
  split
  · rfl
  next hk =>
    have hne : q ≠ (s.rq c).curr := by
      rintro rfl
      exact h (not_not.mp hk)
    rw [System.chargeCurr_se, Function.update_of_ne hne]

/-- The RT class charges nobody but the current task. -/
theorem updateCurrRt_se_of_ne (h : q ≠ (s.rq c).curr) : (Rt.updateCurrRt s c).se q = s.se q := by
  unfold Rt.updateCurrRt
  split
  · rfl
  · rw [System.chargeCurr_se, Function.update_of_ne h]

/-- The accounting of `dequeue_task` and `put_prev_task` of a class. -/
def updateCurr (k : ClassId) (s : System) (c : Cpu) : System :=
  match k with
  | .rt => Rt.updateCurrRt s c
  | .wrr => updateCurrWrr s c
  | .stop | .fair | .idle => s

/-- No class charges anybody but the current task. -/
theorem updateCurr_se_of_ne (h : q ≠ (s.rq c).curr) : (updateCurr k s c).se q = s.se q := by
  cases k with
  | rt => exact updateCurrRt_se_of_ne h
  | wrr => exact updateCurrWrr_se_other fun hq => h (System.wrrHolder_eq_some.mp hq).1.symm
  | stop | fair | idle => rfl

/-- The update of a WRR task is that of `update_curr_wrr`, or none. -/
theorem updateCurr_se_cases (hq : (s.task q).schedClass = .wrr) :
    (updateCurr k s c).se q = (updateCurrWrr s c).se q ∨ (updateCurr k s c).se q = s.se q := by
  cases k with
  | wrr => exact .inl rfl
  | rt =>
    refine .inr (updateCurrRt_se_other ?_)
    rw [hq]
    decide
  | stop | fair | idle => exact .inr rfl

/-- The update for the class of the current task treats WRR tasks as `update_curr_wrr` does. -/
theorem updateCurr_curr_se (hk : k = (s.task (s.rq c).curr).schedClass)
    (hq : (s.task q).schedClass = .wrr) :
    (updateCurr k s c).se q = (updateCurrWrr s c).se q := by
  by_cases hwrr : k = .wrr
  · rw [hwrr]
    rfl
  · have hnone : s.wrrHolder c ≠ some q := by
      intro hs
      obtain ⟨rfl, -⟩ := System.wrrHolder_eq_some.mp hs
      exact hwrr (hk.trans hq)
    rw [updateCurrWrr_se_other hnone]
    rcases updateCurr_se_cases (c := c) (k := k) hq with h | h
    · rw [h, updateCurrWrr_se_other hnone]
    · exact h

/-! ## Where the hooks charge -/

theorem System.setTskNeedResched_se (s : System) (p : Pid) : (s.setTskNeedResched p).se = s.se := rfl

theorem dequeueRtStack_se (s : System) (p : Pid) : (Rt.dequeueRtStack s p).se = s.se := by
  unfold Rt.dequeueRtStack
  split <;> rfl

@[simp] theorem enqueueTask_se (cfg : Config) (s : System) (c : Cpu) (p : Pid) (flags : Nat) :
    (enqueueTask cfg s c p flags).se = s.se := by
  unfold enqueueTask
  cases (s.task p).schedClass with
  | rt => exact dequeueRtStack_se s p
  | wrr =>
    show ((wrrSchedClass cfg).enqueueTask s c p flags).se = s.se
    rw [wrrSchedClass_enqueueTask]
    rfl
  | stop | fair | idle => rfl

/-- Dequeueing changes the times only by what it books first. -/
theorem dequeueTask_se (cfg : Config) (s : System) (c : Cpu) (p : Pid) :
    (dequeueTask cfg s c p).se = (updateCurr (s.task p).schedClass s c).se := by
  unfold dequeueTask
  cases (s.task p).schedClass with
  | rt => exact dequeueRtStack_se (Rt.updateCurrRt s c) p
  | wrr =>
    show ((wrrSchedClass cfg).dequeueTask s c p).se = _
    rw [wrrSchedClass_dequeueTask]
    rfl
  | stop | fair | idle => rfl

/-- Putting the previous task back books its time and does nothing else. -/
theorem putPrevTask_eq (cfg : Config) (s : System) (c : Cpu) (p : Pid) :
    putPrevTask cfg s c p = updateCurr (s.task p).schedClass s c := by
  unfold putPrevTask
  cases (s.task p).schedClass with
  | wrr => exact wrrSchedClass_putPrevTask cfg s c p
  | stop | rt | fair | idle => rfl

/-- `set_curr_task` starts the stopwatch of an RT or WRR task. -/
theorem setCurrTask_eq (cfg : Config) (s : System) (c : Cpu) (p : Pid) :
    setCurrTask cfg s c p =
      if (s.task p).schedClass = .rt ∨ (s.task p).schedClass = .wrr then
        s.startExec c (s.rq c).curr
      else s := by
  unfold setCurrTask
  cases (s.task p).schedClass with
  | wrr => exact wrrSchedClass_setCurrTask cfg s c
  | stop | rt | fair | idle => rfl

theorem checkPreemptCurr_se (cfg : Config) (s : System) (c : Cpu) (p : Pid) (o : Outside) :
    (checkPreemptCurr cfg s c p o).se = s.se := by
  have hflag : ∀ P : Prop, ∀ [Decidable P], (if P then s.reschedCurr c else s).se = s.se := by
    intro P _
    split <;> rfl
  unfold checkPreemptCurr
  dsimp only
  split
  · cases (s.task (s.rq c).curr).schedClass with
    | rt =>
      show (Rt.checkPreemptCurrRt cfg s c p o).se = s.se
      unfold Rt.checkPreemptCurrRt
      dsimp only
      split
      · rfl
      · split
        · show (Rt.requeueTaskRt s p true).se = s.se
          unfold Rt.requeueTaskRt
          split <;> rfl
        · rfl
    | wrr =>
      show ((wrrSchedClass cfg).checkPreemptCurr s c p o).se = s.se
      unfold wrrSchedClass
      cases cfg.wrr <;> exact hflag _
    | fair => exact hflag _
    | stop | idle => rfl
  · exact hflag _

theorem requeueTaskRt_se (s : System) (p : Pid) (head : Bool) :
    (Rt.requeueTaskRt s p head).se = s.se := by
  unfold Rt.requeueTaskRt
  split <;> rfl

theorem Rmlfq.changeStage_se (s : System) (c : Cpu) (p : Pid) (head : Bool) (prio stage : Nat)
    (inside : Bool) (rtPriority : Nat) :
    (changeStage s c p head prio stage inside rtPriority).se = s.se := by
  cases inside with
  | true =>
    rw [changeStage_true]
    rfl
  | false =>
    rw [changeStage_false]
    rfl

theorem Rmlfq.requeueTaskWrr_se (cfg : Config) (s : System) (c : Cpu) (p : Pid) (head : Bool)
    (rand : UInt32) : (requeueTaskWrr cfg s c p head rand).se = s.se := by
  cases hm : (s.task p).stageMove cfg rand with
  | down => rw [requeueTaskWrr_down hm, changeStage_se]
  | up => rw [requeueTaskWrr_up hm, changeStage_se]
  | stay =>
    rw [requeueTaskWrr_stay hm]
    rfl

theorem yieldTask_se (cfg : Config) (s : System) (c : Cpu) (o : Outside) :
    (yieldTask cfg s c o).se = s.se := by
  unfold yieldTask
  cases (s.task (s.rq c).curr).schedClass with
  | rt => exact requeueTaskRt_se s _ false
  | wrr =>
    show ((wrrSchedClass cfg).yieldTask s c o).se = s.se
    unfold wrrSchedClass
    cases cfg.wrr with
    | basic => rfl
    | rmlfq => exact Rmlfq.requeueTaskWrr_se cfg s c _ false o.rand
  | stop | fair | idle => rfl

theorem taskTickRt_se (cfg : Config) (s : System) (c : Cpu) (p : Pid) :
    (Rt.taskTickRt cfg s c p).se = (Rt.updateCurrRt s c).se := by
  unfold Rt.taskTickRt
  dsimp only
  generalize Rt.updateCurrRt s c = u
  split
  · rfl
  · split
    · rfl
    · split
      · exact requeueTaskRt_se _ p false
      · rfl

theorem Basic.sliceExpired_se (cfg : Config) (s : System) (c : Cpu) (p : Pid) :
    (sliceExpired cfg s c p).se = s.se := by
  unfold sliceExpired
  dsimp only
  split <;> exact taskGroupPath_se cfg s _

theorem Basic.taskTickWrr_se (cfg : Config) (s : System) (c : Cpu) (p : Pid) :
    (taskTickWrr cfg s c p).se = (updateCurrWrr s c).se := by
  rcases taskTickWrr_cases cfg s c p with ⟨-, heq⟩ | ⟨-, -, heq⟩ | ⟨-, -, heq⟩ <;> rw [heq]
  · rfl
  · exact sliceExpired_se cfg _ c p

theorem Rmlfq.refillSlice_se (cfg : Config) (s : System) (p : Pid) :
    (refillSlice cfg s p).se = s.se := by
  rw [refillSlice_eq]
  exact taskGroupPath_se cfg s _

theorem Rmlfq.sliceExpired_se (cfg : Config) (s : System) (c : Cpu) (p : Pid) (rand : UInt32) :
    (sliceExpired cfg s c p rand).se = s.se := by
  rw [sliceExpired, requeueTaskWrr_se, System.setTskNeedResched_se, refillSlice_se]

theorem Rmlfq.taskTickWrr_se (cfg : Config) (s : System) (c : Cpu) (p : Pid) (rand : UInt32) :
    (taskTickWrr cfg s c p rand).se = (updateCurrWrr s c).se := by
  rcases taskTickWrr_cases cfg s c p rand with ⟨-, heq⟩ | ⟨-, -, heq⟩ | ⟨-, -, heq⟩ <;> rw [heq]
  · rfl
  · exact sliceExpired_se cfg _ c p rand

/-- A tick changes the times only by what the class of the current task books. -/
theorem schedulerTick_se (cfg : Config) (s : System) (c : Cpu) (o : Outside) :
    (schedulerTick cfg s c o).se =
      (updateCurr (s.task (s.rq c).curr).schedClass s c).se := by
  unfold schedulerTick
  dsimp only
  cases (s.task (s.rq c).curr).schedClass with
  | rt => exact taskTickRt_se cfg s c _
  | wrr =>
    show ((wrrSchedClass cfg).taskTick s c _ o).se = (updateCurrWrr s c).se
    unfold wrrSchedClass
    cases cfg.wrr with
    | basic => exact Basic.taskTickWrr_se cfg s c _
    | rmlfq => exact Rmlfq.taskTickWrr_se cfg s c _ o.rand
  | fair =>
    show (fairHook s c o).se = s.se
    unfold fairHook
    split <;> rfl
  | stop | idle => rfl

theorem setscheduler_se (cfg : Config) (s : System) (p : Pid) (policy : Policy) (prio : Nat) :
    (setscheduler cfg s p policy prio).se = s.se := by
  have hinterval : ∀ u : System, (getRrIntervalWrr cfg u (some p)).2.se = u.se := by
    intro u
    unfold getRrIntervalWrr
    cases cfg.wrr <;> exact taskGroupPath_se cfg u _
  unfold setscheduler
  dsimp only
  split
  · unfold enterWrr
    exact hinterval _
  · split <;> rfl

/-! ## What an operation does to the stopwatch of a task -/

/-- Nothing; or the task has been charged, and its stopwatch runs from now on if it is a
current WRR task. What other classes charge is not followed. -/
inductive Accounted (c : Cpu) (s t : System) (q : Pid) : Prop where
  | kept (se : t.se q = s.se q) (holder : t.wrrHolder c = some q ↔ s.wrrHolder c = some q)
  | settled
      (sum : (s.task q).schedClass = .wrr →
        (t.se q).sumExecRuntime = ((updateCurrWrr s c).se q).sumExecRuntime)
      (start : t.wrrHolder c = some q → (t.se q).execStart = (s.rq c).clockTask)

theorem schedClass_blind : PlaceBlind Task.schedClass := fun _ _ _ _ => rfl

/-- The holder depends on the current task and its class. -/
theorem System.wrrHolder_congr (hcurr : (t.rq c).curr = (s.rq c).curr)
    (hclass : SameOn Task.schedClass s t) : t.wrrHolder c = s.wrrHolder c := by
  unfold System.wrrHolder
  rw [hcurr, hclass]

/-- A task outside the WRR class, before and after. -/
theorem Accounted.of_not_wrr (hk : (s.task q).schedClass ≠ .wrr) (hholder : t.wrrHolder c ≠ some q) :
    Accounted c s t q :=
  .settled (fun hwrr => absurd hwrr hk) fun hrun => absurd hrun hholder

/-- The books of a task are those of any state with the same entity and the same holder. -/
theorem Accounted.congr (h : Accounted c s t q) (hse : u.se q = t.se q)
    (hholder : u.wrrHolder c = t.wrrHolder c) : Accounted c s u q := by
  cases h with
  | kept hse' hholder' => exact .kept (hse.trans hse') (hholder ▸ hholder')
  | settled hsum hstart =>
    rw [← hholder] at hstart
    rw [← hse] at hsum hstart
    exact .settled hsum hstart

/-- The update of some class, while every task keeps its class and the current task stays. -/
theorem Accounted.of_update (k : ClassId) (hse : t.se = (updateCurr k s c).se)
    (hholder : t.wrrHolder c = s.wrrHolder c) (q : Pid) : Accounted c s t q := by
  by_cases hk : (s.task q).schedClass = .wrr
  · rcases updateCurr_se_cases (c := c) (k := k) hk with hq | hq
    · refine .settled (fun _ => by rw [hse, hq]) fun hrun => ?_
      rw [hse, hq, updateCurrWrr_se_holder (hholder ▸ hrun)]
      rfl
    · exact .kept (by rw [hse, hq]) (by rw [hholder])
  · refine .of_not_wrr hk fun hrun => hk ?_
    rw [hholder] at hrun
    exact (System.wrrHolder_eq_some.mp hrun).2

/-- A step that charges nobody keeps the books as long as the holder stays. -/
theorem Accounted.of_se (hse : t.se = s.se) (hholder : t.wrrHolder c = s.wrrHolder c) (q : Pid) :
    Accounted c s t q := Accounted.kept (by rw [hse]) (by rw [hholder])

/-- A change of the accounting of tasks that are not in the WRR class. -/
theorem Accounted.of_others (hse : ∀ q, (s.task q).schedClass = .wrr → t.se q = s.se q)
    (hholder : t.wrrHolder c = s.wrrHolder c) (q : Pid) : Accounted c s t q := by
  by_cases hk : (s.task q).schedClass = .wrr
  · exact .kept (hse q hk) (by rw [hholder])
  · refine .of_not_wrr hk fun hrun => hk ?_
    rw [hholder] at hrun
    exact (System.wrrHolder_eq_some.mp hrun).2

theorem activateOn_accounted (cfg : Config) (s : System) (p : Pid) (c' : Cpu) (flags : Nat)
    (o : Outside) (q : Pid) : Accounted c s (activateOn cfg s p c' flags o) q := by
  have heff := activateOn_effect cfg s p c' flags o
  refine .of_se ?_ (System.wrrHolder_congr (heff.frame.curr c) (heff.sameOn rfl)) q
  unfold activateOn activateTask
  rw [checkPreemptCurr_se, System.updTask_se, enqueueTask_se, System.updTask_se]

theorem activateTask_accounted (cfg : Config) (s : System) (p : Pid) (c' : Cpu) (flags : Nat)
    (q : Pid) : Accounted c s (activateTask cfg s p c' flags) q := by
  have heff := activateTask_effect cfg s p c' flags
  refine .of_se ?_ (System.wrrHolder_congr (heff.frame.curr c) (heff.sameOn rfl)) q
  unfold activateTask
  rw [System.updTask_se, enqueueTask_se, System.updTask_se]

/-- A dequeue on the cpu charges its current task, if that is of the class of the other. -/
theorem deactivateTask_accounted (cfg : Config) (s : System) (c : Cpu) (p q : Pid) :
    Accounted c s (deactivateTask cfg s c p) q := by
  have heff := deactivateTask_effect cfg s c p
  refine .of_update (s.task p).schedClass ?_
    (System.wrrHolder_congr (heff.frame.curr c) (heff.sameOn rfl)) q
  exact dequeueTask_se cfg s c p

/-- Moving a task within its queue does not change the holder. -/
theorem Move.wrrHolder_eq (h : Move cfg s t p) : t.wrrHolder c = s.wrrHolder c := by
  obtain ⟨_, _, _, _, -, heff⟩ := h.effect
  exact System.wrrHolder_congr (h.frame.curr c) (heff.sameOn rfl)

theorem schedulerTick_accounted (h : Inv cfg s)
    (hcurr : (s.rq c).curr = (s.rq c).idle ∨ s.CurrOnRq c) (o : Outside) (q : Pid) :
    Accounted c s (schedulerTick cfg s c o) q := by
  refine .of_update (s.task (s.rq c).curr).schedClass (schedulerTick_se cfg s c o) ?_ q
  rcases hcurr with hc | ⟨hon, hcpu⟩
  · rw [(idle_tick h hc o).1]
  · exact (schedulerTick_move hcpu (h.task _ (h.alive_of_onRq hon)).rtPriority o).wrrHolder_eq

/-- A yield does not change the holder before the switch. -/
theorem yieldTask_wrrHolder (h : Inv cfg s)
    (hcurr : (s.rq c).curr = (s.rq c).idle ∨ s.CurrOnRq c) (o : Outside) :
    (yieldTask cfg s c o).wrrHolder c = s.wrrHolder c := by
  rcases hcurr with hc | ⟨hon, hcpu⟩
  · rw [(idle_tick h hc o).2]
  · exact (yieldTask_move hcpu (h.task _ (h.alive_of_onRq hon)).rtPriority o).wrrHolder_eq

/-! ### Reschedules -/

/-- A second update at the same time charges nothing. -/
theorem updateCurr_again (hse : t.se = (updateCurr k s c).se)
    (hcurr : (t.rq c).curr = (s.rq c).curr) (hclass : SameOn Task.schedClass s t)
    (hclock : (t.rq c).clockTask = (s.rq c).clockTask) (hlt : (s.rq c).clockTask < 2 ^ 64) :
    (updateCurr k t c).se = t.se := by
  -- the first update has moved `exec_start` to the present
  have hagain : t.se = (s.chargeCurr c).se → (t.chargeCurr c).se = t.se := by
    intro h
    have hself : t.se (s.rq c).curr = (s.se (s.rq c).curr).charge (s.rq c).clockTask := by
      rw [h, System.chargeCurr_se, Function.update_self]
    rw [System.chargeCurr_se, hcurr, hclock, hself, SchedEntity.charge_charge hlt, ← hself,
      Function.update_eq_self]
  have htask : (t.task (t.rq c).curr).schedClass = (s.task (s.rq c).curr).schedClass := by
    rw [hcurr, hclass]
  cases k with
  | rt =>
    show (Rt.updateCurrRt t c).se = t.se
    unfold Rt.updateCurrRt
    rw [htask]
    split
    · rfl
    next hk => exact hagain (hse.trans (congrArg System.se (if_neg hk)))
  | wrr =>
    show (updateCurrWrr t c).se = t.se
    unfold updateCurrWrr
    rw [htask]
    split
    · rfl
    next hk => exact hagain (hse.trans (congrArg System.se (if_neg hk)))
  | stop | fair | idle => rfl

/-- Whether the previous task sleeps or not, it has been charged before the pick. -/
theorem retirePrev_se (hlt : (s.rq c).clockTask < 2 ^ 64) (sleep : Bool)
    (hq : (s.task q).schedClass = .wrr) :
    (retirePrev cfg s c sleep).se q = (updateCurrWrr s c).se q := by
  rw [← updateCurr_curr_se rfl hq]
  unfold retirePrev
  dsimp only
  rw [putPrevTask_eq]
  cases sleep with
  | true =>
    have heff := deactivateTask_effect cfg s c (s.rq c).curr
    have hse : (deactivateTask cfg s c (s.rq c).curr).se =
      (updateCurr (s.task (s.rq c).curr).schedClass s c).se := dequeueTask_se cfg s c _
    have hclass : SameOn Task.schedClass s (deactivateTask cfg s c (s.rq c).curr) :=
      heff.sameOn rfl
    rw [if_pos rfl, show ((deactivateTask cfg s c (s.rq c).curr).task (s.rq c).curr).schedClass =
      (s.task (s.rq c).curr).schedClass from hclass _, updateCurr_again hse (heff.frame.curr c) hclass
        (heff.frame.clockTask c) hlt, hse]
  | false => rw [if_neg Bool.false_ne_true]

/-- The classes with a stopwatch start it when their task is picked. -/
theorem classPick_started (h : Inv cfg s) (ho : s.FairPickOk c o)
    (hpick : (schedClassOf cfg k).pickNextTask s c o = (some q, t)) :
    t = s ∧ (s.task q).schedClass ≠ .wrr ∨ t = s.startExec c q := by
  cases k with
  | stop =>
    have hstop : stopSchedClass.pickNextTask s c o = (some q, t) := hpick
    unfold stopSchedClass at hstop
    dsimp only at hstop
    cases hs : (s.rq c).stop with
    | none =>
      rw [hs] at hstop
      cases hstop
    | some p =>
      rw [hs] at hstop
      dsimp only at hstop
      split at hstop <;> cases hstop
      refine .inl ⟨rfl, ?_⟩
      rw [((h.stop c q).mp hs).2.1]
      decide
  | rt =>
    have hrt : Rt.pickNextTaskRt s c = (some q, t) := hpick
    unfold Rt.pickNextTaskRt at hrt
    dsimp only at hrt
    split at hrt
    · cases hrt
    · split at hrt
      · cases hrt
      · split at hrt <;> cases hrt
        exact .inr rfl
  | wrr =>
    have hwrr : (wrrSchedClass cfg).pickNextTask s c o = (some q, t) := hpick
    rw [wrrSchedClass_pick, pickNextTaskWrr] at hwrr
    dsimp only at hwrr
    split at hwrr
    · cases hwrr
    · split at hwrr <;> cases hwrr
      exact .inr rfl
  | fair =>
    have hfair : (o.fairPick, s) = (some q, t) := hpick
    unfold System.FairPickOk at ho
    rw [(Prod.mk.inj hfair).1] at ho
    refine .inl ⟨(Prod.mk.inj hfair).2.symm, ?_⟩
    rw [ho.2.1]
    decide
  | idle =>
    have hidle : (some (s.rq c).idle, s) = (some q, t) := hpick
    cases hidle
    refine .inl ⟨rfl, ?_⟩
    rw [((h.idle c _).mp rfl).2.1]
    decide

/-- A pick starts the clock of the task it answers, if the task is a WRR one. -/
theorem pickFrom_started (h : Inv cfg s) (ho : s.FairPickOk c o) {ks : List ClassId}
    (hpick : pickFrom cfg c o ks s = (some q, t)) :
    t = s ∧ (s.task q).schedClass ≠ .wrr ∨ t = s.startExec c q := by
  induction ks with
  | nil => cases hpick
  | cons k ks ih =>
    have hskip : (schedClassOf cfg k).pickNextTask s c o = (none, s) →
        t = s ∧ (s.task q).schedClass ≠ .wrr ∨ t = s.startExec c q := by
      intro hnone
      rw [pickFrom_of_none hnone] at hpick
      exact ih hpick
    have htake : ∀ {p u}, (schedClassOf cfg k).pickNextTask s c o = (some p, u) →
        t = s ∧ (s.task q).schedClass ≠ .wrr ∨ t = s.startExec c q := by
      intro p u hsome
      rw [pickFrom_of_some hsome] at hpick
      cases hpick
      exact classPick_started h ho hsome
    by_cases hsome : ∃ p, s.Eligible k c p
    · obtain ⟨p, hp⟩ := hsome
      obtain ⟨q', u, hq', -⟩ := h.classPick_some ho hp
      exact htake hq'
    · have hnone : ∀ p, ¬s.Eligible k c p := fun p hp => hsome ⟨p, hp⟩
      by_cases hidle : k = .idle
      · subst hidle
        exact htake (p := (s.rq c).idle) (u := s) rfl
      · by_cases hfair : k = .fair
        · subst hfair
          exact hskip (Inv.fairPick_none ho hnone)
        · exact hskip (h.classPick_none hfair hidle hnone)

/-- The switch starts the stopwatch of the next task, if that is a WRR task. -/
theorem switchTo_started (h : Inv cfg s) (ho : s.FairPickOk c o) (prev : Pid) :
    (∀ q, ((switchTo cfg s c prev o).se q).sumExecRuntime = (s.se q).sumExecRuntime) ∧
      ∀ q, (switchTo cfg s c prev o).wrrHolder c = some q →
        ((switchTo cfg s c prev o).se q).execStart = (s.rq c).clockTask := by
  obtain ⟨q, u, hpick, -⟩ := h.pick_best ho
  have hstart := pickFrom_started h ho hpick
  rw [← h.pickNextTask_eq] at hpick
  have htask : u.task = s.task := by
    have honly := pickNextTask_only cfg s c o
    rw [hpick] at honly
    exact honly.task
  have hswitch : switchTo cfg s c prev o =
      (u.clearTskNeedResched prev).updRq c fun r => { r with curr := q } := by
    unfold switchTo
    rw [hpick]
  have hcurr : ((switchTo cfg s c prev o).rq c).curr = q := by
    rw [hswitch, System.updRq_rq, Function.update_self]
  have hclass : (switchTo cfg s c prev o).task = s.task := by
    rw [hswitch]
    exact htask
  have hse : (switchTo cfg s c prev o).se = u.se := by
    rw [hswitch]
    rfl
  rw [hse]
  constructor
  · intro p
    rcases hstart with ⟨rfl, -⟩ | rfl
    · rfl
    · by_cases hp : p = q
      · subst hp
        show (Function.update s.se p _ p).sumExecRuntime = _
        rw [Function.update_self]
      · show (Function.update s.se q _ p).sumExecRuntime = _
        rw [Function.update_of_ne hp]
  · intro p hp
    obtain ⟨hcp, hk⟩ := System.wrrHolder_eq_some.mp hp
    rw [hcurr] at hcp
    subst hcp
    rw [hclass] at hk
    -- a class that does not start the stopwatch has not offered a WRR task
    rcases hstart with ⟨-, hne⟩ | rfl
    · exact absurd hk hne
    · show (Function.update s.se q _ q).execStart = _
      rw [Function.update_self]

/-- `__schedule` charges the previous task and starts the next. -/
theorem schedule_accounted (h : Inv cfg s) {sleep : Bool} (hsleep : sleep = true → s.CurrOnRq c)
    (ho : (retirePrev cfg s c sleep).FairPickOk c o) (hlt : (s.rq c).clockTask < 2 ^ 64) (q : Pid) :
    Accounted c s (schedule cfg s c sleep o) q := by
  obtain ⟨hsum, hstart⟩ := switchTo_started (retirePrev_inv h hsleep) ho (s.rq c).curr
  obtain ⟨heff, -⟩ := retirePrev_effect cfg s c sleep
  refine .settled (fun hk => ?_) fun hrun => ?_
  · unfold schedule
    rw [hsum, retirePrev_se hlt sleep hk]
  · rw [← heff.frame.clockTask c]
    exact hstart q hrun

/-- `sys_sched_yield`: the yield itself charges nothing. -/
theorem schedYield_accounted (h : Inv cfg s)
    (hcurr : (s.rq c).curr = (s.rq c).idle ∨ s.CurrOnRq c)
    (ho : (retirePrev cfg (yieldTask cfg s c o) c false).FairPickOk c o)
    (hlt : (s.rq c).clockTask < 2 ^ 64) (q : Pid) : Accounted c s (schedYield cfg s c o) q := by
  have hclass : SameOn Task.schedClass s (yieldTask cfg s c o) ∧
      ((yieldTask cfg s c o).rq c).clockTask = (s.rq c).clockTask := by
    rcases hcurr with hc | ⟨hon, hcpu⟩
    · rw [(idle_tick h hc o).2]
      exact ⟨SameOn.refl _ s, rfl⟩
    · have hmove : Move cfg s (yieldTask cfg s c o) (s.rq c).curr :=
        yieldTask_move hcpu (h.task _ (h.alive_of_onRq hon)).rtPriority o
      obtain ⟨_, _, _, _, -, heff⟩ := hmove.effect
      exact ⟨heff.sameOn rfl, hmove.frame.clockTask c⟩
  obtain ⟨hclass, hclock⟩ := hclass
  have hholder := System.wrrHolder_congr ((yieldTask_currKept h hcurr o).curr c) hclass
  have hupdate : (updateCurrWrr (yieldTask cfg s c o) c).se q = (updateCurrWrr s c).se q := by
    by_cases hq : s.wrrHolder c = some q
    · rw [updateCurrWrr_se_holder hq, updateCurrWrr_se_holder (hholder.trans hq), yieldTask_se, hclock]
    · rw [updateCurrWrr_se_other hq, updateCurrWrr_se_other (by rwa [hholder]), yieldTask_se]
  have hsched : Accounted c (yieldTask cfg s c o) (schedYield cfg s c o) q :=
    schedule_accounted (yieldTask_inv h hcurr o) (fun hs : false = true => nomatch hs) ho
      (by rwa [hclock]) q
  cases hsched with
  | kept hse hholder' =>
    refine .kept ?_ (hholder'.trans (by rw [hholder]))
    rw [← yieldTask_se cfg s c o]
    exact hse
  | settled hsum hstart =>
    rw [hclass, hupdate] at hsum
    rw [hclock] at hstart
    exact .settled hsum hstart

/-! ### Changes of policy -/

/-- Every other cpu runs its idle task. -/
def System.OnlyCpu (s : System) (c : Cpu) : Prop :=
  ∀ c', c' ≠ c → (s.rq c').curr = (s.rq c').idle

theorem System.OnlyCpu.of_frame (h : s.OnlyCpu c) (hframe : Frame s t) : t.OnlyCpu c := by
  intro c' hc
  rw [hframe.curr, hframe.idle]
  exact h c' hc

/-- Moving an RT task to another cpu charges no task but a running RT task. -/
theorem moveRtTask_se (h : Inv cfg s) (honly : s.OnlyCpu c)
    (hq : (s.task q).schedClass = .rt → (s.rq c).curr ≠ q) (r : Pid) (dest : Cpu) :
    (Rt.moveRtTask s r dest).se q = s.se q := by
  have hupdate : ∀ src, (Rt.updateCurrRt s src).se q = s.se q := by
    intro src
    by_cases hk : (s.task q).schedClass = .rt
    · refine updateCurrRt_se_of_ne ?_
      rintro rfl
      by_cases hsrc : src = c
      · subst hsrc
        exact hq hk rfl
      · -- the other cpus run their idle tasks
        rw [honly src hsrc, ((h.idle src _).mp rfl).2.1] at hk
        cases hk
    · exact updateCurrRt_se_other hk
  unfold Rt.moveRtTask
  dsimp only
  split
  · show (Rt.dequeueRtStack _ _).se q = s.se q
    rw [dequeueRtStack_se]
    show (Rt.dequeueRtStack (Rt.updateCurrRt s _) r).se q = s.se q
    rw [dequeueRtStack_se, hupdate]
  · rfl

/-- On a single CPU the hooks of a class change book nobody's time but a running RT task's. -/
theorem checkClassChanged_se (h : Inv cfg s) (honly : s.OnlyCpu c)
    (hq : (s.task q).schedClass = .rt → (s.rq c).curr ≠ q) (c' : Cpu) (p : Pid)
    (prevClass : ClassId) (oldprio : Int) (o : Outside) :
    (checkClassChanged cfg s c' p prevClass oldprio o).se q = s.se q := by
  have hR : Balanced fun t => Balance s t ∧ t.se q = s.se q :=
    { flag := fun t r ht => ⟨ht.1.flag (Flagged.setTskNeedResched t r), ht.2⟩
      move := fun t r dest ht => by
        refine ⟨ht.1.move r dest, ?_⟩
        rw [moveRtTask_se (ht.1.inv h) (honly.of_frame ht.1.frame), ht.2]
        rw [ht.1.sameOn schedClass_blind q, ht.1.frame.curr]
        exact hq }
  exact (hR.checkClassChanged ⟨Balance.refl, rfl⟩ cfg c' p prevClass oldprio o).2

/-- Taking a task off its queue books the time of the current task, as its class does. -/
theorem detach_se (cfg : Config) (s : System) (p : Pid) : (detach cfg s p).se =
    (updateCurr (if (s.task p).onRq then (s.task p).schedClass else .fair) s (s.task p).cpu).se := by
  unfold detach
  split
  · exact dequeueTask_se cfg s _ p
  · rfl

/-- The running task is charged by the dequeue, by `put_prev_task`, or by both. -/
theorem takeOff_se_running (cfg : Config) (hcurr : (s.rq (s.task p).cpu).curr = p)
    (hlt : (s.rq (s.task p).cpu).clockTask < 2 ^ 64) : (takeOff cfg s p).se =
      (updateCurr (s.task p).schedClass s (s.task p).cpu).se := by
  have hput : takeOff cfg s p = putPrevTask cfg (detach cfg s p) (s.task p).cpu p := if_pos hcurr
  have hframe := detach_frame cfg s p
  rw [hput, putPrevTask_eq, detach_task]
  have hse := detach_se cfg s p
  by_cases hon : (s.task p).onRq = true
  · rw [if_pos hon] at hse
    rw [updateCurr_again hse (hframe.curr _) (SameOn.of_task (detach_task cfg s p))
      (hframe.clockTask _) hlt, hse]
  · have hsame : detach cfg s p = s := if_neg hon
    rw [hsame]

/-- Taking off a task that does not run books the current task in the same way. -/
theorem takeOff_se_other (cfg : Config) (hcurr : (s.rq (s.task p).cpu).curr ≠ p) :
    ∃ k, (takeOff cfg s p).se = (updateCurr k s (s.task p).cpu).se := by
  have hput : takeOff cfg s p = detach cfg s p := if_neg hcurr
  rw [hput]
  exact ⟨_, detach_se cfg s p⟩

/-- Putting a task back restarts its clock if it runs, and changes no time otherwise. -/
theorem putBack_se (cfg : Config) (s : System) (c : Cpu) (p : Pid) (onRq running : Bool)
    (flags : Nat) : (putBack cfg s c p onRq running flags).se =
      (if running then setCurrTask cfg s c p else s).se := by
  unfold putBack
  dsimp only
  split
  · exact enqueueTask_se cfg _ c p flags
  · rfl

/-- The state in which `__sched_setscheduler` calls `set_curr_task`. -/
def rescheduled (cfg : Config) (s : System) (p : Pid) (policy : Policy) (reset : Bool)
    (prio : Nat) : System :=
  setscheduler cfg ((takeOff cfg s p).updTask p fun t => { t with schedResetOnFork := reset }) p
    policy prio

/-- Writing the new policy changes no time. -/
theorem rescheduled_se (cfg : Config) (s : System) (p : Pid) (policy : Policy) (reset : Bool)
    (prio : Nat) : (rescheduled cfg s p policy reset prio).se = (takeOff cfg s p).se :=
  setscheduler_se cfg _ p policy prio

theorem rescheduled_frame (cfg : Config) (s : System) (p : Pid) (policy : Policy) (reset : Bool)
    (prio : Nat) : Frame s (rescheduled cfg s p policy reset prio) := by
  obtain ⟨-, hrq, -⟩ := setscheduler_effect cfg
    ((takeOff cfg s p).updTask p fun t => { t with schedResetOnFork := reset }) p policy prio
  exact (takeOff_frame cfg s p).trans (Frame.of_rq hrq)

/-- Changing the policy of a task that does not run on the cpu charges its current task, if
anything. -/
theorem withScheduler_se_other (cfg : Config) (hcurr : (s.rq (s.task p).cpu).curr ≠ p) (policy : Policy)
    (reset : Bool) (prio : Nat) : ∃ k, (withScheduler cfg s p policy reset prio).se =
      (updateCurr k s (s.task p).cpu).se := by
  obtain ⟨k, hk⟩ := takeOff_se_other cfg hcurr
  refine ⟨k, ?_⟩
  rw [withScheduler, putBack_se, if_neg (by simpa using hcurr), ← hk]
  exact rescheduled_se cfg s p policy reset prio

/-- Changing the policy of the running task charges it, and starts its stopwatch again if it
is then a WRR task. -/
theorem withScheduler_se_running (cfg : Config) (hcurr : (s.rq (s.task p).cpu).curr = p)
    (hlt : (s.rq (s.task p).cpu).clockTask < 2 ^ 64) (policy : Policy) (reset : Bool) (prio : Nat) :
    (∀ q, q ≠ p → (withScheduler cfg s p policy reset prio).se q = s.se q) ∧
      ((withScheduler cfg s p policy reset prio).se p).sumExecRuntime =
        ((updateCurr (s.task p).schedClass s (s.task p).cpu).se p).sumExecRuntime ∧
      (((withScheduler cfg s p policy reset prio).task p).schedClass = .wrr →
        ((withScheduler cfg s p policy reset prio).se p).execStart =
          (s.rq (s.task p).cpu).clockTask) := by
  have hframe := rescheduled_frame cfg s p policy reset prio
  have hse : (withScheduler cfg s p policy reset prio).se = (setCurrTask cfg
      (rescheduled cfg s p policy reset prio) (s.task p).cpu p).se := by
    rw [withScheduler, putBack_se, if_pos (by simpa using hcurr)]
    rfl
  have hclass : (withScheduler cfg s p policy reset prio).task =
      (rescheduled cfg s p policy reset prio).task := putBack_task ..
  have hold : (rescheduled cfg s p policy reset prio).se =
      (updateCurr (s.task p).schedClass s (s.task p).cpu).se :=
    (rescheduled_se cfg s p policy reset prio).trans (takeOff_se_running cfg hcurr hlt)
  rw [hse, hclass, setCurrTask_eq, hframe.curr, hcurr]
  generalize rescheduled cfg s p policy reset prio = u at hframe hold
  -- now `set_curr_task` starts the stopwatch again, in the classes that have one
  refine ⟨fun q hq => ?_, ?_, fun hk => ?_⟩
  · have hother : (updateCurr (s.task p).schedClass s (s.task p).cpu).se q = s.se q :=
      updateCurr_se_of_ne (by rwa [hcurr])
    rw [← hother, ← hold]
    split
    · show Function.update u.se p _ q = _
      rw [Function.update_of_ne hq]
    · rfl
  · rw [← hold]
    split
    · show (Function.update u.se p _ p).sumExecRuntime = _
      rw [Function.update_self]
    · rfl
  · rw [if_pos (.inr hk)]
    show (Function.update u.se p _ p).execStart = _
    rw [Function.update_self]
    exact hframe.clockTask _

/-- A task that runs on is not touched when it enters the RT class. -/
theorem checkClassChanged_running (hcurr : (s.rq c).curr = p) (hk : (s.task p).schedClass = .rt)
    (oldprio : Int) (o : Outside) : checkClassChanged cfg s c p .wrr oldprio o = s := by
  have hfrom : (schedClassOf cfg .wrr).switchedFrom s c p o = s :=
    wrrSchedClass_switchedFrom cfg s c p o
  unfold checkClassChanged
  rw [if_pos (by rw [hk]; decide), hfrom]
  show (schedClassOf cfg (s.task p).schedClass).switchedTo s c p o = s
  rw [hk]
  exact if_neg fun hp => hp.2 hcurr

/-- `check_class_changed` may charge the running task, if that is an RT task, and no other. -/
theorem changeScheduler_se (h : Inv cfg s) (hp : s.Ordinary p) {policy : Policy} {prio : Nat}
    (hprio : PrioFor policy prio) (honly : s.OnlyCpu (s.task p).cpu) (reset : Bool) (o : Outside)
    (hq : ((withScheduler cfg s p policy reset prio).task q).schedClass ≠ .rt ∨
      q ≠ (s.rq (s.task p).cpu).curr) : (changeScheduler cfg s p policy reset prio o).se q =
      (withScheduler cfg s p policy reset prio).se q := by
  obtain ⟨slice, times, heff, -⟩ := withScheduler_effect cfg s p policy reset prio
  have hinv := withScheduler_inv h hp hprio reset
  rw [changeScheduler_eq]
  refine checkClassChanged_se hinv (honly.of_frame heff.frame) (fun hk => ?_) _ p _ _ o
  rw [heff.frame.curr]
  exact Ne.symm (hq.resolve_left fun hne => hne hk)

/-- The holder after a change of policy is the one after writing it. -/
theorem changeScheduler_wrrHolder (cfg : Config) (s : System) (p : Pid) (policy : Policy)
    (reset : Bool) (prio : Nat) (o : Outside) :
    (changeScheduler cfg s p policy reset prio o).wrrHolder (s.task p).cpu =
      (withScheduler cfg s p policy reset prio).wrrHolder (s.task p).cpu := by
  have hbal := checkClassChanged_balance cfg (withScheduler cfg s p policy reset prio)
    (s.task p).cpu p (s.task p).schedClass (s.task p).prio o
  rw [changeScheduler_eq]
  exact System.wrrHolder_congr (hbal.frame.curr (s.task p).cpu) (hbal.sameOn schedClass_blind)

/-- The running task is charged before the change and timed from then on. -/
theorem changeScheduler_accounted_running (h : Inv cfg s) (hp : s.Ordinary p) {policy : Policy}
    {prio : Nat} (hprio : PrioFor policy prio) (honly : s.OnlyCpu (s.task p).cpu)
    (hlt : (s.rq (s.task p).cpu).clockTask < 2 ^ 64) (hcurr : (s.rq (s.task p).cpu).curr = p)
    (reset : Bool) (o : Outside) (q : Pid) :
    Accounted (s.task p).cpu s (changeScheduler cfg s p policy reset prio o) q := by
  obtain ⟨slice, times, heff, -⟩ := withScheduler_effect cfg s p policy reset prio
  obtain ⟨hother, hsum, hstart⟩ := withScheduler_se_running cfg hcurr hlt policy reset prio
  have hholder := changeScheduler_wrrHolder cfg s p policy reset prio o
  by_cases hq : q = p
  · subst hq
    have hkept : (s.task q).schedClass = .wrr ∨
        ((withScheduler cfg s q policy reset prio).task q).schedClass = .wrr →
        (changeScheduler cfg s q policy reset prio o).se q =
          (withScheduler cfg s q policy reset prio).se q := by
      intro hk
      by_cases hrt : ((withScheduler cfg s q policy reset prio).task q).schedClass = .rt
      · -- it has left the WRR class for the RT class, and runs on
        rw [hrt] at hk
        have hwrr : (s.task q).schedClass = .wrr := hk.resolve_right (by decide)
        have hrun := heff.frame.curr (s.task q).cpu
        rw [changeScheduler_eq, hwrr, checkClassChanged_running (hrun.trans hcurr) hrt]
      · exact changeScheduler_se h hp hprio honly reset o (.inl hrt)
    refine .settled (fun hk => ?_) fun hrun => ?_
    · rw [hkept (.inl hk), hsum, hk]
      rfl
    · rw [hholder] at hrun
      have hk := (System.wrrHolder_eq_some.mp hrun).2
      rw [hkept (.inr hk), hstart hk]
  · refine .kept ?_ ?_
    · rw [changeScheduler_se h hp hprio honly reset o (.inr (by rwa [hcurr])), hother q hq]
    · rw [hholder, System.wrrHolder_eq_some, System.wrrHolder_eq_some, heff.frame.curr, hcurr]
      exact ⟨fun hpq => absurd hpq.1.symm hq, fun hpq => absurd hpq.1.symm hq⟩

/-- Another task runs on, and may have been charged by the dequeue. -/
theorem changeScheduler_accounted_other (h : Inv cfg s) (hp : s.Ordinary p) {policy : Policy}
    {prio : Nat} (hprio : PrioFor policy prio) (honly : s.OnlyCpu (s.task p).cpu)
    (hcurr : (s.rq (s.task p).cpu).curr ≠ p) (reset : Bool) (o : Outside) (q : Pid) :
    Accounted (s.task p).cpu s (changeScheduler cfg s p policy reset prio o) q := by
  obtain ⟨slice, times, heff, -⟩ := withScheduler_effect cfg s p policy reset prio
  obtain ⟨k, hk⟩ := withScheduler_se_other cfg hcurr policy reset prio
  have hholder := changeScheduler_wrrHolder cfg s p policy reset prio o
  have hholder' : (withScheduler cfg s p policy reset prio).wrrHolder (s.task p).cpu =
      s.wrrHolder (s.task p).cpu := by
    unfold System.wrrHolder
    rw [heff.frame.curr, heff.other hcurr]
  by_cases hq : ((withScheduler cfg s p policy reset prio).task q).schedClass = .rt ∧
      q = (s.rq (s.task p).cpu).curr
  · -- a running RT task, which the hooks may charge
    have hqp : q ≠ p := by
      rw [hq.2]
      exact hcurr
    have hrt : (s.task q).schedClass = .rt := by
      rw [← heff.other hqp]
      exact hq.1
    have hne : (s.task q).schedClass ≠ .wrr := by
      rw [hrt]
      decide
    refine .of_not_wrr hne fun hrun => hne ?_
    rw [hholder, hholder'] at hrun
    exact (System.wrrHolder_eq_some.mp hrun).2
  · refine (Accounted.of_update k hk hholder' q).congr ?_ hholder
    refine changeScheduler_se h hp hprio honly reset o ?_
    exact Classical.or_iff_not_imp_left.mpr fun hrt => fun heq => hq ⟨not_not.mp hrt, heq⟩

/-- `__sched_setscheduler` keeps the books, whether its task runs or not. -/
theorem changeScheduler_accounted (h : Inv cfg s) (hp : s.Ordinary p) {policy : Policy} {prio : Nat}
    (hprio : PrioFor policy prio) (honly : s.OnlyCpu (s.task p).cpu)
    (hlt : (s.rq (s.task p).cpu).clockTask < 2 ^ 64) (reset : Bool) (o : Outside) (q : Pid) :
    Accounted (s.task p).cpu s (changeScheduler cfg s p policy reset prio o) q := by
  by_cases hcurr : (s.rq (s.task p).cpu).curr = p
  · exact changeScheduler_accounted_running h hp hprio honly hlt hcurr reset o q
  · exact changeScheduler_accounted_other h hp hprio honly hcurr reset o q

/-! ## The events of one run queue -/

/-- An operation, or the accounting of tasks of other classes: that of the fair class is outside
the repository. -/
inductive RqEvent where
  | issue (op : Op)
  | account (se : Pid → SchedEntity)

def RqEvent.exec (cfg : Config) (s : System) : RqEvent → System
  | .issue op => LinuxWrr.exec cfg s op
  | .account se => { s with se := se }

/-- The operations on the run queue of `c`, whose clock does not go back. -/
def Op.On (cfg : Config) (s : System) (c : Cpu) : Op → Prop
  | .clock c' now => c' = c ∧ (s.rq c).clockTask ≤ now ∧ now < 2 ^ 64
  | .tick c' _ | .yield c' _ | .wakeUp _ c' _ | .wakeUpNew _ c' _ | .enqueue _ c' _ => c' = c
  | .schedule c' sleep o => c' = c ∧ (retirePrev cfg s c sleep).FairPickOk c o
  | .schedYield c' o => c' = c ∧ (retirePrev cfg (yieldTask cfg s c o) c false).FairPickOk c o
  | .dequeue p | .setscheduler p _ _ _ _ => (s.task p).cpu = c
  | _ => False

def RqEvent.Ok (cfg : Config) (c : Cpu) (s : System) : RqEvent → Prop
  | .issue op => op.Pre s ∧ op.On cfg s c
  | .account se => ∀ p, (s.task p).schedClass = .wrr → se p = s.se p

/-- What the clock advances to. -/
def RqEvent.now : RqEvent → Option Nat
  | .issue (.clock _ now) => some now
  | _ => none

/-- The clock stays less than 2^63 ns after the last update of a running WRR task. -/
def RqEvent.Near (c : Cpu) (s : System) (e : RqEvent) : Prop :=
  ∀ now, e.now = some now → ∀ p, s.wrrHolder c = some p → now - (s.se p).execStart < 2 ^ 63

instance (c : Cpu) (s : System) (e : RqEvent) : Decidable (e.Near c s) :=
  inferInstanceAs (Decidable (∀ now ∈ e.now, ∀ p ∈ s.wrrHolder c, now - (s.se p).execStart < 2 ^ 63))

/-- An event at which the clock stands still. -/
structure Still (cfg : Config) (c : Cpu) (s t : System) : Prop where
  inv : Inv cfg t
  only : t.OnlyCpu c
  clock : (t.rq c).clockTask = (s.rq c).clockTask
  accounted : ∀ q, Accounted c s t q

/-- A step that keeps the invariant, the frame and the books is a still one. -/
theorem Still.of_frame (hinv : Inv cfg t) (honly : s.OnlyCpu c) (hframe : Frame s t)
    (hacc : ∀ q, Accounted c s t q) : Still cfg c s t :=
  ⟨hinv, honly.of_frame hframe, hframe.clockTask c, hacc⟩

theorem idle_or_move (h : Inv cfg s) (hcurr : (s.rq c).curr = (s.rq c).idle ∨ s.CurrOnRq c)
    (o : Outside) : Frame s (schedulerTick cfg s c o) ∧ Frame s (yieldTask cfg s c o) := by
  rcases hcurr with hc | ⟨hon, hcpu⟩
  · rw [(idle_tick h hc o).1, (idle_tick h hc o).2]
    exact ⟨Frame.refl s, Frame.refl s⟩
  · have hrtp := (h.task _ (h.alive_of_onRq hon)).rtPriority
    have htick : Move cfg s (schedulerTick cfg s c o) _ := schedulerTick_move hcpu hrtp o
    have hyield : Move cfg s (yieldTask cfg s c o) _ := yieldTask_move hcpu hrtp o
    exact ⟨htick.frame, hyield.frame⟩

/-- `__schedule` changes what one cpu runs, and no clock. -/
theorem schedule_only (h : Inv cfg s) {sleep : Bool} (hsleep : sleep = true → s.CurrOnRq c)
    (ho : (retirePrev cfg s c sleep).FairPickOk c o) (honly : s.OnlyCpu c) :
    (schedule cfg s c sleep o).OnlyCpu c ∧
      ((schedule cfg s c sleep o).rq c).clockTask = (s.rq c).clockTask := by
  obtain ⟨heff, -⟩ := retirePrev_effect cfg s c sleep
  obtain ⟨q, -, -, hrq, -⟩ := switchTo_best (retirePrev_inv h hsleep) ho (s.rq c).curr
  have honly' := honly.of_frame heff.frame
  constructor
  · intro c' hc
    unfold schedule
    rw [hrq, Function.update_of_ne hc]
    exact honly' c' hc
  · unfold schedule
    rw [hrq, Function.update_self]
    exact heff.frame.clockTask c

/-- **Step lemma**: every event but the clock is one charge at most, of the right task. -/
theorem event_still (h : Inv cfg s) (honly : s.OnlyCpu c) (hlt : (s.rq c).clockTask < 2 ^ 64)
    {e : RqEvent} (he : e.Ok cfg c s) (hclock : ∀ c' now, e ≠ .issue (.clock c' now)) :
    Still cfg c s (e.exec cfg s) := by
  cases e with
  -- the other classes charge their own tasks
  | account se =>
    exact .of_frame (h.of_rq rfl rfl) honly (Frame.of_rq rfl) (Accounted.of_others (fun q hq => he q hq) rfl)
  | issue op =>
    obtain ⟨hpre, hon⟩ := he
    have hinv := exec_inv h op hpre
    cases op with
    | wakeUp p c' o | wakeUpNew p c' o =>
      exact .of_frame hinv honly (activateOn_effect cfg s p c' _ o).frame
        (activateOn_accounted cfg s p c' _ o)
    | enqueue p c' flags =>
      exact .of_frame hinv honly (activateTask_frame cfg s p c' flags)
        (activateTask_accounted cfg s p c' flags)
    | dequeue p =>
      have hcpu : (s.task p).cpu = c := hon
      subst hcpu
      exact .of_frame hinv honly (deactivateTask_effect cfg s _ p).frame
        (deactivateTask_accounted cfg s _ p)
    | tick c' o =>
      have hc : c' = c := hon
      subst hc
      exact .of_frame hinv honly (idle_or_move h hpre o).1 (schedulerTick_accounted h hpre o)
    | yield c' o =>
      have hc : c' = c := hon
      subst hc
      exact .of_frame hinv honly (idle_or_move h hpre o).2
        (Accounted.of_se (yieldTask_se cfg s c' o) (yieldTask_wrrHolder h hpre o))
    | schedule c' sleep o =>
      obtain ⟨rfl, ho⟩ := hon
      obtain ⟨honly', hclock'⟩ := schedule_only h hpre ho honly
      exact ⟨hinv, honly', hclock', schedule_accounted h hpre ho hlt⟩
    | schedYield c' o =>
      obtain ⟨rfl, ho⟩ := hon
      have hframe := (idle_or_move h hpre o).2
      have hsleep : false = true → (yieldTask cfg s c' o).CurrOnRq c' := fun hs => nomatch hs
      obtain ⟨honly', hclock'⟩ :=
        schedule_only (yieldTask_inv h hpre o) hsleep ho (honly.of_frame hframe)
      exact ⟨hinv, honly', hclock'.trans (hframe.clockTask c'), schedYield_accounted h hpre ho hlt⟩
    | setscheduler p policy reset prio o =>
      have hcpu : (s.task p).cpu = c := hon
      subst hcpu
      obtain ⟨u, slice, times, heff, hbal⟩ := changeScheduler_effect cfg s p policy reset prio o
      exact .of_frame hinv honly (heff.frame.trans hbal.frame)
        (changeScheduler_accounted h hpre.1 hpre.2 honly hlt reset o)
    | clock c' now => exact absurd rfl (hclock c' now)
    | fork | migrate | nice | setprio | normalize | moveGroup | throttle | unthrottle | requeue | pick =>
      exact hon.elim

/-! ## Metered runs -/

/-- A system, and beside it what was added to `sum_exec_runtime` of every task while it was a
WRR task, how long each was the current task then, and how long the current task was a WRR
task. -/
structure Metered where
  sys : System
  charged : Pid → Nat
  ran : Pid → Nat
  total : Nat

/-- One event of a metered run. -/
def meter (cfg : Config) (c : Cpu) (m : Metered) (e : RqEvent) : Metered :=
  let t := e.exec cfg m.sys
  let elapsed := (t.rq c).clockTask - (m.sys.rq c).clockTask
  { sys := t
    charged := fun p => m.charged p +
      if (m.sys.task p).schedClass = .wrr then (m.sys.se p).added (t.se p) else 0
    ran := fun p => m.ran p + if m.sys.wrrHolder c = some p then elapsed else 0
    total := m.total + if (m.sys.wrrHolder c).isSome then elapsed else 0 }

/-- A freshly initialised system, with nothing metered yet. -/
structure MeteredBoot (c : Cpu) (m : Metered) : Prop where
  boot : Boot m.sys
  clock : (m.sys.rq c).clockTask < 2 ^ 64
  charged : ∀ p, m.charged p = 0
  ran : ∀ p, m.ran p = 0
  total : m.total = 0

theorem MeteredBoot.wrrHolder {m : Metered} (h : MeteredBoot c m) : m.sys.wrrHolder c = none := by
  have hk : (m.sys.task (m.sys.rq c).curr).schedClass = .idle := by
    rw [h.boot.curr c]
    exact ((h.boot.idle c _).mp rfl).2.1
  refine if_neg ?_
  rw [hk]
  decide

/-- The books of the run queue of `c`. -/
def Metered.stopwatch (c : Cpu) (m : Metered) : Stopwatch Pid where
  clock := (m.sys.rq c).clockTask
  holder := m.sys.wrrHolder c
  since p := (m.sys.se p).execStart
  booked := m.charged
  held := m.ran
  total := m.total

/-- What holds along a metered run. -/
structure Metered.Ok (cfg : Config) (c : Cpu) (m : Metered) : Prop where
  inv : Inv cfg m.sys
  only : m.sys.OnlyCpu c
  clock : (m.sys.rq c).clockTask < 2 ^ 64
  near : ∀ p, (m.stopwatch c).pending p < 2 ^ 63
  exact : (m.stopwatch c).Exact

section Meter

variable {m m₀ : Metered} {e : RqEvent}

/-- What is added to a task is what was pending. -/
theorem added_updateCurrWrr (h : m.Ok cfg c) (q : Pid) :
    (m.sys.se q).added ((updateCurrWrr m.sys c).se q) = (m.stopwatch c).pending q := by
  by_cases hq : m.sys.wrrHolder c = some q
  · have hle := h.exact.since q hq
    have hnear := h.near q
    have hpend : (m.stopwatch c).pending q = (m.sys.rq c).clockTask - (m.sys.se q).execStart :=
      Stopwatch.pending_holder hq
    rw [hpend] at hnear ⊢
    rw [updateCurrWrr_se_holder hq]
    exact SchedEntity.added_charge hle h.clock hnear
  · have hpend : (m.stopwatch c).pending q = 0 := Stopwatch.pending_other hq
    rw [updateCurrWrr_se_other hq, SchedEntity.added_self, hpend]

/-- The scheduler refines the stopwatch: an event at which the clock stands still rebooks. -/
theorem meter_rebooks (h : m.Ok cfg c) (hstill : Still cfg c m.sys (e.exec cfg m.sys)) :
    Stopwatch.Rebooks (m.stopwatch c) ((meter cfg c m e).stopwatch c) where
  clock := hstill.clock
  held := by
    funext p
    show m.ran p + (if _ then _ - _ else 0) = m.ran p
    rw [hstill.clock, Nat.sub_self, ite_self, Nat.add_zero]
  total := by
    show m.total + (if _ then _ - _ else 0) = m.total
    rw [hstill.clock, Nat.sub_self, ite_self, Nat.add_zero]
  party q := by
    cases hstill.accounted q with
    | kept hse hholder =>
      refine .kept (congrArg SchedEntity.execStart hse) hholder ?_
      show m.charged q + (if _ then (m.sys.se q).added ((e.exec cfg m.sys).se q) else 0) = m.charged q
      rw [hse, SchedEntity.added_self, ite_self, Nat.add_zero]
    | settled hsum hstart =>
      refine .settled ?_ hstart
      show m.charged q + (if _ then (m.sys.se q).added ((e.exec cfg m.sys).se q) else 0) = _
      congr 1
      by_cases hk : (m.sys.task q).schedClass = .wrr
      · rw [if_pos hk, SchedEntity.added_congr (hsum hk), added_updateCurrWrr h q]
      · have hq : m.sys.wrrHolder c ≠ some q := fun hs => hk (System.wrrHolder_eq_some.mp hs).2
        rw [if_neg hk]
        exact (Stopwatch.pending_other hq).symm

/-- The advance of the clock is that of the stopwatch. -/
theorem meter_advance (cfg : Config) (c : Cpu) (m : Metered) (now : Nat) :
    (meter cfg c m (.issue (.clock c now))).stopwatch c = (m.stopwatch c).advance now := by
  have hrq : ((exec cfg m.sys (.clock c now)).rq c) = { m.sys.rq c with clockTask := now } :=
    Function.update_self c _ m.sys.rq
  have hholder : (exec cfg m.sys (.clock c now)).wrrHolder c = m.sys.wrrHolder c :=
    System.wrrHolder_congr (by rw [hrq]) (SameOn.refl _ m.sys)
  have hbooked : (meter cfg c m (.issue (.clock c now))).charged = m.charged := by
    funext p
    show m.charged p + (if _ then (m.sys.se p).added (m.sys.se p) else 0) = m.charged p
    rw [SchedEntity.added_self, ite_self, Nat.add_zero]
  unfold Metered.stopwatch Stopwatch.advance
  rw [hbooked]
  show Stopwatch.mk _ _ _ _ _ _ = Stopwatch.mk _ _ _ _ _ _
  congr 1
  · show ((exec cfg m.sys (.clock c now)).rq c).clockTask = now
    rw [hrq]
  · funext p
    show m.ran p + (if _ then ((exec cfg m.sys (.clock c now)).rq c).clockTask - _ else 0) = _
    rw [hrq]
  · show m.total + (if _ then ((exec cfg m.sys (.clock c now)).rq c).clockTask - _ else 0) = _
    rw [hrq]

/-- **Step lemma**: the books stay right. -/
theorem meter_ok (h : m.Ok cfg c) (he : e.Ok cfg c m.sys) (hnear : e.Near c m.sys) :
    (meter cfg c m e).Ok cfg c := by
  by_cases hclock : ∃ c' now, e = .issue (.clock c' now)
  · -- the clock moves and nothing else does
    obtain ⟨c', now, rfl⟩ := hclock
    obtain ⟨hpre, rfl, hle, hlt⟩ := he
    have hrq : ∀ d, ((exec cfg m.sys (.clock c' now)).rq d).curr = (m.sys.rq d).curr ∧
        ((exec cfg m.sys (.clock c' now)).rq d).idle = (m.sys.rq d).idle := fun d =>
      have hkept := updRq_currKept m.sys c' (g := fun r => { r with clockTask := now }) rfl rfl
      ⟨hkept.curr d, hkept.idle d⟩
    have hadv := meter_advance cfg c' m now
    refine ⟨exec_inv h.inv _ hpre, fun d hd => ?_, ?_, fun p => ?_, ?_⟩
    · exact ((hrq d).1.trans (h.only d hd)).trans (hrq d).2.symm
    · show (Function.update m.sys.rq c' _ c').clockTask < _
      rwa [Function.update_self]
    · rw [hadv]
      by_cases hp : m.sys.wrrHolder c' = some p
      · have hpend : ((m.stopwatch c').advance now).pending p = now - (m.sys.se p).execStart :=
          Stopwatch.pending_holder hp
        rw [hpend]
        exact hnear now rfl p hp
      · have hpend : ((m.stopwatch c').advance now).pending p = 0 := Stopwatch.pending_other hp
        rw [hpend]
        decide
    · rw [hadv]
      exact h.exact.advance hle
  · -- every other event leaves the clock where it is
    have hstill := event_still h.inv h.only h.clock he fun c' now heq => hclock ⟨c', now, heq⟩
    have hrebooks := meter_rebooks h hstill
    refine ⟨hstill.inv, hstill.only, ?_, fun p => ?_, h.exact.rebooks hrebooks⟩
    · rw [show ((meter cfg c m e).sys.rq c).clockTask = _ from hstill.clock]
      exact h.clock
    · exact (hrebooks.pending_le p).trans_lt (h.near p)

/-- What is charged to `p` right after `update_curr_wrr`, if it is called now. -/
def Metered.afterUpdate (c : Cpu) (m : Metered) (p : Pid) : Nat :=
  m.charged p + (m.sys.se p).added ((updateCurrWrr m.sys c).se p)

/-- WRR run time is charged exactly once. -/
structure ChargedOnce (c : Cpu) (m : Metered) : Prop where
  /-- Right after an update the charge of every task is the time it was current. -/
  share : ∀ p, m.afterUpdate c p = m.ran p
  /-- The charges add up to the time during which a WRR task ran. -/
  total : ∃ S : Finset Pid, (∀ p ∉ S, m.afterUpdate c p = 0) ∧
    ∑ p ∈ S, m.afterUpdate c p = m.total
  /-- A state that an update has left needs no other. -/
  settled : (∀ p, m.sys.wrrHolder c = some p → (m.sys.se p).execStart = (m.sys.rq c).clockTask) →
    ∀ p, m.charged p = m.ran p
  /-- `delta_exec` is the time since `exec_start`, and is not taken for a negative one. -/
  clamp : ∀ p, m.sys.wrrHolder c = some p →
    (m.sys.se p).execStart ≤ (m.sys.rq c).clockTask ∧
      (m.sys.se p).delta (m.sys.rq c).clockTask = (m.sys.rq c).clockTask - (m.sys.se p).execStart ∧
      ¬2 ^ 63 ≤ (m.sys.se p).delta (m.sys.rq c).clockTask

theorem Metered.Ok.afterUpdate (h : m.Ok cfg c) (p : Pid) : m.afterUpdate c p = m.ran p := by
  rw [Metered.afterUpdate, added_updateCurrWrr h]
  exact h.exact.booked p

/-- The invariant says that every nanosecond is charged once. -/
theorem Metered.Ok.chargedOnce (h : m.Ok cfg c) : ChargedOnce c m where
  share := h.afterUpdate
  total := by
    obtain ⟨S, hS, hsum⟩ := h.exact.total
    refine ⟨S, fun p hp => (h.afterUpdate p).trans (hS p hp), ?_⟩
    rw [← show (m.stopwatch c).total = m.total from rfl, ← hsum]
    exact Finset.sum_congr rfl fun p _ => h.afterUpdate p
  settled hstart p := by
    have hpend : (m.stopwatch c).pending p = 0 := by
      by_cases hp : m.sys.wrrHolder c = some p
      · rw [Stopwatch.pending_holder hp]
        exact Nat.sub_eq_zero_of_le (hstart p hp).ge
      · exact Stopwatch.pending_other hp
    have hbooked := h.exact.booked p
    rw [hpend] at hbooked
    exact hbooked
  clamp p hp := by
    have hle := h.exact.since p hp
    have hdelta := SchedEntity.delta_eq hle h.clock
    have hnear : (m.sys.rq c).clockTask - (m.sys.se p).execStart < 2 ^ 63 := by
      have := h.near p
      rwa [Stopwatch.pending_holder hp] at this
    refine ⟨hle, hdelta, ?_⟩
    rw [show (m.sys.se p).delta (m.sys.rq c).clockTask = _ from hdelta]
    exact Nat.not_le.mpr hnear

theorem MeteredBoot.ok (h : MeteredBoot c m) : m.Ok cfg c where
  inv := h.boot.inv
  only c' _ := h.boot.curr c'
  clock := h.clock
  near p := by
    have hnone : m.sys.wrrHolder c = none := h.wrrHolder
    rw [Stopwatch.pending_other (by rw [show (m.stopwatch c).holder = none from hnone]; simp)]
    decide
  exact := Stopwatch.Exact.init h.wrrHolder h.charged h.ran h.total

/-- **WRR run time is charged exactly once**, over every run of one run queue whose running WRR
task is updated at least every 2^63 ns. -/
theorem charged_reach (hboot : MeteredBoot c m₀)
    (h : Reach (fun m e => e.Ok cfg c m.sys ∧ e.Near c m.sys) (meter cfg c) m₀ m) :
    ChargedOnce c m :=
  (h.invariant (I := fun m : Metered => m.Ok cfg c)
    (fun _ _ hm he => meter_ok hm he.1 he.2) hboot.ok).chargedOnce

/-! ### Written-down runs -/

/-- `RqEvent.Ok` as a test, for operations in states that satisfy the invariant. -/
def RqEvent.check (cfg : Config) (c : Cpu) (s : System) : RqEvent → Bool
  | .issue op => op.check s && match op with
    | .clock c' now => decide (c' = c) && decide ((s.rq c).clockTask ≤ now) && decide (now < 2 ^ 64)
    | .tick c' _ | .yield c' _ | .wakeUp _ c' _ | .wakeUpNew _ c' _ | .enqueue _ c' _ =>
      decide (c' = c)
    | .schedule c' sleep o => decide (c' = c) && fairPickCheck (retirePrev cfg s c sleep) c o
    | .dequeue p | .setscheduler p _ _ _ _ => decide ((s.task p).cpu = c)
    | _ => false
  | .account _ => false

theorem RqEvent.ok_of_check (h : Inv cfg s) (hcheck : e.check cfg c s = true) : e.Ok cfg c s := by
  cases e with
  | account se => cases hcheck
  | issue op =>
    obtain ⟨hpre, hon⟩ := Bool.and_eq_true_iff.mp hcheck
    have hpre := Op.pre_of_check h hpre
    refine ⟨hpre, ?_⟩
    cases op with
    | clock c' now =>
      simp only [Bool.and_eq_true, decide_eq_true_eq, and_assoc] at hon
      exact hon
    | schedule c' sleep o =>
      obtain ⟨hc, hfair⟩ := Bool.and_eq_true_iff.mp hon
      have hc : c' = c := of_decide_eq_true hc
      subst hc
      exact ⟨rfl, fairPickOk_of_check (retirePrev_inv h hpre) hfair⟩
    | tick c' | yield c' | wakeUp _ c' | wakeUpNew _ c' | enqueue _ c' =>
      exact of_decide_eq_true (p := c' = c) hon
    | dequeue p | setscheduler p => exact of_decide_eq_true (p := (s.task p).cpu = c) hon
    | _ => cases hon

theorem metered_of_check {extra : Metered → RqEvent → Prop} [∀ m e, Decidable (extra m e)]
    (hboot : MeteredBoot c m₀) (events : List RqEvent) (hrun : Reach.runTest
      (fun m e => e.check cfg c m.sys && decide (extra m e)) (meter cfg c) m₀ events = true) :
    Reach (fun m e => e.Ok cfg c m.sys ∧ extra m e) (meter cfg c) m₀
      (events.foldl (meter cfg c) m₀) := by
  refine Reach.of_runTest (I := fun m : Metered => Inv cfg m.sys) ?_ ?_ hboot.boot.inv hrun
  · rintro m (op | se) hinv ⟨hok, -⟩
    · exact exec_inv hinv op hok.1
    · exact hinv.of_rq rfl rfl
  · intro m e hinv htest
    obtain ⟨hcheck, hextra⟩ := Bool.and_eq_true_iff.mp htest
    exact ⟨RqEvent.ok_of_check hinv hcheck, of_decide_eq_true hextra⟩

/-- A system of sleeping WRR tasks. -/
def meteredTasks : Metered where
  sys := wrrSystem fun _ => 50
  charged _ := 0
  ran _ := 0
  total := 0

theorem meteredTasks_boot : MeteredBoot 0 meteredTasks where
  boot := wrrSystem_boot _
  clock := by decide
  charged _ := rfl
  ran _ := rfl
  total := rfl

/-- The first task runs, is made an RT task and a WRR task again, and sleeps; the second
runs after it. -/
def twoRun : List RqEvent :=
  [.issue (.wakeUp 1 0 .quiet), .issue (.schedule 0 false .quiet), .issue (.clock 0 1000),
    .issue (.wakeUp 5 0 .quiet), .issue (.setscheduler 1 .fifo false 7 .quiet),
    .issue (.clock 0 1500), .issue (.setscheduler 1 .wrr false 50 .quiet),
    .issue (.clock 0 1700), .issue (.tick 0 .quiet), .issue (.clock 0 1800),
    .issue (.schedule 0 true .quiet), .issue (.clock 0 2000)]

theorem charged_reach_boot : ChargedOnce 0 (twoRun.foldl (meter (upConfig .basic) 0) meteredTasks) :=
  charged_reach meteredTasks_boot (metered_of_check meteredTasks_boot twoRun (by decide +kernel))

/-- The first task runs, and the clock advances by 2^63 before the next tick. -/
def lateTick : List RqEvent :=
  [.issue (.wakeUp 1 0 .quiet), .issue (.schedule 0 false .quiet), .issue (.clock 0 (2 ^ 63)),
    .issue (.tick 0 .quiet)]

/-- The time is lost: a difference of 2^63 is negative as `s64`. -/
theorem charged_lost : ¬∀ (cfg : Config) (c : Cpu) (m₀ m : Metered), MeteredBoot c m₀ →
    Reach (fun m e => e.Ok cfg c m.sys) (meter cfg c) m₀ m → ChargedOnce c m := by
  intro hall
  have hrun : Reach (fun m e => e.Ok (upConfig .basic) 0 m.sys ∧ True) (meter (upConfig .basic) 0)
      meteredTasks (lateTick.foldl (meter (upConfig .basic) 0) meteredTasks) :=
    metered_of_check meteredTasks_boot lateTick (by decide +kernel)
  have hshare := (hall _ 0 _ _ meteredTasks_boot (hrun.mono fun _ _ he => he.1)).share 1
  have hran : (lateTick.foldl (meter (upConfig .basic) 0) meteredTasks).afterUpdate 0 1 = 0 ∧
      (lateTick.foldl (meter (upConfig .basic) 0) meteredTasks).ran 1 = 2 ^ 63 := by
    decide +kernel
  rw [hran.1, hran.2] at hshare
  exact absurd hshare (by decide)

end Meter

end LinuxWrr
