import LinuxWrr.Sched.RunQueue

/-!
# What each operation writes

One spec lemma for each core function: the one task it writes, to what, and that current,
idle and stop tasks stay and no reschedule flag is lost. Claims about classes, policies
and pending reschedules are derived from these alone.

- `Effect s t p f`: `t` comes from `s` by writing `f` to the task `p`, moving it between
  queues and setting reschedule flags.
- `Balance.task_cases`: balancing changes nothing but the cpu of queued RT tasks that are
  not running.
-/

namespace LinuxWrr

variable {cfg : Config} {s t u : System} {c : Cpu} {p q : Pid} {f g : Task} {k : ClassId}

structure Effect (s t : System) (p : Pid) (f : Task) : Prop where
  task : t.task = Function.update s.task p f
  frame : Frame s t
  needResched : ∀ q, s.needResched q = true → t.needResched q = true

theorem Effect.self (h : Effect s t p f) : t.task p = f := by
  rw [h.task, Function.update_self]

theorem Effect.other (h : Effect s t p f) (hq : q ≠ p) : t.task q = s.task q := by
  rw [h.task, Function.update_of_ne hq]

/-- The other tasks stay queued where they were. -/
theorem Effect.queued_other (h : Effect s t p f) (hq : q ≠ p) :
    t.Queued k c q ↔ s.Queued k c q := System.queued_congr (h.other hq)

/-- The task is queued as its new fields say. -/
theorem Effect.queued_self (h : Effect s t p f) :
    t.Queued k c p ↔ f.onRq = true ∧ f.schedClass = k ∧ f.cpu = c := by
  unfold System.Queued
  rw [h.self]

/-- Setting resched flags adds nothing to the effect of a step. -/
theorem Effect.flagged (h : Effect s t p f) (hf : Flagged t u) : Effect s u p f where
  task := hf.task.trans h.task
  frame := h.frame.trans (Frame.of_rq hf.rq)
  needResched q hq := hf.needResched q (h.needResched q hq)

theorem Flagged.effect (h : Flagged s t) (p : Pid) : Effect s t p (s.task p) where
  task := by rw [h.task, Function.update_eq_self]
  frame := Frame.of_rq h.rq
  needResched := h.needResched

theorem Effect.setTask (s : System) (p : Pid) (f : Task) : Effect s (s.setTask p f) p f :=
  ⟨rfl, Frame.of_rq rfl, fun _ h => h⟩

theorem Effect.updTask (s : System) (p : Pid) (g : Task → Task) :
    Effect s (s.updTask p g) p (g (s.task p)) := ⟨rfl, Frame.updTask s p g, fun _ h => h⟩

theorem Effect.refl (s : System) (p : Pid) : Effect s s p (s.task p) :=
  (Flagged.refl s).effect p

/-- Moving a task within its queue changes slices and, for a WRR task, its level. -/
theorem Move.effect (h : Move cfg s t p) : ∃ rtPriority timeSlice times rtTimeSlice,
    (rtPriority = (s.task p).rtPriority ∨ (s.task p).schedClass = .wrr) ∧
      Effect s t p ((s.task p).retune rtPriority timeSlice times rtTimeSlice) := by
  obtain ⟨rtp, ts, times, rts, hrtp, htask⟩ := h.task
  exact ⟨rtp, ts, times, rts, hrtp.imp id And.left, htask, h.frame, h.needResched⟩

/-- A move leaves every task where it is queued. -/
theorem Move.queued_iff (h : Move cfg s t p) : t.Queued k c q ↔ s.Queued k c q := by
  obtain ⟨_, _, _, _, -, heff⟩ := h.effect
  by_cases hq : q = p
  · rw [hq]
    exact heff.queued_self
  · exact heff.queued_other hq

/-- Moving a task within its queue makes nobody eligible or ineligible. -/
theorem Move.eligible_iff (h : Move cfg s t p) : t.Eligible k c q ↔ s.Eligible k c q :=
  System.eligible_congr h.queued_iff (h.frame.rtThrottled c)

/-! ## Balancing -/

/-- Dequeue, write the task, enqueue: the queues change and the task is written. -/
theorem reattach_effect (cfg : Config) (s : System) (c c' : Cpu) (p : Pid) (g : Task → Task)
    (flags : Nat) :
    Effect s (enqueueTask cfg ((dequeueTask cfg s c p).updTask p g) c' p flags) p
      (g (s.task p)) where
  task := by simp
  frame := (dequeueTask_frame cfg s c p).trans
    ((Frame.updTask _ p g).trans (enqueueTask_frame cfg _ c' p flags))
  needResched q hq := by simpa using hq

/-- A task that may be moved is dequeued here and enqueued there. -/
theorem moveRtTask_eq (cfg : Config) (dest : Cpu) (hk : (s.task q).schedClass = .rt)
    (hon : (s.task q).onRq = true) (hcurr : (s.rq (s.task q).cpu).curr ≠ q) :
    Rt.moveRtTask s q dest = enqueueTask cfg
      ((dequeueTask cfg s (s.task q).cpu q).updTask q fun t => { t with cpu := dest }) dest q 0 := by
  have hdeq : dequeueTask cfg s (s.task q).cpu q = Rt.dequeueTaskRt s (s.task q).cpu q := by
    rw [dequeueTask, hk]
    rfl
  have hk' : (((dequeueTask cfg s (s.task q).cpu q).updTask q fun t =>
      { t with cpu := dest }).task q).schedClass = .rt := by
    simpa using hk
  rw [enqueueTask, hk', hdeq]
  unfold Rt.moveRtTask
  exact if_pos ⟨hk, hon, hcurr⟩

/-- The RT tasks that `push_rt_task` and `pull_rt_task` may move. -/
def System.Movable (s : System) (q : Pid) : Prop :=
  (s.task q).schedClass = .rt ∧ (s.task q).onRq = true ∧ (s.rq (s.task q).cpu).curr ≠ q

/-- An RT task is moved to the other CPU, or may not be and stays. -/
theorem moveRtTask_cases (s : System) (q : Pid) (dest : Cpu) :
    ¬s.Movable q ∧ Rt.moveRtTask s q dest = s ∨
      s.Movable q ∧ Effect s (Rt.moveRtTask s q dest) q { s.task q with cpu := dest } ∧
        (Rt.moveRtTask s q dest).needResched = s.needResched := by
  by_cases hq : s.Movable q
  · refine .inr ⟨hq, ?_⟩
    rw [moveRtTask_eq (upConfig .basic) dest hq.1 hq.2.1 hq.2.2]
    exact ⟨reattach_effect _ s _ dest q _ 0, by simp⟩
  · refine .inl ⟨hq, ?_⟩
    unfold Rt.moveRtTask
    exact if_neg hq

theorem Balance.frame (h : Balance s t) : Frame s t := by
  induction h with
  | refl => exact Frame.refl s
  | flag _ hf ih => exact ih.trans (Frame.of_rq hf.rq)
  | @move u _ q dest ih =>
    rcases moveRtTask_cases u q dest with ⟨-, heq⟩ | ⟨-, heff, -⟩
    · rwa [heq]
    · exact ih.trans heff.frame

/-- Balancing takes no resched flag away. -/
theorem Balance.needResched (h : Balance s t) (q : Pid) (hq : s.needResched q = true) :
    t.needResched q = true := by
  induction h with
  | refl => exact hq
  | flag _ hf ih => exact hf.needResched q ih
  | @move u _ r dest ih =>
    rcases moveRtTask_cases u r dest with ⟨-, heq⟩ | ⟨-, heff, -⟩
    · rwa [heq]
    · exact heff.needResched q ih

/-- Balancing writes nothing but the cpu of movable RT tasks. -/
theorem Balance.task_cases (h : Balance s t) (q : Pid) : t.task q = s.task q ∨
    s.Movable q ∧ ∃ dest, t.task q = { s.task q with cpu := dest } := by
  induction h with
  | refl => exact .inl rfl
  | flag _ hf ih => rwa [hf.task]
  | @move u hb r dest ih =>
    rcases moveRtTask_cases u r dest with ⟨-, heq⟩ | ⟨hr, heff, -⟩
    · rwa [heq]
    · by_cases hq : q = r
      · subst hq
        rw [heff.self]
        rcases ih with ih | ⟨hmov, dest', ih⟩
        · refine .inr ⟨?_, dest, by rw [ih]⟩
          unfold System.Movable at hr
          rwa [ih, hb.frame.curr] at hr
        · exact .inr ⟨hmov, dest, by rw [ih]⟩
      · rwa [heff.other hq]

/-! ## Wake-ups, migration, ticks and yields -/

theorem checkPreemptCurr_flagged (cfg : Config) (s : System) (c : Cpu) (p : Pid) (o : Outside) :
    Effect s (checkPreemptCurr cfg s c p o) q (s.task q) := by
  obtain ⟨hmove, htask⟩ := checkPreemptCurr_move cfg s c p o
  exact ⟨by rw [htask, Function.update_eq_self], hmove.frame, hmove.needResched⟩

/-- Two steps about the same task are one. -/
theorem Effect.trans (h : Effect s t p f) (h' : Effect t u p g) : Effect s u p g where
  task := by rw [h'.task, h.task, Function.update_idem]
  frame := h.frame.trans h'.frame
  needResched q hq := h'.needResched q (h.needResched q hq)

/-- Activating a task queues it on its CPU. -/
theorem activateTask_effect (cfg : Config) (s : System) (p : Pid) (c : Cpu) (flags : Nat) :
    Effect s (activateTask cfg s p c flags) p { s.task p with cpu := c, onRq := true } where
  task := activateTask_task cfg s p c flags
  frame := activateTask_frame cfg s p c flags
  needResched q hq := by
    unfold activateTask
    simpa using hq

/-- A wakeup queues the task on the CPU it is given. -/
theorem activateOn_effect (cfg : Config) (s : System) (p : Pid) (c : Cpu) (flags : Nat)
    (o : Outside) :
    Effect s (activateOn cfg s p c flags o) p { s.task p with cpu := c, onRq := true } := by
  have hact := activateTask_effect cfg s p c flags
  have hcheck := checkPreemptCurr_flagged (q := p) cfg (activateTask cfg s p c flags) c p o
  rw [hact.self] at hcheck
  exact hact.trans hcheck

/-- Migration changes the CPU of the task. -/
theorem migrateTask_effect (cfg : Config) (s : System) (p : Pid) (dest : Cpu) (o : Outside)
    (hon : (s.task p).onRq = true) :
    Effect s (migrateTask cfg s p dest o) p { s.task p with cpu := dest } := by
  have hmove := reattach_effect cfg s (s.task p).cpu dest p (fun t => { t with cpu := dest }) 0
  have hcheck := checkPreemptCurr_flagged (q := p) cfg
    (enqueueTask cfg ((dequeueTask cfg s (s.task p).cpu p).updTask p fun t =>
      { t with cpu := dest }) dest p 0) dest p o
  rw [hmove.self] at hcheck
  unfold migrateTask
  rw [if_pos hon]
  exact hmove.trans hcheck

/-- Deactivating a task takes it off its queue. -/
theorem deactivateTask_effect (cfg : Config) (s : System) (c : Cpu) (p : Pid) :
    Effect s (deactivateTask cfg s c p) p { s.task p with onRq := false } where
  task := deactivateTask_task cfg s c p
  frame := (dequeueTask_frame cfg s c p).trans (Frame.of_rq rfl)
  needResched q hq := by
    unfold deactivateTask
    simpa using hq

/-! ## Changes of policy, priority, nice value and group -/

theorem takeOff_frame (cfg : Config) (s : System) (p : Pid) : Frame s (takeOff cfg s p) :=
  (detach_frame cfg s p).trans (Frame.of_rq (takeOff_rq cfg s p))

/-- Writing a new policy rewrites the task and touches no other. -/
theorem withScheduler_effect (cfg : Config) (s : System) (p : Pid) (policy : Policy)
    (reset : Bool) (prio : Nat) : ∃ slice times,
    Effect s (withScheduler cfg s p policy reset prio) p
      (({ s.task p with schedResetOnFork := reset } : Task).withPolicy policy prio slice times) ∧
    (withScheduler cfg s p policy reset prio).needResched = s.needResched := by
  obtain ⟨⟨slice, times, htask⟩, hrq, hflag⟩ := setscheduler_effect cfg
    ((takeOff cfg s p).updTask p fun t => { t with schedResetOnFork := reset }) p policy prio
  have hflag' : (withScheduler cfg s p policy reset prio).needResched = s.needResched := by
    rw [withScheduler, putBack_needResched, hflag, System.updTask_needResched,
      takeOff_needResched]
  refine ⟨slice, times, ⟨?_, ?_, fun q hq => by rwa [hflag']⟩, hflag'⟩
  · rw [withScheduler, putBack_task, htask]
    simp
  · rw [System.updTask_rq] at hrq
    exact (takeOff_frame cfg s p).trans
      ((Frame.of_rq hrq).trans (putBack_frame cfg _ _ p _ _ 0))

/-- `__sched_setscheduler`: what `check_class_changed` adds is balancing. -/
theorem changeScheduler_effect (cfg : Config) (s : System) (p : Pid) (policy : Policy)
    (reset : Bool) (prio : Nat) (o : Outside) : ∃ u slice times,
    Effect s u p
      (({ s.task p with schedResetOnFork := reset } : Task).withPolicy policy prio slice times) ∧
    Balance u (changeScheduler cfg s p policy reset prio o) := by
  obtain ⟨slice, times, heff, -⟩ := withScheduler_effect cfg s p policy reset prio
  refine ⟨_, slice, times, heff, ?_⟩
  rw [changeScheduler_eq]
  exact checkClassChanged_balance cfg _ _ p _ _ o

/-- Before `check_class_changed`, `rt_mutex_setprio` has rewritten its task only. -/
theorem rtMutexSetprio_effect (cfg : Config) (s : System) (p : Pid) (prio : Int) (o : Outside)
    (hidle : p ≠ (s.rq (s.task p).cpu).idle) :
    ∃ u, Effect s u p ((s.task p).setPrio prio) ∧ Balance u (rtMutexSetprio cfg s p prio o) := by
  refine ⟨putBack cfg ((takeOff cfg s p).updTask p fun t => t.setPrio prio) (s.task p).cpu p
    (s.task p).onRq (decide ((s.rq (s.task p).cpu).curr = p))
    (if (s.task p).prio < prio then enqueueHeadFlag else 0), ⟨?_, ?_, ?_⟩, ?_⟩
  · rw [putBack_task]
    simp
  · exact (takeOff_frame cfg s p).trans
      ((Frame.updTask _ p _).trans (putBack_frame cfg _ _ p _ _ _))
  · intro q hq
    simpa using hq
  · show Balance _ (if p = _ then s else _)
    rw [if_neg hidle]
    exact checkClassChanged_balance cfg _ _ p _ _ o

/-- The same, when the waiter at the top has changed first. -/
theorem setprio_effect (cfg : Config) (s : System) (p : Pid) (prio : Int) (waiter : Option Int)
    (o : Outside) (hidle : p ≠ (s.rq (s.task p).cpu).idle) :
    ∃ u, Effect s u p (({ s.task p with piTopWaiter := waiter } : Task).setPrio prio) ∧
      Balance u (rtMutexSetprio cfg (s.updTask p fun t => { t with piTopWaiter := waiter }) p prio
        o) := by
  have hset := Effect.updTask s p fun t => { t with piTopWaiter := waiter }
  have hidle' : p ≠ ((s.updTask p fun t => { t with piTopWaiter := waiter }).rq
      ((s.updTask p fun t => { t with piTopWaiter := waiter }).task p).cpu).idle := by
    rw [hset.self]
    exact hidle
  obtain ⟨u, heff, hbal⟩ := rtMutexSetprio_effect cfg _ p prio o hidle'
  rw [hset.self] at heff
  exact ⟨u, hset.trans heff, hbal⟩

/-- Moving a task between groups changes its group. -/
theorem schedMoveTask_effect (cfg : Config) (s : System) (p : Pid) (tg : Nat) :
    Effect s (schedMoveTask cfg s p tg) p { s.task p with schedTaskGroup := tg } where
  task := by
    unfold schedMoveTask
    simp
  frame := (takeOff_frame cfg s p).trans
    ((Frame.updTask _ p _).trans (putBack_frame cfg _ _ p _ _ 0))
  needResched q hq := by
    unfold schedMoveTask
    simpa using hq

/-- `set_user_nice` with the nice value out of range or unchanged, under an RT policy,
and otherwise. -/
theorem setUserNice_effect (cfg : Config) (s : System) (p : Pid) (nice : Int) :
    ((s.task p).nice = nice ∨ nice < -20 ∨ nice > 19) ∧ setUserNice cfg s p nice = s ∨
      (-20 ≤ nice ∧ nice ≤ 19) ∧
        (rtPolicy (s.task p).policy = true ∧
            Effect s (setUserNice cfg s p nice) p
              { s.task p with staticPrio := niceToPrio nice } ∨
          rtPolicy (s.task p).policy = false ∧
            Effect s (setUserNice cfg s p nice) p ((s.task p).setNice nice)) := by
  unfold setUserNice
  split
  next hnice => exact .inl ⟨hnice, rfl⟩
  next hnice =>
    refine .inr ⟨by omega, ?_⟩
    split
    next hrt => exact .inl ⟨hrt, Effect.updTask s p _⟩
    next hrt =>
      refine .inr ⟨by simpa using hrt, ?_⟩
      extract_lets
      split
      next hon =>
        have hdet : detach cfg s p = dequeueTask cfg s (s.task p).cpu p := if_pos hon
        refine Effect.flagged ?_ (Flagged.ite (Flagged.reschedCurr _ _) (Flagged.refl _))
        show Effect s (enqueueTask cfg ((detach cfg s p).updTask p fun t => t.setNice nice)
          (s.task p).cpu p 0) p _
        rw [hdet]
        exact reattach_effect cfg s _ _ p _ 0
      next hon =>
        show Effect s ((detach cfg s p).updTask p fun t => t.setNice nice) p _
        refine ⟨by simp, (detach_frame cfg s p).trans (Frame.updTask _ p _), fun q hq => ?_⟩
        simpa using hq

/-- Normalizing makes the task a `SCHED_NORMAL` one, and balancing may follow. -/
theorem normalizeTask_effect (cfg : Config) (s : System) (p : Pid) (o : Outside) :
    ∃ u slice times, Effect s u p ((s.task p).withPolicy .normal 0 slice times) ∧
      Balance u (normalizeTask cfg s p o) := by
  obtain ⟨⟨slice, times, htask⟩, hrq, hflag⟩ := setscheduler_effect cfg (detach cfg s p) p .normal 0
  have hset : Effect s (setscheduler cfg (detach cfg s p) p .normal 0) p
      ((s.task p).withPolicy .normal 0 slice times) := by
    refine ⟨by rw [htask, detach_task], (detach_frame cfg s p).trans (Frame.of_rq hrq), ?_⟩
    intro q hq
    rwa [hflag, detach_needResched]
  refine ⟨_, slice, times, ?_, checkClassChanged_balance cfg _ _ p _ _ o⟩
  split
  · refine Effect.flagged ?_ (Flagged.reschedCurr _ _)
    refine ⟨by rw [enqueueTask_task, hset.task], hset.frame.trans (enqueueTask_frame _ _ _ _ _), ?_⟩
    intro q hq
    rw [enqueueTask_needResched]
    exact hset.needResched q hq
  · exact hset

/-! ## Reschedules -/

/-- The task that leaves the CPU stays queued unless it goes to sleep. -/
theorem retirePrev_effect (cfg : Config) (s : System) (c : Cpu) (sleep : Bool) :
    Effect s (retirePrev cfg s c sleep) (s.rq c).curr
      { s.task (s.rq c).curr with
        onRq := if sleep then false else (s.task (s.rq c).curr).onRq } ∧
      (retirePrev cfg s c sleep).needResched = s.needResched := by
  have hput : ∀ t : System, Flagged t (putPrevTask cfg t c (s.rq c).curr) := fun t =>
    ⟨putPrevTask_rq cfg t c _, putPrevTask_task cfg t c _, fun q hq => by
      rwa [putPrevTask_needResched]⟩
  unfold retirePrev
  dsimp only
  cases sleep with
  | true =>
    refine ⟨(deactivateTask_effect cfg s c _).flagged (hput _), ?_⟩
    rw [putPrevTask_needResched]
    unfold deactivateTask
    simp
  | false =>
    exact ⟨(Effect.refl s _).flagged (hput s), putPrevTask_needResched cfg s c _⟩

/-- A switch writes no task. -/
theorem switchTo_task (cfg : Config) (s : System) (c : Cpu) (prev : Pid) (o : Outside) :
    (switchTo cfg s c prev o).task = s.task := by
  have honly := pickNextTask_only cfg s c o
  unfold switchTo
  split
  next next s' hs =>
    rw [hs] at honly
    exact honly.task
  next s' hs =>
    rw [hs] at honly
    exact honly.task

/-- A reschedule switches to the best task and clears the flag of the previous one. -/
theorem switchTo_best (h : Inv cfg s) {o : Outside} (ho : s.FairPickOk c o) (prev : Pid) :
    ∃ q, Best cfg s c q ∧ (switchTo cfg s c prev o).task = s.task ∧
      (switchTo cfg s c prev o).rq = Function.update s.rq c { s.rq c with curr := q } ∧
      (switchTo cfg s c prev o).needResched = Function.update s.needResched prev false := by
  obtain ⟨q, t, hpick, hbest⟩ := h.pick_best ho
  rw [← h.pickNextTask_eq] at hpick
  have honly := pickNextTask_only cfg s c o
  refine ⟨q, hbest, ?_⟩
  unfold switchTo
  rw [hpick] at honly ⊢
  refine ⟨honly.task, ?_, ?_⟩
  · show Function.update t.rq c { t.rq c with curr := q } = _
    rw [honly.rq]
  · show Function.update t.needResched prev false = _
    rw [honly.needResched]

/-! ## Operations that only place tasks -/

/-- The operations that put tasks on run queues, take them off and move them between cpus
and groups. -/
def Op.places : Op → Bool
  | .wakeUp _ _ _ | .wakeUpNew _ _ _ | .schedule _ _ _ | .migrate _ _ _ | .moveGroup _ _
  | .throttle _ | .unthrottle _ | .clock _ _ | .enqueue _ _ _ | .dequeue _ | .pick _ _ => true
  | _ => false

section Places

variable {α : Type} {π : Task → α} {o : Outside}

/-- `π` does not see where a task is. -/
def PlaceBlind (π : Task → α) : Prop :=
  ∀ f onRq cpu tg, π { f with onRq := onRq, cpu := cpu, schedTaskGroup := tg } = π f

/-- What `π` sees of the tasks is the same. -/
def SameOn (π : Task → α) (s t : System) : Prop := ∀ q, π (t.task q) = π (s.task q)

theorem SameOn.refl (π : Task → α) (s : System) : SameOn π s s := fun _ => rfl

theorem SameOn.trans (h : SameOn π s t) (h' : SameOn π t u) : SameOn π s u :=
  fun q => (h' q).trans (h q)

theorem SameOn.of_task (h : t.task = s.task) : SameOn π s t := fun q => by rw [h]

/-- What a step does not change of its task it changes of no task. -/
theorem Effect.sameOn (h : Effect s t p f) (hf : π f = π (s.task p)) : SameOn π s t := by
  intro q
  by_cases hq : q = p
  · rw [hq, h.self, hf]
  · rw [h.other hq]

/-- Balancing changes nothing but where tasks are. -/
theorem Balance.sameOn (hπ : PlaceBlind π) (h : Balance s t) : SameOn π s t := by
  intro q
  rcases h.task_cases q with heq | ⟨-, dest, heq⟩
  · rw [heq]
  · rw [heq]
    exact hπ (s.task q) (s.task q).onRq dest (s.task q).schedTaskGroup

/-- A switch changes nothing but where tasks are. -/
theorem schedule_sameOn (hπ : PlaceBlind π) (cfg : Config) (s : System) (c : Cpu) (sleep : Bool)
    (o : Outside) : SameOn π s (schedule cfg s c sleep o) := by
  have hretire : SameOn π s (retirePrev cfg s c sleep) :=
    (retirePrev_effect cfg s c sleep).1.sameOn (hπ (s.task (s.rq c).curr) _ _ _)
  exact hretire.trans (SameOn.of_task (switchTo_task cfg _ c _ o))

/-- **Placing a task changes nothing else of any task.** -/
theorem exec_places (hπ : PlaceBlind π) {op : Op} (hop : op.places = true) :
    SameOn π s (exec cfg s op) := by
  cases op with
  | wakeUp p c o | wakeUpNew p c o =>
    exact (activateOn_effect cfg s p c _ o).sameOn (hπ (s.task p) true c _)
  | schedule c sleep o => exact schedule_sameOn hπ cfg s c sleep o
  | migrate p dest o =>
    by_cases hon : (s.task p).onRq = true
    · exact (migrateTask_effect cfg s p dest o hon).sameOn (hπ (s.task p) _ dest _)
    · rw [show exec cfg s (.migrate p dest o) = s from if_neg hon]
      exact SameOn.refl π s
  | moveGroup p tg => exact (schedMoveTask_effect cfg s p tg).sameOn (hπ (s.task p) _ _ tg)
  | throttle c => exact SameOn.refl π s
  | unthrottle c =>
    refine SameOn.of_task ?_
    show (if _ then _ else _ : System).task = _
    split <;> rfl
  | clock c now => exact SameOn.refl π s
  | enqueue p c flags => exact (activateTask_effect cfg s p c flags).sameOn (hπ (s.task p) true c _)
  | dequeue p => exact (deactivateTask_effect cfg s _ p).sameOn (hπ (s.task p) false _ _)
  | pick c o => exact SameOn.of_task (pickNextTask_only cfg s c o).task
  | fork | nice | setscheduler | setprio | normalize | tick | schedYield | yield | requeue =>
    cases hop

end Places

end LinuxWrr
