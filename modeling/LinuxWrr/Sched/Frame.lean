import LinuxWrr.Sched.Rep

/-!
# What the scheduler functions leave alone

The class hooks work on queues, counters and accounting; the core functions around
them write one task each. Both facts are stated once here, so that the invariants of
later files argue about the one task an operation is about.

- `Frame s t`: current, idle and stop tasks, clocks and throttle flags agree.
- `enqueueTask_task`, `dequeueTask_needResched` and so on: **the queueing hooks write
  no task and no reschedule flag**.
- `Flagged s t`: all most preemption hooks may do, which is to set reschedule flags.
- `Balance s t`: all `check_class_changed` may do: flags, and RT tasks moved between
  cpus. `Balanced.checkClassChanged` is its induction principle.
-/

namespace LinuxWrr

/-- `t` has the same current, idle and stop tasks, clocks and throttle flags. -/
structure Frame (s t : System) : Prop where
  curr : ∀ c, (t.rq c).curr = (s.rq c).curr
  idle : ∀ c, (t.rq c).idle = (s.rq c).idle
  stop : ∀ c, (t.rq c).stop = (s.rq c).stop
  clockTask : ∀ c, (t.rq c).clockTask = (s.rq c).clockTask
  rtThrottled : ∀ c, (t.rq c).rt.rtThrottled = (s.rq c).rt.rtThrottled

variable {cfg : Config} {s t u : System} {c : Cpu} {p : Pid}

theorem Frame.of_rq (h : t.rq = s.rq) : Frame s t where
  curr c := by rw [h]
  idle c := by rw [h]
  stop c := by rw [h]
  clockTask c := by rw [h]
  rtThrottled c := by rw [h]

theorem Frame.refl (s : System) : Frame s s := Frame.of_rq rfl

theorem Frame.updTask (s : System) (p : Pid) (f : Task → Task) : Frame s (s.updTask p f) :=
  Frame.of_rq rfl

theorem Frame.trans (h : Frame s t) (h' : Frame t u) : Frame s u where
  curr c := (h'.curr c).trans (h.curr c)
  idle c := (h'.idle c).trans (h.idle c)
  stop c := (h'.stop c).trans (h.stop c)
  clockTask c := (h'.clockTask c).trans (h.clockTask c)
  rtThrottled c := (h'.rtThrottled c).trans (h.rtThrottled c)

/-- One run queue is replaced by one that agrees on the framed fields. -/
theorem Frame.setRq {r : Rq} (hrq : t.rq = Function.update s.rq c r)
    (hcurr : r.curr = (s.rq c).curr) (hidle : r.idle = (s.rq c).idle)
    (hstop : r.stop = (s.rq c).stop) (hclock : r.clockTask = (s.rq c).clockTask)
    (hthrottled : r.rt.rtThrottled = (s.rq c).rt.rtThrottled) : Frame s t := by
  refine ⟨?_, ?_, ?_, ?_, ?_⟩ <;> intro c' <;> rw [hrq] <;> by_cases hc : c' = c
  all_goals first
    | rw [Function.update_of_ne hc]
    | subst hc; rw [Function.update_self]; assumption

/-! ## Queueing hooks -/

theorem enqueueWrrEntity_frame (sePrio : Task → Nat) (s : System) (p : Pid) (head : Bool) :
    Frame s (WrrCommon.enqueueWrrEntity sePrio s p head) :=
  Frame.setRq rfl rfl rfl rfl rfl rfl

theorem dequeueWrrEntity_frame (sePrio : Task → Nat) (s : System) (p : Pid) :
    Frame s (WrrCommon.dequeueWrrEntity sePrio s p) :=
  Frame.setRq rfl rfl rfl rfl rfl rfl

theorem enqueueRtEntity_frame (s : System) (p : Pid) (head : Bool) :
    Frame s (Rt.enqueueRtEntity s p head) :=
  Frame.setRq rfl rfl rfl rfl rfl rfl

theorem dequeueRtEntity_frame (s : System) (p : Pid) : Frame s (Rt.dequeueRtEntity s p) :=
  Frame.setRq rfl rfl rfl rfl rfl rfl

theorem dequeueRtStack_frame (s : System) (p : Pid) : Frame s (Rt.dequeueRtStack s p) := by
  unfold Rt.dequeueRtStack
  split
  · exact dequeueRtEntity_frame s p
  · exact Frame.refl s

theorem incNrRunning_frame (s : System) (c : Cpu) : Frame s (s.incNrRunning c) :=
  Frame.setRq rfl rfl rfl rfl rfl rfl

theorem decNrRunning_frame (s : System) (c : Cpu) : Frame s (s.decNrRunning c) :=
  Frame.setRq rfl rfl rfl rfl rfl rfl

theorem setCfs_frame (s : System) (c : Cpu) (f : CfsRq) : Frame s (s.setCfs c f) :=
  Frame.setRq rfl rfl rfl rfl rfl rfl

theorem enqueueTask_frame (cfg : Config) (s : System) (c : Cpu) (p : Pid) (flags : Nat) :
    Frame s (enqueueTask cfg s c p flags) := by
  unfold enqueueTask
  cases (s.task p).schedClass with
  | stop => exact incNrRunning_frame s c
  | rt =>
    refine (dequeueRtStack_frame s p).trans ?_
    exact (enqueueRtEntity_frame _ p _).trans (incNrRunning_frame _ c)
  | wrr =>
    show Frame s ((wrrSchedClass cfg).enqueueTask s c p flags)
    rw [wrrSchedClass_enqueueTask]
    exact (enqueueWrrEntity_frame _ s p _).trans (incNrRunning_frame _ c)
  | fair => exact (setCfs_frame s c _).trans (incNrRunning_frame _ c)
  | idle => exact Frame.refl s

theorem dequeueTask_frame (cfg : Config) (s : System) (c : Cpu) (p : Pid) :
    Frame s (dequeueTask cfg s c p) := by
  unfold dequeueTask
  cases (s.task p).schedClass with
  | stop => exact decNrRunning_frame s c
  | rt =>
    refine (Frame.of_rq (Rt.updateCurrRt_rq s c)).trans ?_
    exact (dequeueRtStack_frame _ p).trans (decNrRunning_frame _ c)
  | wrr =>
    show Frame s ((wrrSchedClass cfg).dequeueTask s c p)
    rw [wrrSchedClass_dequeueTask]
    refine (Frame.of_rq (updateCurrWrr_rq s c)).trans ?_
    exact (dequeueWrrEntity_frame _ _ p).trans (decNrRunning_frame _ c)
  | fair => exact (setCfs_frame s c _).trans (decNrRunning_frame _ c)
  | idle => exact Frame.refl s

/-- Task table, reschedule flags and path buffer agree. -/
structure SameTasks (s t : System) : Prop where
  task : t.task = s.task
  needResched : t.needResched = s.needResched
  groupPath : t.groupPath = s.groupPath

theorem SameTasks.refl (s : System) : SameTasks s s := ⟨rfl, rfl, rfl⟩

theorem SameTasks.trans (h : SameTasks s t) (h' : SameTasks t u) : SameTasks s u where
  task := h'.task.trans h.task
  needResched := h'.needResched.trans h.needResched
  groupPath := h'.groupPath.trans h.groupPath

theorem dequeueRtStack_sameTasks (s : System) (p : Pid) :
    SameTasks s (Rt.dequeueRtStack s p) := by
  unfold Rt.dequeueRtStack
  split <;> exact ⟨rfl, rfl, rfl⟩

theorem enqueueTask_sameTasks (cfg : Config) (s : System) (c : Cpu) (p : Pid) (flags : Nat) :
    SameTasks s (enqueueTask cfg s c p flags) := by
  unfold enqueueTask
  cases (s.task p).schedClass with
  | rt => exact (dequeueRtStack_sameTasks s p).trans ⟨rfl, rfl, rfl⟩
  | wrr =>
    show SameTasks s ((wrrSchedClass cfg).enqueueTask s c p flags)
    rw [wrrSchedClass_enqueueTask]
    exact ⟨rfl, rfl, rfl⟩
  | stop | fair | idle => exact ⟨rfl, rfl, rfl⟩

theorem dequeueTask_sameTasks (cfg : Config) (s : System) (c : Cpu) (p : Pid) :
    SameTasks s (dequeueTask cfg s c p) := by
  unfold dequeueTask
  cases (s.task p).schedClass with
  | rt =>
    have hcharge : SameTasks s (Rt.updateCurrRt s c) := ⟨by simp, by simp, by simp⟩
    exact hcharge.trans ((dequeueRtStack_sameTasks _ p).trans ⟨rfl, rfl, rfl⟩)
  | wrr =>
    show SameTasks s ((wrrSchedClass cfg).dequeueTask s c p)
    rw [wrrSchedClass_dequeueTask]
    have hcharge : SameTasks s (updateCurrWrr s c) := ⟨by simp, by simp, by simp⟩
    exact hcharge.trans ⟨rfl, rfl, rfl⟩
  | stop | fair | idle => exact ⟨rfl, rfl, rfl⟩

@[simp] theorem enqueueTask_task (cfg : Config) (s : System) (c : Cpu) (p : Pid) (flags : Nat) :
    (enqueueTask cfg s c p flags).task = s.task := (enqueueTask_sameTasks cfg s c p flags).task

@[simp] theorem enqueueTask_needResched (cfg : Config) (s : System) (c : Cpu) (p : Pid)
    (flags : Nat) : (enqueueTask cfg s c p flags).needResched = s.needResched :=
  (enqueueTask_sameTasks cfg s c p flags).needResched

@[simp] theorem dequeueTask_task (cfg : Config) (s : System) (c : Cpu) (p : Pid) :
    (dequeueTask cfg s c p).task = s.task := (dequeueTask_sameTasks cfg s c p).task

@[simp] theorem dequeueTask_needResched (cfg : Config) (s : System) (c : Cpu) (p : Pid) :
    (dequeueTask cfg s c p).needResched = s.needResched :=
  (dequeueTask_sameTasks cfg s c p).needResched

/-! ## Accounting hooks -/

/-- Putting the previous task back books time as the class of the task does, or does nothing. -/
theorem putPrevTask_cases (cfg : Config) (s : System) (c : Cpu) (p : Pid) :
    putPrevTask cfg s c p = s ∨ putPrevTask cfg s c p = updateCurrWrr s c ∨
      putPrevTask cfg s c p = Rt.updateCurrRt s c := by
  unfold putPrevTask
  cases (s.task p).schedClass with
  | rt => exact .inr (.inr rfl)
  | wrr => exact .inr (.inl (wrrSchedClass_putPrevTask cfg s c p))
  | stop | fair | idle => exact .inl rfl

@[simp] theorem putPrevTask_rq (cfg : Config) (s : System) (c : Cpu) (p : Pid) :
    (putPrevTask cfg s c p).rq = s.rq := by
  rcases putPrevTask_cases cfg s c p with h | h | h <;> rw [h] <;> simp

@[simp] theorem putPrevTask_task (cfg : Config) (s : System) (c : Cpu) (p : Pid) :
    (putPrevTask cfg s c p).task = s.task := by
  rcases putPrevTask_cases cfg s c p with h | h | h <;> rw [h] <;> simp

@[simp] theorem putPrevTask_needResched (cfg : Config) (s : System) (c : Cpu) (p : Pid) :
    (putPrevTask cfg s c p).needResched = s.needResched := by
  rcases putPrevTask_cases cfg s c p with h | h | h <;> rw [h] <;> simp

/-- Setting the current task starts its clock or does nothing. -/
theorem setCurrTask_cases (cfg : Config) (s : System) (c : Cpu) (p : Pid) :
    setCurrTask cfg s c p = s ∨ setCurrTask cfg s c p = s.startExec c (s.rq c).curr := by
  unfold setCurrTask
  cases (s.task p).schedClass with
  | rt => exact .inr rfl
  | wrr => exact .inr (wrrSchedClass_setCurrTask cfg s c)
  | stop | fair | idle => exact .inl rfl

@[simp] theorem setCurrTask_rq (cfg : Config) (s : System) (c : Cpu) (p : Pid) :
    (setCurrTask cfg s c p).rq = s.rq := by
  rcases setCurrTask_cases cfg s c p with h | h
  · rw [h]
  · rw [h]
    rfl

@[simp] theorem setCurrTask_task (cfg : Config) (s : System) (c : Cpu) (p : Pid) :
    (setCurrTask cfg s c p).task = s.task := by
  rcases setCurrTask_cases cfg s c p with h | h
  · rw [h]
  · rw [h]
    rfl

@[simp] theorem setCurrTask_needResched (cfg : Config) (s : System) (c : Cpu) (p : Pid) :
    (setCurrTask cfg s c p).needResched = s.needResched := by
  rcases setCurrTask_cases cfg s c p with h | h
  · rw [h]
  · rw [h]
    rfl

/-! ## Preemption hooks -/

/-- `t` is `s` with more reschedule flags set. -/
structure Flagged (s t : System) : Prop where
  rq : t.rq = s.rq
  task : t.task = s.task
  needResched : ∀ q, s.needResched q = true → t.needResched q = true

theorem Flagged.refl (s : System) : Flagged s s := ⟨rfl, rfl, fun _ h => h⟩

theorem Flagged.setTskNeedResched (s : System) (p : Pid) :
    Flagged s (s.setTskNeedResched p) := by
  refine ⟨rfl, rfl, fun q hq => ?_⟩
  rw [System.setTskNeedResched_needResched]
  by_cases h : q = p
  · rw [h, Function.update_self]
  · rwa [Function.update_of_ne h]

theorem Flagged.reschedCurr (s : System) (c : Cpu) : Flagged s (s.reschedCurr c) :=
  Flagged.setTskNeedResched s _

theorem Flagged.ite {P : Prop} [Decidable P] (ht : Flagged s t) (hu : Flagged s u) :
    Flagged s (if P then t else u) := by
  split
  · exact ht
  · exact hu

/-- The hooks of the fair class set flags at most. -/
theorem fairHook_flagged (s : System) (c : Cpu) (o : Outside) : Flagged s (fairHook s c o) :=
  Flagged.ite (Flagged.reschedCurr s c) (Flagged.refl s)

/-- The hook of the WRR classes sets flags at most. -/
theorem wrrSwitchedTo_flagged (cfg : Config) (s : System) (c : Cpu) (p : Pid) (o : Outside) :
    Flagged s ((wrrSchedClass cfg).switchedTo s c p o) := by
  have hbody : ∀ P Q : Prop, ∀ [Decidable P] [Decidable Q],
      Flagged s (if P then if Q then s.reschedCurr c else s else s) := fun P Q _ _ =>
    Flagged.ite (Flagged.ite (Flagged.reschedCurr s c) (Flagged.refl s)) (Flagged.refl s)
  unfold wrrSchedClass
  cases cfg.wrr <;> exact hbody _ _

/-- `t` comes from `s` by setting reschedule flags and moving RT tasks between cpus: all
that `check_class_changed` may do. -/
inductive Balance (s : System) : System → Prop where
  | refl : Balance s s
  | flag {t u : System} (h : Balance s t) (hf : Flagged t u) : Balance s u
  | move {t : System} (h : Balance s t) (q : Pid) (dest : Cpu) :
      Balance s (Rt.moveRtTask t q dest)

/-- What setting reschedule flags and moving RT tasks keep. -/
structure Balanced (R : System → Prop) : Prop where
  flag : ∀ t p, R t → R (t.setTskNeedResched p)
  move : ∀ t q dest, R t → R (Rt.moveRtTask t q dest)

namespace Balanced

variable {R : System → Prop}

theorem ite {P : Prop} [Decidable P] (ht : R t) (hu : R u) : R (if P then t else u) := by
  split
  · exact ht
  · exact hu

theorem reschedCurr (hR : Balanced R) (h : R s) (c : Cpu) : R (s.reschedCurr c) := hR.flag s _ h

/-- The hooks of the fair class balance. -/
theorem fairHook (hR : Balanced R) (h : R s) (c : Cpu) (o : Outside) : R (fairHook s c o) :=
  ite (hR.reschedCurr h c) h

/-- Pulling RT tasks is balancing, however many are pulled. -/
theorem pullRtTask (hR : Balanced R) (c : Cpu) (tasks : List Pid) (h : R s) :
    R (Rt.pullRtTask s c tasks) := by
  induction tasks generalizing s with
  | nil => exact h
  | cons q tasks ih => exact ih (hR.move s q c h)

theorem switchedFrom (hR : Balanced R) (h : R s) (cfg : Config) (c : Cpu) (p : Pid) (o : Outside)
    (k : ClassId) : R ((schedClassOf cfg k).switchedFrom s c p o) := by
  cases k with
  | rt => exact ite (hR.pullRtTask c o.rtPull h) h
  | wrr =>
    show R ((wrrSchedClass cfg).switchedFrom s c p o)
    rwa [wrrSchedClass_switchedFrom]
  | stop | fair | idle => exact h

theorem switchedToRt (hR : Balanced R) (h : R s) (cfg : Config) (c : Cpu) (p : Pid) (o : Outside) :
    R (Rt.switchedToRt cfg s c p o) := by
  have hpreempt : ∀ t : System, R t →
      R (if (t.task p).prio < (t.task (t.rq c).curr).prio then t.reschedCurr c else t) :=
    fun t ht => ite (hR.reschedCurr ht c) ht
  unfold Rt.switchedToRt
  dsimp only
  split
  · split
    · exact hpreempt s h
    next q dest _ =>
      have hpush : R (Rt.pushRtTask s q dest) := hR.reschedCurr (hR.move s q dest h) dest
      exact ite hpush (hpreempt _ hpush)
  · exact h

theorem switchedTo (hR : Balanced R) (h : R s) (cfg : Config) (c : Cpu) (p : Pid) (o : Outside)
    (k : ClassId) : R ((schedClassOf cfg k).switchedTo s c p o) := by
  cases k with
  | rt => exact hR.switchedToRt h cfg c p o
  | wrr =>
    have hbody : ∀ P Q : Prop, ∀ [Decidable P] [Decidable Q],
        R (if P then if Q then s.reschedCurr c else s else s) :=
      fun P Q _ _ => ite (ite (hR.reschedCurr h c) h) h
    show R ((wrrSchedClass cfg).switchedTo s c p o)
    unfold wrrSchedClass
    cases cfg.wrr <;> exact hbody _ _
  | fair => exact hR.fairHook h c o
  | stop | idle => exact h

theorem prioChangedRt (hR : Balanced R) (h : R s) (cfg : Config) (c : Cpu) (p : Pid)
    (oldprio : Int) (o : Outside) : R (Rt.prioChangedRt cfg s c p oldprio o) := by
  have hpull : R (if oldprio < (s.task p).prio then Rt.pullRtTask s c o.rtPull else s) :=
    ite (hR.pullRtTask c o.rtPull h) h
  unfold Rt.prioChangedRt
  refine ite h (ite (ite ?_ ?_) ?_)
  · exact ite (hR.flag _ p hpull) hpull
  · exact ite (hR.flag s p h) h
  · exact ite (hR.reschedCurr h c) h

theorem prioChanged (hR : Balanced R) (h : R s) (cfg : Config) (c : Cpu) (p : Pid)
    (oldprio : Int) (o : Outside) (k : ClassId) :
    R ((schedClassOf cfg k).prioChanged s c p oldprio o) := by
  cases k with
  | rt => exact hR.prioChangedRt h cfg c p oldprio o
  | wrr =>
    show R ((wrrSchedClass cfg).prioChanged s c p oldprio o)
    rwa [wrrSchedClass_prioChanged]
  | fair => exact hR.fairHook h c o
  | stop | idle => exact h

/-- **`check_class_changed` sets flags and moves RT tasks, and does nothing else.** -/
theorem checkClassChanged (hR : Balanced R) (h : R s) (cfg : Config) (c : Cpu) (p : Pid)
    (prevClass : ClassId) (oldprio : Int) (o : Outside) :
    R (checkClassChanged cfg s c p prevClass oldprio o) :=
  ite (hR.switchedTo (hR.switchedFrom h cfg c p o prevClass) cfg c p o _)
    (ite (hR.prioChanged h cfg c p oldprio o _) h)

end Balanced

/-- What balancing does may be iterated. -/
theorem Balance.balanced (s : System) : Balanced (Balance s) where
  flag _ p h := h.flag (Flagged.setTskNeedResched _ p)
  move _ q dest h := h.move q dest

/-- What a task leaves behind when it leaves a class. -/
theorem switchedFrom_balance (cfg : Config) (s : System) (c : Cpu) (p : Pid) (o : Outside)
    (k : ClassId) : Balance s ((schedClassOf cfg k).switchedFrom s c p o) :=
  (Balance.balanced s).switchedFrom Balance.refl cfg c p o k

theorem checkClassChanged_balance (cfg : Config) (s : System) (c : Cpu) (p : Pid)
    (prevClass : ClassId) (oldprio : Int) (o : Outside) :
    Balance s (checkClassChanged cfg s c p prevClass oldprio o) :=
  (Balance.balanced s).checkClassChanged Balance.refl cfg c p prevClass oldprio o

end LinuxWrr
