import LinuxWrr.Sched.Effect

/-!
# Core runs and the current task

The class hooks on their own can take the current task off its run queue behind the
core's back. The operations the rest of the kernel can ask for cannot: between them, every
cpu runs its idle task or a task of its own run queue.

- `Op.Core`: the core operations, with what the fair class and the migration code promise.
- `System.CurrOk`: every cpu runs its idle task or a task queued on it.
- `core_inv`: **every state of every core run satisfies `Inv` and `CurrOk`**.
-/

namespace LinuxWrr

variable {cfg : Config} {s t u : System} {c : Cpu} {p q : Pid} {f : Task} {o : Outside}

/-- The operations of a core run. The fair class offers one of its tasks when it has any,
and the current task of a cpu is not migrated away. -/
def Op.Core (cfg : Config) (s : System) (op : Op) : Prop :=
  op.Pre s ∧ match op with
    | .schedule c sleep o => (retirePrev cfg s c sleep).FairPickOk c o
    | .schedYield c o => (retirePrev cfg (yieldTask cfg s c o) c false).FairPickOk c o
    | .migrate p _ _ => ∀ c, (s.rq c).curr ≠ p
    | .enqueue _ _ _ | .dequeue _ | .yield _ _ | .requeue _ _ _ | .pick _ _ => False
    | _ => True

/-- Every cpu runs its idle task or a task of its run queue. -/
def System.CurrOk (s : System) : Prop := ∀ c, (s.rq c).curr = (s.rq c).idle ∨ s.CurrOnRq c

/-- The current tasks stay, and stay queued. -/
structure CurrKept (s t : System) : Prop where
  curr : ∀ c, (t.rq c).curr = (s.rq c).curr
  idle : ∀ c, (t.rq c).idle = (s.rq c).idle
  onRq : ∀ c, s.CurrOnRq c → t.CurrOnRq c

theorem CurrKept.trans (h : CurrKept s t) (h' : CurrKept t u) : CurrKept s u where
  curr c := (h'.curr c).trans (h.curr c)
  idle c := (h'.idle c).trans (h.idle c)
  onRq c hc := h'.onRq c (h.onRq c hc)

/-- A step that keeps the current tasks keeps them well placed. -/
theorem CurrKept.currOk (h : CurrKept s t) (hs : s.CurrOk) : t.CurrOk := by
  intro c
  rw [h.curr, h.idle]
  exact (hs c).imp_right (h.onRq c)

theorem CurrKept.of_rq (htask : t.task = s.task) (hcurr : ∀ c, (t.rq c).curr = (s.rq c).curr)
    (hidle : ∀ c, (t.rq c).idle = (s.rq c).idle) : CurrKept s t where
  curr := hcurr
  idle := hidle
  onRq c hc := by
    unfold System.CurrOnRq at hc ⊢
    rwa [hcurr, htask]

/-- The written task is not the current one, or stays queued where it is. -/
theorem Effect.currKept (h : Effect s t p f)
    (hp : ∀ c, (s.rq c).curr = p → s.CurrOnRq c →
      f.onRq = (s.task p).onRq ∧ f.cpu = (s.task p).cpu) : CurrKept s t where
  curr := h.frame.curr
  idle := h.frame.idle
  onRq c hc := by
    unfold System.CurrOnRq
    rw [h.frame.curr]
    by_cases hcurr : (s.rq c).curr = p
    · obtain ⟨hon, hcpu⟩ := hp c hcurr hc
      unfold System.CurrOnRq at hc
      rwa [hcurr, h.self, hon, hcpu, ← hcurr]
    · rwa [h.other hcurr]

theorem Effect.currKept_of_same (h : Effect s t p f) (hon : f.onRq = (s.task p).onRq)
    (hcpu : f.cpu = (s.task p).cpu) : CurrKept s t :=
  h.currKept fun _ _ _ => ⟨hon, hcpu⟩

/-- A task that is off the run queues is not a current task that is on one. -/
theorem Effect.currKept_of_off (h : Effect s t p f) (hoff : (s.task p).onRq = false) :
    CurrKept s t := by
  refine h.currKept fun c hcurr hc => ?_
  rw [System.CurrOnRq, hcurr, hoff] at hc
  cases hc.1

theorem Balance.currKept (h : Balance s t) : CurrKept s t where
  curr := h.frame.curr
  idle := h.frame.idle
  onRq c hc := by
    unfold System.CurrOnRq
    rw [h.frame.curr]
    rcases h.task_cases (s.rq c).curr with heq | ⟨hmov, -⟩
    · rwa [heq]
    · -- a movable task is not current on its cpu
      have hcpu : (s.task (s.rq c).curr).cpu = c := hc.2
      exact absurd (by rw [hcpu]) hmov.2.2

theorem Move.currKept (h : Move cfg s t p) : CurrKept s t := by
  obtain ⟨_, _, _, _, -, heff⟩ := h.effect
  exact heff.currKept_of_same rfl rfl

theorem Flagged.currKept (h : Flagged s t) : CurrKept s t :=
  CurrKept.of_rq h.task (fun _ => by rw [h.rq]) fun _ => by rw [h.rq]

theorem updRq_currKept (s : System) (c : Cpu) {g : Rq → Rq}
    (hcurr : (g (s.rq c)).curr = (s.rq c).curr) (hidle : (g (s.rq c)).idle = (s.rq c).idle) :
    CurrKept s (s.updRq c g) := by
  refine CurrKept.of_rq rfl (fun c' => ?_) fun c' => ?_
  all_goals
    rw [System.updRq_rq]
    by_cases hc : c' = c
    · subst hc
      rwa [Function.update_self]
    · rw [Function.update_of_ne hc]

/-- No task is current on two cpus. -/
theorem System.CurrOk.curr_ne (hs : s.CurrOk) (h : Inv cfg s) {c' : Cpu} (hc : c' ≠ c) :
    (s.rq c').curr ≠ (s.rq c).curr := by
  intro heq
  have hcpu : ∀ d, (s.task (s.rq d).curr).cpu = d := by
    intro d
    rcases hs d with hidle | hon
    · rw [hidle]
      exact ((h.idle d _).mp rfl).2.2
    · exact hon.2
  have hcpu' := hcpu c'
  rw [heq, hcpu c] at hcpu'
  exact hc hcpu'.symm

/-- After a switch the new current task is well placed. -/
theorem schedule_currOk (h : Inv cfg s) (hs : s.CurrOk) {sleep : Bool}
    (hsleep : sleep = true → s.CurrOnRq c)
    (ho : (retirePrev cfg s c sleep).FairPickOk c o) : (schedule cfg s c sleep o).CurrOk := by
  have hinv := retirePrev_inv h hsleep
  obtain ⟨hretire, -⟩ := retirePrev_effect cfg s c sleep
  obtain ⟨q, hbest, htask, hrq, -⟩ := switchTo_best hinv ho (s.rq c).curr
  intro c'
  unfold schedule System.CurrOnRq
  rw [htask, hrq]
  by_cases hc : c' = c
  · subst hc
    rw [Function.update_self]
    exact hbest.eligible.imp_right fun hq => ⟨hq.1.1, hq.1.2.2⟩
  · rw [Function.update_of_ne hc, hretire.frame.curr, hretire.frame.idle]
    refine (hs c').imp_right fun hc' => ?_
    rw [hretire.other (hs.curr_ne h hc)]
    exact hc'

theorem yieldTask_currKept (h : Inv cfg s)
    (hcurr : (s.rq c).curr = (s.rq c).idle ∨ s.CurrOnRq c) (o : Outside) :
    CurrKept s (yieldTask cfg s c o) := by
  rcases hcurr with hc | ⟨hon, hcpu⟩
  · rw [(idle_tick h hc o).2]
    exact CurrKept.of_rq rfl (fun _ => rfl) fun _ => rfl
  · have hrtp := (h.task _ (h.alive_of_onRq hon)).rtPriority
    exact (yieldTask_move hcpu hrtp o).currKept

theorem schedulerTick_currKept (h : Inv cfg s)
    (hcurr : (s.rq c).curr = (s.rq c).idle ∨ s.CurrOnRq c) (o : Outside) :
    CurrKept s (schedulerTick cfg s c o) := by
  rcases hcurr with hc | ⟨hon, hcpu⟩
  · rw [(idle_tick h hc o).1]
    exact CurrKept.of_rq rfl (fun _ => rfl) fun _ => rfl
  · have hrtp := (h.task _ (h.alive_of_onRq hon)).rtPriority
    exact (schedulerTick_move hcpu hrtp o).currKept

theorem setprio_currKept (cfg : Config) (s : System) (p : Pid) (prio : Int)
    (waiter : Option Int) (o : Outside) : CurrKept s (rtMutexSetprio cfg
      (s.updTask p fun t => { t with piTopWaiter := waiter }) p prio o) := by
  by_cases hidle : p = (s.rq (s.task p).cpu).idle
  · have hset := Effect.updTask s p fun t => { t with piTopWaiter := waiter }
    refine (hset.currKept_of_same rfl rfl).trans ?_
    have heq : ∀ t : System, p = (t.rq (t.task p).cpu).idle → rtMutexSetprio cfg t p prio o = t :=
      fun t ht => if_pos ht
    rw [heq]
    · exact CurrKept.of_rq rfl (fun _ => rfl) fun _ => rfl
    · simpa using hidle
  · obtain ⟨u, heff, hbal⟩ := setprio_effect cfg s p prio waiter o hidle
    exact (heff.currKept_of_same rfl rfl).trans hbal.currKept

/-- **Step lemma**: every core operation leaves every cpu with its idle task or a task of
its run queue. -/
theorem exec_currOk (h : Inv cfg s) (hs : s.CurrOk) {op : Op} (hop : op.Core cfg s) :
    (exec cfg s op).CurrOk := by
  obtain ⟨hpre, hcore⟩ := hop
  cases op with
  | fork parent child =>
    refine CurrKept.currOk ?_ hs
    -- the child is nowhere yet
    have hoff := h.dead child hpre.2
    have hfork := Effect.setTask s child (forkTask (s.task parent))
    exact (hfork.currKept_of_off hoff).trans (CurrKept.of_rq rfl (fun _ => rfl) fun _ => rfl)
  | wakeUp p c o | wakeUpNew p c o =>
    exact ((activateOn_effect cfg s p c _ o).currKept_of_off hpre.off).currOk hs
  | schedule c sleep o => exact schedule_currOk h hs hpre hcore
  | tick c o => exact (schedulerTick_currKept h hpre o).currOk hs
  | schedYield c o =>
    exact schedule_currOk (yieldTask_inv h hpre o) ((yieldTask_currKept h hpre o).currOk hs)
      (fun hs => nomatch hs) hcore
  | migrate p dest o =>
    refine CurrKept.currOk ?_ hs
    by_cases hon : (s.task p).onRq = true
    · -- the current task is not migrated
      refine (migrateTask_effect cfg s p dest o hon).currKept fun c hc _ => ?_
      exact absurd hc (hcore c)
    · rw [show exec cfg s (.migrate p dest o) = s from if_neg hon]
      exact CurrKept.of_rq rfl (fun _ => rfl) fun _ => rfl
  | nice p nice =>
    refine CurrKept.currOk ?_ hs
    rcases setUserNice_effect cfg s p nice with ⟨-, heq⟩ | ⟨-, ⟨-, heff⟩ | ⟨-, heff⟩⟩
    · rw [show exec cfg s (.nice p nice) = s from heq]
      exact CurrKept.of_rq rfl (fun _ => rfl) fun _ => rfl
    · exact heff.currKept_of_same rfl rfl
    · exact heff.currKept_of_same rfl rfl
  | setscheduler p policy reset prio o =>
    obtain ⟨u, slice, times, heff, hbal⟩ := changeScheduler_effect cfg s p policy reset prio o
    exact ((heff.currKept_of_same rfl rfl).trans hbal.currKept).currOk hs
  | setprio p prio waiter o => exact (setprio_currKept cfg s p prio waiter o).currOk hs
  | normalize p o =>
    obtain ⟨u, slice, times, heff, hbal⟩ := normalizeTask_effect cfg s p o
    exact ((heff.currKept_of_same rfl rfl).trans hbal.currKept).currOk hs
  | moveGroup p tg =>
    exact ((schedMoveTask_effect cfg s p tg).currKept_of_same rfl rfl).currOk hs
  | throttle c =>
    have hset : CurrKept s (s.setRt c { (s.rq c).rt with rtThrottled := true }) :=
      updRq_currKept s c rfl rfl
    exact (hset.trans (Flagged.reschedCurr _ c).currKept).currOk hs
  | unthrottle c =>
    have hset : CurrKept s (s.setRt c { (s.rq c).rt with rtThrottled := false }) :=
      updRq_currKept s c rfl rfl
    refine (hset.trans ?_).currOk hs
    show CurrKept _ (if _ then _ else _)
    split
    · exact (Flagged.reschedCurr _ c).currKept
    · exact (Flagged.refl _).currKept
  | clock c now =>
    have hset : CurrKept s (s.updRq c fun r => { r with clockTask := now }) :=
      updRq_currKept s c rfl rfl
    exact hset.currOk hs
  | enqueue | dequeue | yield | requeue | pick => exact hcore.elim

/-- At boot every CPU runs its idle task. -/
theorem Boot.currOk (h : Boot s) : s.CurrOk := fun c => .inl (h.curr c)

/-- **Every state of a core run satisfies the invariant and runs sensible tasks.** -/
theorem core_inv {ok : System → Op → Prop} (hok : ∀ s op, ok s op → op.Core cfg s) (hs : Boot s)
    (h : Reach ok (exec cfg) s t) : Inv cfg t ∧ t.CurrOk :=
  h.invariant (I := fun s => Inv cfg s ∧ s.CurrOk) (fun _ op hinv hop =>
    ⟨exec_inv hinv.1 op (hok _ op hop).1, exec_currOk hinv.1 hinv.2 (hok _ op hop)⟩)
    ⟨hs.inv, hs.currOk⟩

/-! ## Core runs that are written down -/

def fairPickCheck (s : System) (c : Cpu) (o : Outside) : Bool :=
  match o.fairPick with
  | none => (s.rq c).cfs.tasks.isEmpty
  | some p => decide (p ∈ (s.rq c).cfs.tasks)

/-- The executable test implies the condition on the fair pick. -/
theorem fairPickOk_of_check (h : Inv cfg s) (hcheck : fairPickCheck s c o = true) :
    s.FairPickOk c o := by
  unfold fairPickCheck at hcheck
  unfold System.FairPickOk
  cases hfair : o.fairPick with
  | none =>
    rw [hfair] at hcheck
    intro p hp
    have hmem := h.mem_cfs_iff.mpr hp
    rw [List.isEmpty_iff.mp hcheck] at hmem
    cases hmem
  | some p =>
    rw [hfair] at hcheck
    exact h.mem_cfs_iff.mp (of_decide_eq_true hcheck)

/-- `Op.Core` as a test, for the states of core runs. -/
def Op.coreCheck (cfg : Config) (s : System) (op : Op) : Bool :=
  op.check s && match op with
    | .schedule c sleep o => fairPickCheck (retirePrev cfg s c sleep) c o
    | .schedYield c o => fairPickCheck (retirePrev cfg (yieldTask cfg s c o) c false) c o
    | .migrate p _ _ => decide ((s.rq (s.task p).cpu).curr ≠ p)
    | .enqueue _ _ _ | .dequeue _ | .yield _ _ | .requeue _ _ _ | .pick _ _ => false
    | _ => true

/-- The executable test implies the precondition of the step. -/
theorem Op.core_of_check (h : Inv cfg s) (hs : s.CurrOk) {op : Op}
    (hcheck : op.coreCheck cfg s = true) : op.Core cfg s := by
  obtain ⟨hpre, hcore⟩ := Bool.and_eq_true_iff.mp hcheck
  have hpre := Op.pre_of_check h hpre
  refine ⟨hpre, ?_⟩
  cases op with
  | schedule c sleep o => exact fairPickOk_of_check (retirePrev_inv h hpre) hcore
  | schedYield c o =>
    exact fairPickOk_of_check (retirePrev_inv (yieldTask_inv h hpre o) fun hs => nomatch hs) hcore
  | migrate p dest o =>
    intro c hc
    rcases hs c with hidle | hon
    · exact (hpre.2 c).1 (hidle.symm.trans hc)
    · have hcpu := hon.2
      rw [hc] at hcpu
      rw [← hcpu] at hc
      exact of_decide_eq_true hcore hc
  | enqueue | dequeue | yield | requeue | pick => cases hcore
  | _ => trivial

/-- A written-down core run whose steps meet a further decidable condition. -/
theorem core_of_check {extra : System → Op → Prop} [∀ s op, Decidable (extra s op)]
    (hs : Boot s) (ops : List Op) (hrun : Reach.runTest
      (fun s op => op.coreCheck cfg s && decide (extra s op)) (exec cfg) s ops = true) :
    Reach (fun s op => op.Core cfg s ∧ extra s op) (exec cfg) s (ops.foldl (exec cfg) s) := by
  refine Reach.of_runTest (I := fun s => Inv cfg s ∧ s.CurrOk) ?_ ?_ ⟨hs.inv, hs.currOk⟩ hrun
  · intro s op hinv hop
    exact ⟨exec_inv hinv.1 op hop.1.1, exec_currOk hinv.1 hinv.2 hop.1⟩
  · intro s op hinv htest
    obtain ⟨hcore, hextra⟩ := Bool.and_eq_true_iff.mp htest
    exact ⟨Op.core_of_check hinv.1 hinv.2 hcore, of_decide_eq_true hextra⟩

theorem coreRun_of_check (hs : Boot s) (ops : List Op)
    (hrun : Reach.runTest (fun s op => op.coreCheck cfg s) (exec cfg) s ops = true) :
    Reach (fun s op => op.Core cfg s) (exec cfg) s (ops.foldl (exec cfg) s) :=
  Reach.of_runTest (I := fun s => Inv cfg s ∧ s.CurrOk)
    (fun _ op hinv hop => ⟨exec_inv hinv.1 op hop.1, exec_currOk hinv.1 hinv.2 hop⟩)
    (fun _ _ hinv htest => Op.core_of_check hinv.1 hinv.2 htest) ⟨hs.inv, hs.currOk⟩ hrun

end LinuxWrr
