import LinuxWrr.Lib.Reach
import LinuxWrr.Sched.Inv

/-!
# Runs of the scheduler

One operation per way in which the kernel changes the scheduler's state, each under
the run-queue lock and therefore one step. The operations come in two layers.

- The core operations are what the rest of the kernel can ask for: forks, wake-ups,
  reschedules, ticks, yields, migrations, changes of policy, priority, nice value and
  group, RT throttling, the clock.
- The class operations are the hooks on their own, in the order and under the
  preconditions the core uses them: a superset that the queue invariants do not mind.

`Op.Pre` is the caller discipline, and `Op.check` decides it in the states that satisfy
the invariant. **`reach_inv`: every state of every run from a freshly initialised system
satisfies `Inv`.**
-/

namespace LinuxWrr

inductive Op where
  | fork (parent child : Pid)
  | wakeUp (p : Pid) (c : Cpu) (o : Outside)
  | wakeUpNew (p : Pid) (c : Cpu) (o : Outside)
  | schedule (c : Cpu) (sleep : Bool) (o : Outside)
  | tick (c : Cpu) (o : Outside)
  | schedYield (c : Cpu) (o : Outside)
  | migrate (p : Pid) (dest : Cpu) (o : Outside)
  | nice (p : Pid) (nice : Int)
  | setscheduler (p : Pid) (policy : Policy) (reset : Bool) (prio : Nat) (o : Outside)
  | setprio (p : Pid) (prio : Int) (waiter : Option Int) (o : Outside)
  | normalize (p : Pid) (o : Outside)
  | moveGroup (p : Pid) (tg : Nat)
  | throttle (c : Cpu)
  | unthrottle (c : Cpu)
  | clock (c : Cpu) (now : Nat)
  -- class hooks on their own
  | enqueue (p : Pid) (c : Cpu) (flags : Nat)
  | dequeue (p : Pid)
  | yield (c : Cpu) (o : Outside)
  | requeue (p : Pid) (head : Bool) (rand : UInt32)
  | pick (c : Cpu) (o : Outside)

/-- The effect of an operation. -/
def exec (cfg : Config) (s : System) : Op → System
  | .fork parent child => schedFork s parent child
  | .wakeUp p c o => tryToWakeUp cfg s p c o
  | .wakeUpNew p c o => wakeUpNewTask cfg s p c o
  | .schedule c sleep o => schedule cfg s c sleep o
  | .tick c o => schedulerTick cfg s c o
  | .schedYield c o => schedYield cfg s c o
  | .migrate p dest o => migrateTask cfg s p dest o
  | .nice p nice => setUserNice cfg s p nice
  | .setscheduler p policy reset prio o => changeScheduler cfg s p policy reset prio o
  | .setprio p prio waiter o =>
    rtMutexSetprio cfg (s.updTask p fun t => { t with piTopWaiter := waiter }) p prio o
  | .normalize p o => normalizeTask cfg s p o
  | .moveGroup p tg => schedMoveTask cfg s p tg
  | .throttle c => rtThrottle s c
  | .unthrottle c => rtUnthrottle s c
  | .clock c now => s.updRq c fun r => { r with clockTask := now }
  | .enqueue p c flags => activateTask cfg s p c flags
  | .dequeue p => deactivateTask cfg s (s.task p).cpu p
  | .yield c o => yieldTask cfg s c o
  | .requeue p head rand => requeueTaskWrr cfg s (s.task p).cpu p head rand
  | .pick c o => (pickNextTask cfg s c o).2

/-- The current task of `c` is on the run queue of `c`. -/
def System.CurrOnRq (s : System) (c : Cpu) : Prop :=
  (s.task (s.rq c).curr).onRq = true ∧ (s.task (s.rq c).curr).cpu = c

/-- When an operation may be issued. -/
def Op.Pre (s : System) : Op → Prop
  | .fork parent child => s.Ordinary parent ∧ (s.task child).alive = false
  | .wakeUp p c _ | .wakeUpNew p c _ | .enqueue p c _ => s.Wakeable p c
  | .schedule c sleep _ => sleep = true → s.CurrOnRq c
  | .tick c _ | .schedYield c _ | .yield c _ => (s.rq c).curr = (s.rq c).idle ∨ s.CurrOnRq c
  | .migrate p _ _ | .nice p _ | .normalize p _ | .moveGroup p _ => s.Ordinary p
  | .setscheduler p policy _ prio _ => s.Ordinary p ∧ PrioFor policy prio
  | .setprio p prio waiter _ => s.Ordinary p ∧ 0 ≤ prio ∧ prio ≤ maxPrio ∧
      ∀ w, waiter = some w → 0 ≤ w
  | .dequeue p => (s.task p).onRq = true
  | .requeue p _ _ => (s.task p).onRq = true ∧ (s.task p).schedClass = .wrr
  | .throttle _ | .unthrottle _ | .clock _ _ | .pick _ _ => True

variable {cfg : Config} {s t : System} {c : Cpu} {p : Pid}

theorem requeueTaskWrr_move (hk : (s.task p).schedClass = .wrr)
    (hrtp : (s.task p).rtPriority ≤ 99) (head : Bool) (rand : UInt32) :
    Move cfg s (requeueTaskWrr cfg s (s.task p).cpu p head rand) p := by
  unfold requeueTaskWrr
  cases hcfg : cfg.wrr with
  | basic => exact Basic.requeueTaskWrr_move hcfg hk rfl head
  | rmlfq => exact Rmlfq.requeueTaskWrr_move hcfg hk rfl hrtp head rand

/-- A tick or a yield of an idle current task does nothing. -/
theorem idle_tick (h : Inv cfg s) (hc : (s.rq c).curr = (s.rq c).idle) (o : Outside) :
    schedulerTick cfg s c o = s ∧ yieldTask cfg s c o = s := by
  have hk : (s.task (s.rq c).curr).schedClass = .idle := ((h.idle c _).mp hc.symm).2.1
  refine ⟨?_, ?_⟩
  · show (schedClassOf cfg (s.task (s.rq c).curr).schedClass).taskTick s c _ o = s
    rw [hk]
    rfl
  · rw [yieldTask, hk]
    rfl

/-- A current WRR task is not the idle task, so it is queued where it runs. -/
theorem Inv.currOnRq_of_wrr (h : Inv cfg s)
    (hcurr : (s.rq c).curr = (s.rq c).idle ∨ s.CurrOnRq c)
    (hk : (s.task (s.rq c).curr).schedClass = .wrr) : s.CurrOnRq c := by
  refine hcurr.resolve_left fun hidle => ?_
  have hclass := ((h.idle c _).mp hidle.symm).2.1
  rw [hk] at hclass
  cases hclass

theorem schedulerTick_inv (h : Inv cfg s)
    (hcurr : (s.rq c).curr = (s.rq c).idle ∨ s.CurrOnRq c) (o : Outside) :
    Inv cfg (schedulerTick cfg s c o) := by
  rcases hcurr with hc | ⟨hon, hcpu⟩
  · rw [(idle_tick h hc o).1]
    exact h
  · have hrtp := (h.task _ (h.alive_of_onRq hon)).rtPriority
    exact (schedulerTick_move hcpu hrtp o).inv h hon

theorem yieldTask_inv (h : Inv cfg s)
    (hcurr : (s.rq c).curr = (s.rq c).idle ∨ s.CurrOnRq c) (o : Outside) :
    Inv cfg (yieldTask cfg s c o) := by
  rcases hcurr with hc | ⟨hon, hcpu⟩
  · rw [(idle_tick h hc o).2]
    exact h
  · have hrtp := (h.task _ (h.alive_of_onRq hon)).rtPriority
    exact (yieldTask_move hcpu hrtp o).inv h hon

theorem setprio_inv (h : Inv cfg s) (hp : s.Ordinary p) {prio : Int} (hprio : 0 ≤ prio)
    {waiter : Option Int} (hwaiter : ∀ w, waiter = some w → 0 ≤ w) (o : Outside) :
    Inv cfg (rtMutexSetprio cfg (s.updTask p fun t => { t with piTopWaiter := waiter }) p prio
      o) := by
  have hok := h.task p hp.1
  have hset : Inv cfg (s.updTask p fun t => { t with piTopWaiter := waiter }) :=
    h.of_sameSlot hp rfl rfl rfl (slotOf_congr cfg rfl rfl rfl rfl)
      ⟨hok.rtPriority, hok.userPriority, hok.staticPrio, hok.normalPrio, hok.prio, hwaiter,
        hok.rt, hok.wrr⟩ hp.1 rfl
  refine rtMutexSetprio_inv hset ⟨?_, hp.2⟩ hprio o
  simpa using hp.1

/-- **Step lemma**: every operation keeps the invariant. -/
theorem exec_inv (h : Inv cfg s) (op : Op) (hpre : op.Pre s) : Inv cfg (exec cfg s op) := by
  cases op with
  | fork parent child => exact schedFork_inv h hpre.1 hpre.2
  | wakeUp p c o => exact activateOn_inv h hpre _ o
  | wakeUpNew p c o => exact activateOn_inv h hpre _ o
  | schedule c sleep o => exact schedule_inv h hpre o
  | tick c o => exact schedulerTick_inv h hpre o
  | schedYield c o =>
    exact schedule_inv (yieldTask_inv h hpre o) (fun hs : false = true => nomatch hs) o
  | migrate p dest o => exact migrateTask_inv h hpre dest o
  | nice p nice => exact setUserNice_inv h hpre nice
  | setscheduler p policy reset prio o => exact changeScheduler_inv h hpre.1 hpre.2 reset o
  | setprio p prio waiter o => exact setprio_inv h hpre.1 hpre.2.1 hpre.2.2.2 o
  | normalize p o => exact normalizeTask_inv h hpre o
  | moveGroup p tg => exact schedMoveTask_inv h hpre tg
  | throttle c => exact rtThrottle_inv h c
  | unthrottle c => exact rtUnthrottle_inv h c
  | clock c now =>
    exact h.of_updRq (c := c) rfl rfl rfl rfl ((h.rep c).of_eq rfl rfl rfl rfl rfl rfl)
  | enqueue p c flags => exact activateTask_inv h hpre flags
  | dequeue p => exact deactivateTask_inv h hpre rfl
  | yield c o => exact yieldTask_inv h hpre o
  | requeue p head rand =>
    have hrtp := (h.task p (h.alive_of_onRq hpre.1)).rtPriority
    exact (requeueTaskWrr_move hpre.2 hrtp head rand).inv h hpre.1
  | pick c o =>
    have hpick := pickNextTask_only cfg s c o
    exact h.of_rq hpick.task hpick.rq

/-! ## The initial state -/

/-- A system as `sched_init` leaves it: every run queue empty, every cpu running its idle
task, nothing on a run queue; the tasks are any well-formed ones. -/
structure Boot (s : System) : Prop where
  wrr : ∀ c, (s.rq c).wrr = initWrrRq
  rt : ∀ c, (s.rq c).rt = initRtRq
  cfs : ∀ c, (s.rq c).cfs = { tasks := [], hNrRunning := 0 }
  nrRunning : ∀ c, (s.rq c).nrRunning = 0
  curr : ∀ c, (s.rq c).curr = (s.rq c).idle
  off : ∀ p, (s.task p).onRq = false
  task : ∀ p, (s.task p).alive = true → TaskOk (s.task p)
  idle : ∀ c p, (s.rq c).idle = p ↔
    (s.task p).alive = true ∧ (s.task p).schedClass = .idle ∧ (s.task p).cpu = c
  stop : ∀ c p, (s.rq c).stop = some p ↔
    (s.task p).alive = true ∧ (s.task p).schedClass = .stop ∧ (s.task p).cpu = c

theorem Boot.inv (h : Boot s) : Inv cfg s where
  rep c := by
    have hslots : s.slots cfg = fun _ => none :=
      funext fun p => System.slots_of_not_onRq (h.off p)
    have hlvl : ∀ k, levelAt (s.slots cfg) k c = fun _ => none := by
      intro k
      funext p
      exact levelAt_of_none (congrFun hslots p) k c
    refine ⟨?_, ?_, ?_, ?_, ?_⟩
    · rw [hlvl, h.wrr]
      exact ⟨PrioArray.Repr.init _, by simp [initWrrRq], by simp [initWrrRq]⟩
    · rw [hlvl, h.rt]
      exact ⟨PrioArray.Repr.init _, by simp [initRtRq]⟩
    · rw [hlvl, h.cfs]
      exact ⟨List.nodup_nil, by simp, rfl⟩
    · rw [hlvl]
      exact fun p hp => absurd rfl hp
    · have hstop : StopRep (fun _ => none) (s.rq c).stop := fun p hp => absurd rfl hp
      rw [hlvl, h.nrRunning, h.rt, h.wrr, h.cfs,
        (stopNr_eq_zero_iff hstop).mpr fun _ => rfl]
      rfl
  task := h.task
  dead p _ := h.off p
  idle := h.idle
  idleOff p _ := h.off p
  stop := h.stop

/-- **Every reachable state satisfies the invariant.** -/
theorem reach_inv {ok : System → Op → Prop} (hok : ∀ s op, ok s op → op.Pre s) (hs : Boot s)
    (h : Reach ok (exec cfg) s t) : Inv cfg t :=
  h.invariant (fun _ op hinv hop => exec_inv hinv op (hok _ op hop)) hs.inv

/-! ## Runs that are written down -/

/-- `Op.Pre` as a test, for states that satisfy the invariant. -/
def Op.check (s : System) : Op → Bool
  | .fork parent child => ordinary parent && !(s.task child).alive
  | .wakeUp p c _ | .wakeUpNew p c _ | .enqueue p c _ =>
    (s.task p).alive && !(s.task p).onRq && decide ((s.task p).schedClass ≠ .idle) &&
      (decide ((s.task p).schedClass ≠ .stop) || decide ((s.task p).cpu = c))
  | .schedule c sleep _ => !sleep || currOnRq c
  | .tick c _ | .schedYield c _ | .yield c _ =>
    decide ((s.rq c).curr = (s.rq c).idle) || currOnRq c
  | .migrate p _ _ | .nice p _ | .normalize p _ | .moveGroup p _ => ordinary p
  | .setscheduler p policy _ prio _ =>
    ordinary p && decide (prio ≤ 99) && (rtPolicy policy || wrrPolicy policy || prio == 0)
  | .setprio p prio waiter _ =>
    ordinary p && decide (0 ≤ prio) && decide (prio ≤ maxPrio) &&
      waiter.all fun w => decide (0 ≤ w)
  | .dequeue p => (s.task p).onRq
  | .requeue p _ _ => (s.task p).onRq && decide ((s.task p).schedClass = .wrr)
  | .throttle _ | .unthrottle _ | .clock _ _ | .pick _ _ => true
where
  ordinary (p : Pid) : Bool :=
    (s.task p).alive && decide ((s.task p).schedClass ≠ .idle) &&
      decide ((s.task p).schedClass ≠ .stop)
  currOnRq (c : Cpu) : Bool :=
    (s.task (s.rq c).curr).onRq && decide ((s.task (s.rq c).curr).cpu = c)

/-- The test for an ordinary task is exact. -/
theorem Op.ordinary_check (h : Inv cfg s) : Op.check.ordinary s p = true ↔ s.Ordinary p := by
  rw [h.ordinary_iff]
  simp [Op.check.ordinary, and_assoc]

/-- The test for a current task that is queued is exact. -/
theorem Op.currOnRq_check : Op.check.currOnRq s c = true ↔ s.CurrOnRq c := by
  simp [Op.check.currOnRq, System.CurrOnRq]

theorem Op.wakeable_check (h : Inv cfg s)
    (hcheck : ((s.task p).alive && !(s.task p).onRq && decide ((s.task p).schedClass ≠ .idle) &&
      (decide ((s.task p).schedClass ≠ .stop) || decide ((s.task p).cpu = c))) = true) :
    s.Wakeable p c := by
  simp only [Bool.and_eq_true, Bool.or_eq_true, Bool.not_eq_true', decide_eq_true_eq] at hcheck
  obtain ⟨⟨⟨halive, hoff⟩, hidle⟩, hstop⟩ := hcheck
  refine ⟨halive, hoff, fun c' hc' => hidle ((h.idle c' p).mp hc').2.1, fun c' hc' => ?_⟩
  obtain ⟨-, hk, hcpu⟩ := (h.stop c' p).mp hc'
  rw [← hcpu]
  exact hstop.resolve_left fun hne => hne hk

/-- A step that passes the test satisfies its precondition. -/
theorem Op.pre_of_check (h : Inv cfg s) {op : Op} (hcheck : op.check s = true) : op.Pre s := by
  cases op with
  | fork parent child =>
    simp only [Op.check, Bool.and_eq_true, Bool.not_eq_true'] at hcheck
    exact ⟨(Op.ordinary_check h).mp hcheck.1, hcheck.2⟩
  | wakeUp | wakeUpNew | enqueue => exact Op.wakeable_check h hcheck
  | schedule c sleep o =>
    rintro rfl
    exact Op.currOnRq_check.mp hcheck
  | tick c | schedYield c | yield c =>
    simp only [Op.check, Bool.or_eq_true, decide_eq_true_eq, Op.currOnRq_check] at hcheck
    exact hcheck
  | migrate | nice | normalize | moveGroup => exact (Op.ordinary_check h).mp hcheck
  | setscheduler p policy reset prio o =>
    simp only [Op.check, Bool.and_eq_true, Bool.or_eq_true, decide_eq_true_eq, beq_iff_eq]
      at hcheck
    obtain ⟨⟨hp, hle⟩, hzero⟩ := hcheck
    refine ⟨(Op.ordinary_check h).mp hp, hle, fun hrt hwrr => ?_⟩
    simpa [hrt, hwrr] using hzero
  | setprio p prio waiter o =>
    simp only [Op.check, Bool.and_eq_true, decide_eq_true_eq] at hcheck
    obtain ⟨⟨⟨hp, hlo⟩, hhi⟩, hwaiter⟩ := hcheck
    refine ⟨(Op.ordinary_check h).mp hp, hlo, hhi, ?_⟩
    rintro w rfl
    simpa using hwaiter
  | dequeue p => exact hcheck
  | requeue p =>
    simp only [Op.check, Bool.and_eq_true, decide_eq_true_eq] at hcheck
    exact hcheck
  | throttle | unthrottle | clock | pick => trivial

/-- A written-down run whose steps meet a further decidable condition. -/
theorem guarded_of_check {extra : System → Op → Prop} [∀ s op, Decidable (extra s op)]
    (h : Inv cfg s) (ops : List Op) (hrun : Reach.runTest
      (fun s op => op.check s && decide (extra s op)) (exec cfg) s ops = true) :
    Reach (fun s op => op.Pre s ∧ extra s op) (exec cfg) s (ops.foldl (exec cfg) s) := by
  refine Reach.of_runTest (I := Inv cfg) (fun _ op hinv hop => exec_inv hinv op hop.1) ?_ h hrun
  intro s op hinv htest
  obtain ⟨hcheck, hextra⟩ := Bool.and_eq_true_iff.mp htest
  exact ⟨Op.pre_of_check hinv hcheck, of_decide_eq_true hextra⟩

theorem reach_of_check (h : Inv cfg s) (ops : List Op)
    (hrun : Reach.runTest (fun s op => op.check s) (exec cfg) s ops = true) :
    Reach (fun s op => op.Pre s) (exec cfg) s (ops.foldl (exec cfg) s) :=
  Reach.of_runTest (I := Inv cfg) (fun _ op hinv hpre => exec_inv hinv op hpre)
    (fun _ _ hinv => Op.pre_of_check hinv) h hrun

/-! ## A system to start from -/

/-- A sleeping fair task. -/
def fairTask : Task where
  alive := true
  policy := .normal
  rtPriority := 0
  staticPrio := 120
  normalPrio := 120
  prio := 120
  schedClass := .fair
  onRq := false
  cpu := 0
  timeSlice := 0
  times := 0
  rtTimeSlice := 0
  schedResetOnFork := false
  schedTaskGroup := 0
  mm := true
  rlimRtprio := 0
  rlimNice := 0
  piTopWaiter := none

/-- A sleeping WRR task with a foreground slice. -/
def wrrTask (rtPriority : Nat) : Task :=
  { fairTask with
    policy := .wrr
    rtPriority := rtPriority
    schedClass := .wrr
    timeSlice := 10
    times := 1 }

/-- Even pids are the idle tasks of the cpus, a quarter of the pids is unused, and the
others are `user`. -/
def bootTask (user : Pid → Task) (p : Pid) : Task :=
  if p % 2 = 0 then { fairTask with schedClass := .idle, cpu := p / 2 }
  else { user p with alive := p % 4 != 3 }

def bootRq (c : Cpu) : Rq where
  nrRunning := 0
  wrr := initWrrRq
  rt := initRtRq
  cfs := { tasks := [], hNrRunning := 0 }
  curr := 2 * c
  idle := 2 * c
  stop := none
  clockTask := 0

/-- A freshly booted system whose tasks are `user`. -/
def bootWith (user : Pid → Task) : System where
  task := bootTask user
  se _ := { execStart := 0, sumExecRuntime := 0 }
  needResched _ := false
  rq := bootRq
  groupPath _ := '\x00'

def bootSystem : System := bootWith fun _ => fairTask

/-- The sleeping tasks a system can boot with. -/
structure BootUser (f : Task) : Prop where
  off : f.onRq = false
  ok : TaskOk f
  idle : f.schedClass ≠ .idle
  stop : f.schedClass ≠ .stop

theorem bootTask_even (user : Pid → Task) {p : Nat} (hp : p % 2 = 0) :
    bootTask user p = { fairTask with schedClass := .idle, cpu := p / 2 } := if_pos hp

theorem bootTask_odd (user : Pid → Task) {p : Nat} (hp : ¬p % 2 = 0) :
    bootTask user p = { user p with alive := p % 4 != 3 } := if_neg hp

theorem fairTask_ok : TaskOk fairTask where
  rtPriority := by decide
  userPriority _ _ := rfl
  staticPrio := by decide
  normalPrio := rfl
  prio := by decide
  waiter _ hw := nomatch hw
  rt hk := nomatch hk
  wrr hk := nomatch hk

theorem wrrTask_ok {rtPriority : Nat} (h : rtPriority ≤ 99) : TaskOk (wrrTask rtPriority) where
  rtPriority := h
  userPriority _ hwrr := nomatch hwrr
  staticPrio := fairTask_ok.staticPrio
  normalPrio := rfl
  prio := fairTask_ok.prio
  waiter _ hw := nomatch hw
  rt hk := nomatch hk
  wrr _ := rfl

/-- A boot state may have any user tasks that are as they are at boot. -/
theorem bootWith_boot {user : Pid → Task} (h : ∀ p, BootUser (user p)) : Boot (bootWith user) where
  wrr _ := rfl
  rt _ := rfl
  cfs _ := rfl
  nrRunning _ := rfl
  curr _ := rfl
  off p := by
    show (bootTask user p).onRq = false
    by_cases hp : p % 2 = 0
    · rw [bootTask_even user hp]
      rfl
    · rw [bootTask_odd user hp]
      exact (h p).off
  task p _ := by
    show TaskOk (bootTask user p)
    by_cases hp : p % 2 = 0
    · rw [bootTask_even user hp]
      have hok := fairTask_ok
      exact ⟨hok.rtPriority, hok.userPriority, hok.staticPrio, hok.normalPrio, hok.prio, hok.waiter,
        (fun hk => nomatch hk), fun hk => nomatch hk⟩
    · rw [bootTask_odd user hp]
      have hok := (h p).ok
      exact ⟨hok.rtPriority, hok.userPriority, hok.staticPrio, hok.normalPrio, hok.prio, hok.waiter,
        hok.rt, hok.wrr⟩
  idle c p := by
    show 2 * c = p ↔ (bootTask user p).alive = true ∧ (bootTask user p).schedClass = .idle ∧
      (bootTask user p).cpu = c
    have hhalf : ∀ c p : Nat, p % 2 = 0 → (2 * c = p ↔ p / 2 = c) := by omega
    by_cases hp : p % 2 = 0
    · rw [bootTask_even user hp, hhalf c p hp]
      exact ⟨fun hc => ⟨rfl, rfl, hc⟩, fun hc => hc.2.2⟩
    · rw [bootTask_odd user hp]
      refine ⟨fun hc => absurd ?_ hp, fun hc => absurd hc.2.1 (h p).idle⟩
      rw [← hc]
      exact Nat.mul_mod_right 2 c
  stop c p := by
    show none = some p ↔ (bootTask user p).alive = true ∧ (bootTask user p).schedClass = .stop ∧ _
    refine ⟨(fun hn => nomatch hn), fun hk => ?_⟩
    by_cases hp : p % 2 = 0
    · rw [bootTask_even user hp] at hk
      cases hk.2.1
    · rw [bootTask_odd user hp] at hk
      exact absurd hk.2.1 (h p).stop

theorem bootSystem_boot : Boot bootSystem :=
  bootWith_boot fun _ => ⟨rfl, fairTask_ok, by decide, by decide⟩

/-- A system of sleeping WRR tasks, with the priorities `prio`. -/
def wrrSystem (prio : Pid → Nat) : System := bootWith fun p => wrrTask (min (prio p) 99)

theorem wrrSystem_boot (prio : Pid → Nat) : Boot (wrrSystem prio) :=
  bootWith_boot fun _ => ⟨rfl, wrrTask_ok (Nat.min_le_right _ 99), (fun hk => nomatch hk),
    fun hk => nomatch hk⟩

/-- A uniprocessor kernel for the armeabi target: `HZ` 100 and a 32-bit `long`. Group 0 is
the root group, group 1 is `/bg_non_interactive`. -/
def upConfig (file : WrrFile) : Config where
  wrr := file
  smp := false
  hz := 100
  longBits := 32
  group tg :=
    { autogroupPath := none
      cgroupPath := some (if tg = 1 then "/bg_non_interactive".toList else ['/']) }
  hzFits := by decide

/-- No word, no fair task, no wish of the code outside. -/
def Outside.quiet : Outside where
  rand := 0
  fairPick := none
  fairResched := false
  rtPushAway := false
  rtPull := []
  rtPush := none

end LinuxWrr
