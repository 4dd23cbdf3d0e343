import LinuxWrr.Sched.Move

/-!
# The scheduler invariant

The slot map of a system is read off its task table: a task with `on_rq` set is at the
slot its fields ask for, every other task is nowhere. The invariant `Inv` says that the
run queues represent exactly that map, and adds what the task table itself satisfies.

- `System.slots`: the slot map of the task table.
- `TaskOk`: what every live task satisfies (ranges, `normal_prio` up to date, the WRR
  class only under `SCHED_WRR`).
- `Inv cfg s`: the invariant.
- `Inv.rep_dequeue`, `rep_reenqueue`, `Inv.of_ordinary`: **dequeue, change the task,
  enqueue again** keeps it; every function of `core.c` that changes a task is an
  instance.
- one lemma per core function (`changeScheduler_inv`, `rtMutexSetprio_inv`, ...).
-/

namespace LinuxWrr

variable {cfg : Config} {s t u : System} {c : Cpu} {p q : Pid}

/-- Where every task is. -/
def System.slots (cfg : Config) (s : System) (p : Pid) : Option Slot :=
  if (s.task p).onRq then some (slotOf cfg (s.task p)) else none

/-- What every live task satisfies. -/
structure TaskOk (t : Task) : Prop where
  rtPriority : t.rtPriority ≤ 99
  userPriority : rtPolicy t.policy = false → wrrPolicy t.policy = false → t.rtPriority = 0
  staticPrio : 100 ≤ t.staticPrio ∧ t.staticPrio ≤ 139
  normalPrio : t.normalPrio = LinuxWrr.normalPrio t
  prio : 0 ≤ t.prio
  waiter : ∀ w, t.piTopWaiter = some w → 0 ≤ w
  rt : t.schedClass = .rt → t.prio < maxRtPrio
  wrr : t.schedClass = .wrr → t.policy = .wrr

/-- Where a task is does not matter. -/
theorem TaskOk.relocate {f : Task} (h : TaskOk f) (onRq : Bool) (cpu : Cpu) :
    TaskOk { f with onRq := onRq, cpu := cpu } :=
  ⟨h.rtPriority, h.userPriority, h.staticPrio, h.normalPrio, h.prio, h.waiter, h.rt, h.wrr⟩

theorem TaskOk.queueable {f : Task} (h : TaskOk f) (hidle : f.schedClass ≠ .idle) :
    Queueable cfg f where
  notIdle := hidle
  wrr _ := by
    have hrtp := h.rtPriority
    show wrrLevel cfg f < 100
    unfold wrrLevel
    cases cfg.wrr
    · show f.rtPriority < 100
      omega
    · show 99 - f.rtPriority < 100
      omega
  rt hk := by
    have hlo := h.prio
    have hhi := h.rt hk
    show f.prio.toNat < 100
    simp only [maxRtPrio] at hhi
    omega

structure Inv (cfg : Config) (s : System) : Prop where
  rep : Rep s (s.slots cfg)
  task : ∀ p, (s.task p).alive = true → TaskOk (s.task p)
  dead : ∀ p, (s.task p).alive = false → (s.task p).onRq = false
  idle : ∀ c p, (s.rq c).idle = p ↔
    (s.task p).alive = true ∧ (s.task p).schedClass = .idle ∧ (s.task p).cpu = c
  idleOff : ∀ p, (s.task p).schedClass = .idle → (s.task p).onRq = false
  stop : ∀ c p, (s.rq c).stop = some p ↔
    (s.task p).alive = true ∧ (s.task p).schedClass = .stop ∧ (s.task p).cpu = c

/-- A live task that is neither an idle nor a stop task. -/
def System.Ordinary (s : System) (p : Pid) : Prop :=
  (s.task p).alive = true ∧ ∀ c, (s.rq c).idle ≠ p ∧ (s.rq c).stop ≠ some p

/-- A queued task has the slot its fields name. -/
theorem System.slots_of_onRq (h : (s.task p).onRq = true) :
    s.slots cfg p = some (slotOf cfg (s.task p)) := if_pos h

/-- A task that is not queued has no slot. -/
theorem System.slots_of_not_onRq (h : (s.task p).onRq = false) : s.slots cfg p = none := by
  rw [System.slots, h]
  rfl

/-- Changing one task changes the slot map at that task. -/
theorem System.slots_update {f : Task} (h : t.task = Function.update s.task p f) :
    t.slots cfg = Function.update (s.slots cfg) p
      (if f.onRq then some (slotOf cfg f) else none) := by
  funext q
  by_cases hq : q = p
  · subst hq
    rw [Function.update_self, System.slots, h, Function.update_self]
  · rw [Function.update_of_ne hq, System.slots, System.slots, h, Function.update_of_ne hq]

/-- The slots depend on the tasks only. -/
theorem System.slots_congr (h : t.task = s.task) : t.slots cfg = s.slots cfg := by
  funext q
  rw [System.slots, System.slots, h]

namespace Inv

theorem alive_of_onRq (h : Inv cfg s) (hon : (s.task p).onRq = true) :
    (s.task p).alive = true := by
  by_contra hdead
  have := h.dead p (Bool.eq_false_iff.mpr hdead)
  rw [hon] at this
  cases this

theorem ordinary_iff (h : Inv cfg s) : s.Ordinary p ↔ (s.task p).alive = true ∧
    (s.task p).schedClass ≠ .idle ∧ (s.task p).schedClass ≠ .stop := by
  constructor
  · rintro ⟨halive, hno⟩
    refine ⟨halive, ?_, ?_⟩
    · intro hk
      exact (hno (s.task p).cpu).1 ((h.idle _ p).mpr ⟨halive, hk, rfl⟩)
    · intro hk
      exact (hno (s.task p).cpu).2 ((h.stop _ p).mpr ⟨halive, hk, rfl⟩)
  · rintro ⟨halive, hidle, hstop⟩
    refine ⟨halive, fun c => ⟨?_, ?_⟩⟩
    · intro hc
      exact hidle ((h.idle c p).mp hc).2.1
    · intro hc
      exact hstop ((h.stop c p).mp hc).2.1

/-- One task changes, and not in what makes it an idle or a stop task of some cpu. -/
theorem of_task (h : Inv cfg s) {f : Task} (htask : t.task = Function.update s.task p f)
    (hframe : Frame s t)
    (hrep : Rep t (Function.update (s.slots cfg) p
      (if f.onRq then some (slotOf cfg f) else none)))
    (hok : TaskOk f) (halive : f.alive = true) (hoff : f.schedClass = .idle → f.onRq = false)
    (hsys : ∀ k c, k = .idle ∨ k = .stop →
      (f.alive = true ∧ f.schedClass = k ∧ f.cpu = c ↔
        (s.task p).alive = true ∧ (s.task p).schedClass = k ∧ (s.task p).cpu = c)) :
    Inv cfg t where
  rep := by
    rw [System.slots_update htask]
    exact hrep
  task := by
    rw [htask]
    exact (Function.forall_update_iff s.task fun _ f => f.alive = true → TaskOk f).mpr
      ⟨fun _ => hok, fun q _ => h.task q⟩
  dead := by
    rw [htask]
    refine (Function.forall_update_iff s.task fun _ f => f.alive = false → f.onRq = false).mpr
      ⟨fun hdead => ?_, fun q _ => h.dead q⟩
    rw [halive] at hdead
    cases hdead
  idle c q := by
    rw [hframe.idle, h.idle, htask]
    by_cases hqp : q = p
    · subst hqp
      rw [Function.update_self]
      exact (hsys .idle c (.inl rfl)).symm
    · rw [Function.update_of_ne hqp]
  idleOff := by
    rw [htask]
    exact (Function.forall_update_iff s.task fun _ f => f.schedClass = .idle → f.onRq = false).mpr
      ⟨hoff, fun q _ => h.idleOff q⟩
  stop c q := by
    rw [hframe.stop, h.stop, htask]
    by_cases hqp : q = p
    · subst hqp
      rw [Function.update_self]
      exact (hsys .stop c (.inr rfl)).symm
    · rw [Function.update_of_ne hqp]

/-- A step that writes no task keeps the invariant if it keeps the books of the queues. -/
theorem of_sameTask (h : Inv cfg s) (htask : t.task = s.task)
    (hidle : ∀ c, (t.rq c).idle = (s.rq c).idle) (hstop : ∀ c, (t.rq c).stop = (s.rq c).stop)
    (hrep : Rep t (s.slots cfg)) : Inv cfg t where
  rep := by
    rw [System.slots_congr htask]
    exact hrep
  task := by rw [htask]; exact h.task
  dead := by rw [htask]; exact h.dead
  idle c p := by rw [hidle, htask]; exact h.idle c p
  idleOff := by rw [htask]; exact h.idleOff
  stop c p := by rw [hstop, htask]; exact h.stop c p

/-- Nothing but accounting, flags and the path buffer changes. -/
theorem of_rq (h : Inv cfg s) (htask : t.task = s.task) (hrq : t.rq = s.rq) : Inv cfg t :=
  h.of_sameTask htask (Frame.of_rq hrq).idle (Frame.of_rq hrq).stop (h.rep.of_rq hrq)

/-- A step about an ordinary task that stays ordinary keeps the invariant if its new fields are
well formed. -/
theorem of_ordinary (h : Inv cfg s) (hp : s.Ordinary p) {f : Task}
    (htask : t.task = Function.update s.task p f) (hframe : Frame s t)
    (hrep : Rep t (Function.update (s.slots cfg) p
      (if f.onRq then some (slotOf cfg f) else none)))
    (hok : TaskOk f) (halive : f.alive = true) (hidle : f.schedClass ≠ .idle)
    (hstop : f.schedClass ≠ .stop) : Inv cfg t := by
  obtain ⟨-, hidle', hstop'⟩ := h.ordinary_iff.mp hp
  refine h.of_task htask hframe hrep hok halive (fun hk => absurd hk hidle) ?_
  rintro k c (rfl | rfl)
  · simp [hidle, hidle']
  · simp [hstop, hstop']

/-- The slot map after `dequeue_task` of a queued task, and without it otherwise. -/
theorem rep_dequeue (h : Inv cfg s) (hidle : (s.task p).schedClass ≠ .idle) :
    Rep (detach cfg s p) (Function.update (s.slots cfg) p none) := by
  unfold detach
  split
  next hon => exact h.rep.dequeueTask (System.slots_of_onRq hon) rfl hidle
  next hon =>
    rw [← @System.slots_of_not_onRq cfg _ _ (Bool.eq_false_iff.mpr hon),
      Function.update_eq_self]
    exact h.rep

end Inv

/-- `enqueue_task` of a task that was on a run queue before it was changed. -/
theorem rep_reenqueue {m : Pid → Option Slot} (onRq : Bool)
    (h : Rep s (Function.update m p none)) (hc : (s.task p).cpu = c) (hq : Queueable cfg (s.task p))
    (hstop : (s.task p).schedClass ≠ .stop) (flags : Nat) :
    Rep (if onRq then enqueueTask cfg s c p flags else s)
      (Function.update m p (if onRq then some (slotOf cfg (s.task p)) else none)) := by
  cases onRq with
  | true =>
    have := h.enqueueTask (Function.update_self p none m) hc hq (fun hk => absurd hk hstop) flags
    rwa [Function.update_idem] at this
  | false => exact h

theorem detach_frame (cfg : Config) (s : System) (p : Pid) :
    Frame s (detach cfg s p) := by
  unfold detach
  split
  · exact dequeueTask_frame cfg s _ p
  · exact Frame.refl s

@[simp] theorem detach_task (cfg : Config) (s : System) (p : Pid) :
    (detach cfg s p).task = s.task := by
  unfold detach
  split
  · exact dequeueTask_task cfg s _ p
  · rfl

@[simp] theorem detach_needResched (cfg : Config) (s : System) (p : Pid) :
    (detach cfg s p).needResched = s.needResched := by
  unfold detach
  split
  · exact dequeueTask_needResched cfg s _ p
  · rfl

/-- **Dequeue, change, enqueue again**: `a` is the state in which the dequeued task has
been changed to `f`. -/
theorem Inv.reattach (h : Inv cfg s) (hp : s.Ordinary p) {a : System} {f : Task}
    (hrq : a.rq = (detach cfg s p).rq) (htask : a.task = Function.update s.task p f)
    (hon : f.onRq = (s.task p).onRq) (hok : TaskOk f) (halive : f.alive = true)
    (hidle : f.schedClass ≠ .idle) (hstop : f.schedClass ≠ .stop) (flags : Nat) :
    Inv cfg (if (s.task p).onRq then enqueueTask cfg a f.cpu p flags else a) := by
  obtain ⟨-, hidle', -⟩ := h.ordinary_iff.mp hp
  -- the task is off every queue in `a`, so it can be queued as `f`
  have hself : a.task p = f := by rw [htask, Function.update_self]
  have hdet : Rep a (Function.update (s.slots cfg) p none) :=
    (h.rep_dequeue hidle').of_rq hrq
  have hframe : Frame s a := (detach_frame cfg s p).trans (Frame.of_rq hrq)
  refine h.of_ordinary (f := f) hp ?_ ?_ ?_ hok halive hidle hstop
  · rw [← htask]
    split
    · exact enqueueTask_task cfg a _ p flags
    · rfl
  · split
    · exact hframe.trans (enqueueTask_frame cfg a _ p flags)
    · exact hframe
  · have hq : Queueable cfg (a.task p) := by
      rw [hself]
      exact hok.queueable hidle
    have hback := rep_reenqueue f.onRq hdet rfl hq (by rw [hself]; exact hstop) flags
    rw [hself] at hback
    rwa [← hon]

/-! ## Moves, flags and balancing -/

/-- New slices and, for a WRR task, a new level keep a task well formed. -/
theorem TaskOk.retune {f : Task} (h : TaskOk f) {rtPriority timeSlice times rtTimeSlice : Nat}
    (hrtp : rtPriority = f.rtPriority ∨ f.schedClass = .wrr ∧ rtPriority ≤ 99) :
    TaskOk (f.retune rtPriority timeSlice times rtTimeSlice) where
  rtPriority := by
    rcases hrtp with hrtp | hrtp
    · rw [hrtp]
      exact h.rtPriority
    · exact hrtp.2
  userPriority hrt hwrr := by
    rcases hrtp with hrtp | hrtp
    · rw [hrtp]
      exact h.userPriority hrt hwrr
    · have hpolicy := h.wrr hrtp.1
      rw [show (f.retune rtPriority timeSlice times rtTimeSlice).policy = f.policy from rfl,
        hpolicy] at hwrr
      cases hwrr
  staticPrio := h.staticPrio
  normalPrio := by
    rcases hrtp with hrtp | hrtp
    · rw [hrtp]
      exact h.normalPrio
    · have hpolicy := h.wrr hrtp.1
      have hold := h.normalPrio
      -- the normal priority of a WRR task does not depend on its `rt_priority`
      simp only [LinuxWrr.normalPrio, hpolicy, rtPolicy] at hold
      simp only [Task.retune, LinuxWrr.normalPrio, hpolicy, rtPolicy]
      exact hold
  prio := h.prio
  waiter := h.waiter
  rt := h.rt
  wrr := h.wrr

/-- A move of a queued task keeps the invariant. -/
theorem Move.inv (hmove : Move cfg s t p) (h : Inv cfg s) (hon : (s.task p).onRq = true) :
    Inv cfg t := by
  obtain ⟨rtp, ts, times, rts, hok, htask⟩ := hmove.task
  have hself : t.task p = (s.task p).retune rtp ts times rts := by
    rw [htask, Function.update_self]
  have halive := h.alive_of_onRq hon
  have hrep := hmove.rep _ h.rep (System.slots_of_onRq hon)
  refine h.of_task htask hmove.frame ?_ ((h.task p halive).retune hok) halive ?_ ?_
  · have hon' : ((s.task p).retune rtp ts times rts).onRq = true := hon
    rw [if_pos hon', ← hself]
    exact hrep
  · intro hk
    exact h.idleOff p hk
  · intro k c _
    rfl

theorem Flagged.inv (hflag : Flagged s t) (h : Inv cfg s) : Inv cfg t :=
  h.of_rq hflag.task hflag.rq

/-- Moving a queued RT task to another cpu. -/
theorem moveRtTask_inv (h : Inv cfg s) (q : Pid) (dest : Cpu) :
    Inv cfg (Rt.moveRtTask s q dest) := by
  unfold Rt.moveRtTask
  dsimp only
  split
  next hq =>
    obtain ⟨hk, hon, -⟩ := hq
    have halive := h.alive_of_onRq hon
    have hidle : (s.task q).schedClass ≠ .idle := by rw [hk]; decide
    have hstop : (s.task q).schedClass ≠ .stop := by rw [hk]; decide
    have hok := h.task q halive
    have hdet : detach cfg s q = Rt.dequeueTaskRt s (s.task q).cpu q := by
      rw [detach, if_pos hon, dequeueTask, hk]
      rfl
    -- a move is a dequeue, a new cpu and an enqueue
    have hmoved := h.reattach (a := (detach cfg s q).updTask q fun t => { t with cpu := dest })
      (f := { s.task q with cpu := dest }) (h.ordinary_iff.mpr ⟨halive, hidle, hstop⟩) rfl
      (by simp) rfl (hok.relocate _ dest) halive hidle hstop 0
    rw [if_pos hon, enqueueTask, hdet] at hmoved
    have hclass : (((Rt.dequeueTaskRt s (s.task q).cpu q).updTask q fun t =>
        { t with cpu := dest }).task q).schedClass = .rt := by
      rw [← hdet]
      simpa using hk
    rw [hclass] at hmoved
    exact hmoved
  next => exact h

theorem Balance.inv (hbal : Balance s t) (h : Inv cfg s) : Inv cfg t := by
  induction hbal with
  | refl => exact h
  | flag _ hf ih => exact hf.inv ih
  | move _ q dest ih => exact moveRtTask_inv ih q dest

/-! ## What `__setscheduler` writes -/

/-- The task `__setscheduler` leaves, up to the slice and the stay counter. -/
def Task.withPolicy (f : Task) (policy : Policy) (prio timeSlice times : Nat) : Task :=
  { f.setPolicy policy prio with
    schedClass := if policy = .wrr then .wrr
      else if rtPrio (f.setPolicy policy prio).prio then .rt else .fair
    timeSlice := timeSlice
    times := times }

/-- Asking for the interval writes the path buffer only. -/
theorem getRrIntervalWrr_effect (cfg : Config) (s : System) (p : Pid) :
    (getRrIntervalWrr cfg s (some p)).2.task = s.task ∧
      (getRrIntervalWrr cfg s (some p)).2.rq = s.rq ∧
      (getRrIntervalWrr cfg s (some p)).2.needResched = s.needResched := by
  unfold getRrIntervalWrr
  cases cfg.wrr <;>
    exact ⟨taskGroupPath_task cfg s _, taskGroupPath_rq cfg s _, taskGroupPath_needResched cfg s _⟩

/-- Entering the WRR class writes the class and hands out a slice. -/
theorem enterWrr_effect (cfg : Config) (s : System) (p : Pid) :
    (∃ slice, (enterWrr cfg s p).task = Function.update s.task p
        { s.task p with schedClass := .wrr, timeSlice := slice, times := 1 }) ∧
      (enterWrr cfg s p).rq = s.rq ∧ (enterWrr cfg s p).needResched = s.needResched := by
  obtain ⟨htask, hrq, hresched⟩ := getRrIntervalWrr_effect cfg
    (s.updTask p fun t => { t with schedClass := .wrr }) p
  unfold enterWrr
  dsimp only
  generalize getRrIntervalWrr cfg (s.updTask p fun t => { t with schedClass := .wrr }) (some p) = r
    at htask hrq hresched
  refine ⟨⟨r.1, ?_⟩, hrq, hresched⟩
  rw [System.updTask_task, htask]
  simp

/-- `__setscheduler` writes one task. -/
theorem setscheduler_effect (cfg : Config) (s : System) (p : Pid) (policy : Policy) (prio : Nat) :
    (∃ slice times, (setscheduler cfg s p policy prio).task =
        Function.update s.task p ((s.task p).withPolicy policy prio slice times)) ∧
      (setscheduler cfg s p policy prio).rq = s.rq ∧
      (setscheduler cfg s p policy prio).needResched = s.needResched := by
  unfold setscheduler
  dsimp only
  split
  next hpolicy =>
    -- `SCHED_WRR` also sets the slice and the counter
    obtain ⟨⟨slice, htask⟩, hrq, hresched⟩ := enterWrr_effect cfg
      (s.updTask p fun t => t.setPolicy policy prio) p
    refine ⟨⟨slice, 1, ?_⟩, hrq, hresched⟩
    rw [htask]
    simp [Task.withPolicy, hpolicy]
  next hpolicy =>
    have hprio : ((s.updTask p fun t => t.setPolicy policy prio).task p).prio
        = ((s.task p).setPolicy policy prio).prio := by simp
    rw [hprio]
    split
    next hrt =>
      refine ⟨⟨(s.task p).timeSlice, (s.task p).times, ?_⟩, rfl, rfl⟩
      simp [Task.withPolicy, hpolicy, hrt]
      rfl
    next hrt =>
      refine ⟨⟨(s.task p).timeSlice, (s.task p).times, ?_⟩, rfl, rfl⟩
      simp [Task.withPolicy, hpolicy, hrt]
      rfl

/-- The normal priority of a well-formed task is not negative. -/
theorem normalPrio_nonneg {f : Task} (hrtp : f.rtPriority ≤ 99)
    (hstatic : 100 ≤ f.staticPrio) : 0 ≤ normalPrio f := by
  unfold normalPrio
  split
  · simp only [maxRtPrio]
    omega
  · omega

/-- The inherited priority is not negative if no waiter's is. -/
theorem rtMutexGetprio_nonneg {f : Task} (hnormal : 0 ≤ f.normalPrio)
    (hwaiter : ∀ w, f.piTopWaiter = some w → 0 ≤ w) : 0 ≤ rtMutexGetprio f := by
  unfold rtMutexGetprio
  split
  · exact hnormal
  next w hw => exact le_min hnormal (hwaiter w hw)

/-- The priorities `__sched_setscheduler` lets through for a policy. -/
def PrioFor (policy : Policy) (prio : Nat) : Prop :=
  prio ≤ 99 ∧ (rtPolicy policy = false → wrrPolicy policy = false → prio = 0)

/-- A policy with a priority that fits it keeps a task well formed. -/
theorem TaskOk.withPolicy {f : Task} (h : TaskOk f) {policy : Policy} {prio : Nat}
    (hprio : PrioFor policy prio) (timeSlice times : Nat) :
    TaskOk (f.withPolicy policy prio timeSlice times) where
  rtPriority := hprio.1
  userPriority := hprio.2
  staticPrio := h.staticPrio
  normalPrio := rfl
  prio := by
    have hnormal : 0 ≤ LinuxWrr.normalPrio { f with policy := policy, rtPriority := prio } :=
      normalPrio_nonneg hprio.1 h.staticPrio.1
    exact rtMutexGetprio_nonneg hnormal h.waiter
  waiter := h.waiter
  rt hk := by
    -- `__setscheduler` chooses the class by the policy, then by the effective priority
    have hk' : (if policy = .wrr then ClassId.wrr
        else if rtPrio (f.setPolicy policy prio).prio then .rt else .fair) = .rt := hk
    split at hk'
    · cases hk'
    · split at hk'
      next hrt => exact of_decide_eq_true hrt
      next => cases hk'
  wrr hk := by
    have hk' : (if policy = .wrr then ClassId.wrr
        else if rtPrio (f.setPolicy policy prio).prio then .rt else .fair) = .wrr := hk
    split at hk'
    next hpolicy => exact hpolicy
    next =>
      split at hk' <;> cases hk'

/-- No policy puts a task into the idle or the stop class. -/
theorem withPolicy_class (f : Task) (policy : Policy) (prio timeSlice times : Nat) :
    (f.withPolicy policy prio timeSlice times).schedClass ≠ .idle ∧
      (f.withPolicy policy prio timeSlice times).schedClass ≠ .stop := by
  show (if policy = .wrr then ClassId.wrr
      else if rtPrio (f.setPolicy policy prio).prio then .rt else .fair) ≠ .idle ∧
    (if policy = .wrr then ClassId.wrr
      else if rtPrio (f.setPolicy policy prio).prio then .rt else .fair) ≠ .stop
  split
  · decide
  · split <;> decide

/-! ## The core functions -/

theorem takeOff_rq (cfg : Config) (s : System) (p : Pid) :
    (takeOff cfg s p).rq = (detach cfg s p).rq := by
  show (if _ then putPrevTask cfg (detach cfg s p) _ p else detach cfg s p).rq = _
  split
  · exact putPrevTask_rq cfg _ _ p
  · rfl

@[simp] theorem takeOff_task (cfg : Config) (s : System) (p : Pid) :
    (takeOff cfg s p).task = s.task := by
  show (if _ then putPrevTask cfg (detach cfg s p) _ p else detach cfg s p).task = _
  split
  · rw [putPrevTask_task, detach_task]
  · exact detach_task cfg s p

@[simp] theorem takeOff_needResched (cfg : Config) (s : System) (p : Pid) :
    (takeOff cfg s p).needResched = s.needResched := by
  show (if _ then putPrevTask cfg (detach cfg s p) _ p else detach cfg s p).needResched = _
  split
  · rw [putPrevTask_needResched, detach_needResched]
  · exact detach_needResched cfg s p

/-- The second half of `putBack` changes neither queues nor tasks. -/
theorem setCurrIf_effect (cfg : Config) (s : System) (c : Cpu) (p : Pid) (running : Bool) :
    (if running then setCurrTask cfg s c p else s).rq = s.rq ∧
      (if running then setCurrTask cfg s c p else s).task = s.task ∧
      (if running then setCurrTask cfg s c p else s).needResched = s.needResched := by
  cases running with
  | true => exact ⟨setCurrTask_rq cfg s c p, setCurrTask_task cfg s c p,
      setCurrTask_needResched cfg s c p⟩
  | false => exact ⟨rfl, rfl, rfl⟩

@[simp] theorem putBack_task (cfg : Config) (s : System) (c : Cpu) (p : Pid)
    (onRq running : Bool) (flags : Nat) :
    (putBack cfg s c p onRq running flags).task = s.task := by
  obtain ⟨-, htask, -⟩ := setCurrIf_effect cfg s c p running
  unfold putBack
  dsimp only
  split
  · rw [enqueueTask_task, htask]
  · exact htask

@[simp] theorem putBack_needResched (cfg : Config) (s : System) (c : Cpu) (p : Pid)
    (onRq running : Bool) (flags : Nat) :
    (putBack cfg s c p onRq running flags).needResched = s.needResched := by
  obtain ⟨-, -, hresched⟩ := setCurrIf_effect cfg s c p running
  unfold putBack
  dsimp only
  split
  · rw [enqueueTask_needResched, hresched]
  · exact hresched

theorem putBack_frame (cfg : Config) (s : System) (c : Cpu) (p : Pid) (onRq running : Bool)
    (flags : Nat) : Frame s (putBack cfg s c p onRq running flags) := by
  obtain ⟨hrq, -, -⟩ := setCurrIf_effect cfg s c p running
  have hframe := Frame.of_rq hrq
  unfold putBack
  dsimp only
  split
  · exact hframe.trans (enqueueTask_frame cfg _ c p flags)
  · exact hframe

/-- **Taking a task off, changing it and putting it back** keeps the invariant. -/
theorem putBack_inv (h : Inv cfg s) (hp : s.Ordinary p) {a : System} {f : Task}
    (hrq : a.rq = (takeOff cfg s p).rq) (htask : a.task = Function.update s.task p f)
    (hon : f.onRq = (s.task p).onRq) (hcpu : f.cpu = (s.task p).cpu) (hok : TaskOk f)
    (halive : f.alive = true) (hidle : f.schedClass ≠ .idle) (hstop : f.schedClass ≠ .stop)
    (running : Bool) (flags : Nat) :
    Inv cfg (putBack cfg a (s.task p).cpu p (s.task p).onRq running flags) := by
  obtain ⟨hrq', htask', -⟩ := setCurrIf_effect cfg a (s.task p).cpu p running
  rw [← hcpu]
  rw [← hcpu] at hrq' htask'
  refine h.reattach hp ?_ (htask'.trans htask) hon hok halive hidle hstop flags
  rw [hrq', hrq, takeOff_rq]

/-- The state of `__sched_setscheduler` before `check_class_changed`. -/
def withScheduler (cfg : Config) (s : System) (p : Pid) (policy : Policy) (reset : Bool)
    (prio : Nat) : System :=
  putBack cfg
    (setscheduler cfg ((takeOff cfg s p).updTask p fun t => { t with schedResetOnFork := reset })
      p policy prio)
    (s.task p).cpu p (s.task p).onRq (decide ((s.rq (s.task p).cpu).curr = p)) 0

/-- A change of policy is writing it with the task off its queue, and then the hooks. -/
theorem changeScheduler_eq (cfg : Config) (s : System) (p : Pid) (policy : Policy) (reset : Bool)
    (prio : Nat) (o : Outside) :
    changeScheduler cfg s p policy reset prio o =
      checkClassChanged cfg (withScheduler cfg s p policy reset prio) (s.task p).cpu p
        (s.task p).schedClass (s.task p).prio o := rfl

theorem withScheduler_inv (h : Inv cfg s) (hp : s.Ordinary p) {policy : Policy} {prio : Nat}
    (hprio : PrioFor policy prio) (reset : Bool) :
    Inv cfg (withScheduler cfg s p policy reset prio) := by
  have halive := hp.1
  obtain ⟨⟨slice, times, htask⟩, hrq, -⟩ := setscheduler_effect cfg
    ((takeOff cfg s p).updTask p fun t => { t with schedResetOnFork := reset }) p policy prio
  have hself : ((takeOff cfg s p).updTask p fun t => { t with schedResetOnFork := reset }).task p
      = { s.task p with schedResetOnFork := reset } := by simp
  rw [hself, System.updTask_task, Function.update_idem, takeOff_task] at htask
  obtain ⟨hidle, hstop⟩ := withPolicy_class { s.task p with schedResetOnFork := reset } policy
    prio slice times
  have hok := h.task p halive
  refine putBack_inv h hp hrq htask rfl rfl (TaskOk.withPolicy ?_ hprio slice times) halive hidle
    hstop _ 0
  exact ⟨hok.rtPriority, hok.userPriority, hok.staticPrio, hok.normalPrio, hok.prio, hok.waiter,
    hok.rt, hok.wrr⟩

/-- `__sched_setscheduler` under the lock: detach, change, attach, and only then the
class-change hooks. -/
theorem changeScheduler_inv (h : Inv cfg s) (hp : s.Ordinary p) {policy : Policy} {prio : Nat}
    (hprio : PrioFor policy prio) (reset : Bool) (o : Outside) :
    Inv cfg (changeScheduler cfg s p policy reset prio o) :=
  (checkClassChanged_balance cfg _ _ p _ _ o).inv (withScheduler_inv h hp hprio reset)

theorem rtMutexSetprio_inv (h : Inv cfg s) (hp : s.Ordinary p) {prio : Int} (hprio : 0 ≤ prio)
    (o : Outside) : Inv cfg (rtMutexSetprio cfg s p prio o) := by
  have hok := h.task p hp.1
  show Inv cfg (if p = _ then s else _)
  split
  · exact h
  · refine (checkClassChanged_balance cfg _ _ p _ _ o).inv ?_
    refine putBack_inv h hp (f := (s.task p).setPrio prio) ?_ ?_ rfl rfl ?_ hp.1 ?_ ?_ _ _
    · rfl
    · rw [System.updTask_task, takeOff_task]
    · refine ⟨hok.rtPriority, hok.userPriority, hok.staticPrio, hok.normalPrio, hprio, hok.waiter,
        ?_, ?_⟩
      · intro hk
        have hk' : (if rtPrio prio then ClassId.rt else .fair) = .rt := hk
        split at hk'
        next hrt => exact of_decide_eq_true hrt
        next => cases hk'
      · intro hk
        have hk' : (if rtPrio prio then ClassId.rt else .fair) = .wrr := hk
        split at hk' <;> cases hk'
    · show (if rtPrio prio then ClassId.rt else .fair) ≠ .idle
      split <;> decide
    · show (if rtPrio prio then ClassId.rt else .fair) ≠ .stop
      split <;> decide

theorem schedMoveTask_inv (h : Inv cfg s) (hp : s.Ordinary p) (tg : Nat) :
    Inv cfg (schedMoveTask cfg s p tg) := by
  have hok := h.task p hp.1
  obtain ⟨-, hidle, hstop⟩ := h.ordinary_iff.mp hp
  refine putBack_inv h hp (f := { s.task p with schedTaskGroup := tg }) ?_ ?_ rfl rfl
    ⟨hok.rtPriority, hok.userPriority, hok.staticPrio, hok.normalPrio, hok.prio, hok.waiter,
      hok.rt, hok.wrr⟩ hp.1 hidle hstop _ _
  · rfl
  · rw [System.updTask_task, takeOff_task]

/-- A change of the task that no queue depends on. -/
theorem Inv.of_sameSlot (h : Inv cfg s) (hp : s.Ordinary p) {f : Task}
    (htask : t.task = Function.update s.task p f) (hrq : t.rq = s.rq)
    (hon : f.onRq = (s.task p).onRq) (hslot : slotOf cfg f = slotOf cfg (s.task p))
    (hok : TaskOk f) (halive : f.alive = true) (hclass : f.schedClass = (s.task p).schedClass) :
    Inv cfg t := by
  obtain ⟨-, hidle, hstop⟩ := h.ordinary_iff.mp hp
  refine h.of_ordinary hp htask (Frame.of_rq hrq) ?_ hok halive (by rwa [hclass])
    (by rwa [hclass])
  rw [hon, hslot]
  have : Function.update (s.slots cfg) p
      (if (s.task p).onRq then some (slotOf cfg (s.task p)) else none) = s.slots cfg :=
    Function.update_eq_self p _
  rw [this]
  exact h.rep.of_rq hrq

theorem normalPrio_of_rt {f : Task} (hrt : rtPolicy f.policy = true) :
    normalPrio f = maxRtPrio - 1 - f.rtPriority := if_pos hrt

theorem normalPrio_of_not_rt {f : Task} (hrt : ¬rtPolicy f.policy = true) :
    normalPrio f = f.staticPrio := if_neg hrt

/-- A new nice level keeps a task well formed. -/
theorem setNice_ok {f : Task} (h : TaskOk f) {nice : Int} (hrt : ¬rtPolicy f.policy = true)
    (hstatic : 100 ≤ niceToPrio nice ∧ niceToPrio nice ≤ 139) : TaskOk (f.setNice nice) where
  rtPriority := h.rtPriority
  userPriority := h.userPriority
  staticPrio := hstatic
  normalPrio := rfl
  prio := by
    show 0 ≤ if rtPrio f.prio then f.prio else normalPrio { f with staticPrio := niceToPrio nice }
    split
    · exact h.prio
    · have : normalPrio { f with staticPrio := niceToPrio nice } = niceToPrio nice :=
        normalPrio_of_not_rt hrt
      omega
  waiter := h.waiter
  rt hk := by
    have hprio := h.rt hk
    show (if rtPrio f.prio then f.prio else normalPrio _) < maxRtPrio
    have hboosted : rtPrio f.prio = true := decide_eq_true hprio
    rwa [if_pos hboosted]
  wrr := h.wrr

theorem setUserNice_inv (h : Inv cfg s) (hp : s.Ordinary p) (nice : Int) :
    Inv cfg (setUserNice cfg s p nice) := by
  have hok := h.task p hp.1
  obtain ⟨-, hidle, hstop⟩ := h.ordinary_iff.mp hp
  unfold setUserNice
  split
  · exact h
  next hnice =>
    have hstatic : 100 ≤ niceToPrio nice ∧ niceToPrio nice ≤ 139 := by
      simp only [niceToPrio, maxRtPrio]
      omega
    split
    next hrt =>
      -- under an RT policy `normal_prio` does not depend on the nice value
      have hnormal : normalPrio { s.task p with staticPrio := niceToPrio nice }
          = normalPrio (s.task p) := by
        rw [normalPrio_of_rt hrt]
        exact normalPrio_of_rt hrt
      refine h.of_sameSlot hp (f := { s.task p with staticPrio := niceToPrio nice }) rfl rfl rfl
        (slotOf_congr cfg rfl rfl rfl rfl) ?_ hp.1 rfl
      exact ⟨hok.rtPriority, hok.userPriority, hstatic, hok.normalPrio.trans hnormal.symm,
        hok.prio, hok.waiter, hok.rt, hok.wrr⟩
    next hrt =>
      have hback := h.reattach (a := (detach cfg s p).updTask p fun t => t.setNice nice)
        (f := (s.task p).setNice nice) hp rfl (by simp) rfl (setNice_ok hok hrt hstatic) hp.1 hidle
        hstop 0
      extract_lets
      split
      next hon =>
        rw [if_pos hon] at hback
        exact Flagged.inv (Flagged.ite (Flagged.reschedCurr _ _) (Flagged.refl _)) hback
      next hon =>
        rw [if_neg hon] at hback
        exact hback

theorem normalizeTask_inv (h : Inv cfg s) (hp : s.Ordinary p) (o : Outside) :
    Inv cfg (normalizeTask cfg s p o) := by
  obtain ⟨⟨slice, times, htask⟩, hrq, -⟩ := setscheduler_effect cfg (detach cfg s p) p .normal 0
  rw [detach_task] at htask
  obtain ⟨hidle, hstop⟩ := withPolicy_class (s.task p) .normal 0 slice times
  have hok : TaskOk ((s.task p).withPolicy .normal 0 slice times) :=
    (h.task p hp.1).withPolicy ⟨by omega, fun _ _ => rfl⟩ slice times
  have hback := h.reattach hp hrq htask rfl hok hp.1 hidle hstop 0
  refine (checkClassChanged_balance cfg _ _ p _ _ o).inv ?_
  extract_lets
  split
  next hon =>
    rw [if_pos hon] at hback
    exact (Flagged.reschedCurr _ _).inv hback
  next hon =>
    rw [if_neg hon] at hback
    exact hback

/-! ## Wake-ups, migrations, forks and switches -/

/-- `p` is off the run queues and may be put on that of `c`: it is no idle task, and a
stop task wakes on its own cpu. -/
structure System.Wakeable (s : System) (p : Pid) (c : Cpu) : Prop where
  alive : (s.task p).alive = true
  off : (s.task p).onRq = false
  idle : ∀ c', (s.rq c').idle ≠ p
  stop : ∀ c', (s.rq c').stop = some p → c' = c

theorem activateTask_task (cfg : Config) (s : System) (p : Pid) (c : Cpu) (flags : Nat) :
    (activateTask cfg s p c flags).task =
      Function.update s.task p { s.task p with cpu := c, onRq := true } := by
  unfold activateTask
  simp

theorem activateTask_frame (cfg : Config) (s : System) (p : Pid) (c : Cpu) (flags : Nat) :
    Frame s (activateTask cfg s p c flags) := by
  have hset : Frame s (s.updTask p fun t => { t with cpu := c }) := Frame.of_rq rfl
  exact (hset.trans (enqueueTask_frame cfg _ c p flags)).trans (Frame.of_rq rfl)

theorem activateTask_inv (h : Inv cfg s) (hp : s.Wakeable p c) (flags : Nat) :
    Inv cfg (activateTask cfg s p c flags) := by
  have hok := h.task p hp.alive
  have hidle : (s.task p).schedClass ≠ .idle := fun hk =>
    hp.idle _ ((h.idle _ p).mpr ⟨hp.alive, hk, rfl⟩)
  have hcpu : (s.task p).schedClass = .stop → (s.task p).cpu = c := fun hk =>
    hp.stop _ ((h.stop _ p).mpr ⟨hp.alive, hk, rfl⟩)
  refine h.of_task (activateTask_task cfg s p c flags) (activateTask_frame cfg s p c flags) ?_
    (hok.relocate true c) hp.alive (fun hk => absurd hk hidle) ?_
  · -- the entity is linked on cpu `c` before `on_rq` is set
    have hrep₁ : Rep (s.updTask p fun t => { t with cpu := c }) (s.slots cfg) := h.rep.of_rq rfl
    have hself : (s.updTask p fun t => { t with cpu := c }).task p
        = { s.task p with cpu := c } := by simp
    have hq : Queueable cfg ({ s.task p with cpu := c } : Task) :=
      (hok.relocate (s.task p).onRq c).queueable hidle
    have hrep := hrep₁.enqueueTask (System.slots_of_not_onRq hp.off) (by rw [hself])
      (by rw [hself]; exact hq) ?_ flags
    · have hslot : slotOf cfg { s.task p with cpu := c, onRq := true }
          = slotOf cfg { s.task p with cpu := c } := slotOf_congr cfg rfl rfl rfl rfl
      rw [hself] at hrep
      show Rep _ (Function.update _ _ (some (slotOf cfg { s.task p with cpu := c, onRq := true })))
      rw [hslot]
      exact hrep.of_rq rfl
    · intro hk
      rw [hself] at hk
      exact (h.stop c p).mpr ⟨hp.alive, hk, hcpu hk⟩
  · rintro k c' (rfl | rfl)
    · simp [hidle]
    · constructor
      · rintro ⟨-, hk, rfl⟩
        exact ⟨hp.alive, hk, hcpu hk⟩
      · rintro ⟨-, hk, hc⟩
        exact ⟨hp.alive, hk, (hcpu hk).symm.trans hc⟩

theorem activateOn_inv (h : Inv cfg s) (hp : s.Wakeable p c) (flags : Nat) (o : Outside) :
    Inv cfg (activateOn cfg s p c flags o) := by
  refine (checkPreemptCurr_move cfg _ c p o).1.inv (activateTask_inv h hp flags) ?_
  rw [activateTask_task, Function.update_self]

theorem deactivateTask_task (cfg : Config) (s : System) (c : Cpu) (p : Pid) :
    (deactivateTask cfg s c p).task =
      Function.update s.task p { s.task p with onRq := false } := by
  unfold deactivateTask
  simp

theorem deactivateTask_inv (h : Inv cfg s) (hon : (s.task p).onRq = true)
    (hc : (s.task p).cpu = c) : Inv cfg (deactivateTask cfg s c p) := by
  have halive := h.alive_of_onRq hon
  have hok := h.task p halive
  have hidle : (s.task p).schedClass ≠ .idle := fun hk => by
    rw [h.idleOff p hk] at hon
    cases hon
  have hframe : Frame s (deactivateTask cfg s c p) :=
    (dequeueTask_frame cfg s c p).trans (Frame.of_rq rfl)
  refine h.of_task (deactivateTask_task cfg s c p) hframe ?_
    (hok.relocate false _) halive (fun _ => rfl) fun _ _ _ => Iff.rfl
  exact (h.rep.dequeueTask (System.slots_of_onRq hon) hc hidle).of_rq rfl

/-- `__migrate_task` keeps the invariant. -/
theorem migrateTask_inv (h : Inv cfg s) (hp : s.Ordinary p) (dest : Cpu) (o : Outside) :
    Inv cfg (migrateTask cfg s p dest o) := by
  have hok := h.task p hp.1
  obtain ⟨-, hidle, hstop⟩ := h.ordinary_iff.mp hp
  unfold migrateTask
  split
  next hon =>
    have hdet : dequeueTask cfg s (s.task p).cpu p = detach cfg s p := (if_pos hon).symm
    have hback := h.reattach (a := (detach cfg s p).updTask p fun t => { t with cpu := dest })
      (f := { s.task p with cpu := dest }) hp rfl (by simp) rfl (hok.relocate _ dest) hp.1 hidle
      hstop 0
    rw [if_pos hon] at hback
    refine (checkPreemptCurr_move cfg _ dest p o).1.inv ?_ ?_
    · rw [hdet]
      exact hback
    · simp [hon]
  next => exact h

/-- What the child satisfies before its class is chosen. -/
structure ForkOk (f : Task) : Prop where
  rtPriority : f.rtPriority ≤ 99
  userPriority : rtPolicy f.policy = false → wrrPolicy f.policy = false → f.rtPriority = 0
  staticPrio : 100 ≤ f.staticPrio ∧ f.staticPrio ≤ 139
  normalPrio : f.normalPrio = LinuxWrr.normalPrio f
  prio : f.prio = f.normalPrio
  waiter : f.piTopWaiter = none
  wrr : f.schedClass = .wrr → f.policy = .wrr

/-- The reset on fork keeps a child well formed. -/
theorem forkReset_ok {f : Task} (h : ForkOk f) : ForkOk (forkReset f) := by
  have hzero : 100 ≤ niceToPrio 0 ∧ niceToPrio 0 ≤ 139 := by decide
  unfold forkReset
  split
  · by_cases hrt : rtPolicy f.policy = true
    · -- an RT parent: back to `SCHED_NORMAL` and nice 0
      rw [if_pos hrt]
      refine ⟨Nat.zero_le _, fun _ _ => rfl, hzero, rfl, rfl, h.waiter, ?_⟩
      intro hk
      have hpolicy := h.wrr hk
      rw [hpolicy] at hrt
      cases hrt
    · rw [if_neg hrt]
      have hnormal : ∀ g : Task, g.policy = f.policy → g.normalPrio = g.staticPrio →
          g.normalPrio = LinuxWrr.normalPrio g :=
        fun g hg hs => hs.trans (normalPrio_of_not_rt (by rwa [hg])).symm
      split
      · exact ⟨h.rtPriority, h.userPriority, hzero, hnormal _ rfl rfl, rfl, h.waiter, h.wrr⟩
      · exact ⟨h.rtPriority, h.userPriority, h.staticPrio, hnormal _ rfl rfl, rfl, h.waiter, h.wrr⟩
  · exact h

/-- The reset on fork leaves the class to `sched_fork`. -/
theorem forkReset_class (f : Task) : (forkReset f).schedClass = f.schedClass ∧
    (forkReset f).alive = f.alive ∧ (forkReset f).onRq = f.onRq := by
  unfold forkReset
  split
  · dsimp only
    split
    · exact ⟨rfl, rfl, rfl⟩
    · split <;> exact ⟨rfl, rfl, rfl⟩
  · exact ⟨rfl, rfl, rfl⟩

theorem forkClass_eq (f : Task) : forkClass f = { f with
    schedClass := if f.policy = .wrr then .wrr else if rtPrio f.prio then f.schedClass else .fair } := by
  unfold forkClass
  dsimp only
  by_cases hrt : rtPrio f.prio = true
  · rw [if_pos hrt, if_pos hrt]
    split <;> rfl
  · rw [if_neg hrt, if_neg hrt]
    split <;> rfl

/-- The class `sched_fork` gives the child makes it a well-formed task. -/
theorem forkClass_ok {f : Task} (h : ForkOk f) : TaskOk (forkClass f) := by
  rw [forkClass_eq]
  refine ⟨h.rtPriority, h.userPriority, h.staticPrio, h.normalPrio, ?_, ?_, ?_, ?_⟩
  · have hnonneg := normalPrio_nonneg h.rtPriority h.staticPrio.1
    show 0 ≤ f.prio
    rw [h.prio, h.normalPrio]
    exact hnonneg
  · intro w hw
    rw [h.waiter] at hw
    cases hw
  · intro hk
    have hk' : (if f.policy = .wrr then ClassId.wrr
        else if rtPrio f.prio then f.schedClass else .fair) = .rt := hk
    split at hk'
    · cases hk'
    · split at hk'
      next hrt => exact of_decide_eq_true hrt
      next => cases hk'
  · intro hk
    have hk' : (if f.policy = .wrr then ClassId.wrr
        else if rtPrio f.prio then f.schedClass else .fair) = .wrr := hk
    split at hk'
    next hpolicy => exact hpolicy
    next =>
      split at hk'
      · exact h.wrr hk'
      · cases hk'

/-- A copied task is a child in the making. -/
theorem dupTask_ok {f : Task} (h : TaskOk f) : ForkOk (dupTask f) :=
  ⟨h.rtPriority, h.userPriority, h.staticPrio, h.normalPrio, rfl, rfl, h.wrr⟩

/-- The child of an ordinary task is well formed. -/
theorem forkTask_ok {f : Task} (h : TaskOk f) : TaskOk (forkTask f) :=
  forkClass_ok (forkReset_ok (dupTask_ok h))

theorem forkTask_class {f : Task} (hidle : f.schedClass ≠ .idle) (hstop : f.schedClass ≠ .stop) :
    (forkTask f).schedClass ≠ .idle ∧ (forkTask f).schedClass ≠ .stop ∧
      (forkTask f).alive = true ∧ (forkTask f).onRq = false := by
  unfold forkTask
  obtain ⟨hclass, halive, hon⟩ := forkReset_class (dupTask f)
  rw [forkClass_eq]
  refine ⟨?_, ?_, halive, hon⟩
  · dsimp only
    rw [hclass]
    split
    · decide
    · split
      · exact hidle
      · decide
  · dsimp only
    rw [hclass]
    split
    · decide
    · split
      · exact hstop
      · decide

/-- `sched_fork` of a fresh task keeps the invariant. -/
theorem schedFork_inv (h : Inv cfg s) {parent child : Pid} (hp : s.Ordinary parent)
    (hchild : (s.task child).alive = false) : Inv cfg (schedFork s parent child) := by
  obtain ⟨-, hidle, hstop⟩ := h.ordinary_iff.mp hp
  obtain ⟨hidle', hstop', halive, hoff⟩ := forkTask_class hidle hstop
  have hrq : (schedFork s parent child).rq = s.rq := rfl
  refine h.of_task (p := child) (f := forkTask (s.task parent)) rfl (Frame.of_rq hrq) ?_
    (forkTask_ok (h.task parent hp.1)) halive (fun hk => absurd hk hidle') ?_
  · rw [hoff, ← @System.slots_of_not_onRq cfg _ _ (h.dead child hchild)]
    show Rep _ (Function.update (s.slots cfg) child (s.slots cfg child))
    rw [Function.update_eq_self]
    exact h.rep.of_rq hrq
  · rintro k c (rfl | rfl)
    · simp [hidle', hchild]
    · simp [hstop', hchild]

/-- A change of one run queue outside what it represents. -/
theorem Inv.of_updRq (h : Inv cfg s) {r : Rq} (htask : t.task = s.task)
    (hrq : t.rq = Function.update s.rq c r) (hidle : r.idle = (s.rq c).idle)
    (hstop : r.stop = (s.rq c).stop) (hr : RqRep (s.slots cfg) c r) : Inv cfg t := by
  refine h.of_sameTask htask ?_ ?_ ?_
  · intro c'
    rw [hrq]
    by_cases hc : c' = c
    · rw [hc, Function.update_self, hidle]
    · rw [Function.update_of_ne hc]
  · intro c'
    rw [hrq]
    by_cases hc : c' = c
    · rw [hc, Function.update_self, hstop]
    · rw [Function.update_of_ne hc]
  · intro c'
    rw [hrq]
    by_cases hc : c' = c
    · rw [hc, Function.update_self]
      exact hr
    · rw [Function.update_of_ne hc]
      exact h.rep c'

/-- Picking changes nothing but `exec_start`. -/
structure PickOnly (s t : System) : Prop where
  task : t.task = s.task
  needResched : t.needResched = s.needResched
  rq : t.rq = s.rq

theorem PickOnly.refl (s : System) : PickOnly s s := ⟨rfl, rfl, rfl⟩

theorem PickOnly.trans (h : PickOnly s t) (h' : PickOnly t u) : PickOnly s u :=
  ⟨h'.task.trans h.task, h'.needResched.trans h.needResched, h'.rq.trans h.rq⟩

theorem pickNextTaskWrr_only (s : System) (c : Cpu) : PickOnly s (pickNextTaskWrr s c).2 := by
  unfold pickNextTaskWrr
  dsimp only
  split
  · exact PickOnly.refl s
  · split
    · exact PickOnly.refl s
    · exact ⟨rfl, rfl, rfl⟩

theorem pickNextTaskRt_only (s : System) (c : Cpu) : PickOnly s (Rt.pickNextTaskRt s c).2 := by
  unfold Rt.pickNextTaskRt
  dsimp only
  split
  · exact PickOnly.refl s
  · split
    · exact PickOnly.refl s
    · split
      · exact PickOnly.refl s
      · exact ⟨rfl, rfl, rfl⟩

theorem classPick_only (cfg : Config) (s : System) (c : Cpu) (o : Outside) (k : ClassId) :
    PickOnly s ((schedClassOf cfg k).pickNextTask s c o).2 := by
  cases k with
  | stop =>
    show PickOnly s (stopSchedClass.pickNextTask s c o).2
    unfold stopSchedClass
    dsimp only
    split
    · exact PickOnly.refl s
    · split <;> exact PickOnly.refl s
  | rt => exact pickNextTaskRt_only s c
  | wrr =>
    show PickOnly s ((wrrSchedClass cfg).pickNextTask s c o).2
    rw [wrrSchedClass_pick]
    exact pickNextTaskWrr_only s c
  | fair | idle => exact PickOnly.refl s

theorem pickFrom_only (cfg : Config) (c : Cpu) (o : Outside) (ks : List ClassId) (s : System) :
    PickOnly s (pickFrom cfg c o ks s).2 := by
  induction ks generalizing s with
  | nil => exact PickOnly.refl s
  | cons k ks ih =>
    have hpick := classPick_only cfg s c o k
    rw [pickFrom]
    split
    next hk =>
      rw [hk] at hpick
      exact hpick
    next hk =>
      rw [hk] at hpick
      exact hpick.trans (ih _)

theorem pickNextTask_only (cfg : Config) (s : System) (c : Cpu) (o : Outside) :
    PickOnly s (pickNextTask cfg s c o).2 := by
  unfold pickNextTask
  split
  · have hfair : fairSchedClass.pickNextTask s c o = (o.fairPick, s) := rfl
    rw [hfair]
    cases o.fairPick with
    | none => exact pickFrom_only cfg c o forEachClass s
    | some p => exact PickOnly.refl s
  · exact pickFrom_only cfg c o forEachClass s

theorem switchTo_inv (h : Inv cfg s) (c : Cpu) (prev : Pid) (o : Outside) :
    Inv cfg (switchTo cfg s c prev o) := by
  have hpick := pickNextTask_only cfg s c o
  unfold switchTo
  split
  next next s' hs =>
    rw [hs] at hpick
    refine h.of_updRq (c := c) (r := { s.rq c with curr := next }) hpick.task ?_ rfl rfl ?_
    · rw [System.updRq_rq, System.clearTskNeedResched_rq, hpick.rq]
    · exact (h.rep c).of_eq rfl rfl rfl rfl rfl rfl
  next s' hs =>
    rw [hs] at hpick
    exact h.of_rq hpick.task hpick.rq

theorem retirePrev_inv (h : Inv cfg s) {sleep : Bool}
    (hsleep : sleep = true →
      (s.task (s.rq c).curr).onRq = true ∧ (s.task (s.rq c).curr).cpu = c) :
    Inv cfg (retirePrev cfg s c sleep) := by
  have hput : ∀ t : System, Inv cfg t → Inv cfg (putPrevTask cfg t c (s.rq c).curr) :=
    fun t ht => ht.of_rq (putPrevTask_task cfg t c _) (putPrevTask_rq cfg t c _)
  unfold retirePrev
  dsimp only
  cases sleep with
  | true =>
    obtain ⟨hon, hc⟩ := hsleep rfl
    exact hput _ (deactivateTask_inv h hon hc)
  | false => exact hput s h

theorem schedule_inv (h : Inv cfg s) {sleep : Bool}
    (hsleep : sleep = true →
      (s.task (s.rq c).curr).onRq = true ∧ (s.task (s.rq c).curr).cpu = c) (o : Outside) :
    Inv cfg (schedule cfg s c sleep o) :=
  switchTo_inv (retirePrev_inv h hsleep) c _ o

theorem rtThrottle_inv (h : Inv cfg s) (c : Cpu) : Inv cfg (rtThrottle s c) := by
  refine (Flagged.reschedCurr _ c).inv ?_
  exact h.of_updRq rfl rfl rfl rfl ((h.rep c).of_eq rfl rfl rfl rfl rfl rfl)

theorem rtUnthrottle_inv (h : Inv cfg s) (c : Cpu) : Inv cfg (rtUnthrottle s c) := by
  have hset : Inv cfg (s.setRt c { (s.rq c).rt with rtThrottled := false }) :=
    h.of_updRq rfl rfl rfl rfl ((h.rep c).of_eq rfl rfl rfl rfl rfl rfl)
  exact Flagged.inv (Flagged.ite (Flagged.reschedCurr _ c) (Flagged.refl _)) hset

end LinuxWrr
