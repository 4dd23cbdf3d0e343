import LinuxWrr.Wait.WakeupInv

/-!
# No wake-up is lost

What `LinuxWrr.Wait.WakeupInv` means for whole runs, from the first task on.

- `wakeup_exclusive`: no task is queued twice, and no two CPUs have the same task.
- `wakeup_notLost`: a task whose condition has come true, and whose waker has called, does not sleep
  on without a wake-up on its way.
- `wakeup_nrUninterruptible`: the counters of all CPUs add up to the uninterruptible sleepers.
- `wakeup_arrives`: a wake-up that has begun can always be brought to its end, without the task.
-/

namespace LinuxWrr.Wakeup

variable {m : Machine} {s t u : State} {c d : Cpu} {p q : Pid}

/-- Every CPU runs its idle task, and there are no others yet. -/
structure Boot (m : Machine) (s : State) : Prop where
  idle : ∀ c, (s.task (m.idle c)).cpu = c ∧ (s.task (m.idle c)).place = .idle ∧
    (s.task (m.idle c)).onCpu = true
  unborn : ∀ p, (∀ c, p ≠ m.idle c) → (s.task p).place = .unborn ∧ (s.task p).onCpu = false ∧
    (s.task p).cpu ∈ m.cpus
  off : ∀ p, (s.task p).state = taskRunning ∧ (s.task p).onRq = false ∧ (s.task p).queued = none
  rq : ∀ c, s.rq c = { curr := m.idle c, prev := none, scheduling := false, nrUninterruptible := 0
                       wakeList := [], pending := [], ipi := false }
  ttwu : ∀ p, s.ttwu p = .none
  bug : s.bug = false

theorem Boot.inv (h : Boot m s) : Inv m s := by
  have hon : ∀ c p, ¬Listed s c p := by
    intro c p
    rw [Listed, h.rq, or_self]
    exact List.not_mem_nil
  refine ⟨fun p => ?_, fun c => ⟨?_, ?_, fun p hp => ?_, ?_, fun hne => ?_⟩, fun c _ => ?_, ?_, h.bug⟩
  · obtain ⟨hstate, hrq, hqueued⟩ := h.off p
    have htold : (s.task p).state &&& taskNormal = 0 := by
      rw [hstate]
      exact Nat.zero_and _
    by_cases hidle : ∃ c, p = m.idle c
    · obtain ⟨c, rfl⟩ := hidle
      obtain ⟨hcpu, hplace, honcpu⟩ := h.idle c
      refine ⟨.outside (.inr hplace) hstate hrq hqueued (h.ttwu _) fun d => hon d _, ?_, ?_, ?_⟩
      · exact fun hne => absurd hplace hne
      · rw [hcpu, h.rq]
        exact iff_of_true honcpu (.inl rfl)
      · exact fun _ _ _ hsleep => absurd htold hsleep
    · obtain ⟨hplace, honcpu, hhome⟩ := h.unborn p fun c hc => hidle ⟨c, hc⟩
      refine ⟨.outside (.inl ⟨hplace, honcpu⟩) hstate hrq hqueued (h.ttwu p) fun d => hon d p,
        fun _ => hhome, ?_, fun _ _ _ hsleep => absurd htold hsleep⟩
      rw [h.rq, honcpu]
      refine iff_of_false Bool.false_ne_true (not_or.mpr ⟨fun hc => hidle ⟨_, hc.symm⟩, ?_⟩)
      exact (Option.some_ne_none p).symm
  · rw [h.rq]
    exact (h.idle c).1
  · exact ⟨(h.idle c).1, (h.idle c).2.1⟩
  · rw [h.rq] at hp
    cases hp
  · rw [h.rq]
    exact List.nodup_nil
  · rw [h.rq] at hne
    exact absurd rfl hne
  · rw [h.rq]
    exact .inr rfl
  · have htotal : total m s = 0 := Finset.sum_eq_zero fun d _ => by rw [h.rq]
    rw [htotal]
    refine Census.empty fun p hp => ?_
    obtain ⟨hstate, -, -⟩ := h.off p
    have hzero : contributesToLoad (s.task p) = false := by
      rw [contributesToLoad, hstate]
      rfl
    rw [counted, hstate, if_neg (by decide), hzero, Bool.and_false] at hp
    cases hp

/-- A run keeps the invariant. -/
theorem run_inv (hboot : Boot m s) (h : Reach (Op.Ok m) exec s t) : Inv m t :=
  h.invariant (fun _ op hinv hop => exec_inv hinv op hop) hboot.inv

/-! ## Two CPUs -/

instance (s : State) (c : Cpu) : Decidable (Free s c) := inferInstanceAs (Decidable (_ = _))

instance (s : State) (c : Cpu) : Decidable (Outside s c) := inferInstanceAs (Decidable (_ ∧ _))

instance (s : State) (p : Pid) : Decidable (Running s p) := inferInstanceAs (Decidable (_ ∧ _))

instance (m : Machine) (s : State) : DecidablePred (Op.Ok m s)
  | .setState _ _ => inferInstanceAs (Decidable (_ ∧ _ ∧ _))
  | .test _ => inferInstanceAs (Decidable (_ ∧ _))
  | .freeze _ _ => inferInstanceAs (Decidable (_ ∧ _))
  | .scheduleSleep _ _ _ => inferInstanceAs (Decidable (_ ∧ _ ∧ _))
  | .scheduleSwitch _ _ => inferInstanceAs (Decidable (_ ∧ _ ∧ _))
  | .ttwuStart _ _ => inferInstanceAs (Decidable (_ ∧ _))
  | .ttwuOnRq _ => inferInstanceAs (Decidable (_ = _))
  | .ttwuRemote _ => inferInstanceAs (Decidable (_ ∧ _))
  | .ttwuOffCpu _ _ => inferInstanceAs (Decidable (_ ∧ _ ∧ _))
  | .ttwuQueueRemote _ => inferInstanceAs (Decidable (_ = _))
  | .ttwuQueue _ => inferInstanceAs (Decidable (_ ∧ _))
  | .schedulerIpi _ => inferInstanceAs (Decidable (_ ∧ _ ∧ _))
  | .ttwuPending c => inferInstanceAs (Decidable (Outside s c))
  | .tryToWakeUpLocal _ _ => inferInstanceAs (Decidable (_ ∧ _ ∧ _ ∧ _ ∧ _))
  | .wakeUpNewTask _ _ => inferInstanceAs (Decidable (_ ∧ _ ∧ _ ∧ _))
  | .migrateTask _ _ _ => inferInstanceAs (Decidable (_ ∧ _ ∧ _ ∧ _ ∧ _))
  | .migrateNrUninterruptible _ _ => inferInstanceAs (Decidable (_ ∧ _ ∧ _))
  | .post _ | .take _ | .finishSwitch _ => inferInstanceAs (Decidable True)

theorem run_of_test (hs : Inv m s) {ops : List Op}
    (hrun : Reach.runTest (fun s op => decide (Op.Ok m s op)) exec s ops = true) :
    Reach (Op.Ok m) exec s (ops.foldl exec s) := by
  have htest : ∀ v op, Inv m v → decide (Op.Ok m v op) = true → Op.Ok m v op :=
    fun _ _ _ htrue => of_decide_eq_true htrue
  exact Reach.of_runTest (fun _ op hinv hop => exec_inv hinv op hop) htest hs hrun

/-- Even pids are idle tasks. -/
def twoCpus : Machine := { cpus := {0, 1}, idle := fun c => 2 * c }

def bootState : State where
  task p :=
    { state := taskRunning, onRq := false, onCpu := decide (p % 2 = 0)
      cpu := if p % 2 = 0 then p / 2 else 0, queued := none, contributes := false, frozen := false
      place := if p % 2 = 0 then .idle else .unborn }
  rq c :=
    { curr := 2 * c, prev := none, scheduling := false, nrUninterruptible := 0, wakeList := []
      pending := [], ipi := false }
  ttwu _ := .none
  cond _ := false
  owed _ := false
  bug := false

theorem bootState_boot : Boot twoCpus bootState := by
  have heven : ∀ c : Nat, 2 * c % 2 = 0 := fun c => Nat.mul_mod_right 2 c
  have hodd : ∀ p : Nat, (∀ c, p ≠ 2 * c) → p % 2 ≠ 0 := fun p hp heven =>
    hp (p / 2) (Nat.mul_div_cancel' (Nat.dvd_of_mod_eq_zero heven)).symm
  constructor
  · intro c
    refine ⟨?_, if_pos (heven c), decide_eq_true (heven c)⟩
    show (if 2 * c % 2 = 0 then 2 * c / 2 else 0) = c
    rw [if_pos (heven c)]
    exact Nat.mul_div_cancel_left c (by decide)
  · intro p hp
    have hp' := hodd p hp
    refine ⟨if_neg hp', decide_eq_false hp', ?_⟩
    show (if p % 2 = 0 then p / 2 else 0) ∈ ({0, 1} : Finset Nat)
    rw [if_neg hp']
    decide
  · exact fun p => ⟨rfl, rfl, rfl⟩
  · exact fun c => rfl
  · exact fun p => rfl
  · rfl

/-- Task 1 runs on CPU 0, decides to sleep and calls `schedule`. It is off its run queue and the CPU
has not picked another task yet when the waker comes; then the CPU starts to switch. -/
def wokenEarly : State :=
  [.wakeUpNewTask 1 0, .scheduleSleep 0 false false, .scheduleSwitch 0 1, .finishSwitch 0,
    .setState 1 taskUninterruptible, .test 1, .scheduleSleep 0 false false, .post 1,
    .ttwuStart 1 taskNormal, .ttwuOnRq 1, .scheduleSwitch 0 0].foldl exec bootState

theorem wokenEarly_reach : Reach (Op.Ok twoCpus) exec bootState wokenEarly :=
  run_of_test bootState_boot.inv (by decide +kernel)

/-- **Every task is in one place**: in every interleaving, a task that is on a run queue is queued
there once and no other task is queued; no two CPUs have the same current task, and none has one
from which another CPU is still switching. -/
theorem wakeup_exclusive (hboot : Boot m s) (h : Reach (Op.Ok m) exec s t) :
    t.bug = false ∧
      (∀ p, (t.task p).queued = if (t.task p).onRq then some (t.task p).cpu else none) ∧
      (∀ c d, (t.rq c).curr = (t.rq d).curr → c = d) ∧
      ∀ c d p, (t.rq c).prev = some p → (t.rq d).curr ≠ p := by
  have hinv := run_inv hboot h
  refine ⟨hinv.bug, fun p => ?_, fun c d hcd => ?_, fun c d p hprev hcurr => ?_⟩
  · have hstatus := (hinv.task p).status
    cases hstatus with
    | runnable _ _ hrq hqueued => rw [hrq, if_pos rfl, hqueued]
    | outside _ _ hrq hqueued | asleep _ _ hrq hqueued | waking _ _ hrq hqueued
    | listed _ _ hrq hqueued => rw [hrq, if_neg Bool.false_ne_true, hqueued]
  · have hc := (hinv.rq c).curr
    rw [hcd] at hc
    exact hc.symm.trans (hinv.rq d).curr
  · obtain ⟨hcpu, hne⟩ := (hinv.rq c).prev p hprev
    have hd := (hinv.rq d).curr
    rw [hcurr, hcpu] at hd
    rw [hd] at hne
    exact hne hcurr

theorem wakeup_exclusive_wokenEarly : wokenEarly.bug = false ∧ (wokenEarly.rq 0).prev = some 1 ∧
    ∀ d, (wokenEarly.rq d).curr ≠ 1 := by
  obtain ⟨hbug, -, -, hprev⟩ := wakeup_exclusive bootState_boot wokenEarly_reach
  have hswitching : (wokenEarly.rq 0).prev = some 1 := by decide +kernel
  exact ⟨hbug, hswitching, fun d => hprev 0 d 1 hswitching⟩

/-- A wake-up of the task has begun: a waker has its lock, or its CPU has been told or is at it. -/
def OnItsWay (s : State) (p : Pid) : Prop :=
  s.ttwu p ≠ .none ∨ p ∈ (s.rq (s.task p).cpu).wakeList ∧ (s.rq (s.task p).cpu).ipi = true ∨
    p ∈ (s.rq (s.task p).cpu).pending

/-- **No wake-up is lost**: in every interleaving, a task that has been started, is not an idle task
and is off its run queue sleeps in a state that it has set, or its wake-up is on its way; and if
what it waits for has happened and whoever made it happen has called `try_to_wake_up`, its wake-up
is on its way. This holds in the middle of `__schedule` as well. -/
theorem wakeup_notLost (hboot : Boot m s) (h : Reach (Op.Ok m) exec s t)
    (hborn : (t.task p).place ≠ .unborn ∧ (t.task p).place ≠ .idle) (hoff : (t.task p).onRq = false) :
    (t.task p).state ≠ taskRunning ∧ ((t.task p).state = taskWaking → OnItsWay t p) ∧
      (t.cond p = true → t.owed p = false → (t.task p).state &&& taskNormal ≠ 0 → OnItsWay t p) := by
  have hinv := run_inv hboot h
  have hstatus := (hinv.task p).status
  have htold := (hinv.task p).told
  cases hstatus with
  | outside hout => exact absurd hout (by rintro (hu | hi); exacts [hborn.1 hu.1, hborn.2 hi])
  | runnable _ _ hrq =>
    rw [hoff] at hrq
    cases hrq
  | asleep hplace hstate =>
    refine ⟨hstate.1, fun hw => absurd hw hstate.2, fun hcond howed hsleep => ?_⟩
    exact .inl (htold hcond howed hplace hsleep)
  | waking hplace hstate _ _ _ hphase =>
    have hway : OnItsWay t p := .inl (by rw [hphase]; decide)
    refine ⟨?_, fun _ => hway, fun _ _ _ => hway⟩
    rw [hstate]
    decide
  | listed hplace hstate _ _ _ _ hon =>
    have hway : OnItsWay t p := by
      refine .inr (((hon _).mpr rfl).imp_left fun hmem => ⟨hmem, ?_⟩)
      exact (hinv.rq _).ipi (List.ne_nil_of_mem hmem)
    refine ⟨?_, fun _ => hway, fun _ _ _ => hway⟩
    rw [hstate]
    decide

/-- The waker has come while CPU 0 was in the middle of `__schedule`, and waits until it has
switched. -/
theorem wakeup_notLost_wokenEarly : (wokenEarly.task 1).state = taskUninterruptible ∧
    OnItsWay wokenEarly 1 := by
  have hlost := wakeup_notLost (p := 1) bootState_boot wokenEarly_reach (by decide +kernel)
    (by decide +kernel)
  exact ⟨by decide +kernel, hlost.2.2 (by decide +kernel) (by decide +kernel) (by decide +kernel)⟩

/-- **The uninterruptible sleepers are counted**: in every interleaving, the counters of all CPUs
add up to the number of tasks that went to sleep uninterruptible and have not been queued since, on
whatever CPU that was and will be. -/
theorem wakeup_nrUninterruptible (hboot : Boot m s) (h : Reach (Op.Ok m) exec s t) :
    Census (fun p => counted (t.task p) = true) (∑ c ∈ m.cpus, (t.rq c).nrUninterruptible) :=
  (run_inv hboot h).count

theorem wakeup_nrUninterruptible_wokenEarly :
    Census (fun p => counted (wokenEarly.task p) = true) 1 := by
  have hcount := wakeup_nrUninterruptible bootState_boot wokenEarly_reach
  have htotal : ∑ c ∈ twoCpus.cpus, (wokenEarly.rq c).nrUninterruptible = 1 := by decide +kernel
  rwa [htotal] at hcount

/-! ## A wake-up arrives -/

/-- The steps of whoever wakes `p`, and of the CPUs: no task has to do anything. A CPU that is in
`__schedule` switches to a task that is queued, if there is one. -/
def Op.Helps (s : State) (p : Pid) : Op → Prop
  | .ttwuOnRq q | .ttwuRemote q | .ttwuOffCpu q _ | .ttwuQueue q => q = p
  | .scheduleSwitch c next => (s.task next).queued = some c ∨ ∀ q, (s.task q).queued ≠ some c
  | .finishSwitch _ | .schedulerIpi _ | .ttwuPending _ => True
  | _ => False

/-- `t` is reached from `s` by such steps. -/
def Helped (m : Machine) (p : Pid) : State → State → Prop :=
  Reach (fun s op => op.Ok m s ∧ op.Helps s p) exec

theorem Helped.inv (h : Helped m p s t) (hs : Inv m s) : Inv m t :=
  h.invariant (fun _ op hinv hop => exec_inv hinv op hop.1) hs

/-- A helped run may be continued by one more step that helps. -/
theorem Helped.tail (h : Helped m p s t) {op : Op} (hop : op.Ok m t) (hhelps : op.Helps t p) :
    Helped m p s (exec t op) :=
  Relation.ReflTransGen.tail h ⟨op, ⟨hop, hhelps⟩, rfl⟩

theorem Helped.refl (s : State) : Helped m p s s := Relation.ReflTransGen.refl

theorem Helped.trans (h : Helped m p s t) (h' : Helped m p t u) : Helped m p s u :=
  Relation.ReflTransGen.trans h h'

/-- The task is on its run queue and running, and no waker is at it. -/
structure Awake (s : State) (p : Pid) : Prop where
  onRq : (s.task p).onRq = true
  state : (s.task p).state = taskRunning
  ttwu : s.ttwu p = .none

/-- After the switch nothing is pending on the CPU. -/
theorem finishSwitch_free (s : State) (c : Cpu) : Free (finishSwitch s c) c := by
  rw [finishSwitch, Free]
  cases hprev : (s.rq c).prev with
  | none => exact hprev
  | some p =>
    show (Function.update s.rq c _ c).prev = none
    rw [Function.update_self]

/-- What a switch leaves as it is. -/
structure Finished (s t : State) : Prop where
  onRq : ∀ q, (t.task q).onRq = (s.task q).onRq
  cpu : ∀ q, (t.task q).cpu = (s.task q).cpu
  ttwu : t.ttwu = s.ttwu
  wakeList : ∀ d, (t.rq d).wakeList = (s.rq d).wakeList
  pending : ∀ d, (t.rq d).pending = (s.rq d).pending

theorem Finished.trans (h : Finished s t) (h' : Finished t u) : Finished s u where
  onRq q := (h'.onRq q).trans (h.onRq q)
  cpu q := (h'.cpu q).trans (h.cpu q)
  ttwu := h'.ttwu.trans h.ttwu
  wakeList d := (h'.wakeList d).trans (h.wakeList d)
  pending d := (h'.pending d).trans (h.pending d)

/-- One task's `on_cpu` and one run queue's own fields. -/
theorem Finished.of_update (b : Bool) {r : Rq} (htask : t.task = Function.update s.task p
    { s.task p with onCpu := b }) (httwu : t.ttwu = s.ttwu) (hrq : t.rq = Function.update s.rq c r)
    (hwake : r.wakeList = (s.rq c).wakeList) (hpending : r.pending = (s.rq c).pending) :
    Finished s t := by
  have hfields : ∀ q, (t.task q).onRq = (s.task q).onRq ∧ (t.task q).cpu = (s.task q).cpu := by
    intro q
    rw [htask]
    by_cases hq : q = p
    · rw [hq, Function.update_self]
      exact ⟨rfl, rfl⟩
    · rw [Function.update_of_ne hq]
      exact ⟨rfl, rfl⟩
  have hlists : ∀ d, (t.rq d).wakeList = (s.rq d).wakeList ∧ (t.rq d).pending = (s.rq d).pending := by
    intro d
    rw [hrq]
    by_cases hd : d = c
    · rw [hd, Function.update_self]
      exact ⟨hwake, hpending⟩
    · rw [Function.update_of_ne hd]
      exact ⟨rfl, rfl⟩
  exact ⟨fun q => (hfields q).1, fun q => (hfields q).2, httwu, fun d => (hlists d).1,
    fun d => (hlists d).2⟩

/-- Finishing a switch changes neither queues nor wakers. -/
theorem finishSwitch_finished (s : State) (c : Cpu) : Finished s (finishSwitch s c) := by
  rw [finishSwitch]
  cases hprev : (s.rq c).prev with
  | none => exact ⟨fun _ => rfl, fun _ => rfl, rfl, fun _ => rfl, fun _ => rfl⟩
  | some p => exact Finished.of_update (p := p) (c := c) false rfl rfl rfl rfl rfl

theorem finishSwitch_scheduling (s : State) (c : Cpu) :
    ((finishSwitch s c).rq c).scheduling = (s.rq c).scheduling := by
  rw [finishSwitch]
  cases (s.rq c).prev with
  | none => rfl
  | some p =>
    show (Function.update s.rq c { s.rq c with prev := none } c).scheduling = _
    rw [Function.update_self]

/-- Switching to the next task changes neither queues nor wakers. -/
theorem scheduleSwitch_finished (s : State) (c : Cpu) (next : Pid) :
    Finished s (scheduleSwitch s c next) := by
  have hset : ∀ v : State, Finished v (v.setScheduling c false) := fun v => by
    refine Finished.of_update (p := 0) (c := c) (v.task 0).onCpu ?_ rfl rfl rfl rfl
    exact (Function.update_eq_self 0 v.task).symm
  refine Finished.trans ?_ (hset _)
  rw [switchTo]
  split
  · exact ⟨fun _ => rfl, fun _ => rfl, rfl, fun _ => rfl, fun _ => rfl⟩
  · exact Finished.of_update (p := next) (c := c) true rfl rfl rfl rfl rfl

theorem scheduleSwitch_scheduling (s : State) (c : Cpu) (next : Pid) :
    ((scheduleSwitch s c next).rq c).scheduling = false := by
  show Rq.scheduling (Function.update (switchTo s c next).rq c _ c) = false
  rw [Function.update_self]

/-- A CPU gets out of `__schedule`: it picks a task, if it has not done so, and finishes the
switch. -/
theorem helped_outside (m : Machine) (s : State) (c : Cpu) (p : Pid) :
    ∃ v, Helped m p s v ∧ Finished s v ∧ Outside v c := by
  have hfinish : ∀ v, Helped m p v (finishSwitch v c) := fun v => by
    have hop : (Op.finishSwitch c).Ok m v := trivial
    exact (Helped.refl v).tail hop trivial
  obtain ⟨v, hv⟩ : ∃ v, v = finishSwitch s c := ⟨_, rfl⟩
  have hrun : Helped m p s v := hv ▸ hfinish s
  have hfin : Finished s v := hv ▸ finishSwitch_finished s c
  have hfree : Free v c := hv ▸ finishSwitch_free s c
  by_cases hsched : (v.rq c).scheduling = true
  · obtain ⟨next, hnext, hhelps⟩ : ∃ next, (next = m.idle c ∨ (v.task next).queued = some c) ∧
        ((v.task next).queued = some c ∨ ∀ q, (v.task q).queued ≠ some c) := by
      by_cases hqueued : ∃ q, (v.task q).queued = some c
      · obtain ⟨q, hq⟩ := hqueued
        exact ⟨q, .inr hq, .inl hq⟩
      · exact ⟨m.idle c, .inl rfl, .inr fun q hq => hqueued ⟨q, hq⟩⟩
    have hop : (Op.scheduleSwitch c next).Ok m v := ⟨hsched, hfree, hnext⟩
    refine ⟨_, (hrun.tail hop hhelps).trans (hfinish _), ?_, finishSwitch_free _ c, ?_⟩
    · exact hfin.trans ((scheduleSwitch_finished v c next).trans (finishSwitch_finished _ c))
    · exact (finishSwitch_scheduling _ c).trans (scheduleSwitch_scheduling v c next)
  · exact ⟨v, hrun, hfin, hfree, (Bool.not_eq_true _).mp hsched⟩

/-- A task that is about to be queued arrives. -/
theorem arrives_queue (hphase : s.ttwu p = .queue) : ∃ u, Helped m p s u ∧ Awake u p := by
  obtain ⟨v, hrun, hfin, hfree, -⟩ := helped_outside m s (s.task p).cpu p
  rw [← hfin.cpu] at hfree
  have hop : (Op.ttwuQueue p).Ok m v := ⟨by rw [hfin.ttwu]; exact hphase, hfree⟩
  refine ⟨_, hrun.tail hop rfl, ?_⟩
  have htask : (exec v (.ttwuQueue p)).task p =
      { v.task p with queued := some (v.task p).cpu, onRq := true, state := taskRunning } :=
    (congrFun ttwuDoActivate_task p).trans (Function.update_self ..)
  exact ⟨by rw [htask], by rw [htask], Function.update_self ..⟩

/-- The loop on `p->on_cpu` ends when the task's CPU is done with `__schedule`. -/
theorem arrives_offCpu (h : Inv m s) (hphase : s.ttwu p = .offCpu) :
    ∃ u, Helped m p s u ∧ Awake u p := by
  obtain ⟨v, hrun, hfin, hout⟩ := helped_outside m s (s.task p).cpu p
  rw [← hfin.cpu] at hout
  have hinv := hrun.inv h
  have hphase' : v.ttwu p = .offCpu := by
    rw [hfin.ttwu]
    exact hphase
  have hstatus := (hinv.task p).status
  rw [hphase'] at hstatus
  have hrq : (v.task p).onRq = false := by
    by_contra hon
    exact (hstatus.of_onRq ((Bool.not_eq_false _).mp hon)).2.2.2.1.1 rfl
  obtain ⟨hplace, -⟩ := hstatus.of_off hrq (by decide) (by decide)
  have hidle : (v.task p).place ≠ .idle := by
    rw [hplace]
    decide
  -- its CPU has switched to another task
  have hcpu : (v.task p).onCpu = false := by
    by_contra hon
    rcases (hinv.task p).onCpu.mp ((Bool.not_eq_false _).mp hon) with hcurr | hprev
    · have hlive := hinv.onRq_of_running (p := p) ⟨hcurr, hout⟩ hidle
      rw [hrq] at hlive
      cases hlive
    · rw [hout.1] at hprev
      cases hprev
  have hop : (Op.ttwuOffCpu p (v.task p).cpu).Ok m v := ⟨hphase', hcpu, (hinv.task p).home hidle⟩
  obtain ⟨u, hu, hawake⟩ := arrives_queue (m := m) (p := p)
    (s := exec v (.ttwuOffCpu p (v.task p).cpu)) (Function.update_self ..)
  exact ⟨u, (hrun.tail hop rfl).trans hu, hawake⟩

/-- A task whose waker waits for its CPU arrives. -/
theorem arrives_remote (h : Inv m s) (hphase : s.ttwu p = .remote) :
    ∃ u, Helped m p s u ∧ Awake u p := by
  obtain ⟨v, hrun, hfin, hfree, -⟩ := helped_outside m s (s.task p).cpu p
  rw [← hfin.cpu] at hfree
  have hop : (Op.ttwuRemote p).Ok m v := ⟨by rw [hfin.ttwu]; exact hphase, hfree⟩
  have hnext := hrun.tail hop rfl
  by_cases hrq : (v.task p).onRq = true
  · refine ⟨_, hnext, ?_⟩
    have hexec : exec v (.ttwuRemote p) = (ttwuDoWakeup v p).setTtwu p .none := by
      rw [exec, ttwuRemote, if_pos hrq]
    have htask : ((ttwuDoWakeup v p).setTtwu p .none).task p = { v.task p with state := taskRunning } :=
      Function.update_self ..
    rw [hexec]
    refine ⟨?_, ?_, Function.update_self ..⟩
    · rw [htask]
      exact hrq
    · rw [htask]
  · have hexec : (exec v (.ttwuRemote p)).ttwu p = .offCpu := by
      rw [exec, ttwuRemote, if_neg hrq]
      exact Function.update_self ..
    obtain ⟨u, hu, hawake⟩ := arrives_offCpu (hnext.inv h) hexec
    exact ⟨u, hnext.trans hu, hawake⟩

/-- A task whose state has just matched arrives. -/
theorem arrives_matched (h : Inv m s) (hphase : s.ttwu p = .matched) :
    ∃ u, Helped m p s u ∧ Awake u p := by
  have hop : (Op.ttwuOnRq p).Ok m s := hphase
  have hrun := (Helped.refl (p := p) s).tail hop rfl
  have hnext : (exec s (.ttwuOnRq p)).ttwu p = if (s.task p).onRq then .remote else .offCpu :=
    Function.update_self ..
  obtain ⟨u, hu, hawake⟩ : ∃ u, Helped m p (exec s (.ttwuOnRq p)) u ∧ Awake u p := by
    by_cases hrq : (s.task p).onRq = true
    · rw [if_pos hrq] at hnext
      exact arrives_remote (hrun.inv h) hnext
    · rw [if_neg hrq] at hnext
      exact arrives_offCpu (hrun.inv h) hnext
  exact ⟨u, hrun.trans hu, hawake⟩

/-- The handler queues the first of its tasks. -/
theorem pending_turn (h : Inv m s) {l : List Pid} (hl : (s.rq c).pending = q :: l) :
    ∃ u, Helped m p s u ∧ (u.rq c).pending = l ∧ (u.rq c).wakeList = (s.rq c).wakeList ∧ Awake u q := by
  obtain ⟨v, hrun, hfin, hout⟩ := helped_outside m s c p
  have hpending : (v.rq c).pending = q :: l := by
    rw [hfin.pending]
    exact hl
  have hinv := hrun.inv h
  have hin : Listed v c q := .inr (by rw [hpending]; exact List.mem_cons_self)
  obtain ⟨-, hstate, -, -, -, hphase, -⟩ := (hinv.task q).status.of_on hin
  have hop : (Op.ttwuPending c).Ok m v := hout
  obtain ⟨w, hw⟩ : ∃ w, w = v.updRq c fun r => { r with pending := l } := ⟨_, rfl⟩
  have hexec : exec v (.ttwuPending c) = ttwuDoActivate w c q := by
    rw [exec, ttwuPending, hpending, hw]
  have hwstate : (w.task q).state = taskWaking := by
    rw [hw]
    exact hstate
  have hwrq : w.rq c = { v.rq c with pending := l } := by
    rw [hw]
    exact Function.update_self ..
  have htask : (ttwuDoActivate w c q).task q =
      { w.task q with queued := some c, onRq := true, state := taskRunning } :=
    (congrFun ttwuDoActivate_task q).trans (Function.update_self ..)
  refine ⟨_, hrun.tail hop trivial, ?_⟩
  rw [hexec, ttwuDoActivate_rq hwstate, hwrq]
  refine ⟨rfl, hfin.wakeList c, ⟨by rw [htask], by rw [htask], ?_⟩⟩
  show w.ttwu q = .none
  rw [hw]
  exact hphase

/-- The handler comes to every task that it has taken. -/
theorem arrives_pending (h : Inv m s) (hp : p ∈ (s.rq c).pending) :
    ∃ u, Helped m p s u ∧ Awake u p := by
  generalize hl : (s.rq c).pending = l at hp
  induction l generalizing s with
  | nil => cases hp
  | cons q l ih =>
    obtain ⟨v, hrun, hpending, -, hawake⟩ := pending_turn (p := p) h hl
    by_cases hpq : p = q
    · exact ⟨v, hrun, hpq ▸ hawake⟩
    · obtain ⟨u, hu, hdone⟩ := ih (hrun.inv h) hpending (List.mem_of_ne_of_mem hpq hp)
      exact ⟨u, hrun.trans hu, hdone⟩

/-- The handler of the IPI empties the list it has taken over. -/
theorem pending_drained (h : Inv m s) (c : Cpu) (p : Pid) :
    ∃ u, Helped m p s u ∧ (u.rq c).pending = [] ∧ (u.rq c).wakeList = (s.rq c).wakeList := by
  generalize hl : (s.rq c).pending = l
  induction l generalizing s with
  | nil => exact ⟨s, Helped.refl s, hl, rfl⟩
  | cons q l ih =>
    obtain ⟨v, hrun, hpending, hlist, -⟩ := pending_turn (p := p) h hl
    obtain ⟨u, hu, hnone, hlist'⟩ := ih (hrun.inv h) hpending
    exact ⟨u, hrun.trans hu, hnone, hlist'.trans hlist⟩

/-- The interrupt comes once its CPU is done with `__schedule` and with the tasks it had taken
before. -/
theorem arrives_listed (h : Inv m s) (hp : p ∈ (s.rq c).wakeList) :
    ∃ u, Helped m p s u ∧ Awake u p := by
  obtain ⟨w, hdrain, hempty, hlist⟩ := pending_drained h c p
  obtain ⟨v, hrun, hfin, hout⟩ := helped_outside m w c p
  rw [← hlist, ← hfin.wakeList] at hp
  rw [← hfin.pending] at hempty
  have hinv := (hdrain.trans hrun).inv h
  have hop : (Op.schedulerIpi c).Ok m v := ⟨(hinv.rq c).ipi (List.ne_nil_of_mem hp), hempty, hout⟩
  have hnext := (hdrain.trans hrun).tail hop trivial
  have htaken : ((exec v (.schedulerIpi c)).rq c).pending = (v.rq c).wakeList := by
    show (Function.update v.rq c _ c).pending = _
    rw [Function.update_self]
  obtain ⟨u, hu, hawake⟩ := arrives_pending (p := p) (c := c) (hnext.inv h) (by rw [htaken]; exact hp)
  exact ⟨u, hnext.trans hu, hawake⟩

/-- **A wake-up arrives**: in every state that a run reaches, a wake-up that is on its way can be
brought to its end by the waker and the CPUs alone: the task is then on a run queue and running. -/
theorem wakeup_arrives (hboot : Boot m s) (h : Reach (Op.Ok m) exec s t) (hway : OnItsWay t p) :
    ∃ u, Helped m p t u ∧ Awake u p := by
  have hinv := run_inv hboot h
  rcases hway with hphase | ⟨hlist, -⟩ | hpending
  · cases hnow : t.ttwu p with
    | none => exact absurd hnow hphase
    | matched => exact arrives_matched hinv hnow
    | remote => exact arrives_remote hinv hnow
    | offCpu => exact arrives_offCpu hinv hnow
    | queue => exact arrives_queue hnow
  · exact arrives_listed hinv hlist
  · exact arrives_pending hinv hpending

theorem wakeup_arrives_wokenEarly : ∃ u, Helped twoCpus 1 wokenEarly u ∧ Awake u 1 :=
  wakeup_arrives bootState_boot wokenEarly_reach (.inl (by decide +kernel))

end LinuxWrr.Wakeup
