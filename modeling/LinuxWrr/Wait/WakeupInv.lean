import LinuxWrr.Wait.Wakeup

/-!
# Every step of a wake-up keeps its order

The steps of `LinuxWrr.Wait.Wakeup` as operations, with the locks that the source holds. `Status`
says in which of five ways a task can be on its way between the run queue and sleep; `Inv` says that
every task is in one of them, and what the run queues, the lists of remote wake-ups and the counters
make of it. Every operation keeps it.

Most operations are about one task: `InvBut.near` is what they leave to be shown.
-/

namespace LinuxWrr.Wakeup

variable {m : Machine} {s t u : State} {c d dest : Cpu} {p q : Pid}

/-! ## The system -/

/-- Nobody holds `rq->lock` over a switch. -/
def Free (s : State) (c : Cpu) : Prop := (s.rq c).prev = none

/-- The CPU is not in `__schedule`: it takes interrupts and runs the code of its task. -/
def Outside (s : State) (c : Cpu) : Prop := Free s c ∧ (s.rq c).scheduling = false

/-- The task runs its own code. -/
def Running (s : State) (p : Pid) : Prop :=
  (s.rq (s.task p).cpu).curr = p ∧ Outside s (s.task p).cpu

inductive Op where
  /-- `set_current_state`. -/
  | setState (p : Pid) (state : Nat)
  /-- "if (do_i_need_to_sleep())": if not, the task goes on. -/
  | test (p : Pid)
  /-- The condition is made true; a wake-up is to follow. -/
  | post (p : Pid)
  /-- The condition is made false. -/
  | take (p : Pid)
  /-- The task sets or clears `PF_FROZEN`. -/
  | freeze (p : Pid) (frozen : Bool)
  | scheduleSleep (c : Cpu) (preempt signal : Bool)
  | scheduleSwitch (c : Cpu) (next : Pid)
  | finishSwitch (c : Cpu)
  | ttwuStart (p : Pid) (mode : Nat)
  | ttwuOnRq (p : Pid)
  | ttwuRemote (p : Pid)
  | ttwuOffCpu (p : Pid) (dest : Cpu)
  | ttwuQueueRemote (p : Pid)
  | ttwuQueue (p : Pid)
  | schedulerIpi (c : Cpu)
  | ttwuPending (c : Cpu)
  | tryToWakeUpLocal (c : Cpu) (p : Pid)
  | wakeUpNewTask (p : Pid) (c : Cpu)
  | migrateTask (p : Pid) (dest : Cpu) (counted : Bool)
  | migrateNrUninterruptible (src dest : Cpu)

def exec (s : State) : Op → State
  | .setState p state => s.updTask p fun t =>
      { t with state := state, place := if state = taskRunning then .busy else .set }
  | .test p => s.updTask p fun t =>
      if s.cond p then { t with state := taskRunning, place := .busy } else { t with place := .decided }
  | .post p => { s with
      cond := Function.update s.cond p true, owed := Function.update s.owed p true }
  | .take p => { s with cond := Function.update s.cond p false }
  | .freeze p frozen => s.updTask p fun t => { t with frozen := frozen }
  | .scheduleSleep c preempt signal => scheduleSleep s c preempt signal
  | .scheduleSwitch c next => scheduleSwitch s c next
  | .finishSwitch c => finishSwitch s c
  | .ttwuStart p mode => ttwuStart s p mode
  | .ttwuOnRq p => ttwuOnRq s p
  | .ttwuRemote p => ttwuRemote s p
  | .ttwuOffCpu p dest => ttwuOffCpu s p dest
  | .ttwuQueueRemote p => ttwuQueueRemote s p
  | .ttwuQueue p => ttwuQueue s p
  | .schedulerIpi c => schedulerIpi s c
  | .ttwuPending c => ttwuPending s c
  | .tryToWakeUpLocal c p => tryToWakeUpLocal s c p
  | .wakeUpNewTask p c => wakeUpNewTask s p c
  | .migrateTask p dest counted => migrateTask s p dest counted
  | .migrateNrUninterruptible src dest => migrateNrUninterruptible s src dest

/-- The locks, and where the code is. -/
def Op.Ok (m : Machine) (s : State) : Op → Prop
  | .setState p state => Running s p ∧ (s.task p).place ≠ .idle ∧ state &&& taskWaking = 0
  | .test p => Running s p ∧ (s.task p).place = .set
  | .freeze p _ => Running s p ∧ (s.task p).place ≠ .idle
  -- a task that has set its state calls `schedule` once it has tested its condition
  | .scheduleSleep c preempt _ => c ∈ m.cpus ∧ Outside s c ∧
      ((s.task (s.rq c).curr).state ≠ taskRunning → preempt = false →
        (s.task (s.rq c).curr).place = .decided)
  | .scheduleSwitch c next => (s.rq c).scheduling = true ∧ Free s c ∧
      (next = m.idle c ∨ (s.task next).queued = some c)
  -- the modes of wake-ups do not name `TASK_WAKING`
  | .ttwuStart p mode => s.ttwu p = .none ∧ mode &&& taskWaking = 0
  | .ttwuOnRq p => s.ttwu p = .matched
  | .ttwuRemote p => s.ttwu p = .remote ∧ Free s (s.task p).cpu
  | .ttwuOffCpu p dest => s.ttwu p = .offCpu ∧ (s.task p).onCpu = false ∧ dest ∈ m.cpus
  | .ttwuQueueRemote p => s.ttwu p = .queue
  | .ttwuQueue p => s.ttwu p = .queue ∧ Free s (s.task p).cpu
  | .schedulerIpi c => (s.rq c).ipi = true ∧ (s.rq c).pending = [] ∧ Outside s c
  | .ttwuPending c => Outside s c
  | .tryToWakeUpLocal c p => s.ttwu p = .none ∧ (s.rq c).scheduling = true ∧ Free s c ∧
      (s.task p).cpu = c ∧ (s.rq c).curr ≠ p
  | .wakeUpNewTask p c => (s.task p).place = .unborn ∧ s.ttwu p = .none ∧ Free s c ∧ c ∈ m.cpus
  | .migrateTask p dest _ => (s.task p).onRq = true ∧ (s.rq (s.task p).cpu).curr ≠ p ∧
      Free s (s.task p).cpu ∧ Free s dest ∧ dest ∈ m.cpus
  | .migrateNrUninterruptible src dest => src ∈ m.cpus ∧ dest ∈ m.cpus ∧ src ≠ dest
  | .post _ | .take _ | .finishSwitch _ => True

/-! ## Where a task can be -/

/-- The task is on the list of remote wake-ups of `c`. -/
def Listed (s : State) (c : Cpu) (p : Pid) : Prop :=
  p ∈ (s.rq c).wakeList ∨ p ∈ (s.rq c).pending

/-- `on` are the CPUs on whose lists the task is. -/
inductive Status (t : Task) (phase : Phase) (on : Cpu → Prop) : Prop where
  /-- It is not for `try_to_wake_up`. -/
  | outside (hplace : t.place = .unborn ∧ t.onCpu = false ∨ t.place = .idle)
    (hstate : t.state = taskRunning) (hrq : t.onRq = false) (hqueued : t.queued = none)
    (hphase : phase = .none) (hon : ∀ c, ¬on c)
  | runnable (hplace : t.place ≠ .unborn ∧ t.place ≠ .idle) (hstate : t.state ≠ taskWaking)
    (hrq : t.onRq = true) (hqueued : t.queued = some t.cpu)
    (hphase : phase ≠ .offCpu ∧ phase ≠ .queue) (hon : ∀ c, ¬on c)
  | asleep (hplace : t.place = .decided) (hstate : t.state ≠ taskRunning ∧ t.state ≠ taskWaking)
    (hrq : t.onRq = false) (hqueued : t.queued = none) (hphase : phase ≠ .queue) (hon : ∀ c, ¬on c)
  /-- A waker is about to queue it. -/
  | waking (hplace : t.place = .decided) (hstate : t.state = taskWaking) (hrq : t.onRq = false)
    (hqueued : t.queued = none) (hcpu : t.onCpu = false) (hphase : phase = .queue) (hon : ∀ c, ¬on c)
  /-- It is left to its CPU to queue it. -/
  | listed (hplace : t.place = .decided) (hstate : t.state = taskWaking) (hrq : t.onRq = false)
    (hqueued : t.queued = none) (hcpu : t.onCpu = false) (hphase : phase = .none)
    (hon : ∀ c, on c ↔ c = t.cpu)

/-- What holds of every task. -/
structure TaskOk (m : Machine) (s : State) (p : Pid) : Prop where
  status : Status (s.task p) (s.ttwu p) fun c => Listed s c p
  home : (s.task p).place ≠ .idle → (s.task p).cpu ∈ m.cpus
  onCpu : (s.task p).onCpu = true ↔
    (s.rq (s.task p).cpu).curr = p ∨ (s.rq (s.task p).cpu).prev = some p
  /-- It has decided to sleep, and after that the condition has come true and the waker has looked
  at it. -/
  told : s.cond p = true → s.owed p = false → (s.task p).place = .decided →
    (s.task p).state &&& taskNormal ≠ 0 → s.ttwu p ≠ .none

/-- What holds of every run queue. -/
structure RqOk (m : Machine) (s : State) (c : Cpu) : Prop where
  curr : (s.task (s.rq c).curr).cpu = c
  idle : (s.task (m.idle c)).cpu = c ∧ (s.task (m.idle c)).place = .idle
  prev : ∀ p, (s.rq c).prev = some p → (s.task p).cpu = c ∧ (s.rq c).curr ≠ p
  nodup : ((s.rq c).wakeList ++ (s.rq c).pending).Nodup
  ipi : (s.rq c).wakeList ≠ [] → (s.rq c).ipi = true

/-- An uninterruptible sleeper, by what it was when it went to sleep. -/
def counted (t : Task) : Bool :=
  !t.onRq && if t.state = taskWaking then t.contributes else contributesToLoad t

/-- What `nr_uninterruptible` adds up. -/
def total (m : Machine) (s : State) : Int := ∑ c ∈ m.cpus, (s.rq c).nrUninterruptible

/-- What holds if the current tasks of the CPUs `out` may have left their run queues. -/
structure InvBut (m : Machine) (s : State) (out : Cpu → Prop) : Prop where
  task : ∀ p, TaskOk m s p
  rq : ∀ c, RqOk m s c
  live : ∀ c, ¬out c → (s.task (s.rq c).curr).onRq = true ∨ (s.rq c).curr = m.idle c
  count : Census (fun p => counted (s.task p) = true) (total m s)
  bug : s.bug = false

/-- What holds in every state: only in the middle of `__schedule` is the current task off its run
queue. -/
def Inv (m : Machine) (s : State) : Prop := InvBut m s fun c => (s.rq c).scheduling = true

/-! ## Steps at one task -/

/-- `t` differs from `s` at `p` only, and no CPU switches. -/
structure Near (s t : State) (p : Pid) : Prop where
  task : ∀ q, q ≠ p → t.task q = s.task q
  ttwu : ∀ q, q ≠ p → t.ttwu q = s.ttwu q
  cond : ∀ q, q ≠ p → t.cond q = s.cond q
  owed : ∀ q, q ≠ p → t.owed q = s.owed q
  curr : ∀ c, (t.rq c).curr = (s.rq c).curr
  prev : ∀ c, (t.rq c).prev = (s.rq c).prev
  scheduling : ∀ c, (t.rq c).scheduling = (s.rq c).scheduling
  listed : ∀ c q, q ≠ p → (Listed t c q ↔ Listed s c q)

/-- A step about one task leaves the others as they were. -/
theorem TaskOk.frame (h : TaskOk m s q) (hn : Near s t p) (hq : q ≠ p) : TaskOk m t q where
  status := by
    have hon : (fun c => Listed t c q) = fun c => Listed s c q :=
      funext fun c => propext (hn.listed c q hq)
    rw [hn.task q hq, hn.ttwu q hq, hon]
    exact h.status
  home := by
    rw [hn.task q hq]
    exact h.home
  onCpu := by
    rw [hn.task q hq, hn.curr, hn.prev]
    exact h.onCpu
  told := by
    rw [hn.task q hq, hn.ttwu q hq, hn.cond q hq, hn.owed q hq]
    exact h.told

/-- What a step may do to a task that is on its CPU. -/
structure Stays (v v' : Task) : Prop where
  onCpu : v.onCpu = true → v'.cpu = v.cpu
  idle : v.place = .idle → v'.cpu = v.cpu ∧ v'.place = .idle

/-- A task that is on no CPU may be written freely. -/
theorem Stays.of_off {v v' : Task} (hcpu : v.onCpu = false) (hplace : v.place ≠ .idle) :
    Stays v v' := by
  constructor
  · intro hon
    rw [hcpu] at hon
    cases hon
  · exact fun hidle => absurd hidle hplace

section InvBut

variable {out out' : Cpu → Prop} (h : InvBut m s out)
include h

/-- A task that a CPU has is on a CPU. -/
theorem InvBut.curr_onCpu (c : Cpu) : (s.task (s.rq c).curr).onCpu = true := by
  rw [(h.task _).onCpu, (h.rq c).curr]
  exact .inl rfl

/-- A task that is being switched away from counts as on its CPU. -/
theorem InvBut.prev_onCpu (hp : (s.rq c).prev = some p) : (s.task p).onCpu = true := by
  rw [(h.task _).onCpu, ((h.rq c).prev p hp).1]
  exact .inr hp

/-- No CPU has a task that is on none. -/
theorem InvBut.not_at (hp : (s.task p).onCpu = false) (c : Cpu) :
    (s.rq c).curr ≠ p ∧ (s.rq c).prev ≠ some p := by
  constructor
  · rintro rfl
    have hon := h.curr_onCpu c
    rw [hp] at hon
    cases hon
  · intro hprev
    have hon := h.prev_onCpu hprev
    rw [hp] at hon
    cases hon

/-- Where nobody is being switched away from, a task that is not current is on no CPU. -/
theorem InvBut.off_of_free (hfree : Free s (s.task p).cpu) (hcurr : (s.rq (s.task p).cpu).curr ≠ p) :
    (s.task p).onCpu = false := by
  by_contra hon
  refine ((h.task p).onCpu.mp ((Bool.not_eq_false _).mp hon)).elim hcurr fun hprev => ?_
  rw [hfree] at hprev
  cases hprev

/-- What a step at one task leaves to be shown. -/
theorem InvBut.near (hn : Near s t p) (hp : TaskOk m t p) (hstay : Stays (s.task p) (t.task p))
    (hlive : ∀ c, ¬out' c → ¬out c ∧
      ((s.rq c).curr = p → (s.task p).onRq = true → (t.task p).onRq = true))
    (hnodup : ∀ c, ((t.rq c).wakeList ++ (t.rq c).pending).Nodup)
    (hipi : ∀ c, (t.rq c).wakeList ≠ [] → (t.rq c).ipi = true)
    (htotal : total m t = total m s + load (counted (t.task p)) - load (counted (s.task p)))
    (hbug : t.bug = false) : InvBut m t out' where
  task q := by
    by_cases hq : q = p
    · rw [hq]
      exact hp
    · exact (h.task q).frame hn hq
  rq c := by
    have hcpu : ∀ q, (s.task q).onCpu = true → (t.task q).cpu = (s.task q).cpu := by
      intro q hon
      by_cases hq : q = p
      · rw [hq] at hon ⊢
        exact hstay.onCpu hon
      · rw [hn.task q hq]
    refine ⟨?_, ?_, ?_, hnodup c, hipi c⟩
    · rw [hn.curr, hcpu _ (h.curr_onCpu c)]
      exact (h.rq c).curr
    · by_cases hq : m.idle c = p
      · obtain ⟨hhome, hplace⟩ := (h.rq c).idle
        rw [hq] at hhome hplace ⊢
        rw [(hstay.idle hplace).1]
        exact ⟨hhome, (hstay.idle hplace).2⟩
      · rw [hn.task _ hq]
        exact (h.rq c).idle
    · intro q hq
      rw [hn.prev] at hq
      rw [hn.curr, hcpu q (h.prev_onCpu hq)]
      exact (h.rq c).prev q hq
  live c hc := by
    obtain ⟨hout, hkeep⟩ := hlive c hc
    rw [hn.curr]
    refine (h.live c hout).imp_left fun hrq => ?_
    by_cases hq : (s.rq c).curr = p
    · rw [hq] at hrq ⊢
      exact hkeep hq hrq
    · rw [hn.task _ hq]
      exact hrq
  count := by
    refine h.count.change (x := p) (fun q hq => ?_) ?_
    · rw [hn.task q hq]
    · rw [htotal]
      rfl
  bug := hbug

/-- A step that writes no more of the run queues than their counters. -/
theorem InvBut.atQueue
    (hrq : ∀ d, t.rq d = { s.rq d with nrUninterruptible := (t.rq d).nrUninterruptible })
    (htask : ∀ q, q ≠ p → t.task q = s.task q) (httwu : ∀ q, q ≠ p → t.ttwu q = s.ttwu q)
    (hcond : ∀ q, q ≠ p → t.cond q = s.cond q) (howed : ∀ q, q ≠ p → t.owed q = s.owed q)
    (hp : TaskOk m t p) (hstay : Stays (s.task p) (t.task p))
    (hlive : ∀ c, ¬out' c → ¬out c ∧
      ((s.rq c).curr = p → (s.task p).onRq = true → (t.task p).onRq = true))
    (htotal : total m t = total m s + load (counted (t.task p)) - load (counted (s.task p)))
    (hbug : t.bug = false) : InvBut m t out' := by
  refine h.near ⟨htask, httwu, hcond, howed, fun c => by rw [hrq], fun c => by rw [hrq],
    fun c => by rw [hrq], fun c q _ => by rw [Listed, Listed, hrq]⟩ hp hstay hlive (fun c => ?_)
    (fun c => ?_) htotal hbug
  · rw [hrq]
    exact (h.rq c).nodup
  · rw [hrq]
    exact (h.rq c).ipi

end InvBut

/-- A step that keeps every CPU where it is in `__schedule`. -/
theorem live_of_same (hsched : ∀ c, (t.rq c).scheduling = (s.rq c).scheduling)
    (honrq : ∀ c, (s.rq c).curr = p → (s.task p).onRq = true → (t.task p).onRq = true) (c : Cpu)
    (hc : ¬(t.rq c).scheduling = true) : ¬(s.rq c).scheduling = true ∧
      ((s.rq c).curr = p → (s.task p).onRq = true → (t.task p).onRq = true) := by
  rw [hsched] at hc
  exact ⟨hc, honrq c⟩

/-- A step that writes no run queue keeps the invariant if it keeps its task in order. -/
theorem Inv.atTask (h : Inv m s) (hrq : t.rq = s.rq) (htask : ∀ q, q ≠ p → t.task q = s.task q)
    (httwu : ∀ q, q ≠ p → t.ttwu q = s.ttwu q) (hcond : ∀ q, q ≠ p → t.cond q = s.cond q)
    (howed : ∀ q, q ≠ p → t.owed q = s.owed q) (hp : TaskOk m t p)
    (hstay : Stays (s.task p) (t.task p)) (honrq : (t.task p).onRq = (s.task p).onRq)
    (hcount : counted (t.task p) = counted (s.task p)) (hbug : t.bug = s.bug) : Inv m t := by
  refine InvBut.atQueue h (fun d => by rw [hrq]) htask httwu hcond howed hp hstay
    (live_of_same (fun c => by rw [hrq]) fun _ _ hon => honrq.trans hon) ?_ (hbug.trans h.bug)
  rw [hcount, total, total, hrq]
  omega

/-- A task on a run queue is not being woken by anybody. -/
theorem Status.of_onRq {v : Task} {phase : Phase} {on : Cpu → Prop} (h : Status v phase on)
    (hrq : v.onRq = true) : (v.place ≠ .unborn ∧ v.place ≠ .idle) ∧ v.state ≠ taskWaking ∧
      v.queued = some v.cpu ∧ (phase ≠ .offCpu ∧ phase ≠ .queue) ∧ ∀ c, ¬on c := by
  cases h with
  | runnable hplace hstate _ hqueued hphase hon => exact ⟨hplace, hstate, hqueued, hphase, hon⟩
  | outside _ _ hoff | asleep _ _ hoff | waking _ _ hoff | listed _ _ hoff =>
    rw [hoff] at hrq
    cases hrq

/-- Off the run queue and not being woken yet. -/
theorem Status.of_off {v : Task} {phase : Phase} {on : Cpu → Prop} (h : Status v phase on)
    (hrq : v.onRq = false) (hphase : phase ≠ .none) (hqueue : phase ≠ .queue) :
    v.place = .decided ∧ (v.state ≠ taskRunning ∧ v.state ≠ taskWaking) ∧ v.queued = none ∧
      ∀ c, ¬on c := by
  cases h with
  | asleep hplace hstate _ hqueued _ hon => exact ⟨hplace, hstate, hqueued, hon⟩
  | outside _ _ _ _ hnone => exact absurd hnone hphase
  | runnable _ _ hon =>
    rw [hon] at hrq
    cases hrq
  | waking _ _ _ _ _ hw => exact absurd hw hqueue
  | listed _ _ _ _ _ hnone => exact absurd hnone hphase

/-- In front of `ttwu_queue` the task is in `TASK_WAKING` and off every queue. -/
theorem Status.of_queue {v : Task} {on : Cpu → Prop} (h : Status v .queue on) :
    v.place = .decided ∧ v.state = taskWaking ∧ v.onRq = false ∧ v.queued = none ∧
      v.onCpu = false ∧ ∀ c, ¬on c := by
  cases h with
  | waking hplace hstate hrq hqueued hcpu _ hon => exact ⟨hplace, hstate, hrq, hqueued, hcpu, hon⟩
  | outside _ _ _ _ hphase | listed _ _ _ _ _ hphase => cases hphase
  | runnable _ _ _ _ hphase => exact absurd rfl hphase.2
  | asleep _ _ _ _ hphase => exact absurd rfl hphase

/-- A task on a wake list is in `TASK_WAKING` and off every queue. -/
theorem Status.of_on {v : Task} {phase : Phase} {on : Cpu → Prop} (h : Status v phase on) (hc : on c) :
    v.place = .decided ∧ v.state = taskWaking ∧ v.onRq = false ∧ v.queued = none ∧
      v.onCpu = false ∧ phase = .none ∧ c = v.cpu ∧ ∀ d, on d ↔ d = v.cpu := by
  cases h with
  | listed hplace hstate hrq hqueued hcpu hphase hon =>
    exact ⟨hplace, hstate, hrq, hqueued, hcpu, hphase, (hon c).mp hc, hon⟩
  | outside _ _ _ _ _ hon | runnable _ _ _ _ _ hon | asleep _ _ _ _ _ hon | waking _ _ _ _ _ _ hon =>
    exact absurd hc (hon c)

/-- A task that runs its own code is on a run queue, if it is not an idle task. -/
theorem Inv.onRq_of_running (h : Inv m s) (hr : Running s p) (hplace : (s.task p).place ≠ .idle) :
    (s.task p).onRq = true := by
  have hout : ¬(s.rq (s.task p).cpu).scheduling = true := by
    rw [hr.2.2]
    exact Bool.false_ne_true
  obtain hrq | hidle := h.live (s.task p).cpu hout
  · rw [hr.1] at hrq
    exact hrq
  · rw [hr.1] at hidle
    have hplace' := (h.rq (s.task p).cpu).idle.2
    rw [← hidle] at hplace'
    exact absurd hplace' hplace

/-- A task on a run queue is not counted as uninterruptible. -/
theorem counted_of_onRq {v : Task} (h : v.onRq = true) : counted v = false := by
  rw [counted, h]
  rfl

/-- A task that sleeps counts as what it is. -/
theorem counted_asleep {v : Task} (hrq : v.onRq = false) (hstate : v.state ≠ taskWaking) :
    counted v = contributesToLoad v := by
  rw [counted, hrq, if_neg hstate]
  exact Bool.true_and _

/-- A running task may write its own fields. -/
theorem Inv.ownWrite (h : Inv m s) (hr : Running s p) (hplace : (s.task p).place ≠ .idle)
    {f : Task → Task} (hf : ∀ v, f v = { v with
      state := (f v).state, place := (f v).place, frozen := (f v).frozen })
    (hstate : (f (s.task p)).state ≠ taskWaking)
    (hplace' : (f (s.task p)).place ≠ .unborn ∧ (f (s.task p)).place ≠ .idle)
    (htold : s.cond p = true → (f (s.task p)).place = .decided → (s.task p).place = .decided ∧
      (f (s.task p)).state = (s.task p).state) : Inv m (s.updTask p f) := by
  have honrq := h.onRq_of_running hr hplace
  obtain ⟨-, -, hqueued, hphase, hon⟩ := (h.task p).status.of_onRq honrq
  have hself : (s.updTask p f).task p = f (s.task p) := Function.update_self ..
  have hrq' : (f (s.task p)).onRq = (s.task p).onRq := by rw [hf]
  have hcpu : (f (s.task p)).cpu = (s.task p).cpu := by rw [hf]
  have honcpu : (f (s.task p)).onCpu = (s.task p).onCpu := by rw [hf]
  have hqueued' : (f (s.task p)).queued = (s.task p).queued := by rw [hf]
  refine h.atTask (p := p) rfl (fun q hq => Function.update_of_ne hq ..) (fun _ _ => rfl) (fun _ _ => rfl)
    (fun _ _ => rfl) ⟨?_, ?_, ?_, ?_⟩ ⟨fun _ => ?_, fun hidle => absurd hidle hplace⟩ ?_ ?_ rfl
  · rw [hself]
    refine .runnable hplace' hstate (hrq'.trans honrq) ?_ hphase hon
    rw [hqueued', hcpu]
    exact hqueued
  · rw [hself, hcpu]
    exact fun _ => (h.task p).home hplace
  · rw [hself, hcpu, honcpu]
    exact (h.task p).onCpu
  · rw [hself]
    intro hcond howed hdec hsleep
    obtain ⟨hdec', hsame⟩ := htold hcond hdec
    rw [hsame] at hsleep
    exact (h.task p).told hcond howed hdec' hsleep
  · rw [hself, hcpu]
  · rw [hself, hrq']
  · rw [hself, counted_of_onRq honrq, counted_of_onRq (hrq'.trans honrq)]

theorem waking_ne {state : Nat} (h : state &&& taskWaking = 0) : state ≠ taskWaking := by
  rintro rfl
  exact absurd h (by decide)

/-- `p->pi_lock` is taken, released, or held further on. -/
theorem Inv.setTtwu (h : Inv m s) (phase : Phase) (owed : Bool)
    (hstatus : Status (s.task p) phase fun c => Listed s c p)
    (htold : s.cond p = true → owed = false → (s.task p).place = .decided →
      (s.task p).state &&& taskNormal ≠ 0 → phase ≠ .none) :
    Inv m { s with ttwu := Function.update s.ttwu p phase, owed := Function.update s.owed p owed } := by
  refine h.atTask (p := p) rfl (fun _ _ => rfl) (fun q hq => Function.update_of_ne hq ..) (fun _ _ => rfl)
    (fun q hq => Function.update_of_ne hq ..) ⟨?_, (h.task p).home, (h.task p).onCpu, ?_⟩
    ⟨fun _ => rfl, fun hidle => ⟨rfl, hidle⟩⟩ rfl rfl rfl
  · dsimp only
    rw [Function.update_self]
    exact hstatus
  · dsimp only
    rw [Function.update_self, Function.update_self]
    exact htold

/-- A waker may go to another phase that fits the task. -/
theorem Inv.setPhase (h : Inv m s) {phase : Phase}
    (hstatus : Status (s.task p) phase fun c => Listed s c p) (hphase : phase ≠ .none) :
    Inv m (s.setTtwu p phase) := by
  have hset := h.setTtwu phase (s.owed p) hstatus fun _ _ _ _ => hphase
  rw [Function.update_eq_self] at hset
  exact hset

/-! ## The steps of the task -/

/-- The running task may set its state. -/
theorem Inv.setState (h : Inv m s) {state : Nat} (hop : (Op.setState p state).Ok m s) :
    Inv m (exec s (.setState p state)) := by
  obtain ⟨hr, hplace, hstate⟩ := hop
  have hnot : ((if state = taskRunning then Place.busy else .set) ≠ .unborn ∧
      (if state = taskRunning then Place.busy else .set) ≠ .idle) ∧
      (if state = taskRunning then Place.busy else .set) ≠ .decided := by
    split <;> decide
  exact Inv.ownWrite h hr hplace
    (f := fun v => { v with
      state := state, place := if state = taskRunning then .busy else .set })
    (fun _ => rfl) (waking_ne hstate) hnot.1 fun _ hdec => absurd hdec hnot.2

/-- The running task may test its condition, and sleeps only if it was false. -/
theorem Inv.test (h : Inv m s) (hop : (Op.test p).Ok m s) : Inv m (exec s (.test p)) := by
  obtain ⟨hr, hset⟩ := hop
  have hplace : (s.task p).place ≠ .idle := by
    rw [hset]
    decide
  have hstate := ((h.task p).status.of_onRq (h.onRq_of_running hr hplace)).2.1
  have hbusy : (Place.busy ≠ .unborn ∧ Place.busy ≠ .idle) ∧ Place.busy ≠ .decided := by decide
  have hrun : taskRunning ≠ taskWaking := by decide
  rw [exec]
  cases hcond : s.cond p with
  | true =>
    exact Inv.ownWrite h hr hplace
      (f := fun v => if true = true then { v with state := taskRunning, place := .busy }
        else { v with place := .decided })
      (fun _ => rfl) hrun hbusy.1 fun _ hdec => absurd hdec hbusy.2
  | false =>
    refine Inv.ownWrite h hr hplace
      (f := fun v => if false = true then { v with state := taskRunning, place := .busy }
        else { v with place := .decided })
      (fun _ => rfl) hstate (by decide : Place.decided ≠ .unborn ∧ Place.decided ≠ .idle)
      fun htrue => ?_
    rw [hcond] at htrue
    cases htrue

theorem Inv.freeze (h : Inv m s) {frozen : Bool} (hop : (Op.freeze p frozen).Ok m s) :
    Inv m (exec s (.freeze p frozen)) := by
  obtain ⟨hr, hplace⟩ := hop
  obtain ⟨hplace', hstate, -⟩ := (h.task p).status.of_onRq (h.onRq_of_running hr hplace)
  exact Inv.ownWrite h hr hplace (f := fun v => { v with frozen := frozen }) (fun _ => rfl) hstate
    hplace' fun _ hdec => ⟨hdec, rfl⟩

/-- Anybody may make the condition true or false. -/
theorem Inv.setCond (h : Inv m s) (p : Pid) (cond owed : Bool) (hcond : cond = true → owed = true) :
    Inv m { s with
      cond := Function.update s.cond p cond, owed := Function.update s.owed p owed } := by
  refine h.atTask (p := p) rfl (fun _ _ => rfl) (fun _ _ => rfl)
    (fun q hq => Function.update_of_ne hq ..) (fun q hq => Function.update_of_ne hq ..)
    ⟨(h.task p).status, (h.task p).home, (h.task p).onCpu, ?_⟩
    ⟨fun _ => rfl, fun hidle => ⟨rfl, hidle⟩⟩ rfl rfl rfl
  dsimp only
  rw [Function.update_self, Function.update_self]
  intro htrue hfalse
  rw [hcond htrue] at hfalse
  cases hfalse

/-! ## The steps of a waker -/

/-- A waker may take `pi_lock` and find the state to match. -/
theorem Inv.ttwuStart (h : Inv m s) {mode : Nat} (hop : (Op.ttwuStart p mode).Ok m s) :
    Inv m (exec s (.ttwuStart p mode)) := by
  obtain ⟨hfree, hmode⟩ := hop
  -- the call that was owed may be this one
  obtain ⟨owed, howed, hs⟩ : ∃ owed, (owed = s.owed p ∨ mode = taskNormal) ∧
      (if mode = taskNormal then { s with owed := Function.update s.owed p false } else s) =
        { s with owed := Function.update s.owed p owed } := by
    by_cases hnormal : mode = taskNormal
    · exact ⟨false, .inr hnormal, by rw [if_pos hnormal]⟩
    · exact ⟨s.owed p, .inl rfl, by rw [if_neg hnormal, Function.update_eq_self]⟩
  rw [exec, Wakeup.ttwuStart, hs]
  dsimp only
  split
  next hmiss =>
    have hset := h.setTtwu .none owed (hfree ▸ (h.task p).status) ?_
    · rw [← hfree, Function.update_eq_self] at hset
      exact hset
    · intro hcond hnot hdec hsleep
      rcases howed with rfl | rfl
      · exact absurd hfree ((h.task p).told hcond hnot hdec hsleep)
      · exact absurd hmiss hsleep
  next hhit =>
    refine h.setTtwu .matched owed ?_ fun _ _ _ _ => by decide
    have hstatus := (h.task p).status
    have hrun : (s.task p).state ≠ taskRunning := fun heq => hhit (by rw [heq]; exact Nat.zero_and mode)
    have hwaking : (s.task p).state ≠ taskWaking := fun heq => hhit (by rw [heq, Nat.and_comm]; exact hmode)
    cases hstatus with
    | outside _ hstate => exact absurd hstate hrun
    | runnable hplace hstate hrq hqueued _ hon =>
      exact .runnable hplace hstate hrq hqueued ⟨by decide, by decide⟩ hon
    | asleep hplace hstate hrq hqueued _ hon =>
      exact .asleep hplace hstate hrq hqueued (by decide) hon
    | waking _ hstate | listed _ hstate => exact absurd hstate hwaking

/-- The waker goes on with a task on a run queue, or with one that is off it. -/
theorem Inv.goesOn (h : Inv m s) {phase : Phase} (hnow : s.ttwu p = .matched ∨ s.ttwu p = .remote)
    (hphase : phase = .remote ∧ (s.task p).onRq = true ∨ phase = .offCpu ∧ (s.task p).onRq = false) :
    Inv m (s.setTtwu p phase) := by
  rcases hphase with ⟨rfl, hrq⟩ | ⟨rfl, hrq⟩
  · obtain ⟨hplace, hstate, hqueued, -, hon⟩ := (h.task p).status.of_onRq hrq
    refine h.setPhase ?_ (by decide)
    exact .runnable hplace hstate hrq hqueued ⟨by decide, by decide⟩ hon
  · have hne : s.ttwu p ≠ .none ∧ s.ttwu p ≠ .queue := by
      rcases hnow with heq | heq <;> rw [heq] <;> decide
    obtain ⟨hplace, hstate, hqueued, hon⟩ := (h.task p).status.of_off hrq hne.1 hne.2
    refine h.setPhase ?_ (by decide)
    exact .asleep hplace hstate hrq hqueued (by decide) hon

/-- Finding the task on a run queue ends the wakeup there. -/
theorem Inv.ttwuOnRq (h : Inv m s) (hop : (Op.ttwuOnRq p).Ok m s) : Inv m (exec s (.ttwuOnRq p)) := by
  refine h.goesOn (.inl hop) ?_
  cases hrq : (s.task p).onRq with
  | true => exact .inl ⟨if_pos rfl, rfl⟩
  | false => exact .inr ⟨if_neg Bool.false_ne_true, rfl⟩

/-- A task on a run queue is running again. -/
theorem Inv.doWakeup (h : Inv m s) (hrq : (s.task p).onRq = true) : Inv m (ttwuDoWakeup s p) := by
  obtain ⟨hplace, -, hqueued, hphase, hon⟩ := (h.task p).status.of_onRq hrq
  have hself : (ttwuDoWakeup s p).task p = { s.task p with state := taskRunning } :=
    Function.update_self ..
  have hnot : taskRunning ≠ taskWaking := by decide
  refine h.atTask (p := p) rfl (fun q hq => Function.update_of_ne hq ..) (fun _ _ => rfl)
    (fun _ _ => rfl) (fun _ _ => rfl) ⟨?_, ?_, ?_, ?_⟩
    ⟨fun _ => ?_, fun hidle => absurd hidle hplace.2⟩ ?_ ?_ rfl
  · rw [hself]
    exact .runnable hplace hnot hrq hqueued hphase hon
  · rw [hself]
    exact (h.task p).home
  · rw [hself]
    exact (h.task p).onCpu
  · rw [hself]
    exact fun _ _ _ hsleep => absurd (Nat.zero_and _) hsleep
  · rw [hself]
  · rw [hself]
  · rw [hself, counted_of_onRq hrq]
    exact counted_of_onRq hrq

/-- Finding the task off the run queues, the waker goes on. -/
theorem Inv.ttwuRemote (h : Inv m s) (hop : (Op.ttwuRemote p).Ok m s) :
    Inv m (exec s (.ttwuRemote p)) := by
  rw [exec, Wakeup.ttwuRemote]
  split
  next hrq =>
    have hwoken := h.doWakeup hrq
    have hself : (ttwuDoWakeup s p).task p = { s.task p with state := taskRunning } :=
      Function.update_self ..
    have hrq' : ((ttwuDoWakeup s p).task p).onRq = true := by
      rw [hself]
      exact hrq
    obtain ⟨hplace, hstate, hqueued, -, hon⟩ := (hwoken.task p).status.of_onRq hrq'
    have hset := hwoken.setTtwu .none (s.owed p)
      (.runnable hplace hstate hrq' hqueued (by decide : Phase.none ≠ .offCpu ∧ Phase.none ≠ .queue) hon)
      fun _ _ _ hsleep => absurd (by rw [hself]; exact Nat.zero_and _) hsleep
    rw [show (ttwuDoWakeup s p).owed = s.owed from rfl, Function.update_eq_self] at hset
    exact hset
  next hrq => exact h.goesOn (.inr hop.1) (.inr ⟨rfl, (Bool.not_eq_true _).mp hrq⟩)

/-- A task in `TASK_WAKING` does not contribute to the load. -/
theorem contributes_waking {v : Task} (h : v.state = taskWaking) : contributesToLoad v = false := by
  have hmask : taskWaking &&& taskUninterruptible = 0 := by decide
  rw [contributesToLoad, h, hmask]
  rfl

/-- Once the task is off its CPU the waker may choose another. -/
theorem Inv.ttwuOffCpu (h : Inv m s) (hop : (Op.ttwuOffCpu p dest).Ok m s) :
    Inv m (exec s (.ttwuOffCpu p dest)) := by
  obtain ⟨hnow, hcpu, hdest⟩ := hop
  have hrq : (s.task p).onRq = false := by
    by_contra hon
    exact ((h.task p).status.of_onRq ((Bool.not_eq_false _).mp hon)).2.2.2.1.1 hnow
  have hne : s.ttwu p ≠ .none ∧ s.ttwu p ≠ .queue := by rw [hnow]; decide
  obtain ⟨hplace, hstate, hqueued, hon⟩ := (h.task p).status.of_off hrq hne.1 hne.2
  have hself : (exec s (.ttwuOffCpu p dest)).task p = { s.task p with
      contributes := contributesToLoad (s.task p), state := taskWaking, cpu := dest } :=
    Function.update_self ..
  have hphase : (exec s (.ttwuOffCpu p dest)).ttwu p = .queue := Function.update_self ..
  have hidle : (s.task p).place ≠ .idle := by
    rw [hplace]
    decide
  refine h.atTask (p := p) rfl (fun q hq => Function.update_of_ne hq ..)
    (fun q hq => Function.update_of_ne hq ..) (fun _ _ => rfl) (fun _ _ => rfl) ⟨?_, ?_, ?_, ?_⟩
    (Stays.of_off hcpu hidle) ?_ ?_ rfl
  · rw [hself, hphase]
    exact .waking hplace rfl hrq hqueued hcpu rfl hon
  · rw [hself]
    exact fun _ => hdest
  · rw [hself]
    have hnot := InvBut.not_at h hcpu dest
    refine iff_of_false ?_ (not_or.mpr hnot)
    dsimp only
    rw [hcpu]
    exact Bool.false_ne_true
  · rw [hphase]
    exact fun _ _ _ _ => by decide
  · rw [hself]
  · rw [hself, counted, counted, if_pos rfl, if_neg hstate.2]

/-! ## Counters and lists -/

/-- Adding to a counter touches one CPU. -/
theorem addNr_rq (s : State) (c : Cpu) (k : Int) (d : Cpu) : (s.addNr c k).rq d = { s.rq d with
    nrUninterruptible := (s.rq d).nrUninterruptible + if d = c then k else 0 } := by
  by_cases hd : d = c
  · subst hd
    rw [State.addNr, State.updRq, if_pos rfl]
    exact Function.update_self ..
  · rw [State.addNr, State.updRq, if_neg hd, Int.add_zero]
    exact Function.update_of_ne hd ..

/-- If one counter goes up by `k`, so does the sum. -/
theorem total_add {k : Int} (hc : c ∈ m.cpus) (h : ∀ d, (t.rq d).nrUninterruptible =
    (s.rq d).nrUninterruptible + if d = c then k else 0) : total m t = total m s + k := by
  rw [total, total, Finset.sum_congr rfl fun d _ => h d, Finset.sum_add_distrib,
    Finset.sum_ite_eq' m.cpus c, if_pos hc]

theorem load_false : load false = 0 := rfl

/-- What queueing a task that is off its run queue leaves to be shown. -/
theorem Inv.activate (h : Inv m s) {v : Task} {k : Int} (htask : t.task = Function.update s.task p v)
    (httwu : ∀ q, q ≠ p → t.ttwu q = s.ttwu q) (hcond : t.cond = s.cond) (howed : t.owed = s.owed)
    (hcurr : ∀ d, (t.rq d).curr = (s.rq d).curr) (hprev : ∀ d, (t.rq d).prev = (s.rq d).prev)
    (hsched : ∀ d, (t.rq d).scheduling = (s.rq d).scheduling)
    (hlisted : ∀ d q, q ≠ p → (Listed t d q ↔ Listed s d q)) (hnot : ∀ d, ¬Listed t d p)
    (hnodup : ∀ d, ((t.rq d).wakeList ++ (t.rq d).pending).Nodup)
    (hipi : ∀ d, (t.rq d).wakeList ≠ [] → (t.rq d).ipi = true)
    (hnr : ∀ d, (t.rq d).nrUninterruptible = (s.rq d).nrUninterruptible + if d = v.cpu then k else 0)
    (hbug : t.bug = s.bug) (hcpu : (s.task p).onCpu = false) (hidle : (s.task p).place ≠ .idle)
    (hcount : k = -load (counted (s.task p))) (hv : v.onRq = true ∧ v.queued = some v.cpu ∧
      v.state = taskRunning ∧ v.onCpu = false ∧ v.place ≠ .unborn ∧ v.place ≠ .idle)
    (hhome : v.cpu ∈ m.cpus) (hphase : t.ttwu p ≠ .offCpu ∧ t.ttwu p ≠ .queue) : Inv m t := by
  obtain ⟨hrq, hqueued, hstate, honcpu, hplace⟩ := hv
  have hself : t.task p = v := by
    rw [htask]
    exact Function.update_self ..
  have hwaking : v.state ≠ taskWaking := by
    rw [hstate]
    decide
  refine InvBut.near h ⟨fun q hq => ?_, httwu, fun q _ => by rw [hcond], fun q _ => by rw [howed],
    hcurr, hprev, hsched, hlisted⟩ ⟨?_, ?_, ?_, ?_⟩ ?_ (live_of_same hsched fun _ _ _ => ?_) hnodup hipi ?_
    (hbug.trans h.bug)
  · rw [htask]
    exact Function.update_of_ne hq ..
  · rw [hself]
    exact .runnable hplace hwaking hrq hqueued hphase hnot
  · rw [hself]
    exact fun _ => hhome
  · rw [hself, hcurr, hprev, honcpu]
    exact iff_of_false Bool.false_ne_true (not_or.mpr (InvBut.not_at h hcpu v.cpu))
  · rw [hself, hstate]
    exact fun _ _ _ hsleep => absurd (Nat.zero_and _) hsleep
  · exact Stays.of_off hcpu hidle
  · rw [hself]
    exact hrq
  · rw [total_add hhome hnr, hself, counted_of_onRq hrq, hcount, load_false]
    omega

/-- Activating a task without a change of any list keeps the invariant. -/
theorem Inv.activateHere (h : Inv m s) {v : Task} {k : Int}
    (htask : t.task = Function.update s.task p v) (httwu : ∀ q, q ≠ p → t.ttwu q = s.ttwu q)
    (hcond : t.cond = s.cond) (howed : t.owed = s.owed)
    (hrq : ∀ d, t.rq d = { s.rq d with
      nrUninterruptible := (s.rq d).nrUninterruptible + if d = v.cpu then k else 0 })
    (hnot : ∀ d, ¬Listed s d p)
    (hbug : t.bug = s.bug) (hcpu : (s.task p).onCpu = false) (hidle : (s.task p).place ≠ .idle)
    (hcount : k = -load (counted (s.task p))) (hv : v.onRq = true ∧ v.queued = some v.cpu ∧
      v.state = taskRunning ∧ v.onCpu = false ∧ v.place ≠ .unborn ∧ v.place ≠ .idle)
    (hhome : v.cpu ∈ m.cpus) (hphase : t.ttwu p ≠ .offCpu ∧ t.ttwu p ≠ .queue) : Inv m t := by
  have hlisted : ∀ d q, Listed t d q ↔ Listed s d q := fun d q => by rw [Listed, Listed, hrq]
  refine h.activate htask httwu hcond howed (fun d => by rw [hrq]) (fun d => by rw [hrq])
    (fun d => by rw [hrq]) (fun d q _ => hlisted d q) (fun d hl => hnot d ((hlisted d p).mp hl))
    (fun d => ?_) (fun d => ?_) (fun d => by rw [hrq]) hbug hcpu hidle hcount hv hhome hphase
  · rw [hrq]
    exact (h.rq d).nodup
  · rw [hrq]
    exact (h.rq d).ipi

section Activate

theorem updTask_self (f : Task → Task) : (s.updTask p f).task p = f (s.task p) :=
  Function.update_self ..

theorem activateTask_task : (activateTask s c p).task =
    Function.update s.task p { s.task p with queued := some c } := rfl

theorem ttwuActivate_task : (ttwuActivate s c p).task =
    Function.update s.task p { s.task p with queued := some c, onRq := true } := by
  rw [ttwuActivate, State.updTask, activateTask_task, Function.update_self, Function.update_idem]

theorem ttwuDoActivate_task : (ttwuDoActivate s c p).task =
    Function.update s.task p { s.task p with queued := some c, onRq := true, state := taskRunning } := by
  rw [ttwuDoActivate, ttwuDoWakeup, State.updTask, ttwuActivate_task, Function.update_self,
    Function.update_idem]
  rfl

theorem activateTask_rq (d : Cpu) : (activateTask s c p).rq d = { s.rq d with
    nrUninterruptible := (s.rq d).nrUninterruptible +
      if d = c then -load (contributesToLoad (s.task p)) else 0 } := addNr_rq s c _ d

/-- A task that is being woken is taken off the counter once. -/
theorem ttwuDoActivate_rq (hstate : (s.task p).state = taskWaking) (d : Cpu) :
    (ttwuDoActivate s c p).rq d = { s.rq d with
      nrUninterruptible := (s.rq d).nrUninterruptible +
        if d = c then -load (s.task p).contributes else 0 } := by
  have hbefore : (ttwuDoActivate s c p).rq d = (activateTask (s.addNr c (-load (s.task p).contributes))
    c p).rq d := rfl
  have hzero : -load (contributesToLoad ((s.addNr c (-load (s.task p).contributes)).task p)) = 0 := by
    rw [show (s.addNr c (-load (s.task p).contributes)).task = s.task from rfl, contributes_waking hstate]
    rfl
  rw [hbefore, activateTask_rq, hzero, addNr_rq, ite_self, Int.add_zero]

/-- Activating a task that is queued nowhere is no bug. -/
theorem activateTask_bug (hqueued : (s.task p).queued = none) : (activateTask s c p).bug = s.bug := by
  have hbug : (activateTask s c p).bug = (s.bug || (s.task p).queued.isSome) := rfl
  rw [hbug, hqueued]
  exact Bool.or_false _

end Activate

/-- A task that is being woken counts as what it was. -/
theorem counted_waking {v : Task} (hstate : v.state = taskWaking) (hrq : v.onRq = false) :
    counted v = v.contributes := by
  rw [counted, hrq, if_pos hstate]
  exact Bool.true_and _

/-- The waker may hand the task to its CPU. -/
theorem Inv.ttwuQueue (h : Inv m s) (hop : (Op.ttwuQueue p).Ok m s) : Inv m (exec s (.ttwuQueue p)) := by
  have hstatus := (h.task p).status
  rw [hop.1] at hstatus
  obtain ⟨hplace, hstate, hrq, hqueued, hcpu, hon⟩ := hstatus.of_queue
  have hphase : (exec s (.ttwuQueue p)).ttwu p = .none := Function.update_self ..
  have hidle : (s.task p).place ≠ .unborn ∧ (s.task p).place ≠ .idle := by
    rw [hplace]
    decide
  refine h.activateHere (p := p) (k := -load (s.task p).contributes) (ttwuDoActivate_task)
    (fun q hq => Function.update_of_ne hq ..) rfl rfl (ttwuDoActivate_rq hstate) hon
    (activateTask_bug hqueued) hcpu hidle.2 (by rw [counted_waking hstate hrq])
    ⟨rfl, rfl, rfl, hcpu, hidle⟩ ((h.task p).home hidle.2) ?_
  rw [hphase]
  decide

/-- One turn of the handler queues the first of the tasks that it has taken. -/
theorem Inv.ttwuPending (h : Inv m s) (c : Cpu) : Inv m (exec s (.ttwuPending c)) := by
  rw [exec, Wakeup.ttwuPending]
  cases hpending : (s.rq c).pending with
  | nil => exact h
  | cons p l =>
    have hin : Listed s c p := .inr (by rw [hpending]; exact List.mem_cons_self)
    obtain ⟨hplace, hstate, hrq, hqueued, hcpu, hphase, hhome, hon⟩ := (h.task p).status.of_on hin
    have hidle : (s.task p).place ≠ .unborn ∧ (s.task p).place ≠ .idle := by
      rw [hplace]
      decide
    have hself : (s.updRq c fun r => { r with pending := l }).rq c = { s.rq c with pending := l } :=
      Function.update_self ..
    have hother : ∀ d, d ≠ c → (s.updRq c fun r => { r with pending := l }).rq d = s.rq d :=
      fun d hd => Function.update_of_ne hd ..
    have hnodup := (h.rq c).nodup
    rw [hpending, List.nodup_middle] at hnodup
    obtain ⟨hnot, hrest⟩ := List.nodup_cons.mp hnodup
    obtain ⟨u, hu⟩ : ∃ u, u = s.updRq c fun r => { r with pending := l } := ⟨_, rfl⟩
    have hutask : u.task = s.task := by rw [hu]; rfl
    have hustate : (u.task p).state = taskWaking := by rw [hutask]; exact hstate
    have hact := ttwuDoActivate_rq (c := c) hustate
    dsimp only
    rw [← hu] at hself hother ⊢
    -- the lists after it
    have hlists : ∀ d, ((ttwuDoActivate u c p).rq d).wakeList = (s.rq d).wakeList ∧
        ((ttwuDoActivate u c p).rq d).pending = if d = c then l else (s.rq d).pending := by
      intro d
      rw [hact]
      by_cases hd : d = c
      · rw [hd, hself]
        exact ⟨rfl, (if_pos rfl).symm⟩
      · rw [hother d hd]
        exact ⟨rfl, (if_neg hd).symm⟩
    have hcurr : ∀ d, ((ttwuDoActivate u c p).rq d).curr = (s.rq d).curr ∧
        ((ttwuDoActivate u c p).rq d).prev = (s.rq d).prev ∧
        ((ttwuDoActivate u c p).rq d).scheduling = (s.rq d).scheduling ∧
        ((ttwuDoActivate u c p).rq d).ipi = (s.rq d).ipi ∧
        ((ttwuDoActivate u c p).rq d).nrUninterruptible =
          (s.rq d).nrUninterruptible + if d = c then -load (s.task p).contributes else 0 := by
      intro d
      rw [hact, hutask]
      by_cases hd : d = c
      · rw [hd, hself]
        exact ⟨rfl, rfl, rfl, rfl, rfl⟩
      · rw [hother d hd]
        exact ⟨rfl, rfl, rfl, rfl, rfl⟩
    refine h.activate (v := { s.task p with queued := some c, onRq := true, state := taskRunning })
      (p := p) (k := -load (s.task p).contributes) ?_ (fun q hq => ?_) ?_ ?_ (fun d => (hcurr d).1)
      (fun d => (hcurr d).2.1) (fun d => (hcurr d).2.2.1) (fun d q hq => ?_) (fun d hl => ?_)
      (fun d => ?_) (fun d => ?_) (fun d => ?_) ?_ hcpu hidle.2 (by rw [counted_waking hstate hrq]) ⟨rfl, ?_, rfl, hcpu, hidle⟩
      ((h.task p).home hidle.2) ?_
    · rw [ttwuDoActivate_task, hutask]
    · rw [hu]
      rfl
    · rw [hu]
      rfl
    · rw [hu]
      rfl
    · rw [Listed, Listed, (hlists d).1, (hlists d).2]
      by_cases hd : d = c
      · rw [if_pos hd, hd, hpending, List.mem_cons, or_iff_right hq]
      · rw [if_neg hd]
    · rw [Listed, (hlists d).1, (hlists d).2] at hl
      by_cases hd : d = c
      · rw [if_pos hd, hd] at hl
        exact hnot (List.mem_append.mpr hl)
      · rw [if_neg hd] at hl
        exact hd (((hon d).mp hl).trans hhome.symm)
    · rw [(hlists d).1, (hlists d).2]
      by_cases hd : d = c
      · rw [if_pos hd, hd]
        exact hrest
      · rw [if_neg hd]
        exact (h.rq d).nodup
    · rw [(hlists d).1, (hcurr d).2.2.2.1]
      exact (h.rq d).ipi
    · rw [(hcurr d).2.2.2.2]
      dsimp only
      rw [hhome]
    · have hbug : (ttwuDoActivate u c p).bug = (u.bug || (u.task p).queued.isSome) := rfl
      rw [hbug, hutask, hqueued, hu]
      exact Bool.or_false _
    · dsimp only
      rw [hhome]
    · have hsame : (ttwuDoActivate u c p).ttwu p = s.ttwu p := by rw [hu]; rfl
      rw [hsame, hphase]
      decide

theorem Inv.tryToWakeUpLocal (h : Inv m s) (hop : (Op.tryToWakeUpLocal c p).Ok m s) :
    Inv m (exec s (.tryToWakeUpLocal c p)) := by
  obtain ⟨hphase, -, hfree, hhome, hcurr⟩ := hop
  rw [← hhome] at hfree hcurr
  have hcpu := InvBut.off_of_free h hfree hcurr
  rw [exec, Wakeup.tryToWakeUpLocal]
  split
  next => exact h
  next hsleep =>
    have hrun : (s.task p).state ≠ taskRunning := fun heq => hsleep (by rw [heq]; exact Nat.zero_and _)
    have hwaking : (s.task p).state ≠ taskWaking := fun heq => hsleep (by rw [heq]; decide)
    by_cases hrq : (s.task p).onRq = true
    · rw [if_pos hrq]
      exact h.doWakeup hrq
    · rw [if_neg hrq]
      have hoff : (s.task p).onRq = false := (Bool.not_eq_true _).mp hrq
      obtain ⟨hplace, hqueued, hon⟩ : (s.task p).place = .decided ∧ (s.task p).queued = none ∧
          ∀ d, ¬Listed s d p := by
        have hstatus := (h.task p).status
        cases hstatus with
        | asleep hplace _ _ hqueued _ hon => exact ⟨hplace, hqueued, hon⟩
        | outside _ hstate => exact absurd hstate hrun
        | runnable _ _ hon => exact absurd hon hrq
        | waking _ hstate | listed _ hstate => exact absurd hstate hwaking
      have hidle : (s.task p).place ≠ .unborn ∧ (s.task p).place ≠ .idle := by
        rw [hplace]
        decide
      have hcount := counted_asleep hoff hwaking
      have htask : (ttwuDoWakeup (ttwuActivate s c p) p).task = Function.update s.task p
          { s.task p with queued := some c, onRq := true, state := taskRunning } := by
        rw [ttwuDoWakeup, State.updTask, ttwuActivate_task, Function.update_self, Function.update_idem]
      refine h.activateHere (p := p) (k := -load (contributesToLoad (s.task p))) htask (fun _ _ => rfl)
        rfl rfl (fun d => ?_) hon (activateTask_bug hqueued) hcpu hidle.2 (by rw [hcount])
        ⟨rfl, ?_, rfl, hcpu, hidle⟩ ((h.task p).home hidle.2) ?_
      · dsimp only
        rw [hhome]
        exact activateTask_rq d
      · dsimp only
        rw [hhome]
      · show s.ttwu p ≠ .offCpu ∧ s.ttwu p ≠ .queue
        rw [hphase]
        decide

theorem Inv.wakeUpNewTask (h : Inv m s) (hop : (Op.wakeUpNewTask p c).Ok m s) :
    Inv m (exec s (.wakeUpNewTask p c)) := by
  obtain ⟨hplace, hphase, -, hhome⟩ := hop
  obtain ⟨hcpu, hstate, hrq, hqueued, hon⟩ : (s.task p).onCpu = false ∧
      (s.task p).state = taskRunning ∧ (s.task p).onRq = false ∧ (s.task p).queued = none ∧
      ∀ d, ¬Listed s d p := by
    have hstatus := (h.task p).status
    cases hstatus with
    | outside hout hstate hrq hqueued _ hon =>
      refine ⟨?_, hstate, hrq, hqueued, hon⟩
      rcases hout with hunborn | hidle
      · exact hunborn.2
      · rw [hplace] at hidle
        cases hidle
    | runnable hnot => exact absurd hplace hnot.1
    | asleep hdec | waking hdec | listed hdec =>
      rw [hplace] at hdec
      cases hdec
  have hidle : (s.task p).place ≠ .idle := by
    rw [hplace]
    decide
  have hzero : contributesToLoad (s.task p) = false := by
    rw [contributesToLoad, hstate]
    rfl
  have hwaking : (s.task p).state ≠ taskWaking := by
    rw [hstate]
    decide
  have hcount : counted (s.task p) = false := (counted_asleep hrq hwaking).trans hzero
  have hbusy : Place.busy ≠ .unborn ∧ Place.busy ≠ .idle := by decide
  have htask : (exec s (.wakeUpNewTask p c)).task = Function.update s.task p
      { s.task p with cpu := c, queued := some c, onRq := true, place := .busy } := by
    rw [exec, Wakeup.wakeUpNewTask, State.updTask, activateTask_task]
    simp only [State.updTask, Function.update_self, Function.update_idem]
  refine h.activateHere (p := p) (k := 0) htask (fun _ _ => rfl) rfl rfl (fun d => ?_) hon ?_ hcpu hidle
    ?_ ⟨rfl, rfl, hstate, hcpu, hbusy⟩ hhome ?_
  · have hact := activateTask_rq (s := s.updTask p fun t => { t with cpu := c }) (c := c) (p := p) d
    have hzero' : contributesToLoad ((s.updTask p fun t => { t with cpu := c }).task p) = false := by
      rw [updTask_self]
      exact hzero
    rw [hzero', load_false, Int.neg_zero] at hact
    exact hact
  · refine activateTask_bug ?_
    rw [updTask_self]
    exact hqueued
  · rw [hcount]
    rfl
  · show s.ttwu p ≠ .offCpu ∧ s.ttwu p ≠ .queue
    rw [hphase]
    decide

theorem Inv.ttwuQueueRemote (h : Inv m s) (hop : (Op.ttwuQueueRemote p).Ok m s) :
    Inv m (exec s (.ttwuQueueRemote p)) := by
  have hstatus := (h.task p).status
  have hphase : s.ttwu p = .queue := hop
  rw [hphase] at hstatus
  obtain ⟨hplace, hstate, hrq, hqueued, hcpu, hon⟩ := hstatus.of_queue
  have hself : (exec s (.ttwuQueueRemote p)).rq (s.task p).cpu = { s.rq (s.task p).cpu with
      wakeList := p :: (s.rq (s.task p).cpu).wakeList
      ipi := (s.rq (s.task p).cpu).ipi || (s.rq (s.task p).cpu).wakeList.isEmpty } :=
    Function.update_self ..
  have hother : ∀ d, d ≠ (s.task p).cpu → (exec s (.ttwuQueueRemote p)).rq d = s.rq d :=
    fun d hd => Function.update_of_ne hd ..
  have hnone : (exec s (.ttwuQueueRemote p)).ttwu p = .none := Function.update_self ..
  have hsame : ∀ d, ((exec s (.ttwuQueueRemote p)).rq d).curr = (s.rq d).curr ∧
      ((exec s (.ttwuQueueRemote p)).rq d).prev = (s.rq d).prev ∧
      ((exec s (.ttwuQueueRemote p)).rq d).scheduling = (s.rq d).scheduling ∧
      ((exec s (.ttwuQueueRemote p)).rq d).nrUninterruptible = (s.rq d).nrUninterruptible := by
    intro d
    by_cases hd : d = (s.task p).cpu
    · rw [hd, hself]
      exact ⟨rfl, rfl, rfl, rfl⟩
    · rw [hother d hd]
      exact ⟨rfl, rfl, rfl, rfl⟩
  have hlisted : ∀ d q, Listed (exec s (.ttwuQueueRemote p)) d q ↔
      Listed s d q ∨ d = (s.task p).cpu ∧ q = p := by
    intro d q
    by_cases hd : d = (s.task p).cpu
    · rw [Listed, Listed, hd, hself, List.mem_cons]
      simp only [true_and]
      exact ⟨fun hl => by rcases hl with (hl | hl) | hl <;> simp [hl],
        fun hl => by rcases hl with (hl | hl) | hl <;> simp [hl]⟩
    · rw [Listed, Listed, hother d hd]
      exact (or_iff_left fun hl => hd hl.1).symm
  refine InvBut.near h (p := p) ⟨fun _ _ => rfl, fun q hq => Function.update_of_ne hq .., fun _ _ => rfl,
    fun _ _ => rfl, fun d => (hsame d).1, fun d => (hsame d).2.1, fun d => (hsame d).2.2.1,
    fun d q hq => ?_⟩
    ⟨?_, (h.task p).home, ?_, fun _ _ _ hsleep => ?_⟩ ⟨fun _ => rfl, fun hidle => ⟨rfl, hidle⟩⟩
    (live_of_same (fun d => (hsame d).2.2.1) fun _ _ hon => hon) (fun d => ?_) (fun d hne => ?_) ?_ h.bug
  · rw [hlisted]
    exact or_iff_left fun hl => hq hl.2
  · rw [hnone]
    refine .listed hplace hstate hrq hqueued hcpu rfl fun d => ?_
    rw [hlisted, or_iff_right (hon d), and_iff_left rfl]
    rfl
  · rw [(hsame _).1, (hsame _).2.1]
    exact (h.task p).onCpu
  · refine absurd ?_ hsleep
    show (s.task p).state &&& taskNormal = 0
    rw [hstate]
    decide
  · by_cases hd : d = (s.task p).cpu
    · rw [hd, hself]
      refine List.nodup_cons.mpr ⟨fun hmem => ?_, (h.rq _).nodup⟩
      exact hon (s.task p).cpu (List.mem_append.mp hmem)
    · rw [hother d hd]
      exact (h.rq d).nodup
  · by_cases hd : d = (s.task p).cpu
    · rw [hd, hself]
      dsimp only
      cases hlist : (s.rq (s.task p).cpu).wakeList with
      | nil => exact Bool.or_true _
      | cons q l =>
        rw [(h.rq _).ipi (by rw [hlist]; exact List.cons_ne_nil q l)]
        exact Bool.true_or _
    · rw [hother d hd] at hne ⊢
      exact (h.rq d).ipi hne
  · have htotal : total m (exec s (.ttwuQueueRemote p)) = total m s :=
      Finset.sum_congr rfl fun d _ => (hsame d).2.2.2
    rw [htotal]
    show _ = _ + load (counted (s.task p)) - load (counted (s.task p))
    omega

/-- A step that changes no task: the lists of `c` are passed on, or counters are moved. -/
theorem Inv.sameTasks (h : Inv m s) (htask : t.task = s.task) (httwu : t.ttwu = s.ttwu)
    (hcond : t.cond = s.cond) (howed : t.owed = s.owed) (hcurr : ∀ d, (t.rq d).curr = (s.rq d).curr)
    (hprev : ∀ d, (t.rq d).prev = (s.rq d).prev)
    (hsched : ∀ d, (t.rq d).scheduling = (s.rq d).scheduling)
    (hlisted : ∀ d q, Listed t d q ↔ Listed s d q)
    (hnodup : ∀ d, ((t.rq d).wakeList ++ (t.rq d).pending).Nodup)
    (hipi : ∀ d, (t.rq d).wakeList ≠ [] → (t.rq d).ipi = true) (htotal : total m t = total m s)
    (hbug : t.bug = s.bug) : Inv m t := by
  have hnear : ∀ p, Near s t p := fun p => ⟨fun _ _ => by rw [htask], fun _ _ => by rw [httwu],
    fun _ _ => by rw [hcond], fun _ _ => by rw [howed], hcurr, hprev, hsched, fun d q _ => hlisted d q⟩
  have hzero : TaskOk m t 0 := (h.task 0).frame (hnear 1) Nat.zero_ne_one
  refine InvBut.near h (hnear 0) hzero ?_ (live_of_same hsched fun _ _ hon => ?_) hnodup hipi ?_
    (hbug.trans h.bug)
  · rw [htask]
    exact ⟨fun _ => rfl, fun hidle => ⟨rfl, hidle⟩⟩
  · rw [htask]
    exact hon
  · rw [htotal, htask]
    omega

theorem Inv.schedulerIpi (h : Inv m s) (hop : (Op.schedulerIpi c).Ok m s) :
    Inv m (exec s (.schedulerIpi c)) := by
  have hpending : (s.rq c).pending = [] := hop.2.1
  have hself : (exec s (.schedulerIpi c)).rq c = { s.rq c with
      ipi := false, pending := (s.rq c).wakeList, wakeList := [] } := Function.update_self ..
  have hother : ∀ d, d ≠ c → (exec s (.schedulerIpi c)).rq d = s.rq d :=
    fun d hd => Function.update_of_ne hd ..
  have hsame : ∀ d, ((exec s (.schedulerIpi c)).rq d).curr = (s.rq d).curr ∧
      ((exec s (.schedulerIpi c)).rq d).prev = (s.rq d).prev ∧
      ((exec s (.schedulerIpi c)).rq d).scheduling = (s.rq d).scheduling ∧
      ((exec s (.schedulerIpi c)).rq d).nrUninterruptible = (s.rq d).nrUninterruptible := by
    intro d
    by_cases hd : d = c
    · rw [hd, hself]
      exact ⟨rfl, rfl, rfl, rfl⟩
    · rw [hother d hd]
      exact ⟨rfl, rfl, rfl, rfl⟩
  refine h.sameTasks rfl rfl rfl rfl (fun d => (hsame d).1) (fun d => (hsame d).2.1)
    (fun d => (hsame d).2.2.1) (fun d q => ?_) (fun d => ?_) (fun d hne => ?_)
    (Finset.sum_congr rfl fun d _ => (hsame d).2.2.2) rfl
  · by_cases hd : d = c
    · rw [Listed, Listed, hd, hself, hpending]
      exact or_comm
    · rw [Listed, Listed, hother d hd]
  · by_cases hd : d = c
    · rw [hd, hself]
      exact List.Nodup.of_append_left (h.rq c).nodup
    · rw [hother d hd]
      exact (h.rq d).nodup
  · by_cases hd : d = c
    · rw [hd, hself] at hne
      exact absurd rfl hne
    · rw [hother d hd] at hne ⊢
      exact (h.rq d).ipi hne

theorem Inv.migrateTask (h : Inv m s) {counting : Bool}
    (hop : (Op.migrateTask p dest counting).Ok m s) : Inv m (exec s (.migrateTask p dest counting)) := by
  obtain ⟨hrq, hcurr, hfree, -, hdest⟩ := hop
  obtain ⟨hplace, hstate, hqueued, hphase, hon⟩ := (h.task p).status.of_onRq hrq
  have hcpu := InvBut.off_of_free h hfree hcurr
  obtain ⟨k, hk⟩ : ∃ k, k = if counting then load (contributesToLoad (s.task p)) else 0 := ⟨_, rfl⟩
  have htask : (exec s (.migrateTask p dest counting)).task = Function.update s.task p
      { s.task p with queued := some dest, cpu := dest } := by
    rw [exec, Wakeup.migrateTask]
    simp only [dequeueTask, enqueueTask, State.bugOn, State.addNr, State.updRq, State.updTask,
      Function.update_self, Function.update_idem]
  have hself : (exec s (.migrateTask p dest counting)).task p =
      { s.task p with queued := some dest, cpu := dest } := by
    rw [htask]
    exact Function.update_self ..
  have hrqs : ∀ d, (exec s (.migrateTask p dest counting)).rq d =
      ((s.addNr (s.task p).cpu k).addNr dest (-k)).rq d := by
    intro d
    rw [hk]
    rfl
  have hbug : (exec s (.migrateTask p dest counting)).bug = false := by
    rw [exec, Wakeup.migrateTask]
    simp [dequeueTask, enqueueTask, State.bugOn, State.addNr, State.updRq, State.updTask, h.bug, hqueued]
  refine InvBut.atQueue h (p := p) (fun d => ?_) (fun q hq => ?_) (fun _ _ => rfl) (fun _ _ => rfl)
    (fun _ _ => rfl) ⟨?_, ?_, ?_, ?_⟩ (Stays.of_off hcpu hplace.2)
    (live_of_same (fun d => ?_) fun _ _ _ => ?_) ?_ hbug
  · rw [hrqs, addNr_rq, addNr_rq]
  · rw [htask]
    exact Function.update_of_ne hq ..
  · have hlist : (fun d => Listed (exec s (.migrateTask p dest counting)) d p) = fun d => Listed s d p := by
      funext d
      rw [Listed, Listed, hrqs, addNr_rq, addNr_rq]
    rw [hself, hlist]
    exact .runnable hplace hstate hrq rfl hphase hon
  · rw [hself]
    exact fun _ => hdest
  · rw [hself, hrqs, addNr_rq, addNr_rq]
    have hnot := InvBut.not_at h hcpu dest
    refine iff_of_false ?_ (not_or.mpr hnot)
    dsimp only
    rw [hcpu]
    exact Bool.false_ne_true
  · rw [hself]
    exact (h.task p).told
  · rw [hrqs, addNr_rq, addNr_rq]
  · rw [hself]
    exact hrq
  · have hfirst := total_add (m := m) (k := k) ((h.task p).home hplace.2)
      fun d => congrArg Rq.nrUninterruptible (addNr_rq s (s.task p).cpu k d)
    have hsecond := total_add (m := m) (k := -k) hdest
      fun d => congrArg Rq.nrUninterruptible (addNr_rq (s.addNr (s.task p).cpu k) dest (-k) d)
    have htotal : total m (exec s (.migrateTask p dest counting)) = total m s := by
      rw [total, Finset.sum_congr rfl fun d _ => congrArg Rq.nrUninterruptible (hrqs d)]
      rw [total] at hsecond
      omega
    rw [htotal, hself, counted_of_onRq hrq]
    rw [counted_of_onRq (by exact hrq)]
    omega

/-- Handing a dead CPU's count to another keeps the sum. -/
theorem Inv.migrateNrUninterruptible (h : Inv m s) {src : Cpu}
    (hop : (Op.migrateNrUninterruptible src dest).Ok m s) :
    Inv m (exec s (.migrateNrUninterruptible src dest)) := by
  obtain ⟨hsrc, hdest, hne⟩ := hop
  obtain ⟨u, hu⟩ : ∃ u, u = exec s (.migrateNrUninterruptible src dest) := ⟨_, rfl⟩
  have hself : u.rq src = { s.rq src with nrUninterruptible := 0 } := by
    rw [hu]
    refine (Function.update_self ..).trans ?_
    rw [addNr_rq]
  have hrqs : ∀ d, u.rq d = { s.rq d with nrUninterruptible := (s.rq d).nrUninterruptible +
      ((if d = dest then (s.rq src).nrUninterruptible else 0) +
        if d = src then -(s.rq src).nrUninterruptible else 0) } := by
    intro d
    by_cases hd : d = src
    · rw [hd, hself, if_neg hne, if_pos rfl, Int.zero_add, Int.add_right_neg]
    · have hother : u.rq d = (s.addNr dest (s.rq src).nrUninterruptible).rq d := by
        rw [hu]
        exact Function.update_of_ne hd ..
      rw [hother, addNr_rq, if_neg hd, Int.add_zero]
  rw [← hu]
  refine h.sameTasks ?_ ?_ ?_ ?_ (fun d => by rw [hrqs]) (fun d => by rw [hrqs]) (fun d => by rw [hrqs])
    (fun d q => by rw [Listed, Listed, hrqs]) (fun d => ?_) (fun d => ?_) ?_ ?_
  · rw [hu]
    rfl
  · rw [hu]
    rfl
  · rw [hu]
    rfl
  · rw [hu]
    rfl
  · rw [hrqs]
    exact (h.rq d).nodup
  · rw [hrqs]
    exact (h.rq d).ipi
  · rw [total, total, Finset.sum_congr rfl fun d _ => congrArg Rq.nrUninterruptible (hrqs d),
      Finset.sum_add_distrib, Finset.sum_add_distrib, Finset.sum_ite_eq' m.cpus dest,
      Finset.sum_ite_eq' m.cpus src, if_pos hdest, if_pos hsrc]
    omega
  · rw [hu]
    rfl

/-! ## The steps of `__schedule` -/

/-- The invariant holds with more CPUs left out. -/
theorem InvBut.weaken {out out' : Cpu → Prop} (h : InvBut m s out) (hout : ∀ c, out c → out' c) :
    InvBut m s out' :=
  ⟨h.task, h.rq, fun c hc => h.live c fun hc' => hc (hout c hc'), h.count, h.bug⟩

/-- A CPU gets other tasks, and one task is told whether it is on a CPU. -/
def State.hold (s : State) (c : Cpu) (p : Pid) (onCpu : Bool) (curr : Pid) (prev : Option Pid) :
    State :=
  (s.updTask p fun t => { t with onCpu := onCpu }).updRq c fun r =>
    { r with curr := curr, prev := prev }

section Hold

variable {onCpu : Bool} {curr : Pid} {prev : Option Pid}

theorem hold_task (q : Pid) : (s.hold c p onCpu curr prev).task q =
    { s.task q with onCpu := if q = p then onCpu else (s.task q).onCpu } := by
  by_cases hq : q = p
  · rw [hq, if_pos rfl]
    exact Function.update_self ..
  · rw [if_neg hq]
    exact Function.update_of_ne hq ..

theorem hold_rq (d : Cpu) : (s.hold c p onCpu curr prev).rq d = { s.rq d with
    curr := if d = c then curr else (s.rq d).curr
    prev := if d = c then prev else (s.rq d).prev } := by
  by_cases hd : d = c
  · rw [hd, if_pos rfl, if_pos rfl]
    exact Function.update_self ..
  · rw [if_neg hd, if_neg hd]
    exact Function.update_of_ne hd ..

/-- What a switch leaves to be shown: the tasks that the CPU gets are at home there, and `on_cpu`
tells which they are. -/
theorem InvBut.hold {out out' : Cpu → Prop} (h : InvBut m s out) (hhome : (s.task p).cpu = c)
    (hstatus : Status { s.task p with onCpu := onCpu } (s.ttwu p) fun d => Listed s d p)
    (hcurr : (s.task curr).cpu = c)
    (hprev : ∀ q, prev = some q → (s.task q).cpu = c ∧ curr ≠ q)
    (honCpu : ∀ q, (s.task q).cpu = c →
      ((if q = p then onCpu else (s.task q).onCpu) = true ↔ curr = q ∨ prev = some q))
    (hhere : ¬out' c → (s.task curr).onRq = true ∨ curr = m.idle c)
    (hout : ∀ d, d ≠ c → ¬out' d → ¬out d) : InvBut m (s.hold c p onCpu curr prev) out' := by
  have hlist : ∀ q, (fun d => Listed (s.hold c p onCpu curr prev) d q) = fun d => Listed s d q := by
    intro q
    funext d
    rw [Listed, Listed, hold_rq]
  refine ⟨fun q => ⟨?_, ?_, ?_, ?_⟩, fun d => ⟨?_, ?_, fun q hq => ?_, ?_, ?_⟩, fun d hd => ?_, ?_, h.bug⟩
  · rw [hold_task, hlist]
    by_cases hq : q = p
    · rw [if_pos hq, hq]
      exact hstatus
    · rw [if_neg hq]
      exact (h.task q).status
  · rw [hold_task]
    exact (h.task q).home
  · rw [hold_task, hold_rq]
    dsimp only
    by_cases hd : (s.task q).cpu = c
    · rw [hd, if_pos rfl, if_pos rfl]
      exact honCpu q hd
    · have hq : q ≠ p := fun hq => hd (hq ▸ hhome)
      rw [if_neg hd, if_neg hd, if_neg hq]
      exact (h.task q).onCpu
  · rw [hold_task]
    exact (h.task q).told
  · rw [hold_task, hold_rq]
    dsimp only
    by_cases hd : d = c
    · rw [if_pos hd, hd]
      exact hcurr
    · rw [if_neg hd]
      exact (h.rq d).curr
  · rw [hold_task]
    exact (h.rq d).idle
  · rw [hold_rq] at hq ⊢
    rw [hold_task]
    dsimp only at hq ⊢
    by_cases hd : d = c
    · rw [if_pos hd] at hq ⊢
      rw [hd]
      exact hprev q hq
    · rw [if_neg hd] at hq ⊢
      exact (h.rq d).prev q hq
  · rw [hold_rq]
    exact (h.rq d).nodup
  · rw [hold_rq]
    exact (h.rq d).ipi
  · rw [hold_rq, hold_task]
    dsimp only
    by_cases hdc : d = c
    · subst hdc
      rw [if_pos rfl]
      exact hhere hd
    · rw [if_neg hdc]
      exact h.live d (hout d hdc hd)
  · have htotal : total m (s.hold c p onCpu curr prev) = total m s :=
      Finset.sum_congr rfl fun d _ => by rw [hold_rq]
    rw [htotal]
    exact h.count.congr fun q => by rw [hold_task, counted, counted, contributesToLoad, contributesToLoad]

end Hold

/-- A task in any state may leave its CPU. -/
theorem Status.offCpu {v : Task} {phase : Phase} {on : Cpu → Prop} (h : Status v phase on) :
    Status { v with onCpu := false } phase on := by
  cases h with
  | outside hout hstate hrq hqueued hphase hon =>
    exact .outside (hout.imp_left fun hunborn => ⟨hunborn.1, rfl⟩) hstate hrq hqueued hphase hon
  | runnable hplace hstate hrq hqueued hphase hon =>
    exact .runnable hplace hstate hrq hqueued hphase hon
  | asleep hplace hstate hrq hqueued hphase hon =>
    exact .asleep hplace hstate hrq hqueued hphase hon
  | waking hplace hstate hrq hqueued _ hphase hon =>
    exact .waking hplace hstate hrq hqueued rfl hphase hon
  | listed hplace hstate hrq hqueued _ hphase hon =>
    exact .listed hplace hstate hrq hqueued rfl hphase hon

theorem Inv.finishSwitch (h : Inv m s) (c : Cpu) : Inv m (exec s (.finishSwitch c)) := by
  rw [exec, Wakeup.finishSwitch]
  cases hprev : (s.rq c).prev with
  | none => exact h
  | some p =>
    obtain ⟨hhome, hcurr⟩ := (h.rq c).prev p hprev
    have hsched : ∀ d, ((s.hold c p false (s.rq c).curr none).rq d).scheduling =
        (s.rq d).scheduling := fun d => by rw [hold_rq]
    have hhold : InvBut m (s.hold c p false (s.rq c).curr none) fun d =>
        (s.rq d).scheduling = true := by
      refine h.hold hhome (h.task p).status.offCpu (h.rq c).curr (fun _ hno => nomatch hno)
        (fun q hq => ?_) (h.live c) fun _ _ hd => hd
      by_cases hqp : q = p
      · rw [if_pos hqp, hqp]
        exact iff_of_false Bool.false_ne_true (not_or.mpr ⟨hcurr, (Option.some_ne_none p).symm⟩)
      · rw [if_neg hqp, (h.task q).onCpu, hq, hprev]
        refine or_congr_right (iff_of_false (fun heq => hqp (Option.some.inj heq).symm) ?_)
        exact (Option.some_ne_none q).symm
    exact hhold.weaken fun d hd => (hsched d).trans hd

/-- The current task of a CPU that has set its state is not an idle task. -/
theorem Inv.onRq_of_state (h : Inv m s) (hc : (s.rq c).scheduling = false)
    (hstate : (s.task (s.rq c).curr).state ≠ taskRunning) : (s.task (s.rq c).curr).onRq = true := by
  have hout : ¬(s.rq c).scheduling = true := by
    rw [hc]
    exact Bool.false_ne_true
  refine (h.live c hout).resolve_right fun hidle => hstate ?_
  have hplace := (h.rq c).idle.2
  rw [← hidle] at hplace
  have hstatus := (h.task (s.rq c).curr).status
  cases hstatus with
  | outside _ hrun => exact hrun
  | runnable hnot => exact absurd hplace hnot.2
  | asleep hdec | waking hdec | listed hdec =>
    rw [hplace] at hdec
    cases hdec

/-- The current task goes to sleep, or stays. -/
theorem Inv.deschedule (h : Inv m s) {preempt : Bool} (signal : Bool) (hc : c ∈ m.cpus)
    (hout : (s.rq c).scheduling = false)
    (hdec : (s.task (s.rq c).curr).state ≠ taskRunning → preempt = false →
      (s.task (s.rq c).curr).place = .decided) :
    InvBut m (deschedule s c preempt signal)
      fun d => ((deschedule s c preempt signal).rq d).scheduling = true ∨ d = c := by
  have hweak : ∀ {v}, Inv m v → InvBut m v fun d => (v.rq d).scheduling = true ∨ d = c :=
    fun hv => hv.weaken fun _ => .inl
  rw [Wakeup.deschedule]
  split
  next hcond =>
    obtain ⟨hstate, hpreempt⟩ := hcond
    have hrq := h.onRq_of_state hout hstate
    split
    next => exact hweak (h.doWakeup hrq)
    next =>
      obtain ⟨p, hp⟩ : ∃ p, p = (s.rq c).curr := ⟨_, rfl⟩
      rw [← hp] at hstate hrq hdec ⊢
      have hplace := hdec hstate hpreempt
      obtain ⟨-, hwaking, hqueued, hphase, hon⟩ := (h.task p).status.of_onRq hrq
      have hhome : (s.task p).cpu = c := by
        rw [hp]
        exact (h.rq c).curr
      obtain ⟨t, ht⟩ : ∃ t, t = (deactivateTask s c p).updTask p fun t => { t with onRq := false } :=
        ⟨_, rfl⟩
      rw [← ht]
      have htask : t.task = Function.update s.task p { s.task p with queued := none, onRq := false } := by
        rw [ht, deactivateTask, dequeueTask]
        simp only [State.bugOn, State.addNr, State.updRq, State.updTask, Function.update_self,
          Function.update_idem]
      have hself : t.task p = { s.task p with queued := none, onRq := false } := by
        rw [htask]
        exact Function.update_self ..
      have hrqs : ∀ d, t.rq d = (s.addNr c (load (contributesToLoad (s.task p)))).rq d := by
        intro d
        rw [ht]
        rfl
      have hsame : t.ttwu = s.ttwu ∧ t.cond = s.cond ∧ t.owed = s.owed := by
        rw [ht]
        exact ⟨rfl, rfl, rfl⟩
      have hbug : t.bug = false := by
        have hopen : t.bug = (s.bug || decide ((s.task p).queued ≠ some c)) := by
          rw [ht]
          rfl
        rw [hopen, h.bug, hqueued, hhome]
        simp
      have hsched : ∀ d, (t.rq d).scheduling = (s.rq d).scheduling := fun d => by rw [hrqs, addNr_rq]
      refine InvBut.atQueue h (p := p) (fun d => ?_) (fun q hq => ?_) (fun q _ => by rw [hsame.1])
        (fun q _ => by rw [hsame.2.1]) (fun q _ => by rw [hsame.2.2]) ⟨?_, ?_, ?_, ?_⟩
        ⟨fun _ => by rw [hself], fun hidle => ?_⟩ (fun d hd => ?_) ?_ hbug
      · rw [hrqs, addNr_rq]
      · rw [htask]
        exact Function.update_of_ne hq ..
      · have hlist : (fun d => Listed t d p) = fun d => Listed s d p := by
          funext d
          rw [Listed, Listed, hrqs, addNr_rq]
        rw [hself, hsame.1, hlist]
        exact .asleep hplace ⟨hstate, hwaking⟩ rfl rfl hphase.2 hon
      · rw [hself]
        exact (h.task p).home
      · rw [hself, hrqs, addNr_rq]
        exact (h.task p).onCpu
      · rw [hself, hsame.1, hsame.2.1, hsame.2.2]
        exact (h.task p).told
      · rw [hplace] at hidle
        cases hidle
      · -- no other CPU runs it
        rw [hsched, not_or] at hd
        refine ⟨hd.1, fun hcurr _ => absurd ?_ hd.2⟩
        have hcpu := (h.rq d).curr
        rw [hcurr, hhome] at hcpu
        exact hcpu.symm
      · have htotal := total_add (m := m) (t := t) hc fun d =>
          congrArg Rq.nrUninterruptible ((hrqs d).trans (addNr_rq s c _ d))
        have hcount : counted (t.task p) = contributesToLoad (s.task p) := by
          rw [hself]
          exact counted_asleep rfl hwaking
        rw [htotal, hcount, counted_of_onRq hrq, load_false]
        omega
  next => exact hweak h

/-- Only where a CPU is in `__schedule` is written down. -/
theorem InvBut.setScheduling {out : Cpu → Prop} (h : InvBut m s out) (b : Bool)
    (hout : ∀ d, out d → if d = c then b = true else (s.rq d).scheduling = true) :
    Inv m (s.setScheduling c b) := by
  have hrqs : ∀ d, (s.setScheduling c b).rq d = { s.rq d with
      scheduling := if d = c then b else (s.rq d).scheduling } := by
    intro d
    by_cases hd : d = c
    · rw [hd, if_pos rfl]
      exact Function.update_self ..
    · rw [if_neg hd]
      exact Function.update_of_ne hd ..
  have hlist : ∀ q, (fun d => Listed (s.setScheduling c b) d q) = fun d => Listed s d q := by
    intro q
    funext d
    rw [Listed, Listed, hrqs]
  refine ⟨fun q => ⟨?_, (h.task q).home, ?_, (h.task q).told⟩, fun d => ⟨?_, (h.rq d).idle, ?_, ?_, ?_⟩,
    fun d hd => ?_, ?_, h.bug⟩
  · rw [hlist]
    exact (h.task q).status
  · rw [hrqs]
    exact (h.task q).onCpu
  · rw [hrqs]
    exact (h.rq d).curr
  · rw [hrqs]
    exact (h.rq d).prev
  · rw [hrqs]
    exact (h.rq d).nodup
  · rw [hrqs]
    exact (h.rq d).ipi
  · rw [hrqs] at hd ⊢
    refine h.live d fun hd' => hd ?_
    have hset := hout d hd'
    dsimp only
    split at hset
    next hdc => rw [if_pos hdc, hset]
    next hdc => rw [if_neg hdc, hset]
  · have htotal : total m (s.setScheduling c b) = total m s :=
      Finset.sum_congr rfl fun d _ => by rw [hrqs]
    rw [htotal]
    exact h.count

theorem Inv.scheduleSleep (h : Inv m s) {preempt signal : Bool}
    (hop : (Op.scheduleSleep c preempt signal).Ok m s) :
    Inv m (exec s (.scheduleSleep c preempt signal)) := by
  obtain ⟨hc, hout, hdec⟩ := hop
  refine (h.deschedule signal hc hout.2 hdec).setScheduling true fun d hd => ?_
  by_cases hdc : d = c
  · rw [if_pos hdc]
  · rw [if_neg hdc]
    exact hd.resolve_right hdc

/-- A task that the class has on a run queue is on that run queue. -/
theorem Status.of_queued {v : Task} {phase : Phase} {on : Cpu → Prop} (h : Status v phase on)
    (hc : v.queued = some c) : v.onRq = true ∧ v.cpu = c := by
  cases h with
  | runnable _ _ hrq hqueued =>
    rw [hqueued] at hc
    exact ⟨hrq, Option.some.inj hc⟩
  | outside _ _ _ hqueued | asleep _ _ _ hqueued | waking _ _ _ hqueued | listed _ _ _ hqueued =>
    rw [hqueued] at hc
    cases hc

/-- A task on a run queue, or an idle task, may get a CPU. -/
theorem Status.ontoCpu {v : Task} {phase : Phase} {on : Cpu → Prop} (h : Status v phase on)
    (hlive : v.onRq = true ∨ v.place = .idle) :
    Status { v with onCpu := true } phase on := by
  cases h with
  | outside hout hstate hrq hqueued hphase hon =>
    refine .outside (.inr ?_) hstate hrq hqueued hphase hon
    refine hlive.resolve_left fun hrq' => ?_
    rw [hrq] at hrq'
    cases hrq'
  | runnable hplace hstate hrq hqueued hphase hon =>
    exact .runnable hplace hstate hrq hqueued hphase hon
  | asleep hplace _ hrq | waking hplace _ hrq | listed hplace _ hrq =>
    rw [hrq, hplace] at hlive
    rcases hlive with hrq' | hidle
    · cases hrq'
    · cases hidle

/-- The next task is on the run queue, or it is the idle task. -/
theorem Inv.switchTo (h : Inv m s) (hfree : Free s c) {next : Pid}
    (hnext : next = m.idle c ∨ (s.task next).queued = some c) :
    InvBut m (switchTo s c next) fun d => (s.rq d).scheduling = true ∧ d ≠ c := by
  obtain ⟨hhome, hlive, hplace⟩ : (s.task next).cpu = c ∧
      ((s.task next).onRq = true ∨ next = m.idle c) ∧
      ((s.task next).onRq = true ∨ (s.task next).place = .idle) := by
    rcases hnext with rfl | hqueued
    · obtain ⟨hcpu, hplace⟩ := (h.rq c).idle
      exact ⟨hcpu, .inr rfl, .inr hplace⟩
    · obtain ⟨hrq, hcpu⟩ := (h.task next).status.of_queued hqueued
      exact ⟨hcpu, .inl hrq, .inl hrq⟩
  rw [Wakeup.switchTo]
  split
  next hcurr =>
    refine ⟨h.task, h.rq, fun d hd => ?_, h.count, h.bug⟩
    by_cases hdc : d = c
    · rw [hdc, hcurr]
      exact hlive
    · exact h.live d fun hd' => hd ⟨hd', hdc⟩
  next hcurr =>
    have hoff : (s.task next).onCpu = false := by
      refine InvBut.off_of_free h ?_ ?_
      · rw [hhome]
        exact hfree
      · rw [hhome]
        exact hcurr
    have hquiet : s.bugOn (s.task next).onCpu = s := by
      rw [hoff, State.bugOn, Bool.or_false]
    rw [hquiet]
    refine InvBut.hold h hhome ((h.task next).status.ontoCpu hplace) hhome (fun q hq => ?_)
      (fun q hq => ?_) (fun _ => hlive) fun d hdc hd hd' => hd ⟨hd', hdc⟩
    · obtain rfl := Option.some.inj hq
      exact ⟨(h.rq c).curr, fun heq => hcurr heq.symm⟩
    · by_cases hqn : q = next
      · rw [if_pos hqn]
        exact iff_of_true rfl (.inl hqn.symm)
      · -- the one that was current is now the one before
        rw [if_neg hqn, (h.task q).onCpu, hq, hfree]
        constructor
        · rintro (hcurr | hnone)
          · exact .inr (congrArg some hcurr)
          · cases hnone
        · rintro (heq | hprev)
          · exact absurd heq.symm hqn
          · exact .inl (Option.some.inj hprev)

/-- What the switch leaves of where the CPUs are in `__schedule`. -/
theorem switchTo_scheduling (s : State) (c : Cpu) (next : Pid) (d : Cpu) :
    ((switchTo s c next).rq d).scheduling = (s.rq d).scheduling := by
  rw [Wakeup.switchTo]
  split
  · rfl
  · show (Function.update s.rq c { s.rq c with curr := next, prev := some (s.rq c).curr } d).scheduling = _
    by_cases hd : d = c
    · rw [hd, Function.update_self]
    · rw [Function.update_of_ne hd]

theorem Inv.scheduleSwitch (h : Inv m s) {next : Pid} (hop : (Op.scheduleSwitch c next).Ok m s) :
    Inv m (exec s (.scheduleSwitch c next)) := by
  obtain ⟨-, hfree, hnext⟩ := hop
  refine (h.switchTo hfree hnext).setScheduling false fun d hd => ?_
  rw [if_neg hd.2, switchTo_scheduling]
  exact hd.1

theorem exec_inv (h : Inv m s) (op : Op) (hop : op.Ok m s) : Inv m (exec s op) := by
  cases op with
  | setState p state => exact h.setState hop
  | test p => exact h.test hop
  | post p => exact h.setCond p true true fun _ => rfl
  | take p =>
    have hset := h.setCond p false (s.owed p) fun hf => absurd hf Bool.false_ne_true
    rw [Function.update_eq_self] at hset
    exact hset
  | freeze p frozen => exact h.freeze hop
  | scheduleSleep c preempt signal => exact h.scheduleSleep hop
  | scheduleSwitch c next => exact h.scheduleSwitch hop
  | finishSwitch c => exact h.finishSwitch c
  | ttwuStart p mode => exact h.ttwuStart hop
  | ttwuOnRq p => exact h.ttwuOnRq hop
  | ttwuRemote p => exact h.ttwuRemote hop
  | ttwuOffCpu p dest => exact h.ttwuOffCpu hop
  | ttwuQueueRemote p => exact h.ttwuQueueRemote hop
  | ttwuQueue p => exact h.ttwuQueue hop
  | schedulerIpi c => exact h.schedulerIpi hop
  | ttwuPending c => exact h.ttwuPending c
  | tryToWakeUpLocal c p => exact h.tryToWakeUpLocal hop
  | wakeUpNewTask p c => exact h.wakeUpNewTask hop
  | migrateTask p dest counting => exact h.migrateTask hop
  | migrateNrUninterruptible src dest => exact h.migrateNrUninterruptible hop

end LinuxWrr.Wakeup
