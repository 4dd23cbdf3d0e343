import LinuxWrr.Sched.ClassPolicy

/-!
# Reset on fork

A task with `SCHED_RESET_ON_FORK` "is reverted back to SCHED_NORMAL on fork": its children
are to have no elevated scheduling, and neither are theirs. `sched_fork` tests for it with
`task_has_rt_policy`, which `SCHED_WRR` is not.

- `Task.Reverted`: no elevated scheduling.
- `forkTask_reverted_iff`: the direct child is reverted unless the parent is `SCHED_WRR`.
- `Lineage`: a system, and the descendants of one task.
- `forksReverted_iff`: **the reset holds for every descendant, exactly when the parent is not
  `SCHED_WRR`**.
-/

namespace LinuxWrr

variable {cfg : Config} {s t u : System} {p q child : Pid} {f : Task}

/-- A task without elevated scheduling. -/
structure Task.Reverted (f : Task) : Prop where
  policy : f.policy = .normal ∨ f.policy = .batch ∨ f.policy = .idle
  rtPriority : f.rtPriority = 0
  nice : 0 ≤ f.nice
  schedClass : f.schedClass = .fair

/-- A nice level is not negative exactly when the static priority is 120 or more. -/
theorem nice_nonneg_iff : 0 ≤ f.nice ↔ 120 ≤ f.staticPrio := by
  show 0 ≤ f.staticPrio - maxRtPrio - 20 ↔ _
  simp only [maxRtPrio]
  omega

/-- The plain policies are those that are neither real-time nor `SCHED_WRR`. -/
theorem plain_iff : (f.policy = .normal ∨ f.policy = .batch ∨ f.policy = .idle) ↔
    rtPolicy f.policy = false ∧ f.policy ≠ .wrr := by
  cases f.policy <;> decide

/-- A task under a plain policy forks plain fair tasks, as nice as itself or nicer. -/
theorem forkTask_plain (hok : TaskOk f) (hrt : rtPolicy f.policy = false) (hwrr : f.policy ≠ .wrr)
    (hnice : f.schedResetOnFork = false → 0 ≤ f.nice) : (forkTask f).Reverted := by
  -- with the flag a negative nice value is dropped; without it the parent has none
  have hreset : (forkReset (dupTask f)).policy = f.policy ∧
      120 ≤ (forkReset (dupTask f)).staticPrio ∧
      120 ≤ (forkReset (dupTask f)).prio ∧ (forkReset (dupTask f)).rtPriority = f.rtPriority := by
    cases hflag : f.schedResetOnFork with
    | true =>
      rw [forkReset, if_pos (show (dupTask f).schedResetOnFork = true from hflag),
        if_neg (show ¬rtPolicy (dupTask f).policy = true by simpa [dupTask] using hrt)]
      split
      · have hzero : 120 ≤ niceToPrio 0 := by decide
        exact ⟨rfl, hzero, hzero, rfl⟩
      next hneg =>
        have hstatic : 120 ≤ f.staticPrio := nice_nonneg_iff.mp (Int.not_lt.mp hneg)
        exact ⟨rfl, hstatic, hstatic, rfl⟩
    | false =>
      have hstatic := nice_nonneg_iff.mp (hnice hflag)
      have hnormal : f.normalPrio = f.staticPrio :=
        hok.normalPrio.trans (normalPrio_of_not_rt (by simpa using hrt))
      rw [forkReset, if_neg (show ¬(dupTask f).schedResetOnFork = true by simpa [dupTask] using hflag)]
      have hprio : 120 ≤ f.normalPrio := by rwa [hnormal]
      exact ⟨rfl, hstatic, hprio, rfl⟩
  obtain ⟨hpolicy, hstatic, hprio, hrtp⟩ := hreset
  rw [forkTask, forkClass_eq]
  refine ⟨?_, ?_, nice_nonneg_iff.mpr hstatic, ?_⟩
  · rw [plain_iff]
    show rtPolicy (forkReset (dupTask f)).policy = false ∧ (forkReset (dupTask f)).policy ≠ .wrr
    rw [hpolicy]
    exact ⟨hrt, hwrr⟩
  · show (forkReset (dupTask f)).rtPriority = 0
    rw [hrtp]
    exact hok.userPriority hrt (by simpa [wrrPolicy] using hwrr)
  · show (if (forkReset (dupTask f)).policy = .wrr then ClassId.wrr
      else if rtPrio (forkReset (dupTask f)).prio then (forkReset (dupTask f)).schedClass
      else .fair) = .fair
    rw [hpolicy, if_neg hwrr, rtPrio_eq_false (hprio.trans' (by decide))]
    rfl

/-- A task under an RT policy and the flag forks a `SCHED_NORMAL` task at nice 0. -/
theorem forkTask_rt (hrt : rtPolicy f.policy = true) (hflag : f.schedResetOnFork = true) :
    (forkTask f).Reverted := by
  have hreset : forkReset (dupTask f) = { dupTask f with
      policy := .normal
      staticPrio := niceToPrio 0
      rtPriority := 0
      prio := niceToPrio 0
      normalPrio := niceToPrio 0
      schedResetOnFork := false } := by
    rw [forkReset, if_pos (show (dupTask f).schedResetOnFork = true from hflag),
      if_pos (show rtPolicy (dupTask f).policy = true from hrt)]
  rw [forkTask, forkClass_eq, hreset]
  have hzero : 0 ≤ prioToNice (niceToPrio 0) := by decide
  exact ⟨.inl rfl, rfl, hzero, rfl⟩

/-- A child never inherits the reset flag. -/
theorem forkTask_flag (f : Task) : (forkTask f).schedResetOnFork = false := by
  rw [forkTask, forkClass_eq]
  show (forkReset (dupTask f)).schedResetOnFork = false
  unfold forkReset
  split
  · rfl
  next hflag => exact Bool.eq_false_iff.mpr hflag

/-- The child of a `SCHED_WRR` task is a `SCHED_WRR` task, flag or no flag. -/
theorem forkTask_wrr (hwrr : f.policy = .wrr) : (forkTask f).policy = .wrr := by
  rw [forkTask, forkClass_eq]
  show (forkReset (dupTask f)).policy = .wrr
  unfold forkReset
  split
  · rw [if_neg (show ¬rtPolicy (dupTask f).policy = true by simp [dupTask, hwrr, rtPolicy])]
    split <;> exact hwrr
  · exact hwrr

/-- **The direct child.** The test of `sched_fork` misses `SCHED_WRR`. -/
theorem forkTask_reverted_iff (hok : TaskOk f) (hflag : f.schedResetOnFork = true) :
    (forkTask f).Reverted ↔ f.policy ≠ .wrr := by
  constructor
  · intro h hwrr
    have hplain := h.policy
    rw [forkTask_wrr hwrr] at hplain
    rcases hplain with hno | hno | hno <;> cases hno
  · intro hwrr
    cases hrt : rtPolicy f.policy with
    | true => exact forkTask_rt hrt hflag
    | false =>
      refine forkTask_plain hok hrt hwrr fun hno => ?_
      rw [hflag] at hno
      cases hno

/-! ## Descendants -/

/-- The task an operation gives a new policy or nice value. -/
def Op.retunes : Op → Option Pid
  | .nice p _ | .setscheduler p _ _ _ _ | .normalize p _ => some p
  | _ => none

/-- A system, and the descendants of one task in it. -/
structure Lineage where
  sys : System
  family : List Pid

/-- One step: a child of a descendant is one. -/
def follow (cfg : Config) (l : Lineage) (op : Op) : Lineage where
  sys := exec cfg l.sys op
  family := match op with
    | .fork parent child => if parent ∈ l.family then child :: l.family else l.family
    | _ => l.family

/-- No descendant is given a new policy or nice value. -/
def Lineage.Ok (l : Lineage) (op : Op) : Prop :=
  op.Pre l.sys ∧ ∀ q, op.retunes = some q → q ∉ l.family

/-- What a descendant keeps: a plain policy, no priority boost by its nice value, and the flag
cleared. -/
structure Task.Plain (f : Task) : Prop where
  alive : f.alive = true
  rt : rtPolicy f.policy = false
  wrr : f.policy ≠ .wrr
  nice : 0 ≤ f.nice
  flag : f.schedResetOnFork = false

/-- Whether a task is plain is read off its kind. -/
theorem Task.Plain.of_kind {g : Task} (h : f.Plain) (hkind : g.kind = f.kind) : g.Plain := by
  have halive : g.kind.alive = f.kind.alive := by rw [hkind]
  have hpolicy : g.kind.policy = f.kind.policy := by rw [hkind]
  have hstatic : g.kind.staticPrio = f.kind.staticPrio := by rw [hkind]
  have hflag : g.kind.schedResetOnFork = f.kind.schedResetOnFork := by rw [hkind]
  refine ⟨halive.trans h.alive, ?_, ?_, ?_, hflag.trans h.flag⟩
  · exact (congrArg rtPolicy hpolicy).trans h.rt
  · exact fun hwrr => h.wrr (hpolicy.symm.trans hwrr)
  · exact nice_nonneg_iff.mpr ((nice_nonneg_iff.mp h.nice).trans_eq hstatic.symm)

/-- A reverted task without the flag is plain. -/
theorem Task.Reverted.plain (h : f.Reverted) (halive : f.alive = true)
    (hflag : f.schedResetOnFork = false) : f.Plain :=
  ⟨halive, (plain_iff.mp h.policy).1, (plain_iff.mp h.policy).2, h.nice, hflag⟩

/-- The child of a plain task is reverted. -/
theorem Task.Plain.fork (h : f.Plain) (hok : TaskOk f) : (forkTask f).Reverted :=
  forkTask_plain hok h.rt h.wrr fun _ => h.nice

theorem forkTask_alive (f : Task) : (forkTask f).alive = true := by
  rw [forkTask, forkClass_eq]
  exact (forkReset_class (dupTask f)).2.1

/-- An operation that gives the task no new policy or nice value leaves it plain: a boost
changes its class and its priority only. -/
theorem exec_plain (h : Inv cfg s) {op : Op} (hpre : op.Pre s) (hq : (s.task q).Plain)
    (hretune : op.retunes ≠ some q) : ((exec cfg s op).task q).Plain := by
  have hne : ∀ r, op.retunes = some r → q ≠ r := by
    rintro r hr rfl
    exact hretune hr
  -- most operations change neither policy nor nice value of any task
  by_cases hkind : op.changesKind = false
  · exact hq.of_kind (exec_kind h hpre hkind q)
  cases op with
  | fork parent child =>
    have hchild : q ≠ child := by
      rintro rfl
      exact Bool.false_ne_true (hpre.2.symm.trans hq.alive)
    show (Function.update s.task child _ q).Plain
    rwa [Function.update_of_ne hchild]
  | nice p nice =>
    have hqp := hne p rfl
    rcases setUserNice_effect cfg s p nice with ⟨-, heq⟩ | ⟨-, ⟨-, heff⟩ | ⟨-, heff⟩⟩
    · rw [show exec cfg s (.nice p nice) = s from heq]
      exact hq
    · rwa [show (exec cfg s (.nice p nice)).task q = _ from heff.other hqp]
    · rwa [show (exec cfg s (.nice p nice)).task q = _ from heff.other hqp]
  | setscheduler p policy reset prio o =>
    have hqp := hne p rfl
    obtain ⟨u, slice, times, heff, hbal⟩ := changeScheduler_effect cfg s p policy reset prio o
    exact hq.of_kind ((hbal.sameKinds q).trans (by rw [heff.other hqp]))
  | normalize p o =>
    have hqp := hne p rfl
    obtain ⟨u, slice, times, heff, hbal⟩ := normalizeTask_effect cfg s p o
    exact hq.of_kind ((hbal.sameKinds q).trans (by rw [heff.other hqp]))
  | setprio p prio waiter o =>
    obtain ⟨u, heff, hbal⟩ := setprio_effect cfg s p prio waiter o (Ne.symm (hpre.1.2 _).1)
    refine Task.Plain.of_kind ?_ (hbal.sameKinds q)
    by_cases hqp : q = p
    · subst hqp
      rw [heff.self]
      exact ⟨hq.alive, hq.rt, hq.wrr, hq.nice, hq.flag⟩
    · rwa [heff.other hqp]
  | wakeUp | wakeUpNew | schedule | tick | schedYield | migrate | moveGroup | throttle
  | unthrottle | clock | enqueue | dequeue | yield | requeue | pick => exact absurd rfl hkind

/-- What holds along a run: the descendants are plain. -/
def Lineage.Plain (cfg : Config) (l : Lineage) : Prop :=
  Inv cfg l.sys ∧ ∀ q ∈ l.family, (l.sys.task q).Plain

/-- What a fork leaves of the child is computed from the parent alone. -/
theorem schedFork_child (cfg : Config) (s : System) (parent child : Pid) :
    (exec cfg s (.fork parent child)).task child = forkTask (s.task parent) :=
  Function.update_self child _ s.task

/-- **Step lemma**: so are the children of descendants. -/
theorem follow_plain {l : Lineage} (h : l.Plain cfg) {op : Op} (hop : l.Ok op) :
    (follow cfg l op).Plain cfg := by
  obtain ⟨hinv, hplain⟩ := h
  refine ⟨exec_inv hinv op hop.1, ?_⟩
  have hold : ∀ q ∈ l.family, ((exec cfg l.sys op).task q).Plain := fun q hq =>
    exec_plain hinv hop.1 (hplain q hq) fun hretune => hop.2 q hretune hq
  cases op with
  | fork parent child =>
    intro q hq
    change q ∈ (if parent ∈ l.family then child :: l.family else l.family) at hq
    split at hq
    next hparent =>
      rcases List.mem_cons.mp hq with rfl | hq
      · show ((exec cfg l.sys (.fork parent q)).task q).Plain
        have hok := hinv.task parent (hplain parent hparent).alive
        rw [schedFork_child]
        exact ((hplain parent hparent).fork hok).plain (forkTask_alive _) (forkTask_flag _)
      · exact hold q hq
    next => exact hold q hq
  | _ => exact hold

/-- The child of `p`, and every task that descends from it by forks while no descendant is
given a new policy or nice value, leaves `sched_fork` reverted. -/
structure ForksReverted (cfg : Config) (s : System) (p child : Pid) : Prop where
  first : ((exec cfg s (.fork p child)).task child).Reverted
  flag : ((exec cfg s (.fork p child)).task child).schedResetOnFork = false
  descendant : ∀ l, Reach Lineage.Ok (follow cfg) ⟨exec cfg s (.fork p child), [child]⟩ l →
    ∀ parent grandchild, parent ∈ l.family → l.Ok (.fork parent grandchild) →
      ((exec cfg l.sys (.fork parent grandchild)).task grandchild).Reverted

/-- **Reset on fork holds for all descendants exactly when the parent is not `SCHED_WRR`**: in
every reachable state, for every task with the flag. -/
theorem forksReverted_iff {s₀ : System} (hs : Boot s₀)
    (h : Reach (fun s op => op.Pre s) (exec cfg) s₀ s) (hfork : (Op.fork p child).Pre s)
    (hflag : (s.task p).schedResetOnFork = true) :
    ForksReverted cfg s p child ↔ (s.task p).policy ≠ .wrr := by
  have hinv := reach_inv (fun _ _ hop => hop) hs h
  have hok := hinv.task p hfork.1.1
  have hchild := schedFork_child cfg s p child
  constructor
  · intro hall
    have hrev := hall.first
    rw [hchild] at hrev
    exact (forkTask_reverted_iff hok hflag).mp hrev
  · intro hwrr
    have hrev := (forkTask_reverted_iff hok hflag).mpr hwrr
    refine ⟨by rwa [hchild], by rw [hchild, forkTask_flag], fun l hl parent grandchild hmem hop => ?_⟩
    have hfirst : Lineage.Plain cfg ⟨exec cfg s (.fork p child), [child]⟩ := by
      refine ⟨exec_inv hinv _ hfork, fun q hq => ?_⟩
      rw [List.mem_singleton.mp hq, hchild]
      exact hrev.plain (forkTask_alive _) (forkTask_flag _)
    obtain ⟨hinv', hplain⟩ := hl.invariant (I := Lineage.Plain cfg) (fun _ _ h => follow_plain h) hfirst
    rw [schedFork_child]
    exact (hplain parent hmem).fork (hinv'.task parent (hplain parent hmem).alive)

/-- The first task asks for a policy, at priority 50 and with the flag. -/
def withReset (policy : Policy) : System :=
  exec (upConfig .basic) bootSystem (.setscheduler 1 policy true 50 .quiet)

theorem withReset_reach {policy : Policy} (h : policy = .fifo ∨ policy = .rr ∨ policy = .wrr) :
    Reach (fun s op => op.Pre s) (exec (upConfig .basic)) bootSystem (withReset policy) := by
  have hinv : Inv (upConfig .basic) bootSystem := bootSystem_boot.inv
  refine Reach.single (Op.pre_of_check hinv ?_)
  rcases h with rfl | rfl | rfl <;> decide

theorem withReset_fork {policy : Policy} (h : policy = .fifo ∨ policy = .rr ∨ policy = .wrr) :
    (Op.fork 1 3).Pre (withReset policy) := by
  have hinv := reach_inv (fun _ _ hop => hop) bootSystem_boot (withReset_reach h)
  refine Op.pre_of_check hinv ?_
  rcases h with rfl | rfl | rfl <;> decide +kernel

theorem forksReverted_boot : ForksReverted (upConfig .basic) (withReset .fifo) 1 3 ↔
    ((withReset .fifo).task 1).policy ≠ .wrr :=
  forksReverted_iff bootSystem_boot (withReset_reach (.inl rfl)) (withReset_fork (.inl rfl))
    (by decide +kernel)

/-- A `SCHED_WRR` task with the flag forks a `SCHED_WRR` task of the same priority. -/
theorem forksReverted_wrr : ¬∀ (cfg : Config) (s₀ s : System) (p child : Pid), Boot s₀ →
    Reach (fun s op => op.Pre s) (exec cfg) s₀ s → (Op.fork p child).Pre s →
    (s.task p).schedResetOnFork = true → ForksReverted cfg s p child := by
  intro hall
  have hrev := (hall (upConfig .basic) bootSystem (withReset .wrr) 1 3 bootSystem_boot
    (withReset_reach (.inr (.inr rfl))) (withReset_fork (.inr (.inr rfl))) (by decide +kernel)).first
  have hchild : ((exec (upConfig .basic) (withReset .wrr) (.fork 1 3)).task 3).schedClass = .wrr := by
    decide +kernel
  have hfair := hrev.schedClass
  rw [hchild] at hfair
  cases hfair

end LinuxWrr
