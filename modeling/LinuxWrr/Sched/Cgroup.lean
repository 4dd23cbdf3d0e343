import LinuxWrr.Sched.ClassPolicy
import LinuxWrr.Sched.GroupPath

/-!
# Moving tasks between groups

The slice of a `SCHED_WRR` task is that of its group, so that moving the task to another
group changes its weight. `sched_move_task` does what it takes; but a move request first
asks `cpu_cgroup_can_attach`, which "doesn't support RT-tasks being in separate groups"
and refuses every set with a task outside the fair class.

- `attachRequest`: `cpu_cgroup_can_attach` over the whole set, then `cpu_cgroup_attach`.
- `Grouping`, `regroup`: a system, and the group every task was last moved to.
- `Grouping.StepOk`: what a step has to do for the weights to follow the groups.
- `weight_follows_iff`: **at every point of every run, a step does it exactly when it is not a
  request to move a task of the WRR class**.
-/

namespace LinuxWrr

/-- `task_and_cgroup`, an element of a `cgroup_taskset`: a task, and the cgroup it is in when
the move is requested. -/
structure TaskAndCgroup where
  task : Pid
  cgrp : Nat
  deriving DecidableEq, Repr

/-- The tasks of `cgroup_taskset_for_each(task, cgrp, tset)`: those already in `cgrp` are
skipped. -/
def cgroupTasksetForEach (cgrp : Nat) (tset : List TaskAndCgroup) : List Pid :=
  (tset.filter fun x => x.cgrp ≠ cgrp).map TaskAndCgroup.task

/-- `cpu_cgroup_can_attach`, without `CONFIG_RT_GROUP_SCHED`. -/
def cpuCgroupCanAttach (s : System) (cgrp : Nat) (tset : List TaskAndCgroup) : Except Errno Unit :=
  if (cgroupTasksetForEach cgrp tset).any fun p => (s.task p).schedClass ≠ .fair then
    .error .einval
  else .ok ()

/-- `sched_move_task` in turn. `autogroup p k tg` is the answer of `autogroup_task_group` for
the task `p` of class `k`. -/
def schedMoveTasks (cfg : Config) (autogroup : Pid → ClassId → Nat → Nat) (cgrp : Nat) :
    System → List Pid → System
  | s, [] => s
  | s, p :: tasks =>
    let tg := autogroup p (s.task p).schedClass cgrp
    schedMoveTasks cfg autogroup cgrp (schedMoveTask cfg s p tg) tasks

/-- `cpu_cgroup_attach`. -/
def cpuCgroupAttach (cfg : Config) (autogroup : Pid → ClassId → Nat → Nat) (s : System)
    (cgrp : Nat) (tset : List TaskAndCgroup) : System :=
  schedMoveTasks cfg autogroup cgrp s (cgroupTasksetForEach cgrp tset)

/-- A request to move a set of tasks to `cgrp`. -/
def attachRequest (cfg : Config) (autogroup : Pid → ClassId → Nat → Nat) (s : System)
    (cgrp : Nat) (tset : List TaskAndCgroup) : Except Errno Unit × System :=
  match cpuCgroupCanAttach s cgrp tset with
  | .error e => (.error e, s)
  | .ok () => (.ok (), cpuCgroupAttach cfg autogroup s cgrp tset)

variable {cfg : Config} {s t : System} {c : Cpu} {p q : Pid} {cgrp : Nat}
  {tset : List TaskAndCgroup} {autogroup : Pid → ClassId → Nat → Nat}

/-- A request is accepted exactly when each task it names is a fair one. -/
theorem cpuCgroupCanAttach_iff : cpuCgroupCanAttach s cgrp tset = .ok () ↔
    ∀ p ∈ cgroupTasksetForEach cgrp tset, (s.task p).schedClass = .fair := by
  unfold cpuCgroupCanAttach
  simp

/-- An accepted request attaches all its tasks. -/
theorem attachRequest_ok (h : cpuCgroupCanAttach s cgrp tset = .ok ()) :
    attachRequest cfg autogroup s cgrp tset = (.ok (), cpuCgroupAttach cfg autogroup s cgrp tset) := by
  unfold attachRequest
  rw [h]

theorem attachRequest_error {e : Errno} (h : cpuCgroupCanAttach s cgrp tset = .error e) :
    attachRequest cfg autogroup s cgrp tset = (.error e, s) := by
  unfold attachRequest
  rw [h]

/-! ## Moves -/

/-- A move writes the group and nothing else of the task. -/
theorem schedMoveTasks_task (s : System) (tasks : List Pid) (q : Pid) :
    (schedMoveTasks cfg autogroup cgrp s tasks).task q = if q ∈ tasks then
      { s.task q with schedTaskGroup := autogroup q (s.task q).schedClass cgrp } else s.task q := by
  induction tasks generalizing s with
  | nil => rfl
  | cons p tasks ih =>
    have heff := schedMoveTask_effect cfg s p (autogroup p (s.task p).schedClass cgrp)
    show (schedMoveTasks cfg autogroup cgrp (schedMoveTask cfg s p _) tasks).task q = _
    rw [ih]
    by_cases hqp : q = p
    · subst hqp
      rw [heff.self, if_pos List.mem_cons_self]
      split <;> rfl
    · rw [heff.other hqp]
      simp [hqp]

/-- Every task stays at its slot. -/
theorem schedMoveTasks_slots (cfg : Config) (autogroup : Pid → ClassId → Nat → Nat) (cgrp : Nat)
    (s : System) (tasks : List Pid) : (schedMoveTasks cfg autogroup cgrp s tasks).slots cfg = s.slots cfg := by
  funext q
  unfold System.slots
  rw [schedMoveTasks_task]
  by_cases hq : q ∈ tasks
  · have hslot : slotOf cfg { s.task q with
        schedTaskGroup := autogroup q (s.task q).schedClass cgrp } = slotOf cfg (s.task q) :=
      slotOf_congr cfg rfl rfl rfl rfl
    rw [if_pos hq, hslot]
  · rw [if_neg hq]

theorem schedMoveTasks_inv (h : Inv cfg s) {tasks : List Pid} (hp : ∀ p ∈ tasks, s.Ordinary p) :
    Inv cfg (schedMoveTasks cfg autogroup cgrp s tasks) := by
  induction tasks generalizing s with
  | nil => exact h
  | cons p tasks ih =>
    have heff := schedMoveTask_effect cfg s p (autogroup p (s.task p).schedClass cgrp)
    have hinv := schedMoveTask_inv h (hp p List.mem_cons_self)
      (autogroup p (s.task p).schedClass cgrp)
    have hkinds : SameKinds s (schedMoveTask cfg s p (autogroup p (s.task p).schedClass cgrp)) :=
      heff.sameKinds rfl
    refine ih hinv fun q hq => ?_
    refine SameKinds.ordinary (fun r => (hkinds r).symm) hinv h ?_
    exact hp q (List.mem_cons_of_mem p hq)

/-! ## Runs -/

inductive CgroupOp where
  | tick (c : Cpu) (o : Outside)
  | schedule (c : Cpu) (sleep : Bool) (o : Outside)
  | attach (cgrp : Nat) (tset : List TaskAndCgroup)
  /-- `cpu_cgroup_exit` of a task with `PF_EXITING`, which asks nobody. -/
  | exit (p : Pid) (cgrp : Nat)

def CgroupOp.exec (cfg : Config) (autogroup : Pid → ClassId → Nat → Nat) (s : System) :
    CgroupOp → System
  | .tick c o => schedulerTick cfg s c o
  | .schedule c sleep o => LinuxWrr.schedule cfg s c sleep o
  | .attach cgrp tset => (attachRequest cfg autogroup s cgrp tset).2
  | .exit p cgrp => schedMoveTasks cfg autogroup cgrp s [p]

def CgroupOp.Pre (s : System) : CgroupOp → Prop
  | .tick c o => (Op.tick c o).Pre s
  | .schedule c sleep o => (Op.schedule c sleep o).Pre s
  | .attach _ tset => ∀ x ∈ tset, s.Ordinary x.task
  | .exit p _ => s.Ordinary p

/-- A system, and the group every task was last moved to. -/
structure Grouping where
  sys : System
  group : Pid → Nat

/-- Before any move: the groups the tasks are in. -/
def Grouping.start (s : System) : Grouping := ⟨s, fun p => (s.task p).schedTaskGroup⟩

/-- One step. A refused request moves nothing. -/
def regroup (cfg : Config) (autogroup : Pid → ClassId → Nat → Nat) (g : Grouping)
    (op : CgroupOp) : Grouping where
  sys := op.exec cfg autogroup g.sys
  group := match op with
    | .attach cgrp tset =>
      match cpuCgroupCanAttach g.sys cgrp tset with
      | .error _ => g.group
      | .ok () => fun p => if p ∈ cgroupTasksetForEach cgrp tset then cgrp else g.group p
    | .exit p cgrp => Function.update g.group p cgrp
    | _ => g.group

/-- What a step has to do: a request is accepted and leaves every task at its slot; a tick
that uses up a WRR slice refills it with that of the group the task was last moved to. -/
def Grouping.StepOk (cfg : Config) (autogroup : Pid → ClassId → Nat → Nat) (g : Grouping)
    (op : CgroupOp) : Prop :=
  match op with
  | .tick c _ =>
    let p := (g.sys.rq c).curr
    (g.sys.task p).schedClass = .wrr → g.sys.Expires p →
      ((op.exec cfg autogroup g.sys).task p).timeSlice =
        cfg.sliceFor (g.sys.foregroundOf cfg (g.group p)) (g.sys.task p).rtPriority
  | .schedule _ _ _ => True
  | .attach cgrp tset =>
    (attachRequest cfg autogroup g.sys cgrp tset).1 = .ok () ∧
      Rep (op.exec cfg autogroup g.sys) (g.sys.slots cfg)
  | .exit _ _ => Rep (op.exec cfg autogroup g.sys) (g.sys.slots cfg)

/-- The step is no request to move a task of the WRR class. -/
def CgroupOp.SparesWrr (s : System) : CgroupOp → Prop
  | .attach cgrp tset => ∀ p ∈ cgroupTasksetForEach cgrp tset, (s.task p).schedClass ≠ .wrr
  | _ => True

/-- No RT policy and no RT effective priority. -/
def System.NoRt (s : System) : Prop :=
  ∀ p, s.Ordinary p → rtPolicy (s.task p).policy = false ∧ rtPrio (s.task p).prio = false

/-! ## The invariant of runs -/

/-- Tasks outside the fair class are in the group they were last moved to, and no task is an
RT one. -/
structure Grouping.Ok (cfg : Config) (g : Grouping) : Prop where
  inv : Inv cfg g.sys
  noRt : g.sys.NoRt
  group : ∀ p, (g.sys.task p).schedClass ≠ .fair → (g.sys.task p).schedTaskGroup = g.group p

/-- What ticks and reschedules keep of every task. -/
def Task.membership (t : Task) : ClassId × Nat := (t.schedClass, t.schedTaskGroup)

/-- A tick moves nobody to another group. -/
theorem schedulerTick_membership (h : Inv cfg s)
    (hpre : (s.rq c).curr = (s.rq c).idle ∨ s.CurrOnRq c) (o : Outside) :
    SameOn Task.membership s (schedulerTick cfg s c o) := by
  rcases hpre with hidle | hon
  · rw [(idle_tick h hidle o).1]
    exact SameOn.refl _ s
  · have hrtp := (h.task _ (h.alive_of_onRq hon.1)).rtPriority
    obtain ⟨_, _, _, _, -, heff⟩ := (schedulerTick_move hon.2 hrtp o).effect
    exact heff.sameOn rfl

/-- A switch moves nobody to another group. -/
theorem schedule_membership (cfg : Config) (s : System) (c : Cpu) (sleep : Bool) (o : Outside) :
    SameOn Task.membership s (schedule cfg s c sleep o) := by
  have hretire := (retirePrev_effect cfg s c sleep).1
  have hsame : SameOn Task.membership s (retirePrev cfg s c sleep) := hretire.sameOn rfl
  exact hsame.trans (SameOn.of_task (switchTo_task cfg _ c _ o))

theorem schedMoveTasks_kinds (s : System) (tasks : List Pid) :
    SameKinds s (schedMoveTasks cfg autogroup cgrp s tasks) := by
  intro q
  rw [schedMoveTasks_task]
  split <;> rfl

/-- Without RT tasks a step that keeps all kinds brings none in. -/
theorem SameKinds.noRt {t : System} (h : SameKinds s t) (hs : Inv cfg s) (ht : Inv cfg t)
    (hrt : s.NoRt) : t.NoRt := by
  intro p hp
  obtain ⟨hpolicy, hprio⟩ := hrt p (h.ordinary hs ht hp)
  have hkind := h p
  have hpolicy' : (t.task p).kind.policy = (s.task p).kind.policy := by rw [hkind]
  have hprio' : (t.task p).kind.prio = (s.task p).kind.prio := by rw [hkind]
  exact ⟨(congrArg rtPolicy hpolicy').trans hpolicy, (congrArg rtPrio hprio').trans hprio⟩

/-- A request for ordinary tasks names ordinary tasks only. -/
theorem mem_tasks_ordinary (h : ∀ x ∈ tset, s.Ordinary x.task)
    (hp : p ∈ cgroupTasksetForEach cgrp tset) : s.Ordinary p := by
  obtain ⟨x, hx, rfl⟩ := List.mem_map.mp hp
  exact h x (List.mem_filter.mp hx).1

/-- What every step keeps of every task but its group and what scheduling writes. -/
theorem CgroupOp.exec_kinds (autogroup : Pid → ClassId → Nat → Nat) (h : Inv cfg s)
    {op : CgroupOp} (hpre : op.Pre s) :
    Inv cfg (op.exec cfg autogroup s) ∧ SameKinds s (op.exec cfg autogroup s) := by
  cases op with
  | tick c o =>
    have hkind : SameKinds s (LinuxWrr.exec cfg s (.tick c o)) := exec_kind h hpre rfl
    exact ⟨exec_inv h (.tick c o) hpre, hkind⟩
  | schedule c sleep o =>
    exact ⟨exec_inv h (.schedule c sleep o) hpre, schedule_sameKinds cfg s c sleep o⟩
  | attach cgrp tset =>
    show Inv cfg (attachRequest cfg autogroup s cgrp tset).2 ∧
      SameKinds s (attachRequest cfg autogroup s cgrp tset).2
    cases hcan : cpuCgroupCanAttach s cgrp tset with
    | error e =>
      rw [attachRequest_error hcan]
      exact ⟨h, fun _ => rfl⟩
    | ok u =>
      rw [attachRequest_ok hcan]
      exact ⟨schedMoveTasks_inv h fun p hp => mem_tasks_ordinary hpre hp, schedMoveTasks_kinds s _⟩
  | exit p cgrp =>
    refine ⟨schedMoveTasks_inv h fun q hq => ?_, schedMoveTasks_kinds s [p]⟩
    rwa [List.mem_singleton.mp hq]

/-- Tasks outside the fair class are in the group they were last moved to. -/
def Grouping.Follows (g : Grouping) : Prop :=
  ∀ p, (g.sys.task p).schedClass ≠ .fair → (g.sys.task p).schedTaskGroup = g.group p

/-- Group and membership stay in step as long as the membership does not change. -/
theorem Grouping.Follows.sameOn {g : Grouping} {t : System} (hg : g.Follows)
    (hsame : SameOn Task.membership g.sys t) : Grouping.Follows ⟨t, g.group⟩ := by
  intro p hp
  obtain ⟨hclass, htg⟩ := Prod.mk.inj (hsame p)
  dsimp only at hp ⊢
  rw [hclass] at hp
  rw [htg]
  exact hg p hp

/-- An accepted request moves tasks of the fair class only. -/
theorem Grouping.Follows.attach {g : Grouping} (hg : g.Follows) (cgrp : Nat)
    (tset : List TaskAndCgroup) : (regroup cfg autogroup g (.attach cgrp tset)).Follows := by
  intro p hp
  change (((attachRequest cfg autogroup g.sys cgrp tset).2.task p).schedClass ≠ .fair) at hp
  show ((attachRequest cfg autogroup g.sys cgrp tset).2.task p).schedTaskGroup =
    (match cpuCgroupCanAttach g.sys cgrp tset with
      | .error _ => g.group
      | .ok () => fun p => if p ∈ cgroupTasksetForEach cgrp tset then cgrp else g.group p) p
  cases hcan : cpuCgroupCanAttach g.sys cgrp tset with
  | error e =>
    rw [attachRequest_error hcan] at hp ⊢
    exact hg p hp
  | ok u =>
    rw [attachRequest_ok hcan] at hp ⊢
    simp only [cpuCgroupAttach, schedMoveTasks_task] at hp ⊢
    by_cases hmem : p ∈ cgroupTasksetForEach cgrp tset
    · -- so the task has passed the test of its class
      rw [if_pos hmem] at hp
      exact absurd (cpuCgroupCanAttach_iff.mp hcan p hmem) hp
    · rw [if_neg hmem] at hp ⊢
      rw [if_neg hmem]
      exact hg p hp

/-- A task that exits goes to the group that is named for it. -/
theorem Grouping.Follows.exit {g : Grouping} (hg : g.Follows)
    (hauto : ∀ p k cgrp, k ≠ .fair → autogroup p k cgrp = cgrp) (q : Pid) (cgrp : Nat) :
    (regroup cfg autogroup g (.exit q cgrp)).Follows := by
  intro p hp
  change (((schedMoveTasks cfg autogroup cgrp g.sys [q]).task p).schedClass ≠ .fair) at hp
  show ((schedMoveTasks cfg autogroup cgrp g.sys [q]).task p).schedTaskGroup =
    Function.update g.group q cgrp p
  rw [schedMoveTasks_task] at hp ⊢
  by_cases hpq : p = q
  · subst hpq
    rw [if_pos List.mem_cons_self] at hp ⊢
    rw [Function.update_self]
    exact hauto p _ cgrp hp
  · have hmem : p ∉ [q] := by simpa using hpq
    rw [if_neg hmem] at hp ⊢
    rw [Function.update_of_ne hpq]
    exact hg p hp

/-- **Step lemma**: the groups stay those of the last moves. -/
theorem regroup_ok (hauto : ∀ p k cgrp, k ≠ .fair → autogroup p k cgrp = cgrp) {g : Grouping}
    (hg : g.Ok cfg) {op : CgroupOp} (hpre : op.Pre g.sys) : (regroup cfg autogroup g op).Ok cfg := by
  obtain ⟨hinv, hrt, hgroup⟩ := hg
  have hfollows : g.Follows := hgroup
  obtain ⟨hinv', hkinds⟩ := CgroupOp.exec_kinds autogroup hinv hpre
  refine ⟨hinv', hkinds.noRt hinv hinv' hrt, ?_⟩
  cases op with
  | tick c o => exact hfollows.sameOn (schedulerTick_membership hinv hpre o)
  | schedule c sleep o => exact hfollows.sameOn (schedule_membership cfg g.sys c sleep o)
  | attach cgrp tset => exact hfollows.attach cgrp tset
  | exit q cgrp => exact hfollows.exit hauto q cgrp

/-- Without RT tasks the gate refuses the tasks of the WRR class and no others. -/
theorem canAttach_iff_sparesWrr {g : Grouping} (hg : g.Ok cfg)
    (hord : ∀ x ∈ tset, g.sys.Ordinary x.task) : cpuCgroupCanAttach g.sys cgrp tset = .ok () ↔
      ∀ p ∈ cgroupTasksetForEach cgrp tset, (g.sys.task p).schedClass ≠ .wrr := by
  rw [cpuCgroupCanAttach_iff]
  refine forall₂_congr fun p hp => ?_
  have hp' := mem_tasks_ordinary hord hp
  obtain ⟨halive, hidle, hstop⟩ := hg.inv.ordinary_iff.mp hp'
  have hnot : (g.sys.task p).schedClass ≠ .rt := by
    intro hk
    have hprio : rtPrio (g.sys.task p).prio = true :=
      decide_eq_true ((hg.inv.task p halive).rt hk)
    rw [(hg.noRt p hp').2] at hprio
    cases hprio
  cases hk : (g.sys.task p).schedClass with
  | stop => exact absurd hk hstop
  | rt => exact absurd hk hnot
  | idle => exact absurd hk hidle
  | wrr => simp
  | fair => simp

/-- A move leaves the run queues holding what they held. -/
theorem schedMoveTasks_rep (h : Inv cfg s) {tasks : List Pid} (hp : ∀ p ∈ tasks, s.Ordinary p) :
    Rep (schedMoveTasks cfg autogroup cgrp s tasks) (s.slots cfg) := by
  rw [← schedMoveTasks_slots cfg autogroup cgrp s tasks]
  exact (schedMoveTasks_inv h hp).rep

/-- The refill of a tick is that of the task's own group. -/
theorem schedulerTick_slice (hk : (s.task (s.rq c).curr).schedClass = .wrr)
    (h : s.Expires (s.rq c).curr) (o : Outside) :
    ((schedulerTick cfg s c o).task (s.rq c).curr).timeSlice =
      cfg.sliceFor (s.foregroundOf cfg (s.task (s.rq c).curr).schedTaskGroup)
        (s.task (s.rq c).curr).rtPriority := by
  rw [← getRrIntervalWrr_eq, ← taskTickWrr_slice (c := c) (o := o) h]
  have htick : schedulerTick cfg s c o =
      (schedClassOf cfg (s.task (s.rq c).curr).schedClass).taskTick s c (s.rq c).curr o := rfl
  rw [htick, hk]
  rfl

/-- A step keeps the two in step exactly when it spares the WRR tasks. -/
theorem stepOk_iff {g : Grouping} (hg : g.Ok cfg) {op : CgroupOp} (hpre : op.Pre g.sys) :
    g.StepOk cfg autogroup op ↔ op.SparesWrr g.sys := by
  cases op with
  | tick c o =>
    refine iff_of_true (fun hk hexp => ?_) trivial
    have hne : (g.sys.task (g.sys.rq c).curr).schedClass ≠ .fair := fun hfair => by
      rw [hk] at hfair
      cases hfair
    rw [← hg.group _ hne]
    exact schedulerTick_slice hk hexp o
  | schedule c sleep o => exact Iff.rfl
  | attach cgrp tset =>
    show ((attachRequest cfg autogroup g.sys cgrp tset).1 = .ok () ∧
      Rep (attachRequest cfg autogroup g.sys cgrp tset).2 (g.sys.slots cfg)) ↔
        ∀ p ∈ cgroupTasksetForEach cgrp tset, (g.sys.task p).schedClass ≠ .wrr
    rw [← canAttach_iff_sparesWrr hg hpre]
    cases hcan : cpuCgroupCanAttach g.sys cgrp tset with
    | error e =>
      rw [attachRequest_error hcan]
      refine iff_of_false (fun hno => ?_) fun hno => ?_
      · cases hno.1
      · cases hno
    | ok u =>
      rw [attachRequest_ok hcan]
      refine iff_of_true ⟨rfl, ?_⟩ rfl
      exact schedMoveTasks_rep hg.inv fun p hp => mem_tasks_ordinary hpre hp
  | exit p cgrp =>
    refine iff_of_true ?_ trivial
    refine schedMoveTasks_rep hg.inv fun q hq => ?_
    rwa [List.mem_singleton.mp hq]

/-- **A WRR task's weight follows its group exactly when no request names a task of the WRR
class**: at every point of every run of ticks, reschedules and moves among tasks without RT
policies and priorities. -/
theorem weight_follows_iff {s₀ : System} {g : Grouping} (hs : Boot s₀)
    (h : Reach (fun s op => op.Pre s) (exec cfg) s₀ s) (hrt : s.NoRt)
    (hauto : ∀ p k cgrp, k ≠ .fair → autogroup p k cgrp = cgrp)
    (hrun : Reach (fun g op => CgroupOp.Pre (Grouping.sys g) op) (regroup cfg autogroup)
      (.start s) g)
    {op : CgroupOp} (hpre : op.Pre g.sys) : g.StepOk cfg autogroup op ↔ op.SparesWrr g.sys := by
  have hinv := reach_inv (fun _ _ hop => hop) hs h
  have hok : g.Ok cfg := hrun.invariant (I := Grouping.Ok cfg)
    (fun _ _ hg hop => regroup_ok hauto hg hop) ⟨hinv, hrt, fun _ _ => rfl⟩
  exact stepOk_iff hok hpre

/-- Without autogroups a task is in the group of its cgroup. -/
def noAutogroup (_ : Pid) (_ : ClassId) (cgrp : Nat) : Nat := cgrp

/-- `CgroupOp.Pre` as a test, for states that satisfy the invariant. -/
def CgroupOp.check (s : System) : CgroupOp → Bool
  | .tick c o => (Op.tick c o).check s
  | .schedule c sleep o => (Op.schedule c sleep o).check s
  | .attach _ tset => tset.all fun x => Op.check.ordinary s x.task
  | .exit p _ => Op.check.ordinary s p

theorem CgroupOp.pre_of_check (h : Inv cfg s) {op : CgroupOp} (hcheck : op.check s = true) :
    op.Pre s := by
  cases op with
  | tick c o =>
    have htick : (Op.tick c o).check s = true := hcheck
    exact Op.pre_of_check h htick
  | schedule c sleep o =>
    have hschedule : (Op.schedule c sleep o).check s = true := hcheck
    exact Op.pre_of_check h hschedule
  | attach cgrp tset =>
    intro x hx
    exact (Op.ordinary_check h).mp (List.all_eq_true.mp hcheck x hx)
  | exit p cgrp => exact (Op.ordinary_check h).mp hcheck

theorem grouping_of_check (autogroup : Pid → ClassId → Nat → Nat) {g : Grouping}
    (hg : Inv cfg g.sys) (ops : List CgroupOp)
    (hrun : Reach.runTest (fun g op => CgroupOp.check (Grouping.sys g) op)
      (regroup cfg autogroup) g ops = true) :
    Reach (fun g op => CgroupOp.Pre (Grouping.sys g) op) (regroup cfg autogroup) g
      (ops.foldl (regroup cfg autogroup) g) :=
  Reach.of_runTest (I := fun g => Inv cfg (Grouping.sys g))
    (fun _ _ hg hpre => (CgroupOp.exec_kinds autogroup hg hpre).1)
    (fun _ _ hg => CgroupOp.pre_of_check hg) hg hrun

/-- A WRR task runs, and a second one is queued. -/
def runningWrr : System :=
  [.wakeUp 1 0 .quiet, .wakeUp 5 0 .quiet, .schedule 0 false .quiet].foldl
    (exec (upConfig .basic)) (wrrSystem fun _ => 50)

theorem runningWrr_reach : Reach (fun s op => op.Pre s) (exec (upConfig .basic))
    (wrrSystem fun _ => 50) runningWrr :=
  reach_of_check (wrrSystem_boot _).inv
    [.wakeUp 1 0 .quiet, .wakeUp 5 0 .quiet, .schedule 0 false .quiet] (by decide +kernel)

/-- The first task is a sleeping WRR task, every other one a sleeping fair task. -/
def mixedSystem : System := bootWith fun p => if p = 1 then wrrTask 50 else fairTask

theorem mixedSystem_boot : Boot mixedSystem := by
  refine bootWith_boot fun p => ?_
  by_cases hp : p = 1
  · rw [if_pos hp]
    exact ⟨rfl, wrrTask_ok (by decide), (fun hk => nomatch hk), fun hk => nomatch hk⟩
  · rw [if_neg hp]
    exact fairTask_boot p

theorem mixedSystem_noRt : mixedSystem.NoRt := by
  intro p _
  show rtPolicy (bootTask _ p).policy = false ∧ rtPrio (bootTask _ p).prio = false
  by_cases hp : p % 2 = 0
  · rw [bootTask_even _ hp]
    exact ⟨rfl, rfl⟩
  · rw [bootTask_odd _ hp]
    by_cases hone : p = 1
    · rw [if_pos hone]
      exact ⟨rfl, rfl⟩
    · rw [if_neg hone]
      exact ⟨rfl, rfl⟩

/-- The WRR task runs, two fair tasks are queued behind it. -/
def runningMixed : System :=
  [.wakeUp 1 0 .quiet, .wakeUp 5 0 .quiet, .wakeUp 9 0 .quiet, .schedule 0 false .quiet].foldl
    (exec (upConfig .basic)) mixedSystem

theorem runningMixed_reach : Reach (fun s op => op.Pre s) (exec (upConfig .basic)) mixedSystem
    runningMixed :=
  reach_of_check mixedSystem_boot.inv
    [.wakeUp 1 0 .quiet, .wakeUp 5 0 .quiet, .wakeUp 9 0 .quiet, .schedule 0 false .quiet]
    (by decide +kernel)

theorem runningMixed_noRt : runningMixed.NoRt := by
  have hboot : Inv (upConfig .basic) mixedSystem := mixedSystem_boot.inv
  have hinv : Inv (upConfig .basic) runningMixed :=
    reach_inv (fun _ _ hop => hop) mixedSystem_boot runningMixed_reach
  have hwake : ∀ s p, SameKinds s (exec (upConfig .basic) s (.wakeUp p 0 .quiet)) := fun s p =>
    (activateOn_effect (upConfig .basic) s p 0 _ .quiet).sameKinds rfl
  have hkinds : SameKinds mixedSystem runningMixed :=
    (((hwake _ 1).trans (hwake _ 5)).trans (hwake _ 9)).trans
      (schedule_sameKinds (upConfig .basic) _ 0 false .quiet)
  exact hkinds.noRt hboot hinv mixedSystem_noRt

/-- A sleeping task is moved to group 2 and a queued one to group 1. A later request takes the
latter on to group 2 together with a third task; all three requests are accepted. -/
theorem weight_follows_boot :
    let g := [.attach 2 [⟨13, 0⟩], .attach 1 [⟨5, 0⟩], .tick 0 .quiet].foldl
      (regroup (upConfig .basic) noAutogroup) (.start runningMixed)
    let op : CgroupOp := .attach 2 [⟨5, 1⟩, ⟨13, 2⟩, ⟨9, 0⟩]
    let g' := regroup (upConfig .basic) noAutogroup g op
    g.StepOk (upConfig .basic) noAutogroup op ∧
      [1, 5, 9, 13].map g.group = [0, 1, 0, 2] ∧ [1, 5, 9, 13].map g'.group = [0, 2, 2, 2] ∧
      [1, 5, 9, 13].map (fun p => (g'.sys.task p).schedTaskGroup) = [0, 2, 2, 2] := by
  intro g op g'
  have hinv : Inv (upConfig .basic) (Grouping.start runningMixed).sys :=
    reach_inv (fun _ _ hop => hop) mixedSystem_boot runningMixed_reach
  have hrun := grouping_of_check noAutogroup hinv
    [.attach 2 [⟨13, 0⟩], .attach 1 [⟨5, 0⟩], .tick 0 .quiet] (by decide +kernel)
  have hg : Inv (upConfig .basic) g.sys :=
    hrun.invariant (I := fun g => Inv (upConfig .basic) (Grouping.sys g))
      (fun _ _ hg hpre => (CgroupOp.exec_kinds noAutogroup hg hpre).1) hinv
  have hpre : op.Pre g.sys := CgroupOp.pre_of_check hg (by decide +kernel)
  -- the tasks of the request are fair ones
  have hfair : ∀ p ∈ cgroupTasksetForEach 2 [⟨5, 1⟩, ⟨13, 2⟩, ⟨9, 0⟩],
      (g.sys.task p).schedClass ≠ .wrr := by decide +kernel
  exact ⟨(weight_follows_iff mixedSystem_boot runningMixed_reach runningMixed_noRt
    (fun _ _ _ _ => rfl) hrun hpre).mpr hfair, by decide +kernel, by decide +kernel,
    by decide +kernel⟩

/-- A request to move a queued WRR task is refused. -/
theorem weight_stays :
    Reach (fun s op => op.Pre s) (exec (upConfig .basic)) (wrrSystem fun _ => 50) runningWrr ∧
      ¬(Grouping.start runningWrr).StepOk (upConfig .basic) noAutogroup (.attach 1 [⟨5, 0⟩]) ∧
      runningWrr.Queued .wrr 0 5 ∧
      (attachRequest (upConfig .basic) noAutogroup runningWrr 1 [⟨5, 0⟩]).1 = .error .einval := by
  have hrefused : (attachRequest (upConfig .basic) noAutogroup runningWrr 1 [⟨5, 0⟩]).1 =
      .error .einval := by decide +kernel
  refine ⟨runningWrr_reach, fun hok => ?_, by decide +kernel, hrefused⟩
  have hacc := hok.1
  change (attachRequest (upConfig .basic) noAutogroup runningWrr 1 [⟨5, 0⟩]).1 = .ok () at hacc
  rw [hrefused] at hacc
  cases hacc

end LinuxWrr
