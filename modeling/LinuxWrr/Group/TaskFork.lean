import LinuxWrr.Group.Core
import LinuxWrr.Sched.Fork
import LinuxWrr.Sched.Setscheduler

/-!
# Forks and slices in the group-scheduling class

`task_fork_wrr` gives a child the slice of the parent *entity*: not that of the forking task,
but that of its group. The root group has no entity, those of the created groups are zeroed
memory, and no function writes a slice to them.

- `ForkOp`, `ForkRun`, `forkStep`: runs, with the ticks that each task has had of its slice.
- `SlicesOk`: no NULL dereference, no slice that is empty or too long, no wrap.
- `forkSlices_iff`: **a step keeps this exactly when it is not the fork of a `SCHED_WRR`
  task**, and so do the runs of such steps.
-/

namespace LinuxWrr.Group

variable {cfg : Config} {s t : GroupSystem} {p q : Pid} {stray : Gid → Nat} {f g : Task} {n : Nat}

/-! ## Runs -/

inductive ForkOp where
  | setscheduler (p : Pid) (policy : Policy) (reset : Bool) (prio : Nat) (o : Outside)
  | fork (parent child : Pid)
  | tick (o : Outside)
  | createGroup (parent : Option Gid)
  | moveGroup (p : Pid) (tg : Nat)
  | activate (p : Pid) (flags : Nat)
  | deactivate (p : Pid)
  /-- Another task becomes `rq->curr`. -/
  | switch (p : Pid)

/-- The state after an operation, unless it dereferences NULL. -/
def ForkOp.exec (cfg : Config) (stray : Gid → Nat) (s : GroupSystem) : ForkOp → Option GroupSystem
  | .setscheduler p policy reset prio o => some (changeScheduler cfg stray s p policy reset prio o)
  | .fork parent child => schedFork s parent child
  | .tick o => some (schedulerTick cfg stray s o)
  | .createGroup parent => some (Group.createGroup s parent)
  | .moveGroup p tg => some (schedMoveTask cfg stray s p tg)
  | .activate p flags => some (activateTask cfg stray s p flags)
  | .deactivate p => some (deactivateTask cfg stray s p)
  | .switch p => some (s.onBase fun b => b.updRq 0 fun r => { r with curr := p })

/-- When an operation may be issued. -/
def ForkOp.Pre (s : GroupSystem) : ForkOp → Prop
  | .setscheduler p _ _ _ _ | .switch p => (s.base.task p).alive = true
  | .fork parent child => (s.base.task parent).alive = true ∧ (s.base.task child).alive = false
  | .tick _ => True
  | .createGroup parent => ∀ g ∈ parent, g < s.groups
  | .moveGroup p tg => (s.base.task p).alive = true ∧ tg ≤ s.groups
  | .activate p _ => (s.base.task p).alive = true ∧ (s.base.task p).onRq = false
  | .deactivate p => (s.base.task p).onRq = true

/-- The ticks that `q` has had of its slice after an operation, if `n` before: a new slice, at
a change of policy, a fork or an expiry, starts afresh. -/
def ForkOp.ticks (s : GroupSystem) (q : Pid) (n : Nat) : ForkOp → Nat
  | .setscheduler p policy _ _ _ => if p = q ∧ policy = .wrr then 0 else n
  | .fork _ child => if child = q then 0 else n
  | .tick _ =>
    if (s.base.rq 0).curr = q ∧ (s.base.task q).schedClass = .wrr then
      if (s.base.task q).policy = .wrr ∧ decU32 (s.base.task q).timeSlice = 0 then 0 else n + 1
    else n
  | _ => n

structure ForkRun where
  sys : GroupSystem
  /-- A NULL pointer has been dereferenced. -/
  oops : Bool
  ticks : Pid → Nat

def forkStep (cfg : Config) (stray : Gid → Nat) (r : ForkRun) (op : ForkOp) : ForkRun :=
  match op.exec cfg stray r.sys with
  | none => { r with oops := true }
  | some t => { r with sys := t, ticks := fun q => op.ticks r.sys q (r.ticks q) }

def ForkRun.start (base : System) : ForkRun := ⟨initGroup base, false, fun _ => 0⟩

def ForkRun.Pre (r : ForkRun) (op : ForkOp) : Prop := op.Pre r.sys

/-- Not the fork of a `SCHED_WRR` task. -/
def ForkOp.NoWrrFork (s : GroupSystem) : ForkOp → Prop
  | .fork parent _ => (s.base.task parent).policy ≠ .wrr
  | _ => True

def ForkRun.Spares (r : ForkRun) (op : ForkOp) : Prop := op.Pre r.sys ∧ op.NoWrrFork r.sys

/-- What forks and slices should keep. -/
structure SlicesOk (cfg : Config) (r : ForkRun) : Prop where
  noOops : r.oops = false
  bounds : ∀ p, (r.sys.base.task p).alive = true → (r.sys.base.task p).schedClass = .wrr →
    1 ≤ (r.sys.base.task p).timeSlice ∧ (r.sys.base.task p).timeSlice ≤ cfg.wrrForeTimeslice
  /-- The decrement of the next tick does not wrap. -/
  noWrap : ∀ p, (r.sys.base.task p).alive = true → (r.sys.base.task p).schedClass = .wrr →
    decU32 (r.sys.base.task p).timeSlice + 1 = (r.sys.base.task p).timeSlice
  /-- The ticks that a task has had and those it has left are at most a foreground slice. -/
  expires : ∀ p, (r.sys.base.task p).alive = true → (r.sys.base.task p).schedClass = .wrr →
    r.ticks p + (r.sys.base.task p).timeSlice ≤ cfg.wrrForeTimeslice

/-! ## One task -/

/-- A task of the class has `SCHED_WRR`, had `n` ticks, and has not used up its slice. -/
def SliceOk (cfg : Config) (n : Nat) (f : Task) : Prop :=
  f.alive = true → f.schedClass = .wrr →
    f.policy = .wrr ∧ 1 ≤ f.timeSlice ∧ n + f.timeSlice ≤ cfg.wrrForeTimeslice

/-- The condition on a slice reads the share of the task only. -/
theorem SliceOk.congr (h : SliceOk cfg n f) (hsame : share g = share f) : SliceOk cfg n g := by
  obtain ⟨halive, hclass, hpolicy, hslice⟩ := share_eq_iff.mp hsame
  unfold SliceOk
  rw [halive, hclass, hpolicy, hslice]
  exact h

/-- The two slices, where a tick is no more than 10 ms. -/
theorem timeslice_bounds (hhz : 100 ≤ cfg.hz) (fore : Bool) :
    1 ≤ (if fore then cfg.wrrForeTimeslice else cfg.wrrBackTimeslice) ∧
      (if fore then cfg.wrrForeTimeslice else cfg.wrrBackTimeslice) ≤ cfg.wrrForeTimeslice := by
  unfold Config.wrrForeTimeslice Config.wrrBackTimeslice
  split <;> omega

/-- A tick uses one tick of the slice, and the last one refills it. -/
theorem SliceOk.tick (hhz : 100 ≤ cfg.hz) (h : SliceOk cfg n f) {ts : Nat}
    (hts : TickSlice cfg f ts) (hk : f.schedClass = .wrr) :
    SliceOk cfg (if f.policy = .wrr ∧ decU32 f.timeSlice = 0 then 0 else n + 1)
      { f with timeSlice := ts } := by
  intro halive _
  obtain ⟨hpolicy, hpos, hle⟩ := h halive hk
  refine ⟨hpolicy, ?_⟩
  cases hts with
  | other hother => exact absurd hpolicy hother
  | counted _ hleft =>
    rw [if_neg fun hno => hleft hno.2]
    have hfits := cfg.hzFits
    show 1 ≤ decU32 f.timeSlice ∧ n + 1 + decU32 f.timeSlice ≤ cfg.wrrForeTimeslice
    unfold decU32 at hleft ⊢
    unfold Config.wrrForeTimeslice at hle ⊢
    omega
  | expired _ hzero fore =>
    have hlast : f.policy = .wrr ∧ decU32 f.timeSlice = 0 := ⟨hpolicy, hzero⟩
    rw [if_pos hlast, Nat.zero_add]
    exact timeslice_bounds hhz fore

/-- A task starts its slice with no tick. -/
theorem SliceOk.fresh (hhz : 100 ≤ cfg.hz) (hpolicy : f.policy = .wrr) {fore : Bool}
    (hslice : f.timeSlice = if fore then cfg.wrrForeTimeslice else cfg.wrrBackTimeslice) :
    SliceOk cfg 0 f := by
  intro _ _
  rw [hslice, Nat.zero_add]
  exact ⟨hpolicy, timeslice_bounds hhz fore⟩

/-- The class of a child is WRR exactly when its parent is `SCHED_WRR`, as long as the class of
the parent goes with its policy. -/
theorem forkTask_class_iff (hf : f.schedClass = .wrr → f.policy = .wrr) :
    (forkTask f).schedClass = .wrr ↔ f.policy = .wrr := by
  have hclass : (forkTask f).schedClass = if (forkReset (dupTask f)).policy = .wrr then .wrr
      else if rtPrio (forkReset (dupTask f)).prio then f.schedClass else .fair := by
    rw [forkTask, forkClass_eq]
    show (if _ then _ else if _ then (forkReset (dupTask f)).schedClass else _ : ClassId) = _
    rw [(forkReset_class (dupTask f)).1]
    rfl
  constructor
  · intro hk
    rw [hclass] at hk
    split at hk
    next hwrr =>
      -- a reset would have made it `SCHED_NORMAL`
      rcases (forkReset_policy (dupTask f)).1 with hsame | hnormal
      · exact hsame.symm.trans hwrr
      · rw [hnormal] at hwrr
        cases hwrr
    next =>
      split at hk
      · exact hf hk
      · cases hk
  · intro hwrr
    rw [hclass]
    refine if_pos ?_
    have hpolicy := forkTask_wrr hwrr
    rwa [forkTask, forkClass_eq] at hpolicy

/-! ## Steps -/

/-- What a run keeps that forks no `SCHED_WRR` task. -/
structure ForkInv (cfg : Config) (r : ForkRun) : Prop where
  noOops : r.oops = false
  /-- The entities of the groups are as they were allocated. -/
  group : ∀ g, (r.sys.group g).timeSlice = 0
  task : ∀ p, SliceOk cfg (r.ticks p) (r.sys.base.task p)

variable {r : ForkRun} {op : ForkOp}

theorem ForkInv.slicesOk (h : ForkInv cfg r) : SlicesOk cfg r := by
  refine ⟨h.noOops, fun p halive hk => ?_, fun p halive hk => ?_, fun p halive hk => ?_⟩
  · obtain ⟨-, hpos, hle⟩ := h.task p halive hk
    exact ⟨hpos, (Nat.le_add_left _ _).trans hle⟩
  · obtain ⟨-, hpos, hle⟩ := h.task p halive hk
    have hfits := cfg.hzFits
    unfold Config.wrrForeTimeslice at hle
    unfold decU32
    omega
  · exact (h.task p halive hk).2.2

/-- A step that is carried out books its ticks. -/
theorem forkStep_some (cfg : Config) (stray : Gid → Nat) (ht : op.exec cfg stray r.sys = some t) :
    forkStep cfg stray r op =
      { r with sys := t, ticks := fun q => op.ticks r.sys q (r.ticks q) } := by
  rw [forkStep, ht]

/-- A step keeps the invariant if group slices stay empty and the slices of tasks stay in order. -/
theorem ForkInv.step (h : ForkInv cfg r) (ht : op.exec cfg stray r.sys = some t)
    (hgroup : ∀ g, (t.group g).timeSlice = 0)
    (htask : ∀ q, SliceOk cfg (op.ticks r.sys q (r.ticks q)) (t.base.task q)) :
    ForkInv cfg (forkStep cfg stray r op) := by
  rw [forkStep_some cfg stray ht]
  exact ⟨h.noOops, hgroup, htask⟩

/-- A step that writes no slice and counts no tick. -/
theorem ForkInv.step_same (h : ForkInv cfg r) (ht : op.exec cfg stray r.sys = some t)
    (hsame : SameShares r.sys t) (hticks : ∀ q n, op.ticks r.sys q n = n) :
    ForkInv cfg (forkStep cfg stray r op) := by
  refine h.step ht (fun g => ?_) fun q => ?_
  · rw [hsame.group]
    exact h.group g
  · rw [hticks]
    exact (h.task q).congr (hsame.task q)

/-- A change of policy hands out a fresh slice of the right length. -/
theorem ForkInv.setscheduler (h : ForkInv cfg r) (hhz : 100 ≤ cfg.hz) (stray : Gid → Nat) (p : Pid)
    (policy : Policy) (reset : Bool) (prio : Nat) (o : Outside) :
    ForkInv cfg (forkStep cfg stray r (.setscheduler p policy reset prio o)) := by
  have hchange := changeScheduler_changed cfg stray r.sys p policy reset prio o
  refine h.step rfl (fun g => ?_) fun q => ?_
  · rw [hchange.group]
    exact h.group g
  by_cases hq : q = p
  · subst hq
    by_cases hwrr : policy = .wrr
    · obtain ⟨fore, hslice⟩ := hchange.slice hwrr
      have hfresh := SliceOk.fresh hhz (hchange.policy.trans hwrr) hslice
      rwa [show (ForkOp.setscheduler q policy reset prio o).ticks r.sys q (r.ticks q) = 0 from
        if_pos ⟨rfl, hwrr⟩]
    · intro _ hk
      exact absurd (hchange.schedClass.mp hk) hwrr
  · rw [show (ForkOp.setscheduler p policy reset prio o).ticks r.sys q (r.ticks q) = r.ticks q from
      if_neg fun hno => hq hno.1.symm]
    exact (h.task q).congr (hchange.other q hq)

/-- A tick takes one from the slice of the running task, or refills it. -/
theorem ForkInv.tick (h : ForkInv cfg r) (hhz : 100 ≤ cfg.hz) (stray : Gid → Nat) (o : Outside) :
    ForkInv cfg (forkStep cfg stray r (.tick o)) := by
  by_cases hk : (r.sys.base.task (r.sys.base.rq 0).curr).schedClass = .wrr
  · obtain ⟨ts, hts, htask, hgroup⟩ := schedulerTick_wrr cfg stray hk o
    refine h.step rfl (fun g => ?_) fun q => ?_
    · rw [hgroup]
      exact h.group g
    rw [htask]
    by_cases hq : (r.sys.base.rq 0).curr = q
    · rw [hq] at hts hk ⊢
      have hticks : (ForkOp.tick o).ticks r.sys q (r.ticks q) =
          if (r.sys.base.task q).policy = .wrr ∧ decU32 (r.sys.base.task q).timeSlice = 0 then 0
            else r.ticks q + 1 := if_pos ⟨hq, hk⟩
      rw [hticks, Function.update_self]
      exact (h.task q).tick hhz hts hk
    · have hticks : (ForkOp.tick o).ticks r.sys q (r.ticks q) = r.ticks q :=
        if_neg fun hno => hq hno.1
      rw [hticks, Function.update_of_ne (Ne.symm hq)]
      exact h.task q
  · refine h.step_same rfl (schedulerTick_other cfg stray hk o) fun q n => if_neg ?_
    rintro ⟨rfl, hwrr⟩
    exact hk hwrr

/-- A fork by a task of another policy gives no slice away. -/
theorem ForkInv.fork (h : ForkInv cfg r) (stray : Gid → Nat) {parent child : Pid}
    (halive : (r.sys.base.task parent).alive = true)
    (hpolicy : (r.sys.base.task parent).policy ≠ .wrr) :
    ForkInv cfg (forkStep cfg stray r (.fork parent child)) := by
  have hk : (forkTask (r.sys.base.task parent)).schedClass ≠ .wrr := by
    rw [Ne, forkTask_class_iff fun hk => (h.task parent halive hk).1]
    exact hpolicy
  obtain ⟨t, hfork, htask, hgroup⟩ := schedFork_other child hk
  refine h.step hfork (fun g => ?_) fun q => ?_
  · rw [hgroup]
    exact h.group g
  rw [htask]
  by_cases hq : q = child
  · subst hq
    rw [Function.update_self]
    exact fun _ hwrr => absurd hwrr hk
  · have hticks : (ForkOp.fork parent child).ticks r.sys q (r.ticks q) = r.ticks q :=
      if_neg (Ne.symm hq)
    rw [hticks, Function.update_of_ne hq]
    exact h.task q

/-- **Step lemma**: a step that forks no WRR task keeps the slices in order. -/
theorem forkStep_inv (h : ForkInv cfg r) (hhz : 100 ≤ cfg.hz) (stray : Gid → Nat)
    (hop : r.Spares op) : ForkInv cfg (forkStep cfg stray r op) := by
  obtain ⟨hpre, hspare⟩ := hop
  cases op with
  | setscheduler p policy reset prio o => exact h.setscheduler hhz stray p policy reset prio o
  | fork parent child => exact h.fork stray hpre.1 hspare
  | tick o => exact h.tick hhz stray o
  | createGroup parent =>
    -- a new entity is zeroed memory
    refine h.step rfl (fun g => ?_) h.task
    show (Function.update r.sys.group _ _ g).timeSlice = 0
    by_cases hg : g = r.sys.groups
    · rw [hg, Function.update_self]
    · rw [Function.update_of_ne hg]
      exact h.group g
  | moveGroup p tg =>
    exact h.step_same rfl (schedMoveTask_sameShares cfg stray r.sys p tg) fun _ _ => rfl
  | activate p flags =>
    exact h.step_same rfl (activateTask_sameShares cfg stray r.sys p flags) fun _ _ => rfl
  | deactivate p =>
    exact h.step_same rfl (deactivateTask_sameShares cfg stray r.sys p) fun _ _ => rfl
  | switch p =>
    have hswitch : SameShares r.sys
        (r.sys.onBase fun b => b.updRq 0 fun r => { r with curr := p }) :=
      .onBase (SameOn.of_task rfl)
    exact h.step_same rfl hswitch fun _ _ => rfl

/-- The fork of a `SCHED_WRR` task dereferences NULL, or leaves a child with an empty slice. -/
theorem forkStep_wrr (h : ForkInv cfg r) (stray : Gid → Nat) {parent child : Pid}
    (halive : (r.sys.base.task parent).alive = true)
    (hpolicy : (r.sys.base.task parent).policy = .wrr) :
    ¬SlicesOk cfg (forkStep cfg stray r (.fork parent child)) := by
  intro hok
  have hk : (forkTask (r.sys.base.task parent)).schedClass = .wrr :=
    (forkTask_class_iff fun hk => (h.task parent halive hk).1).mpr hpolicy
  rcases schedFork_wrr child hk with ⟨-, hfork⟩ | ⟨g, t, -, hfork, htask⟩
  · have hoops : (forkStep cfg stray r (.fork parent child)).oops = true := by
      rw [forkStep, show (ForkOp.fork parent child).exec cfg stray r.sys = none from hfork]
    rw [hok.noOops] at hoops
    cases hoops
  · have hexec : (ForkOp.fork parent child).exec cfg stray r.sys = some t := hfork
    have hchild : (forkStep cfg stray r (.fork parent child)).sys.base.task child =
        { forkTask (r.sys.base.task parent) with timeSlice := 0 } := by
      rw [forkStep_some cfg stray hexec, htask, Function.update_self, h.group g]
    have hpos := (hok.bounds child (by rw [hchild]; exact forkTask_alive _)
      (by rw [hchild]; exact hk)).1
    rw [hchild] at hpos
    exact Nat.not_succ_le_zero 0 hpos

/-! ## Runs that fork no `SCHED_WRR` task -/

theorem ForkInv.start {base : System}
    (hbase : ∀ p, (base.task p).alive = true → (base.task p).schedClass ≠ .wrr) :
    ForkInv cfg (ForkRun.start base) :=
  ⟨rfl, fun _ => rfl, fun p halive hk => absurd hk (hbase p halive)⟩

/-- **Forks and slices.** A run in which no `SCHED_WRR` task forks never dereferences NULL, every
slice is between a tick and a foreground slice, no decrement wraps, and every slice is used up in
time; the first fork of a `SCHED_WRR` task ends this, whatever group the task is in. -/
theorem forkSlices_iff {base : System} (hhz : 100 ≤ cfg.hz)
    (hbase : ∀ p, (base.task p).alive = true → (base.task p).schedClass ≠ .wrr)
    (h : Reach ForkRun.Spares (forkStep cfg stray) (ForkRun.start base) r) (hpre : r.Pre op) :
    SlicesOk cfg r ∧ (SlicesOk cfg (forkStep cfg stray r op) ↔ op.NoWrrFork r.sys) := by
  have hinv : ForkInv cfg r := h.invariant (fun _ _ hr hop => forkStep_inv hr hhz stray hop)
    (ForkInv.start hbase)
  refine ⟨hinv.slicesOk, fun hok => ?_, fun hspare => ?_⟩
  · cases op with
    | fork parent child => exact fun hpolicy => forkStep_wrr hinv stray hpre.1 hpolicy hok
    | setscheduler | tick | createGroup | moveGroup | activate | deactivate | switch => trivial
  · exact (forkStep_inv hinv hhz stray ⟨hpre, hspare⟩).slicesOk

instance (r : ForkRun) (op : ForkOp) : Decidable (r.Pre op) :=
  match op with
  | .setscheduler _ _ _ _ _ | .switch _ | .deactivate _ => inferInstanceAs (Decidable (_ = _))
  | .fork _ _ | .moveGroup _ _ | .activate _ _ => inferInstanceAs (Decidable (_ ∧ _))
  | .tick _ => inferInstanceAs (Decidable True)
  | .createGroup parent => inferInstanceAs (Decidable (∀ g ∈ parent, g < r.sys.groups))

instance (r : ForkRun) (op : ForkOp) : Decidable (op.NoWrrFork r.sys) :=
  match op with
  | .fork _ _ => inferInstanceAs (Decidable (_ ≠ _))
  | .setscheduler _ _ _ _ _ | .tick _ | .createGroup _ | .moveGroup _ _ | .activate _ _
  | .deactivate _ | .switch _ => inferInstanceAs (Decidable True)

/-- A list of steps that passes the executable test is a run. -/
theorem forkRun_of_check {ok : ForkRun → ForkOp → Prop} [∀ r op, Decidable (ok r op)]
    (ops : List ForkOp)
    (hrun : Reach.runTest (fun r op => decide (ok r op)) (forkStep cfg stray) r ops = true) :
    Reach ok (forkStep cfg stray) r (ops.foldl (forkStep cfg stray) r) :=
  Reach.of_runTest (I := fun _ => True) (fun _ _ _ _ => trivial)
    (fun _ _ _ => of_decide_eq_true) trivial hrun

instance (r : ForkRun) (op : ForkOp) : Decidable (r.Spares op) :=
  inferInstanceAs (Decidable (r.Pre op ∧ op.NoWrrFork r.sys))

theorem bootSystem_noWrr (p : Pid) : (bootSystem.task p).schedClass ≠ .wrr := by
  show (bootTask (fun _ => fairTask) p).schedClass ≠ .wrr
  by_cases hp : p % 2 = 0
  · rw [bootTask_even _ hp]
    exact fun hno => nomatch hno
  · rw [bootTask_odd _ hp]
    exact fun hno => nomatch hno

/-- A fair task forks, and then becomes a WRR task that runs. -/
def runWrr : List ForkOp :=
  [.fork 1 3, .setscheduler 1 .wrr false 50 .quiet, .activate 1 0, .switch 1, .tick .quiet]

theorem forkSlices_boot :
    let r := runWrr.foldl (forkStep (upConfig .basic) fun _ => 0) (ForkRun.start bootSystem)
    SlicesOk (upConfig .basic) (forkStep (upConfig .basic) (fun _ => 0) r (.tick .quiet)) ∧
      r.ticks 1 = 1 ∧ (r.sys.base.task 1).timeSlice = 9 := by
  intro r
  have hrun : Reach ForkRun.Spares (forkStep (upConfig .basic) fun _ => 0)
      (ForkRun.start bootSystem) r := forkRun_of_check runWrr (by decide +kernel)
  have hpre : r.Pre (.tick .quiet) := trivial
  have hiff := forkSlices_iff (by decide) (fun p _ => bootSystem_noWrr p) hrun hpre
  exact ⟨hiff.2.mpr trivial, by decide +kernel, by decide +kernel⟩

/-- A WRR task forks in the root group. -/
def forkInRoot : List ForkOp := [.setscheduler 1 .wrr false 50 .quiet, .fork 1 3]

/-- A WRR task forks in a created group, and its child runs for a tick. -/
def forkInGroup : List ForkOp :=
  [.createGroup none, .moveGroup 1 1, .setscheduler 1 .wrr false 50 .quiet, .fork 1 3,
    .activate 3 0, .switch 3, .tick .quiet]

/-- The first dereferences NULL. The child of the second starts with an empty slice, which wraps
at its first tick. -/
theorem forkSlices_wrapped :
    let step := forkStep (upConfig .basic) fun _ => 0
    let r₁ := forkInRoot.foldl step (ForkRun.start bootSystem)
    let r₂ := forkInGroup.foldl step (ForkRun.start bootSystem)
    (Reach ForkRun.Pre step (ForkRun.start bootSystem) r₁ ∧ r₁.oops = true ∧
        ¬SlicesOk (upConfig .basic) r₁) ∧
      Reach ForkRun.Pre step (ForkRun.start bootSystem) r₂ ∧
        (r₂.sys.base.task 3).timeSlice = 2 ^ 32 - 1 ∧ ¬SlicesOk (upConfig .basic) r₂ := by
  intro step r₁ r₂
  have hoops : r₁.oops = true := by decide +kernel
  have hslice : (r₂.sys.base.task 3).timeSlice = 2 ^ 32 - 1 := by decide +kernel
  refine ⟨⟨forkRun_of_check forkInRoot (by decide +kernel), hoops, fun hok => ?_⟩,
    forkRun_of_check forkInGroup (by decide +kernel), hslice, fun hok => ?_⟩
  · rw [hok.noOops] at hoops
    cases hoops
  · have hle := (hok.bounds 3 (by decide +kernel) (by decide +kernel)).2
    rw [hslice] at hle
    exact absurd hle (by decide)

end LinuxWrr.Group
