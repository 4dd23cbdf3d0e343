import LinuxWrr.Group.HighestPrio
import LinuxWrr.Sched.Slices

/-!
# The core scheduler over the group-scheduling class

The functions of `core.c` that change the class or the group of a task, and those that act
on the current one, with the hooks of `wrr_group.c`. The hooks of the other classes work on
the flat state that a `GroupSystem` contains; so do those that `wrr_group.c` has word for
word as `wrr_basic.c` has them (`put_prev_task`, `set_curr_task`, `get_rr_interval`).

- `changeScheduler`, `schedMoveTask`, `schedFork`, `schedulerTick`.
- `taskForkWrr`: the fork hook, which reads the slice of the parent *entity*.
- `SameShares`: no task's class, policy or slice is written, and no group's slice.
-/

namespace LinuxWrr.Group

/-! ## The functions -/

/-- The build whose hooks work on the flat state as those of `wrr_group.c` do. -/
def flat (cfg : Config) : Config := { cfg with wrr := .basic }

/-- Run a function of the flat state. -/
def GroupSystem.onBase (s : GroupSystem) (f : System → System) : GroupSystem :=
  { s with base := f s.base }

def enqueueTask (cfg : Config) (stray : Gid → Nat) (s : GroupSystem) (p : Pid) (flags : Nat) :
    GroupSystem :=
  if (s.base.task p).schedClass = .wrr then enqueueTaskWrr stray s p flags
  else s.onBase fun b => LinuxWrr.enqueueTask (flat cfg) b 0 p flags

def dequeueTask (cfg : Config) (stray : Gid → Nat) (s : GroupSystem) (p : Pid) : GroupSystem :=
  if (s.base.task p).schedClass = .wrr then dequeueTaskWrr stray s p
  else s.onBase fun b => LinuxWrr.dequeueTask (flat cfg) b 0 p

/-- `switched_to_wrr`. -/
def switchedToWrr (b : System) (p : Pid) : System :=
  if (b.task p).onRq ∧ (b.rq 0).curr ≠ p then
    if (b.task p).rtPriority > (b.task (b.rq 0).curr).rtPriority then b.reschedCurr 0 else b
  else b

def switchedTo (cfg : Config) (b : System) (p : Pid) (o : Outside) : System :=
  if (b.task p).schedClass = .wrr then switchedToWrr b p
  else (schedClassOf (flat cfg) (b.task p).schedClass).switchedTo b 0 p o

/-- `check_class_changed`; `switched_from_wrr` and `prio_changed_wrr` are empty. -/
def checkClassChanged (cfg : Config) (b : System) (p : Pid) (prevClass : ClassId) (oldprio : Int)
    (o : Outside) : System :=
  if prevClass ≠ (b.task p).schedClass then
    switchedTo cfg ((schedClassOf (flat cfg) prevClass).switchedFrom b 0 p o) p o
  else if oldprio ≠ (b.task p).prio then
    (schedClassOf (flat cfg) (b.task p).schedClass).prioChanged b 0 p oldprio o
  else b

/-- `if (on_rq) dequeue_task(..); if (running) put_prev_task(..)`. -/
def takeOff (cfg : Config) (stray : Gid → Nat) (s : GroupSystem) (p : Pid) : GroupSystem :=
  let running := (s.base.rq 0).curr = p
  let s := if (s.base.task p).onRq then dequeueTask cfg stray s p else s
  if running then s.onBase fun b => putPrevTask (flat cfg) b 0 p else s

/-- `if (running) set_curr_task(..); if (on_rq) enqueue_task(..)`. -/
def putBack (cfg : Config) (stray : Gid → Nat) (s : GroupSystem) (p : Pid) (onRq running : Bool) :
    GroupSystem :=
  let s := if running then s.onBase fun b => setCurrTask (flat cfg) b 0 p else s
  if onRq then enqueueTask cfg stray s p 0 else s

/-- The part of `__sched_setscheduler` that changes the task, under the lock. -/
def changeScheduler (cfg : Config) (stray : Gid → Nat) (s : GroupSystem) (p : Pid)
    (policy : Policy) (reset : Bool) (prio : Nat) (o : Outside) : GroupSystem :=
  let onRq := (s.base.task p).onRq
  let running := decide ((s.base.rq 0).curr = p)
  let oldprio := (s.base.task p).prio
  let prevClass := (s.base.task p).schedClass
  let s := takeOff cfg stray s p
  let s := s.onBase fun b => b.updTask p fun t => { t with schedResetOnFork := reset }
  let s := s.onBase fun b => setscheduler (flat cfg) b p policy prio
  let s := putBack cfg stray s p onRq running
  s.onBase fun b => checkClassChanged cfg b p prevClass oldprio o

/-- `tg->wrr_se[0]`: group 0 is the root group, whose entity is NULL; the others are numbered
in the order of their creation. -/
def groupEntity : Nat → Option Gid
  | 0 => none
  | g + 1 => some g

/-- `sched_move_task`, into the group `tg`; where the class has a `task_move_group` hook (the
fair class, outside the repository), that hook calls `set_task_rq` too. -/
def schedMoveTask (cfg : Config) (stray : Gid → Nat) (s : GroupSystem) (p : Pid) (tg : Nat) :
    GroupSystem :=
  let onRq := (s.base.task p).onRq
  let running := decide ((s.base.rq 0).curr = p)
  let s := takeOff cfg stray s p
  let s := s.onBase fun b => b.updTask p fun t => { t with schedTaskGroup := tg }
  let s := setTaskRq s p (groupEntity tg)
  putBack cfg stray s p onRq running

/-- `task_fork_wrr`: there is no state after it when `p->wrr.parent` is NULL. -/
def taskForkWrr (s : GroupSystem) (p : Pid) : Option GroupSystem :=
  (s.parent p).map fun g =>
    s.onBase fun b => b.updTask p fun t => { t with timeSlice := (s.group g).timeSlice }

/-- `dup_task_struct`, which copies the link too, and `sched_fork` without the hook. -/
def copyTask (s : GroupSystem) (parent child : Pid) : GroupSystem :=
  { s with
    base := LinuxWrr.schedFork s.base parent child
    parent := Function.update s.parent child (s.parent parent) }

/-- `sched_fork`. The hook runs on the copy of the forking task; the link is set from the group
after it (`set_task_cpu`). -/
def schedFork (s : GroupSystem) (parent child : Pid) : Option GroupSystem :=
  let s := copyTask s parent child
  let forked := if (s.base.task child).schedClass = .wrr then taskForkWrr s child else some s
  forked.map fun s => setTaskRq s child (groupEntity (s.base.task child).schedTaskGroup)

/-- `scheduler_tick`. -/
def schedulerTick (cfg : Config) (stray : Gid → Nat) (s : GroupSystem) (o : Outside) :
    GroupSystem :=
  let curr := (s.base.rq 0).curr
  if (s.base.task curr).schedClass = .wrr then taskTickWrr cfg stray s curr
  else s.onBase fun b => LinuxWrr.schedulerTick (flat cfg) b 0 o

/-- `activate_task` and `p->on_rq = 1`. -/
def activateTask (cfg : Config) (stray : Gid → Nat) (s : GroupSystem) (p : Pid) (flags : Nat) :
    GroupSystem :=
  (enqueueTask cfg stray s p flags).onBase fun b => b.updTask p fun t => { t with onRq := true }

/-- `deactivate_task` and `p->on_rq = 0`. -/
def deactivateTask (cfg : Config) (stray : Gid → Nat) (s : GroupSystem) (p : Pid) : GroupSystem :=
  (dequeueTask cfg stray s p).onBase fun b => b.updTask p fun t => { t with onRq := false }

variable {cfg : Config} {s t u : GroupSystem} {b : System} {p q : Pid} {stray : Gid → Nat}

/-! ## What placing a task keeps -/

/-- What slices depend on, of a task. -/
def share (t : Task) : Bool × ClassId × Policy × Nat :=
  (t.alive, t.schedClass, t.policy, t.timeSlice)

/-- Two tasks have the same share if they agree on being alive, class, policy and slice. -/
theorem share_eq_iff {f g : Task} : share f = share g ↔ f.alive = g.alive ∧
    f.schedClass = g.schedClass ∧ f.policy = g.policy ∧ f.timeSlice = g.timeSlice := by
  simp only [share, Prod.mk.injEq]

/-- Where a task is queued does not show in its share. -/
theorem share_blind : PlaceBlind share := fun _ _ _ _ => rfl

structure SameShares (s t : GroupSystem) : Prop where
  task : SameOn share s.base t.base
  group : t.group = s.group

namespace SameShares

theorem refl (s : GroupSystem) : SameShares s s := ⟨SameOn.refl share s.base, rfl⟩

theorem trans (h : SameShares s t) (h' : SameShares t u) : SameShares s u :=
  ⟨h.task.trans h'.task, h'.group.trans h.group⟩

theorem onBase {f : System → System} (h : SameOn share s.base (f s.base)) :
    SameShares s (s.onBase f) := ⟨h, rfl⟩

theorem of_groups (h : SameGroups s t) : SameShares s t :=
  ⟨SameOn.of_task (by rw [h.base]), h.group⟩

theorem updTask {f : Task → Task} (hf : ∀ t, share (f t) = share t) (s : GroupSystem) (p : Pid) :
    SameShares s (s.onBase fun b => b.updTask p f) := onBase (SameOn.updTask hf s.base p)

theorem ite {P : Prop} [Decidable P] (ht : SameShares s t) (hu : SameShares s u) :
    SameShares s (if P then t else u) := by
  split
  · exact ht
  · exact hu

end SameShares

theorem enqueueTaskWrr_sameShares (stray : Gid → Nat) (s : GroupSystem) (p : Pid) (flags : Nat) :
    SameShares s (enqueueTaskWrr stray s p flags) :=
  (SameShares.of_groups (enqueueWrrEntity_same stray s _ _)).trans
    (.onBase (f := fun b => b.incNrRunning 0) (SameOn.of_task rfl))

theorem dequeueTaskWrr_sameShares (stray : Gid → Nat) (s : GroupSystem) (p : Pid) :
    SameShares s (dequeueTaskWrr stray s p) := by
  have hcharge : SameShares s (s.onBase fun b => updateCurrWrr b 0) :=
    .onBase (SameOn.of_task (updateCurrWrr_task s.base 0))
  have hdequeue := hcharge.trans (.of_groups (dequeueWrrEntity_same stray _ (.task p)))
  exact hdequeue.trans (.onBase (f := fun b => b.decNrRunning 0) (SameOn.of_task rfl))

theorem enqueueTask_sameShares (cfg : Config) (stray : Gid → Nat) (s : GroupSystem) (p : Pid)
    (flags : Nat) : SameShares s (enqueueTask cfg stray s p flags) :=
  .ite (enqueueTaskWrr_sameShares stray s p flags)
    (.onBase (SameOn.of_task (enqueueTask_task (flat cfg) s.base 0 p flags)))

theorem dequeueTask_sameShares (cfg : Config) (stray : Gid → Nat) (s : GroupSystem) (p : Pid) :
    SameShares s (dequeueTask cfg stray s p) :=
  .ite (dequeueTaskWrr_sameShares stray s p)
    (.onBase (SameOn.of_task (dequeueTask_task (flat cfg) s.base 0 p)))

theorem takeOff_sameShares (cfg : Config) (stray : Gid → Nat) (s : GroupSystem) (p : Pid) :
    SameShares s (takeOff cfg stray s p) := by
  have hdequeue : SameShares s
      (if (s.base.task p).onRq then dequeueTask cfg stray s p else s) :=
    .ite (dequeueTask_sameShares cfg stray s p) (.refl s)
  have hput : ∀ u : GroupSystem, SameShares u (u.onBase fun b => putPrevTask (flat cfg) b 0 p) :=
    fun u => .onBase (SameOn.of_task (putPrevTask_task (flat cfg) u.base 0 p))
  exact .ite (hdequeue.trans (hput _)) hdequeue

theorem putBack_sameShares (cfg : Config) (stray : Gid → Nat) (s : GroupSystem) (p : Pid)
    (onRq running : Bool) : SameShares s (putBack cfg stray s p onRq running) := by
  have hcurr : SameShares s
      (if running then s.onBase fun b => setCurrTask (flat cfg) b 0 p else s) :=
    .ite (.onBase (SameOn.of_task (setCurrTask_task (flat cfg) s.base 0 p))) (.refl s)
  exact .ite (hcurr.trans (enqueueTask_sameShares cfg stray _ p 0)) hcurr

theorem activateTask_sameShares (cfg : Config) (stray : Gid → Nat) (s : GroupSystem) (p : Pid)
    (flags : Nat) : SameShares s (activateTask cfg stray s p flags) :=
  (enqueueTask_sameShares cfg stray s p flags).trans
    (.updTask (f := fun t => { t with onRq := true }) (fun _ => rfl) _ p)

theorem deactivateTask_sameShares (cfg : Config) (stray : Gid → Nat) (s : GroupSystem) (p : Pid) :
    SameShares s (deactivateTask cfg stray s p) :=
  (dequeueTask_sameShares cfg stray s p).trans
    (.updTask (f := fun t => { t with onRq := false }) (fun _ => rfl) _ p)

/-- Moving a task to another group changes no share: the slice is not recomputed. -/
theorem schedMoveTask_sameShares (cfg : Config) (stray : Gid → Nat) (s : GroupSystem) (p : Pid)
    (tg : Nat) : SameShares s (schedMoveTask cfg stray s p tg) := by
  have hwrite : ∀ u : GroupSystem, SameShares u
      (u.onBase fun b => b.updTask p fun t => { t with schedTaskGroup := tg }) :=
    fun u => .updTask (f := fun t => { t with schedTaskGroup := tg }) (fun _ => rfl) u p
  have hlink : ∀ u : GroupSystem, SameShares u (setTaskRq u p (groupEntity tg)) :=
    fun u => ⟨SameOn.refl share u.base, rfl⟩
  exact (((takeOff_sameShares cfg stray s p).trans (hwrite _)).trans (hlink _)).trans
    (putBack_sameShares cfg stray _ p _ _)

/-! ## What the other functions write -/

/-- What `check_class_changed` does is an enqueue or dequeue balance, no change of share. -/
theorem checkClassChanged_balance (cfg : Config) (b : System) (p : Pid) (prevClass : ClassId)
    (oldprio : Int) (o : Outside) : Balance b (checkClassChanged cfg b p prevClass oldprio o) := by
  have hB := Balance.balanced b
  have hto : ∀ u, Balance b u → Balance b (switchedTo cfg u p o) := by
    intro u hu
    unfold switchedTo
    split
    · exact Balanced.ite (Balanced.ite (hB.reschedCurr hu 0) hu) hu
    · exact hB.switchedTo hu (flat cfg) 0 p o _
  unfold checkClassChanged
  refine Balanced.ite (hto _ ?_) (Balanced.ite ?_ .refl)
  · exact hB.switchedFrom .refl (flat cfg) 0 p o prevClass
  · exact hB.prioChanged .refl (flat cfg) 0 p oldprio o _

/-- The slice that `__setscheduler` gives is that of the foreground or of the background. -/
theorem setscheduler_wrr_slice (cfg : Config) (b : System) (p : Pid) (prio : Nat) :
    ∃ fore : Bool, ((setscheduler (flat cfg) b p .wrr prio).task p).timeSlice =
      if fore then cfg.wrrForeTimeslice else cfg.wrrBackTimeslice := by
  unfold setscheduler
  dsimp only
  rw [if_pos rfl, enterWrr, System.updTask_task, Function.update_self]
  exact ⟨_, rfl⟩

/-- **What a change of policy writes**: the class goes with the policy, and a task of the class
starts with a full slice. -/
structure Changed (cfg : Config) (s t : GroupSystem) (p : Pid) (pol : Policy) : Prop where
  other : ∀ q, q ≠ p → share (t.base.task q) = share (s.base.task q)
  alive : (t.base.task p).alive = (s.base.task p).alive
  policy : (t.base.task p).policy = pol
  schedClass : (t.base.task p).schedClass = .wrr ↔ pol = .wrr
  slice : pol = .wrr → ∃ fore : Bool, (t.base.task p).timeSlice =
    if fore then cfg.wrrForeTimeslice else cfg.wrrBackTimeslice
  group : t.group = s.group

/-- The same, with anything around it that places tasks. -/
theorem Changed.around {s' t' : GroupSystem} {pol : Policy} (hs : SameShares s' s)
    (h : Changed cfg s t p pol) (ht : SameShares t t') : Changed cfg s' t' p pol := by
  obtain ⟨halive, hclass, hpolicy, hslice⟩ := share_eq_iff.mp (ht.task p)
  obtain ⟨halive', -, -, -⟩ := share_eq_iff.mp (hs.task p)
  refine ⟨fun q hq => ?_, ?_, hpolicy.trans h.policy, ?_, fun hwrr => ?_, ?_⟩
  · exact ((ht.task q).trans (h.other q hq)).trans (hs.task q)
  · exact (halive.trans h.alive).trans halive'
  · rw [hclass]
    exact h.schedClass
  · rw [hslice]
    exact h.slice hwrr
  · exact (ht.group.trans h.group).trans hs.group

/-- `__setscheduler` changes the share of `p` only. -/
theorem setscheduler_changed (cfg : Config) (s : GroupSystem) (p : Pid) (policy : Policy)
    (prio : Nat) :
    Changed cfg s (s.onBase fun b => setscheduler (flat cfg) b p policy prio) p policy := by
  obtain ⟨⟨slice, times, htask⟩, -, -⟩ := setscheduler_effect (flat cfg) s.base p policy prio
  have hself : (setscheduler (flat cfg) s.base p policy prio).task p =
      (s.base.task p).withPolicy policy prio slice times := by
    rw [htask, Function.update_self]
  refine ⟨fun q hq => ?_, ?_, ?_, ?_, ?_, rfl⟩
  · show share ((setscheduler (flat cfg) s.base p policy prio).task q) = _
    rw [htask, Function.update_of_ne hq]
  · show ((setscheduler (flat cfg) s.base p policy prio).task p).alive = _
    rw [hself]
    rfl
  · show ((setscheduler (flat cfg) s.base p policy prio).task p).policy = _
    rw [hself]
    rfl
  · show ((setscheduler (flat cfg) s.base p policy prio).task p).schedClass = .wrr ↔ _
    rw [hself]
    unfold Task.withPolicy
    dsimp only
    split
    next hwrr => exact iff_of_true rfl hwrr
    next hwrr =>
      -- any other policy leads into the RT or the fair class
      refine iff_of_false ?_ hwrr
      split <;> exact fun hno => nomatch hno
  · rintro rfl
    exact setscheduler_wrr_slice cfg s.base p prio

/-- The whole of `__sched_setscheduler` changes the share of `p` only. -/
theorem changeScheduler_changed (cfg : Config) (stray : Gid → Nat) (s : GroupSystem) (p : Pid)
    (policy : Policy) (reset : Bool) (prio : Nat) (o : Outside) :
    Changed cfg s (changeScheduler cfg stray s p policy reset prio o) p policy := by
  have hflag : ∀ u : GroupSystem, SameShares u
      (u.onBase fun b => b.updTask p fun t => { t with schedResetOnFork := reset }) :=
    fun u => .updTask (f := fun t => { t with schedResetOnFork := reset }) (fun _ => rfl) u p
  have hcheck : ∀ (u : GroupSystem) (prevClass : ClassId) (oldprio : Int), SameShares u
      (u.onBase fun b => checkClassChanged cfg b p prevClass oldprio o) := fun u _ _ =>
    .onBase ((checkClassChanged_balance cfg u.base p _ _ o).sameOn share_blind)
  exact (setscheduler_changed cfg _ p policy prio).around
    ((takeOff_sameShares cfg stray s p).trans (hflag _))
    ((putBack_sameShares cfg stray _ p _ _).trans (hcheck _ _ _))

/-- The tick of a task of the class writes its slice. -/
theorem schedulerTick_wrr (cfg : Config) (stray : Gid → Nat)
    (hk : (s.base.task (s.base.rq 0).curr).schedClass = .wrr) (o : Outside) :
    ∃ ts, TickSlice cfg (s.base.task (s.base.rq 0).curr) ts ∧
      (schedulerTick cfg stray s o).base.task = Function.update s.base.task (s.base.rq 0).curr
        { s.base.task (s.base.rq 0).curr with timeSlice := ts } ∧
      (schedulerTick cfg stray s o).group = s.group := by
  obtain ⟨b, ts, hts, htask, -, htick⟩ := taskTickWrr_cases cfg stray s (s.base.rq 0).curr
  have htick' : schedulerTick cfg stray s o = taskTickWrr cfg stray s (s.base.rq 0).curr :=
    if_pos hk
  refine ⟨ts, hts, ?_⟩
  rw [htick']
  rcases htick with htick | htick
  · rw [htick]
    exact ⟨htask, rfl⟩
  · rw [htick]
    have hrequeue : SameGroups { s with base := b } (requeueTaskWrr stray { s with base := b }
        (s.base.rq 0).curr false) :=
      SameGroups.foldl (requeueEntity_same stray false) _ _
    exact ⟨htask, hrequeue.group⟩

/-- That of another task does not. -/
theorem schedulerTick_other (cfg : Config) (stray : Gid → Nat)
    (hk : (s.base.task (s.base.rq 0).curr).schedClass ≠ .wrr) (o : Outside) :
    SameShares s (schedulerTick cfg stray s o) := by
  have htick : schedulerTick cfg stray s o =
      s.onBase fun b => LinuxWrr.schedulerTick (flat cfg) b 0 o := if_neg hk
  rw [htick]
  refine .onBase ?_
  unfold LinuxWrr.schedulerTick
  dsimp only
  cases hclass : (s.base.task (s.base.rq 0).curr).schedClass with
  | wrr => exact absurd hclass hk
  | rt => exact taskTickRt_sameOn (fun _ _ => rfl) (flat cfg) s.base 0 _
  | fair => exact SameOn.of_task (fairHook_flagged s.base 0 o).task
  | stop | idle => exact SameOn.refl share s.base

section Fork

variable {parent : Pid}

/-- A fork changes the task of the child and no other. -/
theorem copyTask_task (s : GroupSystem) (parent child : Pid) :
    (copyTask s parent child).base.task =
      Function.update s.base.task child (forkTask (s.base.task parent)) := rfl

/-- A child of another class is the copy that the core makes. -/
theorem schedFork_other (child : Pid)
    (hk : (forkTask (s.base.task parent)).schedClass ≠ .wrr) :
    ∃ t, schedFork s parent child = some t ∧
      t.base.task = Function.update s.base.task child (forkTask (s.base.task parent)) ∧
      t.group = s.group := by
  have hchild : ((copyTask s parent child).base.task child).schedClass ≠ .wrr := by
    rwa [copyTask_task, Function.update_self]
  exact ⟨_, congrArg (Option.map _) (if_neg hchild), copyTask_task s parent child, rfl⟩

/-- The hook needs a parent entity, and gives the child its slice. -/
theorem schedFork_wrr (child : Pid) (hk : (forkTask (s.base.task parent)).schedClass = .wrr) :
    (s.parent parent = none ∧ schedFork s parent child = none) ∨
      ∃ g t, s.parent parent = some g ∧ schedFork s parent child = some t ∧
        t.base.task = Function.update s.base.task child
          { forkTask (s.base.task parent) with timeSlice := (s.group g).timeSlice } := by
  have hchild : ((copyTask s parent child).base.task child).schedClass = .wrr := by
    rwa [copyTask_task, Function.update_self]
  have hfork : schedFork s parent child = (taskForkWrr (copyTask s parent child) child).map
      fun s => setTaskRq s child (groupEntity (s.base.task child).schedTaskGroup) :=
    congrArg (Option.map _) (if_pos hchild)
  have hlink : (copyTask s parent child).parent child = s.parent parent :=
    Function.update_self child _ s.parent
  rw [hfork]
  unfold taskForkWrr
  rw [hlink]
  cases hparent : s.parent parent with
  | none => exact .inl ⟨rfl, rfl⟩
  | some g =>
    refine .inr ⟨g, _, rfl, rfl, ?_⟩
    show Function.update (copyTask s parent child).base.task child
      { (copyTask s parent child).base.task child with timeSlice := _ } = _
    rw [copyTask_task, Function.update_idem, Function.update_self]
    rfl

end Fork

end LinuxWrr.Group
