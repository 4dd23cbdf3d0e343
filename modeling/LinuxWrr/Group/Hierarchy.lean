import LinuxWrr.Group.WrrGroup
import LinuxWrr.Lib.Reach
import LinuxWrr.Sched.Run

/-!
# The hierarchy of the group-scheduling class

A group-scheduling class keeps every entity in the run queue of its parent. Here
`wrr_rq_of_se` returns `rq->wrr` for every entity, so that tasks of created groups end up
in the root run queue, and the groups' own run queues stay empty.

- `GroupInv`: what the code does keep, over all runs: a consistent root run queue of tasks.
- `GroupOk`: what a hierarchy should keep.
- `groupOk_iff`: **the hierarchy is right exactly when every queued task is in the root
  group**.
- `group_hierarchy_reach`: so are the runs that enqueue tasks of the root group only.
-/

namespace LinuxWrr.Group

variable {s t : GroupSystem} {se : Entity} {p : Pid} {g : Gid} {stray : Gid → Nat} {i : Nat}

/-! ## What every run keeps -/

/-- The root run queue holds tasks only, each at its priority, and is consistent; the run
queues of the groups are empty. -/
structure GroupInv (s : GroupSystem) : Prop where
  root : ∃ lvl, (s.wrr .root).active.Repr maxWrrPrio lvl ∧ (∀ g, lvl (.group g) = none) ∧
    ∀ p i, lvl (.task p) = some i → i = (s.base.task p).rtPriority
  nr : (s.wrr .root).wrrNrRunning = (s.wrr .root).active.size maxWrrPrio
  groups : ∀ g, (s.wrr (.group g)).wrrNrRunning = 0 ∧
    ∀ i, (s.wrr (.group g)).active.queue i = []
  prio : ∀ p, (s.base.task p).rtPriority ≤ 99
  parent : ∀ g h, (s.group g).parent = some h → h < g
  taskParent : ∀ p h, s.parent p = some h → h < s.groups

namespace GroupInv

/-- An entity is on a queue exactly when the root's array has it. -/
theorem onWrrRq_iff (h : GroupInv s) :
    s.onWrrRq se = true ↔ ∃ i, se ∈ (s.wrr .root).active.queue i := by
  obtain ⟨lvl, hrep, -, -⟩ := h.root
  have hroot : (s.wrr .root).active.linked maxWrrPrio se = true ↔
      ∃ i, se ∈ (s.wrr .root).active.queue i := by
    rw [hrep.linked_iff]
    constructor
    · intro hne
      obtain ⟨i, hi⟩ := Option.ne_none_iff_exists'.mp hne
      exact ⟨i, (hrep.mem_iff i se).mpr hi⟩
    · rintro ⟨i, hi⟩ hnone
      rw [(hrep.mem_iff i se).mp hi] at hnone
      cases hnone
  rw [← hroot]
  unfold GroupSystem.onWrrRq GroupSystem.rqIds
  rw [List.any_cons, Bool.or_eq_true]
  refine or_iff_left fun hany => ?_
  obtain ⟨r, hr, hlinked⟩ := List.any_eq_true.mp hany
  obtain ⟨g, -, rfl⟩ := List.mem_map.mp hr
  obtain ⟨i, -, hi⟩ := List.any_eq_true.mp hlinked
  rw [(h.groups g).2 i] at hi
  exact absurd (of_decide_eq_true hi) List.not_mem_nil

/-- Groups are never queued. -/
theorem group_off (h : GroupInv s) (g : Gid) : s.onWrrRq (.group g) = false := by
  rw [Bool.eq_false_iff, Ne, h.onWrrRq_iff]
  rintro ⟨i, hi⟩
  obtain ⟨lvl, hrep, hnone, -⟩ := h.root
  rw [hrep.mem_iff, hnone g] at hi
  cases hi

/-- Above a task there are only groups. -/
theorem chainFrom_groups {parent : Gid → Option Gid} {n : Nat} {o : Option Gid}
    (hse : se ∈ chainFrom parent n o) : ∃ g, se = .group g := by
  induction n generalizing o with
  | zero => cases hse
  | succ n ih =>
    cases o with
    | none => cases hse
    | some g =>
      rcases List.mem_cons.mp hse with rfl | hse
      · exact ⟨g, rfl⟩
      · exact ih hse

end GroupInv

/-! ## One entity -/

/-- Counting a task out leaves the array alone and lowers the counter by one. -/
theorem decWrrTasks_spec (w : GroupRq) (prio : Nat) :
    (decWrrTasks w prio).1.active = w.active ∧
      (decWrrTasks w prio).1.wrrNrRunning = w.wrrNrRunning - 1 := by
  unfold decWrrTasks decWrrPrio
  dsimp only
  split
  · split <;> exact ⟨rfl, rfl⟩
  · exact ⟨rfl, rfl⟩

/-- The run queue whose list and bit are updated, and whose counter and cache are not. -/
def unlinkedRoot (s : GroupSystem) (p : Pid) : GroupRq :=
  { s.wrr .root with
    active := (s.wrr .root).active.unlink (.task p) (s.base.task p).rtPriority }

/-- Off the leaf list or not, the counters are those of `dec_wrr_tasks`. -/
theorem dequeueEntity_dec (stray : Gid → Nat) (s : GroupSystem) (p : Pid) :
    let d := decWrrTasks (unlinkedRoot s p) (s.base.task p).rtPriority
    ((dequeueEntity stray s (.task p)).wrr .root).active = d.1.active ∧
      ((dequeueEntity stray s (.task p)).wrr .root).wrrNrRunning = d.1.wrrNrRunning ∧
      ((dequeueEntity stray s (.task p)).wrr .root).highestPrio = d.1.highestPrio ∧
      (dequeueEntity stray s (.task p)).warned = (s.warned || d.2) := by
  have hleaf : ∀ w : GroupRq,
      (if w.wrrNrRunning = 0 then { w with onLeafList := false } else w).active = w.active ∧
        (if w.wrrNrRunning = 0 then { w with onLeafList := false } else w).wrrNrRunning =
          w.wrrNrRunning ∧
        (if w.wrrNrRunning = 0 then { w with onLeafList := false } else w).highestPrio =
          w.highestPrio := by
    intro w
    split <;> exact ⟨rfl, rfl, rfl⟩
  obtain ⟨hactive, hnr, hhighest⟩ :=
    hleaf (decWrrTasks (unlinkedRoot s p) (s.base.task p).rtPriority).1
  unfold dequeueEntity wrrRqOfSe
  dsimp only
  rw [GroupSystem.setWrr_self]
  exact ⟨hactive, hnr, hhighest, rfl⟩

/-- Dequeueing a task changes the root queue, since every task sits there. -/
theorem dequeueEntity_root (stray : Gid → Nat) (s : GroupSystem) (p : Pid) :
    ((dequeueEntity stray s (.task p)).wrr .root).active =
        (s.wrr .root).active.unlink (.task p) (s.base.task p).rtPriority ∧
      ((dequeueEntity stray s (.task p)).wrr .root).wrrNrRunning =
        (s.wrr .root).wrrNrRunning - 1 := by
  obtain ⟨hactive, hnr, -, -⟩ := dequeueEntity_dec stray s p
  rw [hactive, hnr, (decWrrTasks_spec _ _).1, (decWrrTasks_spec _ _).2]
  exact ⟨rfl, rfl⟩

/-- In a group's own queue dequeueing does no more than unlink the list node. -/
theorem dequeueEntity_group (stray : Gid → Nat) (s : GroupSystem) (se : Entity) (g : Gid) :
    (dequeueEntity stray s se).wrr (.group g) =
      { s.wrr (.group g) with active := (s.wrr (.group g)).active.listDelInit se } := by
  have hne : RqId.group g ≠ RqId.root := fun h => nomatch h
  simp only [dequeueEntity, wrrRqOfSe, GroupSystem.setWrr, Function.update_of_ne hne]
  rfl

/-- A task has no run queue of its own that could be empty. -/
theorem enqueueEntity_eq (stray : Gid → Nat) (head : Bool) (s : GroupSystem) (p : Pid) :
    enqueueEntity stray head s (.task p) =
      s.setWrr .root (incWrrTasks
        { s.wrr .root with
          active := ((s.wrr .root).active.listAddAt head (.task p)
            (s.base.task p).rtPriority).setBit (s.base.task p).rtPriority
          onLeafList := if (s.wrr .root).wrrNrRunning = 0 then true
            else (s.wrr .root).onLeafList }
        (s.base.task p).rtPriority) := by
  have hgo : ¬((groupWrrRq (.task p)).any fun r => decide ((s.wrr r).wrrNrRunning = 0)) = true :=
    Bool.false_ne_true
  rw [enqueueEntity]
  exact if_neg hgo

/-- Enqueueing a task links it into the root queue and counts it there. -/
theorem enqueueEntity_task (stray : Gid → Nat) (head : Bool) (s : GroupSystem) (p : Pid) :
    ((enqueueEntity stray head s (.task p)).wrr .root).active =
        ((s.wrr .root).active.listAddAt head (.task p) (s.base.task p).rtPriority).setBit
          (s.base.task p).rtPriority ∧
      ((enqueueEntity stray head s (.task p)).wrr .root).wrrNrRunning =
        (s.wrr .root).wrrNrRunning + 1 ∧
      ∀ g, (enqueueEntity stray head s (.task p)).wrr (.group g) = s.wrr (.group g) := by
  rw [enqueueEntity_eq, GroupSystem.setWrr_self]
  exact ⟨rfl, rfl, s.setWrr_group _⟩

/-- A group whose run queue is empty is not enqueued. -/
theorem enqueueEntity_empty (stray : Gid → Nat) (head : Bool)
    (hg : (s.wrr (.group g)).wrrNrRunning = 0) : enqueueEntity stray head s (.group g) = s :=
  if_pos (decide_eq_true hg)

/-- What no queueing function writes. -/
structure SameGroups (s t : GroupSystem) : Prop where
  base : t.base = s.base
  group : t.group = s.group
  parent : t.parent = s.parent
  groups : t.groups = s.groups

/-- Dequeueing an entity changes run queues only. -/
theorem dequeueEntity_same (stray : Gid → Nat) (s : GroupSystem) (se : Entity) :
    SameGroups s (dequeueEntity stray s se) := ⟨rfl, rfl, rfl, rfl⟩

/-- Enqueueing an entity changes run queues only. -/
theorem enqueueEntity_same (stray : Gid → Nat) (head : Bool) (s : GroupSystem) (se : Entity) :
    SameGroups s (enqueueEntity stray head s se) := by
  unfold enqueueEntity
  dsimp only
  split <;> exact ⟨rfl, rfl, rfl, rfl⟩

theorem SameGroups.refl (s : GroupSystem) : SameGroups s s := ⟨rfl, rfl, rfl, rfl⟩

theorem SameGroups.trans {r : GroupSystem} (h : SameGroups s t) (h' : SameGroups t r) :
    SameGroups s r where
  base := h'.base.trans h.base
  group := h'.group.trans h.group
  parent := h'.parent.trans h.parent
  groups := h'.groups.trans h.groups

/-- A loop over entities keeps what each turn keeps. -/
theorem SameGroups.foldl {f : GroupSystem → Entity → GroupSystem}
    (hf : ∀ s se, SameGroups s (f s se)) (l : List Entity) (s : GroupSystem) :
    SameGroups s (l.foldl f s) := by
  induction l generalizing s with
  | nil => exact SameGroups.refl s
  | cons se l ih => exact (hf s se).trans (ih (f s se))

theorem dequeueStack_same (stray : Gid → Nat) (s : GroupSystem) (se : Entity) :
    SameGroups s (dequeueStack stray s se) := by
  refine SameGroups.foldl (fun s se => ?_) _ s
  split
  · exact dequeueEntity_same stray s se
  · exact SameGroups.refl s

theorem dequeueWrrEntity_same (stray : Gid → Nat) (s : GroupSystem) (se : Entity) :
    SameGroups s (dequeueWrrEntity stray s se) := by
  refine (dequeueStack_same stray s se).trans (SameGroups.foldl (fun s se => ?_) _ _)
  split
  · exact enqueueEntity_same stray false s se
  · exact SameGroups.refl s

theorem enqueueWrrEntity_same (stray : Gid → Nat) (s : GroupSystem) (se : Entity) (head : Bool) :
    SameGroups s (enqueueWrrEntity stray s se head) :=
  (dequeueStack_same stray s se).trans
    (SameGroups.foldl (enqueueEntity_same stray head) _ _)

namespace GroupInv

/-- The parts of the invariant that queueing leaves alone. -/
theorem of_same (h : GroupInv s) (hsame : SameGroups s t) {l : Entity → Option Nat}
    (hrep : (t.wrr .root).active.Repr maxWrrPrio l) (hgroup : ∀ g, l (.group g) = none)
    (hlevel : ∀ p i, l (.task p) = some i → i = (s.base.task p).rtPriority)
    (hnr : (t.wrr .root).wrrNrRunning = (t.wrr .root).active.size maxWrrPrio)
    (hgroups : ∀ g, (t.wrr (.group g)).wrrNrRunning = 0 ∧
      ∀ i, (t.wrr (.group g)).active.queue i = []) : GroupInv t where
  root := ⟨l, hrep, hgroup, by rw [hsame.base]; exact hlevel⟩
  nr := hnr
  groups := hgroups
  prio := by rw [hsame.base]; exact h.prio
  parent := by rw [hsame.group]; exact h.parent
  taskParent := by rw [hsame.parent, hsame.groups]; exact h.taskParent

/-- A queued task is in the list of its own priority. -/
theorem level_of_on (h : GroupInv s) {lvl : Entity → Option Nat}
    (hrep : (s.wrr .root).active.Repr maxWrrPrio lvl)
    (hlevel : ∀ p i, lvl (.task p) = some i → i = (s.base.task p).rtPriority)
    (hon : s.onWrrRq (.task p) = true) : lvl (.task p) = some (s.base.task p).rtPriority := by
  obtain ⟨i, hi⟩ := h.onWrrRq_iff.mp hon
  have hlvl := (hrep.mem_iff i _).mp hi
  rw [hlvl, hlevel p i hlvl]

/-- **Step lemma** of `__dequeue_wrr_entity`: it takes the task out and keeps the invariant. -/
theorem dequeueEntity (h : GroupInv s) (hon : s.onWrrRq (.task p) = true) (stray : Gid → Nat) :
    GroupInv (dequeueEntity stray s (.task p)) ∧
      ∀ se, (Group.dequeueEntity stray s (.task p)).onWrrRq se = true ↔
        se ≠ .task p ∧ s.onWrrRq se = true := by
  obtain ⟨lvl, hrep, hgroup, hlevel⟩ := h.root
  obtain ⟨hactive, hnr⟩ := dequeueEntity_root stray s p
  have hp := h.level_of_on hrep hlevel hon
  have hinv : GroupInv (Group.dequeueEntity stray s (.task p)) := by
    refine h.of_same (dequeueEntity_same stray s _)
      (l := Function.update lvl (.task p) none) ?_ (fun g => ?_) (fun q i hq => ?_) ?_ fun g => ?_
    · rw [hactive]
      exact hrep.dequeue hp
    · have hne : Entity.group g ≠ Entity.task p := fun h => nomatch h
      rw [Function.update_of_ne hne]
      exact hgroup g
    · by_cases hqp : Entity.task q = .task p
      · rw [hqp, Function.update_self] at hq
        cases hq
      · rw [Function.update_of_ne hqp] at hq
        exact hlevel q i hq
    · have hsize := hrep.size_dequeue hp
      rw [hnr, hactive, h.nr, ← hsize]
      push_cast
      omega
    · rw [dequeueEntity_group]
      refine ⟨(h.groups g).1, fun i => ?_⟩
      show ((s.wrr (.group g)).active.queue i).erase _ = []
      rw [(h.groups g).2 i]
      rfl
  refine ⟨hinv, fun se => ?_⟩
  rw [hinv.onWrrRq_iff, h.onWrrRq_iff, hactive]
  simp only [PrioArray.unlink_queue, hrep.mem_listDelInit]
  exact exists_and_left

/-- **Step lemma** of `__enqueue_wrr_entity`: it brings the task in and keeps the invariant. -/
theorem enqueueEntity (h : GroupInv s) (hoff : s.onWrrRq (.task p) = false) (stray : Gid → Nat)
    (head : Bool) : GroupInv (enqueueEntity stray head s (.task p)) ∧
      ∀ se, (Group.enqueueEntity stray head s (.task p)).onWrrRq se = true ↔
        se = .task p ∨ s.onWrrRq se = true := by
  obtain ⟨lvl, hrep, hgroup, hlevel⟩ := h.root
  obtain ⟨hactive, hnr, hgroups⟩ := enqueueEntity_task stray head s p
  have hlt : (s.base.task p).rtPriority < maxWrrPrio := Nat.lt_succ_of_le (h.prio p)
  -- what is off the queue is linked at no level
  have hp : lvl (.task p) = none := by
    by_contra hne
    obtain ⟨i, hi⟩ := Option.ne_none_iff_exists'.mp hne
    have hon := h.onWrrRq_iff.mpr ⟨i, (hrep.mem_iff i _).mpr hi⟩
    rw [hoff] at hon
    cases hon
  have hinv : GroupInv (Group.enqueueEntity stray head s (.task p)) := by
    refine h.of_same (enqueueEntity_same stray head s _)
      (l := Function.update lvl (.task p) (some (s.base.task p).rtPriority)) ?_ (fun g => ?_)
      (fun q i hq => ?_) ?_ fun g => ?_
    · rw [hactive]
      exact hrep.enqueue hp hlt head
    · have hne : Entity.group g ≠ Entity.task p := fun h => nomatch h
      rw [Function.update_of_ne hne]
      exact hgroup g
    · by_cases hqp : q = p
      · rw [hqp, Function.update_self] at hq
        rw [hqp]
        exact (Option.some.inj hq).symm
      · rw [Function.update_of_ne (fun hno => hqp (Entity.task.inj hno))] at hq
        exact hlevel q i hq
    · rw [hnr, hactive, h.nr, PrioArray.size_congr (PrioArray.setBit_queue _ _),
        PrioArray.size_listAddAt head _ hlt]
      push_cast
      rfl
    · rw [hgroups]
      exact h.groups g
  refine ⟨hinv, fun se => ?_⟩
  rw [hinv.onWrrRq_iff, h.onWrrRq_iff, hactive]
  simp only [PrioArray.setBit_queue, PrioArray.mem_listAddAt, exists_or, exists_and_left,
    exists_eq, and_true]
  exact or_comm

/-! ## The chain of ancestors

Above a task there are only groups, which are not queued and whose run queues are empty,
so that tearing the chain down and building it up comes to the task itself. -/

/-- The bound on the length of a chain is not reached: a parent is older than its child. -/
theorem chainFrom_bound {parent : Gid → Option Gid} (hparent : ∀ g k, parent g = some k → k < g)
    {n m : Nat} {o : Option Gid} (ho : ∀ g, o = some g → g < n) (hnm : n ≤ m) :
    chainFrom parent m o = chainFrom parent n o := by
  induction n generalizing m o with
  | zero =>
    cases o with
    | none => cases m <;> rfl
    | some g => exact absurd (ho g rfl) (Nat.not_lt_zero g)
  | succ n ih =>
    obtain ⟨m, rfl⟩ := Nat.exists_eq_add_of_le' (Nat.le_trans (Nat.le_add_left 1 n) hnm)
    cases o with
    | none => rfl
    | some g =>
      have hk : ∀ k, parent g = some k → k < n := by
        intro k hk
        exact Nat.lt_of_lt_of_le (hparent g k hk) (Nat.le_of_lt_succ (ho g rfl))
      show Entity.group g :: chainFrom parent m (parent g) =
        .group g :: chainFrom parent n (parent g)
      rw [ih hk (Nat.le_of_succ_le_succ hnm)]

/-- `for_each_sched_wrr_entity` comes to every ancestor of a task. -/
theorem chain_complete (h : GroupInv s) (p : Pid) {m : Nat} (hm : s.groups ≤ m) :
    .task p :: chainFrom (fun g => (s.group g).parent) m (s.parentOf (.task p)) =
      s.chain (.task p) :=
  congrArg _ (chainFrom_bound h.parent (h.taskParent p) hm)

/-- Over groups that change nothing, a loop changes nothing. -/
theorem foldl_groups {f : GroupSystem → Entity → GroupSystem} {s : GroupSystem}
    (hf : ∀ g, f s (.group g) = s) {l : List Entity} (hl : ∀ se ∈ l, ∃ g, se = .group g) :
    l.foldl f s = s := by
  induction l with
  | nil => rfl
  | cons se l ih =>
    obtain ⟨g, rfl⟩ := hl se List.mem_cons_self
    rw [List.foldl_cons, hf]
    exact ih fun se hse => hl se (List.mem_cons_of_mem _ hse)

/-- The stack of a task has one entity, so unwinding it dequeues the task or does nothing. -/
theorem dequeueStack_eq (h : GroupInv s) (stray : Gid → Nat) (p : Pid) :
    dequeueStack stray s (.task p) =
      if s.onWrrRq (.task p) then Group.dequeueEntity stray s (.task p) else s := by
  unfold dequeueStack GroupSystem.chain
  rw [List.reverse_cons, List.foldl_append]
  rw [foldl_groups (s := s) (l := (chainFrom _ _ _).reverse)]
  · rfl
  · intro g
    exact if_neg (Bool.eq_false_iff.mp (h.group_off g))
  · intro se hse
    exact chainFrom_groups (List.mem_reverse.mp hse)

/-- After `dequeue_wrr_stack` the task is off the run queue, and the others are where they
were. -/
theorem dequeueStack (h : GroupInv s) (stray : Gid → Nat) (p : Pid) :
    GroupInv (dequeueStack stray s (.task p)) ∧
      ∀ se, (Group.dequeueStack stray s (.task p)).onWrrRq se = true ↔
        se ≠ .task p ∧ s.onWrrRq se = true := by
  rw [h.dequeueStack_eq]
  by_cases hon : s.onWrrRq (.task p) = true
  · rw [if_pos hon]
    exact h.dequeueEntity hon stray
  · rw [if_neg hon]
    refine ⟨h, fun se => ⟨fun hse => ⟨?_, hse⟩, fun hse => hse.2⟩⟩
    rintro rfl
    exact hon hse

/-- The groups above are never queued, so nothing is put back after the stack is unwound. -/
theorem dequeueWrrEntity_eq (h : GroupInv s) (stray : Gid → Nat) (p : Pid) :
    dequeueWrrEntity stray s (.task p) = Group.dequeueStack stray s (.task p) := by
  unfold dequeueWrrEntity GroupSystem.chain
  rw [List.foldl_cons]
  refine foldl_groups (fun g => ?_) fun se => chainFrom_groups
  refine if_neg fun hne => ?_
  exact of_decide_eq_true hne ((h.dequeueStack stray p).1.groups g).1

/-- Enqueueing is unwinding the stack and then queueing the task alone. -/
theorem enqueueWrrEntity_eq (h : GroupInv s) (stray : Gid → Nat) (p : Pid) (head : Bool) :
    enqueueWrrEntity stray s (.task p) head =
      Group.enqueueEntity stray head (Group.dequeueStack stray s (.task p)) (.task p) := by
  have hoff : (Group.dequeueStack stray s (.task p)).onWrrRq (.task p) = false := by
    rw [Bool.eq_false_iff, Ne, (h.dequeueStack stray p).2]
    rintro ⟨hne, -⟩
    exact hne rfl
  unfold enqueueWrrEntity GroupSystem.chain
  rw [List.foldl_cons]
  refine foldl_groups (fun g => ?_) fun se => chainFrom_groups
  exact enqueueEntity_empty stray head
    ((((h.dequeueStack stray p).1.enqueueEntity hoff stray head).1.groups g).1)

theorem enqueueWrrEntity (h : GroupInv s) (stray : Gid → Nat) (p : Pid) (head : Bool) :
    GroupInv (enqueueWrrEntity stray s (.task p) head) ∧
      ∀ se, (Group.enqueueWrrEntity stray s (.task p) head).onWrrRq se = true ↔
        se = .task p ∨ s.onWrrRq se = true := by
  obtain ⟨hinv, hon⟩ := h.dequeueStack stray p
  have hoff : (Group.dequeueStack stray s (.task p)).onWrrRq (.task p) = false := by
    rw [Bool.eq_false_iff, Ne, hon]
    rintro ⟨hne, -⟩
    exact hne rfl
  rw [h.enqueueWrrEntity_eq]
  obtain ⟨hinv', hon'⟩ := hinv.enqueueEntity hoff stray head
  refine ⟨hinv', fun se => ?_⟩
  rw [hon', hon]
  constructor
  · rintro (heq | ⟨-, hse⟩)
    · exact Or.inl heq
    · exact Or.inr hse
  · intro hse
    by_cases heq : se = .task p
    · exact Or.inl heq
    · exact Or.inr ⟨heq, hse.resolve_left heq⟩

/-- Only the priorities of the tasks matter in the flat state. -/
theorem of_base (h : GroupInv s) {b : System} (hb : ∀ p, (b.task p).rtPriority =
    (s.base.task p).rtPriority) : GroupInv { s with base := b } where
  root := by
    obtain ⟨lvl, hrep, hgroup, hlevel⟩ := h.root
    exact ⟨lvl, hrep, hgroup, fun p i hp => (hlevel p i hp).trans (hb p).symm⟩
  nr := h.nr
  groups := h.groups
  prio p := (hb p).trans_le (h.prio p)
  parent := h.parent
  taskParent := h.taskParent

end GroupInv

/-! ## Runs -/

/-- What happens to the groups and to the WRR tasks. -/
inductive GroupOp where
  | enqueue (p : Pid) (flags : Nat)
  | dequeue (p : Pid)
  | createGroup (parent : Option Gid)
  | setTaskRq (p : Pid) (group : Option Gid)
  | setPrio (p : Pid) (prio : Nat)

/-- **Step lemma**: every operation keeps the invariant. -/
def gexec (stray : Gid → Nat) (s : GroupSystem) : GroupOp → GroupSystem
  | .enqueue p flags => enqueueTaskWrr stray s p flags
  | .dequeue p => dequeueTaskWrr stray s p
  | .createGroup parent => createGroup s parent
  | .setTaskRq p group => setTaskRq s p group
  | .setPrio p prio =>
    { s with base := s.base.updTask p fun t => { t with rtPriority := prio } }

/-- Parents exist, and a task changes its group or its priority between a dequeue and the
following enqueue. -/
def GroupOp.Pre (s : GroupSystem) : GroupOp → Prop
  | .enqueue _ _ | .dequeue _ => True
  | .createGroup parent => ∀ g, parent = some g → g < s.groups
  | .setTaskRq p group => s.onWrrRq (.task p) = false ∧ ∀ g, group = some g → g < s.groups
  | .setPrio p prio => s.onWrrRq (.task p) = false ∧ prio ≤ 99

/-- Every task that is enqueued is in the root group. -/
def GroupOp.RootGroup (s : GroupSystem) : GroupOp → Prop
  | .enqueue p _ => s.parent p = none
  | _ => True

theorem GroupInv.init (base : System) (hprio : ∀ p, (base.task p).rtPriority ≤ 99) :
    GroupInv (initGroup base) where
  root := ⟨fun _ => none, PrioArray.Repr.init maxWrrPrio, fun _ => rfl, fun _ _ hp => nomatch hp⟩
  nr := by
    have hrep : (PrioArray.init maxWrrPrio : PrioArray Entity).Repr maxWrrPrio fun _ => none :=
      PrioArray.Repr.init maxWrrPrio
    show (0 : Int) = ((PrioArray.init maxWrrPrio : PrioArray Entity).size maxWrrPrio : Nat)
    rw [hrep.size_eq_zero_iff.mpr fun _ => rfl]
    rfl
  groups _ := ⟨rfl, fun _ => rfl⟩
  prio := hprio
  parent _ _ hp := nomatch hp
  taskParent _ _ hp := nomatch hp

/-- A new group leaves the root queue alone. -/
theorem createGroup_root (s : GroupSystem) (parent : Option Gid) :
    (createGroup s parent).wrr .root = s.wrr .root := by
  have hne : RqId.root ≠ .group s.groups := fun h => nomatch h
  simp only [createGroup, Function.update_of_ne hne]

namespace GroupInv

theorem dequeueTask (h : GroupInv s) (stray : Gid → Nat) (p : Pid) :
    GroupInv (dequeueTaskWrr stray s p) := by
  have hbase : GroupInv { s with base := updateCurrWrr s.base 0 } :=
    h.of_base fun q => by rw [updateCurrWrr_task]
  have hdeq := hbase.dequeueWrrEntity_eq stray p
  show GroupInv { dequeueWrrEntity stray _ (.task p) with base := _ }
  rw [hdeq]
  exact (hbase.dequeueStack stray p).1.of_base fun _ => rfl

/-- A new run queue is empty, and the parent of the new entity exists. -/
theorem create (h : GroupInv s) {parent : Option Gid} (hparent : ∀ k, parent = some k → k < s.groups) :
    GroupInv (createGroup s parent) := by
  have hwrr := createGroup_root s parent
  refine ⟨?_, ?_, fun g => ?_, h.prio, fun g k hk => ?_, fun p k hk => ?_⟩
  · rw [hwrr]
    exact h.root
  · rw [hwrr]
    exact h.nr
  · show (Function.update s.wrr _ initGroupRq (.group g)).wrrNrRunning = 0 ∧
      ∀ i, (Function.update s.wrr _ initGroupRq (.group g)).active.queue i = []
    by_cases hg : RqId.group g = .group s.groups
    · rw [hg, Function.update_self]
      exact ⟨rfl, fun _ => rfl⟩
    · rw [Function.update_of_ne hg]
      exact h.groups g
  · have hk' : (Function.update s.group s.groups ⟨parent, 0⟩ g).parent = some k := hk
    by_cases hg : g = s.groups
    · rw [hg, Function.update_self] at hk'
      rw [hg]
      exact hparent k hk'
    · rw [Function.update_of_ne hg] at hk'
      exact h.parent g k hk'
  · exact Nat.lt_succ_of_lt (h.taskParent p k hk)

theorem setTaskRq (h : GroupInv s) (p : Pid) {group : Option Gid}
    (hgroup : ∀ k, group = some k → k < s.groups) : GroupInv (setTaskRq s p group) := by
  refine ⟨h.root, h.nr, h.groups, h.prio, h.parent, fun q k hk => ?_⟩
  have hk' : Function.update s.parent p group q = some k := hk
  by_cases hq : q = p
  · rw [hq, Function.update_self] at hk'
    exact hgroup k hk'
  · rw [Function.update_of_ne hq] at hk'
    exact h.taskParent q k hk'

/-- The levels are those of the priorities as long as no queued task gets another one. -/
theorem setPrio (h : GroupInv s) {p : Pid} {prio : Nat} (hoff : s.onWrrRq (.task p) = false)
    (hprio : prio ≤ 99) : GroupInv { s with
      base := s.base.updTask p fun t => { t with rtPriority := prio } } := by
  obtain ⟨lvl, hrep, hgroup, hlevel⟩ := h.root
  have hother : ∀ q, q ≠ p → ((s.base.updTask p fun t => { t with rtPriority := prio }).task
      q).rtPriority = (s.base.task q).rtPriority := by
    intro q hq
    rw [System.updTask_task, Function.update_of_ne hq]
  refine ⟨⟨lvl, hrep, hgroup, fun q i hq => ?_⟩, h.nr, h.groups, fun q => ?_, h.parent,
    h.taskParent⟩
  · by_cases hqp : q = p
    · subst hqp
      have hon := h.onWrrRq_iff.mpr ⟨i, (hrep.mem_iff i _).mpr hq⟩
      rw [hoff] at hon
      cases hon
    · exact (hlevel q i hq).trans (hother q hqp).symm
  · by_cases hqp : q = p
    · subst hqp
      show (Function.update s.base.task q _ q).rtPriority ≤ 99
      rw [Function.update_self]
      exact hprio
    · exact (hother q hqp).trans_le (h.prio q)

/-- **Step lemma.** -/
theorem gexec (h : GroupInv s) (stray : Gid → Nat) {op : GroupOp} (hop : op.Pre s) :
    GroupInv (gexec stray s op) := by
  cases op with
  | enqueue p flags => exact (h.enqueueWrrEntity stray p _).1.of_base fun _ => rfl
  | dequeue p => exact h.dequeueTask stray p
  | createGroup parent => exact h.create hop
  | setTaskRq p group => exact h.setTaskRq p hop.2
  | setPrio p prio => exact h.setPrio hop.1 hop.2

end GroupInv

/-! ## The hierarchy -/

variable (s) in
/-- The run queue an entity belongs to: `my_q` of its parent, or `rq->wrr`. -/
def GroupSystem.rqOf (se : Entity) : RqId := (s.parentOf se).elim .root .group

variable (s) in
/-- The run queues the descent from `rq->wrr` through `my_q` can come to. -/
inductive Descent : RqId → Prop where
  | root : Descent .root
  | group {r : RqId} {g : Gid} (hr : Descent r)
      (hg : (s.wrr r).active.linked maxWrrPrio (.group g) = true) : Descent (.group g)

/-- What the entities and run queues of a hierarchy should satisfy. -/
structure GroupOk (s : GroupSystem) : Prop where
  /-- A queued entity is linked in the run queue it belongs to. -/
  linked : ∀ se r, (s.wrr r).active.linked maxWrrPrio se = true → r = s.rqOf se
  nr : ∀ r, (s.wrr r).wrrNrRunning = (s.wrr r).active.size maxWrrPrio
  /-- A group is queued iff something is queued in it. -/
  group : ∀ g, s.onWrrRq (.group g) = true ↔
    ∃ se, (s.wrr (.group g)).active.linked maxWrrPrio se = true
  /-- The descent ends at a queued task. -/
  pick : (∃ p, s.onWrrRq (.task p) = true) → ∃ p, pickNext s = some p ∧ s.onWrrRq (.task p) = true
  descent : ∀ p, s.onWrrRq (.task p) = true → Descent s (s.rqOf (.task p))

/-- Without a parent an entity is queued in the root. -/
theorem rqOf_task {p : Pid} (hp : s.parent p = none) : s.rqOf (.task p) = .root := by
  show (s.parent p).elim RqId.root .group = .root
  rw [hp]
  rfl

namespace GroupInv

/-- In the root, the list heads tell the truth about who is queued. -/
theorem linked_root (h : GroupInv s) :
    (s.wrr .root).active.linked maxWrrPrio se = true ↔ s.onWrrRq se = true := by
  obtain ⟨lvl, hrep, -, -⟩ := h.root
  rw [h.onWrrRq_iff, hrep.linked_iff]
  simp only [hrep.mem_iff]
  exact Option.ne_none_iff_exists'

/-- The queue of a group never holds anything. -/
theorem not_linked_group (h : GroupInv s) (g : Gid) (se : Entity) :
    ¬(s.wrr (.group g)).active.linked maxWrrPrio se = true := by
  intro hlinked
  obtain ⟨i, -, hi⟩ := List.any_eq_true.mp hlinked
  rw [(h.groups g).2 i] at hi
  exact List.not_mem_nil (of_decide_eq_true hi)

/-- What is queued is queued in the root run queue. -/
theorem linked_rqOf (h : GroupInv s) (hall : ∀ p, s.onWrrRq (.task p) = true → s.parent p = none)
    {r : RqId} (hr : (s.wrr r).active.linked maxWrrPrio se = true) : r = s.rqOf se := by
  cases r with
  | group g => exact absurd hr (h.not_linked_group g se)
  | root =>
    have hon := h.linked_root.mp hr
    cases se with
    | group g =>
      rw [h.group_off g] at hon
      cases hon
    | task p => exact (rqOf_task (hall p hon)).symm

/-- Every counter is the size of its array. -/
theorem nr_size (h : GroupInv s) (r : RqId) :
    (s.wrr r).wrrNrRunning = (s.wrr r).active.size maxWrrPrio := by
  cases r with
  | root => exact h.nr
  | group g =>
    have hsize : (s.wrr (.group g)).active.size maxWrrPrio = 0 :=
      Finset.sum_eq_zero fun i _ => by rw [(h.groups g).2 i]; rfl
    rw [hsize, (h.groups g).1]
    rfl

/-- No group is queued, and in none is anything queued. -/
theorem group_iff (h : GroupInv s) (g : Gid) : s.onWrrRq (.group g) = true ↔
    ∃ se, (s.wrr (.group g)).active.linked maxWrrPrio se = true := by
  rw [h.group_off g]
  constructor
  · intro hno
    cases hno
  · rintro ⟨se, hse⟩
    exact absurd hse (h.not_linked_group g se)

/-- The descent stops in the root run queue, at the first task of the first level. -/
theorem pickNext (h : GroupInv s) (hp : s.onWrrRq (.task p) = true) :
    ∃ q, pickNext s = some q ∧ s.onWrrRq (.task q) = true := by
  obtain ⟨lvl, hrep, hgroup, -⟩ := h.root
  obtain ⟨i, hi⟩ := h.onWrrRq_iff.mp hp
  have hlvl := (hrep.mem_iff i _).mp hi
  have hlt := hrep.findFirstBit_lt_iff.mpr ⟨.task p, by rw [hlvl]; exact Option.some_ne_none i⟩
  have hne : (s.wrr .root).wrrNrRunning ≠ 0 := by
    rw [h.nr]
    intro hzero
    have hnone := (hrep.size_eq_zero_iff.mp (Int.ofNat_eq_zero.mp hzero)) (.task p)
    rw [hlvl] at hnone
    cases hnone
  obtain ⟨se, hhead, hse⟩ := hrep.findFirstBit_head hlt
  cases se with
  | group g =>
    rw [hgroup g] at hse
    cases hse
  | task q =>
    refine ⟨q, ?_, h.onWrrRq_iff.mpr ⟨_, (hrep.mem_iff _ _).mpr hse⟩⟩
    unfold Group.pickNext descend pickNextEntity
    rw [if_neg hne]
    dsimp only
    rw [hhead]

end GroupInv

/-- **The hierarchy is right exactly when every queued task is in the root group.** -/
theorem groupOk_iff (h : GroupInv s) :
    GroupOk s ↔ ∀ p, s.onWrrRq (.task p) = true → s.parent p = none := by
  constructor
  · intro hok p hp
    -- it is linked in the root run queue, so that is the one it belongs to
    have hr : RqId.root = (s.parent p).elim .root .group :=
      hok.linked (.task p) .root (h.linked_root.mpr hp)
    cases hparent : s.parent p with
    | none => rfl
    | some g =>
      rw [hparent] at hr
      cases hr
  · intro hall
    constructor
    · intro se r hr
      exact h.linked_rqOf hall hr
    · exact h.nr_size
    · exact h.group_iff
    · rintro ⟨p, hp⟩
      exact h.pickNext hp
    · intro p hp
      rw [rqOf_task (hall p hp)]
      exact Descent.root

/-! ## Runs over tasks of the root group -/

/-- Every queued task is in the root group. -/
def RootOnly (s : GroupSystem) : Prop :=
  ∀ p, s.onWrrRq (.task p) = true → s.parent p = none

/-- The two invariants together are preserved. -/
theorem rootOnly_step (h : GroupInv s ∧ RootOnly s) (stray : Gid → Nat) {op : GroupOp}
    (hpre : op.Pre s) (hop : op.RootGroup s) :
    GroupInv (gexec stray s op) ∧ RootOnly (gexec stray s op) := by
  obtain ⟨hinv, hall⟩ := h
  have hinv' := hinv.gexec stray hpre
  refine ⟨hinv', fun q hq => ?_⟩
  cases op with
  | enqueue p flags =>
    have hparent : (gexec stray s (.enqueue p flags)).parent = s.parent :=
      (enqueueWrrEntity_same stray s _ _).parent
    rw [hparent]
    rcases ((hinv.enqueueWrrEntity stray p _).2 (.task q)).mp hq with heq | hon
    · rw [Entity.task.inj heq]
      exact hop
    · exact hall q hon
  | dequeue p =>
    have hparent : (gexec stray s (.dequeue p)).parent = s.parent :=
      (dequeueWrrEntity_same stray _ _).parent
    rw [hparent]
    have hbase : GroupInv { s with base := updateCurrWrr s.base 0 } :=
      hinv.of_base fun q => by rw [updateCurrWrr_task]
    have hon := (hbase.dequeueStack stray p).2 (.task q)
    rw [← hbase.dequeueWrrEntity_eq] at hon
    exact hall q (hon.mp hq).2
  | createGroup parent =>
    have hroot : ((createGroup s parent).wrr .root).active.linked maxWrrPrio (.task q) = true :=
      hinv'.linked_root.mpr hq
    rw [createGroup_root] at hroot
    exact hall q (hinv.linked_root.mp hroot)
  | setTaskRq p group =>
    -- only a task that is off the queue changes its group
    have hne : q ≠ p := by
      rintro rfl
      exact absurd hq (Bool.eq_false_iff.mp hpre.1)
    exact (Function.update_of_ne hne group s.parent).trans (hall q hq)
  | setPrio p prio => exact hall q hq

/-- What every run keeps, whatever groups the tasks are in. -/
theorem groupInv_reach {base : System} (hprio : ∀ p, (base.task p).rtPriority ≤ 99)
    (h : Reach GroupOp.Pre (gexec stray) (initGroup base) s) : GroupInv s :=
  h.invariant (fun _ _ hinv hop => hinv.gexec stray hop) (GroupInv.init base hprio)

/-- **The hierarchy invariant**, over the runs that enqueue tasks of the root group only. -/
theorem group_hierarchy_reach {base : System} (hprio : ∀ p, (base.task p).rtPriority ≤ 99)
    (h : Reach (fun s op => op.Pre s ∧ op.RootGroup s) (gexec stray) (initGroup base) s) :
    GroupOk s := by
  have hinit : GroupInv (initGroup base) ∧ RootOnly (initGroup base) :=
    ⟨GroupInv.init base hprio, fun _ _ => rfl⟩
  have hrun : GroupInv s ∧ RootOnly s :=
    h.invariant (I := fun s => GroupInv s ∧ RootOnly s)
      (fun _ _ hI hop => rootOnly_step hI stray hop.1 hop.2) hinit
  exact (groupOk_iff hrun.1).mpr hrun.2

/-- Sleeping WRR tasks of priority 50, and one group. -/
def groupSystem : GroupSystem := initGroup (wrrSystem fun _ => 50)

def oneGroup : GroupSystem := gexec (fun _ => 0) groupSystem (.createGroup none)

theorem groupSystem_prio (p : Pid) : ((wrrSystem fun _ => 50).task p).rtPriority ≤ 99 := by
  show (bootTask (fun _ => wrrTask 50) p).rtPriority ≤ 99
  by_cases hp : p % 2 = 0
  · rw [bootTask_even _ hp]
    exact Nat.zero_le 99
  · rw [bootTask_odd _ hp]
    show 50 ≤ 99
    decide

theorem oneGroup_reach {ok : GroupSystem → GroupOp → Prop}
    (hok : ok groupSystem (.createGroup none)) :
    Reach ok (gexec fun _ => 0) groupSystem oneGroup := Reach.single hok

/-- Tasks 1 and 5 are queued at the levels of priorities 50 and 60, next to an empty group, and the
first one is dequeued: the second one is left and is picked. -/
theorem group_hierarchy_reach_boot :
    let s := [.setPrio 5 60, .enqueue 1 0, .enqueue 5 0, .dequeue 1].foldl (gexec fun _ => 0) oneGroup
    GroupOk s ∧ s.onWrrRq (.task 1) = false ∧ s.onWrrRq (.task 5) = true ∧ pickNext s = some 5 := by
  intro s
  let ok (s : GroupSystem) (op : GroupOp) : Prop := op.Pre s ∧ op.RootGroup s
  have hone : Reach ok (gexec fun _ => 0) groupSystem oneGroup :=
    oneGroup_reach (And.intro (fun _ hg => nomatch hg) trivial)
  have hprio : ok oneGroup (.setPrio 5 60) := ⟨⟨by decide +kernel, by decide⟩, trivial⟩
  have henq : ∀ s p, s.parent p = none → ok s (.enqueue p 0) := fun s p hp => ⟨trivial, hp⟩
  have hdeq : ∀ s p, ok s (.dequeue p) := fun s p => ⟨trivial, trivial⟩
  have hrun : Reach ok (gexec fun _ => 0) groupSystem s :=
    (((hone.tail hprio).tail (henq _ 1 rfl)).tail (henq _ 5 rfl)).tail (hdeq _ 1)
  exact ⟨group_hierarchy_reach groupSystem_prio hrun, by decide +kernel, by decide +kernel,
    by decide +kernel⟩

/-- A task of a created group is linked in the root run queue. -/
theorem group_hierarchy_broken :
    ¬∀ s, Reach GroupOp.Pre (gexec fun _ => 0) groupSystem s → GroupOk s := by
  intro hall
  have hrun : Reach GroupOp.Pre (gexec fun _ => 0) groupSystem
      (gexec (fun _ => 0) (gexec (fun _ => 0) oneGroup (.setTaskRq 1 (some 0)))
        (.enqueue 1 0)) := by
    refine ((oneGroup_reach fun _ hg => nomatch hg).tail ⟨by decide +kernel, ?_⟩).tail trivial
    intro g hg
    cases hg
    exact Nat.zero_lt_one
  have hroot := (hall _ hrun).linked (.task 1) .root (by decide +kernel)
  cases hroot

end LinuxWrr.Group
