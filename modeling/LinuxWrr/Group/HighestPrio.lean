import LinuxWrr.Group.Hierarchy

/-!
# The cached highest priority of the group-scheduling class

`highest_prio.curr` is lowered on every enqueue and recomputed from the bitmap only when the
priority that is given up is the cached one. That is right as long as the list and the bit
are updated before the counter and the cache, and priorities do not change while queued.

- `RqOp`, `rexec`: enqueues, dequeues, yields, ticks and priority changes, in any order.
- `Tracked`, `track`: a system, and the tasks that have been enqueued and not dequeued.
- `CacheOk`: what cache, bitmap and counter should say about them.
- `highestPrio_reach`: **they do, in every reachable state, and no `WARN_ON` fires**.
-/

namespace LinuxWrr.Group

open PrioArray

variable {cfg : Config} {s t : GroupSystem} {se : Entity} {p q : Pid} {stray : Gid → Nat}
  {lvl : Entity → Option Nat}

/-! ## The counters -/

/-- When the last entity leaves, the cache goes back to `MAX_WRR_PRIO`. -/
theorem decWrrTasks_last {w : GroupRq} (prio : Nat) (hnr : w.wrrNrRunning = 1) :
    decWrrTasks w prio = ({ w with wrrNrRunning := 0, highestPrio := maxWrrPrio }, false) := by
  unfold decWrrTasks decWrrPrio
  simp [hnr]

/-- Another one leaves, of no better priority than the cached one. -/
theorem decWrrTasks_cached {w : GroupRq} {prio : Nat} (hnr : 1 < w.wrrNrRunning)
    (hle : w.highestPrio ≤ prio) : decWrrTasks w prio =
      ({ w with
          wrrNrRunning := w.wrrNrRunning - 1
          highestPrio := if prio = w.highestPrio then w.active.findFirstBit maxWrrPrio
            else w.highestPrio }, false) := by
  have hzero : w.wrrNrRunning ≠ 0 := by omega
  have hone : w.wrrNrRunning - 1 ≠ 0 := by omega
  unfold decWrrTasks decWrrPrio
  dsimp only
  rw [if_pos hone, decide_eq_false hzero, decide_eq_false (Nat.not_lt.mpr hle)]
  split <;> rfl

/-- **The cache after a removal**: `w` is the run queue whose list and bit are updated already,
and whose counter and cache are not. -/
theorem decWrrTasks_least {w : GroupRq} {x : Entity} {prio : Nat} (hx : lvl x = some prio)
    (hrep : w.active.Repr maxWrrPrio (Function.update lvl x none))
    (hleast : Least maxWrrPrio lvl w.highestPrio)
    (hnr : w.wrrNrRunning = w.active.size maxWrrPrio + 1) :
    Least maxWrrPrio (Function.update lvl x none) (decWrrTasks w prio).1.highestPrio ∧
      (decWrrTasks w prio).2 = false := by
  by_cases hsize : w.active.size maxWrrPrio = 0
  · have hone : w.wrrNrRunning = 1 := by
      rw [hnr, hsize]
      rfl
    have hnone := hrep.size_eq_zero_iff.mp hsize
    rw [decWrrTasks_last prio hone]
    refine ⟨⟨fun y i hy => ?_, .inr ⟨rfl, hnone⟩⟩, rfl⟩
    rw [hnone y] at hy
    cases hy
  · have hmany : 1 < w.wrrNrRunning := by omega
    rw [decWrrTasks_cached hmany (hleast.le x prio hx)]
    refine ⟨?_, rfl⟩
    dsimp only
    split
    · exact hrep.least
    next hne => exact hleast.erase hx hne

/-- Enqueueing a task lowers the cached priority to its own if that is better, and warns of
nothing. -/
theorem enqueueEntity_inc (stray : Gid → Nat) (head : Bool) (s : GroupSystem) (p : Pid) :
    ((enqueueEntity stray head s (.task p)).wrr .root).highestPrio =
        (if (s.base.task p).rtPriority < (s.wrr .root).highestPrio then (s.base.task p).rtPriority
          else (s.wrr .root).highestPrio) ∧
      (enqueueEntity stray head s (.task p)).warned = s.warned := by
  rw [enqueueEntity_eq, GroupSystem.setWrr_self]
  exact ⟨rfl, rfl⟩

/-! ## Entities -/

/-- The tasks of `queued` at their priorities, and nothing else. -/
def levelOf (b : System) (queued : Finset Pid) : Entity → Option Nat
  | .task p => if p ∈ queued then some (b.task p).rtPriority else none
  | .group _ => none

variable {queued : Finset Pid}

/-- Two sets of queued tasks that differ in `p` only. -/
theorem levelOf_update (b : System) {queued' : Finset Pid} {o : Option Nat}
    (hp : levelOf b queued' (.task p) = o) (hother : ∀ q ≠ p, q ∈ queued' ↔ q ∈ queued) :
    levelOf b queued' = Function.update (levelOf b queued) (.task p) o := by
  funext se
  by_cases hse : se = .task p
  · rw [hse, Function.update_self, hp]
  · rw [Function.update_of_ne hse]
    cases se with
    | group g => rfl
    | task q =>
      have hq : q ≠ p := fun hqp => hse (congrArg Entity.task hqp)
      simp only [levelOf, hother q hq]

/-- Queueing a task gives it its level and changes no other. -/
theorem levelOf_insert (b : System) (p : Pid) : levelOf b (insert p queued) =
    Function.update (levelOf b queued) (.task p) (some (b.task p).rtPriority) :=
  levelOf_update b (if_pos (Finset.mem_insert_self p queued)) fun _ hq =>
    Finset.mem_insert.trans (or_iff_right hq)

/-- Dequeueing a task takes its level away and changes no other. -/
theorem levelOf_erase (b : System) (p : Pid) : levelOf b (queued.erase p) =
    Function.update (levelOf b queued) (.task p) none :=
  levelOf_update b (if_neg (Finset.notMem_erase p queued)) fun _ hq =>
    Finset.mem_erase.trans (and_iff_right hq)

/-- Only the priorities of the queued tasks matter. -/
theorem levelOf_congr {b b' : System}
    (h : ∀ p ∈ queued, (b'.task p).rtPriority = (b.task p).rtPriority) :
    levelOf b' queued = levelOf b queued := by
  funext se
  cases se with
  | group g => rfl
  | task p =>
    by_cases hp : p ∈ queued
    · show (if p ∈ queued then some (b'.task p).rtPriority else none) = _
      rw [h p hp]
      rfl
    · exact (if_neg hp).trans (if_neg hp).symm

/-- Exactly the tasks of `queued` are queued, and cache and counter agree with that. -/
structure Cached (s : GroupSystem) (queued : Finset Pid) : Prop where
  group : GroupInv s
  on : ∀ p, s.onWrrRq (.task p) = true ↔ p ∈ queued
  highest : Least maxWrrPrio (levelOf s.base queued) (s.wrr .root).highestPrio
  nr : (s.wrr .root).wrrNrRunning = queued.card
  warned : s.warned = false

namespace Cached

theorem repr (h : Cached s queued) :
    (s.wrr .root).active.Repr maxWrrPrio (levelOf s.base queued) := by
  obtain ⟨lvl, hrep, hgroup, hlevel⟩ := h.group.root
  refine hrep.congr fun se => ?_
  cases se with
  | group g => exact (hgroup g).symm
  | task p =>
    by_cases hp : p ∈ queued
    · have hon := (h.on p).mpr hp
      rw [h.group.level_of_on hrep hlevel hon]
      exact if_pos hp
    · have hoff : lvl (.task p) = none := by
        by_contra hne
        obtain ⟨i, hi⟩ := Option.ne_none_iff_exists'.mp hne
        exact hp ((h.on p).mp (h.group.onWrrRq_iff.mpr ⟨i, (hrep.mem_iff i _).mpr hi⟩))
      rw [hoff]
      exact if_neg hp

/-- **Step lemma** of `__dequeue_wrr_entity`: `WARN_ON` has nothing to warn about, and the
cache is recomputed when it has to be. -/
theorem dequeueEntity (h : Cached s queued) (hp : p ∈ queued) (stray : Gid → Nat) :
    Cached (dequeueEntity stray s (.task p)) (queued.erase p) := by
  obtain ⟨hinv, hon⟩ := h.group.dequeueEntity ((h.on p).mpr hp) stray
  obtain ⟨-, -, hhighest, hwarned⟩ := dequeueEntity_dec stray s p
  have hlevel : levelOf s.base queued (.task p) = some (s.base.task p).rtPriority := if_pos hp
  have hsize : (unlinkedRoot s p).wrrNrRunning =
      (unlinkedRoot s p).active.size maxWrrPrio + 1 := by
    show (s.wrr .root).wrrNrRunning = _
    rw [h.group.nr, ← h.repr.size_dequeue hlevel]
    rfl
  have hrep : (unlinkedRoot s p).active.Repr maxWrrPrio
      (Function.update (levelOf s.base queued) (.task p) none) := h.repr.dequeue hlevel
  have hdec := decWrrTasks_least hlevel hrep h.highest hsize
  have hbase : (Group.dequeueEntity stray s (.task p)).base = s.base :=
    (dequeueEntity_same stray s _).base
  have hnr := (dequeueEntity_root stray s p).2
  have hcard : ((queued.erase p).card : Int) = queued.card - 1 := by
    rw [Finset.card_erase_of_mem hp]
    have hpos := Finset.card_pos.mpr ⟨p, hp⟩
    omega
  refine ⟨hinv, fun q => ?_, ?_, ?_, ?_⟩
  · rw [hon, h.on, Finset.mem_erase]
    exact and_congr_left' (not_congr ⟨Entity.task.inj, congrArg _⟩)
  · rw [hbase, levelOf_erase, hhighest]
    exact hdec.1
  · rw [hnr, h.nr, hcard]
  · rw [hwarned, h.warned, Bool.false_or]
    exact hdec.2

/-- **Step lemma** of `__enqueue_wrr_entity`: the cache follows the task that comes. -/
theorem enqueueEntity (h : Cached s queued) (hp : p ∉ queued) (stray : Gid → Nat) (head : Bool) :
    Cached (enqueueEntity stray head s (.task p)) (insert p queued) := by
  have hoff : s.onWrrRq (.task p) = false := by
    rw [Bool.eq_false_iff, Ne, h.on]
    exact hp
  obtain ⟨hinv, hon⟩ := h.group.enqueueEntity hoff stray head
  obtain ⟨hhighest, hwarned⟩ := enqueueEntity_inc stray head s p
  have hbase : (Group.enqueueEntity stray head s (.task p)).base = s.base :=
    (enqueueEntity_same stray head s _).base
  have hlevel : levelOf s.base queued (.task p) = none := if_neg hp
  have hlt : (s.base.task p).rtPriority < maxWrrPrio := Nat.lt_succ_of_le (h.group.prio p)
  refine ⟨hinv, fun q => ?_, ?_, ?_, hwarned.trans h.warned⟩
  · rw [hon, h.on, Finset.mem_insert]
    exact or_congr_left ⟨Entity.task.inj, congrArg _⟩
  · rw [hbase, levelOf_insert, hhighest]
    exact h.highest.insert hlevel hlt
  · rw [(enqueueEntity_task stray head s p).2.1, h.nr, Finset.card_insert_of_notMem hp]
    push_cast
    rfl

/-! ## The class -/

theorem dequeueStack (h : Cached s queued) (stray : Gid → Nat) (p : Pid) :
    Cached (dequeueStack stray s (.task p)) (queued.erase p) := by
  rw [h.group.dequeueStack_eq]
  by_cases hp : p ∈ queued
  · rw [if_pos ((h.on p).mpr hp)]
    exact h.dequeueEntity hp stray
  · rw [if_neg (fun hon => hp ((h.on p).mp hon)), Finset.erase_eq_of_notMem hp]
    exact h

theorem enqueueWrrEntity (h : Cached s queued) (stray : Gid → Nat) (p : Pid) (head : Bool) :
    Cached (enqueueWrrEntity stray s (.task p) head) (insert p queued) := by
  have hinsert : insert p queued = insert p (queued.erase p) := by grind
  rw [h.group.enqueueWrrEntity_eq, hinsert]
  exact (h.dequeueStack stray p).enqueueEntity (Finset.notMem_erase p queued) stray head

/-- Only the priorities of the tasks matter in the flat state. -/
theorem of_base (h : Cached s queued) {b : System}
    (hb : ∀ p, (b.task p).rtPriority = (s.base.task p).rtPriority) :
    Cached { s with base := b } queued := by
  refine ⟨h.group.of_base hb, h.on, ?_, h.nr, h.warned⟩
  show Least maxWrrPrio (levelOf b queued) _
  rw [levelOf_congr fun p _ => hb p]
  exact h.highest

theorem enqueueTaskWrr (h : Cached s queued) (stray : Gid → Nat) (p : Pid) (flags : Nat) :
    Cached (enqueueTaskWrr stray s p flags) (insert p queued) :=
  (h.enqueueWrrEntity stray p _).of_base fun _ => rfl

theorem dequeueTaskWrr (h : Cached s queued) (stray : Gid → Nat) (p : Pid) :
    Cached (dequeueTaskWrr stray s p) (queued.erase p) := by
  have hbase : Cached { s with base := updateCurrWrr s.base 0 } queued :=
    h.of_base fun q => by rw [updateCurrWrr_task]
  show Cached { dequeueWrrEntity stray _ (.task p) with base := _ } _
  rw [hbase.group.dequeueWrrEntity_eq]
  exact (hbase.dequeueStack stray p).of_base fun _ => rfl

end Cached

/-! ## Requeues -/

theorem requeueEntity_same (stray : Gid → Nat) (head : Bool) (s : GroupSystem) (se : Entity) :
    SameGroups s (requeueEntity stray head s se) := by
  unfold requeueEntity
  split <;> exact ⟨rfl, rfl, rfl, rfl⟩

/-- Requeueing an entity that is not queued does nothing. -/
theorem requeueEntity_off (stray : Gid → Nat) (head : Bool) (hoff : s.onWrrRq se = false) :
    requeueEntity stray head s se = s := if_neg (Bool.eq_false_iff.mp hoff)

/-- Requeueing a queued task moves it within its own list. -/
theorem requeueEntity_on (stray : Gid → Nat) (head : Bool) (hon : s.onWrrRq (.task p) = true) :
    (requeueEntity stray head s (.task p)).wrr .root =
        { s.wrr .root with
          active := ((s.wrr .root).active.listDelInit (.task p)).listAddAt head (.task p)
            (s.base.task p).rtPriority } ∧
      (∀ g, (requeueEntity stray head s (.task p)).wrr (.group g) =
        { s.wrr (.group g) with
          active := (s.wrr (.group g)).active.listDelInit (.task p) }) ∧
      (requeueEntity stray head s (.task p)).warned = s.warned := by
  unfold requeueEntity
  rw [if_pos hon]
  unfold wrrRqOfSe GroupSystem.setWrr
  dsimp only
  refine ⟨Function.update_self _ _ _, fun g => ?_, rfl⟩
  have hne : RqId.group g ≠ RqId.root := fun h => nomatch h
  rw [Function.update_of_ne hne]
  rfl

namespace GroupInv

/-- A requeue moves a task within its level. -/
theorem requeueEntity (h : GroupInv s) (hon : s.onWrrRq (.task p) = true) (stray : Gid → Nat)
    (head : Bool) : GroupInv (requeueEntity stray head s (.task p)) ∧
      ∀ se, (Group.requeueEntity stray head s (.task p)).onWrrRq se = s.onWrrRq se := by
  obtain ⟨lvl, hrep, hgroup, hlevel⟩ := h.root
  obtain ⟨hroot, hgroups, -⟩ := requeueEntity_on stray head hon
  have hp := h.level_of_on hrep hlevel hon
  have hrot := hrep.rotate hp head
  have hinv : GroupInv (Group.requeueEntity stray head s (.task p)) := by
    refine h.of_same (requeueEntity_same stray head s _) (l := lvl) ?_ hgroup hlevel ?_ fun g => ?_
    · rw [hroot]
      exact hrot
    · rw [hroot]
      show (s.wrr .root).wrrNrRunning = _
      rw [h.nr, hrep.size_rotate hp]
    · rw [hgroups]
      refine ⟨(h.groups g).1, fun i => ?_⟩
      show ((s.wrr (.group g)).active.queue i).erase _ = []
      rw [(h.groups g).2 i]
      rfl
  refine ⟨hinv, fun se => Bool.eq_iff_iff.mpr ?_⟩
  rw [hinv.onWrrRq_iff, h.onWrrRq_iff, hroot]
  refine exists_congr fun i => ?_
  rw [hrot.mem_iff, hrep.mem_iff]

/-- The groups above a task are not queued. -/
theorem requeueTaskWrr_eq (h : GroupInv s) (stray : Gid → Nat) (p : Pid) (head : Bool) :
    requeueTaskWrr stray s p head = Group.requeueEntity stray head s (.task p) := by
  have hoff : ∀ g, (Group.requeueEntity stray head s (.task p)).onWrrRq (.group g) = false := by
    intro g
    by_cases hon : s.onWrrRq (.task p) = true
    · rw [(h.requeueEntity hon stray head).2]
      exact h.group_off g
    · rw [requeueEntity_off stray head (Bool.eq_false_iff.mpr hon)]
      exact h.group_off g
  unfold requeueTaskWrr GroupSystem.chain
  rw [List.foldl_cons]
  exact foldl_groups (fun g => requeueEntity_off stray head (hoff g)) fun se => chainFrom_groups

end GroupInv

/-- A requeue keeps counter, cache and bitmap, and every task at its level. -/
theorem Cached.requeueTaskWrr (h : Cached s queued) (stray : Gid → Nat) (p : Pid) (head : Bool) :
    Cached (requeueTaskWrr stray s p head) queued := by
  rw [h.group.requeueTaskWrr_eq]
  by_cases hon : s.onWrrRq (.task p) = true
  · obtain ⟨hinv, hsame⟩ := h.group.requeueEntity hon stray head
    obtain ⟨hroot, -, hwarned⟩ := requeueEntity_on stray head hon
    have hbase := (requeueEntity_same stray head s (.task p)).base
    refine ⟨hinv, fun q => ?_, ?_, ?_, hwarned.trans h.warned⟩
    · rw [hsame]
      exact h.on q
    · rw [hbase, hroot]
      exact h.highest
    · rw [hroot]
      exact h.nr
  · rw [requeueEntity_off stray head (Bool.eq_false_iff.mpr hon)]
    exact h

/-- The slice a tick leaves. -/
inductive TickSlice (cfg : Config) (f : Task) : Nat → Prop where
  | other (hpolicy : f.policy ≠ .wrr) : TickSlice cfg f f.timeSlice
  | counted (hpolicy : f.policy = .wrr) (hts : decU32 f.timeSlice ≠ 0) :
    TickSlice cfg f (decU32 f.timeSlice)
  | expired (hpolicy : f.policy = .wrr) (hts : decU32 f.timeSlice = 0) (fore : Bool) :
    TickSlice cfg f (if fore then cfg.wrrForeTimeslice else cfg.wrrBackTimeslice)

/-- **What a tick does**: it writes the slice, and requeues the task or not. -/
theorem taskTickWrr_cases (cfg : Config) (stray : Gid → Nat) (s : GroupSystem) (p : Pid) :
    ∃ (b : System) (ts : Nat), TickSlice cfg (s.base.task p) ts ∧
      b.task = Function.update s.base.task p { s.base.task p with timeSlice := ts } ∧
      b.rq = s.base.rq ∧
      (taskTickWrr cfg stray s p = { s with base := b } ∨ taskTickWrr cfg stray s p =
        { requeueTaskWrr stray { s with base := b } p false with base := b.setTskNeedResched p }) := by
  by_cases hpolicy : (s.base.task p).policy = .wrr
  · by_cases hts : decU32 (s.base.task p).timeSlice = 0
    · -- the slice is used up
      let spent := (updateCurrWrr s.base 0).updTask p fun t => { t with timeSlice := 0 }
      let path := taskGroupPath cfg spent (spent.task p).schedTaskGroup
      have hpath : path.task = Function.update s.base.task p
          { s.base.task p with timeSlice := 0 } := by
        rw [taskGroupPath_task, System.updTask_task, updateCurrWrr_task]
      refine ⟨Basic.refillSlice cfg spent p, _, .expired hpolicy hts path.foreground, ?_, ?_, ?_⟩
      · show Function.update path.task p { path.task p with timeSlice := _ } = _
        rw [hpath, Function.update_self, Function.update_idem]
        rfl
      · show path.rq = s.base.rq
        rw [taskGroupPath_rq, System.updTask_rq, updateCurrWrr_rq]
      · have htick : taskTickWrr cfg stray s p = sliceExpired cfg stray { s with base := spent } p := by
          simp [taskTickWrr, hpolicy, hts, spent]
        rw [htick]
        unfold sliceExpired
        dsimp only
        split
        · right
          have hbase : (requeueTaskWrr stray { s with base := Basic.refillSlice cfg spent p } p
              false).base = Basic.refillSlice cfg spent p :=
            (SameGroups.foldl (requeueEntity_same stray false) _ _).base
          rw [hbase]
        · exact .inl rfl
    · refine ⟨(updateCurrWrr s.base 0).updTask p fun t =>
        { t with timeSlice := decU32 (s.base.task p).timeSlice }, _, .counted hpolicy hts, ?_, ?_, ?_⟩
      · simp
      · simp
      · left
        simp [taskTickWrr, hpolicy, hts]
  · refine ⟨updateCurrWrr s.base 0, _, .other hpolicy, ?_, ?_, ?_⟩
    · simp
    · simp
    · left
      simp [taskTickWrr, hpolicy]

/-- A tick keeps counter, cache and bitmap. -/
theorem Cached.taskTickWrr (h : Cached s queued) (cfg : Config) (stray : Gid → Nat) (p : Pid) :
    Cached (taskTickWrr cfg stray s p) queued := by
  obtain ⟨b, ts, -, hb, -, htick⟩ := taskTickWrr_cases cfg stray s p
  have hwrite : Cached { s with base := b } queued := by
    refine h.of_base fun q => ?_
    rw [hb]
    by_cases hq : q = p
    · rw [hq, Function.update_self]
    · rw [Function.update_of_ne hq]
  rcases htick with htick | htick
  · rw [htick]
    exact hwrite
  · rw [htick]
    have hbase : (Group.requeueTaskWrr stray { s with base := b } p false).base = b :=
      (SameGroups.foldl (requeueEntity_same stray false) _ _).base
    refine (hwrite.requeueTaskWrr stray p false).of_base fun q => ?_
    rw [hbase]
    rfl

/-! ## Runs -/

/-- What happens to the run queue: the operations on groups and tasks, and what the current
task does. -/
inductive RqOp where
  | group (op : GroupOp)
  | yield
  | tick (p : Pid)
  /-- Another task becomes `rq->curr`. -/
  | switch (p : Pid)

def rexec (cfg : Config) (stray : Gid → Nat) (s : GroupSystem) : RqOp → GroupSystem
  | .group op => gexec stray s op
  | .yield => yieldTaskWrr stray s
  | .tick p => taskTickWrr cfg stray s p
  | .switch p => { s with base := s.base.updRq 0 fun r => { r with curr := p } }

def RqOp.Pre (s : GroupSystem) : RqOp → Prop
  | .group op => op.Pre s
  | _ => True

/-- A system, and the tasks that have been enqueued and not dequeued since. -/
structure Tracked where
  sys : GroupSystem
  queued : Finset Pid

def Tracked.Pre (r : Tracked) (op : RqOp) : Prop := op.Pre r.sys

def track (cfg : Config) (stray : Gid → Nat) (r : Tracked) (op : RqOp) : Tracked where
  sys := rexec cfg stray r.sys op
  queued := match op with
    | .group (.enqueue p _) => insert p r.queued
    | .group (.dequeue p) => r.queued.erase p
    | _ => r.queued

/-- What the run queue should say about the queued tasks. -/
structure CacheOk (r : Tracked) : Prop where
  /-- Each is linked once, in the list of its priority. -/
  linked : ∀ p i, ((r.sys.wrr .root).active.queue i).count (.task p) =
    if p ∈ r.queued ∧ i = (r.sys.base.task p).rtPriority then 1 else 0
  /-- `highest_prio.curr` is the least of their priorities, or `MAX_WRR_PRIO`. -/
  least : ∀ p ∈ r.queued, (r.sys.wrr .root).highestPrio ≤ (r.sys.base.task p).rtPriority
  attained : if r.queued = ∅ then (r.sys.wrr .root).highestPrio = maxWrrPrio
    else ∃ p ∈ r.queued, (r.sys.base.task p).rtPriority = (r.sys.wrr .root).highestPrio
  firstBit : (r.sys.wrr .root).highestPrio = (r.sys.wrr .root).active.findFirstBit maxWrrPrio
  nr : (r.sys.wrr .root).wrrNrRunning = r.queued.card
  warned : r.sys.warned = false

/-- The invariant says what the cache, the bitmap and the counter have to be. -/
theorem Cached.cacheOk {r : Tracked} (h : Cached r.sys r.queued) : CacheOk r where
  linked p i := by
    have hmem : Entity.task p ∈ (r.sys.wrr .root).active.queue i ↔
        p ∈ r.queued ∧ i = (r.sys.base.task p).rtPriority := by
      rw [h.repr.mem_iff]
      simp [levelOf, eq_comm]
    rw [(h.repr.nodup i).count]
    exact if_congr hmem rfl rfl
  least p hp := h.highest.le (.task p) _ (if_pos hp)
  attained := by
    -- the least level is that of some entity, and only tasks have one
    rcases h.highest.attained with ⟨se, hse⟩ | ⟨hmax, hnone⟩
    · cases se with
      | group g => cases hse
      | task p =>
        by_cases hp : p ∈ r.queued
        · rw [if_neg (Finset.ne_empty_of_mem hp)]
          exact ⟨p, hp, Option.some.inj ((if_pos hp).symm.trans hse)⟩
        · rw [levelOf, if_neg hp] at hse
          cases hse
    · have hempty : r.queued = ∅ := by
        refine Finset.eq_empty_of_forall_notMem fun p hp => ?_
        have hsome : levelOf r.sys.base r.queued (.task p) = some _ := if_pos hp
        rw [hnone] at hsome
        cases hsome
      rw [if_pos hempty]
      exact hmax
  firstBit := h.highest.unique h.repr.least
  nr := h.nr
  warned := h.warned

/-- At boot nothing is queued, and the cache says so. -/
theorem Cached.init (base : System) (hprio : ∀ p, (base.task p).rtPriority ≤ 99) :
    Cached (initGroup base) ∅ := by
  have hinv := GroupInv.init base hprio
  have hnone : ∀ se, levelOf base ∅ se = none := by
    intro se
    cases se with
    | group g => rfl
    | task p => rfl
  refine ⟨hinv, fun p => ?_, ⟨fun se i hse => ?_, .inr ⟨rfl, hnone⟩⟩, rfl, rfl⟩
  · rw [hinv.onWrrRq_iff]
    refine iff_of_false ?_ (Finset.notMem_empty p)
    rintro ⟨i, hi⟩
    cases hi
  · rw [show levelOf (initGroup base).base ∅ se = none from hnone se] at hse
    cases hse

/-- The cache depends on the root queue and on the priorities, whatever else happens to groups and
tasks. -/
theorem Cached.of_root (h : Cached s queued) (hinv : GroupInv t)
    (hroot : t.wrr .root = s.wrr .root) (hwarned : t.warned = s.warned)
    (hprio : ∀ p ∈ queued, (t.base.task p).rtPriority = (s.base.task p).rtPriority) :
    Cached t queued := by
  refine ⟨hinv, fun p => ?_, ?_, by rw [hroot]; exact h.nr, hwarned.trans h.warned⟩
  · rw [← h.on, hinv.onWrrRq_iff, h.group.onWrrRq_iff, hroot]
  · rw [levelOf_congr hprio, hroot]
    exact h.highest

/-- **Step lemma**: every operation keeps the cache right. -/
theorem track_cached {r : Tracked} (h : Cached r.sys r.queued) (cfg : Config)
    (stray : Gid → Nat) {op : RqOp} (hop : op.Pre r.sys) :
    Cached (track cfg stray r op).sys (track cfg stray r op).queued := by
  cases op with
  | group op =>
    have hinv : GroupInv (gexec stray r.sys op) := h.group.gexec stray hop
    cases op with
    | enqueue p flags => exact h.enqueueTaskWrr stray p flags
    | dequeue p => exact h.dequeueTaskWrr stray p
    | createGroup parent => exact h.of_root hinv (createGroup_root r.sys parent) rfl fun _ _ => rfl
    | setTaskRq p group => exact h.of_root hinv rfl rfl fun _ _ => rfl
    | setPrio p prio =>
      refine h.of_root hinv rfl rfl fun q hq => ?_
      have hne : q ≠ p := by
        rintro rfl
        exact absurd ((h.on q).mpr hq) (Bool.eq_false_iff.mp hop.1)
      show (Function.update r.sys.base.task p _ q).rtPriority = _
      rw [Function.update_of_ne hne]
  | yield => exact h.requeueTaskWrr stray _ false
  | tick p => exact h.taskTickWrr cfg stray p
  | switch p => exact h.of_base fun _ => rfl

/-- **The cached highest priority**: in every reachable state it is the least priority of the
queued tasks and the first set bit, the counter is their number, and no `WARN_ON` has
fired. -/
theorem highestPrio_reach {base : System} {r : Tracked}
    (hprio : ∀ p, (base.task p).rtPriority ≤ 99)
    (h : Reach Tracked.Pre (track cfg stray) ⟨initGroup base, ∅⟩ r) :
    CacheOk r := by
  have hrun : Cached r.sys r.queued :=
    h.invariant (I := fun r => Cached (Tracked.sys r) (Tracked.queued r))
      (fun _ _ hr hop => track_cached hr cfg stray hop) (Cached.init base hprio)
  exact hrun.cacheOk

/-- A task of a better priority is queued at the head, ticks, and is dequeued again. -/
theorem highestPrio_reach_boot :
    let r := ([.group (.enqueue 1 0), .group (.setPrio 5 10), .group (.enqueue 5 enqueueHeadFlag),
      .tick 5, .yield, .group (.dequeue 5)] : List RqOp).foldl
        (track (upConfig .basic) fun _ => 0) ⟨groupSystem, ∅⟩
    CacheOk r ∧ (r.sys.wrr .root).highestPrio = 50 := by
  intro r
  have hfirst : Tracked.Pre ⟨groupSystem, ∅⟩ (.group (.enqueue 1 0)) := trivial
  have hrun : Reach Tracked.Pre (track (upConfig .basic) fun _ => 0) ⟨groupSystem, ∅⟩ r := by
    refine Reach.tail ?_ trivial
    refine Reach.tail ?_ trivial
    refine Reach.tail ?_ trivial
    refine Reach.tail ?_ trivial
    refine Reach.tail (Reach.single hfirst) ?_
    exact ⟨by decide +kernel, by decide⟩
  exact ⟨highestPrio_reach groupSystem_prio hrun, by decide +kernel⟩

end LinuxWrr.Group
