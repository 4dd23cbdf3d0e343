import LinuxWrr.Sched.WrrBasic

/-!
# The group-scheduling WRR class (`wrr_group.c`)

With `CONFIG_WRR_GROUP_SCHED` the entities in a WRR run queue are tasks and groups. Every
created group has an entity and a run queue of its own (`my_q`); a task's entity points to
the entity of its group (`parent`), and a group's entity to that of the parent group. The
root group has no entity, and its run queue is `rq->wrr`.

The class runs on one cpu, cpu 0: `task_cpu` is the constant 0 there.

- `Entity`, `RqId`: the entities and the run queues.
- `GroupSystem`: the flat scheduler state, with WRR run queues of entities.
- `enqueueTaskWrr`, `dequeueTaskWrr`: both tear down the chain of ancestors top-down and
  build it up again bottom-up.
- `requeueTaskWrr`, `taskTickWrr`: yields and ticks move the whole chain to the ends of its
  lists.
- `pickNext`: the descent from `rq->wrr` through `my_q`.
-/

namespace LinuxWrr.Group

/-- Created groups, numbered in order of their creation. -/
abbrev Gid := Nat

/-- `sched_wrr_entity`: that of a task, or `tg->wrr_se[0]` of a created group. -/
inductive Entity where
  | task (p : Pid)
  | group (g : Gid)
  deriving DecidableEq, Repr

/-- `rq->wrr`, or `tg->wrr_rq[0]` of a created group. -/
inductive RqId where
  | root
  | group (g : Gid)
  deriving DecidableEq, Repr

/-- `wrr_rq`. -/
structure GroupRq where
  active : PrioArray Entity
  wrrNrRunning : Int
  /-- `highest_prio.curr`. -/
  highestPrio : Nat
  onLeafList : Bool

/-- What a group's entity holds besides its links and `my_q`. -/
structure GroupEntity where
  parent : Option Gid
  timeSlice : Nat
  deriving DecidableEq, Repr

/-- The tasks, the run queue of cpu 0 and the path buffer are those of the flat classes. -/
structure GroupSystem where
  base : System
  wrr : RqId → GroupRq
  group : Gid → GroupEntity
  /-- `p->wrr.parent`. -/
  parent : Pid → Option Gid
  /-- How many groups have been created. -/
  groups : Nat
  /-- A `WARN_ON` has fired. -/
  warned : Bool

variable (s : GroupSystem)

/-! ## Entities -/

/-- `wrr_se->parent`. -/
def GroupSystem.parentOf : Entity → Option Gid
  | .task p => s.parent p
  | .group g => (s.group g).parent

/-- `group_wrr_rq`: a task's `my_q` is NULL. -/
def groupWrrRq : Entity → Option RqId
  | .task _ => none
  | .group g => some (.group g)

/-- `wrr_rq_of_se`: `task_rq` of the uninitialised `rq`, which is `cpu_rq(0)` whatever
`rq` is. -/
def wrrRqOfSe (_se : Entity) : RqId := .root

/-- `wrr_se_prio`; `stray g` is what `container_of` finds beside the entity of group `g`,
which is not part of a task. -/
def GroupSystem.wrrSePrio (stray : Gid → Nat) : Entity → Nat
  | .task p => (s.base.task p).rtPriority
  | .group g => stray g

/-- The groups that `for_each_sched_wrr_entity` comes to from `g` on, at most `n` of them. -/
def chainFrom (parent : Gid → Option Gid) : Nat → Option Gid → List Entity
  | 0, _ => []
  | _ + 1, none => []
  | n + 1, some g => .group g :: chainFrom parent n (parent g)

/-- `for_each_sched_wrr_entity`. -/
def GroupSystem.chain (se : Entity) : List Entity :=
  se :: chainFrom (fun g => (s.group g).parent) s.groups (s.parentOf se)

/-- The run queues there are. -/
def GroupSystem.rqIds : List RqId := .root :: (List.range s.groups).map .group

/-- `on_wrr_rq`. -/
def GroupSystem.onWrrRq (se : Entity) : Bool :=
  s.rqIds.any fun r => (s.wrr r).active.linked maxWrrPrio se

/-! ## One entity -/

def GroupSystem.setWrr (r : RqId) (w : GroupRq) : GroupSystem :=
  { s with wrr := Function.update s.wrr r w }

/-- The queue just written is the queue read. -/
theorem GroupSystem.setWrr_self (r : RqId) (w : GroupRq) : (s.setWrr r w).wrr r = w := by
  show Function.update s.wrr r w r = w
  rw [Function.update_self]

/-- Writing the root queue leaves those of the groups alone. -/
theorem GroupSystem.setWrr_group (w : GroupRq) (g : Gid) :
    (s.setWrr .root w).wrr (.group g) = s.wrr (.group g) := by
  have hne : RqId.group g ≠ RqId.root := fun h => nomatch h
  show Function.update s.wrr .root w (.group g) = _
  rw [Function.update_of_ne hne]

/-- `list_del_init(&wrr_se->run_list)`, from whichever list holds it. -/
def GroupSystem.unlink (se : Entity) : GroupSystem :=
  { s with wrr := fun r => { s.wrr r with active := (s.wrr r).active.listDelInit se } }

/-- `inc_wrr_tasks` with `inc_wrr_prio`. -/
def incWrrTasks (w : GroupRq) (prio : Nat) : GroupRq :=
  { w with
    wrrNrRunning := w.wrrNrRunning + 1
    highestPrio := if prio < w.highestPrio then prio else w.highestPrio }

/-- `dec_wrr_prio`: the run queue, and whether it warned. -/
def decWrrPrio (w : GroupRq) (prio : Nat) : GroupRq × Bool :=
  if w.wrrNrRunning ≠ 0 then
    (if prio = w.highestPrio then { w with highestPrio := w.active.findFirstBit maxWrrPrio } else w,
      decide (prio < w.highestPrio))
  else ({ w with highestPrio := maxWrrPrio }, false)

/-- `dec_wrr_tasks`. -/
def decWrrTasks (w : GroupRq) (prio : Nat) : GroupRq × Bool :=
  let warned := decide (w.wrrNrRunning = 0)
  let d := decWrrPrio { w with wrrNrRunning := w.wrrNrRunning - 1 } prio
  (d.1, warned || d.2)

/-- `__dequeue_wrr_entity`. -/
def dequeueEntity (stray : Gid → Nat) (s : GroupSystem) (se : Entity) : GroupSystem :=
  let r := wrrRqOfSe se
  let prio := s.wrrSePrio stray se
  let s := s.unlink se
  let w := s.wrr r
  let array := if (w.active.queue prio).isEmpty then w.active.clearBit prio else w.active
  let d := decWrrTasks { w with active := array } prio
  let w := d.1
  let w := if w.wrrNrRunning = 0 then { w with onLeafList := false } else w
  { s.setWrr r w with warned := s.warned || d.2 }

/-- `__enqueue_wrr_entity`. -/
def enqueueEntity (stray : Gid → Nat) (head : Bool) (s : GroupSystem) (se : Entity) :
    GroupSystem :=
  let r := wrrRqOfSe se
  let prio := s.wrrSePrio stray se
  let w := s.wrr r
  -- "if (group_rq && !group_rq->wrr_nr_running) return"
  if (groupWrrRq se).any fun r => (s.wrr r).wrrNrRunning = 0 then s
  else
    let leaf := if w.wrrNrRunning = 0 then true else w.onLeafList
    let array := (w.active.listAddAt head se prio).setBit prio
    s.setWrr r (incWrrTasks { w with active := array, onLeafList := leaf } prio)

/-! ## The class -/

/-- `dequeue_wrr_stack`: the queued ones of the chain, top-down. -/
def dequeueStack (stray : Gid → Nat) (s : GroupSystem) (se : Entity) : GroupSystem :=
  (s.chain se).reverse.foldl
    (fun s se => if s.onWrrRq se then dequeueEntity stray s se else s) s

/-- `dequeue_wrr_entity`. -/
def dequeueWrrEntity (stray : Gid → Nat) (s : GroupSystem) (se : Entity) : GroupSystem :=
  (s.chain se).foldl
    (fun s se =>
      if (groupWrrRq se).any fun r => (s.wrr r).wrrNrRunning ≠ 0
        then enqueueEntity stray false s se else s)
    (dequeueStack stray s se)

/-- `enqueue_wrr_entity`. -/
def enqueueWrrEntity (stray : Gid → Nat) (s : GroupSystem) (se : Entity) (head : Bool) :
    GroupSystem :=
  (s.chain se).foldl (enqueueEntity stray head) (dequeueStack stray s se)

/-- `enqueue_task_wrr`. -/
def enqueueTaskWrr (stray : Gid → Nat) (s : GroupSystem) (p : Pid) (flags : Nat) : GroupSystem :=
  let s := enqueueWrrEntity stray s (.task p) (enqueueHead flags)
  { s with base := s.base.incNrRunning 0 }

/-- `dequeue_task_wrr`. -/
def dequeueTaskWrr (stray : Gid → Nat) (s : GroupSystem) (p : Pid) : GroupSystem :=
  let s := { s with base := updateCurrWrr s.base 0 }
  let s := dequeueWrrEntity stray s (.task p)
  { s with base := s.base.decNrRunning 0 }

/-- `requeue_wrr_entity`: `list_move` or `list_move_tail`, if the entity is queued. -/
def requeueEntity (stray : Gid → Nat) (head : Bool) (s : GroupSystem) (se : Entity) :
    GroupSystem :=
  if s.onWrrRq se then
    let r := wrrRqOfSe se
    let queue := s.wrrSePrio stray se
    let s := s.unlink se
    s.setWrr r { s.wrr r with active := (s.wrr r).active.listAddAt head se queue }
  else s

/-- `requeue_task_wrr`. -/
def requeueTaskWrr (stray : Gid → Nat) (s : GroupSystem) (p : Pid) (head : Bool) : GroupSystem :=
  (s.chain (.task p)).foldl (requeueEntity stray head) s

/-- `yield_task_wrr`. -/
def yieldTaskWrr (stray : Gid → Nat) (s : GroupSystem) : GroupSystem :=
  requeueTaskWrr stray s (s.base.rq 0).curr false

/-- `wrr_se->run_list.prev != wrr_se->run_list.next`, in whichever list holds the entity. -/
def GroupSystem.notAlone (se : Entity) : Bool :=
  s.rqIds.any fun r => (List.range maxWrrPrio).any fun i => (s.wrr r).active.notAlone se i

/-- `task_tick_wrr` once the slice is used up: requeue unless the task and all its ancestors
are alone in their queues. -/
def sliceExpired (cfg : Config) (stray : Gid → Nat) (s : GroupSystem) (p : Pid) : GroupSystem :=
  let s := { s with base := Basic.refillSlice cfg s.base p }
  if (s.chain (.task p)).any s.notAlone then
    let s := requeueTaskWrr stray s p false
    { s with base := s.base.setTskNeedResched p }
  else s

/-- `task_tick_wrr`; the slices are those of the basic class. -/
def taskTickWrr (cfg : Config) (stray : Gid → Nat) (s : GroupSystem) (p : Pid) : GroupSystem :=
  let s := { s with base := updateCurrWrr s.base 0 }
  if (s.base.task p).policy ≠ .wrr then s
  else
    let ts := decU32 (s.base.task p).timeSlice
    let s := { s with base := s.base.updTask p fun t => { t with timeSlice := ts } }
    if ts ≠ 0 then s else sliceExpired cfg stray s p

/-- `pick_next_wrr_entity`; an empty list would make `list_entry` return the list head. -/
def pickNextEntity (r : RqId) : Option Entity :=
  let array := (s.wrr r).active
  (array.queue (array.findFirstBit maxWrrPrio)).head?

/-- The loop of `_pick_next_task_wrr`, at most `n` times. -/
def descend : Nat → RqId → Option Pid
  | 0, _ => none
  | n + 1, r =>
    match pickNextEntity s r with
    | none => none
    | some (.task p) => some p
    | some (.group g) => descend n (.group g)

/-- `_pick_next_task_wrr`. -/
def pickNext (s : GroupSystem) : Option Pid :=
  if (s.wrr .root).wrrNrRunning = 0 then none else descend s (s.groups + 1) .root

/-! ## Groups -/

/-- `init_wrr_rq` on zeroed memory, and `init_tg_wrr_entry`. -/
def initGroupRq : GroupRq where
  active := PrioArray.init maxWrrPrio
  wrrNrRunning := 0
  highestPrio := maxWrrPrio
  onLeafList := false

/-- The WRR part of `sched_create_group`: the new group gets a zeroed entity and run queue,
and `init_tg_wrr_entry` links them under the entity of the parent group. -/
def createGroup (s : GroupSystem) (parent : Option Gid) : GroupSystem :=
  { s with
    wrr := Function.update s.wrr (.group s.groups) initGroupRq
    group := Function.update s.group s.groups { parent := parent, timeSlice := 0 }
    groups := s.groups + 1 }

/-- The WRR part of `set_task_rq`: the task's parent entity is that of its group, NULL for
the root group. -/
def setTaskRq (s : GroupSystem) (p : Pid) (group : Option Gid) : GroupSystem :=
  { s with parent := Function.update s.parent p group }

/-- The WRR state after `sched_init`: there is only the root group, and all tasks are in it. -/
def initGroup (base : System) : GroupSystem where
  base := base
  wrr _ := initGroupRq
  group _ := { parent := none, timeSlice := 0 }
  parent _ := none
  groups := 0
  warned := false

end LinuxWrr.Group
