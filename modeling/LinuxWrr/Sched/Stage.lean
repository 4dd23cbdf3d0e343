import LinuxWrr.Sched.Current
import Mathlib.Order.CompletePartialOrder

/-!
# Stage moves of the random multilevel feedback class

`requeue_task_wrr` of `wrr_RMLFQ.c` compares a random word with two thresholds and takes
one of three branches. Its comment calls it a shortcut for a dequeue followed by an
enqueue.

- `StageMove`, `stageMove`: the three branches, and the one a word selects.
- `Rmlfq.requeueTaskWrr_eq`, `Basic.requeueTaskWrr_eq`: **a requeue is a dequeue, a new
  level and an enqueue**, in both files.
- `stageMove_exact_iff`: when the thresholds, computed in the type of the literal
  `4294967295`, select the branch of exact arithmetic.
- `stay_ssubset`: in 64 bits the words that leave a task in its stage get fewer with
  every stay, and after two stays there are none.
-/

namespace LinuxWrr

/-! ## Relinking a queued task -/

theorem System.setWrr_task (s : System) (c : Cpu) (w : WrrRq) : (s.setWrr c w).task = s.task := rfl

theorem System.setWrr_rq (s : System) (c : Cpu) (w : WrrRq) :
    (s.setWrr c w).rq = Function.update s.rq c { s.rq c with wrr := w } := rfl

/-- The second write of a run queue is the one that counts. -/
theorem System.setWrr_updTask_setWrr (s : System) (c : Cpu) (p : Pid) (w v : WrrRq)
    (f : Task → Task) :
    ((s.setWrr c w).updTask p f).setWrr c v = (s.setWrr c v).updTask p f := by
  simp only [System.setWrr, System.updRq, System.setRq, System.updTask, System.setTask,
    Function.update_self, Function.update_idem]

theorem System.updTask_congr {s : System} {p : Pid} {f g : Task → Task}
    (h : f (s.task p) = g (s.task p)) : s.updTask p f = s.updTask p g := by
  unfold System.updTask
  rw [h]

namespace WrrCommon

variable {sePrio : Task → Nat} {s : System} {c : Cpu} {p : Pid} {lvl : Pid → Option Nat}

/-- `dequeue_wrr_entity`, a change of the task, `enqueue_wrr_entity`. -/
def requeueByQueueing (sePrio : Task → Nat) (s : System) (p : Pid) (head : Bool)
    (relabel : Task → Task) : System :=
  enqueueWrrEntity sePrio ((dequeueWrrEntity sePrio s p).updTask p relabel) p head

/-- Requeueing through the queue operations rewrites its task and no other. -/
theorem requeueByQueueing_task (sePrio : Task → Nat) (s : System) (p : Pid) (head : Bool)
    (relabel : Task → Task) : (requeueByQueueing sePrio s p head relabel).task =
      Function.update s.task p (relabel (s.task p)) := rfl

/-- The queue operations see the task that is written only. -/
theorem requeueByQueueing_congr {head : Bool} {f g : Task → Task}
    (h : f (s.task p) = g (s.task p)) :
    requeueByQueueing sePrio s p head f = requeueByQueueing sePrio s p head g := by
  have hset : (dequeueWrrEntity sePrio s p).updTask p f = (dequeueWrrEntity sePrio s p).updTask p g :=
    System.updTask_congr h
  unfold requeueByQueueing
  rw [hset]

/-- The counter and the leaf list are as before: the queue that was emptied is filled
again. -/
theorem requeueByQueueing_eq (hrep : WrrRep lvl (s.rq c).wrr)
    (hp : lvl p = some (sePrio (s.task p))) (hc : (s.task p).cpu = c) (head : Bool)
    {relabel : Task → Task} (hcpu : (relabel (s.task p)).cpu = c) :
    requeueByQueueing sePrio s p head relabel =
      (s.setActive c ((((s.rq c).wrr.active.unlink p (sePrio (s.task p))).listAddAt head p
        (sePrio (relabel (s.task p)))).setBit (sePrio (relabel (s.task p))))).updTask p relabel := by
  have hsize := hrep.active.size_dequeue hp
  have hnr := hrep.nr
  have hleaf : (s.rq c).wrr.onLeafList = true := hrep.leaf.mpr (by omega)
  -- the counter goes down and up, and so does the leaf list
  have hone : (if (s.rq c).wrr.wrrNrRunning - 1 = 0 then true else
      if (s.rq c).wrr.wrrNrRunning - 1 = 0 then false else (s.rq c).wrr.onLeafList) =
        (s.rq c).wrr.onLeafList := by
    rw [hleaf]
    split <;> rfl
  have hdeq : dequeueWrrEntity sePrio s p = s.setWrr c
      { active := (s.rq c).wrr.active.unlink p (sePrio (s.task p))
        wrrNrRunning := (s.rq c).wrr.wrrNrRunning - 1
        onLeafList :=
          if (s.rq c).wrr.wrrNrRunning - 1 = 0 then false else (s.rq c).wrr.onLeafList } := by
    rw [← hc]
    rfl
  have hself : Function.update s.task p (relabel (s.task p)) p = relabel (s.task p) :=
    Function.update_self p _ s.task
  unfold requeueByQueueing enqueueWrrEntity
  rw [hdeq]
  simp only [System.updTask_task, System.updTask_rq, System.setWrr_task, System.setWrr_rq,
    hself, hcpu, Function.update_self, Int.sub_add_cancel, hone, System.setWrr_updTask_setWrr]
  rfl

end WrrCommon

/-! ## The three branches -/

/-- The branches of `requeue_task_wrr`: to the low stage, to the high stage, or neither. -/
inductive StageMove where
  | down
  | up
  | stay
  deriving DecidableEq, Repr

namespace StageMove

/-- The index a task at `prio` is queued at afterwards; at the edge stages there is nowhere
to go. -/
def level (prio : Nat) : StageMove → Nat
  | .down => if prio > 9 then prio - 10 else prio
  | .up => if prio < 90 then prio + 10 else prio
  | .stay => prio

/-- `p->times` afterwards. -/
def times (n : Nat) : StageMove → Nat
  | .down | .up => 1
  | .stay => (n + 1) % 2 ^ 32

/-- What a branch writes to the task. -/
def relabel (m : StageMove) (t : Task) : Task :=
  { t with
    rtPriority := 99 - m.level (Rmlfq.wrrTaskPrio t)
    times := m.times t.times }

theorem level_le {prio : Nat} (h : prio ≤ 99) (m : StageMove) : m.level prio ≤ 99 := by
  cases m with
  | down =>
    show (if prio > 9 then prio - 10 else prio) ≤ 99
    split <;> omega
  | up =>
    show (if prio < 90 then prio + 10 else prio) ≤ 99
    split <;> omega
  | stay => exact h

@[simp] theorem relabel_times (m : StageMove) (t : Task) :
    (m.relabel t).times = m.times t.times := rfl

@[simp] theorem relabel_timeSlice (m : StageMove) (t : Task) :
    (m.relabel t).timeSlice = t.timeSlice := rfl

/-- A relabelled task has the level and the counter of the move. -/
theorem relabel_of {m : StageMove} {t : Task} {rtPriority times : Nat}
    (hrtp : 99 - m.level (Rmlfq.wrrTaskPrio t) = rtPriority) (htimes : m.times t.times = times) :
    m.relabel t = { t with rtPriority := rtPriority, times := times } := by
  rw [relabel, hrtp, htimes]

/-- The list of a relabelled task is the level it moved to. -/
theorem wrrSePrio_relabel (m : StageMove) (t : Task) :
    Rmlfq.wrrSePrio (m.relabel t) = m.level (Rmlfq.wrrTaskPrio t) := by
  have hle := level_le (Nat.sub_le 99 t.rtPriority) m
  show 99 - (99 - m.level (Rmlfq.wrrTaskPrio t)) = m.level (Rmlfq.wrrTaskPrio t)
  unfold Rmlfq.wrrTaskPrio
  omega

end StageMove

variable {cfg : Config} {s : System} {c : Cpu} {p : Pid} {lvl : Pid → Option Nat}

/-- Down below `lo`, else up above `hi`. -/
def StageMove.of (lo hi r : Nat) : StageMove :=
  if r < lo then .down else if r > hi then .up else .stay

section Of

variable {lo hi r : Nat}

/-- A word below the first threshold moves the task down. -/
theorem StageMove.of_eq_down : of lo hi r = .down ↔ r < lo := by
  by_cases hdown : r < lo <;> by_cases hup : r > hi <;> simp [of, hdown, hup]

/-- A word above both thresholds moves the task up. -/
theorem StageMove.of_eq_up : of lo hi r = .up ↔ ¬r < lo ∧ r > hi := by
  by_cases hdown : r < lo <;> by_cases hup : r > hi <;> simp [of, hdown, hup]

/-- A word between the thresholds leaves the task where it is. -/
theorem StageMove.of_eq_stay : of lo hi r = .stay ↔ ¬r < lo ∧ ¬r > hi := by
  by_cases hdown : r < lo <;> by_cases hup : r > hi <;> simp [of, hdown, hup]

end Of

/-- The branch that the word `r` selects. -/
def stageMove (cfg : Config) (times prio r : Nat) : StageMove :=
  .of (Rmlfq.downThreshold cfg times prio) (Rmlfq.upThreshold cfg times prio) r

/-- The branch taken for the task `t`. -/
def Task.stageMove (cfg : Config) (t : Task) (rand : UInt32) : StageMove :=
  LinuxWrr.stageMove cfg t.times (Rmlfq.wrrTaskPrio t) rand.toNat

namespace Rmlfq

/-- Within the range a stage change moves the list node and counts. -/
theorem changeStage_true (s : System) (c : Cpu) (p : Pid) (head : Bool)
    (prio stage rtPriority : Nat) : changeStage s c p head prio stage true rtPriority =
      (s.setActive c ((s.rq c).wrr.active.moveTo head p prio stage)).updTask p fun t =>
        { t with times := 1, rtPriority := rtPriority } := rfl

/-- At an end a stage change relinks the node in the list at the end. -/
theorem changeStage_false (s : System) (c : Cpu) (p : Pid) (head : Bool)
    (prio stage rtPriority : Nat) : changeStage s c p head prio stage false rtPriority =
      (s.setActive c (((s.rq c).wrr.active.listDelInit p).listAddAt head p stage)).updTask p
        fun t => { t with times := 1 } := rfl

/-- One of the moving branches, inside the range of stages. -/
theorem changeStage_inside (hrep : WrrRep lvl (s.rq c).wrr)
    (hp : lvl p = some (wrrSePrio (s.task p))) (hc : (s.task p).cpu = c) (head : Bool)
    (m : StageMove) (hne : wrrTaskPrio (s.task p) ≠ m.level (wrrTaskPrio (s.task p)))
    (htimes : m.times (s.task p).times = 1) {rtPriority : Nat}
    (hrtp : rtPriority = 99 - m.level (wrrTaskPrio (s.task p))) :
    changeStage s c p head (wrrTaskPrio (s.task p)) (m.level (wrrTaskPrio (s.task p))) true
        rtPriority =
      WrrCommon.requeueByQueueing wrrSePrio s p head m.relabel := by
  rw [WrrCommon.requeueByQueueing_eq hrep hp hc head hc, m.wrrSePrio_relabel, changeStage_true,
    PrioArray.moveTo_eq head p hne]
  refine System.updTask_congr ?_
  unfold StageMove.relabel
  rw [System.setActive_task, htimes, hrtp]

/-- The stay branch and the edges, where the task is linked again in its own list. -/
theorem rotate_eq (hrep : WrrRep lvl (s.rq c).wrr)
    (hp : lvl p = some (wrrSePrio (s.task p))) (hc : (s.task p).cpu = c)
    (hle : (s.task p).rtPriority ≤ 99) (head : Bool) (m : StageMove)
    (hlevel : m.level (wrrTaskPrio (s.task p)) = wrrTaskPrio (s.task p)) {f : Task → Task}
    (hf : f (s.task p) = { s.task p with times := m.times (s.task p).times }) :
    (s.setActive c (((s.rq c).wrr.active.listDelInit p).listAddAt head p
        (wrrTaskPrio (s.task p)))).updTask p f =
      WrrCommon.requeueByQueueing wrrSePrio s p head m.relabel := by
  rw [WrrCommon.requeueByQueueing_eq hrep hp hc head hc, m.wrrSePrio_relabel, hlevel]
  have hrelink := hrep.active.relink hp head
  rw [show wrrSePrio (s.task p) = wrrTaskPrio (s.task p) from rfl] at hrelink ⊢
  rw [hrelink]
  refine System.updTask_congr ?_
  have hrtp : 99 - wrrTaskPrio (s.task p) = (s.task p).rtPriority := by
    unfold wrrTaskPrio
    omega
  unfold StageMove.relabel
  rw [System.setActive_task, hf, hlevel, hrtp]

/-- Below the first threshold the code takes the branch to the low stage. -/
theorem requeueTaskWrr_down {head : Bool} {rand : UInt32}
    (hm : (s.task p).stageMove cfg rand = .down) : requeueTaskWrr cfg s c p head rand =
      changeStage s c p head (wrrTaskPrio (s.task p))
        (StageMove.down.level (wrrTaskPrio (s.task p))) (decide (wrrTaskPrio (s.task p) > 9))
        ((s.task p).rtPriority + 10) := by
  have hdown := StageMove.of_eq_down.mp hm
  simp only [requeueTaskWrr, if_pos hdown, StageMove.level]

/-- Above both thresholds the code takes the branch to the high stage. -/
theorem requeueTaskWrr_up {head : Bool} {rand : UInt32}
    (hm : (s.task p).stageMove cfg rand = .up) : requeueTaskWrr cfg s c p head rand =
      changeStage s c p head (wrrTaskPrio (s.task p))
        (StageMove.up.level (wrrTaskPrio (s.task p))) (decide (wrrTaskPrio (s.task p) < 90))
        ((s.task p).rtPriority - 10) := by
  obtain ⟨hdown, hup⟩ := StageMove.of_eq_up.mp hm
  simp only [requeueTaskWrr, if_neg hdown, if_pos hup, StageMove.level]

/-- Otherwise the code takes the branch that stays. -/
theorem requeueTaskWrr_stay {head : Bool} {rand : UInt32}
    (hm : (s.task p).stageMove cfg rand = .stay) : requeueTaskWrr cfg s c p head rand =
      (s.setActive c (((s.rq c).wrr.active.listDelInit p).listAddAt head p
        (wrrTaskPrio (s.task p)))).updTask p fun t =>
          { t with times := StageMove.stay.times t.times } := by
  obtain ⟨hdown, hup⟩ := StageMove.of_eq_stay.mp hm
  simp only [requeueTaskWrr, if_neg hdown, if_neg hup, StageMove.times]

/-- **A requeue is a dequeue, a new level and an enqueue.** -/
theorem requeueTaskWrr_eq (hrep : WrrRep lvl (s.rq c).wrr)
    (hp : lvl p = some (wrrSePrio (s.task p))) (hc : (s.task p).cpu = c)
    (hle : (s.task p).rtPriority ≤ 99) (head : Bool) (rand : UInt32) :
    requeueTaskWrr cfg s c p head rand =
      WrrCommon.requeueByQueueing wrrSePrio s p head ((s.task p).stageMove cfg rand).relabel := by
  have hprio : wrrTaskPrio (s.task p) = 99 - (s.task p).rtPriority := rfl
  cases hm : (s.task p).stageMove cfg rand with
  | down =>
    rw [requeueTaskWrr_down hm]
    by_cases hin : wrrTaskPrio (s.task p) > 9
    · have hlevel : StageMove.down.level (wrrTaskPrio (s.task p)) =
          wrrTaskPrio (s.task p) - 10 := if_pos hin
      rw [decide_eq_true hin]
      exact changeStage_inside hrep hp hc head .down (by omega) rfl (by omega)
    · have hlevel : StageMove.down.level (wrrTaskPrio (s.task p)) = wrrTaskPrio (s.task p) :=
        if_neg hin
      rw [decide_eq_false hin, changeStage_false, hlevel]
      exact rotate_eq hrep hp hc hle head .down hlevel rfl
  | up =>
    rw [requeueTaskWrr_up hm]
    by_cases hin : wrrTaskPrio (s.task p) < 90
    · have hlevel : StageMove.up.level (wrrTaskPrio (s.task p)) =
          wrrTaskPrio (s.task p) + 10 := if_pos hin
      rw [decide_eq_true hin]
      exact changeStage_inside hrep hp hc head .up (by omega) rfl (by omega)
    · have hlevel : StageMove.up.level (wrrTaskPrio (s.task p)) = wrrTaskPrio (s.task p) :=
        if_neg hin
      rw [decide_eq_false hin, changeStage_false, hlevel]
      exact rotate_eq hrep hp hc hle head .up hlevel rfl
  | stay =>
    rw [requeueTaskWrr_stay hm]
    exact rotate_eq hrep hp hc hle head .stay rfl rfl

/-- A requeue writes the branch's level and counter, whatever is queued. -/
theorem requeueTaskWrr_task (s : System) (c : Cpu) {p : Pid} (hle : (s.task p).rtPriority ≤ 99)
    (head : Bool) (rand : UInt32) : (requeueTaskWrr cfg s c p head rand).task =
      Function.update s.task p (((s.task p).stageMove cfg rand).relabel (s.task p)) := by
  have hprio : wrrTaskPrio (s.task p) = 99 - (s.task p).rtPriority := rfl
  cases hm : (s.task p).stageMove cfg rand with
  | down =>
    rw [requeueTaskWrr_down hm]
    by_cases hin : wrrTaskPrio (s.task p) > 9
    · have hlevel : StageMove.down.level (wrrTaskPrio (s.task p)) =
          wrrTaskPrio (s.task p) - 10 := if_pos hin
      have hrtp : 99 - StageMove.down.level (wrrTaskPrio (s.task p)) =
          (s.task p).rtPriority + 10 := by omega
      rw [decide_eq_true hin, changeStage_true, StageMove.relabel_of hrtp rfl]
      rfl
    · have hlevel : StageMove.down.level (wrrTaskPrio (s.task p)) = wrrTaskPrio (s.task p) :=
        if_neg hin
      have hrtp : 99 - StageMove.down.level (wrrTaskPrio (s.task p)) = (s.task p).rtPriority := by
        omega
      rw [decide_eq_false hin, changeStage_false, StageMove.relabel_of hrtp rfl]
      rfl
  | up =>
    rw [requeueTaskWrr_up hm]
    by_cases hin : wrrTaskPrio (s.task p) < 90
    · have hlevel : StageMove.up.level (wrrTaskPrio (s.task p)) =
          wrrTaskPrio (s.task p) + 10 := if_pos hin
      have hrtp : 99 - StageMove.up.level (wrrTaskPrio (s.task p)) =
          (s.task p).rtPriority - 10 := by omega
      rw [decide_eq_true hin, changeStage_true, StageMove.relabel_of hrtp rfl]
      rfl
    · have hlevel : StageMove.up.level (wrrTaskPrio (s.task p)) = wrrTaskPrio (s.task p) :=
        if_neg hin
      have hrtp : 99 - StageMove.up.level (wrrTaskPrio (s.task p)) = (s.task p).rtPriority := by
        omega
      rw [decide_eq_false hin, changeStage_false, StageMove.relabel_of hrtp rfl]
      rfl
  | stay =>
    have hrtp : 99 - StageMove.stay.level (wrrTaskPrio (s.task p)) = (s.task p).rtPriority := by
      show 99 - wrrTaskPrio (s.task p) = _
      omega
    rw [requeueTaskWrr_stay hm, StageMove.relabel_of hrtp rfl]
    rfl

end Rmlfq

namespace Basic

/-- The basic class keeps the level. -/
theorem requeueTaskWrr_eq (hrep : WrrRep lvl (s.rq c).wrr)
    (hp : lvl p = some (wrrSePrio (s.task p))) (hc : (s.task p).cpu = c) (head : Bool) :
    requeueTaskWrr s c p head = WrrCommon.requeueByQueueing wrrSePrio s p head id := by
  rw [WrrCommon.requeueByQueueing_eq hrep hp hc head hc]
  show s.setActive c _ = System.updTask (s.setActive c _) p id
  rw [show wrrSePrio (id (s.task p)) = wrrSePrio (s.task p) from rfl, hrep.active.relink hp head]
  exact congrArg (System.mk · _ _ _ _) (Function.update_eq_self p s.task).symm

end Basic

/-- What the `requeue_task_wrr` of the file that is built writes to the task. -/
def requeueLabel (cfg : Config) (rand : UInt32) (t : Task) : Task :=
  match cfg.wrr with
  | .basic => t
  | .rmlfq => (t.stageMove cfg rand).relabel t

/-- **A requeue is a dequeue, a new level and an enqueue**, in both files. The basic class
keeps the level and writes no task. -/
theorem requeue_eq_queueing (hrep : WrrRep lvl (s.rq c).wrr)
    (hp : lvl p = some (wrrLevel cfg (s.task p))) (hc : (s.task p).cpu = c)
    (hle : (s.task p).rtPriority ≤ 99) (head : Bool) (rand : UInt32) :
    requeueTaskWrr cfg s c p head rand =
        WrrCommon.requeueByQueueing (wrrLevel cfg) s p head (requeueLabel cfg rand) ∧
      ((requeueTaskWrr cfg s c p head rand).task p).rtPriority ≤ 99 ∧
      (cfg.wrr = .rmlfq →
        wrrLevel cfg ((requeueTaskWrr cfg s c p head rand).task p) =
            ((s.task p).stageMove cfg rand).level (wrrLevel cfg (s.task p)) ∧
          ((requeueTaskWrr cfg s c p head rand).task p).times =
            ((s.task p).stageMove cfg rand).times (s.task p).times) ∧
      ∀ q, q ≠ p → (requeueTaskWrr cfg s c p head rand).task q = s.task q := by
  have heq : requeueTaskWrr cfg s c p head rand =
      WrrCommon.requeueByQueueing (wrrLevel cfg) s p head (requeueLabel cfg rand) := by
    unfold requeueTaskWrr
    cases hcfg : cfg.wrr with
    | basic =>
      have hlevel : wrrLevel cfg = Basic.wrrSePrio := by simp [wrrLevel, hcfg]
      have hlabel : requeueLabel cfg rand (s.task p) = id (s.task p) := by
        simp [requeueLabel, hcfg]
      rw [hlevel] at hp ⊢
      exact (Basic.requeueTaskWrr_eq hrep hp hc head).trans
        (WrrCommon.requeueByQueueing_congr hlabel.symm)
    | rmlfq =>
      have hlevel : wrrLevel cfg = Rmlfq.wrrSePrio := by simp [wrrLevel, hcfg]
      have hlabel : requeueLabel cfg rand (s.task p) =
          ((s.task p).stageMove cfg rand).relabel (s.task p) := by simp [requeueLabel, hcfg]
      rw [hlevel] at hp ⊢
      exact (Rmlfq.requeueTaskWrr_eq hrep hp hc hle head rand).trans
        (WrrCommon.requeueByQueueing_congr hlabel.symm)
  -- one task is written
  have htask : (requeueTaskWrr cfg s c p head rand).task =
      Function.update s.task p (requeueLabel cfg rand (s.task p)) :=
    (congrArg System.task heq).trans (WrrCommon.requeueByQueueing_task _ s p head _)
  refine ⟨heq, ?_, fun hcfg => ?_, fun q hq => ?_⟩
  · rw [htask, Function.update_self]
    unfold requeueLabel
    cases cfg.wrr with
    | basic => exact hle
    | rmlfq => exact Nat.sub_le 99 _
  · have hlabel : requeueLabel cfg rand (s.task p) =
        ((s.task p).stageMove cfg rand).relabel (s.task p) := by
      unfold requeueLabel
      rw [hcfg]
    have hlevel : wrrLevel cfg = Rmlfq.wrrSePrio := by
      unfold wrrLevel
      rw [hcfg]
    rw [htask, Function.update_self, hlabel, hlevel, StageMove.wrrSePrio_relabel]
    exact ⟨rfl, rfl⟩
  · rw [htask, Function.update_of_ne hq]

/-- A system with one queued WRR task, at level 50. -/
def oneQueued (file : WrrFile) : System :=
  exec (upConfig file) (wrrSystem fun _ => 50) (.enqueue 1 0 0)

/-- Three WRR tasks queued at level 49, and two at level 39. -/
def fiveQueued (file : WrrFile) : System :=
  [.enqueue 1 0 0, .enqueue 13 0 0, .enqueue 5 0 0, .enqueue 17 0 0, .enqueue 9 0 0].foldl
    (exec (upConfig file)) (wrrSystem fun p => if p < 13 then 50 else 60)

theorem fiveQueued_inv (file : WrrFile) : Inv (upConfig file) (fiveQueued file) := by
  have hboot := wrrSystem_boot fun p => if p < 13 then 50 else 60
  refine reach_inv (fun _ _ hop => hop) hboot (reach_of_check hboot.inv
    [.enqueue 1 0 0, .enqueue 13 0 0, .enqueue 5 0 0, .enqueue 17 0 0, .enqueue 9 0 0] ?_)
  cases file <;> decide +kernel

/-- The task in the middle of its list moves ten levels, to the tail of a list that is not
empty. -/
theorem requeue_eq_queueing_boot :
    let s := fiveQueued .rmlfq
    let t := requeueTaskWrr (upConfig .rmlfq) s 0 5 false 7
    t = WrrCommon.requeueByQueueing (wrrLevel (upConfig .rmlfq)) s 5 false
        (requeueLabel (upConfig .rmlfq) 7) ∧
      (s.rq 0).wrr.active.queue 49 = [1, 5, 9] ∧ (s.rq 0).wrr.active.queue 39 = [13, 17] ∧
      (t.rq 0).wrr.active.queue 49 = [1, 9] ∧ (t.rq 0).wrr.active.queue 39 = [13, 17, 5] := by
  intro s t
  refine ⟨?_, by decide +kernel, by decide +kernel, by decide +kernel, by decide +kernel⟩
  exact (requeue_eq_queueing ((fiveQueued_inv .rmlfq).rep 0).wrr (by decide +kernel)
    (by decide +kernel) (by decide +kernel) false 7).1

/-! ## The thresholds -/

/-- The thresholds of exact arithmetic. -/
def exactDown (times prio : Nat) : Nat := (times + prio / 20) * (2 ^ 32 - 1) / 10
def exactUp (times prio : Nat) : Nat := (5 - times + prio / 20) * (2 ^ 32 - 1) / 10

/-- The branch of exact arithmetic. -/
def exactMove (times prio r : Nat) : StageMove := .of (exactDown times prio) (exactUp times prio) r

section Thresholds

variable {times prio r : Nat}

/-- Two pairs of thresholds decide alike exactly when the word lies alike to both. -/
theorem StageMove.of_eq_iff {lo hi lo' hi' : Nat} : of lo hi r = of lo' hi' r ↔
    r < lo ∧ r < lo' ∨
      lo ≤ r ∧ lo' ≤ r ∧ (hi < r ∧ hi' < r ∨ r ≤ hi ∧ r ≤ hi') := by
  unfold of
  split_ifs <;> simp <;> omega

/-- The factors of `UNSIGNED_MAX` are small, and `5 - p->times + prio/20` does not
underflow. -/
theorem factors_le (ht : 1 ≤ times ∧ times ≤ 3) (hprio : prio ≤ 99) :
    (times + prio / 20) % 2 ^ 32 = times + prio / 20 ∧
      (5 + (2 ^ 32 - times) + prio / 20) % 2 ^ 32 = 5 - times + prio / 20 ∧
      (1 ≤ times + prio / 20 ∧ times + prio / 20 ≤ 8) ∧
      1 ≤ 5 - times + prio / 20 ∧ 5 - times + prio / 20 ≤ 8 := by
  omega

/-- In 64 bits nothing wraps. -/
theorem thresholds_wide (hw : cfg.longBits = 64) (ht : 1 ≤ times ∧ times ≤ 3)
    (hprio : prio ≤ 99) : Rmlfq.downThreshold cfg times prio = exactDown times prio ∧
      Rmlfq.upThreshold cfg times prio = exactUp times prio := by
  have hwide : ∀ k, 1 ≤ k ∧ k ≤ 8 → k * 4294967295 % 2 ^ 64 = k * (2 ^ 32 - 1) :=
    fun k hk => Nat.mod_eq_of_lt (by omega)
  obtain ⟨hdown, hup, hk, hk'⟩ := factors_le ht hprio
  unfold Rmlfq.downThreshold Rmlfq.upThreshold Rmlfq.unsignedMax exactDown exactUp
  rw [hw, hdown, hup, hwide _ hk, hwide _ hk']
  exact ⟨rfl, rfl⟩

/-- In 32 bits the product with `2 ^ 32 - 1` is a negation, so that every threshold is about
a tenth of the range. -/
theorem thresholds_narrow (hw : cfg.longBits = 32) (ht : 1 ≤ times ∧ times ≤ 3)
    (hprio : prio ≤ 99) :
    Rmlfq.downThreshold cfg times prio = (2 ^ 32 - (times + prio / 20)) / 10 ∧
      Rmlfq.upThreshold cfg times prio = (2 ^ 32 - (5 - times + prio / 20)) / 10 := by
  have hnarrow : ∀ k, 1 ≤ k ∧ k ≤ 8 → k * 4294967295 % 2 ^ 32 = 2 ^ 32 - k := by
    intro k hk
    omega
  obtain ⟨hdown, hup, hk, hk'⟩ := factors_le ht hprio
  unfold Rmlfq.downThreshold Rmlfq.upThreshold Rmlfq.unsignedMax
  rw [hw, hdown, hup, hnarrow _ hk, hnarrow _ hk']
  exact ⟨rfl, rfl⟩

/-- The words that the 32-bit thresholds treat right: the low ones and the high ones, and for
a task that has not stayed in one of the lowest stages the single word in between. -/
def NarrowOk (times prio r : Nat) : Prop :=
  r < (2 ^ 32 - (times + prio / 20)) / 10 ∨
    exactDown times prio ≤ r ∧ exactUp times prio < r ∨
    times + prio / 20 = 1 ∧ r = 429496729

/-- **The code takes the branch of exact arithmetic exactly when the literal has 64 bits or
the word is one of these.** -/
theorem stageMove_exact_iff (hw : cfg.longBits = 32 ∨ cfg.longBits = 64)
    (ht : 1 ≤ times ∧ times ≤ 3) (hprio : prio ≤ 99) (rand : UInt32) :
    stageMove cfg times prio rand.toNat = exactMove times prio rand.toNat ↔
      cfg.longBits = 64 ∨ NarrowOk times prio rand.toNat := by
  unfold stageMove exactMove
  rcases hw with hw | hw
  · obtain ⟨hdown, hup⟩ := thresholds_narrow hw ht hprio
    rw [StageMove.of_eq_iff, hdown, hup, hw]
    unfold NarrowOk exactDown exactUp
    generalize rand.toNat = r
    have hj : prio / 20 ≤ 4 := by omega
    generalize prio / 20 = j at hj
    omega
  · obtain ⟨hdown, hup⟩ := thresholds_wide hw ht hprio
    rw [hdown, hup, hw]
    exact iff_of_true rfl (.inl rfl)

theorem stageMove_exact_boot :
    stageMove (upConfig .rmlfq) 1 49 7 = exactMove 1 49 7 :=
  (stageMove_exact_iff (.inl rfl) (by decide) (by decide) 7).mpr (.inr (.inl (by decide)))

/-- A task in the middle that should go down goes up: three tenths of the range are more
than the word, but the wrapped threshold is one tenth. -/
theorem stageMove_wrapped :
    stageMove (upConfig .rmlfq) 1 49 (500000000 : UInt32).toNat = .up ∧
      exactMove 1 49 (500000000 : UInt32).toNat = .down ∧
      ((oneQueued .rmlfq).task 1).stageMove (upConfig .rmlfq) 500000000 = .up ∧
      ((requeueTaskWrr (upConfig .rmlfq) (oneQueued .rmlfq) 0 1 false 500000000).task 1).rtPriority =
        40 := by
  refine ⟨by decide, by decide, by decide +kernel, by decide +kernel⟩

/-! ### Staying -/

/-- A task stays for the words between the thresholds. -/
theorem stay_iff (hw : cfg.longBits = 64) (ht : 1 ≤ times ∧ times ≤ 3) (hprio : prio ≤ 99) :
    stageMove cfg times prio r = .stay ↔ exactDown times prio ≤ r ∧ r ≤ exactUp times prio := by
  obtain ⟨hdown, hup⟩ := thresholds_wide hw ht hprio
  unfold stageMove
  rw [StageMove.of_eq_stay, hdown, hup, not_lt, not_lt]

/-- After two stays the thresholds have crossed. -/
theorem stay_lt_three (hw : cfg.longBits = 64) (ht : 1 ≤ times ∧ times ≤ 3) (hprio : prio ≤ 99)
    (hstay : stageMove cfg times prio r = .stay) : times < 3 := by
  rw [stay_iff hw ht hprio] at hstay
  unfold exactDown exactUp at hstay
  by_contra hthree
  have heq : times = 3 := by omega
  subst heq
  omega

/-- The longer a task has stayed, the wider are the words that move it. -/
theorem thresholds_mono (prio : Nat) {n m : Nat} (hnm : n ≤ m) :
    exactDown n prio ≤ exactDown m prio ∧ exactUp m prio ≤ exactUp n prio := by
  have hdown : n + prio / 20 ≤ m + prio / 20 := Nat.add_le_add_right hnm _
  have hup : 5 - m + prio / 20 ≤ 5 - n + prio / 20 := by omega
  exact ⟨Nat.div_le_div_right (Nat.mul_le_mul_right _ hdown),
    Nat.div_le_div_right (Nat.mul_le_mul_right _ hup)⟩

/-- **The words that leave a task in its stage get strictly fewer.** -/
theorem stay_ssubset (hw : cfg.longBits = 64) (hprio : prio ≤ 99) {n m : Nat} (hn : 1 ≤ n)
    (hnm : n < m) (hm : m ≤ 3) :
    {rand : UInt32 | stageMove cfg m prio rand.toNat = .stay} ⊂
      {rand : UInt32 | stageMove cfg n prio rand.toNat = .stay} := by
  have hmem : ∀ k, 1 ≤ k → k ≤ 3 → ∀ rand : UInt32,
      rand ∈ {rand : UInt32 | stageMove cfg k prio rand.toNat = .stay} ↔
        exactDown k prio ≤ rand.toNat ∧ rand.toNat ≤ exactUp k prio :=
    fun k hk hk' rand => stay_iff hw ⟨hk, hk'⟩ hprio
  -- the lowest word that stays after `n - 1` stays
  have hlow : (UInt32.ofNat (exactDown n prio)).toNat = exactDown n prio := by
    have hlt : exactDown n prio < 2 ^ 32 := by
      unfold exactDown
      omega
    rw [UInt32.toNat_ofNat', Nat.mod_eq_of_lt hlt]
  refine (Set.ssubset_iff_of_subset fun rand hrand => ?_).mpr
    ⟨UInt32.ofNat (exactDown n prio), ?_, fun hno => ?_⟩
  · obtain ⟨hdown, hup⟩ := (hmem m (by omega) hm rand).mp hrand
    obtain ⟨hdown', hup'⟩ := thresholds_mono prio hnm.le
    exact (hmem n hn (by omega) rand).mpr ⟨hdown'.trans hdown, hup.trans hup'⟩
  · rw [hmem n hn (by omega), hlow]
    unfold exactDown exactUp
    omega
  · rw [hmem m (by omega) hm, hlow] at hno
    unfold exactDown at hno
    omega

/-- The products fit in 63 bits. -/
theorem products_le (ht : 1 ≤ times ∧ times ≤ 3) (hprio : prio ≤ 99) :
    (times + prio / 20) * (2 ^ 32 - 1) ≤ 2 ^ 63 - 1 ∧
      (5 - times + prio / 20) * (2 ^ 32 - 1) ≤ 2 ^ 63 - 1 := by
  omega

end Thresholds

end LinuxWrr
