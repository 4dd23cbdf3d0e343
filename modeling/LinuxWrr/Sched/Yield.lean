import LinuxWrr.Sched.Shares
import LinuxWrr.Sched.Slices

/-!
# Yielding in the random multilevel feedback class

`sched_yield` calls `yield_task_wrr`, which is a requeue and so draws a random word, and
then reschedules.

- `Rmlfq.yieldAndPick`: the hooks that `sched_yield` calls, up to the pick.
- `SharesFirstLevel`: the current task has company at the first non-empty level.
- `yield_gives_way_iff`: **the pick after a yield is another task exactly when the word does
  not move the caller to a lower stage**.
- `schedYield_curr`: so is the task that runs after the system call, when nothing of a
  higher class can run.
-/

namespace LinuxWrr

variable {cfg : Config} {s s₀ t : System} {c : Cpu} {p q : Pid} {i : Nat} {rand : UInt32}
  {o : Outside} {lvl : Pid → Option Nat}

/-- `yield_task_wrr`, and the reschedule's `put_prev_task_wrr` and `pick_next_task_wrr`. -/
def Rmlfq.yieldAndPick (cfg : Config) (s : System) (c : Cpu) (rand : UInt32) :
    Option Pid × System :=
  let prev := (s.rq c).curr
  let s := yieldTaskWrr cfg s c rand
  let s := putPrevTaskWrr s c prev
  pickNextTaskWrr s c

/-- The current task is queued at the first non-empty level, and not alone there. -/
structure SharesFirstLevel (s : System) (c : Cpu) (i : Nat) : Prop where
  lowest : ∀ j < i, (s.rq c).wrr.active.queue j = []
  current : (s.rq c).curr ∈ (s.rq c).wrr.active.queue i
  peer : ∃ q, q ≠ (s.rq c).curr ∧ q ∈ (s.rq c).wrr.active.queue i

/-- The pick looks at the run queue only. -/
theorem pickNextTaskWrr_congr (h : t.rq = s.rq) :
    (pickNextTaskWrr t c).1 = (pickNextTaskWrr s c).1 := by
  unfold pickNextTaskWrr
  rw [h]
  by_cases hnr : (s.rq c).wrr.wrrNrRunning = 0
  · simp only [hnr, if_true]
  · simp only [hnr, if_false]
    cases ((s.rq c).wrr.active.queue
      ((s.rq c).wrr.active.findFirstBit maxWrrPrio)).head? <;> rfl

/-- The pick is the head of the first list that is not empty. -/
theorem pickNextTaskWrr_head (h : (pickNextTaskWrr s c).1 = some p) :
    ((s.rq c).wrr.active.queue ((s.rq c).wrr.active.findFirstBit maxWrrPrio)).head? = some p := by
  unfold pickNextTaskWrr at h
  by_cases hnr : (s.rq c).wrr.wrrNrRunning = 0
  · simp only [hnr, if_true] at h
    cases h
  · simp only [hnr, if_false] at h
    cases hhead : ((s.rq c).wrr.active.queue
        ((s.rq c).wrr.active.findFirstBit maxWrrPrio)).head? with
    | none =>
      rw [hhead] at h
      cases h
    | some q =>
      rw [hhead] at h
      exact h

namespace Rmlfq

/-- Yielding and picking is picking in the requeued state. -/
theorem yieldAndPick_eq {u : System}
    (h : requeueTaskWrr cfg s c (s.rq c).curr false rand = u) :
    (yieldAndPick cfg s c rand).1 = (pickNextTaskWrr u c).1 := by
  have hyield : yieldTaskWrr cfg s c rand = u := h
  have hput : (pickNextTaskWrr (putPrevTaskWrr u c (s.rq c).curr) c).1 = (pickNextTaskWrr u c).1 :=
    pickNextTaskWrr_congr (updateCurrWrr_rq u c)
  rw [← hput, yieldAndPick, hyield]

/-- The requeued task is the last one of its new level. -/
theorem requeueTaskWrr_queue (hrep : WrrRep lvl (s.rq c).wrr)
    (hp : lvl p = some (wrrSePrio (s.task p))) (hc : (s.task p).cpu = c)
    (hle : (s.task p).rtPriority ≤ 99) {m : StageMove} (hm : (s.task p).stageMove cfg rand = m)
    (hi : m.level (wrrTaskPrio (s.task p)) = i) :
    ((requeueTaskWrr cfg s c p false rand).rq c).wrr.active.queue i =
      ((s.rq c).wrr.active.queue i).erase p ++ [p] := by
  have hactive : ((requeueTaskWrr cfg s c p false rand).rq c).wrr.active =
      (((s.rq c).wrr.active.unlink p (wrrSePrio (s.task p))).listAddAt false p i).setBit i := by
    rw [requeueTaskWrr_eq hrep hp hc hle, hm, WrrCommon.requeueByQueueing_eq hrep hp hc false hc,
      m.wrrSePrio_relabel, hi]
    show (Function.update s.rq c _ c).wrr.active = _
    rw [Function.update_self]
  rw [hactive, PrioArray.setBit_queue, PrioArray.listAddAt_queue_self, PrioArray.unlink_queue]
  rfl

end Rmlfq

/-- Something is left in front of a task that goes to the end of a list it shared. -/
theorem head_rotated_ne {xs : List Pid} (hnd : xs.Nodup) (hq : q ∈ xs) (hne : q ≠ p) :
    (xs.erase p ++ [p]).head? ≠ some p := by
  have hmem : q ∈ xs.erase p := (hnd.mem_erase_iff).mpr ⟨hne, hq⟩
  cases hys : xs.erase p with
  | nil =>
    rw [hys] at hmem
    cases hmem
  | cons y ys =>
    rintro hhead
    cases hhead
    exact hnd.not_mem_erase (hys ▸ List.mem_cons_self)

/-- Unless it is a move to a lower stage, a decision that does not raise the level keeps it. -/
theorem StageMove.level_eq_of_le (m : StageMove) (hle : m.level i ≤ i)
    (hstay : ¬(m = .down ∧ i > 9)) : m.level i = i := by
  cases m with
  | down =>
    have hi : ¬i > 9 := fun hi => hstay ⟨rfl, hi⟩
    exact if_neg hi
  | up =>
    have hle' : (if i < 90 then i + 10 else i) ≤ i := hle
    show (if i < 90 then i + 10 else i) = i
    split at hle'
    · omega
    next hi => exact if_neg hi
  | stay => rfl

/-- No queued task is at a lower level. -/
theorem SharesFirstLevel.le (hlevel : SharesFirstLevel s c i) (h : Inv cfg s)
    (hq : s.Queued .wrr c q) : i ≤ wrrLevel cfg (s.task q) := by
  by_contra hlt
  have hmem := h.mem_wrr_iff.mpr ⟨hq, rfl⟩
  rw [hlevel.lowest _ (by omega)] at hmem
  cases hmem

section Yield

variable (hcfg : cfg.wrr = .rmlfq) (h : Inv cfg s) (hlevel : SharesFirstLevel s c i)

include hcfg h hlevel

/-- The current task is in the list it shares. -/
theorem SharesFirstLevel.prio : Rmlfq.wrrTaskPrio (s.task (s.rq c).curr) = i := by
  have hmem := (h.mem_wrr_iff.mp hlevel.current).2
  rwa [wrrLevel_rmlfq hcfg] at hmem

/-- **The pick after a yield is another task exactly when the caller has not moved below its
peers.** -/
theorem yieldAndPick_iff (rand : UInt32) :
    (∃ q, (Rmlfq.yieldAndPick cfg s c rand).1 = some q ∧ q ≠ (s.rq c).curr) ↔
      ¬((s.task (s.rq c).curr).stageMove cfg rand = .down ∧ i > 9) := by
  obtain ⟨peer, hne, hpeer⟩ := hlevel.peer
  have hprio := hlevel.prio hcfg h
  obtain ⟨hcurr, hcurrLevel⟩ := h.mem_wrr_iff.mp hlevel.current
  have hle := (h.task _ (h.alive_of_onRq hcurr.1)).rtPriority
  have hrep := (h.rep c).wrr
  have hlvl := (hrep.active.mem_iff i _).mp hlevel.current
  -- the state after the requeue, and what its pick returns
  have hmove := Rmlfq.requeueTaskWrr_move hcfg hcurr.2.1 hcurr.2.2 hle false rand
  have hinv : Inv cfg (Rmlfq.requeueTaskWrr cfg s c (s.rq c).curr false rand) :=
    hmove.inv h hcurr.1
  have htask : (Rmlfq.requeueTaskWrr cfg s c (s.rq c).curr false rand).task = _ :=
    Rmlfq.requeueTaskWrr_task s c hle false rand
  have hqueue : ∀ {m : StageMove}, (s.task (s.rq c).curr).stageMove cfg rand = m →
      m.level i = i →
        ((Rmlfq.requeueTaskWrr cfg s c (s.rq c).curr false rand).rq c).wrr.active.queue i =
          ((s.rq c).wrr.active.queue i).erase (s.rq c).curr ++ [(s.rq c).curr] := by
    intro m hm hi
    have hse : Rmlfq.wrrSePrio (s.task (s.rq c).curr) = i := hprio
    exact Rmlfq.requeueTaskWrr_queue hrep (by rw [hlvl, hse]) hcurr.2.2 hle hm (by rwa [hprio])
  generalize hu : Rmlfq.requeueTaskWrr cfg s c (s.rq c).curr false rand = u at hmove hinv htask hqueue
  rw [Rmlfq.yieldAndPick_eq hu]
  generalize (s.task (s.rq c).curr).stageMove cfg rand = m at htask hqueue ⊢
  have hself : wrrLevel cfg (u.task (s.rq c).curr) = m.level i := by
    rw [wrrLevel_rmlfq hcfg, htask, Function.update_self]
    exact (m.wrrSePrio_relabel _).trans (by rw [hprio])
  have hother : ∀ q, q ≠ (s.rq c).curr → wrrLevel cfg (u.task q) = wrrLevel cfg (s.task q) := by
    intro q hq
    rw [htask, Function.update_of_ne hq]
  have hnr : (u.rq c).wrr.wrrNrRunning ≠ 0 := fun hzero =>
    hinv.wrrNr_eq_zero_iff.mp hzero _ (hmove.queued_iff.mpr hcurr)
  obtain ⟨-, x, hpick, hx, hbit, hmin⟩ := hinv.wrr_search hnr
  have hfst : (pickNextTaskWrr u c).1 = some x := by rw [hpick]
  rw [hfst]
  constructor
  · rintro ⟨q, ⟨⟩, hxne⟩ ⟨hdown, hi⟩
    -- the caller is alone at its new level
    have hlow := hmin _ (hmove.queued_iff.mpr hcurr)
    have hhigh := hlevel.le h (hmove.queued_iff.mp hx)
    rw [hself, hother x hxne, hdown] at hlow
    have hten : StageMove.down.level i = i - 10 := if_pos hi
    omega
  · intro hstay
    refine ⟨x, rfl, ?_⟩
    rintro rfl
    have hlow := hmin peer (hmove.queued_iff.mpr (h.mem_wrr_iff.mp hpeer).1)
    rw [hself, hother peer hne, (h.mem_wrr_iff.mp hpeer).2] at hlow
    have hsame : m.level i = i := m.level_eq_of_le hlow hstay
    -- the caller is behind its peer
    have hhead := pickNextTaskWrr_head hfst
    rw [← hbit, hself, hsame, hqueue rfl hsame] at hhead
    exact head_rotated_ne (hrep.active.nodup i) hpeer hne hhead

end Yield

/-- Over reachable states: **a yield gives way to a task of the caller's level exactly
when the word does not move the caller down, or there is no lower stage.** -/
theorem yield_gives_way_iff (hcfg : cfg.wrr = .rmlfq) (hs : Boot s₀)
    (h : Reach (fun s op => op.Pre s) (exec cfg) s₀ s) (hlevel : SharesFirstLevel s c i)
    (rand : UInt32) :
    (∃ q, (Rmlfq.yieldAndPick cfg s c rand).1 = some q ∧ q ≠ (s.rq c).curr) ↔
      ¬((s.task (s.rq c).curr).stageMove cfg rand = .down ∧ i > 9) :=
  yieldAndPick_iff hcfg (reach_inv (fun _ _ hop => hop) hs h) hlevel rand

/-- Two tasks of the middle stage, of which the first runs. -/
def twoPeers : List Op := [.wakeUp 1 0 .quiet, .wakeUp 5 0 .quiet, .schedule 0 false .quiet]

theorem twoPeers_reach : Reach (fun s op => op.Pre s) (exec (upConfig .rmlfq))
    (wrrSystem fun _ => 50) (twoPeers.foldl (exec (upConfig .rmlfq)) (wrrSystem fun _ => 50)) :=
  reach_of_check (wrrSystem_boot _).inv twoPeers (by decide +kernel)

theorem twoPeers_shares :
    SharesFirstLevel (twoPeers.foldl (exec (upConfig .rmlfq)) (wrrSystem fun _ => 50)) 0 49 :=
  ⟨by decide +kernel, by decide +kernel, 5, by decide +kernel, by decide +kernel⟩

theorem yield_gives_way_boot :
    let s := twoPeers.foldl (exec (upConfig .rmlfq)) (wrrSystem fun _ => 50)
    ∃ q, (Rmlfq.yieldAndPick (upConfig .rmlfq) s 0 4294967295).1 = some q ∧ q ≠ (s.rq 0).curr :=
  (yield_gives_way_iff rfl (wrrSystem_boot _) twoPeers_reach twoPeers_shares 4294967295).mpr
    (by decide +kernel)

/-- With the word 0 the caller moves to the stage below, and is picked again. -/
theorem yield_keeps_running :
    let s := twoPeers.foldl (exec (upConfig .rmlfq)) (wrrSystem fun _ => 50)
    Boot (wrrSystem fun _ => 50) ∧
      Reach (fun s op => op.Pre s) (exec (upConfig .rmlfq)) (wrrSystem fun _ => 50) s ∧
      SharesFirstLevel s 0 49 ∧ (s.rq 0).curr = 1 ∧
      (Rmlfq.yieldAndPick (upConfig .rmlfq) s 0 0).1 = some 1 :=
  ⟨wrrSystem_boot _, twoPeers_reach, twoPeers_shares, by decide +kernel, by decide +kernel⟩

/-! ## The system call -/

/-- After the switch the task that was picked runs. -/
theorem switchWrr_curr (h : (pickNextTaskWrr (putPrevTaskWrr s c (s.rq c).curr) c).1 = some q) :
    ((Basic.switchWrr s c).rq c).curr = q := by
  unfold Basic.switchWrr
  dsimp only
  cases hpick : pickNextTaskWrr (putPrevTaskWrr s c (s.rq c).curr) c with
  | mk next t =>
    rw [hpick] at h
    dsimp only at h
    rw [h]
    show (Function.update t.rq c _ c).curr = q
    rw [Function.update_self]

/-- **`sched_yield` runs another task exactly when the caller is not moved down**, while no
stop task and no RT task can run. -/
theorem schedYield_curr (hcfg : cfg.wrr = .rmlfq) (h : Inv cfg s) (hlevel : SharesFirstLevel s c i)
    (hstop : ∀ p, ¬s.Eligible .stop c p) (hrt : ∀ p, ¬s.Eligible .rt c p) (o : Outside) :
    ((exec cfg s (.schedYield c o)).rq c).curr ≠ (s.rq c).curr ↔
      ¬((s.task (s.rq c).curr).stageMove cfg o.rand = .down ∧ i > 9) := by
  obtain ⟨hcurr, -⟩ := h.mem_wrr_iff.mp hlevel.current
  have hle := (h.task _ (h.alive_of_onRq hcurr.1)).rtPriority
  have hmove : Move cfg s (yieldTask cfg s c o) (s.rq c).curr := yieldTask_move hcurr.2.2 hle o
  have hinv : Inv cfg (yieldTask cfg s c o) := hmove.inv h hcurr.1
  have hrequeue : Rmlfq.requeueTaskWrr cfg s c (s.rq c).curr false o.rand = yieldTask cfg s c o :=
    (yieldTask_wrr hcfg hcurr.2.1).symm
  have hpick := yieldAndPick_iff hcfg h hlevel o.rand
  rw [← hpick, Rmlfq.yieldAndPick_eq hrequeue]
  have hswitch : exec cfg s (.schedYield c o) = Basic.switchWrr (yieldTask cfg s c o) c := by
    refine schedule_eq_switchWrr hinv ?_ (fun p hp => hstop p (hmove.eligible_iff.mp hp))
      (fun p hp => hrt p (hmove.eligible_iff.mp hp)) o
    rw [hmove.frame.curr]
    exact hmove.queued_iff.mpr hcurr
  have hnr : ((yieldTask cfg s c o).rq c).wrr.wrrNrRunning ≠ 0 := fun hzero =>
    hinv.wrrNr_eq_zero_iff.mp hzero _ (hmove.queued_iff.mpr hcurr)
  obtain ⟨-, x, hx, -⟩ := hinv.wrr_search hnr
  have hfst : (pickNextTaskWrr (yieldTask cfg s c o) c).1 = some x := by rw [hx]
  have hput : (pickNextTaskWrr (putPrevTaskWrr (yieldTask cfg s c o) c
      ((yieldTask cfg s c o).rq c).curr) c).1 = some x :=
    (pickNextTaskWrr_congr (updateCurrWrr_rq _ c)).trans hfst
  rw [hswitch, switchWrr_curr hput, hfst]
  constructor
  · exact fun hne => ⟨x, rfl, hne⟩
  · rintro ⟨q, ⟨⟩, hne⟩
    exact hne

end LinuxWrr
