import LinuxWrr.Sched.Run

/-!
# The run queues over whole runs

What the invariant says about the lists, the bitmaps and the counters themselves.

- `System.Queued s k c p`: the task `p` is on the run queue of cpu `c`, in class `k`.
- `Inv.mem_wrr_iff`, `Inv.mem_rt_iff`, `Inv.mem_cfs_iff`: the members of each queue.
- `Inv.wrr_search`: the search of the bitmap finds a queued task of the best level.
- `rmlfq_runQueue_reach`: **the RMLFQ run queues over every run**. Each queued WRR task is
  linked once, at the level of its priority; the bits and the counter agree with the
  lists; the pick never sees an empty list.
- `pickNextTask_reach`: **the shortcut of `pick_next_task` is the loop over the classes**,
  since `nr_running` counts every queued task of every class once.
-/

namespace LinuxWrr

variable {cfg : Config} {s t : System} {c : Cpu} {p q : Pid} {i : Nat} {k : ClassId}
  {o : Outside}

/-- `p` is on the run queue of cpu `c`, in class `k`. -/
def System.Queued (s : System) (k : ClassId) (c : Cpu) (p : Pid) : Prop :=
  (s.task p).onRq = true ∧ (s.task p).schedClass = k ∧ (s.task p).cpu = c

instance (s : System) (k : ClassId) (c : Cpu) (p : Pid) : Decidable (s.Queued k c p) :=
  inferInstanceAs (Decidable (_ ∧ _ ∧ _))

/-- Where a task is queued is read off the task. -/
theorem System.queued_congr (h : t.task p = s.task p) : t.Queued k c p ↔ s.Queued k c p := by
  unfold System.Queued
  rw [h]

/-- A task has a level where it is queued, and the level is that of its list. -/
theorem levelAt_slots : levelAt (s.slots cfg) k c p = some i ↔
    s.Queued k c p ∧ seLevel cfg (s.task p) = i := by
  rw [levelAt_eq_some]
  unfold System.slots slotOf System.Queued
  by_cases hon : (s.task p).onRq = true
  · rw [if_pos hon]
    simp [hon, and_assoc]
  · rw [if_neg hon]
    simp [hon]

/-- A task has some level exactly where it is queued. -/
theorem levelAt_slots_ne_none : levelAt (s.slots cfg) k c p ≠ none ↔ s.Queued k c p := by
  rw [Option.ne_none_iff_exists']
  constructor
  · rintro ⟨i, hi⟩
    exact (levelAt_slots.mp hi).1
  · intro hp
    exact ⟨_, levelAt_slots.mpr ⟨hp, rfl⟩⟩

theorem levelAt_slots_none : (∀ p, levelAt (s.slots cfg) k c p = none) ↔ ∀ p, ¬s.Queued k c p := by
  refine forall_congr' fun p => ?_
  rw [← @levelAt_slots_ne_none cfg, not_not]

namespace Inv

/-- A WRR list holds exactly the queued WRR tasks of its cpu and level. -/
theorem mem_wrr_iff (h : Inv cfg s) : p ∈ (s.rq c).wrr.active.queue i ↔
    s.Queued .wrr c p ∧ wrrLevel cfg (s.task p) = i := by
  rw [(h.rep c).wrr.active.mem_iff, levelAt_slots]
  refine and_congr_right fun hp => ?_
  rw [seLevel, hp.2.1]

/-- The lists of the RT queue have the RT tasks under their priorities. -/
theorem mem_rt_iff (h : Inv cfg s) : p ∈ (s.rq c).rt.active.queue i ↔
    s.Queued .rt c p ∧ Rt.rtSePrio (s.task p) = i := by
  rw [(h.rep c).rt.active.mem_iff, levelAt_slots]
  refine and_congr_right fun hp => ?_
  rw [seLevel, hp.2.1]

/-- The fair list has the queued fair tasks. -/
theorem mem_cfs_iff (h : Inv cfg s) : p ∈ (s.rq c).cfs.tasks ↔ s.Queued .fair c p := by
  rw [(h.rep c).cfs.mem, levelAt_slots_ne_none]

/-- The WRR counter is zero exactly when the cpu has no queued WRR task. -/
theorem wrrNr_eq_zero_iff (h : Inv cfg s) :
    (s.rq c).wrr.wrrNrRunning = 0 ↔ ∀ p, ¬s.Queued .wrr c p := by
  rw [(h.rep c).wrr.nr_eq_zero_iff, levelAt_slots_none]

/-- The RT counter is zero exactly when no RT task is queued. -/
theorem rtNr_eq_zero_iff (h : Inv cfg s) :
    (s.rq c).rt.rtNrRunning = 0 ↔ ∀ p, ¬s.Queued .rt c p := by
  rw [(h.rep c).rt.nr_eq_zero_iff, levelAt_slots_none]

/-- The search of the WRR bitmap stops before the delimiter, at the lowest level that
has a queued task; what the pick returns is the head of that level's list. -/
theorem wrr_search (h : Inv cfg s) (hnr : (s.rq c).wrr.wrrNrRunning ≠ 0) :
    (s.rq c).wrr.active.findFirstBit maxWrrPrio < maxWrrPrio ∧
      ∃ p, pickNextTaskWrr s c = (some p, s.startExec c p) ∧ s.Queued .wrr c p ∧
        wrrLevel cfg (s.task p) = (s.rq c).wrr.active.findFirstBit maxWrrPrio ∧
        ∀ q, s.Queued .wrr c q → wrrLevel cfg (s.task p) ≤ wrrLevel cfg (s.task q) := by
  have hrep := (h.rep c).wrr.active
  have hsome : ∃ p, levelAt (s.slots cfg) .wrr c p ≠ none := by
    by_contra hnone
    refine hnr ((h.rep c).wrr.nr_eq_zero_iff.mpr fun p => ?_)
    by_contra hp
    exact hnone ⟨p, hp⟩
  have hlt := hrep.findFirstBit_lt_iff.mpr hsome
  obtain ⟨p, hhead, hp⟩ := hrep.findFirstBit_head hlt
  have hmem := h.mem_wrr_iff.mp ((hrep.mem_iff _ p).mpr hp)
  refine ⟨hlt, p, ?_, hmem.1, hmem.2, fun q hq => ?_⟩
  · unfold pickNextTaskWrr
    simp only [hnr, if_false, hhead]
  · rw [hmem.2]
    exact hrep.findFirstBit_le_level ((hrep.mem_iff _ q).mp (h.mem_wrr_iff.mpr ⟨hq, rfl⟩))

end Inv

/-! ## What the pick returns -/

/-- `p` is queued on `c` in class `k`, and the class may run it: the RT class offers
nothing while it is throttled. -/
def System.Eligible (s : System) (k : ClassId) (c : Cpu) (p : Pid) : Prop :=
  s.Queued k c p ∧ (k = .rt → (s.rq c).rt.rtThrottled = false)

/-- Who is eligible depends on the queues and on throttling. -/
theorem System.eligible_congr (h : t.Queued k c p ↔ s.Queued k c p)
    (hthrottled : (t.rq c).rt.rtThrottled = (s.rq c).rt.rtThrottled) :
    t.Eligible k c p ↔ s.Eligible k c p := by
  unfold System.Eligible
  rw [h, hthrottled]

/-- The fair class offers one of its tasks, if it has any. -/
def System.FairPickOk (s : System) (c : Cpu) (o : Outside) : Prop :=
  match o.fairPick with
  | none => ∀ p, ¬s.Queued .fair c p
  | some p => s.Queued .fair c p

/-- A class without a candidate is passed over. -/
theorem pickFrom_of_none (h : (schedClassOf cfg k).pickNextTask s c o = (none, s)) (ks : List ClassId) :
    pickFrom cfg c o (k :: ks) s = pickFrom cfg c o ks s := by
  rw [pickFrom, h]

/-- The first class with a candidate decides. -/
theorem pickFrom_of_some (h : (schedClassOf cfg k).pickNextTask s c o = (some p, t))
    (ks : List ClassId) : pickFrom cfg c o (k :: ks) s = (some p, t) := by
  rw [pickFrom, h]

namespace Inv

/-- A class with nothing to run is passed over. -/
theorem classPick_none (h : Inv cfg s) (hk : k ≠ .fair) (hidle : k ≠ .idle)
    (hnone : ∀ p, ¬s.Eligible k c p) :
    (schedClassOf cfg k).pickNextTask s c o = (none, s) := by
  cases k with
  | stop =>
    show (match (s.rq c).stop with
      | none => (none, s)
      | some p => if (s.task p).onRq then (some p, s) else (none, s)) = (none, s)
    cases hstop : (s.rq c).stop with
    | none => rfl
    | some p =>
      obtain ⟨-, hk, hc⟩ := (h.stop c p).mp hstop
      have hoff : ¬(s.task p).onRq = true := fun hon => hnone p ⟨⟨hon, hk, hc⟩, fun h => nomatch h⟩
      exact if_neg hoff
  | rt =>
    show Rt.pickNextTaskRt s c = (none, s)
    unfold Rt.pickNextTaskRt
    by_cases hthrottled : (s.rq c).rt.rtThrottled = true
    · simp [hthrottled]
    · refine if_pos (h.rtNr_eq_zero_iff.mpr fun p hp => hnone p ⟨hp, fun _ => ?_⟩)
      exact Bool.eq_false_iff.mpr hthrottled
  | wrr =>
    show (wrrSchedClass cfg).pickNextTask s c o = (none, s)
    rw [wrrSchedClass_pick]
    exact if_pos (h.wrrNr_eq_zero_iff.mpr fun p hp => hnone p ⟨hp, fun h => nomatch h⟩)
  | fair => exact absurd rfl hk
  | idle => exact absurd rfl hidle

/-- A class with something to run offers one of its tasks; the WRR class offers one of
the lowest level. -/
theorem classPick_some (h : Inv cfg s) (ho : s.FairPickOk c o)
    (hsome : s.Eligible k c p) :
    ∃ q t, (schedClassOf cfg k).pickNextTask s c o = (some q, t) ∧ s.Eligible k c q ∧
      (k = .wrr → ∀ r, s.Queued .wrr c r → wrrLevel cfg (s.task q) ≤ wrrLevel cfg (s.task r)) := by
  cases k with
  | stop =>
    obtain ⟨hon, hk, hc⟩ := hsome.1
    have hstop : (s.rq c).stop = some p := (h.stop c p).mpr ⟨h.alive_of_onRq hon, hk, hc⟩
    refine ⟨p, s, ?_, hsome, fun h => nomatch h⟩
    show (match (s.rq c).stop with
      | none => (none, s)
      | some p => if (s.task p).onRq then (some p, s) else (none, s)) = (some p, s)
    rw [hstop]
    exact if_pos hon
  | rt =>
    have hnr : (s.rq c).rt.rtNrRunning ≠ 0 := fun hz => h.rtNr_eq_zero_iff.mp hz p hsome.1
    have hlvl : levelAt (s.slots cfg) .rt c p ≠ none := levelAt_slots_ne_none.mpr hsome.1
    obtain ⟨q, hhead, hq⟩ := (h.rep c).rt.active.findFirstBit_head
      ((h.rep c).rt.active.findFirstBit_lt_iff.mpr ⟨p, hlvl⟩)
    refine ⟨q, s.startExec c q, ?_, ⟨(levelAt_slots.mp hq).1, hsome.2⟩, fun h => nomatch h⟩
    show Rt.pickNextTaskRt s c = _
    unfold Rt.pickNextTaskRt
    simp [hnr, hsome.2 rfl, hhead]
  | wrr =>
    have hnr : (s.rq c).wrr.wrrNrRunning ≠ 0 := fun hz => h.wrrNr_eq_zero_iff.mp hz p hsome.1
    obtain ⟨-, q, hpick, hq, -, hmin⟩ := h.wrr_search hnr
    refine ⟨q, s.startExec c q, ?_, ⟨hq, fun h => nomatch h⟩, fun _ => hmin⟩
    show (wrrSchedClass cfg).pickNextTask s c o = _
    rw [wrrSchedClass_pick, hpick]
  | fair =>
    unfold System.FairPickOk at ho
    cases hfair : o.fairPick with
    | none =>
      rw [hfair] at ho
      exact absurd hsome.1 (ho p)
    | some q =>
      rw [hfair] at ho
      refine ⟨q, s, ?_, ⟨ho, fun h => nomatch h⟩, fun h => nomatch h⟩
      show (o.fairPick, s) = _
      rw [hfair]
  | idle =>
    obtain ⟨hon, hk, -⟩ := hsome.1
    rw [h.idleOff p hk] at hon
    cases hon

end Inv

/-- What a class-by-class search of the run queue of `c` comes to: no task of an earlier
class may run, and in the WRR class no task is at a lower level. -/
structure Best (cfg : Config) (s : System) (c : Cpu) (q : Pid) : Prop where
  eligible : q = (s.rq c).idle ∨ s.Eligible (s.task q).schedClass c q
  first : ∀ k p, s.Eligible k c p → k.precedes (s.task q).schedClass = false
  level : (s.task q).schedClass = .wrr →
    ∀ p, s.Queued .wrr c p → wrrLevel cfg (s.task q) ≤ wrrLevel cfg (s.task p)

theorem ClassId.precedes_irrefl (k : ClassId) : k.precedes k = false := by
  cases k <;> rfl

/-- The chain is in the order of `precedes`. -/
theorem forEachClass_pairwise : forEachClass.Pairwise fun a b => b.precedes a = false := by
  decide

namespace Inv

/-- Without a queued fair task the fair class answers nobody. -/
theorem fairPick_none (ho : s.FairPickOk c o) (hnone : ∀ p, ¬s.Eligible .fair c p) :
    (schedClassOf cfg .fair).pickNextTask s c o = (none, s) := by
  show (o.fairPick, s) = (none, s)
  unfold System.FairPickOk at ho
  cases hfair : o.fairPick with
  | none => rfl
  | some q =>
    rw [hfair] at ho
    exact absurd ⟨ho, fun h => nomatch h⟩ (hnone q)

/-- The loop over a tail of the chain, when no earlier class has a task to run. -/
theorem pickFrom_best (h : Inv cfg s) (ho : s.FairPickOk c o) {ks : List ClassId}
    (hks : ks.Pairwise fun a b => b.precedes a = false) (hidle : .idle ∈ ks)
    (hall : ∀ k p, s.Eligible k c p → k ∈ ks) :
    ∃ q t, pickFrom cfg c o ks s = (some q, t) ∧ Best cfg s c q := by
  induction ks with
  | nil => cases hidle
  | cons k ks ih =>
    -- whatever may run is of this class or a later one
    have hfirst : ∀ k' p, s.Eligible k' c p → k'.precedes k = false := by
      intro k' p hp
      rcases List.mem_cons.mp (hall k' p hp) with rfl | hmem
      · exact k'.precedes_irrefl
      · exact List.rel_of_pairwise_cons hks hmem
    by_cases hsome : ∃ p, s.Eligible k c p
    · obtain ⟨p, hp⟩ := hsome
      obtain ⟨q, t, hpick, hq, hmin⟩ := h.classPick_some ho hp
      have hk : (s.task q).schedClass = k := hq.1.2.1
      refine ⟨q, t, pickFrom_of_some hpick ks, ?_⟩
      rw [← hk] at hq hfirst hmin
      exact ⟨.inr hq, hfirst, hmin⟩
    · have hnone : ∀ p, ¬s.Eligible k c p := fun p hp => hsome ⟨p, hp⟩
      by_cases hk : k = .idle
      · subst hk
        -- the idle class never passes
        have hclass : (s.task (s.rq c).idle).schedClass = .idle := ((h.idle c _).mp rfl).2.1
        refine ⟨(s.rq c).idle, s, pickFrom_of_some rfl ks, ?_⟩
        refine ⟨.inl rfl, ?_, ?_⟩
        · rwa [hclass]
        · rw [hclass]
          exact fun h => nomatch h
      · have hskip : (schedClassOf cfg k).pickNextTask s c o = (none, s) := by
          by_cases hfair : k = .fair
          · subst hfair
            exact fairPick_none ho hnone
          · exact h.classPick_none hfair hk hnone
        rw [pickFrom_of_none hskip]
        refine ih hks.of_cons ((List.mem_cons.mp hidle).resolve_left (Ne.symm hk)) ?_
        intro k' p hp
        refine (List.mem_cons.mp (hall k' p hp)).resolve_left fun heq => ?_
        subst heq
        exact hnone p hp

/-- **The search finds the best task.** -/
theorem pick_best (h : Inv cfg s) (ho : s.FairPickOk c o) :
    ∃ q t, pickFrom cfg c o forEachClass s = (some q, t) ∧ Best cfg s c q := by
  refine h.pickFrom_best ho forEachClass_pairwise (by decide) fun k p _ => ?_
  cases k <;> decide

end Inv

/-! ## The RMLFQ run queues -/

/-- The redundant parts of the RMLFQ run queues agree with the tasks and each other. -/
structure Rmlfq.RunQueueOk (s : System) : Prop where
  /-- A queued WRR task is linked once, in `queue[99 - rt_priority]` of its cpu, and
  nothing else is linked anywhere. -/
  linked : ∀ c i p, ((s.rq c).wrr.active.queue i).count p =
    if s.Queued .wrr c p ∧ 99 - (s.task p).rtPriority = i then 1 else 0
  rtPriority : ∀ c p, s.Queued .wrr c p → (s.task p).rtPriority ≤ 99
  bit_iff : ∀ c i, i < maxWrrPrio →
    ((s.rq c).wrr.active.bitmap i = true ↔ (s.rq c).wrr.active.queue i ≠ [])
  delimiter : ∀ c, (s.rq c).wrr.active.bitmap maxWrrPrio = true
  /-- `wrr_nr_running` is the number of linked entities. -/
  nr : ∀ c, (s.rq c).wrr.wrrNrRunning =
    ∑ i ∈ Finset.range maxWrrPrio, ((s.rq c).wrr.active.queue i).length
  /-- `BUG_ON(idx >= MAX_WRR_PRIO)` never fires. -/
  bugOn : ∀ c, pickBugOn s c = false
  /-- The pick returns a queued task of the lowest level, and never a list head. -/
  pick : ∀ c, (s.rq c).wrr.wrrNrRunning ≠ 0 →
    ∃ p, (pickNextTaskWrr s c).1 = some p ∧ s.Queued .wrr c p ∧
      ∀ q, s.Queued .wrr c q → 99 - (s.task p).rtPriority ≤ 99 - (s.task q).rtPriority
  empty : ∀ c, (s.rq c).wrr.wrrNrRunning = 0 → ∀ p, ¬s.Queued .wrr c p

/-- The second file files its tasks from the top. -/
theorem wrrLevel_rmlfq (hcfg : cfg.wrr = .rmlfq) (f : Task) :
    wrrLevel cfg f = 99 - f.rtPriority := by
  unfold wrrLevel
  rw [hcfg]
  rfl

/-- The first file files its tasks by their priority. -/
theorem wrrLevel_basic (hcfg : cfg.wrr = .basic) (f : Task) :
    wrrLevel cfg f = f.rtPriority := by
  unfold wrrLevel
  rw [hcfg]
  rfl

/-- The list of a task depends on its priority only. -/
theorem wrrLevel_congr {f g : Task} (h : g.rtPriority = f.rtPriority) :
    wrrLevel cfg g = wrrLevel cfg f := by
  cases hcfg : cfg.wrr with
  | basic => rw [wrrLevel_basic hcfg, wrrLevel_basic hcfg, h]
  | rmlfq => rw [wrrLevel_rmlfq hcfg, wrrLevel_rmlfq hcfg, h]

/-- The invariant says that lists, bitmap, counter and head pointers agree. -/
theorem Inv.rmlfq_runQueueOk (h : Inv cfg s) (hcfg : cfg.wrr = .rmlfq) :
    Rmlfq.RunQueueOk s where
  linked c i p := by
    rw [((h.rep c).wrr.active.nodup i).count]
    refine if_congr ?_ rfl rfl
    rw [h.mem_wrr_iff, wrrLevel_rmlfq hcfg]
  rtPriority c p hp := (h.task p (h.alive_of_onRq hp.1)).rtPriority
  bit_iff c := (h.rep c).wrr.active.bit_iff
  delimiter c := (h.rep c).wrr.active.delimiter
  nr c := by
    rw [(h.rep c).wrr.nr, PrioArray.size]
  bugOn c := by
    unfold pickBugOn
    by_cases hnr : (s.rq c).wrr.wrrNrRunning = 0
    · simp [hnr]
    · have hlt := (h.wrr_search hnr).1
      simp [hnr, hlt]
  pick c hnr := by
    obtain ⟨-, p, hpick, hp, -, hmin⟩ := h.wrr_search hnr
    refine ⟨p, by rw [hpick], hp, fun q hq => ?_⟩
    rw [← wrrLevel_rmlfq hcfg, ← wrrLevel_rmlfq hcfg]
    exact hmin q hq
  empty c := h.wrrNr_eq_zero_iff.mp

/-- **The RMLFQ run queues are consistent in every reachable state**, whatever the
operations, their flags and the random words. -/
theorem rmlfq_runQueue_reach (hcfg : cfg.wrr = .rmlfq) (hs : Boot s)
    (h : Reach (fun s op => op.Pre s) (exec cfg) s t) : Rmlfq.RunQueueOk t :=
  (reach_inv (fun _ _ hop => hop) hs h).rmlfq_runQueueOk hcfg

/-- A fair task switches to WRR, is queued at the head of its level, moves twice and is
picked. -/
theorem rmlfq_runQueue_reach_boot : Rmlfq.RunQueueOk
    ([.setscheduler 1 .wrr false 50 .quiet, .enqueue 1 0 enqueueHeadFlag, .requeue 1 false 0,
      .requeue 1 true 4294967295, .pick 0 .quiet].foldl (exec (upConfig .rmlfq)) bootSystem) :=
  rmlfq_runQueue_reach rfl bootSystem_boot
    (reach_of_check bootSystem_boot.inv _ (by decide))

/-! ## The shortcut of `pick_next_task` -/

/-- How many stop tasks the cpu has queued. -/
def stopQueued (s : System) (c : Cpu) : Int :=
  match (s.rq c).stop with
  | none => 0
  | some p => if (s.task p).onRq then 1 else 0

/-- The shared counter and the counters of the classes. -/
structure NrRunningOk (s : System) (c : Cpu) : Prop where
  nrRunning : (s.rq c).nrRunning = stopQueued s c + (s.rq c).rt.rtNrRunning +
    (s.rq c).wrr.wrrNrRunning + (s.rq c).cfs.tasks.length
  rt : (s.rq c).rt.rtNrRunning =
    ∑ i ∈ Finset.range maxRtPrio, ((s.rq c).rt.active.queue i).length
  wrr : (s.rq c).wrr.wrrNrRunning =
    ∑ i ∈ Finset.range maxWrrPrio, ((s.rq c).wrr.active.queue i).length
  cfs : (s.rq c).cfs.hNrRunning = (s.rq c).cfs.tasks.length

theorem Inv.stopNr_eq (h : Inv cfg s) :
    stopNr (levelAt (s.slots cfg) .stop c) (s.rq c).stop = stopQueued s c := by
  unfold stopNr stopQueued
  cases hstop : (s.rq c).stop with
  | none => rfl
  | some p =>
    obtain ⟨-, hk, hc⟩ := (h.stop c p).mp hstop
    have hiff : levelAt (s.slots cfg) .stop c p = none ↔ ¬(s.task p).onRq = true := by
      rw [← not_iff_not, not_not, ← Ne, levelAt_slots_ne_none]
      exact ⟨fun hq => hq.1, fun hon => ⟨hon, hk, hc⟩⟩
    by_cases hon : (s.task p).onRq = true
    · have hne : ¬levelAt (s.slots cfg) .stop c p = none := fun hn => hiff.mp hn hon
      simp [hne, hon]
    · simp [hiff.mpr hon, hon]

theorem Inv.nrRunningOk (h : Inv cfg s) (c : Cpu) : NrRunningOk s c where
  nrRunning := by
    rw [(h.rep c).nr, h.stopNr_eq]
  rt := by
    rw [(h.rep c).rt.nr, PrioArray.size]
  wrr := by
    rw [(h.rep c).wrr.nr, PrioArray.size]
  cfs := (h.rep c).cfs.nr

/-- When `nr_running` is the fair class's own count, no other class has a task. -/
theorem Inv.only_fair (h : Inv cfg s)
    (heq : (s.rq c).nrRunning = (s.rq c).cfs.hNrRunning) (hk : k ≠ .fair) (hidle : k ≠ .idle)
    (p : Pid) : ¬s.Queued k c p := by
  have hok := h.nrRunningOk c
  have hnr := hok.nrRunning
  rw [heq, hok.cfs] at hnr
  have hrt : 0 ≤ (s.rq c).rt.rtNrRunning := by
    rw [(h.rep c).rt.nr]
    exact Int.natCast_nonneg _
  have hwrr : 0 ≤ (s.rq c).wrr.wrrNrRunning := by
    rw [(h.rep c).wrr.nr]
    exact Int.natCast_nonneg _
  have hstop : 0 ≤ stopQueued s c := by
    rw [← h.stopNr_eq]
    exact stopNr_nonneg _ _
  cases k with
  | stop =>
    have hzero : stopQueued s c = 0 := by omega
    rw [← h.stopNr_eq, stopNr_eq_zero_iff (h.rep c).stop] at hzero
    exact levelAt_slots_none.mp hzero p
  | rt => exact h.rtNr_eq_zero_iff.mp (by omega) p
  | wrr => exact h.wrrNr_eq_zero_iff.mp (by omega) p
  | fair => exact absurd rfl hk
  | idle => exact absurd rfl hidle

/-- The shortcut of `pick_next_task` answers as the loop over the classes does. -/
theorem Inv.pickNextTask_eq (h : Inv cfg s) (o : Outside) :
    pickNextTask cfg s c o = pickFrom cfg c o forEachClass s := by
  unfold pickNextTask
  by_cases heq : (s.rq c).nrRunning = (s.rq c).cfs.hNrRunning
  · have hloop : pickFrom cfg c o forEachClass s = pickFrom cfg c o [.fair, .idle] s := by
      have hskip : ∀ k, k ≠ .fair → k ≠ .idle → ∀ ks,
          pickFrom cfg c o (k :: ks) s = pickFrom cfg c o ks s := by
        intro k hk hidle ks
        refine pickFrom_of_none (h.classPick_none hk hidle fun p hp => ?_) ks
        exact h.only_fair heq hk hidle p hp.1
      rw [forEachClass, hskip .stop (by decide) (by decide), hskip .rt (by decide) (by decide),
        hskip .wrr (by decide) (by decide)]
    rw [if_pos heq, hloop]
    have hpick : fairSchedClass.pickNextTask s c o = (o.fairPick, s) := rfl
    rw [hpick]
    cases hfair : o.fairPick with
    | none => exact hloop
    | some p =>
      have hclass : (schedClassOf cfg .fair).pickNextTask s c o = (some p, s) := by
        rw [← hfair]
        rfl
      rw [pickFrom, hclass]
  · rw [if_neg heq]

/-- **The shortcut never bypasses a class.** In every reachable state the shared counter
is the sum of the classes' counts, so that when it equals the fair class's own the other
classes are empty; and the pick with the shortcut is the loop over all classes. -/
theorem pickNextTask_reach (hs : Boot s) (h : Reach (fun s op => op.Pre s) (exec cfg) s t)
    (c : Cpu) : NrRunningOk t c ∧
      ((t.rq c).nrRunning = (t.rq c).cfs.hNrRunning →
        ∀ p, ¬t.Queued .stop c p ∧ ¬t.Queued .rt c p ∧ ¬t.Queued .wrr c p) ∧
      ∀ o, pickNextTask cfg t c o = pickFrom cfg c o forEachClass t := by
  have hinv := reach_inv (fun _ _ hop => hop) hs h
  refine ⟨hinv.nrRunningOk c, fun heq p => ⟨?_, ?_, ?_⟩, fun o => hinv.pickNextTask_eq o⟩
  · exact hinv.only_fair heq (by decide) (by decide) p
  · exact hinv.only_fair heq (by decide) (by decide) p
  · exact hinv.only_fair heq (by decide) (by decide) p

/-- A fair and a WRR task are queued, and the WRR task is then made fair. -/
theorem pickNextTask_reach_boot :
    let ops : List Op := [.enqueue 1 0 0, .setscheduler 5 .wrr false 7 .quiet, .enqueue 5 0 0,
      .setscheduler 5 .normal false 0 .quiet]
    let t := ops.foldl (exec (upConfig .basic)) bootSystem
    NrRunningOk t 0 ∧
      ((t.rq 0).nrRunning = (t.rq 0).cfs.hNrRunning →
        ∀ p, ¬t.Queued .stop 0 p ∧ ¬t.Queued .rt 0 p ∧ ¬t.Queued .wrr 0 p) ∧
      ∀ o, pickNextTask (upConfig .basic) t 0 o = pickFrom (upConfig .basic) 0 o forEachClass t :=
  pickNextTask_reach bootSystem_boot (reach_of_check bootSystem_boot.inv _ (by decide)) 0

end LinuxWrr
