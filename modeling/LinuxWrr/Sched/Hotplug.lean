import LinuxWrr.Lib.Loop
import LinuxWrr.Sched.Effect
import Mathlib.Data.Set.Card

/-!
# Evacuating a dead CPU

`migrate_tasks` empties the run queue of a CPU that goes down: with the stop task hidden from
the pick, it picks task after task and moves each to a CPU that `select_fallback_rq` finds.

- `selectFallbackRq`, `migrateTaskTo`, `migrateBody`: the source.
- `hideStop`: a system with `rq->stop = NULL`; `migrateTask_hideStop` and its kin say that only
  the pick can tell the difference.
- `migrateTasks_ends_iff`: **the loop ends unless RT tasks are left on a throttled run queue**.
- `migrateTasks_evacuates`: what it has done when it ends.

The CPU masks of the tasks are kept beside the system, since nothing else here uses them.
-/

namespace LinuxWrr

/-- The system and `cpus_allowed` of every task, in the order of the mask. -/
structure Hotplug where
  sys : System
  cpusAllowed : Pid → List Cpu

/-- The masks that do not change meanwhile, and what the cpuset code would allow a task. -/
structure CpuMasks where
  /-- `cpumask_of_node(cpu_to_node(cpu))`. -/
  node : Cpu → List Cpu
  possible : List Cpu
  online : Cpu → Bool
  active : Cpu → Bool
  /-- What `cpuset_cpus_allowed_fallback` allows. -/
  cpuset : Pid → List Cpu

/-- `do_set_cpus_allowed`. -/
def Hotplug.doSetCpusAllowed (h : Hotplug) (p : Pid) (mask : List Cpu) : Hotplug :=
  { h with cpusAllowed := Function.update h.cpusAllowed p mask }

/-- "Any allowed, online CPU?" -/
def CpuMasks.anyAllowed (m : CpuMasks) (mask : List Cpu) : Option Cpu :=
  mask.find? fun d => m.online d && m.active d

/-- `select_fallback_rq`; `none` is its `BUG()`. -/
def selectFallbackRq (m : CpuMasks) (h : Hotplug) (cpu : Cpu) (p : Pid) : Option (Cpu × Hotplug) :=
  -- "Look for allowed, online CPU in same node."
  match (m.node cpu).find? fun d => m.online d && m.active d && d ∈ h.cpusAllowed p with
  | some d => some (d, h)
  | none =>
    match m.anyAllowed (h.cpusAllowed p) with
    | some d => some (d, h)
    | none =>
      -- "No more Mr. Nice Guy."
      let h := h.doSetCpusAllowed p (m.cpuset p)
      match m.anyAllowed (h.cpusAllowed p) with
      | some d => some (d, h)
      | none =>
        let h := h.doSetCpusAllowed p m.possible
        match m.anyAllowed (h.cpusAllowed p) with
        | some d => some (d, h)
        | none => none

variable (cfg : Config)

/-- `__migrate_task`, with the tests before it moves the task. -/
def migrateTaskTo (m : CpuMasks) (h : Hotplug) (p : Pid) (src dest : Cpu) (o : Outside) : Hotplug :=
  if ¬m.active dest then h
  -- "Already moved."
  else if (h.sys.task p).cpu ≠ src then h
  -- "Affinity changed (again)."
  else if dest ∉ h.cpusAllowed p then h
  else { h with sys := migrateTask cfg h.sys p dest o }

/-- `rq->stop = NULL`. -/
def System.hideStop (s : System) (c : Cpu) : System := s.updRq c fun r => { r with stop := none }

/-- One turn of the loop of `migrate_tasks`. It leaves with the new state, or with `none` on a
`BUG`; `o` is what the code outside the repository does in a given system. -/
def migrateBody (m : CpuMasks) (dead : Cpu) (o : System → Outside) (h : Hotplug) :
    Hotplug ⊕ Option Hotplug :=
  -- "bail when that's the only remaining thread"
  if (h.sys.rq dead).nrRunning = 1 then .inr (some h)
  else
    match pickNextTask cfg h.sys dead (o h.sys) with
    | (none, _) => .inr none
    | (some next, s) =>
      let h := { h with sys := putPrevTask cfg s dead next }
      match selectFallbackRq m h dead next with
      | none => .inr none
      | some (dest, h) => .inl (migrateTaskTo cfg m h next dead dest (o s))

/-- `migrate_tasks` for at most `fuel` turns: `rq->stop` is put back at the end. -/
def migrateTasks (m : CpuMasks) (dead : Cpu) (o : System → Outside) (fuel : Nat) (h : Hotplug) :
    Option (Option Hotplug) :=
  let stop := (h.sys.rq dead).stop
  (Loop.run (migrateBody cfg m dead o) fuel { h with sys := h.sys.hideStop dead }).map fun r =>
    r.map fun h => { h with sys := h.sys.updRq dead fun r => { r with stop := stop } }

/-! ## Only the pick looks at the stop task -/

section Hide

variable {cfg} {s t : System} {c d : Cpu} {p : Pid}

@[simp] theorem hideStop_task : (s.hideStop d).task = s.task := rfl
@[simp] theorem hideStop_se : (s.hideStop d).se = s.se := rfl
@[simp] theorem hideStop_needResched : (s.hideStop d).needResched = s.needResched := rfl

/-- Hiding the stop task writes one field of one queue. -/
theorem hideStop_rq (c : Cpu) :
    (s.hideStop d).rq c = if c = d then { s.rq c with stop := none } else s.rq c := by
  by_cases h : c = d
  · subst h
    simp [System.hideStop]
  · simp [System.hideStop, h]

/-- A field of the run queue that does not read `stop`. -/
theorem hideStop_field {α : Type} (f : Rq → α) (hf : ∀ r, f { r with stop := none } = f r) (c : Cpu) :
    f ((s.hideStop d).rq c) = f (s.rq c) := by
  rw [hideStop_rq]
  split
  · exact hf _
  · rfl

@[simp] theorem hideStop_wrr : ((s.hideStop d).rq c).wrr = (s.rq c).wrr :=
  hideStop_field Rq.wrr (fun _ => rfl) c
@[simp] theorem hideStop_rt : ((s.hideStop d).rq c).rt = (s.rq c).rt :=
  hideStop_field Rq.rt (fun _ => rfl) c
@[simp] theorem hideStop_cfs : ((s.hideStop d).rq c).cfs = (s.rq c).cfs :=
  hideStop_field Rq.cfs (fun _ => rfl) c
@[simp] theorem hideStop_curr : ((s.hideStop d).rq c).curr = (s.rq c).curr :=
  hideStop_field Rq.curr (fun _ => rfl) c
@[simp] theorem hideStop_idle : ((s.hideStop d).rq c).idle = (s.rq c).idle :=
  hideStop_field Rq.idle (fun _ => rfl) c
@[simp] theorem hideStop_clock : ((s.hideStop d).rq c).clockTask = (s.rq c).clockTask :=
  hideStop_field Rq.clockTask (fun _ => rfl) c
@[simp] theorem hideStop_nrRunning : ((s.hideStop d).rq c).nrRunning = (s.rq c).nrRunning :=
  hideStop_field Rq.nrRunning (fun _ => rfl) c

/-- A run-queue write that neither reads nor writes `stop`. -/
theorem hideStop_updRq {f : Rq → Rq} (hf : ∀ r, f { r with stop := none } = { f r with stop := none }) :
    (s.hideStop d).updRq c f = (s.updRq c f).hideStop d := by
  have hrq : ((s.hideStop d).updRq c f).rq = ((s.updRq c f).hideStop d).rq := by
    funext k
    rw [hideStop_rq]
    by_cases hk : k = c
    · subst hk
      rw [System.updRq_rq, System.updRq_rq, Function.update_self, Function.update_self, hideStop_rq]
      split
      · exact hf _
      · rfl
    · rw [System.updRq_rq, System.updRq_rq, Function.update_of_ne hk, Function.update_of_ne hk,
        hideStop_rq]
  show ({ s with rq := _ } : System) = { s with rq := _ }
  exact congrArg (fun rq => ({ s with rq := rq } : System)) hrq

theorem hideStop_setWrr (w : WrrRq) : (s.hideStop d).setWrr c w = (s.setWrr c w).hideStop d :=
  hideStop_updRq fun _ => rfl

theorem hideStop_setRt (rt : RtRq) : (s.hideStop d).setRt c rt = (s.setRt c rt).hideStop d :=
  hideStop_updRq fun _ => rfl

theorem hideStop_setCfs (f : CfsRq) : (s.hideStop d).setCfs c f = (s.setCfs c f).hideStop d :=
  hideStop_updRq fun _ => rfl

theorem hideStop_incNrRunning : (s.hideStop d).incNrRunning c = (s.incNrRunning c).hideStop d :=
  hideStop_updRq fun _ => rfl

theorem hideStop_decNrRunning : (s.hideStop d).decNrRunning c = (s.decNrRunning c).hideStop d :=
  hideStop_updRq fun _ => rfl

theorem hideStop_updTask (f : Task → Task) :
    (s.hideStop d).updTask p f = (s.updTask p f).hideStop d := rfl

theorem hideStop_setTskNeedResched :
    (s.hideStop d).setTskNeedResched p = (s.setTskNeedResched p).hideStop d := rfl

theorem hideStop_reschedCurr : (s.hideStop d).reschedCurr c = (s.reschedCurr c).hideStop d := by
  unfold System.reschedCurr
  rw [hideStop_curr, hideStop_setTskNeedResched]

theorem hideStop_startExec : (s.hideStop d).startExec c p = (s.startExec c p).hideStop d := by
  unfold System.startExec
  rw [hideStop_clock]
  rfl

theorem hideStop_chargeCurr : (s.hideStop d).chargeCurr c = (s.chargeCurr c).hideStop d := by
  unfold System.chargeCurr
  rw [hideStop_clock, hideStop_curr]
  rfl

theorem hideStop_updateCurrWrr : updateCurrWrr (s.hideStop d) c = (updateCurrWrr s c).hideStop d := by
  unfold updateCurrWrr
  rw [hideStop_curr, hideStop_task, hideStop_chargeCurr]
  split <;> rfl

theorem hideStop_updateCurrRt :
    Rt.updateCurrRt (s.hideStop d) c = (Rt.updateCurrRt s c).hideStop d := by
  unfold Rt.updateCurrRt
  rw [hideStop_curr, hideStop_task, hideStop_chargeCurr]
  split <;> rfl

theorem hideStop_dequeueRtStack :
    Rt.dequeueRtStack (s.hideStop d) p = (Rt.dequeueRtStack s p).hideStop d := by
  have hon : Rt.onRtRq (s.hideStop d) p = Rt.onRtRq s p := by
    rw [Rt.onRtRq, hideStop_rt]
    rfl
  rw [Rt.dequeueRtStack, Rt.dequeueRtStack, hon]
  split
  · simp only [Rt.dequeueRtEntity, hideStop_task, hideStop_rt, hideStop_setRt]
  · rfl

theorem hideStop_enqueueTask (flags : Nat) :
    enqueueTask cfg (s.hideStop d) c p flags = (enqueueTask cfg s c p flags).hideStop d := by
  rw [enqueueTask, enqueueTask, hideStop_task]
  cases (s.task p).schedClass with
  | stop => exact hideStop_incNrRunning
  | rt =>
    show Rt.enqueueTaskRt (s.hideStop d) c p flags = (Rt.enqueueTaskRt s c p flags).hideStop d
    simp only [Rt.enqueueTaskRt, hideStop_dequeueRtStack, Rt.enqueueRtEntity, hideStop_task,
      hideStop_rt, hideStop_setRt, hideStop_incNrRunning]
  | wrr =>
    show (wrrSchedClass cfg).enqueueTask (s.hideStop d) c p flags =
      ((wrrSchedClass cfg).enqueueTask s c p flags).hideStop d
    simp only [wrrSchedClass_enqueueTask, WrrCommon.enqueueTaskWrr, WrrCommon.enqueueWrrEntity,
      hideStop_task, hideStop_wrr, hideStop_setWrr, hideStop_incNrRunning]
  | fair =>
    show fairSchedClass.enqueueTask (s.hideStop d) c p flags =
      (fairSchedClass.enqueueTask s c p flags).hideStop d
    simp only [fairSchedClass, hideStop_cfs, hideStop_setCfs, hideStop_incNrRunning]
  | idle => rfl

theorem hideStop_dequeueTask :
    dequeueTask cfg (s.hideStop d) c p = (dequeueTask cfg s c p).hideStop d := by
  rw [dequeueTask, dequeueTask, hideStop_task]
  cases (s.task p).schedClass with
  | stop => exact hideStop_decNrRunning
  | rt =>
    show Rt.dequeueTaskRt (s.hideStop d) c p = (Rt.dequeueTaskRt s c p).hideStop d
    simp only [Rt.dequeueTaskRt, hideStop_updateCurrRt, hideStop_dequeueRtStack,
      hideStop_decNrRunning]
  | wrr =>
    show (wrrSchedClass cfg).dequeueTask (s.hideStop d) c p =
      ((wrrSchedClass cfg).dequeueTask s c p).hideStop d
    simp only [wrrSchedClass_dequeueTask, WrrCommon.dequeueTaskWrr, hideStop_updateCurrWrr,
      WrrCommon.dequeueWrrEntity, hideStop_task, hideStop_wrr, hideStop_setWrr, hideStop_decNrRunning]
  | fair =>
    show fairSchedClass.dequeueTask (s.hideStop d) c p = (fairSchedClass.dequeueTask s c p).hideStop d
    simp only [fairSchedClass, hideStop_cfs, hideStop_setCfs, hideStop_decNrRunning]
  | idle => rfl

theorem hideStop_putPrevTask :
    putPrevTask cfg (s.hideStop d) c p = (putPrevTask cfg s c p).hideStop d := by
  rw [putPrevTask, putPrevTask, hideStop_task]
  cases (s.task p).schedClass with
  | rt => exact hideStop_updateCurrRt
  | wrr =>
    show (wrrSchedClass cfg).putPrevTask (s.hideStop d) c p =
      ((wrrSchedClass cfg).putPrevTask s c p).hideStop d
    rw [wrrSchedClass_putPrevTask, wrrSchedClass_putPrevTask, hideStop_updateCurrWrr]
  | stop | fair | idle => rfl

theorem hideStop_requeueTaskRt (head : Bool) :
    Rt.requeueTaskRt (s.hideStop d) p head = (Rt.requeueTaskRt s p head).hideStop d := by
  have hon : Rt.onRtRq (s.hideStop d) p = Rt.onRtRq s p := by
    rw [Rt.onRtRq, hideStop_rt]
    rfl
  rw [Rt.requeueTaskRt, Rt.requeueTaskRt, hon]
  split
  · simp only [hideStop_task, hideStop_rt, hideStop_setRt]
  · rfl

theorem hideStop_checkPreemptCurr (o : Outside) :
    checkPreemptCurr cfg (s.hideStop d) c p o = (checkPreemptCurr cfg s c p o).hideStop d := by
  have hite : ∀ {P : Prop} [Decidable P] {a b : System},
      (if P then a.hideStop d else b.hideStop d) = (if P then a else b).hideStop d := by
    intro P _ a b
    split <;> rfl
  rw [checkPreemptCurr, checkPreemptCurr]
  rw [hideStop_curr, hideStop_task, hideStop_reschedCurr, hite]
  split
  · cases (s.task (s.rq c).curr).schedClass with
    | stop => rfl
    | rt =>
      show Rt.checkPreemptCurrRt cfg (s.hideStop d) c p o =
        (Rt.checkPreemptCurrRt cfg s c p o).hideStop d
      simp only [Rt.checkPreemptCurrRt, hideStop_curr, hideStop_task, hideStop_needResched,
        hideStop_requeueTaskRt, hideStop_reschedCurr, hite]
    | wrr =>
      show (wrrSchedClass cfg).checkPreemptCurr (s.hideStop d) c p o =
        ((wrrSchedClass cfg).checkPreemptCurr s c p o).hideStop d
      unfold wrrSchedClass
      cases cfg.wrr with
      | basic =>
        show Basic.checkPreemptCurrWrr (s.hideStop d) c p =
          (Basic.checkPreemptCurrWrr s c p).hideStop d
        simp only [Basic.checkPreemptCurrWrr, hideStop_curr, hideStop_task, hideStop_reschedCurr,
          hite]
      | rmlfq =>
        show Rmlfq.checkPreemptCurrWrr (s.hideStop d) c p =
          (Rmlfq.checkPreemptCurrWrr s c p).hideStop d
        simp only [Rmlfq.checkPreemptCurrWrr, hideStop_curr, hideStop_task, hideStop_reschedCurr,
          hite]
    | fair =>
      show fairHook (s.hideStop d) c o = (fairHook s c o).hideStop d
      rw [fairHook, hideStop_reschedCurr, hite]
      rfl
    | idle =>
      show (s.hideStop d).setTskNeedResched ((s.hideStop d).rq c).idle =
        (s.setTskNeedResched (s.rq c).idle).hideStop d
      rw [hideStop_idle]
      rfl
  · rfl

theorem hideStop_migrateTask (dest : Cpu) (o : Outside) :
    migrateTask cfg (s.hideStop d) p dest o = (migrateTask cfg s p dest o).hideStop d := by
  rw [migrateTask, migrateTask]
  dsimp only
  rw [hideStop_task, hideStop_dequeueTask, hideStop_updTask, hideStop_enqueueTask,
    hideStop_checkPreemptCurr]
  split <;> rfl

/-- No class but the stop class looks at the stop task. -/
theorem hideStop_classPick (o : Outside) {k : ClassId} (hk : k ≠ .stop) :
    (schedClassOf cfg k).pickNextTask (s.hideStop d) c o =
      (((schedClassOf cfg k).pickNextTask s c o).1,
        ((schedClassOf cfg k).pickNextTask s c o).2.hideStop d) := by
  cases k with
  | stop => exact absurd rfl hk
  | rt =>
    show Rt.pickNextTaskRt (s.hideStop d) c = _
    simp only [schedClassOf, Rt.rtSchedClass, Rt.pickNextTaskRt, hideStop_rt, hideStop_startExec]
    split
    · rfl
    · split
      · rfl
      · split <;> rfl
  | wrr =>
    show (wrrSchedClass cfg).pickNextTask (s.hideStop d) c o = _
    simp only [schedClassOf, wrrSchedClass_pick, pickNextTaskWrr, hideStop_wrr, hideStop_startExec]
    split
    · rfl
    · split <;> rfl
  | fair => rfl
  | idle =>
    show (some ((s.hideStop d).rq c).idle, s.hideStop d) = _
    rw [hideStop_idle]
    rfl

/-- Without the stop class a pick does not see whether the stop task is hidden. -/
theorem hideStop_pickFrom (o : Outside) {ks : List ClassId} (hks : ∀ k ∈ ks, k ≠ .stop) :
    pickFrom cfg c o ks (s.hideStop d) =
      ((pickFrom cfg c o ks s).1, (pickFrom cfg c o ks s).2.hideStop d) := by
  induction ks generalizing s with
  | nil => rfl
  | cons k ks ih =>
    have hrest := fun k' hk' => hks k' (List.mem_cons_of_mem k hk')
    rw [pickFrom, pickFrom, hideStop_classPick o (hks k List.mem_cons_self)]
    obtain ⟨q, t⟩ := (schedClassOf cfg k).pickNextTask s c o
    cases q with
    | none => exact ih hrest
    | some q => rfl

end Hide

/-! ## The pick without the stop task -/

variable {cfg} {s t : System} {c d : Cpu} {p q : Pid} {o : Outside}

/-- The stop task of `c` is queued. -/
def System.StopQueued (s : System) (c : Cpu) : Prop :=
  ∃ p, (s.rq c).stop = some p ∧ (s.task p).onRq = true

/-- Besides the stop task, `nr_running` counts what the other classes have queued. -/
theorem Inv.nr_stopQueued (h : Inv cfg s) (hstop : s.StopQueued c) : (s.rq c).nrRunning =
    1 + (s.rq c).rt.rtNrRunning + (s.rq c).wrr.wrrNrRunning + (s.rq c).cfs.tasks.length := by
  obtain ⟨p, hp, hon⟩ := hstop
  obtain ⟨-, hk, hc⟩ := (h.stop c p).mp hp
  have hq : levelAt (s.slots cfg) .stop c p ≠ none := levelAt_slots_ne_none.mpr ⟨hon, hk, hc⟩
  rw [(h.rep c).nr, hp]
  simp [stopNr, hq]

/-- The counters of the RT and the WRR queue are not negative. -/
theorem Inv.counts_nonneg (h : Inv cfg s) (c : Cpu) :
    0 ≤ (s.rq c).rt.rtNrRunning ∧ 0 ≤ (s.rq c).wrr.wrrNrRunning := by
  rw [(h.rep c).rt.nr, (h.rep c).wrr.nr]
  exact ⟨Int.natCast_nonneg _, Int.natCast_nonneg _⟩

/-- A task that `migrate_tasks` has to move: queued on `c`, and not the stop task. -/
def System.Evacuee (s : System) (c : Cpu) (p : Pid) : Prop :=
  ∃ k, k ≠ .stop ∧ s.Queued k c p

/-- Only the stop task is left exactly when nobody has to be moved. -/
theorem Inv.nr_eq_one_iff (h : Inv cfg s) (hstop : s.StopQueued c) :
    (s.rq c).nrRunning = 1 ↔ ∀ p, ¬s.Evacuee c p := by
  have hnr := h.nr_stopQueued hstop
  obtain ⟨hrt, hwrr⟩ := h.counts_nonneg c
  have hcfs : (s.rq c).cfs.tasks.length = 0 ↔ ∀ p, ¬s.Queued .fair c p :=
    (h.rep c).cfs.nr_eq_zero_iff.trans levelAt_slots_none
  constructor
  · rintro hone p ⟨k, hk, hq⟩
    cases k with
    | stop => exact hk rfl
    | rt => exact h.rtNr_eq_zero_iff.mp (by omega) p hq
    | wrr => exact h.wrrNr_eq_zero_iff.mp (by omega) p hq
    | fair => exact hcfs.mp (by omega) p hq
    | idle =>
      have hoff := h.idleOff p hq.2.1
      rw [hq.1] at hoff
      cases hoff
  · intro hnone
    have h1 := h.rtNr_eq_zero_iff.mpr fun p hq => hnone p ⟨.rt, by decide, hq⟩
    have h2 := h.wrrNr_eq_zero_iff.mpr fun p hq => hnone p ⟨.wrr, by decide, hq⟩
    have h3 := hcfs.mpr fun p hq => hnone p ⟨.fair, by decide, hq⟩
    omega

/-- The loop over the classes after the stop class. -/
theorem Inv.pickFrom_rest (h : Inv cfg s) (ho : s.FairPickOk c o) {ks : List ClassId}
    (hks : ks.Pairwise fun a b => b.precedes a = false) (hidle : .idle ∈ ks)
    (hall : ∀ k p, s.Eligible k c p → k ≠ .stop → k ∈ ks) (hstop : ∀ k ∈ ks, k ≠ .stop) :
    ∃ q t, pickFrom cfg c o ks s = (some q, t) ∧
      ((∃ k, k ≠ .stop ∧ s.Eligible k c q) ∨
        q = (s.rq c).idle ∧ ∀ k p, k ≠ .stop → ¬s.Eligible k c p) := by
  induction ks with
  | nil => cases hidle
  | cons k ks ih =>
    have hk := hstop k List.mem_cons_self
    by_cases hsome : ∃ p, s.Eligible k c p
    · obtain ⟨p, hp⟩ := hsome
      obtain ⟨q, t, hpick, hq, -⟩ := h.classPick_some ho hp
      exact ⟨q, t, pickFrom_of_some hpick ks, .inl ⟨k, hk, hq⟩⟩
    · have hnone : ∀ p, ¬s.Eligible k c p := fun p hp => hsome ⟨p, hp⟩
      by_cases hlast : k = .idle
      · subst hlast
        refine ⟨(s.rq c).idle, s, pickFrom_of_some rfl ks, .inr ⟨rfl, fun k' p hk' hp => ?_⟩⟩
        -- no other class comes after the idle class
        rcases List.mem_cons.mp (hall k' p hp hk') with rfl | hmem
        · exact hnone p hp
        · have hlater := List.rel_of_pairwise_cons hks hmem
          cases k' with
          | idle => exact hnone p hp
          | stop | rt | wrr | fair => exact absurd hlater (by decide)
      · have hskip : (schedClassOf cfg k).pickNextTask s c o = (none, s) := by
          by_cases hfair : k = .fair
          · subst hfair
            exact Inv.fairPick_none ho hnone
          · exact h.classPick_none hfair hlast hnone
        rw [pickFrom_of_none hskip]
        refine ih hks.of_cons ((List.mem_cons.mp hidle).resolve_left (Ne.symm hlast)) ?_
          fun k' hk' => hstop k' (List.mem_cons_of_mem k hk')
        intro k' p hp hk'
        refine (List.mem_cons.mp (hall k' p hp hk')).resolve_left fun heq => ?_
        subst heq
        exact hnone p hp

/-- The pick of `migrate_tasks`: an evacuee, or the idle task if no class has one to offer. -/
theorem Inv.pick_hideStop (h : Inv cfg s) (hstop : s.StopQueued c) (ho : s.FairPickOk c o) :
    ∃ q t, pickNextTask cfg (s.hideStop c) c o = (some q, t.hideStop c) ∧ PickOnly s t ∧
      ((∃ k, k ≠ .stop ∧ s.Eligible k c q) ∨
        q = (s.rq c).idle ∧ ∀ k p, k ≠ .stop → ¬s.Eligible k c p) := by
  have hrest : ∀ k ∈ [ClassId.rt, .wrr, .fair, .idle], k ≠ .stop := by decide
  have hall : ∀ k p, s.Eligible k c p → k ≠ .stop → k ∈ [ClassId.rt, .wrr, .fair, .idle] := by
    intro k p _ hk
    cases k with
    | stop => exact absurd rfl hk
    | rt | wrr | fair | idle => decide
  obtain ⟨q, t, hpick, hq⟩ := h.pickFrom_rest ho (by decide) (by decide) hall hrest
  have honly := pickFrom_only cfg c o [.rt, .wrr, .fair, .idle] s
  rw [hpick] at honly
  refine ⟨q, t, ?_, honly, hq⟩
  -- the stop task is counted, so that the shortcut is not taken
  have hnr := h.nr_stopQueued hstop
  obtain ⟨hrt, hwrr⟩ := h.counts_nonneg c
  have hcfs := (h.rep c).cfs.nr
  have hslow : ¬((s.hideStop c).rq c).nrRunning = ((s.hideStop c).rq c).cfs.hNrRunning := by
    rw [hideStop_nrRunning, hideStop_cfs]
    omega
  have hnostop : (schedClassOf cfg .stop).pickNextTask (s.hideStop c) c o = (none, s.hideStop c) := by
    have hnull : ((s.hideStop c).rq c).stop = none := by
      rw [hideStop_rq, if_pos rfl]
    simp only [schedClassOf, stopSchedClass, hnull]
  rw [pickNextTask, if_neg hslow, forEachClass, pickFrom_of_none hnostop,
    hideStop_pickFrom o hrest, hpick]

/-! ## Finding a CPU -/

section Fallback

variable {m : CpuMasks} {h h' : Hotplug} {mask : List Cpu}

/-- The CPU that is found is allowed, online and active. -/
theorem anyAllowed_some (hd : m.anyAllowed mask = some d) :
    d ∈ mask ∧ m.online d = true ∧ m.active d = true := by
  have hmem := List.mem_of_find?_eq_some hd
  have hprop := List.find?_some hd
  rw [Bool.and_eq_true] at hprop
  exact ⟨hmem, hprop⟩

/-- Without an answer no allowed CPU is online and active. -/
theorem anyAllowed_none (hd : m.anyAllowed mask = none) :
    ∀ d ∈ mask, ¬(m.online d = true ∧ m.active d = true) := by
  intro d hmem hprop
  have hno := List.find?_eq_none.mp hd d hmem
  rw [Bool.and_eq_true] at hno
  exact hno hprop

@[simp] theorem doSetCpusAllowed_self : (h.doSetCpusAllowed p mask).cpusAllowed p = mask :=
  Function.update_self _ _ _

/-- Setting the mask of a task leaves the other masks alone. -/
theorem doSetCpusAllowed_other (hq : q ≠ p) :
    (h.doSetCpusAllowed p mask).cpusAllowed q = h.cpusAllowed q := Function.update_of_ne hq _ _

/-- What `select_fallback_rq` has found for `p`, the masks being `a` before and `b` after. -/
structure Fallback (m : CpuMasks) (a b : Pid → List Cpu) (p : Pid) (d : Cpu) : Prop where
  live : m.online d = true ∧ m.active d = true
  allowed : d ∈ b p
  others : ∀ q, q ≠ p → b q = a q
  /-- The mask is overruled only if it has no live CPU. -/
  kept : b p = a p ∨ ∀ d ∈ a p, ¬(m.online d = true ∧ m.active d = true)

/-- `select_fallback_rq` finds a live CPU, as long as there is one. -/
theorem selectFallbackRq_spec (hlive : ∃ d ∈ m.possible, m.online d = true ∧ m.active d = true)
    (h : Hotplug) (c : Cpu) (p : Pid) : ∃ d h', selectFallbackRq m h c p = some (d, h') ∧
      h'.sys = h.sys ∧ Fallback m h.cpusAllowed h'.cpusAllowed p d := by
  unfold selectFallbackRq
  cases hnode : (m.node c).find? fun d => m.online d && m.active d && d ∈ h.cpusAllowed p with
  | some d =>
    have hprop := List.find?_some hnode
    simp only [Bool.and_eq_true, decide_eq_true_eq] at hprop
    exact ⟨d, h, rfl, rfl, hprop.1, hprop.2, fun _ _ => rfl, .inl rfl⟩
  | none =>
    dsimp only
    cases hany : m.anyAllowed (h.cpusAllowed p) with
    | some d =>
      obtain ⟨hmem, hd⟩ := anyAllowed_some hany
      exact ⟨d, h, rfl, rfl, hd, hmem, fun _ _ => rfl, .inl rfl⟩
    | none =>
      have hnone := anyAllowed_none hany
      dsimp only
      rw [doSetCpusAllowed_self]
      cases hcpuset : m.anyAllowed (m.cpuset p) with
      | some d =>
        obtain ⟨hmem, hd⟩ := anyAllowed_some hcpuset
        refine ⟨d, _, rfl, rfl, hd, ?_, fun q hq => doSetCpusAllowed_other hq, .inr hnone⟩
        rwa [doSetCpusAllowed_self]
      | none =>
        dsimp only
        rw [doSetCpusAllowed_self]
        cases hpossible : m.anyAllowed m.possible with
        | some d =>
          obtain ⟨hmem, hd⟩ := anyAllowed_some hpossible
          refine ⟨d, _, rfl, rfl, hd, ?_, fun q hq => ?_, .inr hnone⟩
          · rwa [doSetCpusAllowed_self]
          · rw [doSetCpusAllowed_other hq, doSetCpusAllowed_other hq]
        | none =>
          obtain ⟨d, hmem, hd⟩ := hlive
          exact absurd hd (anyAllowed_none hpossible d hmem)

end Fallback

/-! ## Turns of the loop -/

/-- One turn of the loop that does not leave. -/
structure Turn (cfg : Config) (m : CpuMasks) (c : Cpu) (s : System) (h : Hotplug) (t : System)
    (h' : Hotplug) : Prop where
  inv : Inv cfg t
  hidden : h'.sys = t.hideStop c
  frame : Frame s t
  /-- An evacuee is moved; or the idle task is picked, and it stays. -/
  moved : (∃ q d, (∃ k, k ≠ .stop ∧ s.Eligible k c q) ∧
      Fallback m h.cpusAllowed h'.cpusAllowed q d ∧
      t.task = Function.update s.task q { s.task q with cpu := d }) ∨
    t.task = s.task ∧ ∀ k p, k ≠ .stop → ¬s.Eligible k c p

section Turns

variable {m : CpuMasks} {a h h' : Hotplug} {os : System → Outside}

/-- A turn of the evacuation takes nobody off a queue for good. -/
theorem Turn.onRq (hturn : Turn cfg m c s h t h') (p : Pid) : (t.task p).onRq = (s.task p).onRq := by
  obtain ⟨q, d, -, -, htask⟩ | ⟨htask, -⟩ := hturn.moved
  · rw [htask]
    by_cases hq : p = q
    · rw [hq, Function.update_self]
    · rw [Function.update_of_ne hq]
  · rw [htask]

/-- A turn leaves the stop task queued. -/
theorem Turn.stopQueued (hturn : Turn cfg m c s h t h') (hstop : s.StopQueued c) :
    t.StopQueued c := by
  obtain ⟨p, hp, hon⟩ := hstop
  exact ⟨p, (hturn.frame.stop c).trans hp, (hturn.onRq p).trans hon⟩

/-- Whoever is to be evacuated is an ordinary task. -/
theorem Inv.ordinary_of_evacuee (h : Inv cfg s) (hp : s.Evacuee c p) : s.Ordinary p := by
  obtain ⟨k, hk, hon, hclass, -⟩ := hp
  refine h.ordinary_iff.mpr ⟨h.alive_of_onRq hon, fun hidle => ?_, fun hstop => ?_⟩
  · rw [h.idleOff p hidle] at hon
    cases hon
  · exact hk (hclass.symm.trans hstop)

/-- What the body does while other tasks than the stop task are left. -/
theorem Inv.migrateBody_turn (hs : Inv cfg s) (hh : h.sys = s.hideStop c)
    (hstop : s.StopQueued c) (ho : s.FairPickOk c (os (s.hideStop c)))
    (hlive : ∃ d ∈ m.possible, m.online d = true ∧ m.active d = true)
    (hnr : (s.rq c).nrRunning ≠ 1) :
    ∃ t h', migrateBody cfg m c os h = .inl h' ∧ Turn cfg m c s h t h' := by
  obtain ⟨q, t, hpick, honly, hq⟩ := hs.pick_hideStop hstop ho
  -- the pick and put_prev_task leave tasks and run queues alone
  have htask : (putPrevTask cfg t c q).task = s.task :=
    (putPrevTask_task cfg t c q).trans honly.task
  have hrq : (putPrevTask cfg t c q).rq = s.rq := (putPrevTask_rq cfg t c q).trans honly.rq
  have hput : Inv cfg (putPrevTask cfg t c q) := hs.of_rq htask hrq
  have hbody : migrateBody cfg m c os h =
      match selectFallbackRq m { h with sys := (putPrevTask cfg t c q).hideStop c } c q with
      | none => .inr none
      | some (dest, b) => .inl (migrateTaskTo cfg m b q c dest (os (t.hideStop c))) := by
    have hgo : ¬(h.sys.rq c).nrRunning = 1 := by
      rwa [hh, hideStop_nrRunning]
    unfold migrateBody
    rw [if_neg hgo, hh, hpick]
    dsimp only
    rw [hideStop_putPrevTask]
  obtain ⟨d, b, hselect, hsys, hfall⟩ := selectFallbackRq_spec hlive
    { h with sys := (putPrevTask cfg t c q).hideStop c } c q
  rw [hselect] at hbody
  dsimp only at hsys hfall hbody
  have hcpu : (b.sys.task q).cpu = c := by
    rw [hsys, hideStop_task, htask]
    obtain ⟨_, -, hel⟩ | ⟨hidle, -⟩ := hq
    · exact hel.1.2.2
    · exact ((hs.idle c q).mp hidle.symm).2.2
  have hmigrate : migrateTaskTo cfg m b q c d (os (t.hideStop c)) = { b with sys :=
      (migrateTask cfg (putPrevTask cfg t c q) q d (os (t.hideStop c))).hideStop c } := by
    unfold migrateTaskTo
    rw [if_neg (not_not.mpr hfall.live.2), if_neg (not_not.mpr hcpu), if_neg (not_not.mpr hfall.allowed),
      hsys, hideStop_migrateTask]
  refine ⟨migrateTask cfg (putPrevTask cfg t c q) q d (os (t.hideStop c)), _,
    hbody.trans (congrArg Sum.inl hmigrate), ?_⟩
  obtain ⟨k, hk, hel⟩ | ⟨hidle, hnone⟩ := hq
  · have hev : (putPrevTask cfg t c q).Ordinary q :=
      hput.ordinary_of_evacuee ⟨k, hk, (System.queued_congr (congrFun htask q)).mpr hel.1⟩
    have heff := migrateTask_effect cfg (putPrevTask cfg t c q) q d (os (t.hideStop c))
      (by rw [htask]; exact hel.1.1)
    refine ⟨migrateTask_inv hput hev d _, rfl, (Frame.of_rq hrq).trans heff.frame,
      .inl ⟨q, d, ⟨k, hk, hel⟩, hfall, ?_⟩⟩
    rw [heff.task, htask]
  · -- the idle task is on no run queue
    have hoff : ((putPrevTask cfg t c q).task q).onRq = false := by
      rw [htask]
      exact hs.idleOff q ((hs.idle c q).mp hidle.symm).2.1
    have hstay : migrateTask cfg (putPrevTask cfg t c q) q d (os (t.hideStop c)) =
        putPrevTask cfg t c q := by
      unfold migrateTask
      rw [hoff]
      rfl
    rw [hstay]
    exact ⟨hput, rfl, Frame.of_rq hrq, .inr ⟨htask, hnone⟩⟩

/-! ## When the loop ends -/

/-- RT tasks that no pick offers: the run queue is throttled. -/
def System.RtStuck (s : System) (c : Cpu) : Prop :=
  (s.rq c).rt.rtThrottled = true ∧ ∃ p, s.Queued .rt c p

/-- A turn does not unblock a throttled RT queue. -/
theorem Turn.rtStuck (hturn : Turn cfg m c s h t h') (hstuck : s.RtStuck c) : t.RtStuck c := by
  obtain ⟨hthrottled, p, hp⟩ := hstuck
  refine ⟨(hturn.frame.rtThrottled c).trans hthrottled, p, ?_⟩
  have hsame : t.task p = s.task p := by
    obtain ⟨q, d, ⟨k, -, hq⟩, -, htask⟩ | ⟨htask, -⟩ := hturn.moved
    · have hne : p ≠ q := by
        rintro rfl
        have hk : k = .rt := hq.1.2.1.symm.trans hp.2.1
        rw [hq.2 hk] at hthrottled
        cases hthrottled
      rw [htask, Function.update_of_ne hne]
    · rw [htask]
  exact (System.queued_congr hsame).mpr hp

/-- Not stuck, some class offers a task as long as an evacuee is left. -/
theorem System.eligible_of_evacuee (hfree : ¬s.RtStuck c) (hp : s.Evacuee c p) :
    ∃ k, k ≠ .stop ∧ s.Eligible k c p := by
  obtain ⟨k, hk, hq⟩ := hp
  refine ⟨k, hk, hq, fun hrt => ?_⟩
  subst hrt
  cases hthrottled : (s.rq c).rt.rtThrottled with
  | true => exact absurd ⟨hthrottled, p, hq⟩ hfree
  | false => rfl

/-- The queues of `c` hold finitely many tasks. -/
theorem Inv.evacuees_finite (h : Inv cfg s) (c : Cpu) : {p | s.Evacuee c p}.Finite := by
  refine (Multiset.finite_toSet (((List.range maxRtPrio).flatMap (s.rq c).rt.active.queue ++
    (List.range maxWrrPrio).flatMap (s.rq c).wrr.active.queue ++
    (s.rq c).cfs.tasks : List Pid) : Multiset Pid)).subset ?_
  rintro p ⟨k, hk, hq⟩
  simp only [Multiset.mem_coe, List.mem_append, List.mem_flatMap, List.mem_range, Set.mem_ofPred_eq]
  cases k with
  | stop => exact absurd rfl hk
  | rt =>
    have hlt := (h.rep c).rt.active.level_lt p _ (levelAt_slots.mpr ⟨hq, rfl⟩)
    refine .inl (.inl ⟨_, hlt, h.mem_rt_iff.mpr ⟨hq, ?_⟩⟩)
    rw [seLevel, hq.2.1]
  | wrr =>
    have hlt := (h.rep c).wrr.active.level_lt p _ (levelAt_slots.mpr ⟨hq, rfl⟩)
    refine .inl (.inr ⟨_, hlt, h.mem_wrr_iff.mpr ⟨hq, ?_⟩⟩)
    rw [seLevel, hq.2.1]
  | fair => exact .inr (h.mem_cfs_iff.mpr hq)
  | idle =>
    have hoff := h.idleOff p hq.2.1
    rw [hq.1] at hoff
    cases hoff

/-- A task that was queued on the dead CPU, after its move: the tasks are now `task`, their
masks `allowed`. -/
structure Placed (m : CpuMasks) (c : Cpu) (a : Hotplug) (task : Pid → Task)
    (allowed : Pid → List Cpu) (p : Pid) : Prop where
  evacuee : a.sys.Evacuee c p
  dest : ∃ d, (m.online d = true ∧ m.active d = true) ∧ d ∈ allowed p ∧
    task p = { a.sys.task p with cpu := d }
  kept : allowed p = a.cpusAllowed p ∨
    ∀ d ∈ a.cpusAllowed p, ¬(m.online d = true ∧ m.active d = true)

/-- Where the loop is: every task is as it was, or has been moved. -/
structure Evacuating (cfg : Config) (m : CpuMasks) (c : Cpu) (a : Hotplug) (s : System)
    (h : Hotplug) : Prop where
  inv : Inv cfg s
  hidden : h.sys = s.hideStop c
  stop : s.StopQueued c
  free : ¬s.RtStuck c
  frame : Frame a.sys s
  tasks : ∀ p, s.task p = a.sys.task p ∧ h.cpusAllowed p = a.cpusAllowed p ∨
    Placed m c a s.task h.cpusAllowed p

/-- A turn moves one task that was to be evacuated and brings none in. -/
theorem Evacuating.turn (hev : Evacuating cfg m c a s h) (hdead : m.active c = false)
    (hturn : Turn cfg m c s h t h') (hnr : (s.rq c).nrRunning ≠ 1) :
    Evacuating cfg m c a t h' ∧ (∀ p, t.Evacuee c p → s.Evacuee c p) ∧
      ∃ p, s.Evacuee c p ∧ ¬t.Evacuee c p := by
  obtain ⟨p, hp⟩ : ∃ p, s.Evacuee c p := by
    by_contra hnone
    exact hnr ((hev.inv.nr_eq_one_iff hev.stop).mpr (not_exists.mp hnone))
  obtain ⟨q, d, ⟨k, hk, hq⟩, hfall, htask⟩ | ⟨-, hnone⟩ := hturn.moved
  · have hself : t.task q = { s.task q with cpu := d } := by
      rw [htask, Function.update_self]
    have hother : ∀ r, r ≠ q → t.task r = s.task r := fun r hr => by
      rw [htask, Function.update_of_ne hr]
    have hgone : ¬t.Evacuee c q := by
      rintro ⟨_, -, -, -, hcpu⟩
      rw [hself] at hcpu
      have hd : d = c := hcpu
      rw [← hd, hfall.live.2] at hdead
      cases hdead
    have hback : ∀ r, t.Evacuee c r → s.Evacuee c r := by
      rintro r ⟨k', hk', hr⟩
      by_cases hrq : r = q
      · subst hrq
        exact absurd ⟨k', hk', hr⟩ hgone
      · exact ⟨k', hk', (System.queued_congr (hother r hrq)).mp hr⟩
    refine ⟨⟨hturn.inv, hturn.hidden, hturn.stopQueued hev.stop, ?_, hev.frame.trans hturn.frame,
      fun r => ?_⟩, hback, q, ⟨k, hk, hq.1⟩, hgone⟩
    · rintro ⟨hthrottled, r, hr⟩
      rw [hturn.frame.rtThrottled] at hthrottled
      obtain ⟨k', hk', hr'⟩ := hback r ⟨.rt, by decide, hr⟩
      have hrt : k' = .rt := hr'.2.1.symm.trans (by
        by_cases hrq : r = q
        · subst hrq
          exact absurd ⟨.rt, by decide, hr⟩ hgone
        · rw [← hother r hrq]
          exact hr.2.1)
      exact hev.free ⟨hthrottled, r, hrt ▸ hr'⟩
    · by_cases hrq : r = q
      · -- it has not been moved before, since it is still on the dead CPU
        subst hrq
        obtain ⟨hsame, hmask⟩ | hplaced := hev.tasks r
        · refine .inr ⟨⟨k, hk, (System.queued_congr hsame).mp hq.1⟩, ⟨d, hfall.live, hfall.allowed, ?_⟩, ?_⟩
          · rw [hself, hsame]
          · rw [← hmask]
            exact hfall.kept
        · obtain ⟨d', hlive', -, hr⟩ := hplaced.dest
          have hcpu : d' = c := by
            have hcpu' := hq.1.2.2
            rw [hr] at hcpu'
            exact hcpu'
          rw [← hcpu, hlive'.2] at hdead
          cases hdead
      · rw [hother r hrq, hfall.others r hrq]
        refine (hev.tasks r).imp_right fun hplaced => ⟨hplaced.evacuee, ?_, ?_⟩
        · rw [hother r hrq, hfall.others r hrq]
          exact hplaced.dest
        · rw [hfall.others r hrq]
          exact hplaced.kept
  · obtain ⟨k, hk, hel⟩ := System.eligible_of_evacuee hev.free hp
    exact absurd hel (hnone k p hk)

/-- What `migrate_tasks` leaves behind: `a` before and `b` after. -/
structure Evacuated (cfg : Config) (m : CpuMasks) (c : Cpu) (a b : Hotplug) : Prop where
  inv : Inv cfg b.sys
  /-- Only the stop task is left. -/
  nrRunning : (b.sys.rq c).nrRunning = 1
  empty : ∀ p, ¬b.sys.Evacuee c p
  frame : Frame a.sys b.sys
  placed : ∀ p, a.sys.Evacuee c p → Placed m c a b.sys.task b.cpusAllowed p
  others : ∀ p, ¬a.sys.Evacuee c p →
    b.sys.task p = a.sys.task p ∧ b.cpusAllowed p = a.cpusAllowed p

/-- The evacuation starts with what is queued on the dying CPU. -/
theorem Evacuating.start (h : Inv cfg a.sys) (hstop : a.sys.StopQueued c)
    (hfree : ¬a.sys.RtStuck c) :
    Evacuating cfg m c a a.sys { a with sys := a.sys.hideStop c } where
  inv := h
  hidden := rfl
  stop := hstop
  free := hfree
  frame := Frame.refl a.sys
  tasks _ := .inl ⟨rfl, rfl⟩

/-- After the last turn the stop task is put back into its queue. -/
theorem Evacuating.finish (hev : Evacuating cfg m c a s h) (hnr : (s.rq c).nrRunning = 1) :
    Evacuated cfg m c a
      { h with sys := h.sys.updRq c fun r => { r with stop := (a.sys.rq c).stop } } := by
  have hback : h.sys.updRq c (fun r => { r with stop := (a.sys.rq c).stop }) = s := by
    have hrq : (h.sys.updRq c fun r => { r with stop := (a.sys.rq c).stop }).rq = s.rq := by
      funext k
      rw [hev.hidden, System.updRq_rq]
      by_cases hk : k = c
      · subst hk
        rw [Function.update_self, hideStop_rq, if_pos rfl, ← hev.frame.stop]
      · rw [Function.update_of_ne hk, hideStop_rq, if_neg hk]
    rw [hev.hidden] at hrq ⊢
    exact congrArg (fun rq => ({ s with rq := rq } : System)) hrq
  have hempty := (hev.inv.nr_eq_one_iff hev.stop).mp hnr
  rw [hback]
  refine ⟨hev.inv, hnr, hempty, hev.frame, fun p hp => ?_, fun p hp => ?_⟩
  · refine (hev.tasks p).resolve_left fun hsame => ?_
    obtain ⟨k, hk, hq⟩ := hp
    exact hempty p ⟨k, hk, (System.queued_congr hsame.1).mpr hq⟩
  · exact (hev.tasks p).resolve_right fun hplaced => hp hplaced.evacuee

/-- The loop runs dry: the measure is the number of tasks left. -/
theorem Evacuating.ends (hev : Evacuating cfg m c a s h) (hdead : m.active c = false)
    (hlive : ∃ d ∈ m.possible, m.online d = true ∧ m.active d = true)
    (ho : ∀ t, Inv cfg t → t.FairPickOk c (os (t.hideStop c))) :
    ∃ r, Loop.Ends (migrateBody cfg m c os) h r ∧
      ∃ b, r = some b ∧ ∃ t, Evacuating cfg m c a t b ∧ (t.rq c).nrRunning = 1 := by
  refine Loop.ends_of_measure (I := fun h => ∃ s, Evacuating cfg m c a s h)
    (fun h => {p | h.sys.Evacuee c p}.ncard) ?_ ⟨s, hev⟩
  rintro h ⟨s, hev⟩
  by_cases hnr : (s.rq c).nrRunning = 1
  · refine .inl ⟨some h, ?_, h, rfl, s, hev, hnr⟩
    unfold migrateBody
    rw [if_pos (by rw [hev.hidden, hideStop_nrRunning]; exact hnr)]
  · obtain ⟨t, h', hbody, hturn⟩ :=
      hev.inv.migrateBody_turn hev.hidden hev.stop (ho s hev.inv) hlive hnr
    obtain ⟨hev', hsub, p, hp, hgone⟩ := hev.turn hdead hturn hnr
    refine .inr ⟨h', hbody, ⟨t, hev'⟩, ?_⟩
    rw [hev.hidden, hturn.hidden]
    exact Set.ncard_lt_ncard ⟨hsub, fun hback => hgone (hback hp)⟩ (hev.inv.evacuees_finite c)

/-- With RT tasks stuck the loop goes on for ever. -/
theorem System.RtStuck.not_ends (hstuck : s.RtStuck c) (hs : Inv cfg s)
    (hh : h.sys = s.hideStop c) (hstop : s.StopQueued c)
    (hlive : ∃ d ∈ m.possible, m.online d = true ∧ m.active d = true)
    (ho : ∀ t, Inv cfg t → t.FairPickOk c (os (t.hideStop c))) (r : Option Hotplug) :
    ¬Loop.Ends (migrateBody cfg m c os) h r := by
  refine Loop.not_ends (I := fun h =>
    ∃ s, Inv cfg s ∧ h.sys = s.hideStop c ∧ s.StopQueued c ∧ s.RtStuck c) ?_
    ⟨s, hs, hh, hstop, hstuck⟩
  rintro h ⟨s, hs, hh, hstop, hstuck⟩
  have hnr : (s.rq c).nrRunning ≠ 1 := fun hone => by
    obtain ⟨-, p, hp⟩ := hstuck
    exact (hs.nr_eq_one_iff hstop).mp hone p ⟨.rt, by decide, hp⟩
  obtain ⟨t, h', hbody, hturn⟩ := hs.migrateBody_turn hh hstop (ho s hs) hlive hnr
  exact ⟨h', hbody, t, hturn.inv, hturn.hidden, hturn.stopQueued hstop, hturn.rtStuck hstuck⟩

end Turns

/-! ## A CPU to take down -/

/-- `bootSystem` with a sleeping stop task on CPU 0. -/
def stopSystem : System :=
  { bootSystem with
    task := Function.update bootSystem.task 3 { fairTask with schedClass := .stop }
    rq := Function.update bootSystem.rq 0 { bootRq 0 with stop := some 3 } }

theorem stopSystem_boot : Boot stopSystem := by
  have hboot := bootSystem_boot
  have hrq : ∀ {α : Type} (f : Rq → α), f { bootRq 0 with stop := some 3 } = f (bootRq 0) →
      ∀ c, f (stopSystem.rq c) = f (bootRq c) := by
    intro α f hf c
    by_cases hc : c = 0
    · subst hc
      exact hf
    · exact congrArg f (Function.update_of_ne hc _ _)
  have htask : ∀ p, p ≠ 3 → stopSystem.task p = bootSystem.task p := fun p hp =>
    Function.update_of_ne hp _ _
  refine ⟨hrq Rq.wrr rfl, hrq Rq.rt rfl, hrq Rq.cfs rfl, hrq Rq.nrRunning rfl,
    fun c => (hrq Rq.curr rfl c).trans (hrq Rq.idle rfl c).symm, fun p => ?_, fun p hp => ?_,
    fun c p => ?_, fun c p => ?_⟩
  · by_cases hp : p = 3
    · subst hp
      rfl
    · rw [htask p hp]
      exact hboot.off p
  · by_cases h3 : p = 3
    · subst h3
      have hok := fairTask_ok
      exact ⟨hok.rtPriority, hok.userPriority, hok.staticPrio, hok.normalPrio, hok.prio, hok.waiter,
        (fun hk => nomatch hk), fun hk => nomatch hk⟩
    · rw [htask p h3] at hp ⊢
      exact hboot.task p hp
  · rw [hrq Rq.idle rfl c]
    by_cases hp : p = 3
    · subst hp
      refine ⟨fun hc => ?_, fun hk => nomatch hk.2.1⟩
      have hodd : ∀ n : Nat, 2 * n ≠ 3 := by omega
      exact absurd hc (hodd c)
    · rw [htask p hp]
      exact hboot.idle c p
  · by_cases hp : p = 3
    · subst hp
      by_cases hc : c = 0
      · subst hc
        exact ⟨fun _ => ⟨rfl, rfl, rfl⟩, fun _ => rfl⟩
      · refine ⟨fun hn => ?_, fun hk => absurd hk.2.2.symm hc⟩
        have hn' : (bootRq c).stop = some 3 :=
          (congrArg Rq.stop (Function.update_of_ne hc _ _)).symm.trans hn
        cases hn'
    · rw [htask p hp, ← hboot.stop c p]
      by_cases hc : c = 0
      · subst hc
        refine ⟨fun hn => ?_, fun hn => nomatch hn⟩
        exact absurd (Option.some.inj hn).symm hp
      · exact iff_of_eq (congrArg (fun r : Rq => r.stop = some p) (Function.update_of_ne hc _ _))

/-- On CPU 0 its stop task, the fair task 1, the WRR task 5 and the RT task 9 are queued. -/
def loadedSystem : System :=
  [.setscheduler 5 .wrr false 30 .quiet, .setscheduler 9 .fifo false 50 .quiet,
    .wakeUp 3 0 .quiet, .wakeUp 1 0 .quiet, .wakeUp 5 0 .quiet, .wakeUp 9 0 .quiet].foldl
    (exec (upConfig .basic)) stopSystem

theorem loadedSystem_reach :
    Reach (fun s op => op.Pre s) (exec (upConfig .basic)) stopSystem loadedSystem :=
  reach_of_check stopSystem_boot.inv _ (by decide +kernel)

theorem loadedSystem_inv : Inv (upConfig .basic) loadedSystem :=
  reach_inv (fun _ _ hop => hop) stopSystem_boot loadedSystem_reach

/-- CPU 1 is the only live one. -/
def lastCpu : CpuMasks where
  node _ := [0]
  possible := [0, 1]
  online d := d = 1
  active d := d = 1
  cpuset _ := [0]

/-- The fair class offers the first of its tasks on CPU 0. -/
def offerFirst (t : System) : Outside := { Outside.quiet with fairPick := (t.rq 0).cfs.tasks.head? }

theorem offerFirst_ok (t : System) (ht : Inv cfg t) :
    t.FairPickOk 0 (offerFirst (t.hideStop 0)) := by
  have hpick : (offerFirst (t.hideStop 0)).fairPick = (t.rq 0).cfs.tasks.head? :=
    congrArg (fun f : CfsRq => f.tasks.head?) hideStop_cfs
  rw [System.FairPickOk, hpick]
  have hmem := fun p => @Inv.mem_cfs_iff cfg t 0 p ht
  cases htasks : (t.rq 0).cfs.tasks with
  | nil =>
    intro p hp
    rw [← hmem, htasks] at hp
    cases hp
  | cons p ps =>
    refine (hmem p).mp ?_
    rw [htasks]
    exact List.mem_cons_self

/-! ## What `migrate_tasks` does -/

variable {m : CpuMasks} {a : Hotplug} {os : System → Outside}

/-- **`migrate_tasks` ends unless RT tasks are queued on a throttled run queue**: nothing lifts
`rt_throttled` before the loop, and the RT class offers none of its tasks while it is set. -/
theorem migrateTasks_ends_iff (h : Inv cfg a.sys) (hstop : a.sys.StopQueued c)
    (hdead : m.active c = false) (hlive : ∃ d ∈ m.possible, m.online d = true ∧ m.active d = true)
    (ho : ∀ t, Inv cfg t → t.FairPickOk c (os (t.hideStop c))) :
    (∃ fuel r, migrateTasks cfg m c os fuel a = some r) ↔
      ¬((a.sys.rq c).rt.rtThrottled = true ∧ ∃ p, a.sys.Queued .rt c p) := by
  constructor
  · rintro ⟨fuel, r, hr⟩ hstuck
    obtain ⟨b, hb, -⟩ := Option.map_eq_some_iff.mp hr
    exact System.RtStuck.not_ends hstuck h rfl hstop hlive ho b ⟨fuel, hb⟩
  · intro hfree
    obtain ⟨b, ⟨fuel, hb⟩, -⟩ := (Evacuating.start h hstop hfree).ends hdead hlive ho
    exact ⟨fuel, _, Option.map_eq_some_iff.mpr ⟨b, hb, rfl⟩⟩

/-- The same tasks queued, once with a throttled RT run queue. -/
theorem migrateTasks_ends_iff_throttled :
    (∃ fuel r, migrateTasks (upConfig .basic) lastCpu 0 offerFirst fuel
      { sys := loadedSystem, cpusAllowed := fun _ => [0, 1] } = some r) ∧
    ¬∃ fuel r, migrateTasks (upConfig .basic) lastCpu 0 offerFirst fuel
      { sys := rtThrottle loadedSystem 0, cpusAllowed := fun _ => [0, 1] } = some r := by
  have hlive : ∃ d ∈ lastCpu.possible, lastCpu.online d = true ∧ lastCpu.active d = true :=
    ⟨1, by decide⟩
  constructor
  · refine (migrateTasks_ends_iff loadedSystem_inv ⟨3, by decide +kernel⟩ (by decide) hlive
      offerFirst_ok).mpr fun hstuck => ?_
    have hfree : (loadedSystem.rq 0).rt.rtThrottled = false := by decide +kernel
    rw [hfree] at hstuck
    cases hstuck.1
  · refine fun hends => (migrateTasks_ends_iff (rtThrottle_inv loadedSystem_inv 0)
      ⟨3, by decide +kernel⟩ (by decide) hlive offerFirst_ok).mp hends ⟨by decide +kernel, 9, ?_⟩
    decide +kernel

/-- **Whenever `migrate_tasks` ends, it has emptied the CPU** and no `BUG` fired: every task
that was queued there is on a live CPU of its mask, with nothing else of it changed, and a mask
was overruled only where it had no live CPU. -/
theorem migrateTasks_evacuates (h : Inv cfg a.sys) (hstop : a.sys.StopQueued c)
    (hdead : m.active c = false) (hlive : ∃ d ∈ m.possible, m.online d = true ∧ m.active d = true)
    (ho : ∀ t, Inv cfg t → t.FairPickOk c (os (t.hideStop c))) {fuel : Nat} {r : Option Hotplug}
    (hrun : migrateTasks cfg m c os fuel a = some r) :
    ∃ b, r = some b ∧ Evacuated cfg m c a b := by
  obtain ⟨b, hb, rfl⟩ := Option.map_eq_some_iff.mp hrun
  have hends : Loop.Ends (migrateBody cfg m c os) { a with sys := a.sys.hideStop c } b := ⟨fuel, hb⟩
  have hfree : ¬a.sys.RtStuck c := fun hstuck =>
    System.RtStuck.not_ends hstuck h rfl hstop hlive ho b hends
  obtain ⟨b', hends', b, rfl, s, hev, hnr⟩ := (Evacuating.start h hstop hfree).ends hdead hlive ho
  rw [hends.unique hends']
  exact ⟨_, rfl, hev.finish hnr⟩

/-- The mask of the RT task has no live CPU: it is overruled twice. -/
theorem migrateTasks_evacuates_loaded : ∃ b,
    Evacuated (upConfig .basic) lastCpu 0
      { sys := loadedSystem, cpusAllowed := fun p => if p = 9 then [0] else [0, 1] } b := by
  have hends : (migrateTasks (upConfig .basic) lastCpu 0 offerFirst 4
      { sys := loadedSystem, cpusAllowed := fun p => if p = 9 then [0] else [0, 1] }).isSome = true := by
    decide +kernel
  obtain ⟨r, hr⟩ := Option.isSome_iff_exists.mp hends
  obtain ⟨b, -, hb⟩ := migrateTasks_evacuates loadedSystem_inv ⟨3, by decide +kernel⟩ (by decide)
    ⟨1, by decide⟩ offerFirst_ok hr
  exact ⟨b, hb⟩

end LinuxWrr
