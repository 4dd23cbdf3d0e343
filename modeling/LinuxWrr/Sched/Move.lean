import LinuxWrr.Sched.Frame

/-!
# Moves within a class

Ticks, yields and preemption checks keep a queued task in its class and on its cpu. A
WRR task may change its level while it is linked; the rewritten `rt_priority`, the
lists and the bitmap have to change together, in three branches and at two edges.

- `Move cfg s t p`: `p` was moved within its class, and **wherever it was queued at the
  slot its fields asked for, it still is**.
- `Rmlfq.requeueTaskWrr_move`, `Basic.requeueTaskWrr_move`: requeueing is a move,
  whatever the random word.
- `schedulerTick_move`, `yieldTask_move`, `checkPreemptCurr_move`: so are the core's
  callers.
-/

namespace LinuxWrr

variable {cfg : Config} {s t u : System} {c : Cpu} {p : Pid}

/-- Writing the four fields that ticks and yields may write. -/
def Task.retune (t : Task) (rtPriority timeSlice times rtTimeSlice : Nat) : Task :=
  { t with
    rtPriority := rtPriority
    timeSlice := timeSlice
    times := times
    rtTimeSlice := rtTimeSlice }

/-- `t` comes from `s` by moving the queued task `p` within its class: its slice, its
stay counter and, for a WRR task, its `rt_priority` change, and it is requeued at the
level it then asks for. -/
structure Move (cfg : Config) (s t : System) (p : Pid) : Prop where
  task : ∃ rtPriority timeSlice times rtTimeSlice,
    (rtPriority = (s.task p).rtPriority ∨ (s.task p).schedClass = .wrr ∧ rtPriority ≤ 99) ∧
      t.task = Function.update s.task p
        ((s.task p).retune rtPriority timeSlice times rtTimeSlice)
  frame : Frame s t
  rep : ∀ m, Rep s m → m p = some (slotOf cfg (s.task p)) →
    Rep t (Function.update m p (some (slotOf cfg (t.task p))))
  needResched : ∀ q, s.needResched q = true → t.needResched q = true

/-- The run queues and `rt_priority` stay as they are. -/
theorem Move.of_rq (timeSlice times rtTimeSlice : Nat) (hrq : t.rq = s.rq)
    (htask : t.task = Function.update s.task p
      ((s.task p).retune (s.task p).rtPriority timeSlice times rtTimeSlice))
    (hresched : ∀ q, s.needResched q = true → t.needResched q = true) : Move cfg s t p where
  task := ⟨_, _, _, _, .inl rfl, htask⟩
  frame := Frame.of_rq hrq
  rep m hrep hp := by
    have hslot : slotOf cfg (t.task p) = slotOf cfg (s.task p) := by
      rw [htask, Function.update_self]
      exact slotOf_congr cfg rfl rfl rfl rfl
    rw [hslot, ← hp, Function.update_eq_self]
    exact hrep.of_rq hrq
  needResched := hresched

/-- A step that changes neither tasks nor lists moves nobody. -/
theorem Move.of_eq (hrq : t.rq = s.rq) (htask : t.task = s.task)
    (hresched : ∀ q, s.needResched q = true → t.needResched q = true) : Move cfg s t p := by
  refine Move.of_rq (s.task p).timeSlice (s.task p).times (s.task p).rtTimeSlice hrq ?_ hresched
  rw [htask]
  exact (Function.update_eq_self p s.task).symm

theorem Move.refl (cfg : Config) (s : System) (p : Pid) : Move cfg s s p :=
  Move.of_eq rfl rfl fun _ h => h

theorem Move.trans (h : Move cfg s t p) (h' : Move cfg t u p) : Move cfg s u p where
  task := by
    obtain ⟨rtp, ts, times, rts, hok, htask⟩ := h.task
    obtain ⟨rtp', ts', times', rts', hok', htask'⟩ := h'.task
    rw [htask, Function.update_self] at hok'
    refine ⟨rtp', ts', times', rts', ?_, ?_⟩
    · rcases hok' with hok' | hok'
      · rw [hok']
        exact hok
      · exact .inr hok'
    · rw [htask', htask, Function.update_self, Function.update_idem]
      rfl
  frame := h.frame.trans h'.frame
  rep m hrep hp := by
    have := h'.rep _ (h.rep m hrep hp) (Function.update_self _ _ _)
    rwa [Function.update_idem] at this
  needResched q hq := h'.needResched q (h.needResched q hq)

theorem Flagged.move (h : Flagged s t) : Move cfg s t p := Move.of_eq h.rq h.task h.needResched

/-- A rearranged WRR array that represents the new level of `p`. -/
theorem Move.setActive {a : PrioArray Pid} (rtPriority timeSlice times rtTimeSlice : Nat)
    (hk : (s.task p).schedClass = .wrr) (hc : (s.task p).cpu = c)
    (hrtp : rtPriority = (s.task p).rtPriority ∨ rtPriority ≤ 99)
    (ha : ∀ lvl, (s.rq c).wrr.active.Repr maxWrrPrio lvl →
      lvl p = some (wrrLevel cfg (s.task p)) →
      a.Repr maxWrrPrio (Function.update lvl p (some (wrrLevel cfg (t.task p)))) ∧
        a.size maxWrrPrio = (s.rq c).wrr.active.size maxWrrPrio)
    (hrq : t.rq = (s.setActive c a).rq)
    (htask : t.task = Function.update s.task p
      ((s.task p).retune rtPriority timeSlice times rtTimeSlice))
    (hresched : t.needResched = s.needResched) : Move cfg s t p where
  task := by
    refine ⟨_, _, _, _, ?_, htask⟩
    rcases hrtp with h | h
    · exact .inl h
    · exact .inr ⟨hk, h⟩
  frame := Frame.setRq hrq rfl rfl rfl rfl rfl
  rep m hrep hp := by
    have hslot : slotOf cfg (s.task p) = ⟨.wrr, c, wrrLevel cfg (s.task p)⟩ := by
      simp [slotOf, seLevel, hk, hc]
    have hslot' : slotOf cfg (t.task p) = ⟨.wrr, c, wrrLevel cfg (t.task p)⟩ := by
      have hself : t.task p = (s.task p).retune rtPriority timeSlice times rtTimeSlice := by
        rw [htask, Function.update_self]
      have hk' : (t.task p).schedClass = .wrr := by rw [hself]; exact hk
      have hc' : (t.task p).cpu = c := by rw [hself]; exact hc
      simp [slotOf, seLevel, hk', hc']
    -- the slot stays on this cpu and in this class, only its level may change
    rw [hslot] at hp
    rw [hslot']
    obtain ⟨harr, hsize⟩ := ha _ (hrep c).wrr.active (levelAt_of_slot hp)
    refine hrep.setRq hrq ?_ (OnCpu.some _ c _) ((hrep c).setActive hp harr hsize)
    rw [hp]
    exact OnCpu.some _ c _
  needResched q hq := by rwa [hresched]

/-- `requeue_task_wrr` of the basic class rotates the task's level. -/
theorem Basic.requeueTaskWrr_move (hcfg : cfg.wrr = .basic) (hk : (s.task p).schedClass = .wrr)
    (hc : (s.task p).cpu = c) (head : Bool) : Move cfg s (requeueTaskWrr s c p head) p := by
  have hself : (requeueTaskWrr s c p head).task = Function.update s.task p
      ((s.task p).retune (s.task p).rtPriority (s.task p).timeSlice (s.task p).times
        (s.task p).rtTimeSlice) := (Function.update_eq_self p s.task).symm
  refine Move.setActive _ _ _ _ hk hc (.inl rfl) ?_ rfl hself rfl
  intro lvl harr hp
  have hlevel : ∀ t, wrrLevel cfg t = t.rtPriority := by simp [wrrLevel, hcfg, wrrSePrio]
  have hp' : lvl p = some (wrrSePrio (s.task p)) := by
    rw [hp, hlevel]
    rfl
  have hsame : Function.update lvl p
      (some (wrrLevel cfg ((requeueTaskWrr s c p head).task p))) = lvl := by
    rw [Function.update_eq_self_iff, hp, hlevel, hlevel]
    rfl
  rw [hsame]
  exact ⟨harr.rotate hp' head, harr.size_rotate hp' head⟩

/-- The two moving branches of `requeue_task_wrr`: inside the range of stages the new
`rt_priority` names the stage the task was linked at, at the edge nothing moves. -/
theorem Rmlfq.changeStage_move (hcfg : cfg.wrr = .rmlfq) (hk : (s.task p).schedClass = .wrr)
    (hc : (s.task p).cpu = c) (head : Bool) {stage rtPriority : Nat} {inside : Bool}
    (hin : inside = true →
      stage ≠ wrrTaskPrio (s.task p) ∧ stage < maxWrrPrio ∧ 99 - rtPriority = stage ∧
        rtPriority ≤ 99)
    (hout : inside = false → stage = wrrTaskPrio (s.task p)) :
    Move cfg s (changeStage s c p head (wrrTaskPrio (s.task p)) stage inside rtPriority) p := by
  have hlevel : ∀ t, wrrLevel cfg t = 99 - t.rtPriority := by simp [wrrLevel, hcfg, wrrSePrio]
  cases inside with
  | true =>
    -- inside the range the list and the label move together
    obtain ⟨hne, hlt, hstage, hrtp⟩ := hin rfl
    refine Move.setActive rtPriority (s.task p).timeSlice 1 (s.task p).rtTimeSlice
      (a := (s.rq c).wrr.active.moveTo head p (wrrTaskPrio (s.task p)) stage)
      hk hc (.inr hrtp) ?_ rfl rfl rfl
    intro lvl harr hp
    have hp' : lvl p = some (wrrTaskPrio (s.task p)) := by
      rw [hp, hlevel]
      rfl
    have hnew : wrrLevel cfg ((changeStage s c p head (wrrTaskPrio (s.task p)) stage true
        rtPriority).task p) = stage := by
      rw [hlevel, ← hstage]
      simp [changeStage]
    rw [hnew]
    exact ⟨harr.move hp' hlt (Ne.symm hne) head, harr.size_move hp' hlt (Ne.symm hne) head⟩
  | false =>
    -- at the edge the task is linked again where it was
    have hstage := hout rfl
    refine Move.setActive (s.task p).rtPriority (s.task p).timeSlice 1 (s.task p).rtTimeSlice
      (a := ((s.rq c).wrr.active.listDelInit p).listAddAt head p stage)
      hk hc (.inl rfl) ?_ rfl rfl rfl
    intro lvl harr hp
    have hp' : lvl p = some stage := by
      rw [hp, hlevel, hstage]
      rfl
    have hsame : Function.update lvl p (some (wrrLevel cfg ((changeStage s c p head
        (wrrTaskPrio (s.task p)) stage false rtPriority).task p))) = lvl := by
      rw [Function.update_eq_self_iff, hp, hlevel, hlevel]
      simp [changeStage]
    rw [hsame]
    exact ⟨harr.rotate hp' head, harr.size_rotate hp' head⟩

/-- `requeue_task_wrr`, whatever the random word. -/
theorem Rmlfq.requeueTaskWrr_move (hcfg : cfg.wrr = .rmlfq) (hk : (s.task p).schedClass = .wrr)
    (hc : (s.task p).cpu = c) (hrtp : (s.task p).rtPriority ≤ 99) (head : Bool) (rand : UInt32) :
    Move cfg s (requeueTaskWrr cfg s c p head rand) p := by
  have hlevel : ∀ t, wrrLevel cfg t = 99 - t.rtPriority := by simp [wrrLevel, hcfg, wrrSePrio]
  unfold requeueTaskWrr
  dsimp only
  split
  · -- down: ten levels lower, unless the task is in the lowest stage
    refine changeStage_move hcfg hk hc head ?_ ?_
    · intro hin
      have hgt : wrrTaskPrio (s.task p) > 9 := of_decide_eq_true hin
      rw [if_pos hgt]
      simp only [wrrTaskPrio, maxWrrPrio] at hgt ⊢
      omega
    · intro hin
      rw [if_neg (of_decide_eq_false hin)]
  · split
    · -- up: ten levels higher, unless the task is in the highest stage
      refine changeStage_move hcfg hk hc head ?_ ?_
      · intro hin
        have hlt : wrrTaskPrio (s.task p) < 90 := of_decide_eq_true hin
        rw [if_pos hlt]
        simp only [wrrTaskPrio, maxWrrPrio] at hlt ⊢
        omega
      · intro hin
        rw [if_neg (of_decide_eq_false hin)]
    · -- stay
      refine Move.setActive (s.task p).rtPriority (s.task p).timeSlice
        (((s.task p).times + 1) % 2 ^ 32) (s.task p).rtTimeSlice hk hc (.inl rfl) ?_ rfl rfl rfl
      intro lvl harr hp
      have hp' : lvl p = some (wrrTaskPrio (s.task p)) := by
        rw [hp, hlevel]
        rfl
      refine ⟨?_, harr.size_rotate hp' head⟩
      rw [Function.update_eq_self_iff.mpr]
      · exact harr.rotate hp' head
      · rw [hp, hlevel, hlevel]
        simp

/-- `requeue_task_rt` rotates the task's level. -/
theorem Rt.requeueTaskRt_move (hk : (s.task p).schedClass = .rt) (head : Bool) :
    Move cfg s (requeueTaskRt s p head) p := by
  unfold requeueTaskRt
  split
  next hon =>
    refine
      { task := ⟨_, _, _, _, .inl rfl, (Function.update_eq_self p s.task).symm⟩
        frame := Frame.setRq rfl rfl rfl rfl rfl rfl
        rep := fun m hrep hp => ?_
        needResched := fun _ h => h }
    have hslot : m p = some ⟨.rt, (s.task p).cpu, rtSePrio (s.task p)⟩ := by
      rw [hp, slotOf, seLevel, hk]
    show Rep _ (Function.update m p (some (slotOf cfg (s.task p))))
    rw [← hp]
    refine hrep.setRq rfl ?_ ?_ ?_
    · rw [hslot]
      exact OnCpu.some _ _ _
    · rw [hslot]
      exact OnCpu.some _ _ _
    · rw [Function.update_eq_self]
      exact (hrep (s.task p).cpu).rotateRt hslot head
  next => exact Move.refl cfg s p

/-- Writing a slice or a counter that no queue position depends on. -/
theorem Move.tune (cfg : Config) (s : System) (p : Pid) (timeSlice times rtTimeSlice : Task → Nat) :
    Move cfg s (s.updTask p fun t =>
      t.retune t.rtPriority (timeSlice t) (times t) (rtTimeSlice t)) p :=
  Move.of_rq _ _ _ rfl rfl fun _ h => h

/-! ## Ticks and yields -/

theorem Move.schedClass (h : Move cfg s t p) : (t.task p).schedClass = (s.task p).schedClass := by
  obtain ⟨_, _, _, _, -, htask⟩ := h.task
  rw [htask, Function.update_self]
  rfl

theorem Move.cpu (h : Move cfg s t p) : (t.task p).cpu = (s.task p).cpu := by
  obtain ⟨_, _, _, _, -, htask⟩ := h.task
  rw [htask, Function.update_self]
  rfl

/-- A moved task keeps a priority within range. -/
theorem Move.rtPriority_le (h : Move cfg s t p) (hrtp : (s.task p).rtPriority ≤ 99) :
    (t.task p).rtPriority ≤ 99 := by
  obtain ⟨rtp, _, _, _, hok, htask⟩ := h.task
  rw [htask, Function.update_self]
  show rtp ≤ 99
  rcases hok with hok | hok
  · rwa [hok]
  · exact hok.2

/-- A tick of the RT class moves the task within its queue at most. -/
theorem Rt.taskTickRt_move (hk : (s.task p).schedClass = .rt) (c : Cpu) :
    Move cfg s (taskTickRt cfg s c p) p := by
  have hcharge : Move cfg s (updateCurrRt s c) p :=
    Move.of_eq (by simp) (by simp) fun q hq => by rwa [Rt.updateCurrRt_needResched]
  refine hcharge.trans ?_
  have hk₁ := hcharge.schedClass.trans hk
  unfold taskTickRt
  dsimp only
  generalize updateCurrRt s c = s₁ at hk₁
  have htune := Move.tune cfg s₁ p Task.timeSlice Task.times
    fun _ => decU32 (s₁.task p).rtTimeSlice
  have htune' := htune.trans (Move.tune cfg _ p Task.timeSlice Task.times fun _ => cfg.rrTimeslice)
  split
  · exact Move.refl cfg s₁ p
  · split
    · exact htune
    · split
      · refine htune'.trans ((requeueTaskRt_move (htune'.schedClass.trans hk₁) false).trans ?_)
        exact (Flagged.setTskNeedResched _ p).move
      · exact htune'

theorem updateCurrWrr_move (cfg : Config) (s : System) (c : Cpu) (p : Pid) :
    Move cfg s (updateCurrWrr s c) p :=
  Move.of_eq (by simp) (by simp) fun q hq => by rwa [updateCurrWrr_needResched]

theorem taskGroupPath_move (cfg : Config) (s : System) (tg : Nat) (p : Pid) :
    Move cfg s (taskGroupPath cfg s tg) p :=
  Move.of_eq (taskGroupPath_rq cfg s tg) (taskGroupPath_task cfg s tg) fun q hq => by
    rwa [taskGroupPath_needResched]

theorem Basic.refillSlice_move (cfg : Config) (s : System) (p : Pid) :
    Move cfg s (refillSlice cfg s p) p :=
  (taskGroupPath_move cfg s _ p).trans (Move.tune cfg _ p (fun _ => _) Task.times Task.rtTimeSlice)

/-- An expired slice requeues the task in its own list. -/
theorem Basic.sliceExpired_move (hcfg : cfg.wrr = .basic) (hk : (s.task p).schedClass = .wrr)
    (hc : (s.task p).cpu = c) : Move cfg s (sliceExpired cfg s c p) p := by
  have hfill := refillSlice_move cfg s p
  unfold sliceExpired
  dsimp only
  split
  · refine hfill.trans ?_
    have hmove := requeueTaskWrr_move hcfg (hfill.schedClass.trans hk) (hfill.cpu.trans hc) false
    exact hmove.trans (Flagged.setTskNeedResched _ p).move
  · exact hfill

/-- A tick charges the task and writes its slice. -/
theorem counted_move (cfg : Config) (s : System) (c : Cpu) (p : Pid) (n : Nat) :
    Move cfg s ((updateCurrWrr s c).updTask p fun t => { t with timeSlice := n }) p :=
  (updateCurrWrr_move cfg s c p).trans (Move.tune cfg _ p (fun _ => n) Task.times Task.rtTimeSlice)

/-- A tick of the first file moves the task within its queue at most. -/
theorem Basic.taskTickWrr_move (hcfg : cfg.wrr = .basic) (hk : (s.task p).schedClass = .wrr)
    (hc : (s.task p).cpu = c) : Move cfg s (taskTickWrr cfg s c p) p := by
  rcases taskTickWrr_cases cfg s c p with ⟨-, heq⟩ | ⟨-, -, heq⟩ | ⟨-, -, heq⟩ <;> rw [heq]
  · exact updateCurrWrr_move cfg s c p
  · exact counted_move cfg s c p _
  · have hspent := counted_move cfg s c p 0
    exact hspent.trans (sliceExpired_move hcfg (hspent.schedClass.trans hk) (hspent.cpu.trans hc))

theorem Rmlfq.refillSlice_move (cfg : Config) (s : System) (p : Pid) :
    Move cfg s (refillSlice cfg s p) p :=
  (taskGroupPath_move cfg s _ p).trans (Move.tune cfg _ p (fun _ => _) Task.times Task.rtTimeSlice)

/-- An expired slice requeues the task at the level it is given. -/
theorem Rmlfq.sliceExpired_move (hcfg : cfg.wrr = .rmlfq) (hk : (s.task p).schedClass = .wrr)
    (hc : (s.task p).cpu = c) (hrtp : (s.task p).rtPriority ≤ 99) (rand : UInt32) :
    Move cfg s (sliceExpired cfg s c p rand) p := by
  have hfill := (refillSlice_move cfg s p).trans (Flagged.setTskNeedResched _ p).move
  refine hfill.trans ?_
  exact requeueTaskWrr_move hcfg (hfill.schedClass.trans hk) (hfill.cpu.trans hc)
    (hfill.rtPriority_le hrtp) false rand

/-- A tick of the second file moves the task within its queue at most. -/
theorem Rmlfq.taskTickWrr_move (hcfg : cfg.wrr = .rmlfq) (hk : (s.task p).schedClass = .wrr)
    (hc : (s.task p).cpu = c) (hrtp : (s.task p).rtPriority ≤ 99) (rand : UInt32) :
    Move cfg s (taskTickWrr cfg s c p rand) p := by
  rcases taskTickWrr_cases cfg s c p rand with ⟨-, heq⟩ | ⟨-, -, heq⟩ | ⟨-, -, heq⟩ <;> rw [heq]
  · exact updateCurrWrr_move cfg s c p
  · exact counted_move cfg s c p _
  · have hspent := counted_move cfg s c p 0
    exact hspent.trans (sliceExpired_move hcfg (hspent.schedClass.trans hk) (hspent.cpu.trans hc)
      (hspent.rtPriority_le hrtp) rand)

/-- The tick of the current task moves it within its class. -/
theorem schedulerTick_move (hc : (s.task (s.rq c).curr).cpu = c)
    (hrtp : (s.task (s.rq c).curr).rtPriority ≤ 99) (o : Outside) :
    Move cfg s (schedulerTick cfg s c o) (s.rq c).curr := by
  unfold schedulerTick
  dsimp only
  cases hk : (s.task (s.rq c).curr).schedClass with
  | rt => exact Rt.taskTickRt_move hk c
  | wrr =>
    show Move cfg s ((wrrSchedClass cfg).taskTick s c _ o) _
    unfold wrrSchedClass
    cases hcfg : cfg.wrr with
    | basic => exact Basic.taskTickWrr_move hcfg hk hc
    | rmlfq => exact Rmlfq.taskTickWrr_move hcfg hk hc hrtp o.rand
  | fair => exact (fairHook_flagged s c o).move
  | stop | idle => exact Move.refl cfg s _

/-- A yield moves the current task within its class. -/
theorem yieldTask_move (hc : (s.task (s.rq c).curr).cpu = c)
    (hrtp : (s.task (s.rq c).curr).rtPriority ≤ 99) (o : Outside) :
    Move cfg s (yieldTask cfg s c o) (s.rq c).curr := by
  unfold yieldTask
  cases hk : (s.task (s.rq c).curr).schedClass with
  | rt => exact Rt.requeueTaskRt_move hk false
  | wrr =>
    show Move cfg s ((wrrSchedClass cfg).yieldTask s c o) _
    unfold wrrSchedClass
    cases hcfg : cfg.wrr with
    | basic => exact Basic.requeueTaskWrr_move hcfg hk hc false
    | rmlfq => exact Rmlfq.requeueTaskWrr_move hcfg hk hc hrtp false o.rand
  | stop | fair | idle => exact Move.refl cfg s _

/-- Preemption checks at most set flags and rotate the woken task's RT list. -/
theorem checkPreemptCurr_move (cfg : Config) (s : System) (c : Cpu) (p : Pid) (o : Outside) :
    Move cfg s (checkPreemptCurr cfg s c p o) p ∧
      (checkPreemptCurr cfg s c p o).task = s.task := by
  have hflag : ∀ {t : System}, Flagged s t → Move cfg s t p ∧ t.task = s.task :=
    fun h => ⟨h.move, h.task⟩
  unfold checkPreemptCurr
  dsimp only
  split
  -- both are of one class, which decides by its own rule
  next hsame =>
    cases hk : (s.task (s.rq c).curr).schedClass with
    | rt =>
      show Move cfg s (Rt.checkPreemptCurrRt cfg s c p o) p ∧
        (Rt.checkPreemptCurrRt cfg s c p o).task = s.task
      unfold Rt.checkPreemptCurrRt
      dsimp only
      split
      · exact hflag (Flagged.reschedCurr s c)
      · split
        · have hrot : Move cfg s (Rt.requeueTaskRt s p true) p :=
            Rt.requeueTaskRt_move (hsame.trans hk) true
          refine ⟨hrot.trans (Flagged.reschedCurr _ c).move, ?_⟩
          show (Rt.requeueTaskRt s p true).task = s.task
          unfold Rt.requeueTaskRt
          split <;> rfl
        · exact hflag (Flagged.refl s)
    | wrr =>
      have hbody : ∀ P : Prop, ∀ [Decidable P], Flagged s (if P then s.reschedCurr c else s) :=
        fun P _ => Flagged.ite (Flagged.reschedCurr s c) (Flagged.refl s)
      refine hflag ?_
      show Flagged s ((wrrSchedClass cfg).checkPreemptCurr s c p o)
      unfold wrrSchedClass
      cases cfg.wrr <;> exact hbody _
    | fair => exact hflag (fairHook_flagged s c o)
    | stop => exact hflag (Flagged.refl s)
    | idle => exact hflag (Flagged.setTskNeedResched s _)
  next =>
    exact hflag (Flagged.ite (Flagged.reschedCurr s c) (Flagged.refl s))

end LinuxWrr
