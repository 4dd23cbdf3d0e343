import LinuxWrr.Sched.Current

/-!
# No missed preemption

A WRR task is chosen by its level, but the choice is made only at a reschedule. Between
two reschedules the tasks that arrive, and the current task's own moves, can make it a
bad one; then the reschedule flag must be set.

- `Settled cfg s c`: unless its reschedule flag is set, the current task of `c` is at the
  best level of the queued WRR tasks, if there are any.
- `Op.Noticed`: an arriving WRR task of a better level than the current one makes
  `check_preempt_curr_wrr` ask for a reschedule.
- `noticed_calm`: **runs whose arrivals are noticed stay settled**.
- `rmlfq_noMissedPreemption`: the RMLFQ class notices every arrival.
- `basic_noMissedPreemption`: the basic class compares the other way around, and is only
  right when no better task arrives.
-/

namespace LinuxWrr

variable {cfg : Config} {s t u : System} {c c' : Cpu} {p q : Pid} {f : Task} {o : Outside}

/-- The current task is as good as every queued WRR task, or a reschedule is pending. -/
def Settled (cfg : Config) (s : System) (c : Cpu) : Prop :=
  s.needResched (s.rq c).curr = false → ∀ q, s.Queued .wrr c q →
    s.Queued .wrr c (s.rq c).curr ∧
      wrrLevel cfg (s.task (s.rq c).curr) ≤ wrrLevel cfg (s.task q)

/-- Queued in the same place, or not queued alike. -/
structure SamePlace (cfg : Config) (f g : Task) : Prop where
  onRq : g.onRq = f.onRq
  schedClass : g.schedClass = f.schedClass
  cpu : g.cpu = f.cpu
  level : wrrLevel cfg g = wrrLevel cfg f

theorem SamePlace.refl (f : Task) : SamePlace cfg f f := ⟨rfl, rfl, rfl, rfl⟩

/-- One task is written: a current task stays in its place, and a task that comes to `c`
is noticed, was there before, or is no better than the current one. -/
theorem Settled.effect (h : Settled cfg s c) (heff : Effect s t p f)
    (hcurr : (s.rq c).curr = p → t.needResched p = true ∨ SamePlace cfg (s.task p) f)
    (harr : t.Queued .wrr c p → t.needResched (s.rq c).curr = true ∨
      SamePlace cfg (s.task p) f ∨
      s.Queued .wrr c (s.rq c).curr ∧
        wrrLevel cfg (s.task (s.rq c).curr) ≤ wrrLevel cfg f) :
    Settled cfg t c := by
  unfold Settled
  rw [heff.frame.curr]
  intro hflag q hq
  have hflag' : s.needResched (s.rq c).curr = false := by
    by_contra hset
    rw [heff.needResched _ (by simpa using hset)] at hflag
    cases hflag
  -- the current task is where it was
  have hsame : SamePlace cfg (s.task (s.rq c).curr) (t.task (s.rq c).curr) := by
    by_cases hp : (s.rq c).curr = p
    · rw [hp, heff.self]
      refine (hcurr hp).resolve_left fun hset => ?_
      rw [hp, hset] at hflag
      cases hflag
    · rw [heff.other hp]
      exact SamePlace.refl _
  suffices hs : s.Queued .wrr c (s.rq c).curr ∧
      wrrLevel cfg (s.task (s.rq c).curr) ≤ wrrLevel cfg (t.task q) by
    refine ⟨?_, by rw [hsame.level]; exact hs.2⟩
    unfold System.Queued
    rw [hsame.onRq, hsame.schedClass, hsame.cpu]
    exact hs.1
  by_cases hqp : q = p
  · subst hqp
    rcases harr hq with hset | hplace | hle
    · rw [hset] at hflag
      cases hflag
    · have hq' : s.Queued .wrr c q := by
        unfold System.Queued at hq ⊢
        rwa [heff.self, hplace.onRq, hplace.schedClass, hplace.cpu] at hq
      rw [heff.self, hplace.level]
      exact h hflag' q hq'
    · rw [heff.self]
      exact hle
  · rw [heff.other hqp]
    exact h hflag' q ((heff.queued_other hqp).mp hq)

/-! ## Arrivals -/

/-- The comparison of `check_preempt_curr_wrr`. -/
def hookFires (cfg : Config) (curr p : Task) : Bool :=
  match cfg.wrr with
  | .basic => decide (p.rtPriority > curr.rtPriority)
  | .rmlfq => decide (Rmlfq.wrrTaskPrio p < Rmlfq.wrrTaskPrio curr)

/-- If `p` came to `c` now and were better than the current task, the current task would
be asked to reschedule. -/
def Notices (cfg : Config) (s : System) (p : Pid) (c : Cpu) : Prop :=
  (s.task p).schedClass = .wrr → (s.task (s.rq c).curr).schedClass = .wrr →
    s.needResched (s.rq c).curr = true ∨
      hookFires cfg (s.task (s.rq c).curr) (s.task p) = true ∨
      wrrLevel cfg (s.task (s.rq c).curr) ≤ wrrLevel cfg (s.task p)

/-- `check_preempt_curr` between two WRR tasks. -/
theorem checkPreemptCurr_wrr (hp : (s.task p).schedClass = .wrr)
    (hcurr : (s.task (s.rq c).curr).schedClass = .wrr) (o : Outside) :
    checkPreemptCurr cfg s c p o =
      if hookFires cfg (s.task (s.rq c).curr) (s.task p) then s.reschedCurr c else s := by
  unfold checkPreemptCurr hookFires
  dsimp only
  rw [hp, hcurr, if_pos rfl]
  show (wrrSchedClass cfg).checkPreemptCurr s c p o = _
  unfold wrrSchedClass
  cases cfg.wrr with
  | basic =>
    show Basic.checkPreemptCurrWrr s c p = _
    unfold Basic.checkPreemptCurrWrr
    simp
  | rmlfq =>
    show Rmlfq.checkPreemptCurrWrr s c p = _
    unfold Rmlfq.checkPreemptCurrWrr
    simp

/-- `check_preempt_curr` of a task of a better class. -/
theorem checkPreemptCurr_precedes
    (h : (s.task p).schedClass.precedes (s.task (s.rq c).curr).schedClass = true)
    (o : Outside) : checkPreemptCurr cfg s c p o = s.reschedCurr c := by
  have hne : (s.task p).schedClass ≠ (s.task (s.rq c).curr).schedClass := by
    intro heq
    rw [heq, ClassId.precedes_irrefl] at h
    cases h
  unfold checkPreemptCurr
  dsimp only
  rw [if_neg hne, if_pos h]

/-- Only WRR, fair and idle tasks. -/
def OnlyWrrFair (s : System) : Prop := ∀ p, (s.task p).alive = true →
  (s.task p).schedClass = .wrr ∨ (s.task p).schedClass = .fair ∨ (s.task p).schedClass = .idle

/-- The class of a current task, when there are only WRR, fair and idle tasks. -/
theorem OnlyWrrFair.curr (hk : OnlyWrrFair s) (h : Inv cfg s) (hs : s.CurrOk) (c : Cpu) :
    s.Queued .wrr c (s.rq c).curr ∨
      (s.task (s.rq c).curr).schedClass = .fair ∨ (s.task (s.rq c).curr).schedClass = .idle := by
  rcases hs c with hidle | hon
  · rw [hidle]
    exact .inr (.inr ((h.idle c _).mp rfl).2.1)
  · rcases hk _ (h.alive_of_onRq hon.1) with hwrr | hother
    · exact .inl ⟨hon.1, hwrr, hon.2⟩
    · exact .inr hother

/-- A task that arrives on the run queue of `c` keeps every cpu settled. -/
theorem arrive_settled (h : Inv cfg s) (hs : s.CurrOk) (hk : OnlyWrrFair s)
    (hset : Settled cfg s c') (heff : Effect s u p f)
    (hclass : f.schedClass = (s.task p).schedClass)
    (hprio : f.rtPriority = (s.task p).rtPriority) (hcpu : f.cpu = c)
    (hcurr : ∀ c, (s.rq c).curr ≠ p) (hnotice : Notices cfg s p c) (o : Outside) :
    Settled cfg (checkPreemptCurr cfg u c p o) c' := by
  have hcheck := checkPreemptCurr_flagged (q := p) cfg u c p o
  rw [heff.self] at hcheck
  refine hset.effect (heff.trans hcheck) (fun hc => absurd hc (hcurr c')) fun hp => ?_
  rw [hcheck.queued_self, hcpu] at hp
  obtain ⟨-, hwrr, rfl⟩ := hp
  have hucurr : (u.rq c).curr = (s.rq c).curr := heff.frame.curr c
  have hutask : u.task (u.rq c).curr = s.task (s.rq c).curr := by
    rw [hucurr, heff.other (hcurr c)]
  have hup : (u.task p).schedClass = .wrr := by rwa [heff.self]
  have hresched : checkPreemptCurr cfg u c p o = u.reschedCurr c →
      (checkPreemptCurr cfg u c p o).needResched (s.rq c).curr = true := by
    intro heq
    rw [heq, System.reschedCurr, hucurr, System.setTskNeedResched_needResched,
      Function.update_self]
  -- what is current is a WRR task, or of a class behind it
  rcases hk.curr h hs c with hq | hother
  · rcases hnotice (hclass ▸ hwrr) hq.2.1 with hflag | hfires | hle
    · exact .inl (hcheck.needResched _ (heff.needResched _ hflag))
    · refine .inl (hresched ?_)
      have hfires' : hookFires cfg (u.task (u.rq c).curr) (u.task p) = true := by
        rw [hutask, heff.self]
        unfold hookFires Rmlfq.wrrTaskPrio at hfires ⊢
        rwa [hprio]
      rw [checkPreemptCurr_wrr hup (by rw [hutask]; exact hq.2.1), if_pos hfires']
    · exact .inr (.inr ⟨hq, by rwa [wrrLevel_congr hprio]⟩)
  · refine .inl (hresched (checkPreemptCurr_precedes ?_ o))
    rw [hup, hutask]
    rcases hother with hfair | hidle
    · rw [hfair]
      rfl
    · rw [hidle]
      rfl

/-! ## Ticks -/

/-- In the first file an expired slice does not change the priority. -/
theorem Basic.sliceExpired_rtPriority (cfg : Config) (s : System) (c : Cpu) (p : Pid) :
    ((sliceExpired cfg s c p).task p).rtPriority = (s.task p).rtPriority := by
  have hrefill : ((refillSlice cfg s p).task p).rtPriority = (s.task p).rtPriority := by
    unfold refillSlice
    simp [taskGroupPath_task]
  unfold sliceExpired
  extract_lets s₁
  split
  · exact hrefill
  · exact hrefill

/-- In the first file a tick does not change the priority. -/
theorem Basic.taskTickWrr_rtPriority (cfg : Config) (s : System) (c : Cpu) (p : Pid) :
    ((taskTickWrr cfg s c p).task p).rtPriority = (s.task p).rtPriority := by
  rcases taskTickWrr_cases cfg s c p with ⟨-, heq⟩ | ⟨-, -, heq⟩ | ⟨-, -, heq⟩ <;> rw [heq]
  · rw [updateCurrWrr_task]
  · simp
  · rw [sliceExpired_rtPriority]
    simp

/-- The RMLFQ class asks for a reschedule before it requeues. -/
theorem Rmlfq.sliceExpired_needResched (hcfg : cfg.wrr = .rmlfq)
    (hk : (s.task p).schedClass = .wrr) (hc : (s.task p).cpu = c)
    (hrtp : (s.task p).rtPriority ≤ 99) (rand : UInt32) :
    (sliceExpired cfg s c p rand).needResched p = true := by
  have hfill := (refillSlice_move cfg s p).trans (Flagged.setTskNeedResched _ p).move
  have hflag : ((refillSlice cfg s p).setTskNeedResched p).needResched p = true := by simp
  have hmove : Move cfg ((refillSlice cfg s p).setTskNeedResched p)
      (sliceExpired cfg s c p rand) p :=
    requeueTaskWrr_move hcfg (hfill.schedClass.trans hk) (hfill.cpu.trans hc)
      (hfill.rtPriority_le hrtp) false rand
  exact hmove.needResched p hflag

/-- An RMLFQ tick moves the task to another level only when it asks for a reschedule. -/
theorem Rmlfq.taskTickWrr_rtPriority (hcfg : cfg.wrr = .rmlfq)
    (hk : (s.task p).schedClass = .wrr) (hc : (s.task p).cpu = c)
    (hrtp : (s.task p).rtPriority ≤ 99) (rand : UInt32) :
    (taskTickWrr cfg s c p rand).needResched p = true ∨
      ((taskTickWrr cfg s c p rand).task p).rtPriority = (s.task p).rtPriority := by
  rcases taskTickWrr_cases cfg s c p rand with ⟨-, heq⟩ | ⟨-, -, heq⟩ | ⟨-, -, heq⟩ <;> rw [heq]
  · exact .inr (by rw [updateCurrWrr_task])
  · exact .inr (by simp)
  · have hspent := counted_move cfg s c p 0
    exact .inl (sliceExpired_needResched hcfg (hspent.schedClass.trans hk) (hspent.cpu.trans hc)
      (hspent.rtPriority_le hrtp) rand)

/-- A tick moves the current task to another level only when it asks for a reschedule. -/
theorem schedulerTick_rtPriority (cfg : Config) (hc : (s.task (s.rq c).curr).cpu = c)
    (hrtp : (s.task (s.rq c).curr).rtPriority ≤ 99) (o : Outside) :
    (schedulerTick cfg s c o).needResched (s.rq c).curr = true ∨
      ((schedulerTick cfg s c o).task (s.rq c).curr).rtPriority =
        (s.task (s.rq c).curr).rtPriority := by
  by_cases hk : (s.task (s.rq c).curr).schedClass = .wrr
  · have htick : schedulerTick cfg s c o =
        (wrrSchedClass cfg).taskTick s c (s.rq c).curr o := by
      rw [schedulerTick, hk]
      rfl
    rw [htick]
    unfold wrrSchedClass
    cases hcfg : cfg.wrr with
    | basic => exact .inr (Basic.taskTickWrr_rtPriority cfg s c _)
    | rmlfq => exact Rmlfq.taskTickWrr_rtPriority hcfg hk hc hrtp o.rand
  · have hmove : Move cfg s (schedulerTick cfg s c o) (s.rq c).curr := schedulerTick_move hc hrtp o
    obtain ⟨_, _, _, _, hsame, heff⟩ := hmove.effect
    rw [heff.self]
    exact .inr (hsame.resolve_right hk)

/-- A tick or a yield of cpu `c` concerns no other cpu. -/
theorem Move.settled_other (hmove : Move cfg s t (s.rq c).curr) (hset : Settled cfg s c')
    (hon : s.CurrOnRq c) (hs : s.CurrOk) (h : Inv cfg s) (hc : c' ≠ c) : Settled cfg t c' := by
  obtain ⟨_, _, _, _, -, heff⟩ := hmove.effect
  refine hset.effect heff (fun hcurr => absurd hcurr (hs.curr_ne h hc)) fun hq => ?_
  exact absurd ((heff.queued_self.mp hq).2.2.symm.trans hon.2) hc

/-! ## Reschedules -/

/-- A reschedule settles its cpu, whatever the state was. -/
theorem switchTo_settled (h : Inv cfg s) (hk : OnlyWrrFair s) (ho : s.FairPickOk c o)
    (prev : Pid) : Settled cfg (switchTo cfg s c prev o) c := by
  obtain ⟨q, hbest, htask, hrq, -⟩ := switchTo_best h ho prev
  unfold Settled System.Queued
  rw [htask, hrq, Function.update_self]
  intro _ r hr
  have hfirst := hbest.first .wrr r ⟨hr, fun hrt => nomatch hrt⟩
  rcases hbest.eligible with hidle | ⟨hq, -⟩
  · rw [hidle, ((h.idle c _).mp rfl).2.1] at hfirst
    cases hfirst
  · have hwrr : (s.task q).schedClass = .wrr := by
      rcases hk q (h.alive_of_onRq hq.1) with hwrr | hfair | hidle
      · exact hwrr
      · rw [hfair] at hfirst
        cases hfirst
      · rw [hidle] at hfirst
        cases hfirst
    exact ⟨⟨hq.1, hwrr, hq.2.2⟩, hbest.level hwrr r hr⟩

/-- A reschedule of cpu `c` concerns no other cpu. -/
theorem schedule_settled_other (h : Inv cfg s) (hs : s.CurrOk) (hset : Settled cfg s c')
    (hc : c' ≠ c) {sleep : Bool} (hsleep : sleep = true → s.CurrOnRq c)
    (ho : (retirePrev cfg s c sleep).FairPickOk c o) :
    Settled cfg (schedule cfg s c sleep o) c' := by
  obtain ⟨hretire, hflags⟩ := retirePrev_effect cfg s c sleep
  obtain ⟨q, -, htask, hrq, hflags'⟩ :=
    switchTo_best (retirePrev_inv h hsleep) ho (s.rq c).curr
  have hne := hs.curr_ne h hc
  have hmid : Settled cfg (retirePrev cfg s c sleep) c' := by
    refine hset.effect hretire (fun hcurr => absurd hcurr hne) fun hq => .inr (.inl ?_)
    cases sleep with
    | true =>
      have hoff := hq.1
      rw [hretire.self] at hoff
      cases hoff
    | false => exact SamePlace.refl _
  unfold Settled System.Queued at hmid ⊢
  unfold schedule
  rw [htask, hrq, Function.update_of_ne hc, hflags']
  rw [hretire.frame.curr] at hmid ⊢
  rwa [Function.update_of_ne hne]

/-! ## Runs -/

/-- The operations of a run without changes of policy. -/
def Op.scheduling : Op → Bool
  | .fork _ _ | .wakeUp _ _ _ | .wakeUpNew _ _ _ | .schedule _ _ _ | .tick _ _
  | .schedYield _ _ | .migrate _ _ _ | .nice _ _ => true
  | _ => false

/-- A task that arrives is noticed if it is better than the current one. -/
def Op.Noticed (cfg : Config) (s : System) : Op → Prop
  | .wakeUp p c _ | .wakeUpNew p c _ | .migrate p c _ => Notices cfg s p c
  | _ => True

/-- A step about a task of these classes keeps the others out. -/
theorem OnlyWrrFair.effect (hk : OnlyWrrFair s) (heff : Effect s t p f)
    (hf : f.alive = true → f.schedClass = .wrr ∨ f.schedClass = .fair ∨ f.schedClass = .idle) :
    OnlyWrrFair t := by
  intro q hq
  by_cases hqp : q = p
  · subst hqp
    rw [heff.self] at hq ⊢
    exact hf hq
  · rw [heff.other hqp] at hq ⊢
    exact hk q hq

/-- What a run without policy changes keeps. -/
structure Calm (cfg : Config) (s : System) : Prop where
  inv : Inv cfg s
  curr : s.CurrOk
  onlyWrrFair : OnlyWrrFair s
  settled : ∀ c, Settled cfg s c

/-- A task that is not queued runs nowhere. -/
theorem Calm.curr_ne_of_off (h : Calm cfg s) (hoff : (s.task p).onRq = false)
    (hidle : ∀ c, (s.rq c).idle ≠ p) (c : Cpu) : (s.rq c).curr ≠ p := by
  rintro rfl
  rcases h.curr c with hc | hc
  · exact hidle c hc.symm
  · rw [hc.1] at hoff
    cases hoff

/-- The class of a child is WRR, fair or the class of its parent. -/
theorem forkTask_class_cases (f : Task) : (forkTask f).schedClass = .wrr ∨
    (forkTask f).schedClass = .fair ∨ (forkTask f).schedClass = f.schedClass := by
  unfold forkTask
  rw [forkClass_eq]
  dsimp only
  split
  · exact .inl rfl
  · split
    · exact .inr (.inr (forkReset_class _).1)
    · exact .inr (.inl rfl)

/-- A write that keeps class, cpu and level of a task, and whether it is queued. -/
theorem Calm.of_samePlace (h : Calm cfg s) (hinv : Inv cfg t) (heff : Effect s t p f)
    (hf : SamePlace cfg (s.task p) f) (halive : f.alive = (s.task p).alive) : Calm cfg t where
  inv := hinv
  curr := (heff.currKept_of_same hf.onRq hf.cpu).currOk h.curr
  onlyWrrFair := by
    refine h.onlyWrrFair.effect heff fun hlive => ?_
    rw [hf.schedClass]
    exact h.onlyWrrFair p (halive ▸ hlive)
  settled c := (h.settled c).effect heff (fun _ => .inr hf) fun _ => .inr (.inl hf)

theorem wakeUp_calm (h : Calm cfg s) (hp : s.Wakeable p c) (hnotice : Notices cfg s p c)
    (flags : Nat) (o : Outside) : Calm cfg (activateOn cfg s p c flags o) := by
  have hne := h.curr_ne_of_off hp.off hp.idle
  have heff := activateOn_effect cfg s p c flags o
  refine ⟨activateOn_inv h.inv hp flags o, (heff.currKept_of_off hp.off).currOk h.curr, ?_, ?_⟩
  · exact h.onlyWrrFair.effect heff fun _ => h.onlyWrrFair p hp.alive
  · intro c'
    exact arrive_settled h.inv h.curr h.onlyWrrFair (h.settled c')
      (activateTask_effect cfg s p c flags) rfl rfl rfl hne hnotice o

theorem migrateTask_calm (h : Calm cfg s) (hp : s.Ordinary p) (hne : ∀ c, (s.rq c).curr ≠ p)
    (hnotice : Notices cfg s p c) (o : Outside) : Calm cfg (migrateTask cfg s p c o) := by
  by_cases hon : (s.task p).onRq = true
  · have heff := migrateTask_effect cfg s p c o hon
    refine ⟨migrateTask_inv h.inv hp c o, ?_, ?_, fun c' => ?_⟩
    · exact (heff.currKept fun d hd _ => absurd hd (hne d)).currOk h.curr
    · exact h.onlyWrrFair.effect heff fun _ => h.onlyWrrFair p hp.1
    · unfold migrateTask
      rw [if_pos hon]
      exact arrive_settled h.inv h.curr h.onlyWrrFair (h.settled c')
        (reattach_effect cfg s _ c p (fun t => { t with cpu := c }) 0) rfl rfl rfl hne hnotice o
  · rw [show migrateTask cfg s p c o = s from if_neg hon]
    exact h

theorem schedulerTick_calm (h : Calm cfg s) (o : Outside) : Calm cfg (schedulerTick cfg s c o) := by
  rcases h.curr c with hidle | hon
  · rw [(idle_tick h.inv hidle o).1]
    exact h
  · have hrtp := (h.inv.task _ (h.inv.alive_of_onRq hon.1)).rtPriority
    have hmove : Move cfg s (schedulerTick cfg s c o) (s.rq c).curr :=
      schedulerTick_move hon.2 hrtp o
    obtain ⟨_, _, _, _, -, heff⟩ := hmove.effect
    refine ⟨schedulerTick_inv h.inv (.inr hon) o, hmove.currKept.currOk h.curr, ?_, fun c' => ?_⟩
    · exact h.onlyWrrFair.effect heff fun hlive => h.onlyWrrFair _ hlive
    · by_cases hc : c' = c
      · subst hc
        -- the tick asks for a reschedule, or leaves the task in its place
        rcases schedulerTick_rtPriority cfg hon.2 hrtp o with hflag | hsame
        · exact (h.settled c').effect heff (fun _ => .inl hflag) fun _ => .inl hflag
        · rw [heff.self] at hsame
          refine (h.settled c').effect heff (fun _ => .inr ?_) fun _ => .inr (.inl ?_)
          · exact ⟨rfl, rfl, rfl, wrrLevel_congr hsame⟩
          · exact ⟨rfl, rfl, rfl, wrrLevel_congr hsame⟩
      · exact hmove.settled_other (h.settled c') hon h.curr h.inv hc

/-- A reschedule settles its own cpu, so only the others have to be settled before it. -/
theorem schedule_calm (h : Inv cfg s) (hs : s.CurrOk) (hk : OnlyWrrFair s)
    (hset : ∀ c', c' ≠ c → Settled cfg s c') {sleep : Bool} (hsleep : sleep = true → s.CurrOnRq c)
    (ho : (retirePrev cfg s c sleep).FairPickOk c o) : Calm cfg (schedule cfg s c sleep o) := by
  obtain ⟨hretire, -⟩ := retirePrev_effect cfg s c sleep
  have hinv := retirePrev_inv h hsleep
  have hk' : OnlyWrrFair (retirePrev cfg s c sleep) :=
    hk.effect hretire fun hlive => hk _ hlive
  refine ⟨schedule_inv h hsleep o, schedule_currOk h hs hsleep ho, ?_, fun c' => ?_⟩
  · obtain ⟨q, -, htask, -⟩ := switchTo_best hinv ho (s.rq c).curr
    unfold schedule OnlyWrrFair
    rw [htask]
    exact hk'
  · by_cases hc : c' = c
    · subst hc
      exact switchTo_settled hinv hk' ho _
    · exact schedule_settled_other h hs (hset c' hc) hc hsleep ho

/-- A yield keeps the other CPUs calm. -/
theorem yieldTask_calm_other (h : Calm cfg s) (o : Outside) :
    OnlyWrrFair (yieldTask cfg s c o) ∧ ∀ c', c' ≠ c → Settled cfg (yieldTask cfg s c o) c' := by
  rcases h.curr c with hidle | hon
  · rw [(idle_tick h.inv hidle o).2]
    exact ⟨h.onlyWrrFair, fun c' _ => h.settled c'⟩
  · have hrtp := (h.inv.task _ (h.inv.alive_of_onRq hon.1)).rtPriority
    have hmove : Move cfg s (yieldTask cfg s c o) (s.rq c).curr := yieldTask_move hon.2 hrtp o
    obtain ⟨_, _, _, _, -, heff⟩ := hmove.effect
    refine ⟨h.onlyWrrFair.effect heff fun hlive => h.onlyWrrFair _ hlive, fun c' hc => ?_⟩
    exact hmove.settled_other (h.settled c') hon h.curr h.inv hc

theorem schedFork_calm (h : Calm cfg s) {parent child : Pid} (hp : s.Ordinary parent)
    (hchild : (s.task child).alive = false) : Calm cfg (schedFork s parent child) := by
  have hoff := h.inv.dead child hchild
  have hidle : ∀ c, (s.rq c).idle ≠ child := by
    rintro c rfl
    rw [((h.inv.idle c _).mp rfl).1] at hchild
    cases hchild
  have hne := h.curr_ne_of_off hoff hidle
  have hfork := Effect.setTask s child (forkTask (s.task parent))
  obtain ⟨hparent, hidle', hstop'⟩ := h.inv.ordinary_iff.mp hp
  refine ⟨schedFork_inv h.inv hp hchild, ?_, ?_, fun c => ?_⟩
  · refine CurrKept.currOk ?_ h.curr
    exact (hfork.currKept_of_off hoff).trans (CurrKept.of_rq rfl (fun _ => rfl) fun _ => rfl)
  · have hk := h.onlyWrrFair.effect hfork fun _ => by
      rcases forkTask_class_cases (s.task parent) with hwrr | hfair | hsame
      · exact .inl hwrr
      · exact .inr (.inl hfair)
      · rw [hsame]
        exact h.onlyWrrFair parent hparent
    exact hk
  · have hset : Settled cfg (s.setTask child (forkTask (s.task parent))) c := by
      refine (h.settled c).effect hfork (fun hc => absurd hc (hne c)) fun hq => ?_
      have hon := hq.1
      rw [hfork.self, (forkTask_class hidle' hstop').2.2.2] at hon
      cases hon
    -- the child is not current, so clearing its flag clears no request
    intro hflag
    refine hset ?_
    have hclear : (schedFork s parent child).needResched =
        Function.update s.needResched child false := rfl
    have hcurr : ((schedFork s parent child).rq c).curr = (s.rq c).curr := rfl
    rwa [hclear, hcurr, Function.update_of_ne (hne c)] at hflag

/-- **Step lemma**: a noticed operation keeps every cpu settled. -/
theorem exec_calm (h : Calm cfg s) {op : Op} (hop : op.Core cfg s) (hkind : op.scheduling = true)
    (hnotice : op.Noticed cfg s) : Calm cfg (exec cfg s op) := by
  obtain ⟨hpre, hcore⟩ := hop
  cases op with
  | fork parent child => exact schedFork_calm h hpre.1 hpre.2
  | wakeUp p c o => exact wakeUp_calm h hpre hnotice _ o
  | wakeUpNew p c o => exact wakeUp_calm h hpre hnotice _ o
  | schedule c sleep o =>
    exact schedule_calm h.inv h.curr h.onlyWrrFair (fun c' _ => h.settled c') hpre hcore
  | tick c o => exact schedulerTick_calm h o
  | schedYield c o =>
    obtain ⟨hk, hset⟩ := yieldTask_calm_other (c := c) h o
    exact schedule_calm (yieldTask_inv h.inv hpre o)
      ((yieldTask_currKept h.inv hpre o).currOk h.curr) hk hset (fun hs => nomatch hs) hcore
  | migrate p dest o => exact migrateTask_calm h hpre hcore hnotice o
  | nice p nice =>
    have hinv := setUserNice_inv h.inv hpre nice
    rcases setUserNice_effect cfg s p nice with ⟨-, heq⟩ | ⟨-, ⟨-, heff⟩ | ⟨-, heff⟩⟩
    · rw [show exec cfg s (.nice p nice) = s from heq]
      exact h
    · exact h.of_samePlace hinv heff ⟨rfl, rfl, rfl, wrrLevel_congr rfl⟩ rfl
    · exact h.of_samePlace hinv heff ⟨rfl, rfl, rfl, wrrLevel_congr rfl⟩ rfl
  | _ => cases hkind

theorem boot_calm (hs : Boot s) (hk : OnlyWrrFair s) : Calm cfg s where
  inv := hs.inv
  curr := hs.currOk
  onlyWrrFair := hk
  settled c _ q hq := by
    rw [System.Queued, hs.off q] at hq
    cases hq.1

/-- **Runs whose arrivals are noticed stay settled**, with either file. -/
theorem noticed_calm {ok : System → Op → Prop}
    (hok : ∀ s op, ok s op → op.Core cfg s ∧ op.scheduling = true ∧ op.Noticed cfg s)
    (hs : Boot s) (hk : OnlyWrrFair s) (h : Reach ok (exec cfg) s t) : Calm cfg t :=
  h.invariant (I := Calm cfg)
    (fun _ op hcalm hop => exec_calm hcalm (hok _ op hop).1 (hok _ op hop).2.1 (hok _ op hop).2.2)
    (boot_calm hs hk)

/-- A settled WRR task is at the level the WRR class would pick. -/
theorem Calm.pick_level (h : Calm cfg s)
    (hflag : s.needResched (s.rq c).curr = false)
    (hwrr : (s.task (s.rq c).curr).schedClass = .wrr) :
    ∃ q, (pickNextTaskWrr s c).1 = some q ∧ s.Queued .wrr c q ∧
      wrrLevel cfg (s.task q) = wrrLevel cfg (s.task (s.rq c).curr) := by
  have hcurr : s.Queued .wrr c (s.rq c).curr := by
    rcases h.curr c with hidle | hon
    · rw [hidle, ((h.inv.idle c _).mp rfl).2.1] at hwrr
      cases hwrr
    · exact ⟨hon.1, hwrr, hon.2⟩
  have hnr : (s.rq c).wrr.wrrNrRunning ≠ 0 := fun hz => h.inv.wrrNr_eq_zero_iff.mp hz _ hcurr
  obtain ⟨-, q, hpick, hq, -, hmin⟩ := h.inv.wrr_search hnr
  refine ⟨q, by rw [hpick], hq, le_antisymm (hmin _ hcurr) ?_⟩
  exact (h.settled c hflag q hq).2

/-- The boot system of WRR tasks has no RT task. -/
theorem wrrSystem_onlyWrrFair (prio : Pid → Nat) : OnlyWrrFair (wrrSystem prio) := by
  intro p _
  have htask : (wrrSystem prio).task p = bootTask (fun p => wrrTask (min (prio p) 99)) p := rfl
  rw [htask]
  by_cases hp : p % 2 = 0
  · rw [bootTask_even _ hp]
    exact .inr (.inr rfl)
  · rw [bootTask_odd _ hp]
    exact .inl rfl

/-! ## The RMLFQ class -/

/-- In the second file every step is noticed. -/
theorem Op.noticed_rmlfq (hcfg : cfg.wrr = .rmlfq) (s : System) (op : Op) :
    op.Noticed cfg s := by
  have hall : ∀ p c, Notices cfg s p c := by
    intro p c _ _
    refine .inr ?_
    unfold hookFires
    rw [hcfg, wrrLevel_rmlfq hcfg, wrrLevel_rmlfq hcfg]
    exact (Nat.lt_or_ge _ _).imp_left decide_eq_true
  cases op with
  | wakeUp p c | wakeUpNew p c | migrate p c => exact hall p c
  | _ => trivial

/-- **No missed preemption in the RMLFQ class.** Whenever no reschedule is pending and some
WRR task is queued, the current task is a queued WRR task of the lowest index among them,
which is the level the class-by-class pick would choose. -/
theorem rmlfq_noMissedPreemption (hcfg : cfg.wrr = .rmlfq) (hs : Boot s) (hk : OnlyWrrFair s)
    (h : Reach (fun s op => op.Core cfg s ∧ op.scheduling = true) (exec cfg) s t)
    (hflag : t.needResched (t.rq c).curr = false) (hp : t.Queued .wrr c p) :
    t.Queued .wrr c (t.rq c).curr ∧
      (∀ q, t.Queued .wrr c q →
        ¬99 - (t.task q).rtPriority < 99 - (t.task (t.rq c).curr).rtPriority) ∧
      ∃ q, (pickNextTaskWrr t c).1 = some q ∧ t.Queued .wrr c q ∧
        99 - (t.task q).rtPriority = 99 - (t.task (t.rq c).curr).rtPriority := by
  have hcalm : Calm cfg t :=
    noticed_calm (fun s op hop => ⟨hop.1, hop.2, Op.noticed_rmlfq hcfg s op⟩) hs hk h
  have hset := hcalm.settled c hflag
  have hcurr := (hset p hp).1
  refine ⟨hcurr, fun q hq => ?_, ?_⟩
  · have hle := (hset q hq).2
    rw [wrrLevel_rmlfq hcfg, wrrLevel_rmlfq hcfg] at hle
    exact Nat.not_lt.mpr hle
  · have hpick := hcalm.pick_level hflag hcurr.2.1
    simpa only [wrrLevel_rmlfq hcfg] using hpick

/-- Two WRR tasks wake up on cpu 0; the second one, at a lower index, asks for a
reschedule, which runs it. -/
theorem rmlfq_noMissedPreemption_boot :
    let ops : List Op := [.wakeUp 1 0 .quiet, .schedule 0 false .quiet, .wakeUp 5 0 .quiet,
      .schedule 0 false .quiet]
    let t := ops.foldl (exec (upConfig .rmlfq)) (wrrSystem fun p => p * 10)
    t.Queued .wrr 0 (t.rq 0).curr ∧
      (∀ q, t.Queued .wrr 0 q →
        ¬99 - (t.task q).rtPriority < 99 - (t.task (t.rq 0).curr).rtPriority) ∧
      ∃ q, (pickNextTaskWrr t 0).1 = some q ∧ t.Queued .wrr 0 q ∧
        99 - (t.task q).rtPriority = 99 - (t.task (t.rq 0).curr).rtPriority := by
  intro ops t
  have hrun : Reach (fun s op => op.Core (upConfig .rmlfq) s ∧ op.scheduling = true)
      (exec (upConfig .rmlfq)) (wrrSystem fun p => p * 10) t :=
    core_of_check (wrrSystem_boot _) ops (by decide)
  exact rmlfq_noMissedPreemption rfl (wrrSystem_boot _) (wrrSystem_onlyWrrFair _) hrun (by decide)
    (show t.Queued .wrr 0 1 by decide)

/-! ## The basic class -/

/-- No WRR task arrives that the basic class would pick before the current WRR task, unless
a reschedule is pending. -/
def Op.NoBetterArrival (s : System) : Op → Prop
  | .wakeUp p c _ | .wakeUpNew p c _ | .migrate p c _ =>
    (s.task p).schedClass = .wrr → (s.task (s.rq c).curr).schedClass = .wrr →
      s.needResched (s.rq c).curr = false →
        (s.task (s.rq c).curr).rtPriority ≤ (s.task p).rtPriority
  | _ => True

/-- In the first file a step is noticed if nobody better arrives. -/
theorem Op.NoBetterArrival.noticed (hcfg : cfg.wrr = .basic) {op : Op}
    (hop : op.NoBetterArrival s) : op.Noticed cfg s := by
  cases op with
  | wakeUp p c | wakeUpNew p c | migrate p c =>
    intro hp hcurr
    rw [wrrLevel_basic hcfg, wrrLevel_basic hcfg]
    by_cases hflag : s.needResched (s.rq c).curr = true
    · exact .inl hflag
    · exact .inr (.inr (hop hp hcurr (by simpa using hflag)))
  | _ => trivial

/-- **The basic class misses no preemption as long as no better task arrives**: then the
current WRR task is at the level the pick would choose, unless a reschedule is pending. -/
theorem basic_noMissedPreemption (hcfg : cfg.wrr = .basic) (hs : Boot s) (hk : OnlyWrrFair s)
    (h : Reach (fun s op => (op.Core cfg s ∧ op.scheduling = true) ∧ op.NoBetterArrival s)
      (exec cfg) s t)
    (hflag : t.needResched (t.rq c).curr = false)
    (hwrr : (t.task (t.rq c).curr).schedClass = .wrr) :
    ∃ q, (pickNextTaskWrr t c).1 = some q ∧ t.Queued .wrr c q ∧
      Basic.wrrSePrio (t.task q) = Basic.wrrSePrio (t.task (t.rq c).curr) := by
  have hcalm : Calm cfg t :=
    noticed_calm (fun s op hop => ⟨hop.1.1, hop.1.2, hop.2.noticed hcfg⟩) hs hk h
  have hpick := hcalm.pick_level hflag hwrr
  simp only [wrrLevel_basic hcfg] at hpick
  exact hpick

/-- Step by step, no better task arrives. -/
instance (s : System) (op : Op) : Decidable (op.NoBetterArrival s) :=
  match op with
  | .wakeUp _ _ _ | .wakeUpNew _ _ _ | .migrate _ _ _ =>
    inferInstanceAs (Decidable (_ → _ → _ → _))
  | .fork _ _ | .schedule _ _ _ | .tick _ _ | .schedYield _ _ | .nice _ _
  | .setscheduler _ _ _ _ _ | .setprio _ _ _ _ | .normalize _ _ | .moveGroup _ _ | .throttle _
  | .unthrottle _ | .clock _ _ | .enqueue _ _ _ | .dequeue _ | .yield _ _ | .requeue _ _ _
  | .pick _ _ => .isTrue trivial

/-- Two WRR tasks of descending priority wake up. -/
theorem basic_noMissedPreemption_boot :
    let ops : List Op := [.wakeUp 1 0 .quiet, .schedule 0 false .quiet, .wakeUp 5 0 .quiet,
      .tick 0 .quiet, .schedule 0 false .quiet]
    let t := ops.foldl (exec (upConfig .basic)) (wrrSystem fun p => p * 10)
    ∃ q, (pickNextTaskWrr t 0).1 = some q ∧ t.Queued .wrr 0 q ∧
      Basic.wrrSePrio (t.task q) = Basic.wrrSePrio (t.task (t.rq 0).curr) := by
  intro ops t
  have hrun : Reach (fun s op => op.Core (upConfig .basic) s ∧ op.scheduling = true ∧
      op.NoBetterArrival s) (exec (upConfig .basic)) (wrrSystem fun p => p * 10) t :=
    core_of_check (wrrSystem_boot _) ops (by decide)
  exact basic_noMissedPreemption rfl (wrrSystem_boot _) (wrrSystem_onlyWrrFair _)
    (hrun.mono fun _ _ hop => ⟨⟨hop.1, hop.2.1⟩, hop.2.2⟩) (by decide) (by decide)

/-- A task with `rt_priority` 10 wakes up while one with 50 runs: no reschedule is asked
for, though the pick would take the woken task, whose index is lower. -/
theorem basic_missedPreemption :
    let ops : List Op := [.wakeUp 5 0 .quiet, .schedule 0 false .quiet, .wakeUp 1 0 .quiet,
      .tick 0 .quiet]
    let s := wrrSystem fun p => p * 10
    let t := ops.foldl (exec (upConfig .basic)) s
    Boot s ∧ OnlyWrrFair s ∧
      Reach (fun s op => op.Core (upConfig .basic) s ∧ op.scheduling = true)
        (exec (upConfig .basic)) s t ∧
      t.needResched (t.rq 0).curr = false ∧ (t.task (t.rq 0).curr).schedClass = .wrr ∧
      (pickNextTaskWrr t 0).1 = some 1 ∧
      Basic.wrrSePrio (t.task 1) < Basic.wrrSePrio (t.task (t.rq 0).curr) :=
  ⟨wrrSystem_boot _, wrrSystem_onlyWrrFair _, core_of_check (wrrSystem_boot _) _ (by decide),
    by decide, by decide, by decide, by decide⟩

end LinuxWrr
