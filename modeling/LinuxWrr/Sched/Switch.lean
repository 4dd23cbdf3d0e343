import LinuxWrr.Sched.Setscheduler

/-!
# Preemption after a switch to `SCHED_WRR`

When `__sched_setscheduler` returns, the current task should be one that the pick would
also choose, or be asked to reschedule. For a task that enters the WRR class this is left
to `switched_to_wrr`, which compares the `rt_priority` of the task with that of the
current one, whatever its class, and does nothing when they are the same task.

- `best_curr_iff`, `pickMatches_iff`: when the current task is as good as the pick.
- `switch_spec`: what the call leaves, task by task.
- `SwitchOk`: the states before the call in which the hook's answer is the right one.
- `switchToWrr_preempts_iff`: **the call meets the requirement in exactly these states**.
-/

namespace LinuxWrr

variable {cfg : Config} {s s₀ t u : System} {c : Cpu} {p q : Pid} {o : Outside} {k : ClassId}

/-! ## The right current task -/

/-- The class-by-class search selects the class of the current task and, in the WRR class,
its level. -/
def PickMatches (cfg : Config) (s : System) (c : Cpu) (o : Outside) : Prop :=
  ∃ q t, pickFrom cfg c o forEachClass s = (some q, t) ∧
    (s.task (s.rq c).curr).schedClass = (s.task q).schedClass ∧
      ((s.task q).schedClass = .wrr →
        wrrLevel cfg (s.task (s.rq c).curr) = wrrLevel cfg (s.task q))

/-- Of two different classes one precedes the other. -/
theorem ClassId.eq_of_not_precedes {k k' : ClassId} (h : k.precedes k' = false)
    (h' : k'.precedes k = false) : k = k' := by
  revert h h'
  cases k <;> cases k' <;> decide

/-- Nothing that may run is of an earlier class than the best task. -/
theorem Best.not_precedes (h : Inv cfg s) (hp : Best cfg s c p) (hq : Best cfg s c q) :
    (s.task p).schedClass.precedes (s.task q).schedClass = false := by
  rcases hp.eligible with hidle | helig
  · have hclass : (s.task p).schedClass = .idle := ((h.idle c p).mp hidle.symm).2.1
    rw [hclass]
    cases (s.task q).schedClass <;> rfl
  · exact hq.first _ p helig

/-- The best tasks are of one class, and in the WRR class of one level. -/
theorem Best.unique (h : Inv cfg s) (hp : Best cfg s c p) (hq : Best cfg s c q) :
    (s.task p).schedClass = (s.task q).schedClass ∧ ((s.task q).schedClass = .wrr →
      wrrLevel cfg (s.task p) = wrrLevel cfg (s.task q)) := by
  have hclass : (s.task p).schedClass = (s.task q).schedClass :=
    ClassId.eq_of_not_precedes (hp.not_precedes h hq) (hq.not_precedes h hp)
  refine ⟨hclass, fun hwrr => ?_⟩
  have hqueued : ∀ r, Best cfg s c r → (s.task r).schedClass = .wrr → s.Queued .wrr c r := by
    intro r hr hk
    rcases hr.eligible with hidle | helig
    · rw [((h.idle c r).mp hidle.symm).2.1] at hk
      cases hk
    · rw [hk] at helig
      exact helig.1
  have hwrr' := hclass.trans hwrr
  exact Nat.le_antisymm (hp.level hwrr' q (hqueued q hq hwrr)) (hq.level hwrr p (hqueued p hp hwrr'))

/-- The current task is queued or idle, so all that can make another task better is its
class, a throttled RT class, and its level. -/
theorem best_curr_iff (h : Inv cfg s) (hs : s.CurrOk) : Best cfg s c (s.rq c).curr ↔
    ((s.task (s.rq c).curr).schedClass = .rt → (s.rq c).rt.rtThrottled = false) ∧
      (∀ k p, s.Eligible k c p → k.precedes (s.task (s.rq c).curr).schedClass = false) ∧
      ((s.task (s.rq c).curr).schedClass = .wrr → ∀ p, s.Queued .wrr c p →
        wrrLevel cfg (s.task (s.rq c).curr) ≤ wrrLevel cfg (s.task p)) := by
  constructor
  · intro hbest
    refine ⟨fun hrt => ?_, hbest.first, hbest.level⟩
    rcases hbest.eligible with hidle | helig
    · rw [hidle, ((h.idle c _).mp rfl).2.1] at hrt
      cases hrt
    · exact helig.2 hrt
  · rintro ⟨hrt, hfirst, hlevel⟩
    refine ⟨?_, hfirst, hlevel⟩
    rcases hs c with hidle | hon
    · exact .inl hidle
    · exact .inr ⟨⟨hon.1, rfl, hon.2⟩, hrt⟩

/-- The current task is the one to run exactly when the search selects its class and
level. -/
theorem pickMatches_iff (h : Inv cfg s) (hs : s.CurrOk) (ho : s.FairPickOk c o) :
    PickMatches cfg s c o ↔ Best cfg s c (s.rq c).curr := by
  obtain ⟨q, t, hpick, hbest⟩ := h.pick_best ho
  constructor
  · rintro ⟨q', t', hpick', hclass, hlevel⟩
    rw [hpick] at hpick'
    cases hpick'
    refine ⟨?_, by rw [hclass]; exact hbest.first, fun hwrr => ?_⟩
    · rcases hs c with hidle | hon
      · exact .inl hidle
      · refine .inr ⟨⟨hon.1, rfl, hon.2⟩, fun hrt => ?_⟩
        rcases hbest.eligible with rfl | helig
        · rw [hclass, ((h.idle c _).mp rfl).2.1] at hrt
          cases hrt
        · exact helig.2 (hclass.symm.trans hrt)
    · rw [hclass] at hwrr
      rw [hlevel hwrr]
      exact hbest.level hwrr
  · intro hcurr
    exact ⟨q, t, hpick, (hcurr.unique h hbest).1, (hcurr.unique h hbest).2⟩

/-! ## What the call does -/

instance (s : System) (q : Pid) : Decidable (s.Movable q) :=
  inferInstanceAs (Decidable (_ ∧ _ ∧ _))

/-- `pull_rt_task` brings in the movable ones of the tasks it is given. -/
theorem pullRtTask_spec (c : Cpu) (tasks : List Pid) (s : System) :
    (Rt.pullRtTask s c tasks).needResched = s.needResched ∧
      ∀ q, (Rt.pullRtTask s c tasks).task q =
        if q ∈ tasks ∧ s.Movable q then { s.task q with cpu := c } else s.task q := by
  induction tasks generalizing s with
  | nil =>
    refine ⟨rfl, fun q => ?_⟩
    rw [if_neg fun hq => List.not_mem_nil hq.1]
    rfl
  | cons r tasks ih =>
    obtain ⟨hflag, htask⟩ := ih (Rt.moveRtTask s r c)
    have hfold : Rt.pullRtTask s c (r :: tasks) =
        Rt.pullRtTask (Rt.moveRtTask s r c) c tasks := rfl
    rw [hfold]
    rcases moveRtTask_cases s r c with ⟨hno, heq⟩ | ⟨hmov, heff, hkeep⟩
    · rw [heq] at hflag htask ⊢
      refine ⟨hflag, fun q => ?_⟩
      rw [htask q]
      have hiff : (q ∈ tasks ∧ s.Movable q) ↔ (q ∈ r :: tasks ∧ s.Movable q) := by
        constructor
        · exact fun hq => ⟨List.mem_cons_of_mem r hq.1, hq.2⟩
        · rintro ⟨hq, hmov⟩
          refine ⟨(List.mem_cons.mp hq).resolve_left ?_, hmov⟩
          rintro rfl
          exact hno hmov
      exact if_congr hiff rfl rfl
    · refine ⟨hflag.trans hkeep, fun q => ?_⟩
      rw [htask q]
      by_cases hqr : q = r
      · -- moved already, and moving it again changes nothing
        subst hqr
        have hmem : q ∈ q :: tasks ∧ s.Movable q := ⟨List.mem_cons_self, hmov⟩
        rw [heff.self, if_pos hmem]
        split <;> rfl
      · have hmovable : (Rt.moveRtTask s r c).Movable q ↔ s.Movable q := by
          unfold System.Movable
          rw [heff.other hqr, heff.frame.curr]
        have hiff : (q ∈ tasks ∧ (Rt.moveRtTask s r c).Movable q) ↔
            (q ∈ r :: tasks ∧ s.Movable q) := by
          rw [hmovable, List.mem_cons, or_iff_right hqr]
        rw [heff.other hqr]
        exact if_congr hiff rfl rfl

/-- The tasks that `switched_from_rt` pulls. -/
def Pulls (cfg : Config) (s : System) (p : Pid) (o : Outside) (q : Pid) : Prop :=
  cfg.smp = true ∧ s.Queued .rt (s.task p).cpu p ∧
    (∀ r, r ≠ p → ¬s.Queued .rt (s.task p).cpu r) ∧ q ∈ o.rtPull ∧ q ≠ p ∧ s.Movable q

/-- What a call that puts `p` in the WRR class leaves: only `p` and pulled RT tasks are
written, and the one flag it may set is that of the current task of `p`'s cpu. -/
structure Switched (cfg : Config) (s : System) (p : Pid) (prio : Nat) (o : Outside)
    (t : System) : Prop where
  frame : Frame s t
  self : (t.task p).schedClass = .wrr ∧ (t.task p).onRq = (s.task p).onRq ∧
    (t.task p).cpu = (s.task p).cpu ∧ wrrLevel cfg (t.task p) = wrrIndex cfg prio
  pulled : ∀ q, Pulls cfg s p o q → t.task q = { s.task q with cpu := (s.task p).cpu }
  other : ∀ q, q ≠ p → ¬Pulls cfg s p o q → t.task q = s.task q
  flag : t.needResched (s.rq (s.task p).cpu).curr = true ↔
    s.needResched (s.rq (s.task p).cpu).curr = true ∨
      (s.task p).onRq = true ∧ (s.rq (s.task p).cpu).curr ≠ p ∧
        wrrIndex cfg prio < wrrLevel cfg (s.task (s.rq (s.task p).cpu).curr)

/-- The list of a task is that of its priority. -/
theorem wrrLevel_eq_index (f : Task) : wrrLevel cfg f = wrrIndex cfg f.rtPriority := by
  unfold wrrIndex
  cases hcfg : cfg.wrr with
  | basic => exact wrrLevel_basic hcfg f
  | rmlfq => exact wrrLevel_rmlfq hcfg f

/-- `switched_to_wrr` of both files compares levels. -/
theorem wrrSwitchedTo_eq (cfg : Config) (s : System) (c : Cpu) (p : Pid) (o : Outside) :
    (wrrSchedClass cfg).switchedTo s c p o =
      if (s.task p).onRq = true ∧ (s.rq c).curr ≠ p then
        if wrrLevel cfg (s.task p) < wrrLevel cfg (s.task (s.rq c).curr) then s.reschedCurr c
        else s
      else s := by
  unfold wrrSchedClass
  cases hcfg : cfg.wrr with
  | basic =>
    rw [wrrLevel_basic hcfg, wrrLevel_basic hcfg]
    rfl
  | rmlfq =>
    rw [wrrLevel_rmlfq hcfg, wrrLevel_rmlfq hcfg]
    rfl

/-- `switched_to_wrr` sets the flag of the current task exactly when the new one is in an earlier
list. -/
theorem wrrSwitchedTo_flag (cfg : Config) (s : System) (c : Cpu) (p : Pid) (o : Outside) :
    ((wrrSchedClass cfg).switchedTo s c p o).needResched (s.rq c).curr = true ↔
      s.needResched (s.rq c).curr = true ∨ (s.task p).onRq = true ∧ (s.rq c).curr ≠ p ∧
        wrrLevel cfg (s.task p) < wrrLevel cfg (s.task (s.rq c).curr) := by
  rw [wrrSwitchedTo_eq]
  by_cases hon : (s.task p).onRq = true ∧ (s.rq c).curr ≠ p
  · rw [if_pos hon]
    by_cases hlt : wrrLevel cfg (s.task p) < wrrLevel cfg (s.task (s.rq c).curr)
    · rw [if_pos hlt]
      refine iff_of_true ?_ (.inr ⟨hon.1, hon.2, hlt⟩)
      show Function.update s.needResched (s.rq c).curr true (s.rq c).curr = true
      rw [Function.update_self]
    · rw [if_neg hlt]
      exact ⟨.inl, fun h => h.resolve_right fun hno => hlt hno.2.2⟩
  · rw [if_neg hon]
    exact ⟨.inl, fun h => h.resolve_right fun hno => hon ⟨hno.1, hno.2.1⟩⟩

/-- `switched_from` of the class that is left sets no flag and moves the tasks that are pulled. -/
theorem switchedFrom_spec (cfg : Config) (u : System) (c : Cpu) (p : Pid) (o : Outside)
    (hk : k = .fair ∨ k = .rt) :
    ((schedClassOf cfg k).switchedFrom u c p o).needResched = u.needResched ∧
      ∀ q, ((schedClassOf cfg k).switchedFrom u c p o).task q =
        if (k = .rt ∧ cfg.smp = true ∧ (u.task p).onRq = true ∧ (u.rq c).rt.rtNrRunning = 0) ∧
            q ∈ o.rtPull ∧ u.Movable q
          then { u.task q with cpu := c } else u.task q := by
  rcases hk with rfl | rfl
  · refine ⟨rfl, fun q => ?_⟩
    have hno : ¬((ClassId.fair = .rt ∧ cfg.smp = true ∧ (u.task p).onRq = true ∧
        (u.rq c).rt.rtNrRunning = 0) ∧ q ∈ o.rtPull ∧ u.Movable q) := fun h => nomatch h.1.1
    rw [if_neg hno]
    rfl
  · show (Rt.switchedFromRt cfg u c p o).needResched = _ ∧ ∀ q,
      (Rt.switchedFromRt cfg u c p o).task q = _
    unfold Rt.switchedFromRt
    by_cases hpull : cfg.smp = true ∧ (u.task p).onRq = true ∧ (u.rq c).rt.rtNrRunning = 0
    · rw [if_pos hpull]
      obtain ⟨hflag, htask⟩ := pullRtTask_spec c o.rtPull u
      refine ⟨hflag, fun q => (htask q).trans ?_⟩
      exact if_congr ⟨fun hq => ⟨⟨rfl, hpull⟩, hq⟩, fun hq => hq.2⟩ rfl rfl
    · rw [if_neg hpull]
      refine ⟨rfl, fun q => ?_⟩
      rw [if_neg fun h => hpull h.1.2]

/-- Before `check_class_changed` the task is already in the WRR class, and the run queue
of its cpu has lost it as an RT task. -/
theorem pulls_iff (h : Inv cfg u) {g : Task} (heff : Effect s u p g)
    (hclass : g.schedClass = .wrr) (hon : g.onRq = (s.task p).onRq) (q : Pid) :
    (((s.task p).schedClass = .rt ∧ cfg.smp = true ∧ (u.task p).onRq = true ∧
        (u.rq (s.task p).cpu).rt.rtNrRunning = 0) ∧ q ∈ o.rtPull ∧ u.Movable q) ↔
      Pulls cfg s p o q := by
  -- `p` has left the RT class, everything else is where it was
  have hqueued : ∀ c r, u.Queued .rt c r ↔ r ≠ p ∧ s.Queued .rt c r := by
    intro c r
    by_cases hrp : r = p
    · subst hrp
      rw [heff.queued_self, hclass]
      refine iff_of_false ?_ fun hr => hr.1 rfl
      rintro ⟨-, hk, -⟩
      cases hk
    · rw [heff.queued_other hrp]
      exact (and_iff_right hrp).symm
  have hmovable : u.Movable q ↔ q ≠ p ∧ s.Movable q := by
    unfold System.Movable
    by_cases hqp : q = p
    · subst hqp
      rw [heff.self, hclass]
      refine iff_of_false ?_ fun hq => hq.1 rfl
      rintro ⟨hk, -⟩
      cases hk
    · rw [heff.other hqp, heff.frame.curr]
      exact (and_iff_right hqp).symm
  have hempty : (u.rq (s.task p).cpu).rt.rtNrRunning = 0 ↔
      ∀ r, r ≠ p → ¬s.Queued .rt (s.task p).cpu r := by
    rw [h.rtNr_eq_zero_iff]
    refine forall_congr' fun r => ?_
    rw [hqueued, not_and]
  unfold Pulls System.Queued
  rw [hempty, hmovable, heff.self, hon]
  constructor
  · rintro ⟨⟨hrt, hsmp, hon', hnone⟩, hmem, hne, hmov⟩
    exact ⟨hsmp, ⟨hon', hrt, rfl⟩, hnone, hmem, hne, hmov⟩
  · rintro ⟨hsmp, ⟨hon', hrt, -⟩, hnone, hmem, hne, hmov⟩
    exact ⟨⟨hrt, hsmp, hon', hnone⟩, hmem, hne, hmov⟩

/-- **What the call leaves**: the task in its new place, and what balancing adds. -/
theorem switch_spec (h : Inv cfg s) (hp : s.Ordinary p)
    (hfrom : (s.task p).schedClass = .fair ∨ (s.task p).schedClass = .rt) {prio : Nat}
    (hprio : prio ≤ 99) (reset : Bool) (o : Outside) :
    Switched cfg s p prio o (changeScheduler cfg s p .wrr reset prio o) := by
  obtain ⟨slice, times, heff, hkeep⟩ := withScheduler_effect cfg s p .wrr reset prio
  have hinv : Inv cfg (withScheduler cfg s p .wrr reset prio) :=
    withScheduler_inv h hp ⟨hprio, fun _ hno => absurd hno (by decide)⟩ reset
  rw [changeScheduler_eq]
  generalize withScheduler cfg s p .wrr reset prio = u at *
  obtain ⟨hflag, htask⟩ := switchedFrom_spec cfg u (s.task p).cpu p o hfrom
  have hframe := (switchedFrom_balance cfg u (s.task p).cpu p o (s.task p).schedClass).frame
  have hself : (u.task p).schedClass = .wrr := by
    rw [heff.self]
    rfl
  have hchanged : checkClassChanged cfg u (s.task p).cpu p (s.task p).schedClass (s.task p).prio o =
      (schedClassOf cfg (((schedClassOf cfg (s.task p).schedClass).switchedFrom u (s.task p).cpu p
        o).task p).schedClass).switchedTo
        ((schedClassOf cfg (s.task p).schedClass).switchedFrom u (s.task p).cpu p o)
        (s.task p).cpu p o := by
    refine if_pos ?_
    rw [hself]
    rcases hfrom with hk | hk <;> rw [hk] <;> exact fun hno => nomatch hno
  rw [hchanged]
  generalize (schedClassOf cfg (s.task p).schedClass).switchedFrom u (s.task p).cpu p o = v at *
  -- the pull leaves `p` alone
  have hvp : v.task p = u.task p := by
    rw [htask]
    refine if_neg fun hpull => ?_
    rw [hpull.2.2.1] at hself
    cases hself
  have hwrr : schedClassOf cfg .wrr = wrrSchedClass cfg := rfl
  rw [hvp, hself, hwrr]
  have hto : Flagged v ((wrrSchedClass cfg).switchedTo v (s.task p).cpu p o) :=
    wrrSwitchedTo_flagged cfg v _ p o
  have hv : ∀ q, (Pulls cfg s p o q → v.task q = { u.task q with cpu := (s.task p).cpu }) ∧
      (¬Pulls cfg s p o q → v.task q = u.task q) := by
    intro q
    have hiff := pulls_iff (o := o) hinv heff rfl rfl q
    rw [htask]
    exact ⟨fun hq => if_pos (hiff.mpr hq), fun hq => if_neg fun hno => hq (hiff.mp hno)⟩
  have hcurr : (v.rq (s.task p).cpu).curr = (s.rq (s.task p).cpu).curr := by
    rw [hframe.curr, heff.frame.curr]
  refine ⟨(heff.frame.trans hframe).trans (Frame.of_rq hto.rq), ?_, fun q hq => ?_,
    fun q hqp hq => ?_, ?_⟩
  · rw [hto.task, hvp, heff.self]
    refine ⟨rfl, rfl, rfl, ?_⟩
    rw [wrrLevel_eq_index]
    rfl
  · rw [hto.task, (hv q).1 hq, heff.other hq.2.2.2.2.1]
  · rw [hto.task, (hv q).2 hq, heff.other hqp]
  · rw [← hcurr, wrrSwitchedTo_flag, hflag, hkeep, hvp, heff.self, hcurr, wrrLevel_eq_index]
    refine or_congr_right (and_congr_right fun _ => and_congr_right fun hne => ?_)
    have hlevel : wrrLevel cfg (v.task (s.rq (s.task p).cpu).curr) =
        wrrLevel cfg (s.task (s.rq (s.task p).cpu).curr) := by
      refine wrrLevel_congr ?_
      by_cases hpull : Pulls cfg s p o (s.rq (s.task p).cpu).curr
      · rw [(hv _).1 hpull, heff.other hne]
      · rw [(hv _).2 hpull, heff.other hne]
    rw [hlevel]
    rfl

/-! ## When that is right -/

/-- An RT task may still run on the cpu of `p` once `p` has left the RT class: another one
that is queued there, or one that is pulled there when `p` was the last. -/
def RtLeft (cfg : Config) (s : System) (p : Pid) (o : Outside) : Prop :=
  (s.rq (s.task p).cpu).rt.rtThrottled = false ∧
    ((∃ q, q ≠ p ∧ s.Queued .rt (s.task p).cpu q) ∨
      cfg.smp = true ∧ s.Queued .rt (s.task p).cpu p ∧ ∃ q ∈ o.rtPull, q ≠ p ∧ s.Movable q)

/-- The current task `curr`, another one than the queued task `p`, is of a class and a level
that no task has to wait behind once `p` is a WRR task. -/
def CurrStays (cfg : Config) (s : System) (p curr : Pid) (o : Outside) : Prop :=
  match (s.task curr).schedClass with
  | .stop => True
  | .rt => (∀ q, ¬s.Queued .stop (s.task p).cpu q) ∧
      (s.rq (s.task p).cpu).rt.rtThrottled = false
  | .wrr => (∀ q, ¬s.Queued .stop (s.task p).cpu q) ∧ ¬RtLeft cfg s p o ∧
      ∀ q, s.Queued .wrr (s.task p).cpu q → wrrLevel cfg (s.task curr) ≤ wrrLevel cfg (s.task q)
  | .fair | .idle => False

/-- The states before the call in which `switched_to_wrr` does what is needed: a reschedule
is pending; or `p` is not queued and the current task was right before; or `p` itself runs
and is still the one to run; or another task runs, and the hook's comparison is true or
that task may stay. -/
def SwitchOk (cfg : Config) (s : System) (p : Pid) (prio : Nat) (o : Outside) : Prop :=
  let curr := (s.rq (s.task p).cpu).curr
  s.needResched curr = true ∨
    if (s.task p).onRq = false then Best cfg s (s.task p).cpu curr
    else if curr = p then
      (∀ q, ¬s.Queued .stop (s.task p).cpu q) ∧ ¬RtLeft cfg s p o ∧
        ∀ q, s.Queued .wrr (s.task p).cpu q → wrrIndex cfg prio ≤ wrrLevel cfg (s.task q)
    else wrrIndex cfg prio < wrrLevel cfg (s.task curr) ∨ CurrStays cfg s p curr o

namespace Switched

variable {prio : Nat}

/-- The classes other than RT gain `p` and nothing else. -/
theorem queued_iff (h : Switched cfg s p prio o t) (hk : k ≠ .rt) (hfrom : (s.task p).schedClass ≠ k)
    (q : Pid) : t.Queued k (s.task p).cpu q ↔
      s.Queued k (s.task p).cpu q ∨ q = p ∧ k = .wrr ∧ (s.task p).onRq = true := by
  obtain ⟨hclass, hon, hcpu, -⟩ := h.self
  unfold System.Queued
  by_cases hqp : q = p
  · subst hqp
    rw [hclass, hon, hcpu]
    constructor
    · rintro ⟨hon', hwrr, -⟩
      exact .inr ⟨rfl, hwrr.symm, hon'⟩
    · rintro (⟨-, hk', -⟩ | ⟨-, rfl, hon'⟩)
      · exact absurd hk' hfrom
      · exact ⟨hon', rfl, rfl⟩
  · rw [or_iff_left fun hq => hqp hq.1]
    by_cases hpull : Pulls cfg s p o q
    · have hrt := hpull.2.2.2.2.2.1
      rw [h.pulled q hpull]
      refine iff_of_false (fun hq => hk (hq.2.1.symm.trans hrt)) fun hq => hk (hq.2.1.symm.trans hrt)
    · rw [h.other q hqp hpull]

/-- Whether the RT class has a task to run. -/
theorem rt_iff (h : Switched cfg s p prio o t) :
    (∃ q, t.Eligible .rt (s.task p).cpu q) ↔ RtLeft cfg s p o := by
  unfold System.Eligible RtLeft
  rw [h.frame.rtThrottled]
  constructor
  · rintro ⟨q, hq, hthrottled⟩
    refine ⟨hthrottled rfl, ?_⟩
    have hqp : q ≠ p := by
      rintro rfl
      rw [System.Queued, h.self.1] at hq
      cases hq.2.1
    by_cases hpull : Pulls cfg s p o q
    · obtain ⟨hsmp, hrt, -, hmem, -, hmov⟩ := hpull
      exact .inr ⟨hsmp, hrt, q, hmem, hqp, hmov⟩
    · rw [System.Queued, h.other q hqp hpull] at hq
      exact .inl ⟨q, hqp, hq⟩
  · rintro ⟨hthrottled, hleft⟩
    by_cases hother : ∃ q, q ≠ p ∧ s.Queued .rt (s.task p).cpu q
    · obtain ⟨q, hqp, hq⟩ := hother
      -- the class is not empty, so nothing is pulled
      have hpull : ¬Pulls cfg s p o q := fun hpull => hpull.2.2.1 q hqp hq
      refine ⟨q, ?_, fun _ => hthrottled⟩
      rw [System.Queued, h.other q hqp hpull]
      exact hq
    · obtain ⟨hsmp, hrt, q, hmem, hqp, hmov⟩ := hleft.resolve_left hother
      have hpull : Pulls cfg s p o q :=
        ⟨hsmp, hrt, fun r hr hq => hother ⟨r, hr, hq⟩, hmem, hqp, hmov⟩
      refine ⟨q, ?_, fun _ => hthrottled⟩
      rw [System.Queued, h.pulled q hpull]
      exact ⟨hmov.2.1, hmov.1, rfl⟩

end Switched

/-- WRR comes first exactly when there is neither a stop task nor an eligible RT task. -/
theorem first_wrr_iff : (∀ k q, s.Eligible k c q → k.precedes .wrr = false) ↔
    (∀ q, ¬s.Queued .stop c q) ∧ ¬∃ q, s.Eligible .rt c q := by
  constructor
  · intro hfirst
    refine ⟨fun q hq => ?_, fun ⟨q, hq⟩ => nomatch hfirst .rt q hq⟩
    exact nomatch hfirst .stop q ⟨hq, fun hk => nomatch hk⟩
  · rintro ⟨hstop, hrt⟩ k q hq
    cases k with
    | stop => exact absurd hq.1 (hstop q)
    | rt => exact absurd ⟨q, hq⟩ hrt
    | wrr | fair | idle => rfl

/-- RT comes first exactly when there is no stop task. -/
theorem first_rt_iff : (∀ k q, s.Eligible k c q → k.precedes .rt = false) ↔
    ∀ q, ¬s.Queued .stop c q := by
  constructor
  · intro hfirst q hq
    exact nomatch hfirst .stop q ⟨hq, fun hk => nomatch hk⟩
  · intro hstop k q hq
    cases k with
    | stop => exact absurd hq.1 (hstop q)
    | rt | wrr | fair | idle => rfl

namespace Switched

variable {prio : Nat}

/-- The switch of a fair or an RT task leaves the stop task where it is. -/
theorem stop_iff (h : Switched cfg s p prio o t)
    (hfrom : (s.task p).schedClass = .fair ∨ (s.task p).schedClass = .rt) :
    (∀ q, ¬t.Queued .stop (s.task p).cpu q) ↔ ∀ q, ¬s.Queued .stop (s.task p).cpu q := by
  have hne : (s.task p).schedClass ≠ .stop := by
    rcases hfrom with hk | hk <;> rw [hk] <;> exact fun hno => nomatch hno
  refine forall_congr' fun q => not_congr ?_
  have hqueued := h.queued_iff (k := .stop) (fun hno => nomatch hno) hne q
  rw [hqueued]
  exact or_iff_left fun hq => nomatch hq.2.1

/-- After the switch WRR comes first exactly when neither a stop task nor an RT task is left. -/
theorem first_wrr (h : Switched cfg s p prio o t)
    (hfrom : (s.task p).schedClass = .fair ∨ (s.task p).schedClass = .rt) :
    (∀ k q, t.Eligible k (s.task p).cpu q → k.precedes .wrr = false) ↔
      (∀ q, ¬s.Queued .stop (s.task p).cpu q) ∧ ¬RtLeft cfg s p o := by
  rw [first_wrr_iff, h.rt_iff, h.stop_iff hfrom]

/-- The levels of the other WRR tasks are what they were. -/
theorem level_iff (h : Switched cfg s p prio o t) (hon : (s.task p).onRq = true)
    (hfrom : (s.task p).schedClass = .fair ∨ (s.task p).schedClass = .rt) {n : Nat}
    (hn : n ≤ wrrIndex cfg prio) :
    (∀ q, t.Queued .wrr (s.task p).cpu q → n ≤ wrrLevel cfg (t.task q)) ↔
      ∀ q, s.Queued .wrr (s.task p).cpu q → n ≤ wrrLevel cfg (s.task q) := by
  have hne : (s.task p).schedClass ≠ .wrr := by
    rcases hfrom with hk | hk <;> rw [hk] <;> exact fun hno => nomatch hno
  have hsame : ∀ q, s.Queued .wrr (s.task p).cpu q → t.task q = s.task q := by
    intro q hq
    have hqp : q ≠ p := by
      rintro rfl
      exact hne hq.2.1
    refine h.other q hqp fun hpull => ?_
    have hrt := hpull.2.2.2.2.2.1
    rw [hq.2.1] at hrt
    cases hrt
  have hqueued := h.queued_iff (k := .wrr) (fun hno => nomatch hno) hne
  constructor
  · intro hall q hq
    rw [← hsame q hq]
    exact hall q ((hqueued q).mpr (.inl hq))
  · intro hall q hq
    rcases (hqueued q).mp hq with hq | ⟨rfl, -, -⟩
    · rw [hsame q hq]
      exact hall q hq
    · rwa [h.self.2.2.2]

/-- The current task, when it is another one, is written by nobody. -/
theorem curr_eq (h : Switched cfg s p prio o t) (hinv : Inv cfg s) (hs : s.CurrOk)
    (hne : (s.rq (s.task p).cpu).curr ≠ p) :
    t.task (s.rq (s.task p).cpu).curr = s.task (s.rq (s.task p).cpu).curr := by
  refine h.other _ hne fun hpull => ?_
  have hcpu : (s.task (s.rq (s.task p).cpu).curr).cpu = (s.task p).cpu := by
    rcases hs (s.task p).cpu with hidle | hon
    · rw [hidle]
      exact ((hinv.idle _ _).mp rfl).2.2
    · exact hon.2
  have hmov := hpull.2.2.2.2.2.2.2
  rw [hcpu] at hmov
  exact hmov rfl

/-- A task that is not queued changes nothing for the others. -/
theorem best_iff_of_off (h : Switched cfg s p prio o t) (hinv : Inv cfg s) (hinv' : Inv cfg t)
    (hs : s.CurrOk) (ht : t.CurrOk) (hoff : (s.task p).onRq = false)
    (hne : (s.rq (s.task p).cpu).curr ≠ p) :
    Best cfg t (s.task p).cpu (t.rq (s.task p).cpu).curr ↔
      Best cfg s (s.task p).cpu (s.rq (s.task p).cpu).curr := by
  have hpull : ∀ q, ¬Pulls cfg s p o q := by
    intro q hpull
    have hon := hpull.2.1.1
    rw [hoff] at hon
    cases hon
  have hqueued : ∀ k q, t.Queued k (s.task p).cpu q ↔ s.Queued k (s.task p).cpu q := by
    intro k q
    by_cases hqp : q = p
    · rw [System.Queued, System.Queued, hqp, h.self.2.1, hoff]
      exact iff_of_false (fun hq => nomatch hq.1) fun hq => nomatch hq.1
    · exact System.queued_congr (h.other q hqp (hpull q))
  -- so the same tasks may run as before
  have helig : ∀ k q, t.Eligible k (s.task p).cpu q ↔ s.Eligible k (s.task p).cpu q := fun k q =>
    System.eligible_congr (hqueued k q) (h.frame.rtThrottled _)
  have hlevel : ∀ q, s.Queued .wrr (s.task p).cpu q → t.task q = s.task q := by
    intro q hq
    refine h.other q ?_ (hpull q)
    rintro rfl
    rw [System.Queued, hoff] at hq
    cases hq.1
  rw [best_curr_iff hinv' ht, best_curr_iff hinv hs, h.frame.curr, h.curr_eq hinv hs hne,
    h.frame.rtThrottled]
  refine and_congr_right fun _ => and_congr ?_ ?_
  · exact forall_congr' fun k => forall_congr' fun q => imp_congr_left (helig k q)
  · refine imp_congr_right fun _ => forall_congr' fun q => ?_
    rw [hqueued]
    refine imp_congr_right fun hq => ?_
    rw [hlevel q hq]

/-- Another task stays current: it is of the RT class or a better one, or a WRR task that
is not behind `p`. -/
theorem best_iff_currStays (h : Switched cfg s p prio o t) (hinv : Inv cfg s) (hs : s.CurrOk)
    (hinv' : Inv cfg t) (ht : t.CurrOk) (hon : (s.task p).onRq = true)
    (hfrom : (s.task p).schedClass = .fair ∨ (s.task p).schedClass = .rt)
    (hne : (s.rq (s.task p).cpu).curr ≠ p)
    (hle : wrrLevel cfg (s.task (s.rq (s.task p).cpu).curr) ≤ wrrIndex cfg prio) :
    Best cfg t (s.task p).cpu (t.rq (s.task p).cpu).curr ↔
      CurrStays cfg s p (s.rq (s.task p).cpu).curr o := by
  obtain ⟨hclass, honp, hcpu, -⟩ := h.self
  have hp : t.Eligible .wrr (s.task p).cpu p := ⟨⟨honp.trans hon, hclass, hcpu⟩, fun hk => nomatch hk⟩
  rw [best_curr_iff hinv' ht, h.frame.curr, h.curr_eq hinv hs hne, h.frame.rtThrottled]
  unfold CurrStays
  cases hk : (s.task (s.rq (s.task p).cpu).curr).schedClass with
  | stop =>
    -- nothing precedes the stop class
    refine iff_of_true ⟨(fun hno => nomatch hno), fun k q _ => ?_, fun hno => nomatch hno⟩ trivial
    cases k <;> rfl
  | rt =>
    rw [first_rt_iff, h.stop_iff hfrom]
    exact ⟨fun hbest => ⟨hbest.2.1, hbest.1 rfl⟩,
      fun hstay => ⟨fun _ => hstay.2, hstay.1, fun hno => nomatch hno⟩⟩
  | wrr =>
    rw [h.first_wrr hfrom, h.level_iff hon hfrom hle, and_assoc]
    exact ⟨fun hbest => ⟨hbest.2.1, hbest.2.2.1, hbest.2.2.2 rfl⟩,
      fun hstay => ⟨(fun hno => nomatch hno), hstay.1, hstay.2.1, fun _ => hstay.2.2⟩⟩
  | fair | idle => exact iff_of_false (fun hbest => nomatch hbest.2.1 .wrr p hp) not_false

end Switched

/-- The state of the call meets the requirement exactly when the state before was one that
the hook decides rightly. -/
theorem switchOk_iff {prio : Nat} (h : Inv cfg s) (hs : s.CurrOk) (hp : s.Ordinary p)
    (hinv : Inv cfg t) (ht : t.CurrOk) (hsw : Switched cfg s p prio o t)
    (hfrom : (s.task p).schedClass = .fair ∨ (s.task p).schedClass = .rt) :
    (t.needResched (t.rq (s.task p).cpu).curr = true ∨
        Best cfg t (s.task p).cpu (t.rq (s.task p).cpu).curr) ↔ SwitchOk cfg s p prio o := by
  unfold SwitchOk
  dsimp only
  have hcurr := hsw.frame.curr (s.task p).cpu
  by_cases hoff : (s.task p).onRq = false
  · -- a sleeping task is not the current one
    have hne : (s.rq (s.task p).cpu).curr ≠ p := by
      intro heq
      rcases hs (s.task p).cpu with hidle | hon
      · exact (hp.2 _).1 (hidle.symm.trans heq)
      · have hon' := hon.1
        rw [heq, hoff] at hon'
        cases hon'
    rw [if_pos hoff, hsw.best_iff_of_off h hinv hs ht hoff hne, hcurr, hsw.flag, hoff]
    exact or_congr_left (or_iff_left fun hno => nomatch hno.1)
  · have hon : (s.task p).onRq = true := by simpa using hoff
    rw [if_neg hoff]
    by_cases hself : (s.rq (s.task p).cpu).curr = p
    · -- the hook does nothing for the current task
      rw [if_pos hself, best_curr_iff hinv ht, hcurr, hsw.flag, hself]
      have hclass := hsw.self.1
      have hflag : (s.needResched p = true ∨ (s.task p).onRq = true ∧ p ≠ p ∧
          wrrIndex cfg prio < wrrLevel cfg (s.task p)) ↔ s.needResched p = true :=
        or_iff_left fun hno => hno.2.1 rfl
      rw [hflag, hclass, hsw.first_wrr hfrom, hsw.self.2.2.2]
      refine or_congr_right ?_
      rw [hsw.level_iff hon hfrom (Nat.le_refl _), and_assoc]
      exact ⟨fun ⟨_, hstop, hrt, hlevel⟩ => ⟨hstop, hrt, hlevel rfl⟩,
        fun ⟨hstop, hrt, hlevel⟩ => ⟨(fun hno => nomatch hno), hstop, hrt, fun _ => hlevel⟩⟩
    · rw [if_neg hself, hcurr, hsw.flag, ← hcurr]
      have hfires : ((s.task p).onRq = true ∧ (s.rq (s.task p).cpu).curr ≠ p ∧
          wrrIndex cfg prio < wrrLevel cfg (s.task (s.rq (s.task p).cpu).curr)) ↔
          wrrIndex cfg prio < wrrLevel cfg (s.task (s.rq (s.task p).cpu).curr) :=
        ⟨fun hf => hf.2.2, fun hf => ⟨hon, hself, hf⟩⟩
      rw [hcurr, hfires, or_assoc]
      refine or_congr_right ?_
      by_cases hlt : wrrIndex cfg prio < wrrLevel cfg (s.task (s.rq (s.task p).cpu).curr)
      · exact iff_of_true (.inl hlt) (.inl hlt)
      · refine or_congr_right ?_
        rw [← hcurr]
        rw [hsw.best_iff_currStays h hs hinv ht hon hfrom hself (Nat.le_of_not_lt hlt), hcurr]

/-- **Preemption after a switch to `SCHED_WRR`**: when a successful call has moved a task
from the fair or the RT class into the WRR class, a reschedule is pending or the current
task is of the class and level that the pick selects, exactly if `SwitchOk` held before. -/
theorem switchToWrr_preempts_iff {caller : Caller} {policy prio : Int} {seen : Task}
    {o' : Outside} {passes : List (Task × System)} (hs : Boot s₀)
    (hreach : ∀ x ∈ passes, Reach (fun s op => op.Core cfg s) (exec cfg) s₀ x.2)
    (hcall : schedSetscheduler cfg caller o p policy prio passes = some (seen, s, .ok (), t))
    (halive : (s.task p).alive = true)
    (hfrom : (s.task p).schedClass = .fair ∨ (s.task p).schedClass = .rt)
    (hto : (t.task p).schedClass = .wrr) (ho : t.FairPickOk (s.task p).cpu o') :
    (t.needResched (t.rq (s.task p).cpu).curr = true ∨ PickMatches cfg t (s.task p).cpu o') ↔
      SwitchOk cfg s p prio.toNat o := by
  obtain ⟨hmem, hpass⟩ := schedSetscheduler_pass hcall
  obtain ⟨hinv, hcurr⟩ := core_inv (fun _ _ hop => hop) hs (hreach _ hmem)
  have hp : s.Ordinary p := by
    refine hinv.ordinary_iff.mpr ⟨halive, ?_, ?_⟩ <;>
      rcases hfrom with hk | hk <;> rw [hk] <;> exact fun hno => nomatch hno
  have hstays : ∀ {u : System}, u = s → (u.task p).schedClass ≠ .wrr := by
    rintro u rfl hwrr
    rw [hwrr] at hfrom
    rcases hfrom with hk | hk <;> cases hk
  cases schedSetschedulerPass_outcome hpass with
  | unchanged => exact absurd hto (hstays rfl)
  | changed pol reset hlet hstop hdiff hseen =>
    -- no other policy leads into the WRR class
    have hpol : pol = .wrr := by
      rw [changeScheduler_class (hinv.task p halive).staticPrio.1] at hto
      by_contra hne
      rw [if_neg hne] at hto
      split at hto <;> cases hto
    subst hpol
    have hsw := switch_spec hinv hp hfrom hlet.prioFor.1 reset o
    have hinv' := changeScheduler_inv hinv hp hlet.prioFor reset o
    have hcore : (Op.setscheduler p .wrr reset prio.toNat o).Core cfg s :=
      ⟨⟨hp, hlet.prioFor⟩, trivial⟩
    have hcurr' := exec_currOk hinv hcurr hcore
    rw [pickMatches_iff hinv' hcurr' ho]
    exact switchOk_iff hinv hcurr hp hinv' hcurr' hsw hfrom

/-- The fair class runs task 1. -/
def pickOne : Outside := { Outside.quiet with fairPick := some 1 }

/-- Two fair tasks wake up and the first one runs. -/
def twoFair : List Op := [.wakeUp 1 0 .quiet, .schedule 0 false pickOne, .wakeUp 5 0 .quiet]

theorem twoFair_core (file : WrrFile) :
    Reach (fun s op => op.Core (upConfig file) s) (exec (upConfig file)) bootSystem
      (twoFair.foldl (exec (upConfig file)) bootSystem) :=
  coreRun_of_check bootSystem_boot twoFair (by cases file <;> decide +kernel)

/-- A call that passes the checks with something to change changes it. -/
theorem schedSetscheduler_changed {caller : Caller} {policy prio : Int} {seen : Task} {pol : Policy}
    {reset : Bool} (hlet : LetThrough caller seen policy prio pol reset)
    (hstop : (s.rq (s.task p).cpu).stop ≠ some p) (hdiff : ¬NothingToChange (s.task p) pol prio)
    (hseen : policy < 0 → seen.policy = (s.task p).policy) :
    schedSetscheduler cfg caller o p policy prio [(seen, s)] =
      some (seen, s, .ok (), changeScheduler cfg s p pol reset prio.toNat o) := by
  have hparam : ¬validParam seen pol prio = false := by
    rw [hlet.param]
    exact fun hno => nomatch hno
  have hsame : ¬(policy < 0 ∧ seen.policy ≠ (s.task p).policy) := fun h => h.2 (hseen h.1)
  have hdiff' : ¬(pol = (s.task p).policy ∧
    (rtPolicy pol = false ∨ prio = (s.task p).rtPriority)) := hdiff
  unfold schedSetscheduler schedSetschedulerPass
  rw [hlet.requested]
  dsimp only
  rw [if_neg hparam, hlet.permission]
  dsimp only
  rw [if_neg hstop, if_neg hdiff', if_neg hsame]

/-- A waiting fair task is made a WRR task of priority 50 under the RMLFQ class. -/
theorem switchToWrr_preempts_boot :
    let s := twoFair.foldl (exec (upConfig .rmlfq)) bootSystem
    let t := changeScheduler (upConfig .rmlfq) s 5 .wrr false 50 .quiet
    t.needResched (t.rq (s.task 5).cpu).curr = true ∨
      PickMatches (upConfig .rmlfq) t (s.task 5).cpu pickOne := by
  intro s t
  have hcall : schedSetscheduler (upConfig .rmlfq) privileged .quiet 5 6 50 [(s.task 5, s)] =
      some (s.task 5, s, .ok (), t) :=
    schedSetscheduler_changed ⟨by decide +kernel, by decide +kernel, by decide +kernel⟩
      (by decide +kernel) (by decide +kernel) (by decide)
  have hreach : ∀ x ∈ [(s.task 5, s)], Reach (fun s op => op.Core (upConfig .rmlfq) s)
      (exec (upConfig .rmlfq)) bootSystem x.2 := by
    rintro x (_ | ⟨_, ⟨⟩⟩)
    exact twoFair_core .rmlfq
  have hfires : SwitchOk (upConfig .rmlfq) s 5 50 .quiet := by
    right
    have hon : ¬(s.task 5).onRq = false := by decide +kernel
    have hne : (s.rq (s.task 5).cpu).curr ≠ 5 := by decide +kernel
    rw [if_neg hon, if_neg hne]
    left
    decide +kernel
  refine (switchToWrr_preempts_iff bootSystem_boot hreach hcall (by decide +kernel) (.inl ?_)
    (by decide +kernel) ?_).mpr hfires
  · decide +kernel
  · show t.Queued .fair _ 1
    decide +kernel

/-- If the first task is of another class than the current one, the pick does not match. -/
theorem not_pickMatches {f : Pid} (hpick : (pickFrom cfg c o forEachClass s).1 = some f)
    (hne : (s.task (s.rq c).curr).schedClass ≠ (s.task f).schedClass) :
    ¬PickMatches cfg s c o := by
  rintro ⟨q, t, hpick', hclass, -⟩
  rw [hpick'] at hpick
  cases hpick
  exact hne hclass

/-- A waiting fair task is promoted while a fair task runs: with the basic class at
priority 50, and with the RMLFQ class at priority 0, no reschedule is asked for, although
the pick would run the promoted task. -/
theorem switchToWrr_missedPreemption :
    let s₁ := twoFair.foldl (exec (upConfig .basic)) bootSystem
    let t₁ := (schedSetschedulerAlone (upConfig .basic) privileged .quiet s₁ 5 6 50).2
    let s₂ := twoFair.foldl (exec (upConfig .rmlfq)) bootSystem
    let t₂ := (schedSetschedulerAlone (upConfig .rmlfq) privileged .quiet s₂ 5 6 0).2
    (Reach (fun s op => op.Core (upConfig .basic) s) (exec (upConfig .basic)) bootSystem s₁ ∧
      (s₁.task 5).schedClass = .fair ∧ (t₁.task 5).schedClass = .wrr ∧
      t₁.FairPickOk 0 pickOne ∧ t₁.needResched (t₁.rq 0).curr = false ∧
      ¬PickMatches (upConfig .basic) t₁ 0 pickOne) ∧
    Reach (fun s op => op.Core (upConfig .rmlfq) s) (exec (upConfig .rmlfq)) bootSystem s₂ ∧
      (s₂.task 5).schedClass = .fair ∧ (t₂.task 5).schedClass = .wrr ∧
      t₂.FairPickOk 0 pickOne ∧ t₂.needResched (t₂.rq 0).curr = false ∧
      ¬PickMatches (upConfig .rmlfq) t₂ 0 pickOne := by
  intro s₁ t₁ s₂ t₂
  refine ⟨⟨twoFair_core .basic, by decide +kernel, by decide +kernel, ?_, by decide +kernel, ?_⟩,
    twoFair_core .rmlfq, by decide +kernel, by decide +kernel, ?_, by decide +kernel, ?_⟩
  · show t₁.Queued .fair 0 1
    decide +kernel
  · exact not_pickMatches (f := 5) (by decide +kernel) (by decide +kernel)
  · show t₂.Queued .fair 0 1
    decide +kernel
  · exact not_pickMatches (f := 5) (by decide +kernel) (by decide +kernel)

end LinuxWrr
