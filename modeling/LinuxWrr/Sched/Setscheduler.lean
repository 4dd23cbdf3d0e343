import LinuxWrr.Sched.Fork

/-!
# The `sched_setscheduler` call

A call checks its arguments and the caller's rights, may find under the lock that there is
nothing to change, may start again, and else changes the task. Three questions are asked of
whole calls.

- `schedSetscheduler_takesEffect_iff`: **a call that returns 0 has taken effect and a call
  that fails has changed nothing, except that** a task that is `SCHED_WRR` already keeps
  its old priority (`Ignored`).
- `unprivileged_fair_iff`, `unprivileged_confined`: **callers without `CAP_SYS_NICE` keep
  fair tasks and all that descend from them fair unless they ask for `SCHED_WRR`**
  (`AsksForWrr`).
- `checksAgree_iff`: **the priorities a call accepts are the ones that
  `sched_get_priority_min` and `sched_get_priority_max` advertise, except for 0**.
-/

namespace LinuxWrr

variable {cfg : Config} {s s₀ t u : System} {c : Cpu} {p q : Pid} {f g : Task} {o : Outside}
  {caller : Caller} {seen : Task} {policy prio : Int} {result : Except Errno Unit}

/-- A call that returns does so in one of its passes. -/
theorem schedSetscheduler_pass {passes : List (Task × System)}
    (h : schedSetscheduler cfg caller o p policy prio passes = some (seen, s, result, t)) :
    (seen, s) ∈ passes ∧
      schedSetschedulerPass cfg caller o seen s p policy prio = .done result t := by
  induction passes with
  | nil => cases h
  | cons x passes ih =>
    obtain ⟨seen', s'⟩ := x
    rw [schedSetscheduler] at h
    cases hpass : schedSetschedulerPass cfg caller o seen' s' p policy prio with
    | done result' t' =>
      rw [hpass] at h
      cases h
      exact ⟨List.mem_cons_self, hpass⟩
    | recheck =>
      rw [hpass] at h
      exact ⟨List.mem_cons_of_mem _ (ih h).1, (ih h).2⟩

/-- The call has passed the checks it makes before it takes the lock. -/
structure LetThrough (caller : Caller) (seen : Task) (policy prio : Int) (pol : Policy)
    (reset : Bool) : Prop where
  requested : requestedPolicy seen policy = some (pol, reset)
  param : validParam seen pol prio = true
  permission : permissionCheck caller seen pol reset prio = none

/-- "If not changing anything there's no need to proceed further". -/
def NothingToChange (t : Task) (pol : Policy) (prio : Int) : Prop :=
  pol = t.policy ∧ (rtPolicy pol = false ∨ prio = t.rtPriority)

instance (t : Task) (pol : Policy) (prio : Int) : Decidable (NothingToChange t pol prio) :=
  inferInstanceAs (Decidable (_ ∧ _))

/-- The ways in which a pass returns. -/
inductive Outcome (cfg : Config) (caller : Caller) (o : Outside) (seen : Task) (s : System)
    (p : Pid) (policy prio : Int) : Except Errno Unit → System → Prop
  | refused (e : Errno) (h : ∀ pol reset, ¬LetThrough caller seen policy prio pol reset) :
      Outcome cfg caller o seen s p policy prio (.error e) s
  | stopTask (e : Errno) (h : (s.rq (s.task p).cpu).stop = some p) :
      Outcome cfg caller o seen s p policy prio (.error e) s
  | unchanged (pol : Policy) (reset : Bool)
      (hlet : LetThrough caller seen policy prio pol reset)
      (hstop : (s.rq (s.task p).cpu).stop ≠ some p)
      (hsame : NothingToChange (s.task p) pol prio) :
      Outcome cfg caller o seen s p policy prio (.ok ()) s
  | changed (pol : Policy) (reset : Bool)
      (hlet : LetThrough caller seen policy prio pol reset)
      (hstop : (s.rq (s.task p).cpu).stop ≠ some p)
      (hdiff : ¬NothingToChange (s.task p) pol prio)
      (hseen : policy < 0 → seen.policy = (s.task p).policy) :
      Outcome cfg caller o seen s p policy prio (.ok ())
        (changeScheduler cfg s p pol reset prio.toNat o)

/-- A pass that comes to an end has one of the listed outcomes. -/
theorem schedSetschedulerPass_outcome
    (h : schedSetschedulerPass cfg caller o seen s p policy prio = .done result t) :
    Outcome cfg caller o seen s p policy prio result t := by
  unfold schedSetschedulerPass at h
  cases hreq : requestedPolicy seen policy with
  | none =>
    rw [hreq] at h
    cases h
    refine .refused _ fun pol reset hlet => ?_
    rw [hlet.requested] at hreq
    cases hreq
  | some req =>
    obtain ⟨pol, reset⟩ := req
    rw [hreq] at h
    dsimp only at h
    -- only this request could be let through
    have honly : ∀ pol' reset', LetThrough caller seen policy prio pol' reset' →
        pol' = pol ∧ reset' = reset := by
      intro pol' reset' hlet
      rw [hlet.requested] at hreq
      cases hreq
      exact ⟨rfl, rfl⟩
    by_cases hparam : validParam seen pol prio = false
    · rw [if_pos hparam] at h
      cases h
      refine .refused _ fun pol' reset' hlet => ?_
      obtain ⟨rfl, rfl⟩ := honly pol' reset' hlet
      rw [hlet.param] at hparam
      cases hparam
    · rw [if_neg hparam] at h
      cases hperm : permissionCheck caller seen pol reset prio with
      | some e =>
        rw [hperm] at h
        cases h
        refine .refused _ fun pol' reset' hlet => ?_
        obtain ⟨rfl, rfl⟩ := honly pol' reset' hlet
        rw [hlet.permission] at hperm
        cases hperm
      | none =>
        rw [hperm] at h
        dsimp only at h
        -- the checks are over; what follows holds the run queue lock
        have hlet : LetThrough caller seen policy prio pol reset :=
          ⟨hreq, by simpa using hparam, hperm⟩
        by_cases hstop : (s.rq (s.task p).cpu).stop = some p
        · rw [if_pos hstop] at h
          cases h
          exact .stopTask _ hstop
        · rw [if_neg hstop] at h
          by_cases hsame : pol = (s.task p).policy ∧
              (rtPolicy pol = false ∨ prio = (s.task p).rtPriority)
          · rw [if_pos hsame] at h
            cases h
            exact .unchanged pol reset hlet hstop hsame
          · rw [if_neg hsame] at h
            -- the policy was read before the lock was taken, so it is read again
            by_cases hseen : policy < 0 ∧ seen.policy ≠ (s.task p).policy
            · rw [if_pos hseen] at h
              cases h
            · rw [if_neg hseen] at h
              cases h
              refine .changed pol reset hlet hstop hsame fun hneg => ?_
              by_contra hne
              exact hseen ⟨hneg, hne⟩

/-! ## What the arguments let through -/

/-- A valid parameter is in range, and 0 for the policies that have no priority. -/
theorem validParam_prio {pol : Policy} (h : validParam seen pol prio = true) :
    0 ≤ prio ∧ prio ≤ 99 ∧ (rtPolicy pol = false → wrrPolicy pol = false → prio = 0) := by
  unfold validParam at h
  split at h
  · cases h
  next hrange =>
    simp only [maxUserRtPrio, maxRtPrio, Bool.or_eq_true, Bool.and_eq_true, decide_eq_true_eq,
      not_or, not_and, Bool.not_eq_true'] at hrange
    obtain ⟨⟨hlo, huser⟩, hkernel⟩ := hrange
    refine ⟨by omega, ?_, fun hrt hwrr => ?_⟩
    · by_contra hgt
      have hgt' : prio > 99 := by omega
      cases hmm : seen.mm with
      | true => exact huser hmm (decide_eq_true hgt')
      | false => exact hkernel hmm (decide_eq_true hgt')
    · by_contra hne
      have hprio : (prio != 0) = true := bne_iff_ne.mpr hne
      rw [hrt, hwrr, hprio] at h
      cases h

/-- A task that asks for a policy keeps it within what the model's invariant expects. -/
theorem LetThrough.prioFor {pol : Policy} {reset : Bool}
    (h : LetThrough caller seen policy prio pol reset) : PrioFor pol prio.toNat := by
  obtain ⟨hlo, hhi, hzero⟩ := validParam_prio h.param
  refine ⟨by omega, fun hrt hwrr => ?_⟩
  rw [hzero hrt hwrr]
  rfl

/-- The policy a call asks of the task `t`: its own when the argument is negative. -/
def wantedPolicy (t : Task) (policy : Int) : Option Policy :=
  (requestedPolicy t policy).map Prod.fst

/-- What the caller asks for is what the code reads from the request. -/
theorem wantedPolicy_eq {pol : Policy} {reset : Bool}
    (h : requestedPolicy seen policy = some (pol, reset))
    (hseen : policy < 0 → pol = f.policy) : wantedPolicy f policy = some pol := by
  unfold wantedPolicy requestedPolicy at *
  by_cases hneg : policy < 0
  · rw [if_pos hneg]
    rw [hseen hneg]
    rfl
  · rw [if_neg hneg] at h ⊢
    rw [h]
    rfl

/-! ## Taking effect or failing cleanly -/

/-- The index at which the WRR file queues a task of priority `prio`. -/
def wrrIndex (cfg : Config) (prio : Nat) : Nat :=
  match cfg.wrr with
  | .basic => prio
  | .rmlfq => 99 - prio

/-- The call took effect if it returned 0, and changed nothing if it failed. -/
def TakesEffect (cfg : Config) (p : Pid) (policy prio : Int) (s : System)
    (result : Except Errno Unit) (t : System) : Prop :=
  match result with
  | .ok () =>
    wantedPolicy (s.task p) policy = some (t.task p).policy ∧
      ((t.task p).rtPriority : Int) = prio ∧
      ∀ c, t.Queued .wrr c p → p ∈ (t.rq c).wrr.active.queue (wrrIndex cfg prio.toNat)
  | .error _ => t = s

/-- A permitted request for a new priority of a task that is `SCHED_WRR` already. -/
def Ignored (caller : Caller) (seen : Task) (s : System) (p : Pid) (policy prio : Int) : Prop :=
  (s.task p).policy = .wrr ∧ prio ≠ (s.task p).rtPriority ∧
    ∃ reset, LetThrough caller seen policy prio .wrr reset

/-- A queued WRR task is in the list of the priority that was asked for. -/
theorem mem_wrrIndex (h : Inv cfg t) (hprio : ((t.task p).rtPriority : Int) = prio)
    (hq : t.Queued .wrr c p) : p ∈ (t.rq c).wrr.active.queue (wrrIndex cfg prio.toNat) := by
  have hnat : prio.toNat = (t.task p).rtPriority := by omega
  refine h.mem_wrr_iff.mpr ⟨hq, ?_⟩
  rw [hnat]
  unfold wrrIndex
  cases hcfg : cfg.wrr with
  | basic => exact wrrLevel_basic hcfg _
  | rmlfq => exact wrrLevel_rmlfq hcfg _

/-- `__sched_setscheduler` with a change to make makes it. -/
theorem changeScheduler_task (cfg : Config) (s : System) (p : Pid) (pol : Policy) (reset : Bool)
    (prio : Nat) (o : Outside) :
    ((changeScheduler cfg s p pol reset prio o).task p).policy = pol ∧
      ((changeScheduler cfg s p pol reset prio o).task p).rtPriority = prio := by
  obtain ⟨u, slice, times, heff, hbal⟩ := changeScheduler_effect cfg s p pol reset prio o
  rcases hbal.task_cases p with heq | ⟨-, dest, heq⟩
  · rw [heq, heff.self]
    exact ⟨rfl, rfl⟩
  · rw [heq, heff.self]
    exact ⟨rfl, rfl⟩

/-- An outcome takes effect exactly when the request is not ignored. -/
theorem outcome_takesEffect_iff (h : Inv cfg s) (hp : s.Ordinary p)
    (hout : Outcome cfg caller o seen s p policy prio result t) :
    TakesEffect cfg p policy prio s result t ↔ ¬Ignored caller seen s p policy prio := by
  cases hout with
  | refused e hno => exact iff_of_true rfl fun hign => hign.2.2.elim fun reset hlet => hno _ _ hlet
  | stopTask e hstop => exact absurd hstop (hp.2 _).2
  | unchanged pol reset hlet hstop hsame =>
    obtain ⟨hpol, hprio⟩ := hsame
    have hwanted := wantedPolicy_eq (f := s.task p) hlet.requested fun _ => hpol
    constructor
    · rintro ⟨-, heq, -⟩ ⟨-, hne, -⟩
      exact hne heq.symm
    · intro hign
      have heq : ((s.task p).rtPriority : Int) = prio := by
        rcases hprio with hrt | heq
        · by_cases hwrr : pol = .wrr
          · subst hwrr
            by_contra hne
            exact hign ⟨hpol.symm, fun h => hne h.symm, reset, hlet⟩
          · -- a fair policy has no priority
            have hwrr' : wrrPolicy pol = false := decide_eq_false hwrr
            have hzero := (validParam_prio hlet.param).2.2 hrt hwrr'
            rw [hpol] at hrt hwrr'
            rw [(h.task p hp.1).userPriority hrt hwrr', hzero]
            rfl
        · exact heq.symm
      refine ⟨?_, heq, fun c hq => mem_wrrIndex h heq hq⟩
      rw [hwanted, hpol]
  | changed pol reset hlet hstop hdiff hseen =>
    obtain ⟨hpol, hprio⟩ := changeScheduler_task cfg s p pol reset prio.toNat o
    have hlo := (validParam_prio hlet.param).1
    have heq : (((changeScheduler cfg s p pol reset prio.toNat o).task p).rtPriority : Int) =
        prio := by
      rw [hprio]
      omega
    have hinv := changeScheduler_inv h hp hlet.prioFor reset o
    refine iff_of_true ⟨?_, heq, fun c hq => mem_wrrIndex hinv heq hq⟩ ?_
    · rw [hpol]
      refine wantedPolicy_eq hlet.requested fun hneg => ?_
      have hreq := hlet.requested
      rw [requestedPolicy, if_pos hneg] at hreq
      cases hreq
      exact hseen hneg
    · rintro ⟨hwrr, hne, reset', hlet'⟩
      have hreq := hlet.requested
      rw [hlet'.requested] at hreq
      cases hreq
      exact hdiff ⟨hwrr.symm, .inl rfl⟩

/-- **A call takes effect or fails cleanly, except when it is ignored**: every call on any
task but the idle and stop tasks, whatever the checks saw and however often the call
started again, whether the task sleeps, waits or runs. -/
theorem schedSetscheduler_takesEffect_iff {passes : List (Task × System)} (hs : Boot s₀)
    (hreach : ∀ x ∈ passes, Reach (fun s op => op.Pre s) (exec cfg) s₀ x.2)
    (hord : ∀ x ∈ passes, x.2.Ordinary p)
    (hcall : schedSetscheduler cfg caller o p policy prio passes = some (seen, s, result, t)) :
    TakesEffect cfg p policy prio s result t ↔ ¬Ignored caller seen s p policy prio := by
  obtain ⟨hmem, hpass⟩ := schedSetscheduler_pass hcall
  have hinv : Inv cfg s := reach_inv (fun _ _ hop => hop) hs (hreach _ hmem)
  exact outcome_takesEffect_iff hinv (hord _ hmem) (schedSetschedulerPass_outcome hpass)

/-- A caller with every right. -/
def privileged : Caller where
  user := true
  capSysNice := true
  sameOwner := true
  security := none

theorem bootSystem_ordinary (cfg : Config) : bootSystem.Ordinary 1 :=
  (Op.ordinary_check (@Boot.inv cfg _ bootSystem_boot)).mp (by decide)

/-- A fair task is made `SCHED_WRR`. -/
theorem schedSetscheduler_takesEffect_boot :
    let s := bootSystem
    let t := changeScheduler (upConfig .rmlfq) s 1 .wrr false 30 .quiet
    TakesEffect (upConfig .rmlfq) 1 6 30 s (.ok ()) t ↔
      ¬Ignored privileged (s.task 1) s 1 6 30 := by
  intro s t
  have hcall : schedSetscheduler (upConfig .rmlfq) privileged .quiet 1 6 30 [(s.task 1, s)] =
      some (s.task 1, s, .ok (), t) := rfl
  refine schedSetscheduler_takesEffect_iff bootSystem_boot ?_ ?_ hcall
  · rintro x (_ | ⟨_, ⟨⟩⟩)
    exact Reach.refl s
  · rintro x (_ | ⟨_, ⟨⟩⟩)
    exact bootSystem_ordinary (upConfig .rmlfq)

/-- `sched_setscheduler(SCHED_WRR, 10)` on a `SCHED_WRR` task of priority 50 returns 0
and leaves the priority at 50. -/
theorem schedSetscheduler_ignored :
    let s := wrrSystem fun _ => 50
    Boot s ∧ s.Ordinary 1 ∧ (s.task 1).piTopWaiter = none ∧
      schedSetscheduler (upConfig .rmlfq) privileged .quiet 1 6 10 [(s.task 1, s)] =
        some (s.task 1, s, .ok (), s) ∧
      (s.task 1).rtPriority = 50 ∧ ¬TakesEffect (upConfig .rmlfq) 1 6 10 s (.ok ()) s := by
  intro s
  have hboot : Boot s := wrrSystem_boot _
  refine ⟨hboot, (Op.ordinary_check (@Boot.inv (upConfig .rmlfq) _ hboot)).mp (by decide), rfl, rfl,
    rfl, ?_⟩
  rintro ⟨-, hprio, -⟩
  cases hprio

/-! ## Callers without `CAP_SYS_NICE` -/

/-- A pass that saw the task as it is never has to look again. -/
theorem schedSetschedulerPass_self :
    schedSetschedulerPass cfg caller o (s.task p) s p policy prio ≠ .recheck := by
  unfold schedSetschedulerPass
  -- the checks saw the task as it is under the lock
  have hseen : ¬(policy < 0 ∧ (s.task p).policy ≠ (s.task p).policy) := fun h => h.2 rfl
  dsimp only
  simp only [if_neg hseen]
  repeat' split
  all_goals exact Pass.noConfusion

/-- An undisturbed call has one of the listed outcomes. -/
theorem schedSetschedulerAlone_outcome (cfg : Config) (caller : Caller) (o : Outside) (s : System)
    (p : Pid) (policy prio : Int) :
    Outcome cfg caller o (s.task p) s p policy prio
      (schedSetschedulerAlone cfg caller o s p policy prio).1
      (schedSetschedulerAlone cfg caller o s p policy prio).2 := by
  unfold schedSetschedulerAlone
  cases hpass : schedSetschedulerPass cfg caller o (s.task p) s p policy prio with
  | done result t => exact schedSetschedulerPass_outcome hpass
  | recheck => exact absurd hpass schedSetschedulerPass_self

/-- What a caller without `CAP_SYS_NICE` needs to get `SCHED_WRR` for the task `t`: a
priority in range, the right to leave `SCHED_IDLE`, and to keep the reset-on-fork flag. -/
structure AsksForWrr (caller : Caller) (t : Task) (policy prio : Int) : Prop where
  requested : ∃ reset, requestedPolicy t policy = some (.wrr, reset) ∧
    (t.schedResetOnFork = true → reset = true)
  prio : 0 ≤ prio ∧ prio ≤ 99
  idle : t.policy = .idle → canNice t t.nice false = true
  sameOwner : caller.sameOwner = true
  security : caller.security = none

/-- The unprivileged callers of the system calls. -/
structure Unprivileged (caller : Caller) : Prop where
  user : caller.user = true
  capSysNice : caller.capSysNice = false

/-- For `SCHED_WRR` every priority from 0 to 99 is valid. -/
theorem validParam_wrr : validParam seen .wrr prio = true ↔ 0 ≤ prio ∧ prio ≤ 99 := by
  constructor
  · intro h
    exact ⟨(validParam_prio h).1, (validParam_prio h).2.1⟩
  · rintro ⟨hlo, hhi⟩
    have h₁ : decide (prio < 0) = false := decide_eq_false (by omega)
    have h₂ : decide (prio > (maxUserRtPrio : Int) - 1) = false :=
      decide_eq_false (by unfold maxUserRtPrio; push_cast; omega)
    have h₃ : decide (prio > (maxRtPrio : Int) - 1) = false :=
      decide_eq_false (by unfold maxRtPrio; push_cast; omega)
    unfold validParam
    rw [h₁, h₂, h₃]
    cases seen.mm <;> cases hprio : (prio != 0) <;> rfl

/-- The privilege test for `SCHED_WRR` asks for nothing that a real-time policy would. -/
theorem permissionCheck_wrr (h : Unprivileged caller) (reset : Bool) :
    permissionCheck caller seen .wrr reset prio = none ↔
      (seen.policy = .idle → canNice seen seen.nice false = true) ∧ caller.sameOwner = true ∧
        (seen.schedResetOnFork = true → reset = true) ∧ caller.security = none := by
  unfold permissionCheck
  rw [h.user, h.capSysNice, if_pos rfl]
  unfold unprivilegedCheck
  rw [h.capSysNice]
  cases hidle : decide (seen.policy = .idle) <;> cases canNice seen seen.nice false <;>
    cases caller.sameOwner <;> cases seen.schedResetOnFork <;> cases reset <;>
    cases caller.security <;> simp_all [rtPolicy]

/-- An unprivileged caller is let through to `SCHED_WRR` exactly when it asks for it. -/
theorem letThrough_wrr_iff (h : Unprivileged caller) :
    (∃ reset, LetThrough caller seen policy prio .wrr reset) ↔
      AsksForWrr caller seen policy prio := by
  constructor
  · rintro ⟨reset, hreq, hparam, hperm⟩
    obtain ⟨hidle, howner, hreset, hsecurity⟩ := (permissionCheck_wrr h reset).mp hperm
    exact ⟨⟨reset, hreq, hreset⟩, validParam_wrr.mp hparam, hidle, howner, hsecurity⟩
  · rintro ⟨⟨reset, hreq, hreset⟩, hprio, hidle, howner, hsecurity⟩
    exact ⟨reset, hreq, validParam_wrr.mpr hprio,
      (permissionCheck_wrr h reset).mpr ⟨hidle, howner, hreset, hsecurity⟩⟩

/-- What confines a task: no RT limit, and as long as it is fair, nothing that would take
it out of the fair class by itself. -/
structure Task.Confined (t : Task) : Prop where
  rlimRtprio : t.rlimRtprio = 0
  fair : t.schedClass = .fair → rtPolicy t.policy = false ∧ t.policy ≠ .wrr ∧
    t.piTopWaiter.any rtPrio = false

/-- Whether a task is confined is read off its kind. -/
theorem Task.confined_of_kind (h : g.kind = f.kind) (hf : f.Confined) : g.Confined := by
  have hkind : ∀ f : Task, f.Confined ↔ f.kind.Confined := fun f =>
    ⟨fun h => ⟨h.rlimRtprio, h.fair⟩, fun h => ⟨h.rlimRtprio, h.fair⟩⟩
  rw [hkind g, h, ← hkind f]
  exact hf

/-- No real-time policy for a fair task without an RT limit. -/
theorem permissionCheck_rt (h : Unprivileged caller) (hf : f.Confined)
    (hfair : f.schedClass = .fair) {pol : Policy} (hrt : rtPolicy pol = true) (reset : Bool) :
    permissionCheck caller f pol reset prio ≠ none := by
  have hne : (pol != f.policy) = true := by
    rw [bne_iff_ne]
    rintro rfl
    rw [(hf.fair hfair).1] at hrt
    cases hrt
  unfold permissionCheck
  rw [h.user, h.capSysNice, if_pos rfl]
  unfold unprivilegedCheck
  rw [hrt, hne, hf.rlimRtprio]
  exact fun h => nomatch h

/-- A new policy leaves a task confined whose limit is 0. -/
theorem withPolicy_confined (hlimit : f.rlimRtprio = 0) (hstatic : 100 ≤ f.staticPrio)
    (pol : Policy) (prio timeSlice times : Nat) :
    (f.withPolicy pol prio timeSlice times).Confined where
  rlimRtprio := hlimit
  fair hfair := by
    have hprio := setPolicy_rtPrio hstatic pol prio
    have hclass : (if pol = .wrr then ClassId.wrr
        else if rtPrio (f.setPolicy pol prio).prio then .rt else .fair) = .fair := hfair
    rw [hprio] at hclass
    split at hclass
    · cases hclass
    next hwrr =>
      split at hclass
      · cases hclass
      next hno =>
        rw [Bool.not_eq_true, Bool.or_eq_false_iff] at hno
        exact ⟨hno.1, hwrr, hno.2⟩

/-- The reset on fork keeps the policy or makes it `SCHED_NORMAL`, and keeps the limit. -/
theorem forkReset_policy (f : Task) : ((forkReset f).policy = f.policy ∨
    (forkReset f).policy = .normal) ∧ (forkReset f).rlimRtprio = f.rlimRtprio := by
  unfold forkReset
  split
  · dsimp only
    split
    · exact ⟨.inr rfl, rfl⟩
    · split <;> exact ⟨.inl rfl, rfl⟩
  · exact ⟨.inl rfl, rfl⟩

/-- The child of a confined task is confined. -/
theorem forkTask_confined (hok : TaskOk f) (hf : f.Confined) : (forkTask f).Confined := by
  have hcopy := forkReset_ok (dupTask_ok hok)
  have hclass : (forkReset (dupTask f)).schedClass = f.schedClass := (forkReset_class _).1
  obtain ⟨hpolicy, hlimit⟩ : ((forkReset (dupTask f)).policy = f.policy ∨
    (forkReset (dupTask f)).policy = .normal) ∧ (forkReset (dupTask f)).rlimRtprio = f.rlimRtprio :=
    forkReset_policy _
  unfold forkTask
  rw [forkClass_eq]
  generalize forkReset (dupTask f) = g at *
  refine ⟨hlimit.trans hf.rlimRtprio, fun hfair => ?_⟩
  have hfair' : (if g.policy = .wrr then ClassId.wrr
      else if rtPrio g.prio then g.schedClass else .fair) = .fair := hfair
  split at hfair'
  · cases hfair'
  next hwrr =>
    refine ⟨?_, hwrr, by rw [show _ = none from hcopy.waiter]; rfl⟩
    -- an RT policy would come from the parent, whose class the child then has
    by_contra hrt
    have hrt' : rtPolicy g.policy = true := by simpa using hrt
    have hprio : rtPrio g.prio = true := by
      rw [hcopy.prio, hcopy.normalPrio, normalPrio_of_rt hrt']
      unfold rtPrio maxRtPrio
      exact decide_eq_true (by push_cast; omega)
    rw [if_pos hprio, hclass] at hfair'
    rcases hpolicy with hsame | hnormal
    · rw [hsame, (hf.fair hfair').1] at hrt'
      cases hrt'
    · rw [hnormal] at hrt'
      cases hrt'

/-! ### Runs of unprivileged callers -/

/-- What unprivileged callers do: `sched_setscheduler` and `sched_setparam` calls on any
task, forks, and whatever the scheduler does in between. -/
inductive Request where
  | sched (p : Pid) (caller : Caller) (policy prio : Int) (o : Outside)
  | fork (parent child : Pid)
  | other (op : Op)

def request (cfg : Config) (s : System) : Request → System
  | .sched p caller policy prio o => (schedSetschedulerAlone cfg caller o s p policy prio).2
  | .fork parent child => schedFork s parent child
  | .other op => exec cfg s op

def Request.Pre (s : System) : Request → Prop
  | .sched p caller _ _ _ => s.Ordinary p ∧ Unprivileged caller
  | .fork parent child => s.Ordinary parent ∧ (s.task child).alive = false
  | .other op => op.Pre s ∧ op.changesKind = false

/-- The call does not get `SCHED_WRR` for a fair task. -/
def Request.NotWrr (s : System) : Request → Prop
  | .sched p caller policy prio _ =>
    (s.task p).schedClass = .fair → ¬AsksForWrr caller (s.task p) policy prio
  | _ => True

/-- The ordinary tasks are all confined. -/
def AllConfined (s : System) : Prop := ∀ p, s.Ordinary p → (s.task p).Confined

/-- `__sched_setscheduler` puts a task in the WRR class, in the RT class if its policy or a waiter
makes it real-time, and in the fair class otherwise. -/
theorem changeScheduler_class (hstatic : 100 ≤ (s.task p).staticPrio) (pol : Policy)
    (reset : Bool) (prio : Nat) (o : Outside) :
    ((changeScheduler cfg s p pol reset prio o).task p).schedClass =
      if pol = .wrr then .wrr
      else if rtPolicy pol || (s.task p).piTopWaiter.any rtPrio then .rt else .fair := by
  obtain ⟨u, slice, times, heff, hbal⟩ := changeScheduler_effect cfg s p pol reset prio o
  have hkind := hbal.sameKinds p
  rw [heff.self] at hkind
  show ((changeScheduler cfg s p pol reset prio o).task p).kind.schedClass = _
  rw [hkind]
  have hprio := setPolicy_rtPrio (f := { s.task p with schedResetOnFork := reset }) hstatic pol prio
  show (if pol = .wrr then ClassId.wrr
    else if rtPrio (({ s.task p with schedResetOnFork := reset } : Task).setPolicy pol prio).prio
      then .rt else .fair) = _
  rw [hprio]

/-- **When an unprivileged call keeps a fair task fair.** -/
theorem unprivileged_fair_iff (h : Inv cfg s) (hp : s.Ordinary p) (hf : (s.task p).Confined)
    (hfair : (s.task p).schedClass = .fair) (hcaller : Unprivileged caller) :
    ((schedSetschedulerAlone cfg caller o s p policy prio).2.task p).schedClass = .fair ↔
      ¬AsksForWrr caller (s.task p) policy prio := by
  obtain ⟨hrt, hwrr, hwaiter⟩ := hf.fair hfair
  have hout := schedSetschedulerAlone_outcome cfg caller o s p policy prio
  generalize schedSetschedulerAlone cfg caller o s p policy prio = r at hout
  obtain ⟨result, t⟩ := r
  rw [← letThrough_wrr_iff hcaller]
  cases hout with
  | refused e hno => exact iff_of_true hfair fun ⟨reset, hlet⟩ => hno _ _ hlet
  | stopTask e hstop => exact absurd hstop (hp.2 _).2
  | unchanged pol reset hlet hstop hsame =>
    refine iff_of_true hfair fun ⟨reset', hlet'⟩ => ?_
    have hreq := hlet.requested
    rw [hlet'.requested] at hreq
    cases hreq
    exact hwrr hsame.1.symm
  | changed pol reset hlet hstop hdiff hseen =>
    show ((changeScheduler cfg s p pol reset prio.toNat o).task p).schedClass = .fair ↔ _
    rw [changeScheduler_class (h.task p hp.1).staticPrio.1, hwaiter, Bool.or_false]
    by_cases hpol : pol = .wrr
    · subst hpol
      rw [if_pos rfl]
      exact iff_of_false (fun h => nomatch h) fun hno => hno ⟨reset, hlet⟩
    · -- an unprivileged caller cannot give a fair task an RT policy
      have hnot : ¬rtPolicy pol = true := fun hpol =>
        permissionCheck_rt hcaller hf hfair hpol reset hlet.permission
      rw [if_neg hpol, if_neg hnot]
      refine iff_of_true rfl fun ⟨reset', hlet'⟩ => ?_
      have hreq := hlet.requested
      rw [hlet'.requested] at hreq
      cases hreq
      exact hpol rfl

/-- **Step lemma**: a request of an unprivileged caller keeps every task confined. -/
theorem request_confined (h : Inv cfg s) (hall : AllConfined s) {r : Request} (hpre : r.Pre s) :
    Inv cfg (request cfg s r) ∧ AllConfined (request cfg s r) := by
  have hkind : ∀ f g : Task, g.kind = f.kind → f.Confined → g.Confined := fun _ _ =>
    Task.confined_of_kind
  cases r with
  | sched p caller policy prio o =>
    have hout := schedSetschedulerAlone_outcome cfg caller o s p policy prio
    show Inv cfg (schedSetschedulerAlone cfg caller o s p policy prio).2 ∧
      AllConfined (schedSetschedulerAlone cfg caller o s p policy prio).2
    generalize schedSetschedulerAlone cfg caller o s p policy prio = r at hout
    obtain ⟨result, t⟩ := r
    cases hout with
    | refused | stopTask | unchanged => exact ⟨h, hall⟩
    | changed pol reset hlet hstop hdiff hseen =>
      have hinv := changeScheduler_inv h hpre.1 hlet.prioFor reset o
      obtain ⟨u, slice, times, heff, hbal⟩ :=
        changeScheduler_effect cfg s p pol reset prio.toNat o
      refine ⟨hinv, forall_ordinary_write hkind h hinv hall heff hbal.sameKinds ?_⟩
      exact withPolicy_confined (f := { s.task p with schedResetOnFork := reset })
        (hall p hpre.1).rlimRtprio (h.task p hpre.1.1).staticPrio.1 pol _ _ _
  | fork parent child =>
    have hinv := schedFork_inv h hpre.1 hpre.2
    have hfork := Effect.setTask s child (forkTask (s.task parent))
    refine ⟨hinv, forall_ordinary_write hkind h hinv hall hfork (fun _ => rfl) ?_⟩
    exact forkTask_confined (h.task parent hpre.1.1) (hall parent hpre.1)
  | other op =>
    have hinv := exec_inv h op hpre.1
    have hsame := exec_kind h hpre.1 hpre.2
    refine ⟨hinv, fun q hq => ?_⟩
    exact Task.confined_of_kind (hsame q) (hall q (hsame.ordinary h hinv hq))

/-- An ordinary fair task. -/
def System.FairTask (s : System) (p : Pid) : Prop :=
  s.Ordinary p ∧ (s.task p).schedClass = .fair

/-- A fair task is a living task of the fair class. -/
theorem fairTask_iff (h : Inv cfg s) :
    s.FairTask q ↔ (s.task q).alive = true ∧ (s.task q).schedClass = .fair := by
  constructor
  · exact fun hq => ⟨hq.1.1, hq.2⟩
  · rintro ⟨halive, hclass⟩
    refine ⟨h.ordinary_iff.mpr ⟨halive, ?_, ?_⟩, hclass⟩
    · rw [hclass]
      exact fun h => nomatch h
    · rw [hclass]
      exact fun h => nomatch h

/-- A task of the same kind was a fair one before. -/
theorem System.FairTask.of_kind (ht : Inv cfg t) (hkind : (t.task q).kind = (s.task q).kind)
    (hq : s.FairTask q) : t.FairTask q := by
  refine (fairTask_iff ht).mpr ⟨?_, ?_⟩
  · show (t.task q).kind.alive = true
    rw [hkind]
    exact hq.1.1
  · show (t.task q).kind.schedClass = .fair
    rw [hkind]
    exact hq.2

/-- A call brings no task to life and writes no other task than its own. -/
theorem schedSetschedulerAlone_other (cfg : Config) (caller : Caller) (o : Outside) (s : System)
    (p : Pid) (policy prio : Int) (q : Pid) :
    ((schedSetschedulerAlone cfg caller o s p policy prio).2.task q).alive = (s.task q).alive ∧
      (q ≠ p → ((schedSetschedulerAlone cfg caller o s p policy prio).2.task q).kind =
        (s.task q).kind) := by
  have hout := schedSetschedulerAlone_outcome cfg caller o s p policy prio
  generalize schedSetschedulerAlone cfg caller o s p policy prio = r at hout
  obtain ⟨result, t⟩ := r
  cases hout with
  | refused | stopTask | unchanged => exact ⟨rfl, fun _ => rfl⟩
  | changed pol reset hlet hstop hdiff hseen =>
    obtain ⟨u, slice, times, heff, hbal⟩ :=
      changeScheduler_effect cfg s p pol reset prio.toNat o
    have hkind := hbal.sameKinds q
    show ((changeScheduler cfg s p pol reset prio.toNat o).task q).kind.alive = _ ∧ (_ →
      ((changeScheduler cfg s p pol reset prio.toNat o).task q).kind = _)
    rw [hkind]
    refine ⟨?_, fun hqp => by rw [heff.other hqp]⟩
    by_cases hqp : q = p
    · rw [hqp, heff.self]
      rfl
    · rw [heff.other hqp]
      rfl

/-- **Step lemma**: a call that does not ask for `SCHED_WRR` keeps fair tasks fair. -/
theorem request_fair (h : Inv cfg s) (hall : AllConfined s) {r : Request} (hpre : r.Pre s)
    (hnot : r.NotWrr s) (hq : s.FairTask q) : (request cfg s r).FairTask q := by
  have hinv := (request_confined h hall hpre).1
  cases r with
  | sched p caller policy prio o =>
    obtain ⟨halive, hother⟩ := schedSetschedulerAlone_other cfg caller o s p policy prio q
    by_cases hqp : q = p
    · subst hqp
      refine (fairTask_iff hinv).mpr ⟨halive.trans hq.1.1, ?_⟩
      exact (unprivileged_fair_iff h hq.1 (hall q hq.1) hq.2 hpre.2).mpr (hnot hq.2)
    · exact hq.of_kind hinv (hother hqp)
  | fork parent child =>
    refine hq.of_kind hinv ?_
    have hne : q ≠ child := by
      rintro rfl
      exact absurd hq.1.1 (by rw [hpre.2]; exact Bool.false_ne_true)
    show (Function.update s.task child (forkTask (s.task parent)) q).kind = _
    rw [Function.update_of_ne hne]
  | other op => exact hq.of_kind hinv (exec_kind h hpre.1 hpre.2 q)

/-- The child of a fair confined task is born in the fair class, with or without
`SCHED_RESET_ON_FORK`: its policy is the parent's or `SCHED_NORMAL`, neither of which is
`SCHED_WRR`, and then `sched_fork` chooses the fair class or leaves it the parent's. -/
theorem forkTask_fair (hf : f.Confined) (hfair : f.schedClass = .fair) :
    (forkTask f).schedClass = .fair := by
  have hclass : (forkReset (dupTask f)).schedClass = .fair := (forkReset_class _).1.trans hfair
  have hpolicy : (forkReset (dupTask f)).policy ≠ .wrr := by
    have hsame : (forkReset (dupTask f)).policy = f.policy ∨
        (forkReset (dupTask f)).policy = .normal := (forkReset_policy _).1
    rcases hsame with hsame | hnormal
    · rw [hsame]
      exact (hf.fair hfair).2.1
    · rw [hnormal]
      exact fun h => nomatch h
  rw [forkTask, forkClass_eq]
  show (if (forkReset (dupTask f)).policy = .wrr then ClassId.wrr
    else if rtPrio (forkReset (dupTask f)).prio then (forkReset (dupTask f)).schedClass
    else .fair) = .fair
  rw [if_neg hpolicy, hclass, ite_self]

/-- **Step lemma for the child**: a fair task forks a fair task. -/
theorem request_fork_fair (h : Inv cfg s) (hall : AllConfined s)
    (hpre : (Request.fork p child).Pre s) (hp : s.FairTask p) :
    (request cfg s (.fork p child)).FairTask child := by
  have hinv := (request_confined h hall hpre).1
  have hchild : (request cfg s (.fork p child)).task child = forkTask (s.task p) :=
    schedFork_child cfg s p child
  refine (fairTask_iff hinv).mpr ⟨?_, ?_⟩
  · rw [hchild]
    exact forkTask_alive _
  · rw [hchild]
    exact forkTask_fair (hall p hp.1) hp.2

/-- One request, and who descends from the first task after it: a child of a descendant is
one. -/
def followRequest (cfg : Config) (l : Lineage) (r : Request) : Lineage where
  sys := request cfg l.sys r
  family := match r with
    | .fork parent child => if parent ∈ l.family then child :: l.family else l.family
    | _ => l.family

/-- What holds along a run: a confined system, in which the whole family is fair. -/
structure Lineage.Fair (cfg : Config) (p : Pid) (l : Lineage) : Prop where
  inv : Inv cfg l.sys
  confined : AllConfined l.sys
  root : p ∈ l.family
  fair : ∀ q ∈ l.family, l.sys.FairTask q

/-- **Step lemma**: the family stays fair, and grows by fair children only. -/
theorem followRequest_fair {l : Lineage} {r : Request} (h : l.Fair cfg p) (hpre : r.Pre l.sys)
    (hnot : r.NotWrr l.sys) : (followRequest cfg l r).Fair cfg p := by
  obtain ⟨hinv, hall⟩ := request_confined h.inv h.confined hpre
  have hold : ∀ q ∈ l.family, (request cfg l.sys r).FairTask q := fun q hq =>
    request_fair h.inv h.confined hpre hnot (h.fair q hq)
  cases r with
  | sched | other => exact ⟨hinv, hall, h.root, hold⟩
  | fork parent child =>
    by_cases hparent : parent ∈ l.family
    · have hfamily : (followRequest cfg l (.fork parent child)).family = child :: l.family :=
        if_pos hparent
      refine ⟨hinv, hall, ?_, ?_⟩
      · rw [hfamily]
        exact List.mem_cons_of_mem _ h.root
      · rw [hfamily]
        intro q hq
        rcases List.mem_cons.mp hq with rfl | hq
        · exact request_fork_fair h.inv h.confined hpre (h.fair parent hparent)
        · exact hold q hq
    · have hfamily : (followRequest cfg l (.fork parent child)).family = l.family :=
        if_neg hparent
      exact ⟨hinv, hall, hfamily ▸ h.root, hfamily ▸ hold⟩

/-- **Unprivileged callers keep fair tasks and their descendants fair**, in every run in which no
call asks for `SCHED_WRR` for a fair task: when a task is fair in some state of the run, it is
fair in every later one, and so is every task that has by then been forked by it, by one of its
children, and so on, from its birth on. -/
theorem unprivileged_confined (hs : Boot s₀) (hall : AllConfined s₀)
    (hbefore : Reach (fun s r => Request.Pre s r ∧ r.NotWrr s) (request cfg) s₀ s)
    (hfair : s.FairTask p) {l : Lineage}
    (hafter : Reach (fun l r => Request.Pre l.sys r ∧ r.NotWrr l.sys) (followRequest cfg)
      ⟨s, [p]⟩ l) :
    p ∈ l.family ∧ ∀ q ∈ l.family, (l.sys.task q).schedClass = .fair := by
  have hrun : Inv cfg s ∧ AllConfined s := by
    refine hbefore.invariant (I := fun s => Inv cfg s ∧ AllConfined s) ?_ ⟨hs.inv, hall⟩
    intro s r hinv hr
    exact request_confined hinv.1 hinv.2 hr.1
  have hfirst : Lineage.Fair cfg p ⟨s, [p]⟩ := by
    refine ⟨hrun.1, hrun.2, List.mem_singleton_self p, fun q hq => ?_⟩
    rw [List.mem_singleton.mp hq]
    exact hfair
  have hlast : l.Fair cfg p := by
    refine hafter.invariant (I := Lineage.Fair cfg p) ?_ hfirst
    intro l r hl hr
    exact followRequest_fair hl hr.1 hr.2
  exact ⟨hlast.root, fun q hq => (hlast.fair q hq).2⟩

/-- The owner of a task, without `CAP_SYS_NICE`. -/
def ordinaryUser : Caller where
  user := true
  capSysNice := false
  sameOwner := true
  security := none

theorem ordinaryUser_unprivileged : Unprivileged ordinaryUser := ⟨rfl, rfl⟩

theorem bootSystem_confined : AllConfined bootSystem := by
  intro p hp
  have htask : bootSystem.task p = bootTask (fun _ => fairTask) p := rfl
  rw [htask]
  by_cases hodd : p % 2 = 0
  · rw [bootTask_even _ hodd]
    exact ⟨rfl, fun hfair => nomatch hfair⟩
  · rw [bootTask_odd _ hodd]
    exact ⟨rfl, fun _ => ⟨rfl, (fun h => nomatch h), rfl⟩⟩

theorem ordinaryUser_fifo_notWrr {q : Pid} (prio : Int) (o : Outside) :
    (Request.sched q ordinaryUser 1 prio o).NotWrr s := by
  rintro - hasks
  obtain ⟨reset, hreq, -⟩ := hasks.requested
  cases hreq

/-- The first task forks task 3, which asks for `SCHED_FIFO`, is refused, and forks task 7. -/
theorem unprivileged_confined_boot :
    let l₁ := followRequest (upConfig .rmlfq) ⟨bootSystem, [1]⟩ (.fork 1 3)
    let l₂ := followRequest (upConfig .rmlfq) l₁ (.sched 3 ordinaryUser 1 50 .quiet)
    let l₃ := followRequest (upConfig .rmlfq) l₂ (.fork 3 7)
    l₃.family = [7, 3, 1] ∧ (1 ∈ l₃.family ∧
      ∀ q ∈ l₃.family, (l₃.sys.task q).schedClass = .fair) := by
  intro l₁ l₂ l₃
  have hinv : Inv (upConfig .rmlfq) bootSystem := bootSystem_boot.inv
  have hfair : bootSystem.FairTask 1 := ⟨bootSystem_ordinary (upConfig .rmlfq), rfl⟩
  -- the child is born fair, and stays so when its call is refused
  have hfork : Request.Pre bootSystem (.fork 1 3) := ⟨hfair.1, rfl⟩
  have hborn : l₁.sys.FairTask 3 := request_fork_fair hinv bootSystem_confined hfork hfair
  have hsched : Request.Pre l₁.sys (.sched 3 ordinaryUser 1 50 .quiet) :=
    ⟨hborn.1, ordinaryUser_unprivileged⟩
  have hnot : Request.NotWrr l₁.sys (.sched 3 ordinaryUser 1 50 .quiet) :=
    ordinaryUser_fifo_notWrr 50 .quiet
  have hinv₁ := request_confined hinv bootSystem_confined hfork
  have hrefused : l₂.sys.FairTask 3 := request_fair hinv₁.1 hinv₁.2 hsched hnot hborn
  have hfork' : Request.Pre l₂.sys (.fork 3 7) := ⟨hrefused.1, by decide +kernel⟩
  have hrun : Reach (fun l r => Request.Pre l.sys r ∧ r.NotWrr l.sys)
      (followRequest (upConfig .rmlfq)) ⟨bootSystem, [1]⟩ l₃ :=
    ((Reach.single ⟨hfork, trivial⟩).tail ⟨hsched, hnot⟩).tail ⟨hfork', trivial⟩
  refine ⟨by decide +kernel, ?_⟩
  exact unprivileged_confined bootSystem_boot bootSystem_confined (Reach.refl _) hfair hrun

/-- One `sched_setscheduler(SCHED_WRR, 10)` by an ordinary user with no RT limit takes a
fair task out of the fair class. -/
theorem unprivileged_gets_wrr :
    let s := bootSystem
    let t := request (upConfig .rmlfq) s (.sched 1 ordinaryUser 6 10 .quiet)
    Boot s ∧ AllConfined s ∧ s.FairTask 1 ∧
      Reach (fun s r => Request.Pre s r) (request (upConfig .rmlfq)) s t ∧
      (t.task 1).schedClass = .wrr ∧ ClassId.wrr.precedes .fair := by
  intro s t
  have hord := bootSystem_ordinary (upConfig .rmlfq)
  refine ⟨bootSystem_boot, bootSystem_confined, ⟨hord, rfl⟩, ?_, by decide, by decide⟩
  exact Reach.single ⟨hord, ordinaryUser_unprivileged⟩

/-! ## The advertised ranges -/

/-- A user task may have priority 0 under every policy, and another one up to 99 under the
RT policies and `SCHED_WRR`. -/
theorem validParam_user_iff {pol : Policy} (hmm : seen.mm = true) : validParam seen pol prio = true ↔
    prio = 0 ∨ 1 ≤ prio ∧ prio ≤ 99 ∧ (rtPolicy pol = true ∨ wrrPolicy pol = true) := by
  constructor
  · intro h
    obtain ⟨hlo, hhi, hzero⟩ := validParam_prio h
    by_cases hprio : prio = 0
    · exact .inl hprio
    · refine .inr ⟨by omega, hhi, ?_⟩
      by_contra hno
      simp only [not_or, Bool.not_eq_true] at hno
      exact hprio (hzero hno.1 hno.2)
  · intro h
    have hrange : 0 ≤ prio ∧ prio ≤ 99 := by omega
    have hlo : decide (prio < 0) = false := decide_eq_false (by omega)
    have hhi : decide (prio > (maxUserRtPrio : Int) - 1) = false :=
      decide_eq_false (by unfold maxUserRtPrio; push_cast; omega)
    unfold validParam
    rw [hmm, hlo, hhi]
    rcases h with rfl | ⟨hpos, -, hpolicy⟩
    · -- the two comparisons with 0 do not fail together
      cases pol <;> rfl
    · have hprio : (prio != 0) = true := bne_iff_ne.mpr (by omega)
      rw [hprio]
      rcases hpolicy with hrt | hwrr
      · rw [hrt]
        rfl
      · rw [hwrr]
        cases rtPolicy pol <;> rfl

/-- `SCHED_RESET_ON_FORK`, or no flag. -/
def resetFlag (reset : Bool) : Nat := if reset then 2 ^ 30 else 0

/-- A policy number with or without the flag is read as this policy and this flag. -/
theorem requestedPolicy_number {n : Nat} {pol : Policy} (h : decodePolicy n = some pol)
    (seen : Task) (reset : Bool) :
    requestedPolicy seen ((n + resetFlag reset : Nat) : Int) = some (pol, reset) := by
  have hneg : ¬((n + resetFlag reset : Nat) : Int) < 0 := by omega
  unfold requestedPolicy
  rw [if_neg hneg]
  match n, h with
  | 0, h | 1, h | 2, h | 3, h | 5, h | 6, h =>
    cases h
    cases reset <;> rfl

/-- The priorities that the two system calls advertise for a policy. -/
def Advertised (policy : Nat) (prio : Int) : Prop :=
  ∃ lo hi, schedGetPriorityMin policy = .ok lo ∧ schedGetPriorityMax policy = .ok hi ∧
    lo ≤ prio ∧ prio ≤ hi

/-- What is advertised depends on the policy being a real-time or the WRR one. -/
theorem advertised_iff {n : Nat} {pol : Policy} (h : decodePolicy n = some pol) :
    Advertised n prio ↔
      if rtPolicy pol || wrrPolicy pol then 1 ≤ prio ∧ prio ≤ 99 else prio = 0 := by
  unfold Advertised schedGetPriorityMin schedGetPriorityMax
  rw [h]
  have hrange : ∀ lo hi : Int, (∃ lo' hi', (Except.ok lo : Except Errno Int) = .ok lo' ∧
      (Except.ok hi : Except Errno Int) = .ok hi' ∧ lo' ≤ prio ∧ prio ≤ hi') ↔
        lo ≤ prio ∧ prio ≤ hi := by
    intro lo hi
    constructor
    · rintro ⟨lo', hi', hlo, hhi, hle⟩
      cases hlo
      cases hhi
      exact hle
    · exact fun hle => ⟨lo, hi, rfl, rfl, hle⟩
  have hzero : 0 ≤ prio ∧ prio ≤ 0 ↔ prio = 0 := by omega
  cases pol with
  | fifo | rr | wrr => exact hrange 1 99
  | normal | batch | idle => exact (hrange 0 0).trans hzero

/-- A parameter that is not valid is refused before anything else is looked at. -/
theorem schedSetschedulerPass_invalid {pol : Policy} {reset : Bool}
    (hreq : requestedPolicy seen policy = some (pol, reset))
    (hparam : validParam seen pol prio = false) :
    schedSetschedulerPass cfg caller o seen s p policy prio = .done (.error .einval) s := by
  unfold schedSetschedulerPass
  rw [hreq]
  exact if_pos hparam

/-- The checks let a priority through exactly when it is advertised, and the call fails with
`EINVAL` when it is not. -/
def ChecksAgree (cfg : Config) (caller : Caller) (o : Outside) (seen : Task) (s : System) (p : Pid)
    (policy : Nat) (reset : Bool) (prio : Int) : Prop :=
  ((∃ pol, requestedPolicy seen ((policy + resetFlag reset : Nat) : Int) = some (pol, reset) ∧
      validParam seen pol prio = true) ↔ Advertised policy prio) ∧
    (¬Advertised policy prio → schedSetschedulerPass cfg caller o seen s p
      ((policy + resetFlag reset : Nat) : Int) prio = .done (.error .einval) s)

/-- The checks agree with the advertised range exactly when `validParam` does. -/
theorem checksAgree_iff_param {n : Nat} {pol : Policy} (h : decodePolicy n = some pol)
    (reset : Bool) : ChecksAgree cfg caller o seen s p n reset prio ↔
      (validParam seen pol prio = true ↔ Advertised n prio) := by
  have hreq := requestedPolicy_number h seen reset
  have hpassed : (∃ pol, requestedPolicy seen ((n + resetFlag reset : Nat) : Int) =
      some (pol, reset) ∧ validParam seen pol prio = true) ↔ validParam seen pol prio = true := by
    rw [hreq]
    constructor
    · rintro ⟨pol', heq, hvalid⟩
      cases heq
      exact hvalid
    · exact fun hvalid => ⟨pol, rfl, hvalid⟩
  unfold ChecksAgree
  rw [hpassed]
  constructor
  · exact fun hagree => hagree.1
  · intro hiff
    refine ⟨hiff, fun hout => schedSetschedulerPass_invalid hreq ?_⟩
    rw [← hiff] at hout
    simpa using hout

/-- **The checks agree with the advertised ranges except that** they let priority 0 through
under the RT policies and `SCHED_WRR`. -/
theorem checksAgree_iff {n : Nat} {pol : Policy} (h : decodePolicy n = some pol)
    (hmm : seen.mm = true) (reset : Bool) :
    ChecksAgree cfg caller o seen s p n reset prio ↔
      ¬(prio = 0 ∧ (rtPolicy pol = true ∨ wrrPolicy pol = true)) := by
  have hadvertised : Advertised n prio ↔ (if rtPolicy pol = true ∨ wrrPolicy pol = true
      then 1 ≤ prio ∧ prio ≤ 99 else prio = 0) := by
    rw [advertised_iff h]
    simp only [Bool.or_eq_true]
  rw [checksAgree_iff_param h, hadvertised, validParam_user_iff hmm]
  by_cases hpolicy : rtPolicy pol = true ∨ wrrPolicy pol = true
  · -- priority 0 passes and is not advertised
    simp only [hpolicy, if_true, and_true]
    omega
  · simp only [hpolicy, if_false, and_false, or_false, not_false_eq_true]

theorem checksAgree_boot :
    ChecksAgree (upConfig .rmlfq) privileged .quiet (bootSystem.task 1) bootSystem 1 6 true 50 :=
  (checksAgree_iff (show decodePolicy 6 = some .wrr from rfl) rfl true).mpr (by decide)

/-- `SCHED_FIFO`, `SCHED_RR` and `SCHED_WRR` with priority 0 pass the checks, and the call
changes the policy. -/
theorem checksAgree_zero :
    let call := fun n => schedSetschedulerAlone (upConfig .rmlfq) privileged .quiet bootSystem 1 n 0
    (¬Advertised 1 0 ∧ ((call 1).2.task 1).policy = .fifo ∧
      ((call 1).2.task 1).schedClass = .rt) ∧
    (¬Advertised 2 0 ∧ ((call 2).2.task 1).policy = .rr) ∧
    ¬Advertised 6 0 ∧ ((call 6).2.task 1).policy = .wrr := by
  intro call
  have hout : ∀ n pol, decodePolicy n = some pol → (rtPolicy pol || wrrPolicy pol) = true →
      ¬Advertised n 0 := by
    intro n pol hn hpol
    rw [advertised_iff hn, if_pos hpol]
    omega
  exact ⟨⟨hout 1 .fifo rfl rfl, by decide +kernel, by decide +kernel⟩,
    ⟨hout 2 .rr rfl rfl, by decide +kernel⟩, hout 6 .wrr rfl rfl, by decide +kernel⟩

end LinuxWrr
