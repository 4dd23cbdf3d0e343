import LinuxWrr.Sched.Current

/-!
# Scheduling class, policy and priority

Four functions assign `sched_class`: `__setscheduler` looks at the policy first and then
at the effective priority, `rt_mutex_setprio` at the priority only, `sched_fork` at the
priority and then at the policy, and `normalize_task` goes through `__setscheduler`.

- `Task.kind`: what is left of a task without its place and its slices; only forks and
  changes of policy, priority and nice value touch it (`exec_kind`).
- `Task.ClassOk`: the class is the one the effective priority and the policy ask for.
- `classOk_step_iff`: **an operation leaves every class right exactly when it meets
  `Op.KeepsClass`**.
- `schedClass_reach`: so do the runs of such operations.
-/

namespace LinuxWrr

variable {cfg : Config} {s t u : System} {c : Cpu} {p q : Pid} {f g : Task} {o : Outside}

/-! ## What scheduling does not touch -/

/-- The task without the fields that scheduling writes. -/
def Task.kind (t : Task) : Task :=
  { t with
    rtPriority := 0
    onRq := false
    cpu := 0
    timeSlice := 0
    times := 0
    rtTimeSlice := 0
    schedTaskGroup := 0 }

/-- The two states hold the same kinds of tasks. -/
def SameKinds (s t : System) : Prop := ∀ q, (t.task q).kind = (s.task q).kind

theorem Task.schedClass_of_kind (h : g.kind = f.kind) : g.schedClass = f.schedClass := by
  have hclass := congrArg Task.schedClass h
  exact hclass

theorem Task.alive_of_kind (h : g.kind = f.kind) : g.alive = f.alive := by
  have halive := congrArg Task.alive h
  exact halive

/-- Placing a task is not seen in its kind. -/
theorem kind_blind : PlaceBlind Task.kind := fun _ _ _ _ => rfl

theorem SameKinds.trans (h : SameKinds s t) (h' : SameKinds t u) : SameKinds s u :=
  SameOn.trans h h'

theorem SameKinds.of_task (h : t.task = s.task) : SameKinds s t := SameOn.of_task h

/-- A step that rewrites one task keeps all kinds if it keeps this one. -/
theorem Effect.sameKinds (h : Effect s t p f) (hf : f.kind = (s.task p).kind) : SameKinds s t :=
  h.sameOn hf

theorem Move.sameKinds (h : Move cfg s t p) : SameKinds s t := by
  obtain ⟨_, _, _, _, -, heff⟩ := h.effect
  exact heff.sameKinds rfl

theorem Balance.sameKinds (h : Balance s t) : SameKinds s t := h.sameOn kind_blind

theorem schedule_sameKinds (cfg : Config) (s : System) (c : Cpu) (sleep : Bool) (o : Outside) :
    SameKinds s (schedule cfg s c sleep o) := schedule_sameOn kind_blind cfg s c sleep o

/-- The operations that may change the kind of a task. -/
def Op.changesKind : Op → Bool
  | .fork _ _ | .nice _ _ | .setscheduler _ _ _ _ _ | .setprio _ _ _ _ | .normalize _ _ => true
  | _ => false

theorem exec_kind (h : Inv cfg s) {op : Op} (hpre : op.Pre s) (hop : op.changesKind = false) :
    SameKinds s (exec cfg s op) := by
  have htick : ∀ c o, (s.rq c).curr = (s.rq c).idle ∨ s.CurrOnRq c →
      SameKinds s (schedulerTick cfg s c o) ∧ SameKinds s (yieldTask cfg s c o) := by
    rintro c o (hidle | hon)
    · obtain ⟨htick, hyield⟩ := idle_tick h hidle o
      rw [htick, hyield]
      exact ⟨fun _ => rfl, fun _ => rfl⟩
    · have hrtp := (h.task _ (h.alive_of_onRq hon.1)).rtPriority
      exact ⟨(schedulerTick_move hon.2 hrtp o).sameKinds, (yieldTask_move hon.2 hrtp o).sameKinds⟩
  cases op with
  | tick c o => exact (htick c o hpre).1
  | schedYield c o => exact (htick c o hpre).2.trans (schedule_sameKinds cfg _ c false o)
  | yield c o => exact (htick c o hpre).2
  | requeue p head rand =>
    have hrtp := (h.task p (h.alive_of_onRq hpre.1)).rtPriority
    exact (requeueTaskWrr_move hpre.2 hrtp head rand).sameKinds
  | fork | nice | setscheduler | setprio | normalize => cases hop
  | _ => exact exec_places kind_blind rfl

/-! ## What the class should be -/

/-- `rt_sched_class` for an RT effective priority, else `wrr_sched_class` for `SCHED_WRR`,
else `fair_sched_class`. -/
def Task.ClassOk (t : Task) : Prop :=
  t.schedClass = if rtPrio t.prio then .rt else if t.policy = .wrr then .wrr else .fair

instance (t : Task) : Decidable t.ClassOk := inferInstanceAs (Decidable (_ = _))

theorem Task.classOk_of_kind (h : g.kind = f.kind) : g.ClassOk ↔ f.ClassOk := by
  have hkind : ∀ f : Task, f.ClassOk ↔ f.kind.ClassOk := fun _ => Iff.rfl
  rw [hkind g, h, ← hkind f]

/-- From priority 100 on nothing is real-time. -/
theorem rtPrio_eq_false {prio : Int} (h : 100 ≤ prio) : rtPrio prio = false := by
  unfold rtPrio maxRtPrio
  exact decide_eq_false (by push_cast; omega)

/-- `rt_mutex_setprio` drops a `SCHED_WRR` task to the fair class unless it boosts it. -/
theorem setPrio_classOk {prio : Int} : (f.setPrio prio).ClassOk ↔
    (f.policy = .wrr → rtPrio prio = true) := by
  show (if rtPrio prio then ClassId.rt else .fair) =
    (if rtPrio prio then .rt else if f.policy = .wrr then .wrr else .fair) ↔ _
  by_cases hprio : rtPrio prio = true
  · simp [hprio]
  · rw [if_neg hprio, if_neg hprio]
    by_cases hpolicy : f.policy = .wrr
    · simp [hpolicy, hprio]
    · simp [hpolicy]

/-- The better of two priorities is real-time as soon as one of them is. -/
theorem rtPrio_min (a b : Int) : rtPrio (min a b) = (rtPrio a || rtPrio b) := by
  unfold rtPrio
  rw [← Bool.decide_or]
  exact decide_eq_decide.mpr min_lt_iff

/-- The priority `__setscheduler` computes is an RT one under an RT policy or when an RT
waiter boosts the task. -/
theorem setPolicy_rtPrio (hstatic : 100 ≤ f.staticPrio) (policy : Policy) (prio : Nat) :
    rtPrio (f.setPolicy policy prio).prio = (rtPolicy policy || f.piTopWaiter.any rtPrio) := by
  have hnormal : rtPrio (f.setPolicy policy prio).normalPrio = rtPolicy policy := by
    show rtPrio (normalPrio { f with policy := policy, rtPriority := prio }) = _
    by_cases hrt : rtPolicy policy = true
    · rw [normalPrio_of_rt hrt, hrt]
      unfold rtPrio maxRtPrio
      exact decide_eq_true (by push_cast; omega)
    · rw [normalPrio_of_not_rt hrt]
      simpa [hrt] using rtPrio_eq_false hstatic
  have hprio : (f.setPolicy policy prio).prio = rtMutexGetprio (f.setPolicy policy prio) := rfl
  have hwaiter : (f.setPolicy policy prio).piTopWaiter = f.piTopWaiter := rfl
  rw [hprio, rtMutexGetprio, hwaiter]
  cases f.piTopWaiter with
  | none => simpa using hnormal
  | some w =>
    show rtPrio (min _ w) = _
    rw [rtPrio_min, hnormal]
    rfl

/-- `__setscheduler` drops the boost of a task that becomes `SCHED_WRR`. -/
theorem withPolicy_classOk (hok : TaskOk f) (policy : Policy) (prio timeSlice times : Nat) :
    (f.withPolicy policy prio timeSlice times).ClassOk ↔
      (policy = .wrr → ∀ w, f.piTopWaiter = some w → rtPrio w = false) := by
  have hprio := setPolicy_rtPrio hok.staticPrio.1 policy prio
  show (if policy = .wrr then ClassId.wrr
      else if rtPrio (f.setPolicy policy prio).prio then .rt else .fair) =
    (if rtPrio (f.setPolicy policy prio).prio then .rt
      else if policy = .wrr then .wrr else .fair) ↔ _
  rw [hprio]
  by_cases hpolicy : policy = .wrr
  · -- the normal priority is the static one, so only a waiter can boost
    subst hpolicy
    rw [show (rtPolicy .wrr || f.piTopWaiter.any rtPrio) = f.piTopWaiter.any rtPrio from rfl]
    cases hw : f.piTopWaiter with
    | none => simp
    | some w => cases hrt : rtPrio w <;> simp [hrt]
  · simp [hpolicy]

/-- A new nice level keeps class and policy of a task fitting. -/
theorem setNice_classOk {nice : Int} (hrt : rtPolicy f.policy = false)
    (hstatic : 100 ≤ niceToPrio nice) (h : f.ClassOk) : (f.setNice nice).ClassOk := by
  have hnormal : (f.setNice nice).prio = if rtPrio f.prio then f.prio else niceToPrio nice := by
    show (if rtPrio f.prio then f.prio
      else normalPrio { f with staticPrio := niceToPrio nice }) = _
    rw [normalPrio_of_not_rt (f := { f with staticPrio := niceToPrio nice }) (by simp [hrt])]
  have hprio : rtPrio (f.setNice nice).prio = rtPrio f.prio := by
    rw [hnormal]
    by_cases hboost : rtPrio f.prio = true
    · rw [if_pos hboost]
    · rw [if_neg hboost, rtPrio_eq_false hstatic]
      simpa using hboost
  unfold Task.ClassOk
  rw [hprio]
  exact h

/-- A child that is reset starts at its static priority, with no RT policy. -/
theorem forkReset_classOk (hstatic : 100 ≤ f.staticPrio) (hreset : f.schedResetOnFork = true) :
    (forkClass (forkReset f)).ClassOk := by
  have hprio : rtPrio (forkReset f).prio = false := by
    have hzero : 100 ≤ niceToPrio 0 := by decide
    unfold forkReset
    rw [if_pos hreset]
    refine rtPrio_eq_false ?_
    show 100 ≤ (if rtPolicy f.policy then _ else _ : Task).staticPrio
    split
    · exact hzero
    · split
      · exact hzero
      · exact hstatic
  rw [forkClass_eq]
  generalize forkReset f = g at hprio
  unfold Task.ClassOk
  simp [hprio]

/-- The child of a task whose class is right, and when its own class is. -/
theorem forkTask_classOk (hok : TaskOk f) (h : f.ClassOk) : (forkTask f).ClassOk ↔
    (rtPolicy f.policy = true → f.schedResetOnFork = false → rtPrio f.prio = true) := by
  cases hreset : f.schedResetOnFork with
  | true =>
    refine iff_of_true (forkReset_classOk hok.staticPrio.1 hreset) fun _ hno => ?_
    cases hno
  | false =>
    unfold forkTask
    -- without the flag the child starts at the normal priority of its parent
    have hsame : forkReset (dupTask f) = dupTask f := if_neg (by simp [dupTask, hreset])
    rw [hsame, forkClass_eq]
    show (if f.policy = .wrr then ClassId.wrr
        else if rtPrio f.normalPrio then f.schedClass else .fair) =
      (if rtPrio f.normalPrio then .rt else if f.policy = .wrr then .wrr else .fair) ↔ _
    rw [hok.normalPrio]
    by_cases hrt : rtPolicy f.policy = true
    · have hnot : f.policy ≠ .wrr := by
        intro hwrr
        rw [hwrr] at hrt
        cases hrt
      -- an RT child stays in the class of its parent, which is RT unless a boost has run out
      have hprio : rtPrio (normalPrio f) = true := by
        rw [normalPrio_of_rt hrt]
        unfold rtPrio maxRtPrio
        exact decide_eq_true (by omega)
      unfold Task.ClassOk at h
      rw [if_neg hnot] at h ⊢
      rw [if_pos hprio, if_pos hprio, h]
      by_cases hboost : rtPrio f.prio = true
      · simp [hboost]
      · simp [hboost, hrt]
    · have hprio : rtPrio (normalPrio f) = false := by
        rw [normalPrio_of_not_rt hrt]
        exact rtPrio_eq_false hok.staticPrio.1
      simp [hprio, hrt]

/-! ## Runs -/

/-- Every task but the stop and idle tasks is in the class it should be in. -/
def ClassPolicyOk (s : System) : Prop := ∀ p, s.Ordinary p → (s.task p).ClassOk

/-- What an operation must avoid for the classes to stay right: a deboost of a `SCHED_WRR`
task, a switch to `SCHED_WRR` of a boosted task, and a fork by a task with an RT policy
whose effective priority is not an RT one. -/
def Op.KeepsClass (s : System) : Op → Prop
  | .setprio p prio _ _ => (s.task p).policy = .wrr → rtPrio prio = true
  | .setscheduler p policy _ _ _ =>
    policy = .wrr → ∀ w, (s.task p).piTopWaiter = some w → rtPrio w = false
  | .fork parent _ =>
    rtPolicy (s.task parent).policy = true → (s.task parent).schedResetOnFork = false →
      rtPrio (s.task parent).prio = true
  | _ => True

/-- The kind of a task tells whether it is ordinary. -/
theorem Inv.ordinary_of_kind (hs : Inv cfg s) (ht : Inv cfg t)
    (h : (t.task q).kind = (s.task q).kind) (hq : t.Ordinary q) : s.Ordinary q := by
  obtain ⟨halive, hidle, hstop⟩ := ht.ordinary_iff.mp hq
  rw [Task.schedClass_of_kind h] at hidle hstop
  exact hs.ordinary_iff.mpr ⟨(Task.alive_of_kind h).symm.trans halive, hidle, hstop⟩

theorem SameKinds.ordinary (h : SameKinds s t) (hs : Inv cfg s) (ht : Inv cfg t)
    (hq : t.Ordinary q) : s.Ordinary q := hs.ordinary_of_kind ht (h q) hq

/-- A step that keeps all kinds keeps classes and policies fitting. -/
theorem ClassPolicyOk.of_sameKinds (hok : ClassPolicyOk s) (hs : Inv cfg s) (ht : Inv cfg t)
    (h : SameKinds s t) : ClassPolicyOk t := fun q hq =>
  (Task.classOk_of_kind (h q)).mpr (hok q (h.ordinary hs ht hq))

/-- One task is written: what holds of all ordinary tasks still does, if it holds of the
written one. -/
theorem forall_ordinary_write {P : Task → Prop} (hP : ∀ f g : Task, g.kind = f.kind → P f → P g)
    (hs : Inv cfg s) (ht : Inv cfg t) (hall : ∀ q, s.Ordinary q → P (s.task q))
    (heff : Effect s u p f) (hsame : SameKinds u t) (hf : P f) :
    ∀ q, t.Ordinary q → P (t.task q) := by
  intro q hq
  by_cases hqp : q = p
  · subst hqp
    refine hP f _ ?_ hf
    rw [hsame q, heff.self]
  · have hkind : (t.task q).kind = (s.task q).kind := by rw [hsame q, heff.other hqp]
    exact hP _ _ hkind (hall q (hs.ordinary_of_kind ht hkind hq))

/-- One task is written: the classes stay right exactly when its own is right. -/
theorem ClassPolicyOk.write (hok : ClassPolicyOk s) (hs : Inv cfg s) (ht : Inv cfg t)
    (heff : Effect s u p f) (hsame : SameKinds u t) (halive : f.alive = true)
    (hidle : f.schedClass ≠ .idle) (hstop : f.schedClass ≠ .stop) :
    ClassPolicyOk t ↔ f.ClassOk := by
  constructor
  · intro h
    have hkind : (t.task p).kind = f.kind := by rw [hsame p, heff.self]
    rw [← Task.schedClass_of_kind hkind] at hidle hstop
    exact (Task.classOk_of_kind hkind).mp
      (h p (ht.ordinary_iff.mpr ⟨(Task.alive_of_kind hkind).trans halive, hidle, hstop⟩))
  · exact forall_ordinary_write (fun f g hkind => (Task.classOk_of_kind hkind).mpr) hs ht hok heff
      hsame

/-- Priority inheritance puts nobody into the idle or the stop class. -/
theorem setPrio_class (f : Task) (prio : Int) :
    (f.setPrio prio).schedClass ≠ .idle ∧ (f.setPrio prio).schedClass ≠ .stop := by
  unfold Task.setPrio
  dsimp only
  constructor <;> split <;> decide

/-- **Step lemma**: an operation keeps every class right exactly when it avoids the three
cases of `Op.KeepsClass`. -/
theorem classOk_step_iff (h : Inv cfg s) (hok : ClassPolicyOk s) {op : Op} (hpre : op.Pre s) :
    ClassPolicyOk (exec cfg s op) ↔ op.KeepsClass s := by
  have hinv := exec_inv h op hpre
  cases op with
  | fork parent child =>
    obtain ⟨-, hidle, hstop⟩ := h.ordinary_iff.mp hpre.1
    obtain ⟨hidle', hstop', halive, -⟩ := forkTask_class hidle hstop
    have hfork := Effect.setTask s child (forkTask (s.task parent))
    rw [hok.write h hinv hfork (fun _ => rfl) halive hidle' hstop']
    exact forkTask_classOk (h.task parent hpre.1.1) (hok parent hpre.1)
  | nice p nice =>
    refine iff_of_true ?_ trivial
    have hp := h.task p hpre.1
    obtain ⟨-, hidle, hstop⟩ := h.ordinary_iff.mp hpre
    rcases setUserNice_effect cfg s p nice with ⟨-, heq⟩ | ⟨hnice, ⟨-, heff⟩ | ⟨hrt, heff⟩⟩
    · rw [show exec cfg s (.nice p nice) = s from heq]
      exact hok
    · exact (hok.write h hinv heff (fun _ => rfl) hpre.1 hidle hstop).mpr (hok p hpre)
    · refine (hok.write h hinv heff (fun _ => rfl) hpre.1 hidle hstop).mpr ?_
      refine setNice_classOk hrt ?_ (hok p hpre)
      unfold niceToPrio maxRtPrio
      push_cast
      omega
  | setscheduler p policy reset prio o =>
    obtain ⟨u, slice, times, heff, hbal⟩ := changeScheduler_effect cfg s p policy reset prio o
    have hp := h.task p hpre.1.1
    obtain ⟨hidle, hstop⟩ := withPolicy_class { s.task p with schedResetOnFork := reset } policy
      prio slice times
    rw [hok.write h hinv heff hbal.sameKinds hpre.1.1 hidle hstop, withPolicy_classOk]
    · rfl
    · exact ⟨hp.rtPriority, hp.userPriority, hp.staticPrio, hp.normalPrio, hp.prio, hp.waiter,
        hp.rt, hp.wrr⟩
  | setprio p prio waiter o =>
    obtain ⟨u, heff, hbal⟩ := setprio_effect cfg s p prio waiter o (Ne.symm (hpre.1.2 _).1)
    obtain ⟨hidle, hstop⟩ := setPrio_class { s.task p with piTopWaiter := waiter } prio
    rw [hok.write h hinv heff hbal.sameKinds hpre.1.1 hidle hstop]
    exact setPrio_classOk
  | normalize p o =>
    refine iff_of_true ?_ trivial
    obtain ⟨u, slice, times, heff, hbal⟩ := normalizeTask_effect cfg s p o
    obtain ⟨hidle, hstop⟩ := withPolicy_class (s.task p) .normal 0 slice times
    refine (hok.write h hinv heff hbal.sameKinds hpre.1 hidle hstop).mpr ?_
    exact (withPolicy_classOk (h.task p hpre.1) .normal 0 slice times).mpr fun hno => nomatch hno
  | _ => exact iff_of_true (hok.of_sameKinds h hinv (exec_kind h hpre rfl)) trivial

/-- **The scheduling class is determined by policy and effective priority**, in every state
of every run whose operations avoid the three cases of `Op.KeepsClass`. -/
theorem schedClass_reach (hs : Boot s) (hok : ClassPolicyOk s)
    (h : Reach (fun s op => op.Pre s ∧ op.KeepsClass s) (exec cfg) s t) (hp : t.Ordinary p) :
    (t.task p).schedClass =
      if rtPrio (t.task p).prio then .rt else if (t.task p).policy = .wrr then .wrr else .fair := by
  have hrun : Inv cfg t ∧ ClassPolicyOk t := by
    refine h.invariant (I := fun s => Inv cfg s ∧ ClassPolicyOk s) ?_ ⟨hs.inv, hok⟩
    intro s op hinv hop
    exact ⟨exec_inv hinv.1 op hop.1, (classOk_step_iff hinv.1 hinv.2 hop.1).mpr hop.2⟩
  exact hrun.2 p hp

instance (s : System) (op : Op) : Decidable (op.KeepsClass s) :=
  match op with
  | .setprio _ _ _ _ => inferInstanceAs (Decidable (_ → _))
  | .setscheduler p policy _ _ _ =>
    match hw : (s.task p).piTopWaiter with
    | none => .isTrue fun _ w h => by rw [hw] at h; cases h
    | some w => decidable_of_iff (policy = .wrr → rtPrio w = false)
      ⟨fun h hp v hv => by rw [hw] at hv; cases hv; exact h hp, fun h hp => h hp w hw⟩
  | .fork _ _ => inferInstanceAs (Decidable (_ → _ → _))
  | .nice _ _ | .normalize _ _ | .wakeUp _ _ _ | .wakeUpNew _ _ _ | .schedule _ _ _ | .tick _ _
  | .schedYield _ _ | .migrate _ _ _ | .moveGroup _ _ | .throttle _ | .unthrottle _ | .clock _ _
  | .enqueue _ _ _ | .dequeue _ | .yield _ _ | .requeue _ _ _ | .pick _ _ => .isTrue trivial

theorem bootWith_classPolicyOk {user : Pid → Task} (h : ∀ p, BootUser (user p))
    (hok : ∀ p, (user p).ClassOk) : ClassPolicyOk (bootWith user) := by
  intro p hp
  have hinv : Inv (upConfig .basic) (bootWith user) := (bootWith_boot h).inv
  have htask : (bootWith user).task p = bootTask user p := rfl
  obtain ⟨-, hidle, -⟩ := hinv.ordinary_iff.mp hp
  rw [htask] at hidle ⊢
  by_cases hodd : p % 2 = 0
  · rw [bootTask_even user hodd] at hidle
    exact absurd rfl hidle
  · rw [bootTask_odd user hodd]
    exact hok p

theorem fairTask_boot (p : Pid) : BootUser ((fun _ => fairTask) p) :=
  ⟨rfl, fairTask_ok, (fun h => nomatch h), fun h => nomatch h⟩

/-- A fair task is boosted, deboosted, made `SCHED_WRR` and forks. -/
theorem schedClass_reach_boot :
    let ops : List Op := [.wakeUp 1 0 .quiet, .setprio 1 10 (some 10) .quiet,
      .setprio 1 120 none .quiet, .setscheduler 1 .wrr false 30 .quiet, .fork 1 3]
    let t := ops.foldl (exec (upConfig .rmlfq)) bootSystem
    (t.task 3).schedClass = if rtPrio (t.task 3).prio then .rt
      else if (t.task 3).policy = .wrr then .wrr else .fair := by
  intro ops t
  have hrun : Reach (fun s op => op.Pre s ∧ op.KeepsClass s) (exec (upConfig .rmlfq)) bootSystem t :=
    guarded_of_check bootSystem_boot.inv ops (by decide +kernel)
  have hinv : Inv (upConfig .rmlfq) t := reach_inv (fun _ _ hop => hop.1) bootSystem_boot hrun
  have hp : t.Ordinary 3 := (Op.ordinary_check hinv).mp (by decide +kernel)
  exact schedClass_reach bootSystem_boot (bootWith_classPolicyOk fairTask_boot fun _ => rfl) hrun hp

/-- A `SCHED_WRR` task that was boosted is left in the fair class by the deboost; and a
boosted fair task that asks for `SCHED_WRR` is taken out of the RT class although its
effective priority is still the waiter's. -/
theorem schedClass_wrong :
    let s := wrrSystem fun _ => 50
    let t := exec (upConfig .basic) (exec (upConfig .basic) s (.setprio 1 10 (some 10) .quiet))
      (.setprio 1 120 none .quiet)
    let t' := exec (upConfig .basic)
      (exec (upConfig .basic) bootSystem (.setprio 1 10 (some 10) .quiet))
      (.setscheduler 1 .wrr false 30 .quiet)
    (Boot s ∧ ClassPolicyOk s ∧ Reach (fun s op => op.Pre s) (exec (upConfig .basic)) s t ∧
      rtPrio (t.task 1).prio = false ∧ (t.task 1).policy = .wrr ∧
      (t.task 1).schedClass = .fair) ∧
    Reach (fun s op => op.Pre s) (exec (upConfig .basic)) bootSystem t' ∧
      rtPrio (t'.task 1).prio = true ∧ (t'.task 1).schedClass = .wrr :=
  ⟨⟨wrrSystem_boot _, bootWith_classPolicyOk
      (fun _ => ⟨rfl, wrrTask_ok (Nat.min_le_right _ 99), (fun h => nomatch h), fun h => nomatch h⟩)
      fun _ => rfl,
    reach_of_check (wrrSystem_boot _).inv
      [.setprio 1 10 (some 10) .quiet, .setprio 1 120 none .quiet] (by decide), by decide, by decide, by decide⟩,
    reach_of_check bootSystem_boot.inv
      [.setprio 1 10 (some 10) .quiet, .setscheduler 1 .wrr false 30 .quiet] (by decide), by decide, by decide⟩

end LinuxWrr
