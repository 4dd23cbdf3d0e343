import LinuxWrr.Sched.ClassPolicy

/-!
# Emergency normalisation

`normalize_rt_tasks` goes over all threads: kernel threads are skipped, user tasks with an
RT effective priority go through `normalize_task`, and the others are at most reniced. A
`SCHED_WRR` task has no RT effective priority, so it is taken for a fair one; and a task
that goes through `normalize_task` keeps the nice value it had under its RT policy.

- `normalizeRtTasks`: the loop, `normalizeThread` its body.
- `Task.Elsewhere`: a task is unchanged but for the cpu that balancing moved it to.
- `Task.Treated`: what a pass makes of a user task.
- `normalizeRtTasks_treated`: the passes do not disturb each other.
- `normalized_iff`: **every user task is normalised exactly when no user task is
  `SCHED_WRR` and none has an RT policy and a negative nice value**.
-/

namespace LinuxWrr

variable {cfg : Config} {s t u : System} {c : Cpu} {p q : Pid} {f g e : Task}
  {threads : List Pid} {o : Pid → Outside}

/-- The body of the loop of `normalize_rt_tasks`. -/
def normalizeThread (cfg : Config) (s : System) (p : Pid) (o : Outside) : System :=
  if (s.task p).mm = false then s
  else
    let s := s.setSe p { s.se p with execStart := 0 }
    if rtPrio (s.task p).prio = false then
      if (s.task p).nice < 0 ∧ (s.task p).mm = true then setUserNice cfg s p 0 else s
    else normalizeTask cfg s p o

/-- `normalize_rt_tasks` over the threads of `do_each_thread`. -/
def normalizeRtTasks (cfg : Config) (o : Pid → Outside) : System → List Pid → System
  | s, [] => s
  | s, p :: threads => normalizeRtTasks cfg o (normalizeThread cfg s p (o p)) threads

/-- A sweep over a list is a sweep over its first part, then over the rest. -/
theorem normalizeRtTasks_append (s : System) (before after : List Pid) :
    normalizeRtTasks cfg o s (before ++ after) =
      normalizeRtTasks cfg o (normalizeRtTasks cfg o s before) after := by
  induction before generalizing s with
  | nil => rfl
  | cons p before ih => exact ih _

/-! ## One pass -/

/-- The same task, maybe on another cpu. -/
def Task.Elsewhere (f g : Task) : Prop := ∃ cpu, g = { f with cpu := cpu }

theorem Task.Elsewhere.refl (f : Task) : f.Elsewhere f := ⟨f.cpu, rfl⟩

theorem Task.Elsewhere.trans (h : f.Elsewhere g) (h' : g.Elsewhere e) : f.Elsewhere e := by
  obtain ⟨_, rfl⟩ := h
  obtain ⟨cpu, rfl⟩ := h'
  exact ⟨cpu, rfl⟩

/-- Balancing may put a task elsewhere and changes nothing else of it. -/
theorem Balance.elsewhere (h : Balance s t) (q : Pid) : (s.task q).Elsewhere (t.task q) := by
  rcases h.task_cases q with heq | ⟨-, dest, heq⟩
  · rw [heq]
    exact Task.Elsewhere.refl _
  · exact ⟨dest, heq⟩

/-- What a pass over `p` does, whatever the state: other tasks stay, and so do the current
tasks and their flags. -/
structure Sweep (s t : System) (p : Pid) : Prop where
  other : ∀ q, q ≠ p → (s.task q).Elsewhere (t.task q)
  frame : Frame s t
  needResched : ∀ q, s.needResched q = true → t.needResched q = true

theorem Effect.sweep (h : Effect s u p f) (hbal : Balance u t) : Sweep s t p where
  other q hq := by
    rw [← h.other hq]
    exact hbal.elsewhere q
  frame := h.frame.trans hbal.frame
  needResched q hq := hbal.needResched q (h.needResched q hq)

theorem Sweep.refl (s : System) (p : Pid) : Sweep s s p := (Effect.refl s p).sweep Balance.refl

/-- The write of `exec_start` is seen by none of these. -/
theorem Sweep.of_setSe {x : SchedEntity} (h : Sweep (s.setSe p x) t p) : Sweep s t p where
  other := h.other
  frame := Frame.trans (t := s.setSe p x) (Frame.of_rq rfl) h.frame
  needResched := h.needResched

theorem setUserNice_sweep (cfg : Config) (s : System) (p : Pid) (nice : Int) :
    Sweep s (setUserNice cfg s p nice) p := by
  rcases setUserNice_effect cfg s p nice with ⟨-, heq⟩ | ⟨-, ⟨-, heff⟩ | ⟨-, heff⟩⟩
  · rw [heq]
    exact Sweep.refl s p
  · exact heff.sweep Balance.refl
  · exact heff.sweep Balance.refl

theorem normalizeThread_sweep (cfg : Config) (s : System) (p : Pid) (o : Outside) :
    Sweep s (normalizeThread cfg s p o) p := by
  unfold normalizeThread
  split
  · exact Sweep.refl s p
  · refine Sweep.of_setSe (x := { s.se p with execStart := 0 }) ?_
    dsimp only
    split
    · split
      · exact setUserNice_sweep cfg _ p 0
      · exact Sweep.refl _ p
    · obtain ⟨u, _, _, heff, hbal⟩ := normalizeTask_effect cfg
        (s.setSe p { s.se p with execStart := 0 }) p o
      exact heff.sweep hbal

/-- No waiter boosts the task. -/
structure Task.Unboosted (f : Task) : Prop where
  waiter : f.piTopWaiter = none
  prio : f.prio = f.normalPrio

/-- A task put elsewhere is boosted no more than before. -/
theorem Task.Elsewhere.unboosted (h : f.Elsewhere g) (hf : f.Unboosted) : g.Unboosted := by
  obtain ⟨_, rfl⟩ := h
  exact ⟨hf.waiter, hf.prio⟩

/-- Without a boost the RT policies are those with an RT effective priority. -/
theorem Task.Unboosted.rtPolicy_eq (hf : f.Unboosted) (hok : TaskOk f) :
    rtPolicy f.policy = rtPrio f.prio := by
  rw [hf.prio, hok.normalPrio]
  by_cases hrt : rtPolicy f.policy = true
  · rw [normalPrio_of_rt hrt, hrt]
    unfold rtPrio maxRtPrio
    exact (decide_eq_true (by push_cast; omega)).symm
  · rw [normalPrio_of_not_rt hrt, rtPrio_eq_false hok.staticPrio.1]
    simpa using hrt

/-- A user task before and after its pass. -/
structure Task.Treated (f g : Task) : Prop where
  alive : g.alive = f.alive
  mm : g.mm = f.mm
  onRq : g.onRq = f.onRq
  /-- Demoted, at the nice value it had. -/
  demoted : rtPrio f.prio = true → g.schedClass = .fair ∧ g.rtPriority = 0 ∧ g.nice = f.nice
  /-- At most reniced. -/
  reniced : rtPrio f.prio = false →
    g.schedClass = f.schedClass ∧ g.rtPriority = f.rtPriority ∧ g.nice = max f.nice 0

/-- A treated task may be put elsewhere. -/
theorem Task.Treated.elsewhere (h : f.Treated g) (hg : g.Elsewhere e) : f.Treated e := by
  obtain ⟨_, rfl⟩ := hg
  exact ⟨h.alive, h.mm, h.onRq, h.demoted, h.reniced⟩

/-- A task may be put elsewhere before it is treated. -/
theorem Task.Treated.of_elsewhere (hf : f.Elsewhere g) (h : g.Treated e) : f.Treated e := by
  obtain ⟨_, rfl⟩ := hf
  exact ⟨h.alive, h.mm, h.onRq, h.demoted, h.reniced⟩

/-- `__setscheduler` to `SCHED_NORMAL` makes an unboosted task fair. -/
theorem withPolicy_treated (hok : TaskOk f) (hf : f.Unboosted) (hrt : rtPrio f.prio = true)
    (timeSlice times : Nat) : f.Treated (f.withPolicy .normal 0 timeSlice times) where
  alive := rfl
  mm := rfl
  onRq := rfl
  demoted _ := by
    refine ⟨?_, rfl, rfl⟩
    show (if rtPrio (f.setPolicy .normal 0).prio then ClassId.rt else .fair) = .fair
    rw [setPolicy_rtPrio hok.staticPrio.1, hf.waiter]
    rfl
  reniced hno := by
    rw [hrt] at hno
    cases hno

/-- A task with a negative nice level is treated by setting it to 0. -/
theorem setNice_treated (hrt : rtPrio f.prio = false) (hnice : f.nice < 0) :
    f.Treated (f.setNice 0) where
  alive := rfl
  mm := rfl
  onRq := rfl
  demoted hno := by
    rw [hrt] at hno
    cases hno
  reniced _ := by
    refine ⟨rfl, rfl, ?_⟩
    rw [max_eq_right hnice.le]
    show prioToNice (niceToPrio 0) = 0
    decide

/-- A task that is not real-time and not at a negative nice level is left as it is. -/
theorem Task.Treated.refl (hrt : rtPrio f.prio = false) (hnice : 0 ≤ f.nice) : f.Treated f where
  alive := rfl
  mm := rfl
  onRq := rfl
  demoted hno := by
    rw [hrt] at hno
    cases hno
  reniced _ := ⟨rfl, rfl, (max_eq_left hnice).symm⟩

/-- **One pass**: the user task is treated. -/
theorem normalizeThread_treated (h : Inv cfg s) (hp : s.Ordinary p) (hmm : (s.task p).mm = true)
    (hf : (s.task p).Unboosted) (o : Outside) :
    (s.task p).Treated ((normalizeThread cfg s p o).task p) := by
  have hok := h.task p hp.1
  have hrt := hf.rtPolicy_eq hok
  unfold normalizeThread
  rw [if_neg (by simp [hmm])]
  dsimp only
  generalize hstart : s.setSe p { s.se p with execStart := 0 } = s'
  have htask : s'.task = s.task := by rw [← hstart]; rfl
  rw [htask]
  split
  next hprio =>
    split
    next hnice =>
      -- `set_user_nice` neither returns at once nor takes its RT branch
      rcases setUserNice_effect cfg s' p 0 with ⟨hzero, -⟩ | ⟨-, ⟨hrt', -⟩ | ⟨-, heff⟩⟩
      · rw [htask] at hzero
        have hneg := hnice.1
        omega
      · rw [htask, hrt, hprio] at hrt'
        cases hrt'
      · rw [heff.self, htask]
        exact setNice_treated hprio hnice.1
    next hnice =>
      rw [htask]
      exact Task.Treated.refl hprio (not_lt.mp fun hneg => hnice ⟨hneg, hmm⟩)
  next hprio =>
    obtain ⟨u, slice, times, heff, hbal⟩ := normalizeTask_effect cfg s' p o
    rw [htask] at heff
    have htreated := withPolicy_treated hok hf (by simpa using hprio) slice times
    rw [← heff.self] at htreated
    exact htreated.elsewhere (hbal.elsewhere p)

theorem normalizeThread_inv (h : Inv cfg s) (hp : (s.task p).mm = true → s.Ordinary p)
    (o : Outside) : Inv cfg (normalizeThread cfg s p o) := by
  unfold normalizeThread
  split
  · exact h
  next hmm =>
    have hord : s.Ordinary p := hp (by simpa using hmm)
    have hstart : Inv cfg (s.setSe p { s.se p with execStart := 0 }) := h.of_rq rfl rfl
    dsimp only
    split
    · split
      · exact setUserNice_inv hstart hord 0
      · exact hstart
    · exact normalizeTask_inv hstart hord o

/-- A user task that leaves its run queue for the fair class has the task that runs there
rescheduled. -/
theorem normalizeTask_resched (hon : (s.task p).onRq = true) (o : Outside) :
    (normalizeTask cfg s p o).needResched
      ((normalizeTask cfg s p o).rq (s.task p).cpu).curr = true := by
  have hbal : Balance ((enqueueTask cfg (setscheduler cfg (detach cfg s p) p .normal 0)
      (s.task p).cpu p 0).reschedCurr (s.task p).cpu) (normalizeTask cfg s p o) := by
    unfold normalizeTask
    simp only [hon, if_true]
    exact checkClassChanged_balance cfg _ _ p _ _ o
  rw [hbal.frame.curr]
  refine hbal.needResched _ ?_
  rw [System.reschedCurr, System.setTskNeedResched_needResched]
  exact Function.update_self _ _ _

/-! ## The loop -/

/-- The passes together: threads outside the list stay, flags are kept. -/
theorem normalizeRtTasks_sweep (cfg : Config) (o : Pid → Outside) (s : System)
    (threads : List Pid) :
    (∀ q, q ∉ threads → (s.task q).Elsewhere ((normalizeRtTasks cfg o s threads).task q)) ∧
      Frame s (normalizeRtTasks cfg o s threads) ∧
      ∀ q, s.needResched q = true → (normalizeRtTasks cfg o s threads).needResched q = true := by
  induction threads generalizing s with
  | nil => exact ⟨fun q _ => Task.Elsewhere.refl _, Frame.refl s, fun _ h => h⟩
  | cons p threads ih =>
    have hsweep := normalizeThread_sweep cfg s p (o p)
    obtain ⟨hother, hframe, hflag⟩ := ih (normalizeThread cfg s p (o p))
    refine ⟨fun q hq => ?_, hsweep.frame.trans hframe, fun q hq => hflag q (hsweep.needResched q hq)⟩
    rw [List.mem_cons, not_or] at hq
    exact (hsweep.other q hq.1).trans (hother q hq.2)

theorem Task.Elsewhere.ordinary (h : (s.task q).Elsewhere (t.task q)) (hs : Inv cfg s)
    (ht : Inv cfg t) (hq : s.Ordinary q) : t.Ordinary q := by
  obtain ⟨halive, hidle, hstop⟩ := hs.ordinary_iff.mp hq
  obtain ⟨cpu, heq⟩ := h
  refine ht.ordinary_iff.mpr ?_
  rw [heq]
  exact ⟨halive, hidle, hstop⟩

/-- What the loop starts from: every listed user task is an ordinary one, without a boost. -/
def System.UserTasksOk (s : System) (threads : List Pid) : Prop :=
  ∀ p ∈ threads, (s.task p).Unboosted ∧ ((s.task p).mm = true → s.Ordinary p)

/-- A turn about one thread leaves the rest of the list in order. -/
theorem System.UserTasksOk.tail (h : s.UserTasksOk (p :: threads)) (hnd : p ∉ threads)
    (hs : Inv cfg s) (ht : Inv cfg t) (hsweep : Sweep s t p) : t.UserTasksOk threads := by
  intro q hq
  have hne : q ≠ p := fun heq => hnd (heq ▸ hq)
  obtain ⟨hf, hord⟩ := h q (List.mem_cons_of_mem p hq)
  have hsame := hsweep.other q hne
  refine ⟨hsame.unboosted hf, fun hmm => hsame.ordinary hs ht (hord ?_)⟩
  obtain ⟨cpu, heq⟩ := hsame
  rw [heq] at hmm
  exact hmm

/-- **The loop**: it treats the user tasks on the list, and all other tasks stay. -/
theorem normalizeRtTasks_treated (h : Inv cfg s) (hok : s.UserTasksOk threads)
    (hnd : threads.Nodup) : Inv cfg (normalizeRtTasks cfg o s threads) ∧
      (∀ p ∈ threads, (s.task p).mm = true →
        (s.task p).Treated ((normalizeRtTasks cfg o s threads).task p)) ∧
      ∀ p, (p ∈ threads → (s.task p).mm = false) →
        (s.task p).Elsewhere ((normalizeRtTasks cfg o s threads).task p) := by
  induction threads generalizing s with
  | nil => exact ⟨h, (fun p hp => nomatch hp), fun p _ => Task.Elsewhere.refl _⟩
  | cons p threads ih =>
    obtain ⟨hp, hnd⟩ := List.nodup_cons.mp hnd
    obtain ⟨hf, hord⟩ := hok p List.mem_cons_self
    have hsweep := normalizeThread_sweep cfg s p (o p)
    have hinv := normalizeThread_inv h hord (o p)
    obtain ⟨hend, huser, hrest⟩ := ih hinv (hok.tail hp h hinv hsweep) hnd
    have hmm : ∀ q, q ≠ p → ((normalizeThread cfg s p (o p)).task q).mm = (s.task q).mm := by
      intro q hq
      obtain ⟨cpu, heq⟩ := hsweep.other q hq
      rw [heq]
    refine ⟨hend, fun q hq hq' => ?_, fun q hq => ?_⟩
    · show (s.task q).Treated ((normalizeRtTasks cfg o (normalizeThread cfg s p (o p)) threads).task q)
      by_cases hqp : q = p
      · subst hqp
        exact (normalizeThread_treated h (hord hq') hq' hf (o q)).elsewhere
          (hrest q fun hmem => absurd hmem hp)
      · have hmem := (List.mem_cons.mp hq).resolve_left hqp
        exact Task.Treated.of_elsewhere (hsweep.other q hqp)
          (huser q hmem ((hmm q hqp).trans hq'))
    · show (s.task q).Elsewhere
        ((normalizeRtTasks cfg o (normalizeThread cfg s p (o p)) threads).task q)
      by_cases hqp : q = p
      · -- a kernel thread is skipped
        subst hqp
        have hskip : normalizeThread cfg s q (o q) = s := if_pos (hq List.mem_cons_self)
        have hstay := hrest q fun hmem => absurd hmem hp
        rwa [hskip] at hstay ⊢
      · refine (hsweep.other q hqp).trans (hrest q fun hmem => ?_)
        rw [hmm q hqp]
        exact hq (List.mem_cons_of_mem p hmem)

/-! ## What normalisation is for -/

/-- The list of all threads of `s`: the idle tasks are on no list, and the stop tasks are
kernel threads. -/
structure System.Threads (s : System) (threads : List Pid) : Prop where
  nodup : threads.Nodup
  all : ∀ p, s.Ordinary p → p ∈ threads
  kernel : ∀ p ∈ threads, (s.task p).mm = true → s.Ordinary p

/-- `t` is the state after the normalisation of `s`. -/
structure Normalized (cfg : Config) (o : Pid → Outside) (s : System) (threads : List Pid)
    (t : System) : Prop where
  user : ∀ p ∈ threads, (t.task p).mm = true →
    (t.task p).schedClass = .fair ∧ (t.task p).rtPriority = 0 ∧ 0 ≤ (t.task p).nice
  wrr : ∀ c i, ∀ p ∈ (t.rq c).wrr.active.queue i, (t.task p).mm = false
  onRq : ∀ p, (t.task p).onRq = (s.task p).onRq
  /-- The run queues hold exactly the tasks with `on_rq` set. -/
  queued : Rep t (t.slots cfg)
  /-- `u` is the state in which the loop comes to `p`. -/
  resched : ∀ before p after, threads = before ++ p :: after →
    let u := normalizeRtTasks cfg o s before
    (u.task p).mm = true → rtPrio (u.task p).prio = true → (u.task p).onRq = true →
      t.needResched (t.rq (u.task p).cpu).curr = true

/-- The user tasks the loop gets right. -/
def Task.Normalizable (f : Task) : Prop :=
  if rtPrio f.prio then 0 ≤ f.nice else f.schedClass = .fair ∧ f.rtPriority = 0

instance (f : Task) : Decidable f.Normalizable :=
  inferInstanceAs (Decidable (if rtPrio f.prio then 0 ≤ f.nice else _ ∧ _))

/-- A treated task is normal exactly when it could be made so. -/
theorem Task.Treated.normalizable_iff (h : f.Treated g) :
    (g.schedClass = .fair ∧ g.rtPriority = 0 ∧ 0 ≤ g.nice) ↔ f.Normalizable := by
  unfold Task.Normalizable
  by_cases hrt : rtPrio f.prio = true
  · obtain ⟨hclass, hrtp, hnice⟩ := h.demoted hrt
    rw [if_pos hrt, hclass, hrtp, hnice]
    simp
  · obtain ⟨hclass, hrtp, hnice⟩ := h.reniced (by simpa using hrt)
    rw [if_neg hrt, hclass, hrtp, hnice]
    simp

/-- The current task of the run queue a task is demoted on is rescheduled. -/
theorem normalizeRtTasks_resched (hmm : (s.task p).mm = true)
    (hrt : rtPrio (s.task p).prio = true) (hon : (s.task p).onRq = true) (after : List Pid) :
    (normalizeRtTasks cfg o s (p :: after)).needResched
      ((normalizeRtTasks cfg o s (p :: after)).rq (s.task p).cpu).curr = true := by
  have hpass : normalizeThread cfg s p (o p) =
      normalizeTask cfg (s.setSe p { s.se p with execStart := 0 }) p (o p) := by
    unfold normalizeThread
    rw [if_neg (by simp [hmm])]
    exact if_neg (by simpa using hrt)
  obtain ⟨-, hframe, hflag⟩ := normalizeRtTasks_sweep cfg o (normalizeThread cfg s p (o p)) after
  show (normalizeRtTasks cfg o (normalizeThread cfg s p (o p)) after).needResched
    ((normalizeRtTasks cfg o (normalizeThread cfg s p (o p)) after).rq _).curr = true
  rw [hframe.curr]
  refine hflag _ ?_
  rw [hpass]
  exact normalizeTask_resched (s := s.setSe p { s.se p with execStart := 0 }) hon (o p)

/-- **Normalisation covers every user task exactly when no user task is `SCHED_WRR` and none
has an RT policy and a negative nice value**: in every reachable state without a boost. -/
theorem normalized_iff {s₀ : System} (hs : Boot s₀)
    (h : Reach (fun s op => op.Pre s) (exec cfg) s₀ s) (hthreads : s.Threads threads)
    (hboost : ∀ p ∈ threads, (s.task p).Unboosted) :
    Normalized cfg o s threads (normalizeRtTasks cfg o s threads) ↔
      ∀ p ∈ threads, (s.task p).mm = true → (s.task p).Normalizable := by
  have hinv := reach_inv (fun _ _ hop => hop) hs h
  have hok : s.UserTasksOk threads := fun p hp => ⟨hboost p hp, hthreads.kernel p hp⟩
  obtain ⟨hend, huser, hrest⟩ := normalizeRtTasks_treated (o := o) hinv hok hthreads.nodup
  have hmm : ∀ p ∈ threads, ((normalizeRtTasks cfg o s threads).task p).mm = true →
      (s.task p).mm = true := by
    intro p hp hmm'
    by_contra hno
    obtain ⟨cpu, heq⟩ := hrest p fun _ => by simpa using hno
    rw [heq] at hmm'
    exact hno hmm'
  constructor
  · intro hn p hp hmm'
    have htreated := huser p hp hmm'
    exact htreated.normalizable_iff.mp (hn.user p hp (htreated.mm.trans hmm'))
  · intro hall
    have hfair := fun p hp hmm' =>
      (huser p hp (hmm p hp hmm')).normalizable_iff.mpr (hall p hp (hmm p hp hmm'))
    refine ⟨hfair, fun c i p hp => ?_, fun p => ?_, hend.rep, ?_⟩
    · -- a queued WRR task is no user task of the list, and so it was WRR before
      by_contra hno
      obtain ⟨⟨hon, hclass, -⟩, -⟩ := hend.mem_wrr_iff.mp hp
      have halive := hend.alive_of_onRq hon
      have hkernel : p ∉ threads := by
        intro hmem
        rw [(hfair p hmem (by simpa using hno)).1] at hclass
        cases hclass
      obtain ⟨cpu, heq⟩ := hrest p fun hmem => absurd hmem hkernel
      rw [heq] at halive hclass
      refine hkernel (hthreads.all p (hinv.ordinary_iff.mpr ⟨halive, ?_, ?_⟩))
      · exact fun hk => nomatch hclass.symm.trans hk
      · exact fun hk => nomatch hclass.symm.trans hk
    · by_cases hp : p ∈ threads ∧ (s.task p).mm = true
      · exact (huser p hp.1 hp.2).onRq
      · obtain ⟨cpu, heq⟩ := hrest p fun hmem => by simpa using fun hmm' => hp ⟨hmem, hmm'⟩
        rw [heq]
    · rintro before p after rfl
      rw [normalizeRtTasks_append]
      exact fun hmm' hrt hon => normalizeRtTasks_resched hmm' hrt hon after

/-! ## Systems with few tasks -/

/-- A freshly booted system in which `threads` are the only tasks besides the idle tasks. -/
def bootOnly (user : Pid → Task) (threads : List Pid) : System :=
  { bootWith user with
    task := fun p => { bootTask user p with alive := decide (p % 2 = 0 ∨ p ∈ threads) } }

theorem odd_of_mod_four {p : Nat} (h : p % 4 = 1) : ¬p % 2 = 0 := by
  omega

section BootOnly

variable {user : Pid → Task}

theorem bootOnly_boot (hf : ∀ p, BootUser (user p)) (hthreads : ∀ p ∈ threads, p % 4 = 1) :
    Boot (bootOnly user threads) := by
  have hboot : Boot (bootWith user) := bootWith_boot hf
  have halive : ∀ p, p % 2 = 0 ∨ p ∈ threads → (bootTask user p).alive = true := by
    rintro p (hp | hp)
    · rw [bootTask_even _ hp]
      rfl
    · have hone := hthreads p hp
      rw [bootTask_odd _ (odd_of_mod_four hone)]
      show (p % 4 != 3) = true
      rw [hone]
      rfl
  have heven : ∀ p k, k = .idle ∨ k = .stop → (bootTask user p).schedClass = k → p % 2 = 0 := by
    intro p k hk hclass
    by_contra hp
    rw [bootTask_odd _ hp] at hclass
    rcases hk with rfl | rfl
    · exact (hf p).idle hclass
    · exact (hf p).stop hclass
  -- the idle tasks are in use in both systems
  have hsame : ∀ p k c, k = .idle ∨ k = .stop →
      ((bootTask user p).alive = true ∧ (bootTask user p).schedClass = k ∧
          (bootTask user p).cpu = c ↔
        ((bootOnly user threads).task p).alive = true ∧
          ((bootOnly user threads).task p).schedClass = k ∧
          ((bootOnly user threads).task p).cpu = c) := by
    intro p k c hk
    refine and_congr_left fun hclass => ?_
    have hp := heven p k hk hclass.1
    exact iff_of_true (halive p (.inl hp)) (decide_eq_true (.inl hp))
  refine ⟨hboot.wrr, hboot.rt, hboot.cfs, hboot.nrRunning, hboot.curr, hboot.off, fun p hp => ?_,
    fun c p => (hboot.idle c p).trans (hsame p .idle c (.inl rfl)),
    fun c p => (hboot.stop c p).trans (hsame p .stop c (.inr rfl))⟩
  have hok : TaskOk (bootTask user p) := hboot.task p (halive p (of_decide_eq_true hp))
  exact ⟨hok.rtPriority, hok.userPriority, hok.staticPrio, hok.normalPrio, hok.prio, hok.waiter,
    hok.rt, hok.wrr⟩

/-- The list of all threads after any operation but a fork. -/
theorem bootOnly_threads (hf : ∀ p, BootUser (user p)) (hthreads : ∀ p ∈ threads, p % 4 = 1)
    (hnodup : threads.Nodup) (h : SameKinds (bootOnly user threads) s) (hinv : Inv cfg s) :
    s.Threads threads := by
  have hboot : Inv cfg (bootOnly user threads) := (bootOnly_boot hf hthreads).inv
  have hclassOf : ∀ p, ¬p % 2 = 0 →
      ((bootOnly user threads).task p).schedClass = (user p).schedClass := by
    intro p hp
    show (bootTask user p).schedClass = _
    rw [bootTask_odd _ hp]
  refine ⟨hnodup, fun p hp => ?_, fun p hp _ => ?_⟩
  · obtain ⟨halive, hidle, -⟩ := hboot.ordinary_iff.mp (h.ordinary hboot hinv hp)
    have hpar : p % 2 = 0 ∨ p ∈ threads := of_decide_eq_true halive
    refine hpar.resolve_left fun heven => hidle ?_
    show (bootTask user p).schedClass = .idle
    rw [bootTask_even _ heven]
  · refine (hinv.ordinary_iff).mpr ?_
    have hone := hthreads p hp
    have hclass : (s.task p).kind.schedClass = (user p).schedClass := by
      rw [h p]
      exact hclassOf p (odd_of_mod_four hone)
    have halive : (s.task p).kind.alive = true := by
      rw [h p]
      exact decide_eq_true (.inr hp)
    exact ⟨halive, fun hk => (hf p).idle (hclass.symm.trans hk),
      fun hk => (hf p).stop (hclass.symm.trans hk)⟩

end BootOnly

/-- Pid 1 is the only task. -/
def bootOne (f : Task) : System := bootOnly (fun _ => f) [1]

theorem mod_four_of_mem_one : ∀ p ∈ [1], p % 4 = 1 := by decide

/-- A sleeping user task under an RT policy. -/
def rtTask (policy : Policy) (nice : Int) : Task :=
  { fairTask with
    policy := policy
    rtPriority := 50
    staticPrio := niceToPrio nice
    normalPrio := 49
    prio := 49
    schedClass := .rt }

def fifoTask (nice : Int) : Task := rtTask .fifo nice

theorem niceToPrio_range {nice : Int} (h : -20 ≤ nice ∧ nice ≤ 19) :
    100 ≤ niceToPrio nice ∧ niceToPrio nice ≤ 139 := by
  unfold niceToPrio maxRtPrio
  push_cast
  omega

theorem rtTask_boot {policy : Policy} {nice : Int} (hrt : rtPolicy policy = true)
    (h : -20 ≤ nice ∧ nice ≤ 19) : BootUser (rtTask policy nice) where
  off := rfl
  ok := by
    have hprio : 50 ≤ 99 ∧ 0 ≤ (49 : Int) ∧ (49 : Int) < maxRtPrio := by decide
    refine ⟨hprio.1, fun hno => ?_, niceToPrio_range h, ?_, hprio.2.1, fun w hw => ?_,
      fun _ => hprio.2.2, fun hk => ?_⟩
    · exact absurd (hrt.symm.trans hno) (by decide)
    · exact (normalPrio_of_rt (f := rtTask policy nice) hrt).symm
    · cases hw
    · cases hk
  idle hk := nomatch hk
  stop hk := nomatch hk

theorem fifoTask_boot {nice : Int} (h : -20 ≤ nice ∧ nice ≤ 19) : BootUser (fifoTask nice) :=
  rtTask_boot rfl h

/-- A sleeping user task of the fair class. -/
def niceTask (nice : Int) : Task :=
  { fairTask with
    staticPrio := niceToPrio nice
    normalPrio := niceToPrio nice
    prio := niceToPrio nice }

theorem niceTask_boot {nice : Int} (h : -20 ≤ nice ∧ nice ≤ 19) : BootUser (niceTask nice) where
  off := rfl
  ok := by
    have hprio := niceToPrio_range h
    refine ⟨Nat.zero_le 99, fun _ _ => rfl, hprio, rfl, hprio.1.trans' (by decide), fun w hw => ?_,
      fun hk => ?_, fun hk => ?_⟩
    · cases hw
    · cases hk
    · cases hk
  idle hk := nomatch hk
  stop hk := nomatch hk

/-- A `SCHED_FIFO` user task at nice 0 and a `SCHED_RR` one at nice 3, a fair one at nice -5, and a
`SCHED_WRR` kernel thread. -/
def policyMix (p : Pid) : Task :=
  if p = 1 then fifoTask 0 else if p = 5 then rtTask .rr 3 else if p = 9 then niceTask (-5)
    else { wrrTask 50 with mm := false }

theorem policyMix_boot (p : Pid) : BootUser (policyMix p) := by
  unfold policyMix
  split
  · exact fifoTask_boot (by decide)
  · split
    · exact rtTask_boot rfl (by decide)
    · split
      · exact niceTask_boot (by decide)
      · have hok : TaskOk (wrrTask 50) := wrrTask_ok (by decide)
        exact ⟨rfl, ⟨hok.rtPriority, hok.userPriority, hok.staticPrio, hok.normalPrio, hok.prio,
          hok.waiter, hok.rt, hok.wrr⟩, (fun hk => nomatch hk), fun hk => nomatch hk⟩

/-- All four tasks are queued. The user tasks become fair tasks and lose a negative nice level, the
kernel thread stays what it is. -/
theorem normalized_boot :
    let s := [.wakeUp 1 0 .quiet, .wakeUp 5 0 .quiet, .wakeUp 9 0 .quiet, .wakeUp 13 0 .quiet].foldl
      (exec (upConfig .basic)) (bootOnly policyMix [1, 5, 9, 13])
    let t := normalizeRtTasks (upConfig .basic) (fun _ => .quiet) s [1, 5, 9, 13]
    Normalized (upConfig .basic) (fun _ => .quiet) s [1, 5, 9, 13] t ∧
      [1, 5, 9, 13].map (fun p => (s.task p).schedClass) = [.rt, .rt, .fair, .wrr] ∧
      [1, 5, 9, 13].map (fun p => (t.task p).schedClass) = [.fair, .fair, .fair, .wrr] ∧
      [1, 5, 9, 13].map (fun p => (t.task p).nice) = [0, 3, 0, 0] := by
  intro s t
  have hpids : ∀ p ∈ [1, 5, 9, 13], p % 4 = 1 := by decide
  have hboot := bootOnly_boot policyMix_boot hpids
  have hinv : Inv (upConfig .basic) (bootOnly policyMix [1, 5, 9, 13]) := hboot.inv
  have hrun := reach_of_check hinv
    [.wakeUp 1 0 .quiet, .wakeUp 5 0 .quiet, .wakeUp 9 0 .quiet, .wakeUp 13 0 .quiet]
    (by decide +kernel)
  have hend : Inv (upConfig .basic) s := reach_inv (fun _ _ hop => hop) hboot hrun
  have hwake : ∀ s p, SameKinds s (exec (upConfig .basic) s (.wakeUp p 0 .quiet)) := fun s p =>
    (activateOn_effect (upConfig .basic) s p 0 _ .quiet).sameKinds rfl
  have hkinds : SameKinds (bootOnly policyMix [1, 5, 9, 13]) s :=
    (((hwake _ 1).trans (hwake _ 5)).trans (hwake _ 9)).trans (hwake _ 13)
  have hthreads : s.Threads [1, 5, 9, 13] :=
    bootOnly_threads policyMix_boot hpids (by decide) hkinds hend
  have hunboosted : ∀ p ∈ [1, 5, 9, 13],
      (s.task p).piTopWaiter = none ∧ (s.task p).prio = (s.task p).normalPrio := by
    decide +kernel
  have hgood : ∀ p ∈ [1, 5, 9, 13], (s.task p).mm = true → (s.task p).Normalizable := by
    decide +kernel
  refine ⟨(normalized_iff hboot hrun hthreads fun p hp => ?_).mpr hgood, by decide +kernel,
    by decide +kernel, by decide +kernel⟩
  exact ⟨(hunboosted p hp).1, (hunboosted p hp).2⟩

/-- A `SCHED_WRR` task stays what it is; a `SCHED_FIFO` task at nice -5 becomes a fair task
at nice -5. -/
theorem normalize_misses :
    let left (f : Task) := normalizeRtTasks (upConfig .basic) (fun _ => .quiet) (bootOne f) [1]
    (Boot (bootOne (wrrTask 50)) ∧ (bootOne (wrrTask 50)).Threads [1] ∧
      ((bootOne (wrrTask 50)).task 1).Unboosted ∧
      ¬Normalized (upConfig .basic) (fun _ => .quiet) (bootOne (wrrTask 50)) [1]
        (left (wrrTask 50))) ∧
    Boot (bootOne (fifoTask (-5))) ∧ (bootOne (fifoTask (-5))).Threads [1] ∧
      ((bootOne (fifoTask (-5))).task 1).Unboosted ∧
      ¬Normalized (upConfig .basic) (fun _ => .quiet) (bootOne (fifoTask (-5))) [1]
        (left (fifoTask (-5))) := by
  intro left
  have hthreads : ∀ f, BootUser f → Boot (bootOne f) ∧ (bootOne f).Threads [1] := by
    intro f hf
    have hboot : Boot (bootOne f) := bootOnly_boot (fun _ => hf) mod_four_of_mem_one
    have hinv : Inv (upConfig .basic) (bootOne f) := hboot.inv
    exact ⟨hboot, bootOnly_threads (fun _ => hf) mod_four_of_mem_one (List.nodup_singleton 1)
      (fun _ => rfl) hinv⟩
  have hwrr : BootUser (wrrTask 50) :=
    ⟨rfl, wrrTask_ok (by decide), by decide, by decide⟩
  have hfifo : BootUser (fifoTask (-5)) := fifoTask_boot (by decide)
  refine ⟨⟨(hthreads _ hwrr).1, (hthreads _ hwrr).2, ⟨rfl, rfl⟩, fun hn => ?_⟩,
    (hthreads _ hfifo).1, (hthreads _ hfifo).2, ⟨rfl, rfl⟩, fun hn => ?_⟩
  · have hclass : ((left (wrrTask 50)).task 1).schedClass = .wrr := by decide +kernel
    have hfair := (hn.user 1 List.mem_cons_self (by decide +kernel)).1
    rw [hclass] at hfair
    cases hfair
  · have hnice : ((left (fifoTask (-5))).task 1).nice = -5 := by decide +kernel
    have hnonneg := (hn.user 1 List.mem_cons_self (by decide +kernel)).2.2
    rw [hnice] at hnonneg
    exact absurd hnonneg (by decide)

end LinuxWrr
