import LinuxWrr.Rt.Overload

/-!
# The books between the operations

`Inv` is `Rep` over the tasks as they are. Each of the callers in `core.c` keeps it: a task is
woken, put to sleep, moved, changed or confined, a CPU switches, comes or goes.
-/

namespace LinuxWrr.PushPull

variable {s t : State} {c d : Cpu} {p q : Pid} {k n : Nat}

/-! ## Levels that are read off the tasks -/

/-- The level at which a task with these fields is queued on `c`. -/
def lvlOf (t : RtTask) (c : Cpu) : Option Nat :=
  if t.rtClass = true ∧ t.onRq = true ∧ t.cpu = c then some t.prio else none

def State.lvl (s : State) (c : Cpu) (p : Pid) : Option Nat := lvlOf (s.task p) c

/-- The current tasks are never pushable. -/
def State.run (s : State) (c : Cpu) : Option Pid := some (s.rq c).curr

/-- The levels with the task `p` off every queue. -/
def without (lvl : Cpu → Pid → Option Nat) (p : Pid) (c : Cpu) (q : Pid) : Option Nat :=
  if q = p then none else lvl c q

/-- The levels with the task `p` at the place that `t` gives it. -/
def withTask (lvl : Cpu → Pid → Option Nat) (p : Pid) (t : RtTask) (c : Cpu) (q : Pid) : Option Nat :=
  if q = p then lvlOf t c else lvl c q

/-- A task with a level is a queued RT task on that CPU. -/
theorem lvlOf_some {f : RtTask} (h : lvlOf f c = some k) :
    f.rtClass = true ∧ f.onRq = true ∧ f.cpu = c ∧ f.prio = k := by
  rw [lvlOf] at h
  split at h
  next hf => exact ⟨hf.1, hf.2.1, hf.2.2, Option.some.inj h⟩
  next => cases h

/-- A task that is not queued, or not of this class, has no level. -/
theorem lvlOf_none {f : RtTask} (h : ¬(f.rtClass = true ∧ f.onRq = true)) : lvlOf f c = none :=
  if_neg fun hf => h ⟨hf.1, hf.2.1⟩

/-- Rewriting one task changes the levels of this task only. -/
theorem lvl_of_task {f : RtTask} (h : t.task = Function.update s.task p f) :
    t.lvl = withTask s.lvl p f := by
  funext d q
  rw [State.lvl, h, withTask]
  by_cases hq : q = p
  · rw [hq, Function.update_self, if_pos rfl]
  · rw [Function.update_of_ne hq, if_neg hq]
    rfl

variable {lvl : Cpu → Pid → Option Nat} {run : Cpu → Option Pid} {f : RtTask}

@[simp] theorem without_self : without lvl p d p = none := if_pos rfl

/-- A task that is not queued leaves no level behind. -/
theorem withTask_off (h : ¬(f.rtClass = true ∧ f.onRq = true)) : withTask lvl p f = without lvl p := by
  funext d q
  rw [withTask, without, lvlOf_none h]

/-- Taking out a task that is queued nowhere changes nothing. -/
theorem without_lvl (h : ¬((s.task p).rtClass = true ∧ (s.task p).onRq = true)) :
    without s.lvl p = s.lvl := by
  funext d q
  rw [without]
  split
  next hq =>
    subst hq
    exact (lvlOf_none h).symm
  next => rfl

/-- Queueing a task that was taken out gives the levels of the rewritten task. -/
theorem setLvl_without (hcpu : f.cpu = c) (h : f.rtClass = true) :
    setLvl (without lvl p) c p (some f.prio) = withTask lvl p { f with onRq := true } := by
  funext d q
  by_cases hd : d = c
  · subst hd
    rw [setLvl_self]
    by_cases hq : q = p
    · subst hq
      rw [Function.update_self, withTask, if_pos rfl, lvlOf, if_pos ⟨h, rfl, hcpu⟩]
    · rw [Function.update_of_ne hq, withTask, without, if_neg hq, if_neg hq]
  · rw [setLvl_of_ne hd, without, withTask]
    by_cases hq : q = p
    · rw [if_pos hq, if_pos hq, lvlOf, if_neg]
      exact fun hf => hd (hf.2.2.symm.trans hcpu)
    · rw [if_neg hq, if_neg hq]

/-- Dequeueing a task on its own CPU takes it out of all levels. -/
theorem setLvl_lvl (hcpu : (s.task p).cpu = c) : setLvl s.lvl c p none = without s.lvl p := by
  funext d q
  by_cases hd : d = c
  · subst hd
    rw [setLvl_self, without]
    by_cases hq : q = p
    · rw [hq, Function.update_self, if_pos rfl]
    · rw [Function.update_of_ne hq, if_neg hq]
  · rw [setLvl_of_ne hd, without]
    by_cases hq : q = p
    · subst hq
      rw [if_pos rfl, State.lvl, lvlOf, if_neg]
      exact fun hf => hd (hf.2.2.symm.trans hcpu)
    · rw [if_neg hq]

/-! ## Taking a task off and putting it back -/

/-- Taking a queued task off leaves books in which it does not occur. -/
theorem Rep.detach (h : Rep s.lvl run s) (hon : (s.task p).onRq = true) :
    Rep (without s.lvl p) run (dequeueTask s (s.task p).cpu p) ∧
      Kept s (dequeueTask s (s.task p).cpu p) := by
  rw [dequeueTask]
  split
  next hrt =>
    have hp : s.lvl (s.task p).cpu p = some (s.task p).prio := if_pos ⟨hrt, hon, rfl⟩
    rw [← setLvl_lvl rfl]
    exact h.dequeueTaskRt hp
  next hrt =>
    rw [without_lvl fun hp => hrt hp.1]
    exact ⟨h, Kept.refl s⟩

/-- Putting a task back enters it with what it is by then. -/
theorem Rep.attach (h : Rep (without lvl p) run s) (hcpu : (s.task p).cpu = c)
    (hprio : (s.task p).rtClass = true → (s.task p).prio < maxRtPrio)
    (hrun : run c = some (s.rq c).curr) (head : Bool) :
    Rep (withTask lvl p { s.task p with onRq := true }) run (enqueueTask s c p head) ∧
      Kept s (enqueueTask s c p head) := by
  rw [enqueueTask]
  split
  next hrt =>
    rw [← setLvl_without hcpu hrt]
    exact h.enqueueTaskRt hcpu (fun _ => without_self) (hprio hrt) hrun head
  next hrt =>
    have hoff : withTask lvl p { s.task p with onRq := true } = without lvl p :=
      withTask_off fun hf => hrt hf.1
    rw [hoff]
    exact ⟨h, Kept.refl s⟩

/-- Another record for a task, which keeps its place if it is queued. -/
theorem Rep.setTask (h : Rep lvl run s) (hplace : ∀ c k, lvl c p = some k → f.cpu = c ∧ f.prio = k)
    (hnr : f.nrCpusAllowed = (s.task p).nrCpusAllowed) : Rep lvl run (s.setTask p f) := by
  have hnr' : (s.setTask p f).nr = s.nr := by
    funext q
    show (Function.update s.task p f q).nrCpusAllowed = _
    by_cases hq : q = p
    · rw [hq, Function.update_self, hnr]
      rfl
    · rw [Function.update_of_ne hq]
      rfl
  refine ⟨⟨fun d => ?_, ⟨h.rto.mask, h.rto.count⟩, h.cpupri, fun d q k hq => ?_, h.bug⟩, ?_⟩
  · rw [hnr']
    exact h.rq d
  · show (Function.update s.task p f q).cpu = d ∧ (Function.update s.task p f q).prio = k
    by_cases hqp : q = p
    · subst hqp
      rw [Function.update_self]
      exact hplace d k hq
    · rw [Function.update_of_ne hqp]
      exact h.place d q k hq
  · rw [hnr']
    exact h.wait

/-- While a task is out of the books it may be rewritten. -/
theorem Rep.setTask_without (h : Rep (without lvl p) run s)
    (hnr : f.nrCpusAllowed = (s.task p).nrCpusAllowed) :
    Rep (without lvl p) run (s.setTask p f) := by
  refine h.setTask (fun c k hk => ?_) hnr
  rw [without_self] at hk
  cases hk

/-! ## The invariant -/

structure Inv (s : State) : Prop where
  rep : Rep s.lvl s.run s
  prio : ∀ p, (s.task p).rtClass = true → (s.task p).prio < maxRtPrio
  nr : ∀ p, (s.task p).nrCpusAllowed = (s.task p).cpusAllowed.card
  /-- A current task that is queued is queued where it runs. -/
  here : ∀ c, (s.task (s.rq c).curr).onRq = true → (s.task (s.rq c).curr).cpu = c

/-- One task is written, and the books are over the tasks as they are then. -/
theorem Inv.write (h : Inv s) (htask : t.task = Function.update s.task p f)
    (hcurr : ∀ d, (t.rq d).curr = (s.rq d).curr) (hrep : Rep (withTask s.lvl p f) s.run t)
    (hprio : f.rtClass = true → f.prio < maxRtPrio) (hnr : f.nrCpusAllowed = f.cpusAllowed.card)
    (hhere : ∀ d, (s.rq d).curr = p → f.onRq = true → f.cpu = d) : Inv t where
  rep := by
    have hrun : t.run = s.run := funext fun d => congrArg some (hcurr d)
    rw [lvl_of_task htask, hrun]
    exact hrep
  prio q hq := by
    rw [htask] at hq ⊢
    by_cases hqp : q = p
    · rw [hqp, Function.update_self] at hq ⊢
      exact hprio hq
    · rw [Function.update_of_ne hqp] at hq ⊢
      exact h.prio q hq
  nr q := by
    rw [htask]
    by_cases hqp : q = p
    · rw [hqp, Function.update_self]
      exact hnr
    · rw [Function.update_of_ne hqp]
      exact h.nr q
  here d hon := by
    rw [hcurr, htask] at hon ⊢
    by_cases hqp : (s.rq d).curr = p
    · rw [hqp, Function.update_self] at hon ⊢
      exact hhere d hqp hon
    · rw [Function.update_of_ne hqp] at hon ⊢
      exact h.here d hon

/-- Activating a sleeping task keeps the invariant and every current task. -/
theorem activateTask_inv (h : Inv s) (hoff : (s.task p).onRq = false)
    (hrun : ∀ d, (s.rq d).curr = p → d = c) (head : Bool) :
    Inv (activateTask s p c head) ∧ ∀ d, ((activateTask s p c head).rq d).curr = (s.rq d).curr := by
  have hwithout : without s.lvl p = s.lvl := without_lvl fun hp => by
    rw [hoff] at hp
    cases hp.2
  have hmoved : Rep (without s.lvl p) s.run (s.setTask p { s.task p with cpu := c }) := by
    refine Rep.setTask_without ?_ rfl
    rw [hwithout]
    exact h.rep
  have hself : (s.setTask p { s.task p with cpu := c }).task p = { s.task p with cpu := c } :=
    Function.update_self _ _ _
  obtain ⟨hback, hkept⟩ := hmoved.attach (c := c) (by rw [hself]) (by
    rw [hself]
    exact h.prio p) rfl head
  rw [hself] at hback
  have hself' : (enqueueTask (s.setTask p { s.task p with cpu := c }) c p head).task p =
      { s.task p with cpu := c } := by
    rw [hkept.task, hself]
  rw [activateTask]
  rw [hself']
  refine ⟨h.write (p := p) (f := { s.task p with cpu := c, onRq := true }) ?_ hkept.curr ?_
    (h.prio p) (h.nr p) fun d hd _ => (hrun d hd).symm, hkept.curr⟩
  · show Function.update (enqueueTask _ c p head).task p _ = _
    rw [hkept.task]
    exact Function.update_idem _ _ _
  · refine hback.setTask (fun d k hk => ?_) ?_
    · rw [withTask, if_pos rfl] at hk
      obtain ⟨-, -, hd, hk'⟩ := lvlOf_some hk
      exact ⟨hd, hk'⟩
    · rw [hself']

theorem deactivateTask_inv (h : Inv s) (hon : (s.task p).onRq = true) : Inv (deactivateTask s p) := by
  obtain ⟨hoff, hkept⟩ := h.rep.detach hon
  rw [deactivateTask]
  rw [hkept.task]
  refine h.write (p := p) (f := { s.task p with onRq := false }) ?_ hkept.curr ?_ (h.prio p) (h.nr p)
    fun _ _ hf => absurd hf Bool.false_ne_true
  · show Function.update (dequeueTask s _ p).task p _ = _
    rw [hkept.task]
  · have hgone : withTask s.lvl p { s.task p with onRq := false } = without s.lvl p :=
      withTask_off fun hf => absurd hf.2 Bool.false_ne_true
    rw [hgone]
    refine hoff.setTask_without ?_
    rw [hkept.task]

/-- `p` is moved to `dest`, and the books follow. -/
structure Moved (s t : State) (p : Pid) (dest : Cpu) : Prop where
  task : t.task = Function.update s.task p { s.task p with cpu := dest }
  curr : ∀ d, (t.rq d).curr = (s.rq d).curr
  online : ∀ d, (t.rq d).online = (s.rq d).online
  rd : ∀ d, (t.rq d).rd = (s.rq d).rd

theorem moveTask_inv (h : Inv s) (hon : (s.task p).onRq = true)
    (hrun : ∀ d, (s.rq d).curr ≠ p) (dest : Cpu) :
    Inv (moveTask s p dest) ∧ Moved s (moveTask s p dest) p dest := by
  obtain ⟨hoff, hkept⟩ := h.rep.detach hon
  have hself : ((dequeueTask s (s.task p).cpu p).setTask p
      { (dequeueTask s (s.task p).cpu p).task p with cpu := dest }).task p =
      { s.task p with cpu := dest } := by
    rw [hkept.task]
    exact Function.update_self _ _ _
  obtain ⟨hback, hkept'⟩ := (hoff.setTask_without (f := { (dequeueTask s (s.task p).cpu p).task p with
    cpu := dest }) rfl).attach (c := dest) (by rw [hself]) (by
      rw [hself]
      exact h.prio p) (congrArg some (hkept.curr dest).symm) false
  rw [hself] at hback
  rw [moveTask]
  have hmoved : Moved s (enqueueTask ((dequeueTask s (s.task p).cpu p).setTask p
      { (dequeueTask s (s.task p).cpu p).task p with cpu := dest }) dest p false) p dest := by
    refine ⟨?_, fun d => (hkept'.curr d).trans (hkept.curr d),
      fun d => (hkept'.online d).trans (hkept.online d), fun d => (hkept'.rd d).trans (hkept.rd d)⟩
    rw [hkept'.task]
    show Function.update (dequeueTask s _ p).task p _ = _
    rw [hkept.task]
  refine ⟨h.write hmoved.task hmoved.curr ?_ (h.prio p) (h.nr p) fun d hd => absurd hd (hrun d), hmoved⟩
  have hset : ({ s.task p with cpu := dest, onRq := true } : RtTask) = { s.task p with cpu := dest } := by
    rw [← hon]
  rw [hset] at hback
  exact hback

/-! ## Changing a task -/

/-- Nothing is written but the books, and they are over the same levels. -/
theorem Inv.same (h : Inv s) (hkept : Kept s t) (hrep : Rep s.lvl s.run t) : Inv t := by
  have hself : t.task = Function.update s.task 0 (s.task 0) := by
    rw [Function.update_eq_self, hkept.task]
  have hlvl : withTask s.lvl 0 (s.task 0) = s.lvl := by
    rw [← lvl_of_task hself]
    funext d q
    rw [State.lvl, hkept.task]
    rfl
  refine h.write hself hkept.curr ?_ (h.prio 0) (h.nr 0) fun d hd hon => ?_
  · rw [hlvl]
    exact hrep
  · rw [← hd] at hon ⊢
    exact h.here d hon

theorem Books.of_touch {r : RtRq} (h : Books lvl s) (ht : Touch s t c r) (hr : RqRep (lvl c) s.nr r) :
    Books lvl t := by
  have hsame : ∀ p, setLvl lvl c p (lvl c p) = lvl := fun p => by
    rw [setLvl, Function.update_eq_self, Function.update_eq_self]
  have hb := h.touch (p := 0) (o := lvl c 0) ht (by rwa [Function.update_eq_self]) fun k hk => h.place c 0 k hk
  rwa [hsame] at hb

theorem requeueTaskRt_inv (h : Inv s) (hrt : (s.task p).rtClass = true)
    (hon : (s.task p).onRq = true) (head : Bool) : Inv (requeueTaskRt s p head) := by
  have hp : s.lvl (s.task p).cpu p = some (s.task p).prio := if_pos ⟨hrt, hon, rfl⟩
  have hlinked : onRtRq s p = true := h.rep.onRtRq_iff.mpr (by rw [hp]; exact Option.some_ne_none _)
  have hrq := h.rep.rq (s.task p).cpu
  have ht := Touch.updRq s (s.task p).cpu (f := fun r =>
    { r with active := (r.active.listDelInit p).listAddAt head p (s.task p).prio }) rfl rfl rfl rfl
  rw [requeueTaskRt, if_pos hlinked]
  refine h.same (Kept.of_update rfl ht.rq rfl rfl rfl) ⟨h.rep.toBooks.of_touch ht ?_, h.rep.wait.touch ht rfl⟩
  exact ⟨hrq.active.rotate hp head, hrq.running, hrq.highest, hrq.total, hrq.migratory, hrq.overloaded⟩

/-- Putting back a task that is not queued does nothing. -/
theorem putPrevTaskRt_off (h : Rep (without lvl p) run s) : putPrevTaskRt s c p = s := by
  have hnot : ¬onRtRq s p = true := fun hon => h.onRtRq_iff.mp hon without_self
  rw [putPrevTaskRt, if_neg fun hp => hnot hp.1]

/-- `dequeue_pushable_task` for a task that is not queued. -/
theorem Rep.dequeuePushable (h : Rep (without lvl p) run s) (c : Cpu) :
    Rep (without lvl p) run (dequeuePushableTask s c p) := by
  refine ⟨h.toBooks.pushable _ _, ?_⟩
  have hnone : ∀ d, waiting (without lvl p d) s.nr (run d) p = none := fun d => waiting_none without_self
  have hdel := h.wait.dequeuePushableTask (c := c) (p := p) (fun d _ => hnone d) fun q k hq =>
    h.waiting_prio hq
  rw [(dequeuePushableTask_kept s c p).nr]
  have hsame : setLvl (fun d => waiting (without lvl p d) s.nr (run d)) c p none =
      fun d => waiting (without lvl p d) s.nr (run d) := by
    funext d
    by_cases hd : d = c
    · subst hd
      rw [setLvl_self, ← hnone d, Function.update_eq_self]
    · rw [setLvl_of_ne hd]
  rwa [hsame] at hdel

theorem changeTask_inv (h : Inv s) {rtClass : Bool} {prio : Nat}
    (hprio : rtClass = true → prio < maxRtPrio) (head : Bool) :
    Inv (changeTask s p rtClass prio head) := by
  -- off the queue, with the class and priority written
  obtain ⟨u, hu, hrep, hkept⟩ : ∃ u, u = (if (s.task p).onRq then dequeueTask s (s.task p).cpu p else s) ∧
      Rep (without s.lvl p) s.run u ∧ Kept s u := by
    refine ⟨_, rfl, ?_⟩
    split
    next hon => exact h.rep.detach hon
    next hoff =>
      rw [without_lvl fun hp => hoff hp.2]
      exact ⟨h.rep, Kept.refl s⟩
  have hput : (if taskCurrent s (s.task p).cpu p = true ∧ (u.task p).rtClass = true then
      putPrevTaskRt u (s.task p).cpu p else u) = u := by
    split
    · exact putPrevTaskRt_off hrep
    · rfl
  have hself : (u.setTask p { s.task p with rtClass := rtClass, prio := prio }).task p =
      { s.task p with rtClass := rtClass, prio := prio } := Function.update_self _ _ _
  have hwritten := hrep.setTask_without (f := { s.task p with rtClass := rtClass, prio := prio })
    (by rw [hkept.task])
  obtain ⟨v, hv, hvrep, hvkept⟩ : ∃ v, v = (if taskCurrent s (s.task p).cpu p = true ∧
      ((u.setTask p { s.task p with rtClass := rtClass, prio := prio }).task p).rtClass = true then
      setCurrTaskRt (u.setTask p { s.task p with rtClass := rtClass, prio := prio }) (s.task p).cpu
      else u.setTask p { s.task p with rtClass := rtClass, prio := prio }) ∧
      Rep (without s.lvl p) s.run v ∧
      Kept (u.setTask p { s.task p with rtClass := rtClass, prio := prio }) v := by
    refine ⟨_, rfl, ?_⟩
    split
    next hrun =>
      have hcurr : ((u.setTask p { s.task p with rtClass := rtClass, prio := prio }).rq
          (s.task p).cpu).curr = p := (hkept.curr _).trans (of_decide_eq_true hrun.1)
      rw [setCurrTaskRt, hcurr]
      exact ⟨hwritten.dequeuePushable _, dequeuePushableTask_kept _ _ _⟩
    next => exact ⟨hwritten, Kept.refl _⟩
  have hvtask : v.task p = { s.task p with rtClass := rtClass, prio := prio } := by
    rw [hvkept.task, hself]
  have hvall : v.task = Function.update s.task p { s.task p with rtClass := rtClass, prio := prio } := by
    rw [hvkept.task]
    show Function.update u.task p _ = _
    rw [hkept.task]
  have hvcurr : ∀ d, (v.rq d).curr = (s.rq d).curr := fun d => (hvkept.curr d).trans (hkept.curr d)
  rw [changeTask]
  dsimp only
  rw [← hu, hput, hkept.task, ← hv]
  split
  next hon =>
    obtain ⟨hback, hbackkept⟩ := hvrep.attach (c := (s.task p).cpu) (by rw [hvtask]) (by
      rw [hvtask]
      exact hprio) (congrArg some (hvcurr _).symm) head
    rw [hvtask] at hback
    have hset : ({ s.task p with rtClass := rtClass, prio := prio, onRq := true } : RtTask) =
        { s.task p with rtClass := rtClass, prio := prio } := by
      rw [← hon]
    refine h.write (p := p) (f := { s.task p with rtClass := rtClass, prio := prio })
      (hbackkept.task.trans hvall) (fun d => (hbackkept.curr d).trans (hvcurr d)) ?_ hprio (h.nr p)
      fun d hd hf => ?_
    · rw [← hset]
      exact hback
    · rw [← hd] at hon ⊢
      exact h.here d hon
  next hoff =>
    refine h.write (p := p) (f := { s.task p with rtClass := rtClass, prio := prio }) hvall hvcurr ?_ hprio
      (h.nr p) fun d hd hf => absurd hf hoff
    have hgone : withTask s.lvl p { s.task p with rtClass := rtClass, prio := prio } =
        without s.lvl p := withTask_off fun hf => hoff hf.2
    rw [hgone]
    exact hvrep

/-! ## Changing where a task may run -/

theorem nr_setTask (s : State) (p : Pid) (f : RtTask) :
    (s.setTask p f).nr = Function.update s.nr p f.nrCpusAllowed := by
  funext q
  show (Function.update s.task p f q).nrCpusAllowed = _
  by_cases hq : q = p
  · rw [hq, Function.update_self, Function.update_self]
  · rw [Function.update_of_ne hq, Function.update_of_ne hq]
    rfl

/-- The weight of a mask is written, and books and lists are over the new weights. -/
theorem Rep.of_setNr (hrto : RtoRep s.loaded s) (hcpupri : CpupriRep s) (hbug : s.bug = false)
    (hplace : ∀ c q k, lvl c q = some k → (s.task q).cpu = c ∧ (s.task q).prio = k)
    (hcpu : f.cpu = (s.task p).cpu) (hprio : f.prio = (s.task p).prio)
    (hrq : ∀ d, RqRep (lvl d) (Function.update s.nr p f.nrCpusAllowed) (s.rq d))
    (hwait : Waits (fun d => waiting (lvl d) (Function.update s.nr p f.nrCpusAllowed) (run d)) s) :
    Rep lvl run (s.setTask p f) := by
  refine ⟨⟨fun d => ?_, ⟨hrto.mask, hrto.count⟩, hcpupri, fun d q k hq => ?_, hbug⟩, ?_⟩
  · rw [nr_setTask]
    exact hrq d
  · show (Function.update s.task p f q).cpu = d ∧ (Function.update s.task p f q).prio = k
    by_cases hqp : q = p
    · subst hqp
      rw [Function.update_self, hcpu, hprio]
      exact hplace d q k hq
    · rw [Function.update_of_ne hqp]
      exact hplace d q k hq
  · rw [nr_setTask]
    exact hwait

/-- Another weight for a task that is queued nowhere. -/
theorem Rep.setNr_off (h : Rep lvl run s) (hoff : ∀ d, lvl d p = none) (hcpu : f.cpu = (s.task p).cpu)
    (hprio : f.prio = (s.task p).prio) : Rep lvl run (s.setTask p f) := by
  have hsame : (fun d => waiting (lvl d) (Function.update s.nr p f.nrCpusAllowed) (run d)) =
      fun d => waiting (lvl d) s.nr (run d) := by
    funext d q
    by_cases hq : q = p
    · rw [hq, waiting_none (hoff d), waiting_none (hoff d)]
    · rw [waiting, waiting, Function.update_of_ne hq]
  refine Rep.of_setNr h.rto h.cpupri h.bug h.place hcpu hprio
    (fun d => (h.rq d).reweigh_absent (hoff d) _) ?_
  rw [hsame]
  exact h.wait

theorem updRq_self (s : State) (c : Cpu) : (s.updRq c fun r => r) = s := by
  rw [State.updRq, Function.update_eq_self]

/-- Recounting the tasks that may migrate writes the counter. -/
theorem recount_eq (hpos : n > 1 → (s.rq c).rtNrMigratory ≠ 0) (w : Nat) :
    recount s c n w = s.updRq c fun r => { r with rtNrMigratory := reweighed r n w } := by
  rw [recount]
  split
  next hup => simp only [reweighed, if_pos hup]
  next hup =>
    split
    next hdown =>
      rw [decide_eq_false (hpos hdown.1), bugOn_false]
      simp only [reweighed, if_neg hup, if_pos hdown]
    next hdown =>
      simp only [reweighed, if_neg hup, if_neg hdown]
      exact (updRq_self s c).symm

/-- The lists after it, over the new weight. -/
theorem Rep.repush (h : Rep lvl run s) (hp : lvl c p = some k) (hrun : run c = some (s.rq c).curr)
    (n : Nat) : Books lvl (PushPull.repush s p n) ∧ Kept s (PushPull.repush s p n) ∧
      ((PushPull.repush s p n).rq c).rtNrMigratory = (s.rq c).rtNrMigratory ∧
      Waits (fun d => waiting (lvl d) (Function.update s.nr p n) (run d)) (PushPull.repush s p n) := by
  obtain ⟨rfl, rfl⟩ := h.place c p k hp
  have helse : ∀ d, d ≠ (s.task p).cpu → lvl d p = none := fun d hd => h.elsewhere hp hd
  -- the new keys differ from the old ones for `p` on its cpu only
  have hkeys : ∀ o, (run (s.task p).cpu ≠ some p → 1 < n → o = some (s.task p).prio) →
      (¬(run (s.task p).cpu ≠ some p ∧ 1 < n) → o = none) →
      (fun d => waiting (lvl d) (Function.update s.nr p n) (run d)) =
        setLvl (fun d => waiting (lvl d) s.nr (run d)) (s.task p).cpu p o := by
    intro o hyes hno
    funext d q
    by_cases hd : d = (s.task p).cpu
    · subst hd
      rw [setLvl_self]
      by_cases hq : q = p
      · subst hq
        rw [Function.update_self, waiting, Function.update_self]
        by_cases hcond : run (s.task q).cpu ≠ some q ∧ 1 < n
        · rw [if_pos hcond, hp, hyes hcond.1 hcond.2]
        · rw [if_neg hcond, hno hcond]
      · rw [Function.update_of_ne hq, waiting, waiting, Function.update_of_ne hq]
    · rw [setLvl_of_ne hd]
      by_cases hq : q = p
      · rw [hq, waiting_none (helse d hd), waiting_none (helse d hd)]
      · rw [waiting, waiting, Function.update_of_ne hq]
  have hself : setLvl (fun d => waiting (lvl d) s.nr (run d)) (s.task p).cpu p
      (waiting (lvl (s.task p).cpu) s.nr (run (s.task p).cpu) p) =
      fun d => waiting (lvl d) s.nr (run d) := by
    rw [setLvl, Function.update_eq_self, Function.update_eq_self]
  rw [PushPull.repush]
  by_cases hcurr : taskCurrent s (s.task p).cpu p = true
  · have hkeep : run (s.task p).cpu = some p := by
      rw [hrun]
      exact congrArg some (of_decide_eq_true hcurr)
    have hold : waiting (lvl (s.task p).cpu) s.nr (run (s.task p).cpu) p = none := by
      rw [waiting, if_neg fun hw => hw.1 hkeep]
    rw [if_pos hcurr]
    refine ⟨h.toBooks, Kept.refl s, rfl, ?_⟩
    rw [hkeys _ (fun hne => absurd hkeep hne) fun _ => rfl, ← hold, hself]
    exact h.wait
  · have hfree : run (s.task p).cpu ≠ some p := fun hkeep => by
      rw [hrun] at hkeep
      exact hcurr (decide_eq_true (Option.some.inj hkeep))
    rw [if_neg hcurr]
    -- off the list, if it was on it
    obtain ⟨u, hu, hbooks, hkept, hmig, hwaits⟩ : ∃ u,
        u = (if (s.task p).nrCpusAllowed > 1 then dequeuePushableTask s (s.task p).cpu p else s) ∧
        Books lvl u ∧ Kept s u ∧ (u.rq (s.task p).cpu).rtNrMigratory =
          (s.rq (s.task p).cpu).rtNrMigratory ∧
        Waits (setLvl (fun d => waiting (lvl d) s.nr (run d)) (s.task p).cpu p none) u := by
      refine ⟨_, rfl, ?_⟩
      split
      next hmany =>
        refine ⟨h.toBooks.pushable _ _, dequeuePushableTask_kept _ _ _, ?_, ?_⟩
        · simp [dequeuePushableTask, State.updRq, State.unlink]
        · exact h.wait.dequeuePushableTask (fun d hd => waiting_none (helse d hd)) fun q j hq =>
            h.waiting_prio hq
      next hone =>
        have hold : waiting (lvl (s.task p).cpu) s.nr (run (s.task p).cpu) p = none := by
          rw [waiting, if_neg fun hw => hone hw.2]
        refine ⟨h.toBooks, Kept.refl s, rfl, ?_⟩
        rw [← hold, hself]
        exact h.wait
    dsimp only
    rw [← hu]
    split
    next hmany =>
      have hnone : ∀ d, setLvl (fun d => waiting (lvl d) s.nr (run d)) (s.task p).cpu p none d p = none := by
        intro d
        by_cases hd : d = (s.task p).cpu
        · subst hd
          rw [setLvl_self, Function.update_self]
        · rw [setLvl_of_ne hd, waiting_none (helse d hd)]
      have hlt := (h.rq (s.task p).cpu).active.level_lt p _ hp
      have hadd := hwaits.enqueuePushableTask hnone (hkept.task ▸ hlt) (s.task p).cpu
      refine ⟨hbooks.pushable _ _, hkept.trans (enqueuePushableTask_kept _ _ _), ?_, ?_⟩
      · rw [← hmig]
        simp [enqueuePushableTask, State.updRq, State.unlink]
      · rw [hkeys (some (s.task p).prio) (fun _ _ => rfl) fun hno => absurd ⟨hfree, hmany⟩ hno]
        rw [hkept.task, setLvl, setLvl_self, Function.update_idem, setLvl, Function.update_idem] at hadd
        exact hadd
    next hone =>
      refine ⟨hbooks, hkept, hmig, ?_⟩
      rw [hkeys none (fun _ hmany => absurd hmany hone) fun _ => rfl]
      exact hwaits

/-- Another weight for a task that is queued: the books before and after. -/
theorem Rep.setNr_on (h : Rep lvl run s) (hp : lvl c p = some k) (hrun : run c = some (s.rq c).curr)
    (hcpu : f.cpu = (s.task p).cpu) (hprio : f.prio = (s.task p).prio) :
    Rep lvl run ((updateRtMigration (recount (PushPull.repush s p f.nrCpusAllowed) c
      (s.task p).nrCpusAllowed f.nrCpusAllowed) c).setTask p f) ∧
    Kept s (updateRtMigration (recount (PushPull.repush s p f.nrCpusAllowed) c
      (s.task p).nrCpusAllowed f.nrCpusAllowed) c) := by
  obtain ⟨hbooks, hkept, hmig, hwaits⟩ := h.repush hp hrun f.nrCpusAllowed
  have hsome : lvl c p ≠ none := by
    rw [hp]
    exact Option.some_ne_none _
  have hpos : (s.task p).nrCpusAllowed > 1 → ((PushPull.repush s p f.nrCpusAllowed).rq c).rtNrMigratory ≠ 0 := by
    intro hmany hzero
    rw [hmig] at hzero
    exact (h.rq c).migratory.eq_zero_iff.mp hzero p ⟨hsome, hmany⟩
  have hcount := Touch.updRq (PushPull.repush s p f.nrCpusAllowed) c (f := fun r =>
    { r with rtNrMigratory := reweighed r (s.task p).nrCpusAllowed f.nrCpusAllowed }) rfl rfl rfl rfl
  rw [← recount_eq hpos] at hcount
  have ht := hcount.trans (updateRtMigration_touch _ c)
  rw [hcount.self] at ht
  have hkept' := hkept.trans (Kept.of_update ht.task ht.rq rfl rfl rfl)
  refine ⟨Rep.of_setNr (ht.rto hbooks.rto) (ht.cpupri hbooks.cpupri) (ht.bug.trans hbooks.bug) ?_ ?_ ?_
    (fun d => ?_) ?_, hkept'⟩
  · rw [hkept'.task]
    exact h.place
  · rw [hkept'.task]
    exact hcpu
  · rw [hkept'.task]
    exact hprio
  · rw [hkept'.nr, ht.rq]
    have hrq := hbooks.rq d
    rw [hkept.nr] at hrq
    by_cases hd : d = c
    · subst hd
      rw [Function.update_self]
      exact hrq.reweigh hsome _
    · rw [Function.update_of_ne hd]
      exact hrq.reweigh_absent (h.elsewhere hp hd) _
  · rw [hkept'.nr]
    exact hwaits.touch ht rfl

theorem doSetCpusAllowed_inv (h : Inv s) (mask : Finset Cpu) : Inv (doSetCpusAllowed s p mask) := by
  -- whatever the books did, the task is written at last
  have hwrite : ∀ u, Kept s u →
      Rep s.lvl s.run (u.setTask p { s.task p with cpusAllowed := mask, nrCpusAllowed := mask.card }) →
      Inv (u.setTask p { u.task p with cpusAllowed := mask, nrCpusAllowed := mask.card }) := by
    intro u hkept hrep
    have hlvl : withTask s.lvl p { s.task p with cpusAllowed := mask, nrCpusAllowed := mask.card } =
        s.lvl := by
      funext d q
      rw [withTask]
      split
      next hq =>
        subst hq
        rfl
      next => rfl
    rw [hkept.task]
    refine h.write (p := p) (f := { s.task p with cpusAllowed := mask, nrCpusAllowed := mask.card })
      ?_ hkept.curr ?_ (h.prio p) rfl fun d hd hon => ?_
    · show Function.update u.task p _ = _
      rw [hkept.task]
    · rw [hlvl]
      exact hrep
    · rw [← hd] at hon ⊢
      exact h.here d hon
  rw [doSetCpusAllowed]
  by_cases hrt : (s.task p).rtClass = true
  · have hquiet : s.bugOn (maxRtPrio ≤ (s.task p).prio) = s := by
      rw [decide_eq_false (Nat.not_le.mpr (h.prio p hrt)), bugOn_false]
    rw [if_pos hrt, setCpusAllowedRt]
    dsimp only
    rw [hquiet]
    by_cases hon : (s.task p).onRq = true
    · have hp : s.lvl (s.task p).cpu p = some (s.task p).prio := if_pos ⟨hrt, hon, rfl⟩
      by_cases hne : mask.card = (s.task p).nrCpusAllowed
      · rw [if_neg fun hcond => hcond.2 hne]
        exact hwrite s (Kept.refl s) (h.rep.setTask (fun c k hk => h.rep.place c p k hk) hne)
      · rw [if_pos ⟨hon, hne⟩]
        obtain ⟨hrep, hkept⟩ := h.rep.setNr_on
          (f := { s.task p with cpusAllowed := mask, nrCpusAllowed := mask.card }) hp rfl rfl rfl
        exact hwrite _ hkept hrep
    · rw [if_neg fun hcond => hon hcond.1]
      exact hwrite s (Kept.refl s)
        (h.rep.setNr_off (fun d => lvlOf_none fun hf => hon hf.2) rfl rfl)
  · rw [if_neg hrt]
    exact hwrite s (Kept.refl s) (h.rep.setNr_off (fun d => lvlOf_none fun hf => hrt hf.1) rfl rfl)

/-! ## The switch -/

/-- A write to fields of a run queue that the books do not cover. -/
theorem Rep.updRq (h : Rep lvl run s) {g : RtRq → RtRq} (hg : ∀ r, g r = { r with
    rtThrottled := (g r).rtThrottled, curr := (g r).curr, resched := (g r).resched,
    postSchedule := (g r).postSchedule }) : Rep lvl run (s.updRq c g) := by
  have hr := hg (s.rq c)
  have ht := Touch.updRq s c (f := g) (by rw [hr]) (by rw [hr]) (by rw [hr]) (by rw [hr])
  refine ⟨h.toBooks.of_touch ht ?_, h.wait.touch ht (by rw [hr])⟩
  rw [hr]
  exact (h.rq c).congr rfl rfl rfl rfl rfl rfl

theorem update_run_of_ne (o : Option Pid) (hd : d ≠ c) : Function.update run c o d = run d :=
  Function.update_of_ne hd _ _

/-- `put_prev_task`: the previous task may be pushed again. -/
theorem Inv.putPrev (h : Inv s) (hrt : (s.task (s.rq c).curr).rtClass = true) :
    Rep s.lvl (Function.update s.run c none) (putPrevTaskRt s c (s.rq c).curr) ∧
      Kept s (putPrevTaskRt s c (s.rq c).curr) := by
  obtain ⟨p, hcurr⟩ : ∃ p, p = (s.rq c).curr := ⟨_, rfl⟩
  rw [← hcurr] at hrt ⊢
  -- keys of other tasks, and of other CPUs, are what they were
  have hothers : ∀ d q, ¬(d = c ∧ q = p) →
      waiting (s.lvl d) s.nr (Function.update s.run c none d) q = waiting (s.lvl d) s.nr (s.run d) q := by
    intro d q hdq
    by_cases hd : d = c
    · subst hd
      have hq : some p ≠ some q := fun heq => hdq ⟨rfl, (Option.some.inj heq).symm⟩
      rw [waiting, waiting, Function.update_self, State.run, ← hcurr]
      simp [hq]
    · rw [update_run_of_ne none hd]
  have hold : waiting (s.lvl c) s.nr (s.run c) p = none := by
    rw [waiting, State.run, ← hcurr, if_neg fun hw => hw.1 rfl]
  rw [putPrevTaskRt]
  split
  next hpush =>
    have hon : (s.task p).onRq = true := by
      by_contra hoff
      exact h.rep.onRtRq_iff.mp hpush.1 (lvlOf_none fun hf => hoff hf.2)
    have hcpu : (s.task p).cpu = c := by
      rw [hcurr] at hon ⊢
      exact h.here c hon
    have hlvl : s.lvl c p = some (s.task p).prio := if_pos ⟨hrt, hon, hcpu⟩
    have hnone : ∀ d, waiting (s.lvl d) s.nr (s.run d) p = none := by
      intro d
      by_cases hd : d = c
      · subst hd
        exact hold
      · exact waiting_none (h.rep.elsewhere hlvl hd)
    have hadd := h.rep.wait.enqueuePushableTask hnone (h.prio p hrt) c
    refine ⟨⟨h.rep.toBooks.pushable _ _, ?_⟩, enqueuePushableTask_kept s c p⟩
    rw [(enqueuePushableTask_kept s c p).nr]
    have hkey : (fun d => waiting (s.lvl d) s.nr (Function.update s.run c none d)) =
        setLvl (fun d => waiting (s.lvl d) s.nr (s.run d)) c p (some (s.task p).prio) := by
      funext d q
      by_cases hdq : d = c ∧ q = p
      · obtain ⟨rfl, rfl⟩ := hdq
        rw [setLvl_self, Function.update_self, Function.update_self, waiting,
          if_pos ⟨(Option.some_ne_none q).symm, hpush.2⟩, hlvl]
      · rw [hothers d q hdq]
        by_cases hd : d = c
        · subst hd
          rw [setLvl_self, Function.update_of_ne fun hq => hdq ⟨rfl, hq⟩]
        · rw [setLvl_of_ne hd]
    rw [hkey]
    exact hadd
  next hpush =>
    refine ⟨⟨h.rep.toBooks, ?_⟩, Kept.refl s⟩
    have hkey : (fun d => waiting (s.lvl d) s.nr (Function.update s.run c none d)) =
        fun d => waiting (s.lvl d) s.nr (s.run d) := by
      funext d q
      by_cases hdq : d = c ∧ q = p
      · obtain ⟨rfl, rfl⟩ := hdq
        rw [hold, Function.update_self, waiting]
        by_cases hmany : 1 < s.nr q
        · rw [if_pos ⟨(Option.some_ne_none q).symm, hmany⟩]
          by_contra hsome
          obtain ⟨k, hk⟩ := Option.ne_none_iff_exists'.mp hsome
          refine hpush ⟨h.rep.onRtRq_iff.mpr ?_, hmany⟩
          rw [(h.rep.place d q k hk).1]
          exact hsome
        · rw [if_neg fun hw => hmany hw.2]
      · exact hothers d q hdq
    rw [hkey]
    exact h.rep.wait

/-- A task that is not queued on `c` may be kept back there. -/
theorem Rep.keepBack (h : Rep lvl run s) (hrun : run c = none) (hp : lvl c p = none) :
    Rep lvl (Function.update run c (some p)) s := by
  refine ⟨h.toBooks, ?_⟩
  have hkey : (fun d => waiting (lvl d) s.nr (Function.update run c (some p) d)) =
      fun d => waiting (lvl d) s.nr (run d) := by
    funext d q
    by_cases hd : d = c
    · subst hd
      rw [Function.update_self, hrun]
      by_cases hq : q = p
      · rw [hq, waiting_none hp, waiting_none hp]
      · have hne : some p ≠ some q := fun heq => hq (Option.some.inj heq).symm
        simp [waiting, hne]
    · rw [update_run_of_ne _ hd]
  rw [hkey]
  exact h.wait

/-- Picking an entity answers a queued task, and never finds a set bit without one. -/
theorem pickRtEntity_spec (h : Books lvl s) : (pickRtEntity s c).2 = true ∧
    ∀ p, (pickRtEntity s c).1 = some p → lvl c p ≠ none := by
  rw [pickRtEntity]
  split
  · exact ⟨rfl, fun p hp => nomatch hp⟩
  next hnr =>
    split
    · exact ⟨rfl, fun p hp => nomatch hp⟩
    · have hactive := (h.rq c).active
      have hsome : ∃ p, lvl c p ≠ none := by
        by_contra hnone
        exact hnr ((h.rq c).running.eq_zero_iff.mpr (not_exists.mp hnone))
      have hlt := hactive.findFirstBit_lt_iff.mpr hsome
      obtain ⟨q, hhead, hq⟩ := hactive.findFirstBit_head hlt
      refine ⟨decide_eq_true hlt, fun p hp => ?_⟩
      rw [hhead] at hp
      rw [← Option.some.inj hp, hq]
      exact Option.some_ne_none _

/-- The pick of `pick_next_task_rt` is taken off the pushable list. -/
theorem Rep.pickNext (h : Rep lvl run s) (hrun : run c = none) :
    Kept s (pickNextTaskRt s c).2 ∧
      match (pickNextTaskRt s c).1 with
      | none => Rep lvl run (pickNextTaskRt s c).2
      | some p => lvl c p ≠ none ∧ Rep lvl (Function.update run c (some p)) (pickNextTaskRt s c).2 := by
  obtain ⟨hquiet, hqueued⟩ := pickRtEntity_spec (c := c) h.toBooks
  rw [pickNextTaskRt]
  dsimp only
  rw [hquiet, Bool.not_true, bugOn_false]
  cases hpick : (pickRtEntity s c).1 with
  | none => exact ⟨Kept.of_update (c := c) rfl rfl rfl rfl rfl, h.updRq fun _ => rfl⟩
  | some p =>
    have hp := hqueued p hpick
    obtain ⟨k, hk⟩ := Option.ne_none_iff_exists'.mp hp
    have hkept := dequeuePushableTask_kept s c p
    refine ⟨hkept.trans (Kept.of_update (c := c) rfl rfl rfl rfl rfl), hp, Rep.updRq ?_ fun _ => rfl⟩
    refine ⟨h.toBooks.pushable _ _, ?_⟩
    have hdel := h.wait.dequeuePushableTask (c := c) (p := p)
      (fun d hd => waiting_none (h.elsewhere hk hd)) fun q j hq => h.waiting_prio hq
    have hkey : (fun d => waiting (lvl d) s.nr (Function.update run c (some p) d)) =
        setLvl (fun d => waiting (lvl d) s.nr (run d)) c p none := by
      funext d q
      by_cases hd : d = c
      · subst hd
        rw [setLvl_self, Function.update_self]
        by_cases hq : q = p
        · rw [hq, Function.update_self, waiting, if_neg fun hw => hw.1 rfl]
        · have hne : some p ≠ some q := fun heq => hq (Option.some.inj heq).symm
          rw [Function.update_of_ne hq, hrun]
          simp [waiting, hne]
      · rw [update_run_of_ne _ hd, setLvl_of_ne hd]
    rw [hkept.nr, hkey]
    exact hdel

/-- Writing `rq->curr` keeps the invariant once the books fit the next task. -/
theorem Inv.setCurr (h : Inv s) (hkept : Kept s t)
    (hrep : Rep s.lvl (Function.update s.run c (some p)) t)
    (hhere : (s.task p).onRq = true → (s.task p).cpu = c) :
    Inv (t.updRq c fun r => { r with resched := false, curr := p }) := by
  have hcurr : ∀ d, ((t.updRq c fun r => { r with resched := false, curr := p }).rq d).curr =
      if d = c then p else (s.rq d).curr := by
    intro d
    show (Function.update t.rq c _ d).curr = _
    by_cases hd : d = c
    · subst hd
      rw [Function.update_self, if_pos rfl]
    · rw [Function.update_of_ne hd, if_neg hd]
      exact hkept.curr d
  have htask : (t.updRq c fun r => { r with resched := false, curr := p }).task = s.task := hkept.task
  refine ⟨?_, ?_, ?_, fun d hon => ?_⟩
  · have hlvl : (t.updRq c fun r => { r with resched := false, curr := p }).lvl = s.lvl := by
      funext d q
      rw [State.lvl, htask]
      rfl
    have hrun : (t.updRq c fun r => { r with resched := false, curr := p }).run =
        Function.update s.run c (some p) := by
      funext d
      rw [State.run, hcurr]
      by_cases hd : d = c
      · subst hd
        rw [if_pos rfl, Function.update_self]
      · rw [if_neg hd, Function.update_of_ne hd]
        rfl
    rw [hlvl, hrun]
    exact hrep.updRq fun _ => rfl
  · rw [htask]
    exact h.prio
  · rw [htask]
    exact h.nr
  · rw [hcurr, htask] at hon ⊢
    by_cases hd : d = c
    · subst hd
      rw [if_pos rfl] at hon ⊢
      exact hhere hon
    · rw [if_neg hd] at hon ⊢
      exact h.here d hon

/-- A task of another class, which runs on `c`. -/
def State.Foreign (s : State) (c : Cpu) (p : Pid) : Prop :=
  (s.task p).rtClass = false ∧ (s.task p).cpu = c

theorem switchTo_inv (h : Inv s) {stop : Option Pid} {other : Pid}
    (hstop : ∀ p, stop = some p → s.Foreign c p) (hother : s.Foreign c other) :
    Inv (switchTo s c stop other) := by
  obtain ⟨u, hu, hrep, hkept⟩ : ∃ u, u = (if (s.task (s.rq c).curr).rtClass then
      putPrevTaskRt s c (s.rq c).curr else s) ∧ Rep s.lvl (Function.update s.run c none) u ∧ Kept s u := by
    refine ⟨_, rfl, ?_⟩
    split
    next hrt => exact h.putPrev hrt
    next hrt =>
      refine ⟨⟨h.rep.toBooks, ?_⟩, Kept.refl s⟩
      have hkey : (fun d => waiting (s.lvl d) s.nr (Function.update s.run c none d)) =
          fun d => waiting (s.lvl d) s.nr (s.run d) := by
        funext d q
        by_cases hd : d = c
        · subst hd
          rw [Function.update_self]
          by_cases hq : q = (s.rq d).curr
          · have hnone : s.lvl d q = none := by
              rw [hq]
              exact lvlOf_none fun hf => hrt hf.1
            rw [waiting_none hnone, waiting_none hnone]
          · have hne : some (s.rq d).curr ≠ some q := fun heq => hq (Option.some.inj heq).symm
            simp [waiting, State.run, hne]
        · rw [update_run_of_ne none hd]
      rw [hkey]
      exact h.rep.wait
  have hoff : ∀ p, s.Foreign c p → s.lvl c p = none := fun p hp => lvlOf_none fun hf => by
    rw [hp.1] at hf
    cases hf.1
  -- a task that the RT class has not picked
  have hforeign : ∀ p v, s.Foreign c p → Kept s v → Rep s.lvl (Function.update s.run c none) v →
      Inv (v.updRq c fun r => { r with resched := false, curr := p }) := by
    intro p v hp hv hvrep
    refine h.setCurr hv ?_ fun _ => hp.2
    have hback := hvrep.keepBack (Function.update_self c none s.run) (hoff p hp)
    rwa [Function.update_idem] at hback
  unfold switchTo
  dsimp only
  rw [← hu]
  cases stop with
  | some p => exact hforeign p u (hstop p rfl) hkept hrep
  | none =>
    obtain ⟨hpkept, hpick⟩ := hrep.pickNext (Function.update_self c none s.run)
    dsimp only
    cases hnext : (pickNextTaskRt u c).1 with
    | none =>
      rw [hnext] at hpick
      exact hforeign other _ hother (hkept.trans hpkept) hpick
    | some p =>
      rw [hnext] at hpick
      obtain ⟨hp, hprep⟩ := hpick
      rw [Function.update_idem] at hprep
      refine h.setCurr (hkept.trans hpkept) hprep fun _ => ?_
      obtain ⟨k, hk⟩ := Option.ne_none_iff_exists'.mp hp
      exact (h.rep.place c p k hk).1

/-! ## CPUs that come and go -/

/-- What going on or off line, or to another root domain, writes. -/
theorem Inv.domains (h : Inv s) {b : Bool} {e : Nat} (htask : t.task = s.task)
    (hrq : t.rq = Function.update s.rq c { s.rq c with online := b, rd := e })
    (hpushable : t.pushable = s.pushable) (hbug : t.bug = s.bug) (hrto : RtoRep t.loaded t)
    (hcpupri : CpupriRep t) : Inv t := by
  have hfield : ∀ {α : Type} (g : RtRq → α), g { s.rq c with online := b, rd := e } = g (s.rq c) →
      ∀ d, g (t.rq d) = g (s.rq d) := by
    intro α g hg d
    rw [hrq]
    by_cases hd : d = c
    · subst hd
      rw [Function.update_self, hg]
    · rw [Function.update_of_ne hd]
  have hnr : t.nr = s.nr := funext fun q => congrArg (fun f : Pid → RtTask => (f q).nrCpusAllowed) htask
  have hlvl : t.lvl = s.lvl := by
    funext d q
    rw [State.lvl, htask]
    rfl
  have hrun : t.run = s.run := funext fun d => congrArg some (hfield RtRq.curr rfl d)
  refine ⟨⟨⟨fun d => ?_, hrto, hcpupri, ?_, hbug.trans h.rep.bug⟩, fun d => ?_⟩, ?_, ?_, ?_⟩
  · rw [hlvl, hnr]
    exact (h.rep.rq d).congr (hfield RtRq.active rfl d) (hfield RtRq.rtNrRunning rfl d)
      (hfield RtRq.highestCurr rfl d) (hfield RtRq.rtNrTotal rfl d) (hfield RtRq.rtNrMigratory rfl d)
      (hfield RtRq.overloaded rfl d)
  · rw [hlvl, htask]
    exact h.rep.place
  · rw [hlvl, hnr, hrun, hpushable, hfield RtRq.highestNext rfl]
    exact h.rep.wait d
  · rw [htask]
    exact h.prio
  · rw [htask]
    exact h.nr
  · intro d
    rw [htask, hfield RtRq.curr rfl]
    exact h.here d

/-- An offline CPU is not reported as overloaded. -/
theorem loaded_offline (h : (s.rq c).online = false) : s.loaded c = false := by
  rw [State.loaded, h, Bool.false_and]

/-- What `cpupri_set` is told does not depend on the throttling. -/
theorem cpupriSet_updRq {f : RtRq → RtRq} (hrd : (f (s.rq c)).rd = (s.rq c).rd)
    (hhighest : (f (s.rq c)).highestCurr = (s.rq c).highestCurr) :
    cpupriSet (s.updRq c f) c (some ((s.updRq c f).rq c).highestCurr) =
      (cpupriSet s c (some (s.rq c).highestCurr)).updRq c f := by
  have hself : (s.updRq c f).rq c = f (s.rq c) := Function.update_self _ _ _
  rw [cpupriSet, hself, hrd, hhighest]
  rfl

theorem setRqOnline_inv (h : Inv s) (c : Cpu) : Inv (setRqOnline s c) := by
  rw [setRqOnline]
  split
  next => exact h
  next hoff =>
    have hoff' : (s.rq c).online = false := (Bool.not_eq_true _).mp hoff
    have hself : (s.updRq c fun r => { r with online := true }).rq c = { s.rq c with online := true } :=
      Function.update_self _ _ _
    -- the mark of the CPU, if it is overloaded
    obtain ⟨rd, hrd, hrto, hcpupri⟩ : ∃ rd, (if ((s.updRq c fun r => { r with online := true }).rq c).overloaded
        then rtSetOverload (s.updRq c fun r => { r with online := true }) c
        else s.updRq c fun r => { r with online := true }) =
          { (s.updRq c fun r => { r with online := true }) with rd := rd } ∧
        RtoRep (Function.update s.loaded c (s.rq c).overloaded)
          { (s.updRq c fun r => { r with online := true }) with rd := rd } ∧
        ∀ d, (rd d).cpupri = (s.rd d).cpupri := by
      have hbefore : RtoRep s.loaded (s.updRq c fun r => { r with online := true }) :=
        h.rep.rto.updRq rfl
      rw [hself]
      dsimp only
      split
      next hover =>
        obtain ⟨rd, hset, hcpupri⟩ := rtSetOverload_cases (s.updRq c fun r => { r with online := true }) c
        refine ⟨rd, hset, ?_, hcpupri⟩
        rw [← hset, hover]
        exact rtSetOverload_rto hbefore (loaded_offline hoff') (by rw [hself])
      next hover =>
        refine ⟨s.rd, rfl, ?_, fun _ => rfl⟩
        rw [(Bool.not_eq_true _).mp hover, ← loaded_offline hoff', Function.update_eq_self]
        exact hbefore
    rw [rqOnlineRt]
    rw [hrd]
    dsimp only
    rw [cpupriSet_updRq rfl rfl]
    -- it is not throttled any more, which the books do not show
    suffices hmarked : Inv (cpupriSet { (s.updRq c fun r => { r with online := true }) with rd := rd } c
        (some ((s.updRq c fun r => { r with online := true }).rq c).highestCurr)) from
      hmarked.same (Kept.of_update (c := c) rfl rfl rfl rfl rfl)
        (hmarked.rep.updRq (g := fun r => { r with rtThrottled := false }) fun _ => rfl)
    refine h.domains (c := c) (b := true) (e := (s.rq c).rd) rfl rfl rfl rfl ?_ fun d hd => ?_
    · have hover : (cpupriSet { (s.updRq c fun r => { r with online := true }) with rd := rd } c
          (some ((s.updRq c fun r => { r with online := true }).rq c).highestCurr)).loaded =
          Function.update s.loaded c (s.rq c).overloaded := by
        funext d
        show ((Function.update s.rq c _ d).online && (Function.update s.rq c _ d).overloaded) = _
        by_cases hd : d = c
        · subst hd
          rw [Function.update_self, Function.update_self, Bool.true_and]
        · rw [Function.update_of_ne hd, Function.update_of_ne hd]
          rfl
      rw [hover]
      exact cpupriSet_rto hrto _
    · rw [cpupriSet_cpupri]
      by_cases hdc : d = c
      · subst hdc
        exact if_pos ⟨rfl, rfl⟩
      · have hsame : (s.updRq c fun r => { r with online := true }).rq d = s.rq d :=
          Function.update_of_ne hdc _ _
        have hd' : (s.rq d).online = true := hsame ▸ hd
        rw [if_neg fun hand => hdc hand.2]
        show (rd ((s.updRq c fun r => { r with online := true }).rq d).rd).cpupri d =
          some ((s.updRq c fun r => { r with online := true }).rq d).highestCurr
        rw [hcpupri, hsame]
        exact h.rep.cpupri d hd'

/-- Taking a queue offline keeps the invariant, and the queue is offline then. -/
theorem setRqOffline_inv (h : Inv s) (c : Cpu) :
    Inv (setRqOffline s c) ∧ ((setRqOffline s c).rq c).online = false := by
  rw [setRqOffline]
  split
  next hon =>
    obtain ⟨rd, hrd, hrto, hcpupri⟩ : ∃ rd, (if (s.rq c).overloaded then rtClearOverload s c else s) =
        { s with rd := rd } ∧ RtoRep (Function.update s.loaded c false) { s with rd := rd } ∧
        ∀ d, (rd d).cpupri = (s.rd d).cpupri := by
      split
      next hover =>
        obtain ⟨rd, hclear, hcpupri⟩ := rtClearOverload_cases s c
        refine ⟨rd, hclear, ?_, hcpupri⟩
        rw [← hclear]
        refine rtClearOverload_rto h.rep.rto ?_ hon
        rw [State.loaded, hon, hover, Bool.and_self]
      next hover =>
        have hoff : s.loaded c = false := by
          rw [State.loaded, (Bool.not_eq_true _).mp hover, Bool.and_false]
        refine ⟨s.rd, rfl, ?_, fun _ => rfl⟩
        rw [← hoff, Function.update_eq_self]
        exact h.rep.rto
    rw [rqOfflineRt]
    rw [hrd]
    have hself : ((cpupriSet { s with rd := rd } c none).updRq c fun r => { r with online := false }).rq c =
        { s.rq c with online := false } := Function.update_self _ _ _
    refine ⟨h.domains (c := c) (b := false) (e := (s.rq c).rd) rfl rfl rfl rfl ?_ fun d hd => ?_,
      by rw [hself]⟩
    · have hover : ((cpupriSet { s with rd := rd } c none).updRq c fun r =>
          { r with online := false }).loaded = Function.update s.loaded c false := by
        funext d
        show ((Function.update s.rq c _ d).online && (Function.update s.rq c _ d).overloaded) = _
        by_cases hd : d = c
        · subst hd
          rw [Function.update_self, Function.update_self, Bool.false_and]
        · rw [Function.update_of_ne hd, Function.update_of_ne hd]
          rfl
      rw [hover]
      exact RtoRep.updRq (cpupriSet_rto hrto none) rfl
    · by_cases hdc : d = c
      · subst hdc
        rw [hself] at hd
        cases hd
      · have hsame : ((cpupriSet { s with rd := rd } c none).updRq c fun r =>
            { r with online := false }).rq d = s.rq d := Function.update_of_ne hdc _ _
        rw [hsame] at hd ⊢
        show ((cpupriSet { s with rd := rd } c none).rd (s.rq d).rd).cpupri d = _
        rw [cpupriSet_cpupri, if_neg fun hand => hdc hand.2]
        show (rd (s.rq d).rd).cpupri d = _
        rw [hcpupri]
        exact h.rep.cpupri d hd
  next hoff => exact ⟨h, (Bool.not_eq_true _).mp hoff⟩

theorem rqAttachRoot_inv (h : Inv s) (c : Cpu) (e : Nat) (active : Bool) :
    Inv (rqAttachRoot s c e active) := by
  obtain ⟨hoffline, hoff⟩ := setRqOffline_inv h c
  have hattached : Inv ((setRqOffline s c).updRq c fun r => { r with rd := e }) := by
    have hself : ((setRqOffline s c).updRq c fun r => { r with rd := e }).rq c =
        { (setRqOffline s c).rq c with rd := e } := Function.update_self _ _ _
    have hother : ∀ d, d ≠ c → ((setRqOffline s c).updRq c fun r => { r with rd := e }).rq d =
        (setRqOffline s c).rq d := fun d hd => Function.update_of_ne hd _ _
    refine hoffline.domains (c := c) (b := ((setRqOffline s c).rq c).online) (e := e) rfl rfl rfl rfl
      ⟨fun i d => ?_, hoffline.rep.rto.count⟩ fun d hd => ?_
    · refine (hoffline.rep.rto.mask i d).trans ?_
      by_cases hd : d = c
      · subst hd
        have hover : ((setRqOffline s d).updRq d fun r => { r with rd := e }).loaded d = false :=
          loaded_offline (by rw [hself]; exact hoff)
        rw [loaded_offline hoff, hover]
        exact iff_of_false (fun hf => nomatch hf.2) fun hf => nomatch hf.2
      · rw [State.loaded, State.loaded, hother d hd]
    · by_cases hdc : d = c
      · subst hdc
        rw [hself] at hd
        exact absurd (hoff ▸ hd) Bool.false_ne_true
      · rw [hother d hdc] at hd ⊢
        exact hoffline.rep.cpupri d hd
  rw [rqAttachRoot]
  split
  · exact setRqOnline_inv hattached c
  · exact hattached

end LinuxWrr.PushPull
