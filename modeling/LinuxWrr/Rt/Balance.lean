import LinuxWrr.Lib.Reach
import LinuxWrr.Rt.OverloadInv

/-!
# Balancing real-time tasks over whole runs

- `Op`, `exec`: the operations of every CPU, cut where a run-queue lock is dropped. A pull is one
  `Op.pull` for each CPU it looks at, a push that has lost its lock in between an `Op.pushResume`.
- `overload_reach`: in every interleaving of them the books are right, and no `BUG_ON` or
  `WARN_ON` fires.
- `pickNextHighestTaskRt_spec`, `pickNextPushableTask_spec`: what pull and push choose.
-/

namespace LinuxWrr.PushPull

variable {s t : State} {c d thisCpu src : Cpu} {p q : Pid} {k n : Nat}

/-! ## What push chooses -/

/-- A real-time task that is queued on `c`. -/
def State.Queued (s : State) (c : Cpu) (p : Pid) : Prop :=
  (s.task p).rtClass = true ∧ (s.task p).onRq = true ∧ (s.task p).cpu = c

instance (s : State) (c : Cpu) (p : Pid) : Decidable (s.Queued c p) :=
  inferInstanceAs (Decidable (_ ∧ _ ∧ _))

/-- A queued task that may be pushed away. -/
def State.Waiting (s : State) (c : Cpu) (p : Pid) : Prop :=
  s.Queued c p ∧ (s.rq c).curr ≠ p ∧ 1 < (s.task p).nrCpusAllowed

/-- A task has a level where it is queued, and the level is its priority. -/
theorem lvl_eq_some : s.lvl c p = some k ↔ s.Queued c p ∧ (s.task p).prio = k := by
  rw [State.lvl, lvlOf]
  split
  next hq => exact ⟨fun h => ⟨hq, Option.some.inj h⟩, fun h => congrArg some h.2⟩
  next hq => exact iff_of_false (Option.some_ne_none k).symm fun h => hq h.1

/-- A task has some level exactly where it is queued. -/
theorem lvl_ne_none : s.lvl c p ≠ none ↔ s.Queued c p := by
  rw [Option.ne_none_iff_exists']
  exact ⟨fun ⟨_, hk⟩ => (lvl_eq_some.mp hk).1, fun h => ⟨_, lvl_eq_some.mpr ⟨h, rfl⟩⟩⟩

/-- The key of a waiting task is its priority. -/
theorem waiting_eq_some : waiting (s.lvl c) s.nr (s.run c) p = some k ↔
    s.Waiting c p ∧ (s.task p).prio = k := by
  constructor
  · intro h
    obtain ⟨hlvl, hrun, hnr⟩ := waiting_some h
    obtain ⟨hq, hprio⟩ := lvl_eq_some.mp hlvl
    exact ⟨⟨hq, fun hcurr => hrun (congrArg some hcurr), hnr⟩, hprio⟩
  · rintro ⟨⟨hq, hcurr, hnr⟩, hprio⟩
    rw [waiting, if_pos ⟨fun hrun => hcurr (Option.some.inj hrun), hnr⟩]
    exact lvl_eq_some.mpr ⟨hq, hprio⟩

namespace Inv

/-- The pushable list of `c` holds the waiting tasks, with their priorities. -/
theorem mem_pushable (h : Inv s) : (k, p) ∈ s.pushable c ↔ s.Waiting c p ∧ (s.task p).prio = k :=
  ((h.rep.wait c).list.mem_iff k p).trans waiting_eq_some

/-- Whoever is on the pushable list waits. -/
theorem waiting_of_mem (h : Inv s) {e : Nat × Pid} (he : e ∈ s.pushable c) : s.Waiting c e.2 :=
  (h.mem_pushable.mp he).1

/-- The first pushable task is the best of the waiting ones. -/
theorem pushable_first (h : Inv s) {l : List (Nat × Pid)} (hl : s.pushable c = (k, p) :: l) :
    s.Waiting c p ∧ ∀ q, s.Waiting c q → (s.task p).prio ≤ (s.task q).prio := by
  have hmem : (k, p) ∈ s.pushable c := by
    rw [hl]
    exact List.mem_cons_self
  obtain ⟨hp, hprio⟩ := h.mem_pushable.mp hmem
  refine ⟨hp, fun q hq => ?_⟩
  have hqmem : ((s.task q).prio, q) ∈ s.pushable c := h.mem_pushable.mpr ⟨hq, rfl⟩
  have hsorted := (h.rep.wait c).list.sorted
  rw [hl] at hqmem hsorted
  rw [hprio]
  rcases List.mem_cons.mp hqmem with heq | hrest
  · exact Nat.le_of_eq (congrArg Prod.fst heq).symm
  · exact (List.pairwise_cons.mp hsorted).1 _ hrest

/-- A queued task that is not current where it is queued runs nowhere. -/
theorem notRunning (h : Inv s) (hq : s.Queued c p) (hcurr : (s.rq c).curr ≠ p) (d : Cpu) :
    (s.rq d).curr ≠ p := by
  rintro rfl
  have hd := h.here d hq.2.1
  exact hcurr (by rw [← hq.2.2, hd])

/-- No `BUG_ON` of `pick_next_pushable_task` fires. -/
theorem pickNextPushableTask_spec (h : Inv s) (c : Cpu) : (pickNextPushableTask s c).2 = true ∧
    ∀ p, (pickNextPushableTask s c).1 = some p →
      s.Waiting c p ∧ ∀ q, s.Waiting c q → (s.task p).prio ≤ (s.task q).prio := by
  rw [pickNextPushableTask]
  cases hl : s.pushable c with
  | nil => exact ⟨rfl, fun p hp => nomatch hp⟩
  | cons e l =>
    obtain ⟨hp, hbest⟩ := h.pushable_first hl
    refine ⟨decide_eq_true ⟨hp.1.2.2.symm, decide_eq_false hp.2.1, hp.2.2, hp.1.2.1,
      h.prio _ hp.1.1⟩, fun q hq => ?_⟩
    rw [← Option.some.inj hq]
    exact ⟨hp, hbest⟩

end Inv

/-- Without a candidate the pushable list is empty. -/
theorem pickNextPushableTask_none (h : (pickNextPushableTask s c).1 = none) : s.pushable c = [] := by
  rw [pickNextPushableTask] at h
  split at h
  next hl => exact hl
  next => cases h

/-! ## What pull chooses -/

/-- A task that `thisCpu` may pull from `src`. -/
def State.Candidate (s : State) (src thisCpu : Cpu) (p : Pid) : Prop :=
  s.Waiting src p ∧ thisCpu ∈ (s.task p).cpusAllowed

/-- `pick_rt_task` accepts a task that does not run, may run here and may run elsewhere. -/
theorem pickRtTask_iff : pickRtTask s src p thisCpu = true ↔
    (s.rq src).curr ≠ p ∧ thisCpu ∈ (s.task p).cpusAllowed ∧ 1 < (s.task p).nrCpusAllowed := by
  simp [pickRtTask, taskCurrent]

/-- No bit is set between the offset and the answer of the search. -/
theorem findNextBit_spec (bitmap : Nat → Bool) (off : Nat) :
    (∀ j, off ≤ j → j < findNextBit bitmap off → bitmap j = false) ∧
      (findNextBit bitmap off < maxRtPrio → off ≤ findNextBit bitmap off) := by
  rw [findNextBit]
  cases hf : (List.range' off (maxRtPrio - off)).find? bitmap with
  | none =>
    refine ⟨fun j hle hlt => ?_, fun hlt => absurd hlt (Nat.lt_irrefl _)⟩
    have hlt' : j < maxRtPrio := hlt
    have hmem : j ∈ List.range' off (maxRtPrio - off) := by
      rw [List.mem_range'_1]
      omega
    exact (Bool.not_eq_true _).mp (List.find?_eq_none.mp hf j hmem)
  | some i =>
    refine ⟨fun j hle hlt => ?_, fun _ => ?_⟩
    · have hlt' : j < i := hlt
      obtain ⟨-, as, bs, hsplit, hbefore⟩ := List.find?_eq_some_iff_append.mp hf
      have hlen : i = off + as.length := by
        have hget : (List.range' off (maxRtPrio - off))[as.length]? = some i := by
          rw [hsplit]
          simp
        obtain ⟨hin, heq⟩ := List.getElem?_eq_some_iff.mp hget
        rw [List.getElem_range'] at heq
        omega
      have hget : as[j - off]? = some j := by
        have hrange : (List.range' off (maxRtPrio - off))[j - off]? = some j := by
          have hi := List.mem_of_find?_eq_some hf
          rw [List.mem_range'_1] at hi
          rw [List.getElem?_range' (by omega)]
          exact congrArg some (by omega)
        rw [hsplit, List.getElem?_append_left (by omega)] at hrange
        exact hrange
      simpa using hbefore j (List.mem_of_getElem? hget)
    · have hi := List.mem_of_find?_eq_some hf
      rw [List.mem_range'_1] at hi
      exact hi.1

/-- The loop over the levels finds the best task that passes the test, from the level `n` on. -/
theorem pickFromLevel_spec {lvl : Pid → Option Nat} (h : (s.rq src).active.Repr maxRtPrio lvl)
    (thisCpu : Cpu) {fuel : Nat} (hfuel : maxRtPrio < fuel + n) :
    match pickFromLevel s src thisCpu fuel n with
    | none => ∀ q j, lvl q = some j → n ≤ j → pickRtTask s src q thisCpu = false
    | some p => pickRtTask s src p thisCpu = true ∧ ∃ i, lvl p = some i ∧ n ≤ i ∧
        ∀ q j, lvl q = some j → n ≤ j → pickRtTask s src q thisCpu = true → i ≤ j := by
  induction fuel generalizing n with
  | zero =>
    intro q j hq hle
    have hlt := h.level_lt q j hq
    omega
  | succ fuel ih =>
    rw [pickFromLevel]
    by_cases hend : maxRtPrio ≤ n
    · rw [if_pos hend]
      intro q j hq hle
      have hlt := h.level_lt q j hq
      omega
    · rw [if_neg hend]
      cases hfind : ((s.rq src).active.queue n).find? fun p => pickRtTask s src p thisCpu with
      | some p =>
        have hp := (h.mem_iff n p).mp (List.mem_of_find?_eq_some hfind)
        exact ⟨List.find?_some (p := fun p => pickRtTask s src p thisCpu) hfind, n, hp, Nat.le_refl n,
          fun q j _ hle _ => hle⟩
      | none =>
        obtain ⟨hskip, hnext⟩ := findNextBit_spec (s.rq src).active.bitmap (n + 1)
        obtain ⟨m, hm⟩ : ∃ m, m = findNextBit (s.rq src).active.bitmap (n + 1) := ⟨_, rfl⟩
        rw [← hm] at hskip hnext ⊢
        -- nobody at this level, and no bit set before the next one
        have hrest : ∀ q j, lvl q = some j → n ≤ j → pickRtTask s src q thisCpu = true → m ≤ j := by
          intro q j hq hle htest
          have hmem := (h.mem_iff j q).mpr hq
          by_contra hlt
          by_cases hj : j = n
          · subst hj
            exact List.find?_eq_none.mp hfind q hmem htest
          · have hbit := (h.bit_iff j (h.level_lt q j hq)).mpr (List.ne_nil_of_mem hmem)
            rw [hskip j (by omega) (by omega)] at hbit
            cases hbit
        have hgo : maxRtPrio < fuel + m := by
          by_cases hlt : m < maxRtPrio
          · have hm' := hnext hlt
            omega
          · have hm' : maxRtPrio ≤ m := Nat.le_of_not_lt hlt
            have hpos : n < maxRtPrio := Nat.lt_of_not_le hend
            omega
        have hih := ih hgo
        cases hpick : pickFromLevel s src thisCpu fuel m with
        | none =>
          rw [hpick] at hih
          intro q j hq hle
          by_contra htest
          have htest' : pickRtTask s src q thisCpu = true := (Bool.not_eq_false _).mp htest
          have hno := hih q j hq (hrest q j hq hle htest')
          rw [htest'] at hno
          cases hno
        | some p =>
          rw [hpick] at hih
          obtain ⟨hp, i, hi, hle, hbest⟩ := hih
          have hn : n ≤ m := by
            by_contra hlt
            have hm' := hrest p i hi
            have hnext' := hnext (by
              have hpos : n < maxRtPrio := Nat.lt_of_not_le hend
              omega)
            omega
          exact ⟨hp, i, hi, hn.trans hle, fun q j hq hjn htest =>
            hbest q j hq (hrest q j hq hjn htest) htest⟩

/-- `pick_next_highest_task_rt` finds the best candidate, if there is one. -/
theorem Inv.pickNextHighestTaskRt_spec (h : Inv s) (src thisCpu : Cpu) :
    match pickNextHighestTaskRt s src thisCpu with
    | none => ∀ q, ¬s.Candidate src thisCpu q
    | some p => s.Candidate src thisCpu p ∧
        ∀ q, s.Candidate src thisCpu q → (s.task p).prio ≤ (s.task q).prio := by
  have hactive := (h.rep.rq src).active
  have hfuel : maxRtPrio < maxRtPrio + 1 + (s.rq src).active.findFirstBit maxRtPrio := by omega
  have hspec := pickFromLevel_spec hactive thisCpu hfuel
  have htest : ∀ q, s.Candidate src thisCpu q → pickRtTask s src q thisCpu = true := fun q hq =>
    pickRtTask_iff.mpr ⟨hq.1.2.1, hq.2, hq.1.2.2⟩
  have hlevel : ∀ q, s.Candidate src thisCpu q → s.lvl src q = some (s.task q).prio := fun q hq =>
    lvl_eq_some.mpr ⟨hq.1.1, rfl⟩
  rw [pickNextHighestTaskRt]
  cases hpick : pickFromLevel s src thisCpu (maxRtPrio + 1)
      ((s.rq src).active.findFirstBit maxRtPrio) with
  | none =>
    rw [hpick] at hspec
    intro q hq
    have hno := hspec q _ (hlevel q hq) (hactive.findFirstBit_le_level (hlevel q hq))
    rw [htest q hq] at hno
    cases hno
  | some p =>
    rw [hpick] at hspec
    obtain ⟨hp, i, hi, -, hbest⟩ := hspec
    obtain ⟨hcurr, hallowed, hnr⟩ := pickRtTask_iff.mp hp
    obtain ⟨hq, rfl⟩ := lvl_eq_some.mp hi
    refine ⟨⟨⟨hq, hcurr, hnr⟩, hallowed⟩, fun q hcand => ?_⟩
    exact hbest q _ (hlevel q hcand) (hactive.findFirstBit_le_level (hlevel q hcand)) (htest q hcand)

/-! ## Steps of push and pull -/

theorem reschedCurr_inv (h : Inv s) (c : Cpu) : Inv (reschedCurr s c) :=
  h.same (Kept.of_update (c := c) rfl rfl rfl rfl rfl) (h.rep.updRq fun _ => rfl)

/-- A waiting task is moved, and the run queue it goes to is told. -/
theorem Inv.push (h : Inv s) (hp : s.Waiting c p) (dest : Cpu) :
    Inv (reschedCurr (moveTask s p dest) dest) ∧
      Moved s (reschedCurr (moveTask s p dest) dest) p dest := by
  obtain ⟨hinv, hmoved⟩ := moveTask_inv h hp.1.2.1 (h.notRunning hp.1 hp.2.1) dest
  have hkept : Kept (moveTask s p dest) (reschedCurr (moveTask s p dest) dest) :=
    Kept.of_update (c := dest) rfl rfl rfl rfl rfl
  exact ⟨reschedCurr_inv hinv dest, hkept.task.trans hmoved.task,
    fun d => (hkept.curr d).trans (hmoved.curr d), fun d => (hkept.online d).trans (hmoved.online d),
    fun d => (hkept.rd d).trans (hmoved.rd d)⟩

/-- The outcomes of one `push_rt_task` for the best waiting task `p`. -/
inductive Pushed (s : State) (c : Cpu) (p : Pid) (tries : List (Option Cpu)) : State × Bool → Prop where
  /-- It outranks the current task, which is told. -/
  | outranks (h : (s.task p).prio < (s.task (s.rq c).curr).prio) : Pushed s c p tries (reschedCurr s c, false)
  | stuck (h : findLockLowestRq s c p tries = none) : Pushed s c p tries (s, false)
  | moved {dest : Cpu} (h : findLockLowestRq s c p tries = some dest) :
    Pushed s c p tries (reschedCurr (moveTask s p dest) dest, true)

/-- The CPU that is found is another one and runs something worse than the task. -/
theorem findLockLowestRq_some {tries : List (Option Cpu)} (h : findLockLowestRq s c p tries = some d) :
    some d ∈ tries ∧ d ≠ c ∧ (s.task p).prio < (s.rq d).highestCurr := by
  induction tries with
  | nil => cases h
  | cons e tries ih =>
    cases e with
    | none => cases h
    | some e =>
      rw [findLockLowestRq] at h
      split at h
      · cases h
      next hne =>
        split at h
        next hlt =>
          cases h
          exact ⟨List.mem_cons_self, hne, hlt⟩
        next =>
          obtain ⟨hmem, hd⟩ := ih h
          exact ⟨List.mem_cons_of_mem _ hmem, hd⟩

/-- One turn of the push loop finds nothing to push, or takes the best task that waits. -/
theorem Inv.pushNext_cases (h : Inv s) (c : Cpu) (tries : List (Option Cpu)) :
    (s.pushable c = [] ∧ pushNext s c tries = (s, false)) ∨
      ∃ p, s.Waiting c p ∧ (∀ q, s.Waiting c q → (s.task p).prio ≤ (s.task q).prio) ∧
        Pushed s c p tries (pushNext s c tries) := by
  obtain ⟨hquiet, hpick⟩ := h.pickNextPushableTask_spec c
  obtain ⟨o, ok, hpicked⟩ : ∃ o ok, pickNextPushableTask s c = (o, ok) := ⟨_, _, rfl⟩
  rw [hpicked] at hquiet hpick
  have hok : ok = true := hquiet
  subst hok
  rw [pushNext, hpicked]
  cases o with
  | none =>
    refine .inl ⟨pickNextPushableTask_none (congrArg Prod.fst hpicked), ?_⟩
    dsimp only
    rw [Bool.not_true, bugOn_false]
  | some p =>
    obtain ⟨hp, hbest⟩ := hpick p rfl
    refine .inr ⟨p, hp, hbest, ?_⟩
    dsimp only
    rw [Bool.not_true, bugOn_false, pushTask, if_neg fun heq => hp.2.1 heq.symm]
    split
    next hlt => exact .outranks hlt
    next =>
      cases hfind : findLockLowestRq s c p tries with
      | none => exact .stuck hfind
      | some dest => exact .moved hfind

theorem pushNext_inv (h : Inv s) (c : Cpu) (tries : List (Option Cpu)) : Inv (pushNext s c tries).1 := by
  obtain ⟨-, heq⟩ | ⟨p, hp, -, hpushed⟩ := h.pushNext_cases c tries
  · rw [heq]
    exact h
  · generalize pushNext s c tries = r at hpushed
    cases hpushed with
    | outranks => exact reschedCurr_inv h c
    | stuck => exact h
    | moved => exact (h.push hp _).1

theorem pushResume_inv (h : Inv s) (c : Cpu) (p : Pid) (dest : Cpu) : Inv (pushResume s c p dest) := by
  rw [pushResume]
  split
  next hcond =>
    obtain ⟨hcpu, -, hcurr, hon, -⟩ := hcond
    have hcurr' : (s.rq c).curr ≠ p := of_decide_eq_false hcurr
    refine reschedCurr_inv (moveTask_inv h hon (fun d heq => ?_) dest).1 dest
    subst heq
    have hd := h.here d hon
    exact hcurr' (by rw [← hcpu, hd])
  next => exact h

/-- What the loop body of `pull_rt_task` does: nothing, or it moves the best candidate. -/
theorem Inv.pullLocked_cases (h : Inv s) (thisCpu src : Cpu) :
    pullLocked s thisCpu src = s ∧ ((s.rq src).rtNrRunning ≤ 1 ∨
      (∃ p, s.Waiting src p ∧ (s.task p).prio < (s.task (s.rq src).curr).prio) ∨
      ∀ q, s.Candidate src thisCpu q → (s.rq thisCpu).highestCurr ≤ (s.task q).prio) ∨
    ∃ p, pullLocked s thisCpu src = moveTask s p thisCpu ∧ s.Candidate src thisCpu p ∧
      (s.task p).prio < (s.rq thisCpu).highestCurr ∧
      (s.task (s.rq src).curr).prio ≤ (s.task p).prio ∧
      ∀ q, s.Candidate src thisCpu q → (s.task p).prio ≤ (s.task q).prio := by
  have hspec := h.pickNextHighestTaskRt_spec src thisCpu
  rw [pullLocked]
  by_cases hfew : (s.rq src).rtNrRunning ≤ 1
  · rw [if_pos hfew]
    exact .inl ⟨rfl, .inl hfew⟩
  · rw [if_neg hfew]
    cases hpick : pickNextHighestTaskRt s src thisCpu with
    | none =>
      rw [hpick] at hspec
      exact .inl ⟨rfl, .inr (.inr fun q hq => absurd hq (hspec q))⟩
    | some p =>
      rw [hpick] at hspec
      obtain ⟨hp, hbest⟩ := hspec
      have hquiet : (taskCurrent s src p || !(s.task p).onRq) = false := by
        rw [hp.1.1.2.1, taskCurrent, decide_eq_false hp.1.2.1]
        rfl
      dsimp only
      by_cases hlow : (s.task p).prio < (s.rq thisCpu).highestCurr
      · rw [if_pos hlow, hquiet, bugOn_false]
        by_cases hcurr : (s.task p).prio < (s.task (s.rq src).curr).prio
        · rw [if_pos hcurr]
          exact .inl ⟨rfl, .inr (.inl ⟨p, hp.1, hcurr⟩)⟩
        · rw [if_neg hcurr]
          exact .inr ⟨p, rfl, hp, hlow, Nat.le_of_not_lt hcurr, hbest⟩
      · rw [if_neg hlow]
        exact .inl ⟨rfl, .inr (.inr fun q hq => (Nat.le_of_not_lt hlow).trans (hbest q hq))⟩

theorem pullLocked_inv (h : Inv s) (thisCpu src : Cpu) : Inv (pullLocked s thisCpu src) := by
  obtain ⟨heq, -⟩ | ⟨p, heq, hp, -⟩ := h.pullLocked_cases thisCpu src
  · rw [heq]
    exact h
  · rw [heq]
    exact (moveTask_inv h hp.1.1.2.1 (h.notRunning hp.1.1 hp.1.2.1) thisCpu).1

/-! ## Whole runs -/

/-- What a CPU does while it holds the run-queue locks it needs. -/
inductive Op where
  | activate (p : Pid) (c : Cpu) (head : Bool)
  | deactivate (p : Pid)
  | migrate (p : Pid) (dest : Cpu)
  | change (p : Pid) (rtClass : Bool) (prio : Nat) (head : Bool)
  | requeue (p : Pid) (head : Bool)
  | affinity (p : Pid) (mask : Finset Cpu)
  | switchTo (c : Cpu) (stop : Option Pid) (other : Pid)
  | online (c : Cpu)
  | offline (c : Cpu)
  | attach (c : Cpu) (d : Nat) (active : Bool)
  | throttle (c : Cpu) (throttled : Bool)
  | push (c : Cpu) (tries : List (Option Cpu))
  | pushResume (c : Cpu) (p : Pid) (dest : Cpu)
  | pull (thisCpu src : Cpu)

def exec (s : State) : Op → State
  | .activate p c head => activateTask s p c head
  | .deactivate p => deactivateTask s p
  | .migrate p dest => moveTask s p dest
  | .change p rtClass prio head => changeTask s p rtClass prio head
  | .requeue p head => requeueTaskRt s p head
  | .affinity p mask => doSetCpusAllowed s p mask
  | .switchTo c stop other => switchTo s c stop other
  | .online c => setRqOnline s c
  | .offline c => setRqOffline s c
  | .attach c d active => rqAttachRoot s c d active
  | .throttle c throttled => s.updRq c fun r => { r with rtThrottled := throttled }
  | .push c tries => (pushNext s c tries).1
  | .pushResume c p dest => pushResume s c p dest
  | .pull thisCpu src => pullLocked s thisCpu src

/-- What the callers see to. -/
def Op.Ok (s : State) : Op → Prop
  -- a sleeping task is off its old CPU before it is woken on another one
  | .activate p c _ => (s.task p).onRq = false ∧ ∀ d, (s.rq d).curr = p → d = c
  | .deactivate p => (s.task p).onRq = true
  -- `migration_cpu_stop` and `migrate_tasks` run as the stop task
  | .migrate p _ => (s.task p).onRq = true ∧ ∀ d, (s.rq d).curr ≠ p
  | .change _ rtClass prio _ => rtClass = true → prio < maxRtPrio
  | .requeue p _ => (s.task p).rtClass = true ∧ (s.task p).onRq = true
  | .switchTo c stop other => (∀ p, stop = some p → s.Foreign c p) ∧ s.Foreign c other
  | .affinity _ _ | .online _ | .offline _ | .attach _ _ _ | .throttle _ _ | .push _ _
  | .pushResume _ _ _ | .pull _ _ => True

theorem exec_inv (h : Inv s) (op : Op) (hop : op.Ok s) : Inv (exec s op) := by
  cases op with
  | activate p c head => exact (activateTask_inv h hop.1 hop.2 head).1
  | deactivate p => exact deactivateTask_inv h hop
  | migrate p dest => exact (moveTask_inv h hop.1 hop.2 dest).1
  | change p rtClass prio head => exact changeTask_inv h hop head
  | requeue p head => exact requeueTaskRt_inv h hop.1 hop.2 head
  | affinity p mask => exact doSetCpusAllowed_inv h mask
  | switchTo c stop other => exact switchTo_inv h hop.1 hop.2
  | online c => exact setRqOnline_inv h c
  | offline c => exact (setRqOffline_inv h c).1
  | attach c d active => exact rqAttachRoot_inv h c d active
  | throttle c throttled =>
    exact h.same (Kept.of_update (c := c) rfl rfl rfl rfl rfl)
      (h.rep.updRq (g := fun r => { r with rtThrottled := throttled }) fun _ => rfl)
  | push c tries => exact pushNext_inv h c tries
  | pushResume c p dest => exact pushResume_inv h c p dest
  | pull thisCpu src => exact pullLocked_inv h thisCpu src

/-- After `init_rt_rq`, `init_rootdomain` and the first `rq_attach_root` of every CPU. -/
structure Boot (s : State) : Prop where
  off : ∀ p, (s.task p).onRq = false
  prio : ∀ p, (s.task p).rtClass = true → (s.task p).prio < maxRtPrio
  nr : ∀ p, (s.task p).nrCpusAllowed = (s.task p).cpusAllowed.card
  rq : ∀ c, s.rq c = { s.rq c with
    active := PrioArray.init maxRtPrio
    rtNrRunning := 0
    highestCurr := maxRtPrio
    highestNext := maxRtPrio
    rtNrMigratory := 0
    rtNrTotal := 0
    overloaded := false }
  pushable : ∀ c, s.pushable c = []
  rto : ∀ d, (s.rd d).rtoMask = ∅ ∧ (s.rd d).rtoCount = 0
  cpupri : ∀ c, (s.rq c).online = true → (s.rd (s.rq c).rd).cpupri c = some maxRtPrio
  bug : s.bug = false

theorem Boot.inv (h : Boot s) : Inv s := by
  have hlvl : ∀ c, s.lvl c = fun _ => none := fun c => funext fun p => lvlOf_none fun hf => by
    rw [h.off p] at hf
    cases hf.2
  have hkey : ∀ c, waiting (s.lvl c) s.nr (s.run c) = fun _ => none := fun c => funext fun p => by
    rw [hlvl]
    exact waiting_none rfl
  have hleast : PrioArray.Least maxRtPrio (fun _ : Pid => none) maxRtPrio :=
    ⟨fun _ _ hx => (nomatch hx), .inr ⟨rfl, fun _ => rfl⟩⟩
  refine ⟨⟨⟨fun c => ?_, ⟨fun d c => ?_, fun d => ?_⟩, fun c hc => ?_, fun c p k hk => ?_, h.bug⟩,
    fun c => ?_⟩, h.prio, h.nr, fun c hon => ?_⟩
  · rw [hlvl, h.rq c]
    refine ⟨PrioArray.Repr.init _, Census.empty fun _ hp => hp rfl, hleast, Census.empty fun _ hp => hp rfl,
      Census.empty fun _ hp => hp.1 rfl, iff_of_false Bool.false_ne_true fun hmig => hmig.1 rfl⟩
  · rw [(h.rto d).1]
    refine iff_of_false (Finset.notMem_empty c) fun hover => ?_
    rw [State.loaded, h.rq c, Bool.and_false] at hover
    cases hover.2
  · rw [(h.rto d).1, (h.rto d).2]
    rfl
  · rw [h.cpupri c hc, h.rq c]
  · rw [hlvl] at hk
    cases hk
  · show WaitRep (waiting (s.lvl c) s.nr (s.run c)) _ _
    rw [hkey, h.pushable c, h.rq c]
    exact ⟨Plist.Repr.nil, hleast⟩
  · rw [h.off] at hon
    cases hon

theorem run_inv (hboot : Boot s) (h : Reach (fun s op => op.Ok s) exec s t) : Inv t :=
  h.invariant (fun _ op hinv hop => exec_inv hinv op hop) hboot.inv

/-- What the caches, counters, lists and masks say. -/
structure Bookkept (s : State) : Prop where
  /-- `highest_prio.curr` is the best priority queued, or `MAX_RT_PRIO`. -/
  highest : ∀ c p, s.Queued c p → (s.rq c).highestCurr ≤ (s.task p).prio
  attained : ∀ c, (∃ p, s.Queued c p ∧ (s.task p).prio = (s.rq c).highestCurr) ∨
    (s.rq c).highestCurr = maxRtPrio ∧ ∀ p, ¬s.Queued c p
  running : ∀ c, Census (s.Queued c) (s.rq c).rtNrRunning
  /-- The pushable tasks are the queued ones that may run elsewhere and do not run. -/
  pushable : ∀ c k p, (k, p) ∈ s.pushable c ↔ s.Waiting c p ∧ (s.task p).prio = k
  sorted : ∀ c, (s.pushable c).Pairwise fun a b => a.1 ≤ b.1
  next : ∀ c, (s.rq c).highestNext = Plist.firstKey maxRtPrio (s.pushable c)
  /-- Overloaded: a second task, and one that may run elsewhere. -/
  overloaded : ∀ c, (s.rq c).overloaded = true ↔
    (∃ p, s.Queued c p ∧ 1 < (s.task p).nrCpusAllowed) ∧ ∃ p q, s.Queued c p ∧ s.Queued c q ∧ p ≠ q
  mask : ∀ d c, c ∈ (s.rd d).rtoMask ↔
    (s.rq c).rd = d ∧ (s.rq c).online = true ∧ (s.rq c).overloaded = true
  count : ∀ d, (s.rd d).rtoCount = (s.rd d).rtoMask.card
  cpupri : ∀ c, (s.rq c).online = true → (s.rd (s.rq c).rd).cpupri c = some (s.rq c).highestCurr
  quiet : s.bug = false

/-- A queue is marked overloaded exactly when it has two tasks and one of its tasks may move. -/
theorem Inv.overloaded_iff (h : Inv s) (c : Cpu) : (s.rq c).overloaded = true ↔
    (∃ p, s.Queued c p ∧ 1 < (s.task p).nrCpusAllowed) ∧
      ∃ p q, s.Queued c p ∧ s.Queued c q ∧ p ≠ q := by
  have hrq := h.rep.rq c
  have hpos : (s.rq c).rtNrMigratory ≠ 0 ↔ 0 < (s.rq c).rtNrMigratory := by
    have hnonneg := hrq.migratory.nonneg
    omega
  rw [hrq.overloaded, hpos, hrq.migratory.pos_iff, hrq.total.one_lt_iff]
  simp only [lvl_ne_none]
  rfl

/-- The invariant gives all that the books promise. -/
theorem Inv.bookkept (h : Inv s) : Bookkept s where
  highest c p hp := (h.rep.rq c).highest.le p _ (lvl_eq_some.mpr ⟨hp, rfl⟩)
  attained c := by
    refine (h.rep.rq c).highest.attained.imp (fun ⟨p, hp⟩ => ⟨p, lvl_eq_some.mp hp⟩) ?_
    rintro ⟨hmax, hnone⟩
    exact ⟨hmax, fun p hp => lvl_ne_none.mpr hp (hnone p)⟩
  running c := (h.rep.rq c).running.congr fun _ => lvl_ne_none.symm
  pushable _ _ _ := h.mem_pushable
  sorted c := (h.rep.wait c).list.sorted
  next c := (h.rep.wait c).next.unique ((h.rep.wait c).list.least maxRtPrio)
  overloaded := h.overloaded_iff
  mask d c := by
    rw [h.rep.rto.mask, State.loaded, Bool.and_eq_true]
  count := h.rep.rto.count
  cpupri := h.rep.cpupri
  quiet := h.rep.bug

/-- **In every interleaving the books are right**: the cached priorities, the counters, the
pushable lists and the marks in the root domains are what the queued tasks make them, and no
`BUG_ON` or `WARN_ON` of this code fires. That of `__disable_runtime` is about runtimes and not
among them. -/
theorem overload_reach (hboot : Boot s) (h : Reach (fun s op => op.Ok s) exec s t) : Bookkept t :=
  (run_inv hboot h).bookkept

/-! ## Two CPUs -/

/-- Even pids are the idle tasks of the CPUs, odd ones sleeping RT tasks that may run on the
CPUs 0 and 1. -/
def bootTask (p : Pid) : RtTask :=
  if p % 2 = 0 then
    { rtClass := false, prio := 120, cpu := p / 2, onRq := false, cpusAllowed := {p / 2},
      nrCpusAllowed := 1 }
  else
    { rtClass := true, prio := p % maxRtPrio, cpu := 0, onRq := false, cpusAllowed := {0, 1},
      nrCpusAllowed := 2 }

def bootState : State where
  task := bootTask
  rq c :=
    { active := PrioArray.init maxRtPrio, rtNrRunning := 0, highestCurr := maxRtPrio,
      highestNext := maxRtPrio, rtNrMigratory := 0, rtNrTotal := 0, overloaded := false,
      rtThrottled := false, curr := 2 * c, resched := false, postSchedule := false, online := true,
      rd := 0 }
  pushable _ := []
  rd _ := { rtoMask := ∅, rtoCount := 0, cpupri := fun _ => some maxRtPrio }
  bug := false

theorem bootState_boot : Boot bootState where
  off p := by
    show (bootTask p).onRq = false
    rw [bootTask]
    split <;> rfl
  prio p hp := by
    show (bootTask p).prio < maxRtPrio
    have hp' : (bootTask p).rtClass = true := hp
    rw [bootTask] at hp' ⊢
    split at hp'
    · cases hp'
    next hodd =>
      rw [if_neg hodd]
      exact Nat.mod_lt _ (by decide)
  nr p := by
    show (bootTask p).nrCpusAllowed = (bootTask p).cpusAllowed.card
    rw [bootTask]
    split <;> rfl
  rq _ := rfl
  pushable _ := rfl
  rto _ := ⟨rfl, rfl⟩
  cpupri _ _ := rfl
  bug := rfl

/-- The tasks 1 and 3 are woken on CPU 0, and it picks the first. -/
def crowded : State :=
  [.activate 1 0 false, .activate 3 0 false, .switchTo 0 none 0].foldl exec bootState

theorem crowded_reach : Reach (fun s op => op.Ok s) exec bootState crowded := by
  have hodd : ∀ d p : Nat, p % 2 = 1 → 2 * d ≠ p := by omega
  have hfirst : (Op.activate 1 0 false).Ok bootState :=
    ⟨rfl, fun d hd => absurd hd (hodd d 1 rfl)⟩
  have hinv := activateTask_inv bootState_boot.inv hfirst.1 hfirst.2 false
  have hsecond : (Op.activate 3 0 false).Ok (exec bootState (.activate 1 0 false)) := by
    refine ⟨by decide +kernel, fun d hd => ?_⟩
    have hd' := (hinv.2 d).symm.trans hd
    exact absurd hd' (hodd d 3 rfl)
  have hswitch : (Op.switchTo 0 none 0).Ok
      (exec (exec bootState (.activate 1 0 false)) (.activate 3 0 false)) := by
    refine ⟨fun p hp => ?_, by decide +kernel, by decide +kernel⟩
    cases hp
  exact ((Reach.single hfirst).tail hsecond).tail hswitch

/-- CPU 0 is marked while it holds both, and no longer once it has pushed one away. -/
theorem overload_reach_crowded :
    (Bookkept crowded ∧ (crowded.rq 0).overloaded = true) ∧
      Bookkept (exec crowded (.push 0 [some 1])) ∧
      ((exec crowded (.push 0 [some 1])).rq 0).overloaded = false ∧
      ((exec crowded (.push 0 [some 1])).task 3).cpu = 1 := by
  have hpush : (Op.push 0 [some 1]).Ok crowded := trivial
  exact ⟨⟨overload_reach bootState_boot crowded_reach, by decide +kernel⟩,
    overload_reach bootState_boot (crowded_reach.tail hpush), by decide +kernel, by decide +kernel⟩

end LinuxWrr.PushPull
