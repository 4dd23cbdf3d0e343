import LinuxWrr.Lib.Reach
import LinuxWrr.Sched.Types

/-!
# Wait queues

`__wake_up_common` goes through a wait queue and calls the wake function of every entry, until it
has woken the given number of exclusive ones. Non-exclusive entries are linked at the head of a
queue (`sleep_on_common`), exclusive ones at its tail (`do_wait_for_common`).

- `wakeUpCommon_default`: which tasks a pass wakes.
- `wakeUp_reach`: in every run of a queue it wakes all non-exclusive tasks the mode asks for, and
  of the exclusive ones the first.

A task is here only what `p->state` says; how it leaves its CPU and comes back is
`LinuxWrr.Wait.Wakeup`.
-/

namespace LinuxWrr

/-! ## Task states -/

/-- `TASK_RUNNING`. -/
def taskRunning : Nat := 0
/-- `TASK_INTERRUPTIBLE`. -/
def taskInterruptible : Nat := 1
/-- `TASK_UNINTERRUPTIBLE`. -/
def taskUninterruptible : Nat := 2
/-- `TASK_WAKEKILL`. -/
def taskWakekill : Nat := 128
/-- `TASK_KILLABLE`. -/
def taskKillable : Nat := taskWakekill ||| taskUninterruptible
/-- `TASK_NORMAL`. -/
def taskNormal : Nat := taskInterruptible ||| taskUninterruptible

namespace Wait

variable {σ : Type} {state : Pid → Nat} {p : Pid} {mode : Nat} {nr : Int}

/-- `wait_queue_t`. -/
structure Entry where
  task : Pid
  /-- `WQ_FLAG_EXCLUSIVE`. -/
  exclusive : Bool

/-- `try_to_wake_up`, for the state of the task alone. -/
def tryToWakeUp (state : Pid → Nat) (p : Pid) (mode : Nat) : (Pid → Nat) × Bool :=
  if state p &&& mode = 0 then (state, false) else (Function.update state p taskRunning, true)

/-- `__wake_up_common`; `func` is `curr->func` of the entries. -/
def wakeUpCommon (func : σ → Entry → σ × Bool) : List Entry → Int → σ → σ
  | [], _, s => s
  | e :: q, nr, s =>
    if (func s e).2 then
      if e.exclusive then
        if nr - 1 = 0 then (func s e).1 else wakeUpCommon func q (nr - 1) (func s e).1
      else wakeUpCommon func q nr (func s e).1
    else wakeUpCommon func q nr (func s e).1

/-- `default_wake_function`. -/
def defaultWakeFunction (mode : Nat) (state : Pid → Nat) (e : Entry) : (Pid → Nat) × Bool :=
  tryToWakeUp state e.task mode

/-! ## What a pass wakes -/

/-- The task of the entry sleeps in one of the states that the mode asks for. -/
def Wakeable (state : Pid → Nat) (mode : Nat) (e : Entry) : Prop := state e.task &&& mode ≠ 0

instance (state : Pid → Nat) (mode : Nat) : DecidablePred (Wakeable state mode) :=
  fun _ => inferInstanceAs (Decidable (_ ≠ _))

/-- The exclusive entries that can be woken. -/
def wakeOnes (state : Pid → Nat) (mode : Nat) (q : List Entry) : Nat :=
  q.countP fun e => e.exclusive && decide (Wakeable state mode e)

/-- The pass gets to a wakeable entry of `p`: fewer than `nr` exclusive ones were woken before. -/
def Woken (state : Pid → Nat) (mode : Nat) (q : List Entry) (nr : Int) (p : Pid) : Prop :=
  ∃ l e r, q = l ++ e :: r ∧ e.task = p ∧ Wakeable state mode e ∧
    (nr ≤ 0 ∨ (wakeOnes state mode l : Int) < nr)

/-- In an empty queue nobody is woken. -/
theorem not_woken_nil : ¬Woken state mode [] nr p := by
  rintro ⟨l, e, r, hq, -⟩
  exact absurd hq.symm (List.append_ne_nil_of_right_ne_nil l (List.cons_ne_nil e r))

/-- Only who is in the queue is woken. -/
theorem Woken.mem {q : List Entry} (h : Woken state mode q nr p) : ∃ e ∈ q, e.task = p := by
  obtain ⟨l, e, r, rfl, he, -⟩ := h
  exact ⟨e, List.mem_append_right l List.mem_cons_self, he⟩

/-- A task behind the first entry is woken as by the rest of the queue, with one exclusive entry
less to wake if the first was one. -/
theorem woken_cons {e : Entry} {q : List Entry} (hp : e.task ≠ p) :
    Woken state mode (e :: q) nr p ↔
      if e.exclusive ∧ Wakeable state mode e then nr ≠ 1 ∧ Woken state mode q (nr - 1) p
      else Woken state mode q nr p := by
  have hones : ∀ l, wakeOnes state mode (e :: l) = wakeOnes state mode l +
      if e.exclusive ∧ Wakeable state mode e then 1 else 0 := by
    intro l
    simp [wakeOnes, List.countP_cons]
  have hsplit : ∀ l f r, e :: q = l ++ f :: r → f.task = p → ∃ l', l = e :: l' ∧ q = l' ++ f :: r := by
    intro l f r heq hf
    cases l with
    | nil =>
      cases heq
      exact absurd hf hp
    | cons e' l' =>
      obtain ⟨rfl, hq⟩ := List.cons.inj heq
      exact ⟨l', rfl, hq⟩
  split
  next hcond =>
    constructor
    · rintro ⟨l, f, r, heq, hf, hw, hnr⟩
      obtain ⟨l', rfl, hq⟩ := hsplit l f r heq hf
      rw [hones, if_pos hcond] at hnr
      refine ⟨by omega, l', f, r, hq, hf, hw, by omega⟩
    · rintro ⟨hone, l, f, r, hq, hf, hw, hnr⟩
      refine ⟨e :: l, f, r, by rw [hq, List.cons_append], hf, hw, ?_⟩
      rw [hones, if_pos hcond]
      omega
  next hcond =>
    constructor
    · rintro ⟨l, f, r, heq, hf, hw, hnr⟩
      obtain ⟨l', rfl, hq⟩ := hsplit l f r heq hf
      rw [hones, if_neg hcond, Nat.add_zero] at hnr
      exact ⟨l', f, r, hq, hf, hw, hnr⟩
    · rintro ⟨l, f, r, hq, hf, hw, hnr⟩
      refine ⟨e :: l, f, r, by rw [hq, List.cons_append], hf, hw, ?_⟩
      rw [hones, if_neg hcond, Nat.add_zero]
      exact hnr

/-- The first entry is woken exactly when it can be. -/
theorem woken_self {e : Entry} {q : List Entry} (h : ∀ f ∈ q, f.task ≠ e.task) :
    Woken state mode (e :: q) nr e.task ↔ Wakeable state mode e := by
  constructor
  · rintro ⟨l, f, r, heq, hf, hw, -⟩
    cases l with
    | nil =>
      cases heq
      exact hw
    | cons e' l =>
      obtain ⟨rfl, rfl⟩ := List.cons.inj heq
      exact absurd hf (h f (List.mem_append_right l List.mem_cons_self))
  · intro hw
    refine ⟨[], e, q, rfl, rfl, hw, ?_⟩
    rw [wakeOnes, List.countP_nil]
    omega

/-- Whether a pass gets to an entry, by what stands before it. -/
theorem woken_iff {q l r : List Entry} {e : Entry} (hq : (q.map Entry.task).Nodup)
    (heq : q = l ++ e :: r) : Woken state mode q nr e.task ↔
      Wakeable state mode e ∧ (nr ≤ 0 ∨ (wakeOnes state mode l : Int) < nr) := by
  constructor
  · rintro ⟨l', f, r', heq', hf, hw, hnr⟩
    -- the task has no other entry
    have hinj := List.inj_on_of_nodup_map hq
    have hmem : e ∈ q := heq ▸ List.mem_append_right l List.mem_cons_self
    have hfe : f = e := hinj (heq' ▸ List.mem_append_right l' List.mem_cons_self) hmem hf
    subst hfe
    have hnodup := hq.of_map
    rw [heq, List.nodup_middle] at hnodup
    have hnot := (List.nodup_cons.mp hnodup).1
    rw [List.mem_append, not_or] at hnot
    have hsplit := (List.append_cons_inj_of_notMem hnot.1 hnot.2).mp (heq.symm.trans heq')
    rw [hsplit.1]
    exact ⟨hw, hnr⟩
  · rintro ⟨hw, hnr⟩
    exact ⟨l, e, r, heq, rfl, hw, hnr⟩

/-- Waking a task that has no entry in the rest of the queue. -/
theorem woken_update {q : List Entry} {e : Entry} (h : ∀ f ∈ q, f.task ≠ e.task) (v : Nat) :
    Woken (Function.update state e.task v) mode q nr p ↔ Woken state mode q nr p := by
  have hsame : ∀ f ∈ q, (Wakeable (Function.update state e.task v) mode f ↔ Wakeable state mode f) := by
    intro f hf
    rw [Wakeable, Wakeable, Function.update_of_ne (h f hf)]
  refine exists_congr fun l => exists_congr fun f => exists_congr fun r => and_congr_right fun hq => ?_
  subst hq
  have hones : wakeOnes (Function.update state e.task v) mode l = wakeOnes state mode l := by
    refine List.countP_congr fun g hg => ?_
    simp only [Bool.and_eq_true, decide_eq_true_eq, hsame g (List.mem_append_left _ hg)]
  rw [hones, hsame f (List.mem_append_right l List.mem_cons_self)]

/-- **A pass of `__wake_up_common`** with the default wake function: exactly the tasks it gets to
are running. -/
theorem wakeUpCommon_default {q : List Entry} (hq : (q.map Entry.task).Nodup) (nr : Int)
    (state : Pid → Nat) (mode : Nat) (p : Pid) :
    (Woken state mode q nr p →
        wakeUpCommon (defaultWakeFunction mode) q nr state p = taskRunning) ∧
      (¬Woken state mode q nr p → wakeUpCommon (defaultWakeFunction mode) q nr state p = state p) := by
  induction q generalizing nr state with
  | nil => exact ⟨fun hw => absurd hw not_woken_nil, fun _ => rfl⟩
  | cons e q ih =>
    obtain ⟨hnot, hrest⟩ := List.nodup_cons.mp hq
    have hother : ∀ f ∈ q, f.task ≠ e.task := fun f hf heq => hnot (List.mem_map.mpr ⟨f, hf, heq⟩)
    have ih := ih hrest
    rw [wakeUpCommon, defaultWakeFunction, tryToWakeUp]
    by_cases hw : state e.task &&& mode = 0
    · -- it does not sleep in such a state, and is passed over
      have hnw : ¬Wakeable state mode e := not_not.mpr hw
      rw [if_pos hw, if_neg Bool.false_ne_true]
      by_cases hp : e.task = p
      · subst hp
        have hnone : ¬Woken state mode q nr e.task := fun h => by
          obtain ⟨f, hf, heq⟩ := h.mem
          exact hother f hf heq
        rw [woken_self hother]
        exact ⟨fun h => absurd h hnw, fun _ => (ih nr state).2 hnone⟩
      · rw [woken_cons hp, if_neg fun h => hnw h.2]
        exact ih nr state
    · have hwake : Wakeable state mode e := hw
      rw [if_neg hw, if_pos rfl]
      by_cases hp : e.task = p
      · subst hp
        have hnone : ∀ m, ¬Woken (Function.update state e.task taskRunning) mode q m e.task := by
          intro m h
          obtain ⟨f, hf, heq⟩ := h.mem
          exact hother f hf heq
        have hself : ∀ m, wakeUpCommon (defaultWakeFunction mode) q m
            (Function.update state e.task taskRunning) e.task = taskRunning := by
          intro m
          rw [(ih m (Function.update state e.task taskRunning)).2 (hnone m), Function.update_self]
        refine ⟨fun _ => ?_, fun h => absurd ((woken_self hother).mpr hwake) h⟩
        split
        · split
          · exact Function.update_self ..
          · exact hself (nr - 1)
        · exact hself nr
      · have hrec : ∀ m,
            (Woken state mode q m p → wakeUpCommon (defaultWakeFunction mode) q m
              (Function.update state e.task taskRunning) p = taskRunning) ∧
            (¬Woken state mode q m p → wakeUpCommon (defaultWakeFunction mode) q m
              (Function.update state e.task taskRunning) p = state p) := by
          intro m
          have him := ih m (Function.update state e.task taskRunning)
          rw [woken_update hother, Function.update_of_ne (Ne.symm hp)] at him
          exact him
        rw [woken_cons hp]
        by_cases hex : e.exclusive = true
        · rw [if_pos hex, if_pos ⟨hex, hwake⟩]
          by_cases hone : nr - 1 = 0
          · -- the last one that may be woken
            rw [if_pos hone]
            refine ⟨fun h => absurd h.1 (by omega), fun _ => ?_⟩
            exact Function.update_of_ne (Ne.symm hp) ..
          · rw [if_neg hone]
            have hne : nr ≠ 1 := by omega
            rw [and_iff_right hne]
            exact hrec (nr - 1)
        · rw [if_neg hex, if_neg fun h => hex h.1]
          exact hrec nr

/-! ## The order in a queue -/

/-- A wait queue and the tasks around it. -/
structure Queue where
  entries : List Entry
  state : Pid → Nat

/-- What happens to a queue and its tasks. -/
inductive QueueOp where
  /-- `__add_wait_queue`. -/
  | add (p : Pid)
  /-- `__add_wait_queue_tail_exclusive`. -/
  | addExclusive (p : Pid)
  /-- `__remove_wait_queue`. -/
  | remove (p : Pid)
  | setState (p : Pid) (st : Nat)
  /-- `__wake_up`. -/
  | wakeUp (mode : Nat) (nr : Int)

def Queue.exec (w : Queue) : QueueOp → Queue
  | .add p => { w with entries := ⟨p, false⟩ :: w.entries }
  | .addExclusive p => { w with entries := w.entries ++ [⟨p, true⟩] }
  | .remove p => { w with entries := w.entries.filter fun e => e.task ≠ p }
  | .setState p st => { w with state := Function.update w.state p st }
  | .wakeUp mode nr => { w with state := wakeUpCommon (defaultWakeFunction mode) w.entries nr w.state }

/-- A task waits once. -/
def QueueOp.Ok (w : Queue) : QueueOp → Prop
  | .add p | .addExclusive p => ∀ e ∈ w.entries, e.task ≠ p
  | .remove _ | .setState _ _ | .wakeUp _ _ => True

/-- Every task once, and the exclusive entries behind the others. -/
structure Queue.Ordered (w : Queue) : Prop where
  nodup : (w.entries.map Entry.task).Nodup
  order : w.entries.Pairwise fun a b => a.exclusive = true → b.exclusive = true

/-- Every operation keeps the order of the queue. -/
theorem Queue.Ordered.exec {w : Queue} (h : w.Ordered) {op : QueueOp} (hop : op.Ok w) :
    (w.exec op).Ordered := by
  cases op with
  | add p =>
    constructor
    · refine List.nodup_cons.mpr ⟨fun hmem => ?_, h.nodup⟩
      obtain ⟨e, he, heq⟩ := List.mem_map.mp hmem
      exact hop e he heq
    · refine List.pairwise_cons.mpr ⟨?_, h.order⟩
      intro e _ hex
      cases hex
  | addExclusive p =>
    refine ⟨?_, List.pairwise_append.mpr ⟨h.order, List.pairwise_singleton _ _, ?_⟩⟩
    · rw [Queue.exec, List.map_append]
      refine List.nodup_append'.mpr ⟨h.nodup, List.nodup_singleton _, ?_⟩
      intro q hq hp
      obtain ⟨e, he, heq⟩ := List.mem_map.mp hq
      exact hop e he (heq.trans (List.mem_singleton.mp hp))
    · intro e _ f hf _
      rw [List.mem_singleton.mp hf]
  | remove p =>
    exact ⟨h.nodup.sublist (List.filter_sublist.map _), h.order.sublist List.filter_sublist⟩
  | setState p st => exact ⟨h.nodup, h.order⟩
  | wakeUp mode nr => exact ⟨h.nodup, h.order⟩

/-- A non-exclusive entry stands before all exclusive ones. -/
theorem Queue.Ordered.before {w : Queue} (h : w.Ordered) {l r : List Entry} {e : Entry}
    (hq : w.entries = l ++ e :: r) (he : e.exclusive = false) : wakeOnes w.state mode l = 0 := by
  have horder := h.order
  rw [hq] at horder
  refine List.countP_eq_zero.mpr fun f hf hcond => ?_
  obtain ⟨hex, -⟩ := Bool.and_eq_true_iff.mp hcond
  have hlater := (List.pairwise_append.mp horder).2.2 f hf e List.mem_cons_self hex
  rw [he] at hlater
  cases hlater

/-- **Wake-ups in every run of a queue**: `__wake_up` for `nr` exclusive tasks, `nr` positive, wakes
every non-exclusive task that sleeps in a state it asks for, of the exclusive ones those with fewer
than `nr` before them, and nobody else. -/
theorem wakeUp_reach {w₀ w : Queue} (hw₀ : w₀.entries = [])
    (h : Reach (fun w op => QueueOp.Ok w op) Queue.exec w₀ w) {mode : Nat} {nr : Int} (hnr : 0 < nr) :
    (∀ l e r, w.entries = l ++ e :: r → Wakeable w.state mode e →
      ((w.exec (.wakeUp mode nr)).state e.task = taskRunning ↔
        e.exclusive = true → (wakeOnes w.state mode l : Int) < nr)) ∧
      ∀ p, (∀ e ∈ w.entries, e.task = p → ¬Wakeable w.state mode e) →
        (w.exec (.wakeUp mode nr)).state p = w.state p := by
  have hinv : w.Ordered := by
    refine h.invariant (fun _ _ hinv hop => hinv.exec hop) ⟨?_, ?_⟩
    · rw [hw₀]
      exact List.nodup_nil
    · rw [hw₀]
      exact List.Pairwise.nil
  have hpass := wakeUpCommon_default hinv.nodup nr w.state mode
  constructor
  · intro l e r hq hw
    have hwoken : Woken w.state mode w.entries nr e.task ↔
        Wakeable w.state mode e ∧ (nr ≤ 0 ∨ (wakeOnes w.state mode l : Int) < nr) :=
      woken_iff hinv.nodup hq
    have hasleep : w.state e.task ≠ taskRunning := fun hrun => hw (by rw [hrun]; exact Nat.zero_and mode)
    have hones : e.exclusive = false → wakeOnes w.state mode l = 0 := hinv.before hq
    by_cases hgets : Woken w.state mode w.entries nr e.task
    · refine iff_of_true ((hpass e.task).1 hgets) fun _ => ?_
      exact (hwoken.mp hgets).2.resolve_left (by omega)
    · refine iff_of_false (fun hrun => hasleep ((hpass e.task).2 hgets ▸ hrun)) fun hfew => ?_
      refine hgets (hwoken.mpr ⟨hw, .inr ?_⟩)
      by_cases hex : e.exclusive = true
      · exact hfew hex
      · rw [hones ((Bool.not_eq_true _).mp hex)]
        exact hnr
  · intro p hp
    refine (hpass p).2 ?_
    rintro ⟨l, e, r, hq, he, hw, -⟩
    refine hp e ?_ he hw
    rw [hq]
    exact List.mem_append_right l List.mem_cons_self

/-- Nobody waits yet, and every task is about to sleep. -/
def unlined : Queue := ⟨[], fun _ => taskInterruptible⟩

/-- The tasks 1 and 2 join as exclusive ones, 3 as one of the others. -/
def lined : Queue := [.addExclusive 1, .addExclusive 2, .add 3].foldl Queue.exec unlined

/-- A wake-up for one wakes 3, which is in front, and 1, but not 2. -/
theorem wakeUp_reach_lined : (lined.exec (.wakeUp taskNormal 1)).state 3 = taskRunning ∧
    (lined.exec (.wakeUp taskNormal 1)).state 1 = taskRunning ∧
    (lined.exec (.wakeUp taskNormal 1)).state 2 ≠ taskRunning := by
  have h : Reach (fun w op => QueueOp.Ok w op) Queue.exec unlined lined := by
    have hfirst : QueueOp.Ok unlined (.addExclusive 1) := fun e he => absurd he List.not_mem_nil
    have hsecond : QueueOp.Ok (unlined.exec (.addExclusive 1)) (.addExclusive 2) := by
      show ∀ e ∈ [(⟨1, true⟩ : Entry)], e.task ≠ 2
      decide
    have hthird : QueueOp.Ok ((unlined.exec (.addExclusive 1)).exec (.addExclusive 2)) (.add 3) := by
      show ∀ e ∈ [(⟨1, true⟩ : Entry), ⟨2, true⟩], e.task ≠ 3
      decide
    exact ((Reach.single hfirst).tail hsecond).tail hthird
  have hpass : ∀ l e r, lined.entries = l ++ e :: r → Wakeable lined.state taskNormal e →
      ((lined.exec (.wakeUp taskNormal 1)).state e.task = taskRunning ↔
        e.exclusive = true → (wakeOnes lined.state taskNormal l : Int) < 1) :=
    (wakeUp_reach rfl h Int.one_pos).1
  have hthird := hpass [] ⟨3, false⟩ [⟨1, true⟩, ⟨2, true⟩] rfl (by decide)
  have hfirst := hpass [⟨3, false⟩] ⟨1, true⟩ [⟨2, true⟩] rfl (by decide)
  have hsecond := hpass [⟨3, false⟩, ⟨1, true⟩] ⟨2, true⟩ [] rfl (by decide)
  exact ⟨hthird.mpr (by decide), hfirst.mpr (by decide), mt hsecond.mp (by decide)⟩

end Wait

end LinuxWrr
