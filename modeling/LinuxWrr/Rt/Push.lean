import LinuxWrr.Lib.Loop
import LinuxWrr.Rt.Pull

/-!
# Pushing until nothing can be pushed

`push_rt_tasks` calls `push_rt_task` until it answers 0. `pushRtTasks_ends`: whatever
`find_lowest_rq` answers, this ends; no task that still waits outranks one that has left, and
where each of them has gone it is the best. This is so as long as no other CPU gets in where
`find_lock_lowest_rq` drops the lock of the run queue: what others do there may keep the loop
going. The books are kept then as well (`overload_reach`).
-/

namespace LinuxWrr.PushPull

open Loop (Ends)

variable {s t u : State} {c d dest : Cpu} {p q : Pid} {tries : State → List (Option Cpu)}

/-- `while (push_rt_task(rq));` as long as no other CPU gets in where `find_lock_lowest_rq` drops
the lock. `tries s` are the answers of `find_lowest_rq` in the state `s`; the loop does not come to
a state twice. -/
def pushRtTasks (c : Cpu) (tries : State → List (Option Cpu)) (s : State) : State ⊕ State :=
  if (pushRtTask s c (tries s)).2 then .inl (pushRtTask s c (tries s)).1
  else .inr (pushRtTask s c (tries s)).1

/-- Why `push_rt_task` has answered 0 in the first state, and what it has made of it. -/
inductive Pushless (tries : State → List (Option Cpu)) (c : Cpu) : State → State → Prop where
  | notOverloaded {v : State} (h : (v.rq c).overloaded = false) : Pushless tries c v v
  | noneWaits {v : State} (h : ∀ q, ¬v.Waiting c q) : Pushless tries c v v
  /-- The best waiting task outranks the current one, which is told. -/
  | outranks {v : State} {p : Pid} (hp : v.Waiting c p)
    (h : (v.task p).prio < (v.task (v.rq c).curr).prio) : Pushless tries c v (reschedCurr v c)
  /-- The best waiting task has nowhere to go. -/
  | stuck {v : State} {p : Pid} (hp : v.Waiting c p)
    (hbest : ∀ q, v.Waiting c q → (v.task p).prio ≤ (v.task q).prio)
    (h : findLockLowestRq v c p ((tries v).take 3) = none) : Pushless tries c v v

/-- What is left to push. -/
def pushLeft (c : Cpu) (s : State) : Nat := ((s.pushable c).map Prod.snd).toFinset.card

/-- The measure counts the tasks that wait. -/
theorem Inv.mem_pushLeft (h : Inv s) :
    p ∈ ((s.pushable c).map Prod.snd).toFinset ↔ s.Waiting c p := by
  rw [List.mem_toFinset, List.mem_map]
  constructor
  · rintro ⟨e, he, rfl⟩
    exact h.waiting_of_mem he
  · intro hp
    exact ⟨((s.task p).prio, p), h.mem_pushable.mpr ⟨hp, rfl⟩, rfl⟩

/-- Where the task has left, the others still wait. -/
theorem Moved.waiting_src (hm : Moved s t p dest) (hdest : dest ≠ c) :
    t.Waiting c q ↔ s.Waiting c q ∧ q ≠ p := by
  by_cases hq : q = p
  · subst hq
    refine iff_of_false (fun hw => ?_) fun hw => hw.2 rfl
    have hcpu := hw.1.2.2
    rw [hm.self] at hcpu
    exact hdest hcpu
  · rw [State.Waiting, State.Queued, hm.other hq, hm.curr]
    exact ⟨fun hw => ⟨hw, hq⟩, fun hw => hw.1⟩

/-- A task that has been pushed from `c`. -/
structure Gone (s : State) (c : Cpu) (u : State) (p : Pid) (dest : Cpu) : Prop where
  waited : s.Waiting c p
  ne : dest ≠ c
  moved : u.task p = { s.task p with cpu := dest }
  /-- It outranks all that was queued there. -/
  better : (s.task p).prio < (s.rq dest).highestCurr
  /-- No task that still waits outranks it. -/
  best : ∀ q, u.Waiting c q → (s.task p).prio ≤ (s.task q).prio

/-- Where the loop is: `u` has come from `s` by pushing. -/
structure Pushing (s : State) (c : Cpu) (u : State) : Prop where
  inv : Inv u
  curr : ∀ d, (u.rq d).curr = (s.rq d).curr
  highest : ∀ d, d ≠ c → (u.rq d).highestCurr ≤ (s.rq d).highestCurr
  tasks : ∀ p, u.task p = s.task p ∨ ∃ dest, Gone s c u p dest

theorem Pushing.start (h : Inv s) : Pushing s c s :=
  ⟨h, fun _ => rfl, fun _ _ => Nat.le_refl _, fun _ => .inl rfl⟩

/-- A task that waits has not been pushed. -/
theorem Pushing.still (h : Pushing s c u) (hp : u.Waiting c p) : u.task p = s.task p := by
  refine (h.tasks p).resolve_right ?_
  rintro ⟨dest, hgone⟩
  have hcpu := hp.1.2.2
  rw [hgone.moved] at hcpu
  exact hgone.ne hcpu

/-- Nobody starts to wait while the loop pushes. -/
theorem Pushing.waited (h : Pushing s c u) (hp : u.Waiting c p) : s.Waiting c p := by
  have hsame := h.still hp
  rw [State.Waiting, State.Queued, hsame, h.curr] at hp
  exact hp

/-- Telling a CPU to reschedule is not seen. -/
theorem Pushing.told (h : Pushing s c u) : Pushing s c (reschedCurr u c) := by
  have hkept : Kept u (reschedCurr u c) := Kept.of_update (c := c) rfl rfl rfl rfl rfl
  have hcurr : ∀ d, ((reschedCurr u c).rq d).curr = (u.rq d).curr := hkept.curr
  have htask : (reschedCurr u c).task = u.task := hkept.task
  refine ⟨reschedCurr_inv h.inv c, fun d => (hcurr d).trans (h.curr d), fun d hd => ?_, fun p => ?_⟩
  · have hsame : ((reschedCurr u c).rq d) = u.rq d := Function.update_of_ne hd _ _
    rw [hsame]
    exact h.highest d hd
  · rw [htask]
    refine (h.tasks p).imp_right fun ⟨dest, hgone⟩ => ⟨dest, hgone.waited, hgone.ne, ?_, hgone.better, ?_⟩
    · rw [htask]
      exact hgone.moved
    · intro q hq
      rw [State.Waiting, State.Queued, htask, hcurr] at hq
      exact hgone.best q hq

/-- One task is pushed: the best that waits. -/
theorem Pushing.step (h : Pushing s c u) (hp : u.Waiting c p)
    (hbest : ∀ q, u.Waiting c q → (u.task p).prio ≤ (u.task q).prio) (hdest : dest ≠ c)
    (hlow : (u.task p).prio < (u.rq dest).highestCurr) (ht : Inv t) (hm : Moved u t p dest) :
    Pushing s c t where
  inv := ht
  curr d := (hm.curr d).trans (h.curr d)
  highest d hd := by
    by_cases hdd : d = dest
    · subst hdd
      rw [hm.highest h.inv ht hp.1 hlow]
      exact (Nat.le_of_lt hlow).trans (h.highest d hd)
    · -- the queue of another CPU is as it was
      obtain ⟨q, hq, heq⟩ | ⟨hmax, hnone⟩ := h.inv.bookkept.attained d
      · have hq' := (hm.queued_iff hp.1 hd hdd).mpr hq
        have hle := ht.bookkept.highest d q hq'
        rw [hm.prio, heq] at hle
        exact hle.trans (h.highest d hd)
      · obtain ⟨q, hq, -⟩ | ⟨hmax', -⟩ := ht.bookkept.attained d
        · exact absurd ((hm.queued_iff hp.1 hd hdd).mp hq) (hnone q)
        · rw [hmax', ← hmax]
          exact h.highest d hd
  tasks q := by
    have hrest : ∀ r, t.Waiting c r → u.Waiting c r := fun r hr => ((hm.waiting_src hdest).mp hr).1
    by_cases hq : q = p
    · subst hq
      have hsame := h.still hp
      refine .inr ⟨dest, h.waited hp, hdest, by rw [hm.self, hsame], ?_, fun r hr => ?_⟩
      · rw [← hsame]
        exact hlow.trans_le (h.highest dest hdest)
      · rw [← hsame, ← h.still (hrest r hr)]
        exact hbest r (hrest r hr)
    · rw [hm.other hq]
      refine (h.tasks q).imp_right fun ⟨d, hgone⟩ => ⟨d, hgone.waited, hgone.ne, ?_, hgone.better, ?_⟩
      · rw [hm.other hq]
        exact hgone.moved
      · exact fun r hr => hgone.best r (hrest r hr)

/-- One turn: the loop stops for one of the four reasons, or a task is pushed and fewer wait. -/
theorem Pushing.turn (h : Pushing s c u) :
    (∃ t, pushRtTasks c tries u = .inr t ∧ Pushing s c t ∧ ∃ v, Pushless tries c v t) ∨
      ∃ t, pushRtTasks c tries u = .inl t ∧ Pushing s c t ∧ pushLeft c t < pushLeft c u := by
  unfold pushRtTasks pushRtTask
  cases hover : (u.rq c).overloaded with
  | false => exact .inl ⟨u, rfl, h, u, .notOverloaded hover⟩
  | true =>
    rw [if_pos rfl]
    obtain ⟨hempty, heq⟩ | ⟨p, hp, hbest, hpushed⟩ := h.inv.pushNext_cases c ((tries u).take 3)
    · rw [heq]
      refine .inl ⟨u, rfl, h, u, .noneWaits fun q hq => ?_⟩
      have hmem := h.inv.mem_pushable.mpr ⟨hq, rfl⟩
      rw [hempty] at hmem
      cases hmem
    · generalize pushNext u c ((tries u).take 3) = r at hpushed
      cases hpushed with
      | outranks hlt => exact .inl ⟨_, rfl, h.told, u, .outranks hp hlt⟩
      | stuck hfind => exact .inl ⟨u, rfl, h, u, .stuck hp hbest hfind⟩
      | moved hfind =>
        obtain ⟨-, hdest, hlow⟩ := findLockLowestRq_some hfind
        obtain ⟨hinv, hm⟩ := h.inv.push hp _
        refine .inr ⟨_, rfl, h.step hp hbest hdest hlow hinv hm, ?_⟩
        refine Finset.card_lt_card (Finset.ssubset_iff_of_subset ?_ |>.mpr ⟨p, ?_, ?_⟩)
        · intro q hq
          exact h.inv.mem_pushLeft.mpr ((hm.waiting_src hdest).mp (hinv.mem_pushLeft.mp hq)).1
        · exact h.inv.mem_pushLeft.mpr hp
        · exact fun hq => ((hm.waiting_src hdest).mp (hinv.mem_pushLeft.mp hq)).2 rfl

/-- **`push_rt_tasks` ends** in every state that a run reaches, whatever `find_lowest_rq` answers,
as long as no other CPU gets in: only waiting tasks have been moved, each to a CPU all of whose
tasks it outranks, and none that still waits outranks it; and the loop has stopped for one of the
four reasons. -/
theorem pushRtTasks_ends (hboot : Boot s) (h : Reach (fun s op => op.Ok s) exec s t) (c : Cpu)
    (tries : State → List (Option Cpu)) :
    ∃ u, Ends (pushRtTasks c tries) t u ∧ Pushing t c u ∧ ∃ v, Pushless tries c v u :=
  Loop.ends_of_measure (pushLeft c) (fun _ => Pushing.turn) (Pushing.start (run_inv hboot h))

/-- With CPU 1 as the answer, the waiting task goes there and the loop stops. -/
theorem pushRtTasks_ends_crowded : ∃ u, Ends (pushRtTasks 0 fun _ => [some 1]) crowded u ∧
    Pushing crowded 0 u ∧ (u.task 3).cpu = 1 ∧ (u.rq 0).overloaded = false := by
  obtain ⟨u, hends, hpushing, -⟩ := pushRtTasks_ends bootState_boot crowded_reach 0 fun _ => [some 1]
  obtain ⟨v, hv⟩ : ∃ v, Loop.run (pushRtTasks 0 fun _ => [some 1]) 2 crowded = some v :=
    Option.isSome_iff_exists.mp (by decide +kernel)
  have huv : u = v := hends.unique ⟨2, hv⟩
  subst huv
  have hget : ((Loop.run (pushRtTasks 0 fun _ => [some 1]) 2 crowded).map fun u =>
      ((u.task 3).cpu, (u.rq 0).overloaded)) = some (1, false) := by decide +kernel
  rw [hv] at hget
  have heq := Option.some.inj hget
  exact ⟨u, hends, hpushing, congrArg Prod.fst heq, congrArg Prod.snd heq⟩

end LinuxWrr.PushPull
