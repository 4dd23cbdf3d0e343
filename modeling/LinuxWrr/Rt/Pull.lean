import LinuxWrr.Rt.Balance

/-!
# What a pull leaves behind

`pull_rt_task` passes a run queue over when its caches say that nothing there is worth it, and
otherwise takes its lock, for which it may have to drop the lock of its own run queue. Then other
CPUs run. So the loop is followed turn by turn, each turn in a state that any interleaving may
have left.

`pullRtTask_settled`: since the caches are right, a turn leaves no waiting task behind on the other
CPU that outranks all of this CPU's, unless that CPU has a single RT task or is about to switch.
If nobody comes in between, this is so of all CPUs of the root domain when the loop ends.
-/

namespace LinuxWrr.PushPull

variable {s t u : State} {c d thisCpu src : Cpu} {p q : Pid}

/-- Nothing on `src` is worth pulling to `thisCpu`: a single task is queued there, or it is about
to switch to a waiting task, or no candidate outranks what `thisCpu` has. -/
def State.Settled (s : State) (thisCpu src : Cpu) : Prop :=
  (∀ p q, s.Queued src p → s.Queued src q → p = q) ∨
    (∃ p, s.Waiting src p ∧ (s.task p).prio < (s.task (s.rq src).curr).prio) ∨
    ∀ q, s.Candidate src thisCpu q → (s.rq thisCpu).highestCurr ≤ (s.task q).prio

/-- What `pull_rt_task` may move from `src`: a candidate that outranks everything queued here,
but not what runs where it is. -/
structure Pullable (s : State) (thisCpu src : Cpu) (p : Pid) : Prop where
  candidate : s.Candidate src thisCpu p
  better : (s.task p).prio < (s.rq thisCpu).highestCurr
  behind : (s.task (s.rq src).curr).prio ≤ (s.task p).prio

/-- A turn of the loop in the state in which it makes its tests, or in which it has both locks. -/
structure PullTurn (s : State) (thisCpu src : Cpu) : Prop where
  /-- Passed over by one of its two tests, `src` has nothing to offer. -/
  skipped : (s.rq src).online = true → (s.rq src).rd = (s.rq thisCpu).rd →
    (src ∉ (s.rd (s.rq thisCpu).rd).rtoMask ∨
      (s.rq thisCpu).highestCurr ≤ (s.rq src).highestNext) → s.Settled thisCpu src
  /-- With both locks, one task is moved at most, and of that only where it is. -/
  moved : pullLocked s thisCpu src = s ∨
    ∃ p, Pullable s thisCpu src p ∧ Moved s (pullLocked s thisCpu src) p thisCpu
  settled : (pullLocked s thisCpu src).Settled thisCpu src

section Moved

variable {dest : Cpu} (hm : Moved s t p dest)
include hm

/-- The task that is moved changes its CPU and nothing else. -/
theorem Moved.self : t.task p = { s.task p with cpu := dest } := by
  rw [hm.task, Function.update_self]

/-- Every other task stays as it was. -/
theorem Moved.other (hq : q ≠ p) : t.task q = s.task q := by
  rw [hm.task, Function.update_of_ne hq]

/-- Only the cpu of the task is written. -/
theorem Moved.prio (q : Pid) : (t.task q).prio = (s.task q).prio := by
  by_cases hq : q = p
  · rw [hq, hm.self]
  · rw [hm.other hq]

/-- On a third CPU the move changes nothing. -/
theorem Moved.queued_iff (hsrc : s.Queued src p) (hc : c ≠ src) (hd : c ≠ dest) :
    t.Queued c q ↔ s.Queued c q := by
  by_cases hq : q = p
  · subst hq
    refine iff_of_false (fun hin => ?_) fun hin => hc (hin.2.2.symm.trans hsrc.2.2)
    have hcpu := hin.2.2
    rw [hm.self] at hcpu
    exact hd hcpu.symm
  · rw [State.Queued, hm.other hq]
    rfl

/-- Who waits elsewhere does not change. -/
theorem Moved.waiting_iff (hsrc : s.Queued src p) (hc : c ≠ src) (hd : c ≠ dest) :
    t.Waiting c q ↔ s.Waiting c q := by
  have hnr : (t.task q).nrCpusAllowed = (s.task q).nrCpusAllowed := by
    by_cases hq : q = p
    · rw [hq, hm.self]
    · rw [hm.other hq]
  rw [State.Waiting, State.Waiting, hm.queued_iff hsrc hc hd, hm.curr, hnr]

end Moved

/-- A better task brings the cached priority down to its own. -/
theorem Moved.highest (hm : Moved s t p d) (hs : Inv s) (ht : Inv t) (hp : s.Queued src p)
    (hbetter : (s.task p).prio < (s.rq d).highestCurr) : (t.rq d).highestCurr = (s.task p).prio := by
  have hqueued : t.Queued d p := by
    rw [State.Queued, hm.self]
    exact ⟨hp.1, hp.2.1, rfl⟩
  refine Nat.le_antisymm ?_ ?_
  · rw [← hm.prio p]
    exact ht.bookkept.highest d p hqueued
  · obtain ⟨q, hq, heq⟩ | ⟨-, hnone⟩ := ht.bookkept.attained d
    · by_cases hqp : q = p
      · rw [← heq, hqp, hm.prio]
      · -- it was queued here before
        have hq' : s.Queued d q := by
          rw [State.Queued, hm.other hqp] at hq
          exact hq
        have hle := hs.bookkept.highest d q hq'
        rw [← heq, hm.prio]
        exact Nat.le_of_lt (hbetter.trans_le hle)
    · exact absurd hqueued (hnone p)

/-- The caches tell the truth: a run queue that is passed over has nothing to offer. -/
theorem Inv.settled_of_skip (h : Inv s) (honline : (s.rq src).online = true)
    (hrd : (s.rq src).rd = (s.rq thisCpu).rd)
    (hskip : src ∉ (s.rd (s.rq thisCpu).rd).rtoMask ∨
      (s.rq thisCpu).highestCurr ≤ (s.rq src).highestNext) : s.Settled thisCpu src := by
  rcases hskip with hmask | hnext
  · -- not marked: no second task, or nobody who could come
    have hover : ¬(s.rq src).overloaded = true := fun hover =>
      hmask ((h.bookkept.mask _ src).mpr ⟨hrd, honline, hover⟩)
    rw [h.overloaded_iff] at hover
    by_cases hsecond : ∃ p q, s.Queued src p ∧ s.Queued src q ∧ p ≠ q
    · refine .inr (.inr fun q hq => ?_)
      exact absurd ⟨⟨q, hq.1.1, hq.1.2.2⟩, hsecond⟩ hover
    · refine .inl fun p q hp hq => ?_
      by_contra hne
      exact hsecond ⟨p, q, hp, hq, hne⟩
  · refine .inr (.inr fun q hq => hnext.trans ?_)
    exact (h.rep.wait src).next.le q _ (waiting_eq_some.mpr ⟨hq.1, rfl⟩)

/-- The loop body: with both locks it moves the best candidate, if that is worth it, and leaves
nothing behind that would be. -/
theorem Inv.pullLocked_spec (h : Inv s) (thisCpu src : Cpu) :
    ((pullLocked s thisCpu src = s ∧ Inv s) ∨ ∃ p, Pullable s thisCpu src p ∧
        Inv (pullLocked s thisCpu src) ∧ Moved s (pullLocked s thisCpu src) p thisCpu) ∧
      (pullLocked s thisCpu src).Settled thisCpu src := by
  obtain ⟨heq, hstay⟩ | ⟨p, heq, hp, hlow, hbehind, hbest⟩ := h.pullLocked_cases thisCpu src
  · rw [heq]
    refine ⟨.inl ⟨rfl, h⟩, hstay.imp_left fun hfew p q hp hq => ?_⟩
    by_contra hne
    have hmany := (h.bookkept.running src).one_lt_iff.mpr ⟨p, q, hp, hq, hne⟩
    omega
  · rw [heq]
    obtain ⟨hinv, hm⟩ := moveTask_inv h hp.1.1.2.1 (h.notRunning hp.1.1 hp.1.2.1) thisCpu
    refine ⟨.inr ⟨p, ⟨hp, hlow, hbehind⟩, hinv, hm⟩, .inr (.inr fun q hq => ?_)⟩
    -- what is queued here is now as good as the task that has come, the best of them all
    rw [hm.highest h hinv hp.1.1 hlow, hm.prio]
    by_cases hqp : q = p
    · rw [hqp]
    · refine hbest q ?_
      obtain ⟨⟨hqueued, hcurr, hnr⟩, hallowed⟩ := hq
      rw [State.Queued, hm.other hqp] at hqueued
      rw [hm.curr] at hcurr
      rw [hm.other hqp] at hnr hallowed
      exact ⟨⟨hqueued, hcurr, hnr⟩, hallowed⟩

/-- A turn of the loop in any state that a run reaches. -/
theorem Inv.pullTurn (h : Inv s) (thisCpu src : Cpu) : PullTurn s thisCpu src := by
  obtain ⟨hcases, hsettled⟩ := h.pullLocked_spec thisCpu src
  refine ⟨fun honline hrd hskip => h.settled_of_skip honline hrd hskip, ?_, hsettled⟩
  exact hcases.imp (fun hstay => hstay.1) fun ⟨p, hp, _, hm⟩ => ⟨p, hp, hm⟩

/-- A turn of the loop that nobody interrupts settles with its CPU. -/
theorem Inv.pullFrom_spec (h : Inv s) (hsrc : src ≠ thisCpu) :
    ((pullFrom s thisCpu src = s ∧ Inv s) ∨ ∃ p, Pullable s thisCpu src p ∧
        Inv (pullFrom s thisCpu src) ∧ Moved s (pullFrom s thisCpu src) p thisCpu) ∧
      ((s.rq src).online = true → (s.rq src).rd = (s.rq thisCpu).rd →
        (pullFrom s thisCpu src).Settled thisCpu src) := by
  rw [pullFrom]
  by_cases hmask : src ∉ (s.rd (s.rq thisCpu).rd).rtoMask
  · rw [if_pos hmask]
    exact ⟨.inl ⟨rfl, h⟩, fun honline hrd => h.settled_of_skip honline hrd (.inl hmask)⟩
  · rw [if_neg hmask, if_neg fun heq => hsrc heq.symm]
    by_cases hnext : (s.rq thisCpu).highestCurr ≤ (s.rq src).highestNext
    · rw [if_pos hnext]
      exact ⟨.inl ⟨rfl, h⟩, fun honline hrd => h.settled_of_skip honline hrd (.inr hnext)⟩
    · rw [if_neg hnext]
      obtain ⟨hcases, hsettled⟩ := h.pullLocked_spec thisCpu src
      exact ⟨hcases, fun _ _ => hsettled⟩

/-- What is settled stays so while other run queues are looked at. -/
theorem State.Settled.moved (h : s.Settled thisCpu src) (hm : Moved s t p thisCpu) (hs : Inv s)
    (ht : Inv t) (hp : Pullable s thisCpu d p) (hsrc : src ≠ d)
    (hthis : src ≠ thisCpu) : t.Settled thisCpu src := by
  have hqueued : ∀ q, t.Queued src q ↔ s.Queued src q := fun q =>
    hm.queued_iff hp.candidate.1.1 hsrc hthis
  have hwaiting : ∀ q, t.Waiting src q ↔ s.Waiting src q := fun q =>
    hm.waiting_iff hp.candidate.1.1 hsrc hthis
  rcases h with hone | ⟨q, hq, hbefore⟩ | hlow
  · exact .inl fun a b ha hb => hone a b ((hqueued a).mp ha) ((hqueued b).mp hb)
  · refine .inr (.inl ⟨q, (hwaiting q).mpr hq, ?_⟩)
    rw [hm.curr, hm.prio, hm.prio]
    exact hbefore
  · refine .inr (.inr fun q hq => ?_)
    have hqp : q ≠ p := by
      rintro rfl
      have hsame := (hwaiting q).mp hq.1
      exact hsrc (hsame.1.2.2.symm.trans hp.candidate.1.1.2.2)
    have hq' : s.Candidate src thisCpu q := by
      refine ⟨(hwaiting q).mp hq.1, ?_⟩
      have hallowed := hq.2
      rwa [hm.other hqp] at hallowed
    rw [hm.highest hs ht hp.candidate.1.1 hp.better, hm.prio]
    exact (Nat.le_of_lt hp.better).trans (hlow q hq')

/-- Where the loop is: `u` has come from `s` by pulling. -/
structure Pulling (s : State) (thisCpu : Cpu) (u : State) : Prop where
  inv : Inv u
  curr : ∀ d, (u.rq d).curr = (s.rq d).curr
  online : ∀ d, (u.rq d).online = (s.rq d).online
  rd : ∀ d, (u.rq d).rd = (s.rq d).rd
  highest : (u.rq thisCpu).highestCurr ≤ (s.rq thisCpu).highestCurr
  tasks : ∀ p, u.task p = s.task p ∨ ∃ src, src ≠ thisCpu ∧ Pullable s thisCpu src p ∧
    u.task p = { s.task p with cpu := thisCpu }

/-- One more task pulled keeps what the loop has achieved. -/
theorem Pulling.step (h : Pulling s thisCpu u) (hsrc : src ≠ thisCpu) (hp : Pullable u thisCpu src p)
    (ht : Inv t) (hm : Moved u t p thisCpu) : Pulling s thisCpu t where
  inv := ht
  curr d := (hm.curr d).trans (h.curr d)
  online d := (hm.online d).trans (h.online d)
  rd d := (hm.rd d).trans (h.rd d)
  highest := by
    rw [hm.highest h.inv ht hp.candidate.1.1 hp.better]
    exact (Nat.le_of_lt hp.better).trans h.highest
  tasks q := by
    by_cases hq : q = p
    · subst hq
      -- it has not been pulled before, since it is queued elsewhere
      have hsame : u.task q = s.task q := by
        refine (h.tasks q).resolve_right ?_
        rintro ⟨_, -, -, hmoved⟩
        have hcpu := hp.candidate.1.1.2.2
        rw [hmoved] at hcpu
        exact hsrc hcpu.symm
      refine .inr ⟨src, hsrc, ⟨?_, ?_, ?_⟩, by rw [hm.self, hsame]⟩
      · obtain ⟨⟨hqueued, hcurr, hnr⟩, hallowed⟩ := hp.candidate
        rw [State.Queued, hsame] at hqueued
        rw [h.curr] at hcurr
        rw [hsame] at hnr hallowed
        exact ⟨⟨hqueued, hcurr, hnr⟩, hallowed⟩
      · rw [← hsame]
        exact hp.better.trans_le h.highest
      · have hbehind := hp.behind
        rw [h.curr, hsame] at hbehind
        refine le_trans (Nat.le_of_eq ?_) hbehind
        obtain heq | ⟨_, -, -, heq⟩ := h.tasks (s.rq src).curr
        · rw [heq]
        · rw [heq]
    · rw [hm.other hq]
      exact h.tasks q

/-- By induction over the CPUs, the loop settles with all of them. -/
theorem Pulling.loop (h : Pulling s thisCpu u) (cpus : List Cpu) :
    Pulling s thisCpu (cpus.foldl (fun s src => pullFrom s thisCpu src) u) ∧
      ∀ src, src ≠ thisCpu → (s.rq src).online = true → (s.rq src).rd = (s.rq thisCpu).rd →
        u.Settled thisCpu src ∨ src ∈ cpus →
        (cpus.foldl (fun s src => pullFrom s thisCpu src) u).Settled thisCpu src := by
  induction cpus generalizing u with
  | nil => exact ⟨h, fun src _ _ _ hsettled => hsettled.resolve_right List.not_mem_nil⟩
  | cons c cpus ih =>
    rw [List.foldl_cons]
    by_cases hc : c = thisCpu
    · -- it does not pull from itself
      have hskip : pullFrom u thisCpu c = u := by
        rw [pullFrom, if_pos hc.symm]
        exact ite_self _
      rw [hskip]
      obtain ⟨hpulling, hrest⟩ := ih h
      refine ⟨hpulling, fun src hsrc honline hrd hsettled => hrest src hsrc honline hrd ?_⟩
      refine hsettled.imp_right fun hmem => (List.mem_cons.mp hmem).resolve_left fun heq => ?_
      exact hsrc (heq.trans hc)
    · obtain ⟨hcases, hsettle⟩ := h.inv.pullFrom_spec hc
      have hnext : Pulling s thisCpu (pullFrom u thisCpu c) := by
        obtain ⟨heq, -⟩ | ⟨p, hp, hinv, hm⟩ := hcases
        · rw [heq]
          exact h
        · exact h.step hc hp hinv hm
      obtain ⟨hpulling, hrest⟩ := ih hnext
      refine ⟨hpulling, fun src hsrc honline hrd hsettled => hrest src hsrc honline hrd ?_⟩
      by_cases hsrcc : src = c
      · subst hsrcc
        refine .inl (hsettle ?_ ?_)
        · rw [h.online]
          exact honline
        · rw [h.rd, h.rd]
          exact hrd
      · refine hsettled.imp (fun hsettled => ?_) fun hmem => (List.mem_cons.mp hmem).resolve_left hsrcc
        obtain ⟨heq, -⟩ | ⟨p, hp, hinv, hm⟩ := hcases
        · rw [heq]
          exact hsettled
        · exact hsettled.moved hm h.inv hinv hp hsrcc hsrc

theorem Pulling.start (h : Inv s) : Pulling s thisCpu s :=
  ⟨h, fun _ => rfl, fun _ => rfl, fun _ => rfl, Nat.le_refl _, fun _ => .inl rfl⟩

/-- With no run queue of the root domain marked, none of them is worth a look. -/
theorem Inv.settled_of_notOverloaded (h : Inv s) (hover : rtOverloaded s thisCpu = false)
    (honline : (s.rq src).online = true) (hrd : (s.rq src).rd = (s.rq thisCpu).rd) :
    s.Settled thisCpu src := by
  have hcount := h.bookkept.count (s.rq thisCpu).rd
  have hzero : (s.rd (s.rq thisCpu).rd).rtoCount = 0 := not_not.mp (of_decide_eq_false hover)
  have hempty : (s.rd (s.rq thisCpu).rd).rtoMask = ∅ := Finset.card_eq_zero.mp (by omega)
  refine h.settled_of_skip honline hrd (.inl ?_)
  rw [hempty]
  exact Finset.notMem_empty src

/-- The loop without interruption: only tasks worth pulling have come, and nothing worth pulling
is left on any CPU of the root domain that was looked at. -/
theorem Inv.pullRtTask_spec (h : Inv t) (thisCpu : Cpu) (cpus : List Cpu) :
    Pulling t thisCpu (pullRtTask t thisCpu cpus) ∧
      ∀ src ∈ cpus, src ≠ thisCpu → (t.rq src).online = true →
        (t.rq src).rd = (t.rq thisCpu).rd → (pullRtTask t thisCpu cpus).Settled thisCpu src := by
  cases hover : rtOverloaded t thisCpu with
  | false =>
    have hskip : pullRtTask t thisCpu cpus = t := by
      rw [pullRtTask, hover]
      rfl
    rw [hskip]
    refine ⟨Pulling.start h, fun src _ _ honline hrd => ?_⟩
    exact h.settled_of_notOverloaded hover honline hrd
  | true =>
    have hloop : pullRtTask t thisCpu cpus =
        cpus.foldl (fun s src => pullFrom s thisCpu src) t := by
      rw [pullRtTask, hover]
      rfl
    rw [hloop]
    obtain ⟨hpulling, hsettled⟩ := (Pulling.start h).loop cpus
    refine ⟨hpulling, fun src hmem hsrc honline hrd => ?_⟩
    exact hsettled src hsrc honline hrd (.inr hmem)

/-- **A turn of `pull_rt_task`**, in whatever state the interleaving of all CPUs has brought about
when it makes its tests and when it has both locks: a run queue that it passes over has nothing
worth pulling, it moves at most one task and only one worth pulling, and it leaves none behind.
The whole loop does so for all the CPUs of the root domain that it looks at, if no other CPU comes
in between. -/
theorem pullRtTask_settled (hboot : Boot s) (h : Reach (fun s op => op.Ok s) exec s t)
    (thisCpu : Cpu) :
    (∀ src, PullTurn t thisCpu src) ∧ ∀ cpus, Pulling t thisCpu (pullRtTask t thisCpu cpus) ∧
      ∀ src ∈ cpus, src ≠ thisCpu → (t.rq src).online = true →
        (t.rq src).rd = (t.rq thisCpu).rd → (pullRtTask t thisCpu cpus).Settled thisCpu src := by
  have hinv := run_inv hboot h
  exact ⟨hinv.pullTurn thisCpu, hinv.pullRtTask_spec thisCpu⟩

/-- While CPU 1 waits for the lock of CPU 0, the task that it has seen there gets a worse
priority. -/
def demoted : State := exec crowded (.change 3 true 60 false)

theorem demoted_reach : Reach (fun s op => op.Ok s) exec bootState demoted := by
  have hok : (Op.change 3 true 60 false).Ok crowded := fun _ => by decide
  exact crowded_reach.tail hok

/-- CPU 1 pulls the task that waits on CPU 0: at once, or with its new priority. -/
theorem pullRtTask_settled_crowded :
    (Pulling crowded 1 (pullRtTask crowded 1 [0, 1]) ∧ (pullRtTask crowded 1 [0, 1]).Settled 1 0 ∧
      ((pullRtTask crowded 1 [0, 1]).task 3).cpu = 1) ∧
    PullTurn demoted 1 0 ∧ ((pullLocked demoted 1 0).task 3).cpu = 1 ∧
      ((pullLocked demoted 1 0).rq 1).highestCurr = 60 := by
  obtain ⟨-, hloop⟩ := pullRtTask_settled bootState_boot crowded_reach 1
  obtain ⟨hturn, -⟩ := pullRtTask_settled bootState_boot demoted_reach 1
  obtain ⟨hpulling, hsettled⟩ := hloop [0, 1]
  refine ⟨⟨hpulling, ?_, by decide +kernel⟩, hturn 0, by decide +kernel, by decide +kernel⟩
  exact hsettled 0 (by decide) (by decide) (by decide +kernel) (by decide +kernel)

end LinuxWrr.PushPull
