import LinuxWrr.Lib.Census
import LinuxWrr.Rt.PushPull

/-!
# The books of the real-time run queues

What the caches, counters and lists of `rt_rq` and the root domain stand for, and that every
function of the class keeps them so.

- `RqRep`, `WaitRep`: one run queue, over the map from its tasks to their priorities.
- `RtoRep`, `CpupriRep`: the root domains.
- `Rep lvl run s`: all of it; `run` are the tasks kept from the pushable lists, which is the
  current task of every CPU except inside `__schedule`.
-/

namespace LinuxWrr.PushPull

variable {s t : State} {c d : Cpu} {p q : Pid} {k n : Nat}

/-! ## One run queue -/

/-- The queue, its counters and its cached priority, for tasks at the levels `lvl` that may run
on `nr` CPUs. -/
structure RqRep (lvl : Pid → Option Nat) (nr : Pid → Nat) (r : RtRq) : Prop where
  active : r.active.Repr maxRtPrio lvl
  running : Census (fun p => lvl p ≠ none) r.rtNrRunning
  highest : PrioArray.Least maxRtPrio lvl r.highestCurr
  total : Census (fun p => lvl p ≠ none) r.rtNrTotal
  migratory : Census (fun p => lvl p ≠ none ∧ 1 < nr p) r.rtNrMigratory
  overloaded : r.overloaded = true ↔ r.rtNrMigratory ≠ 0 ∧ 1 < r.rtNrTotal

/-- The list of pushable tasks and its cached priority, the tasks in it being those with a
`key`. -/
structure WaitRep (key : Pid → Option Nat) (next : Nat) (l : List (Nat × Pid)) : Prop where
  list : Plist.Repr l key
  next : PrioArray.Least maxRtPrio key next

/-- What `update_rt_migration` makes of the flag. -/
def RtRq.mark (r : RtRq) : RtRq :=
  { r with overloaded := decide (r.rtNrMigratory ≠ 0 ∧ r.rtNrTotal > 1) }

/-- What `__enqueue_rt_entity` makes of the run queue. -/
def RtRq.link (r : RtRq) (p : Pid) (t : RtTask) (head : Bool) : RtRq :=
  RtRq.mark { r with
    active := (r.active.listAddAt head p t.prio).setBit t.prio
    rtNrRunning := r.rtNrRunning + 1
    highestCurr := if t.prio < r.highestCurr then t.prio else r.highestCurr
    rtNrTotal := r.rtNrTotal + 1
    rtNrMigratory := r.rtNrMigratory + PushPull.migratory t }

/-- What `dec_rt_prio` makes of the cached priority. -/
def RtRq.lowered (r : RtRq) (prio : Nat) : Nat :=
  if r.rtNrRunning ≠ 0 then
    if prio = r.highestCurr then r.active.findFirstBit maxRtPrio else r.highestCurr
  else maxRtPrio

/-- What `__dequeue_rt_entity` makes of the run queue. -/
def RtRq.unlink (r : RtRq) (p : Pid) (t : RtTask) : RtRq :=
  RtRq.mark { r with
    active := r.active.unlink p t.prio
    rtNrRunning := r.rtNrRunning - 1
    highestCurr :=
      RtRq.lowered { r with active := r.active.unlink p t.prio, rtNrRunning := r.rtNrRunning - 1 } t.prio
    rtNrTotal := r.rtNrTotal - 1
    rtNrMigratory := r.rtNrMigratory - PushPull.migratory t }

section RqRep

variable {lvl : Pid → Option Nat} {nr : Pid → Nat} {r : RtRq} {t : RtTask}

/-- The mark says that a task may migrate and that there are at least two. -/
theorem mark_overloaded : r.mark.overloaded = true ↔ r.rtNrMigratory ≠ 0 ∧ 1 < r.rtNrTotal :=
  decide_eq_true_iff

/-- The tasks queued after an enqueue are those before it and `p`. -/
theorem update_some_ne_none (q : Pid) :
    Function.update lvl p (some k) q ≠ none ↔ lvl q ≠ none ∨ q = p := by
  by_cases hq : q = p
  · subst hq
    simp
  · simp [hq]

/-- The tasks queued after a dequeue are those before it without `p`. -/
theorem update_none_ne_none (q : Pid) :
    Function.update lvl p none q ≠ none ↔ lvl q ≠ none ∧ q ≠ p := by
  by_cases hq : q = p
  · subst hq
    simp
  · simp [hq]

/-- Linking a task into a queue gives it its level. -/
theorem RqRep.link (h : RqRep lvl nr r) (hp : lvl p = none) (ht : t.prio < maxRtPrio)
    (hnr : t.nrCpusAllowed = nr p) (head : Bool) :
    RqRep (Function.update lvl p (some t.prio)) nr (r.link p t head) where
  active := h.active.enqueue hp ht head
  running := h.running.insert (not_not.mpr hp) update_some_ne_none
  highest := h.highest.insert hp ht
  total := h.total.insert (not_not.mpr hp) update_some_ne_none
  migratory := by
    show Census _ (r.rtNrMigratory + PushPull.migratory t)
    rw [PushPull.migratory, hnr]
    have hmem : ∀ q, Function.update lvl p (some t.prio) q ≠ none ∧ 1 < nr q ↔
        (lvl q ≠ none ∧ 1 < nr q) ∨ q = p ∧ 1 < nr p := by
      intro q
      rw [update_some_ne_none]
      by_cases hq : q = p
      · subst hq
        simp [hp]
      · simp [hq]
    by_cases hone : 1 < nr p
    · rw [if_pos hone]
      refine h.migratory.insert (fun hq => hq.1 hp) fun q => (hmem q).trans ?_
      simp [hone]
    · rw [if_neg hone, Int.add_zero]
      refine h.migratory.congr fun q => (hmem q).trans ?_
      simp [hone]
  overloaded := mark_overloaded

/-- After a task has left, the cached priority is the least level that is left. -/
theorem RqRep.lowered (h : RqRep lvl nr r) (hp : lvl p = some k) :
    PrioArray.Least maxRtPrio (Function.update lvl p none)
      (RtRq.lowered { r with active := r.active.unlink p k, rtNrRunning := r.rtNrRunning - 1 } k) := by
  have hrunning : Census (fun q => Function.update lvl p none q ≠ none) (r.rtNrRunning - 1) :=
    h.running.erase (x := p) (by simp [hp]) update_none_ne_none
  rw [RtRq.lowered]
  dsimp only
  split
  next hsome =>
    split
    next => exact (h.active.dequeue hp).least
    next hne => exact h.highest.erase hp hne
  next hzero =>
    -- nothing is left
    have hnone : ∀ q, Function.update lvl p none q = none := fun q =>
      not_not.mp (hrunning.eq_zero_iff.mp (not_not.mp hzero) q)
    refine ⟨fun q i hq => ?_, .inr ⟨rfl, hnone⟩⟩
    rw [hnone q] at hq
    cases hq

/-- Unlinking a task takes its level away. -/
theorem RqRep.unlink (h : RqRep lvl nr r) (hp : lvl p = some t.prio) (hnr : t.nrCpusAllowed = nr p) :
    RqRep (Function.update lvl p none) nr (r.unlink p t) where
  active := h.active.dequeue hp
  running := h.running.erase (x := p) (by simp [hp]) update_none_ne_none
  highest := h.lowered hp
  total := h.total.erase (x := p) (by simp [hp]) update_none_ne_none
  migratory := by
    show Census _ (r.rtNrMigratory - PushPull.migratory t)
    rw [PushPull.migratory, hnr]
    have hmem : ∀ q, Function.update lvl p none q ≠ none ∧ 1 < nr q ↔
        (lvl q ≠ none ∧ 1 < nr q) ∧ q ≠ p := by
      intro q
      rw [update_none_ne_none]
      exact and_right_comm
    by_cases hone : 1 < nr p
    · rw [if_pos hone]
      exact h.migratory.erase ⟨by simp [hp], hone⟩ hmem
    · rw [if_neg hone, Int.sub_zero]
      refine h.migratory.congr fun q => (hmem q).trans (and_iff_left_of_imp ?_)
      rintro ⟨-, hq⟩ rfl
      exact hone hq
  overloaded := mark_overloaded

/-- The books of a queue do not read its other fields. -/
theorem RqRep.congr {r' : RtRq} (h : RqRep lvl nr r) (hactive : r'.active = r.active)
    (hrunning : r'.rtNrRunning = r.rtNrRunning) (hhighest : r'.highestCurr = r.highestCurr)
    (htotal : r'.rtNrTotal = r.rtNrTotal) (hmigratory : r'.rtNrMigratory = r.rtNrMigratory)
    (hoverloaded : r'.overloaded = r.overloaded) : RqRep lvl nr r' where
  active := hactive ▸ h.active
  running := hrunning ▸ h.running
  highest := hhighest ▸ h.highest
  total := htotal ▸ h.total
  migratory := hmigratory ▸ h.migratory
  overloaded := by
    rw [hoverloaded, hmigratory, htotal]
    exact h.overloaded

/-- What `set_cpus_allowed_rt` does to the counter of migratory tasks. -/
def reweighed (r : RtRq) (old new : Nat) : Int :=
  if old ≤ 1 ∧ 1 < new then r.rtNrMigratory + 1
  else if 1 < old ∧ new ≤ 1 then r.rtNrMigratory - 1
  else r.rtNrMigratory

/-- A queued task may run on another number of CPUs. -/
theorem RqRep.reweigh (h : RqRep lvl nr r) (hp : lvl p ≠ none) (n : Nat) :
    RqRep lvl (Function.update nr p n)
      (RtRq.mark { r with rtNrMigratory := reweighed r (nr p) n }) where
  active := h.active
  running := h.running
  highest := h.highest
  total := h.total
  migratory := by
    show Census _ (reweighed r (nr p) n)
    have hself : ∀ q, q = p → Function.update nr p n q = n := by
      rintro q rfl
      exact Function.update_self _ _ _
    have hother : ∀ q, q ≠ p → Function.update nr p n q = nr q := fun q hq =>
      Function.update_of_ne hq _ _
    rw [reweighed]
    split
    next hup =>
      refine h.migratory.insert (x := p) (fun hq => ?_) fun q => ?_
      · omega
      · by_cases hq : q = p
        · rw [hself q hq, hq]
          simp [hp, hup.2]
        · rw [hother q hq]
          simp [hq]
    next hup =>
      split
      next hdown =>
        refine h.migratory.erase (x := p) ⟨hp, hdown.1⟩ fun q => ?_
        by_cases hq : q = p
        · rw [hself q hq, hq]
          simp [hdown.2]
        · rw [hother q hq]
          simp [hq]
      next hdown =>
        refine h.migratory.congr fun q => and_congr_right fun _ => ?_
        by_cases hq : q = p
        · rw [hself q hq, hq]
          omega
        · rw [hother q hq]
  overloaded := mark_overloaded

/-- A new mask of a task that is not queued here changes nothing. -/
theorem RqRep.reweigh_absent (h : RqRep lvl nr r) (hp : lvl p = none) (n : Nat) :
    RqRep lvl (Function.update nr p n) r := by
  refine ⟨h.active, h.running, h.highest, h.total, h.migratory.congr fun q => ?_, h.overloaded⟩
  by_cases hq : q = p
  · subst hq
    simp [hp]
  · rw [Function.update_of_ne hq]

end RqRep

section WaitRep

variable {key : Pid → Option Nat} {next : Nat} {l : List (Nat × Pid)}

/-- `enqueue_pushable_task` enters the task under its priority. -/
theorem WaitRep.add (h : WaitRep key next l) (hp : key p = none) (hk : k < maxRtPrio) :
    WaitRep (Function.update key p (some k)) (if k < next then k else next)
      (Plist.add k p (Plist.del p l)) :=
  ⟨h.list.add k p, h.next.insert hp hk⟩

/-- `dequeue_pushable_task`: the cache is read off the first task left. -/
theorem WaitRep.del (h : WaitRep key next l) (p : Pid) :
    WaitRep (Function.update key p none) (Plist.firstKey maxRtPrio (Plist.del p l)) (Plist.del p l) :=
  ⟨h.list.del p, (h.list.del p).least _⟩

/-- Deleting what is not in the pushable list changes nothing. -/
theorem WaitRep.del_absent (h : WaitRep key next l) (hp : key p = none) :
    WaitRep key next (Plist.del p l) := by
  rw [h.list.del_absent hp]
  exact h

end WaitRep

/-! ## The root domains -/

/-- A run queue that its root domain counts as overloaded. -/
def State.loaded (s : State) (c : Cpu) : Bool := (s.rq c).online && (s.rq c).overloaded

/-- The masks and counts of the root domains, over the run queues to be marked. -/
structure RtoRep (loaded : Cpu → Bool) (s : State) : Prop where
  mask : ∀ d c, c ∈ (s.rd d).rtoMask ↔ (s.rq c).rd = d ∧ loaded c = true
  count : ∀ d, (s.rd d).rtoCount = (s.rd d).rtoMask.card

/-- `cpupri` knows the best priority of every CPU that is online. -/
def CpupriRep (s : State) : Prop :=
  ∀ c, (s.rq c).online = true → (s.rd (s.rq c).rd).cpupri c = some (s.rq c).highestCurr

/-- `t` comes from `s` by writing `r` to the run queue of `c`, and the root domains follow. -/
structure Touch (s t : State) (c : Cpu) (r : RtRq) : Prop where
  rq : t.rq = Function.update s.rq c r
  task : t.task = s.task
  pushable : t.pushable = s.pushable
  bug : t.bug = s.bug
  rto : RtoRep s.loaded s → RtoRep t.loaded t
  cpupri : CpupriRep s → CpupriRep t

theorem Touch.self {r : RtRq} (h : Touch s t c r) : t.rq c = r := by
  rw [h.rq, Function.update_self]

/-- A state may be touched twice on the same CPU. -/
theorem Touch.trans {u : State} {r r' : RtRq} (h : Touch s t c r) (h' : Touch t u c r') :
    Touch s u c r' where
  rq := by rw [h'.rq, h.rq, Function.update_idem]
  task := h'.task.trans h.task
  pushable := h'.pushable.trans h.pushable
  bug := h'.bug.trans h.bug
  rto hs := h'.rto (h.rto hs)
  cpupri hs := h'.cpupri (h.cpupri hs)

theorem Touch.refl (s : State) (c : Cpu) : Touch s s c (s.rq c) :=
  ⟨(Function.update_eq_self _ _).symm, rfl, rfl, rfl, id, id⟩

/-- A write that the root domains do not record. -/
theorem Touch.updRq (s : State) (c : Cpu) {f : RtRq → RtRq} (honline : (f (s.rq c)).online = (s.rq c).online)
    (hover : (f (s.rq c)).overloaded = (s.rq c).overloaded) (hrd : (f (s.rq c)).rd = (s.rq c).rd)
    (hhighest : (f (s.rq c)).highestCurr = (s.rq c).highestCurr) :
    Touch s (s.updRq c f) c (f (s.rq c)) := by
  have hfield : ∀ {α : Type} (g : RtRq → α), g (f (s.rq c)) = g (s.rq c) →
      ∀ d, g ((s.updRq c f).rq d) = g (s.rq d) := by
    intro α g hg d
    show g (Function.update s.rq c (f (s.rq c)) d) = _
    by_cases hd : d = c
    · subst hd
      rw [Function.update_self, hg]
    · rw [Function.update_of_ne hd]
  refine ⟨rfl, rfl, rfl, rfl, fun hs => ⟨fun e d => ?_, hs.count⟩, fun hs d hd => ?_⟩
  · have hsame : (s.updRq c f).loaded d = s.loaded d := by
      rw [State.loaded, State.loaded, hfield RtRq.online honline, hfield RtRq.overloaded hover]
    rw [hsame, hfield RtRq.rd hrd]
    exact hs.mask e d
  · rw [hfield RtRq.online honline] at hd
    rw [hfield RtRq.rd hrd, hfield RtRq.highestCurr hhighest]
    exact hs d hd

@[simp] theorem bugOn_false (s : State) : s.bugOn false = s := by
  rw [State.bugOn, Bool.or_false]

section Overload

variable {loaded : Cpu → Bool}

/-- Setting the overload bit and raising the counter go together. -/
theorem rtSetOverload_rto (h : RtoRep loaded s) (hc : loaded c = false)
    (honline : (s.rq c).online = true) : RtoRep (Function.update loaded c true) (rtSetOverload s c) := by
  have hnot : c ∉ (s.rd (s.rq c).rd).rtoMask := fun hmem => by
    rw [((h.mask _ c).mp hmem).2] at hc
    cases hc
  rw [rtSetOverload, if_pos honline]
  refine ⟨fun e d => ?_, fun e => ?_⟩
  · show d ∈ (Function.update s.rd _ _ e).rtoMask ↔ (s.rq d).rd = e ∧ _
    by_cases he : e = (s.rq c).rd
    · subst he
      rw [Function.update_self]
      dsimp only
      rw [Finset.mem_insert, h.mask]
      by_cases hd : d = c
      · subst hd
        simp
      · simp [hd]
    · rw [Function.update_of_ne he, h.mask]
      by_cases hd : d = c
      · subst hd
        exact iff_of_false (fun hmem => he hmem.1.symm) fun hmem => he hmem.1.symm
      · rw [Function.update_of_ne hd]
  · show (Function.update s.rd _ _ e).rtoCount = ((Function.update s.rd _ _ e).rtoMask.card : Int)
    by_cases he : e = (s.rq c).rd
    · subst he
      rw [Function.update_self]
      dsimp only
      rw [Finset.card_insert_of_notMem hnot, h.count]
      exact (Int.natCast_succ _).symm
    · rw [Function.update_of_ne he]
      exact h.count e

/-- Clearing the overload bit and lowering the counter go together. -/
theorem rtClearOverload_rto (h : RtoRep loaded s) (hc : loaded c = true)
    (honline : (s.rq c).online = true) :
    RtoRep (Function.update loaded c false) (rtClearOverload s c) := by
  have hmem : c ∈ (s.rd (s.rq c).rd).rtoMask := (h.mask _ c).mpr ⟨rfl, hc⟩
  rw [rtClearOverload, if_pos honline]
  refine ⟨fun e d => ?_, fun e => ?_⟩
  · show d ∈ (Function.update s.rd _ _ e).rtoMask ↔ (s.rq d).rd = e ∧ _
    by_cases he : e = (s.rq c).rd
    · subst he
      rw [Function.update_self]
      dsimp only
      rw [Finset.mem_erase, h.mask]
      by_cases hd : d = c
      · subst hd
        simp
      · simp [hd]
    · rw [Function.update_of_ne he, h.mask]
      by_cases hd : d = c
      · subst hd
        exact iff_of_false (fun hin => he hin.1.symm) fun hin => he hin.1.symm
      · rw [Function.update_of_ne hd]
  · show (Function.update s.rd _ _ e).rtoCount = ((Function.update s.rd _ _ e).rtoMask.card : Int)
    by_cases he : e = (s.rq c).rd
    · subst he
      rw [Function.update_self]
      dsimp only
      have hcard := Finset.card_erase_add_one hmem
      have hcount := h.count (s.rq c).rd
      omega
    · rw [Function.update_of_ne he]
      exact h.count e

/-- Writing the flag of `c` changes who is overloaded at `c` alone. -/
theorem loaded_updRq (b : Bool) : (s.updRq c fun r => { r with overloaded := b }).loaded =
    Function.update s.loaded c ((s.rq c).online && b) := by
  funext d
  show (_ && _) = _
  by_cases hd : d = c
  · subst hd
    rw [Function.update_self]
    simp [State.updRq]
  · rw [Function.update_of_ne hd]
    simp [State.updRq, State.loaded, hd]

/-- Only the root domain changes when a CPU is reported as overloaded. -/
theorem rtSetOverload_cases (s : State) (c : Cpu) : ∃ rd, rtSetOverload s c = { s with rd := rd } ∧
    ∀ d, (rd d).cpupri = (s.rd d).cpupri := by
  rw [rtSetOverload]
  split
  · refine ⟨_, rfl, fun d => ?_⟩
    by_cases hd : d = (s.rq c).rd
    · subst hd
      rw [Function.update_self]
    · rw [Function.update_of_ne hd]
  · exact ⟨s.rd, rfl, fun _ => rfl⟩

/-- Only the root domain changes when a CPU is no longer reported as overloaded. -/
theorem rtClearOverload_cases (s : State) (c : Cpu) : ∃ rd, rtClearOverload s c = { s with rd := rd } ∧
    ∀ d, (rd d).cpupri = (s.rd d).cpupri := by
  rw [rtClearOverload]
  split
  · refine ⟨_, rfl, fun d => ?_⟩
    by_cases hd : d = (s.rq c).rd
    · subst hd
      rw [Function.update_self]
    · rw [Function.update_of_ne hd]
  · exact ⟨s.rd, rfl, fun _ => rfl⟩

/-- The flags are read off the map, the domains off the run queues. -/
theorem RtoRep.updRq {f : RtRq → RtRq} (h : RtoRep loaded s) (hrd : (f (s.rq c)).rd = (s.rq c).rd) :
    RtoRep loaded (s.updRq c f) where
  mask e d := by
    refine (h.mask e d).trans (and_congr_left fun _ => ?_)
    show (s.rq d).rd = e ↔ (Function.update s.rq c (f (s.rq c)) d).rd = e
    by_cases hd : d = c
    · subst hd
      rw [Function.update_self, hrd]
    · rw [Function.update_of_ne hd]
  count := h.count

/-- Only the flag of `c` and the marks of the domains are written. -/
theorem Touch.of_flag {b : Bool} {rd : Nat → RootDomain}
    (hcpupri : ∀ d, (rd d).cpupri = (s.rd d).cpupri)
    (hrto : RtoRep s.loaded s →
      RtoRep (Function.update s.loaded c ((s.rq c).online && b)) { s with rd := rd }) :
    Touch s (({ s with rd := rd } : State).updRq c fun r => { r with overloaded := b }) c
      { s.rq c with overloaded := b } := by
  have hfield : ∀ {α : Type} (g : RtRq → α), g { s.rq c with overloaded := b } = g (s.rq c) →
      ∀ d, g (Function.update s.rq c { s.rq c with overloaded := b } d) = g (s.rq d) := by
    intro α g hg d
    by_cases hd : d = c
    · subst hd
      rw [Function.update_self, hg]
    · rw [Function.update_of_ne hd]
  refine ⟨rfl, rfl, rfl, rfl, fun hs => ?_, fun hs d hd => ?_⟩
  · rw [loaded_updRq]
    exact RtoRep.updRq (hrto hs) rfl
  · have honline : (s.rq d).online = true := (hfield RtRq.online rfl d).symm.trans hd
    show (rd (Function.update s.rq c _ d).rd).cpupri d =
      some (Function.update s.rq c _ d).highestCurr
    rw [hfield RtRq.rd rfl, hfield RtRq.highestCurr rfl, hcpupri]
    exact hs d honline

/-- `update_rt_migration` marks the queue of its CPU. -/
theorem updateRtMigration_touch (s : State) (c : Cpu) :
    Touch s (updateRtMigration s c) c (s.rq c).mark := by
  have hsame : ∀ b, (s.rq c).overloaded = b → ({ s.rq c with overloaded := b } : RtRq) = s.rq c := by
    rintro b rfl
    rfl
  rw [updateRtMigration]
  split
  next hcond =>
    have hmark : (s.rq c).mark = { s.rq c with overloaded := true } := by
      rw [RtRq.mark, decide_eq_true hcond]
    rw [hmark]
    split
    next hover =>
      rw [hsame true hover]
      exact Touch.refl s c
    next hover =>
      have hoff : s.loaded c = false := by
        rw [State.loaded, (Bool.not_eq_true _).mp hover, Bool.and_false]
      obtain ⟨rd, hset, hcpupri⟩ := rtSetOverload_cases s c
      rw [hset]
      refine Touch.of_flag hcpupri fun hs => ?_
      rw [← hset]
      cases honline : (s.rq c).online with
      | true => exact rtSetOverload_rto hs hoff honline
      | false =>
        have hquiet : rtSetOverload s c = s := by
          rw [rtSetOverload, honline]
          rfl
        rw [hquiet, Bool.false_and, ← hoff, Function.update_eq_self]
        exact hs
  next hcond =>
    have hmark : (s.rq c).mark = { s.rq c with overloaded := false } := by
      rw [RtRq.mark, decide_eq_false hcond]
    rw [hmark]
    split
    next hover =>
      obtain ⟨rd, hclear, hcpupri⟩ := rtClearOverload_cases s c
      rw [hclear]
      refine Touch.of_flag hcpupri fun hs => ?_
      rw [← hclear, Bool.and_false]
      cases honline : (s.rq c).online with
      | true =>
        have hon : s.loaded c = true := by
          rw [State.loaded, honline, hover, Bool.and_self]
        exact rtClearOverload_rto hs hon honline
      | false =>
        have hquiet : rtClearOverload s c = s := by
          rw [rtClearOverload, honline]
          rfl
        have hoff : s.loaded c = false := by
          rw [State.loaded, honline, Bool.false_and]
        rw [hquiet, ← hoff, Function.update_eq_self]
        exact hs
    next hover =>
      rw [hsame false ((Bool.not_eq_true _).mp hover)]
      exact Touch.refl s c

end Overload

/-! ## The queue -/

/-- `cpupri` and the overload books are independent. -/
theorem cpupriSet_rto {loaded : Cpu → Bool} (h : RtoRep loaded s) (prio : Option Nat) :
    RtoRep loaded (cpupriSet s c prio) := by
  have hfield : ∀ {α : Type} (g : RootDomain → α),
      (∀ d f, g { d with cpupri := f } = g d) → ∀ e, g ((cpupriSet s c prio).rd e) = g (s.rd e) := by
    intro α g hg e
    show g (Function.update s.rd _ _ e) = _
    by_cases he : e = (s.rq c).rd
    · subst he
      rw [Function.update_self, hg]
    · rw [Function.update_of_ne he]
  refine ⟨fun e d => ?_, fun e => ?_⟩
  · rw [hfield RootDomain.rtoMask fun _ _ => rfl]
    exact h.mask e d
  · rw [hfield RootDomain.rtoCount fun _ _ => rfl, hfield RootDomain.rtoMask fun _ _ => rfl]
    exact h.count e

/-- The entry of `c` is written, the others are not. -/
theorem cpupriSet_cpupri (prio : Option Nat) (e : Nat) (d : Cpu) :
    ((cpupriSet s c prio).rd e).cpupri d =
      if e = (s.rq c).rd ∧ d = c then prio else (s.rd e).cpupri d := by
  show (Function.update s.rd _ _ e).cpupri d = _
  by_cases he : e = (s.rq c).rd
  · subst he
    rw [Function.update_self]
    dsimp only
    by_cases hd : d = c
    · subst hd
      simp
    · simp [hd]
  · rw [Function.update_of_ne he, if_neg fun h => he h.1]

/-- A new cached priority of `c`, which `cpupri` is told of if it has changed. -/
theorem Touch.of_highest {b : Nat} (h : t = s.updRq c fun r => { r with highestCurr := b }) {u : State}
    (hu : u = (if (t.rq c).online ∧ b ≠ (s.rq c).highestCurr then cpupriSet t c (some b) else t)) :
    Touch s u c { s.rq c with highestCurr := b } := by
  have hrq : u.rq = Function.update s.rq c { s.rq c with highestCurr := b } := by
    rw [hu, h]
    split <;> rfl
  have hself : (t.rq c) = { s.rq c with highestCurr := b } := by
    rw [h]
    exact Function.update_self _ _ _
  have hrd : ∀ d, (u.rq d).rd = (s.rq d).rd := by
    intro d
    rw [hrq]
    by_cases hd : d = c
    · subst hd
      rw [Function.update_self]
    · rw [Function.update_of_ne hd]
  refine ⟨hrq, ?_, ?_, ?_, fun hs => ?_, fun hs d hd => ?_⟩
  · rw [hu, h]
    split <;> rfl
  · rw [hu, h]
    split <;> rfl
  · rw [hu, h]
    split <;> rfl
  · have hover : u.loaded = s.loaded := by
      funext d
      rw [State.loaded, State.loaded, hrq]
      by_cases hd : d = c
      · subst hd
        rw [Function.update_self]
      · rw [Function.update_of_ne hd]
    have ht : RtoRep s.loaded t := by
      rw [h]
      exact hs.updRq rfl
    rw [hover, hu]
    split
    · exact cpupriSet_rto ht _
    · exact ht
  · have hd' : (s.rq d).online = true := by
      rw [hrq] at hd
      by_cases hdc : d = c
      · subst hdc
        rwa [Function.update_self] at hd
      · rwa [Function.update_of_ne hdc] at hd
    rw [hrd]
    by_cases hdc : d = c
    · subst hdc
      rw [hrq, Function.update_self, hu]
      split
      next hset =>
        rw [cpupriSet_cpupri, hself, if_pos ⟨rfl, rfl⟩]
      next hset =>
        -- online and not told: nothing has changed
        have hsame : b = (s.rq d).highestCurr := by
          by_contra hne
          refine hset ⟨?_, hne⟩
          rw [hself]
          exact hd'
        rw [h, hsame]
        exact hs d hd'
    · rw [hrq, Function.update_of_ne hdc, hu]
      split
      · rw [cpupriSet_cpupri, if_neg fun he => hdc he.2, h]
        exact hs d hd'
      · rw [h]
        exact hs d hd'

/-- `inc_rt_prio` writes the cached priority of its CPU. -/
theorem incRtPrio_touch (s : State) (c : Cpu) (prio : Nat) : Touch s (incRtPrio s c prio) c
    { s.rq c with
      highestCurr := if prio < (s.rq c).highestCurr then prio else (s.rq c).highestCurr } := by
  refine Touch.of_highest rfl ?_
  rw [incRtPrio, incRtPrioSmp]
  by_cases hlt : prio < (s.rq c).highestCurr
  · simp [hlt, Nat.ne_of_lt hlt, State.updRq]
  · simp [hlt, State.updRq]

/-- `dec_rt_prio` writes the cached priority of its CPU, and warns only if it was worse than the
task's. -/
theorem decRtPrio_touch (prio : Nat)
    (hwarn : (s.rq c).rtNrRunning ≠ 0 → (s.rq c).highestCurr ≤ prio) :
    Touch s (decRtPrio s c prio) c { s.rq c with highestCurr := (s.rq c).lowered prio } := by
  have hupd : (if (s.rq c).rtNrRunning ≠ 0 then
      (s.bugOn (prio < (s.rq c).highestCurr)).updRq c fun r =>
        { r with highestCurr :=
            if prio = r.highestCurr then r.active.findFirstBit maxRtPrio else r.highestCurr }
      else s.updRq c fun r => { r with highestCurr := maxRtPrio }) =
      s.updRq c fun r => { r with highestCurr := (s.rq c).lowered prio } := by
    rw [RtRq.lowered]
    split
    next hsome =>
      have hquiet : decide (prio < (s.rq c).highestCurr) = false :=
        decide_eq_false (Nat.not_lt.mpr (hwarn hsome))
      rw [hquiet, bugOn_false]
      rfl
    next => rfl
  refine Touch.of_highest hupd ?_
  rw [decRtPrio, decRtPrioSmp, hupd]
  simp [State.updRq]

/-- Enqueueing touches the queue of the task's CPU. -/
theorem enqueueRtEntity_touch (hprio : (s.task p).prio < maxRtPrio) (head : Bool) :
    Touch s (enqueueRtEntity s p head) (s.task p).cpu
      ((s.rq (s.task p).cpu).link p (s.task p) head) := by
  have hquiet : decide (maxRtPrio ≤ (s.task p).prio) = false :=
    decide_eq_false (Nat.not_le.mpr hprio)
  have hlink := Touch.updRq s (s.task p).cpu
    (f := fun r => { r with active := (r.active.listAddAt head p (s.task p).prio).setBit (s.task p).prio })
    rfl rfl rfl rfl
  have hcount := Touch.updRq (s.updRq (s.task p).cpu fun r =>
      { r with active := (r.active.listAddAt head p (s.task p).prio).setBit (s.task p).prio })
    (s.task p).cpu (f := fun r => { r with rtNrRunning := r.rtNrRunning + 1 }) rfl rfl rfl rfl
  rw [hlink.self] at hcount
  have hnr := hlink.trans hcount
  have hprio := hnr.trans (incRtPrio_touch _ _ (s.task p).prio)
  rw [hnr.self] at hprio
  have htotal := hprio.trans (Touch.updRq _ (s.task p).cpu (f := fun r =>
    { r with rtNrTotal := r.rtNrTotal + 1, rtNrMigratory := r.rtNrMigratory + migratory (s.task p) })
    rfl rfl rfl rfl)
  rw [hprio.self] at htotal
  have hmark := htotal.trans (updateRtMigration_touch _ _)
  rw [htotal.self] at hmark
  rw [enqueueRtEntity, incRtTasks]
  have htask : (s.updRq (s.task p).cpu fun r =>
      { r with active := (r.active.listAddAt head p (s.task p).prio).setBit (s.task p).prio }).task =
      s.task := rfl
  rw [htask, hquiet, bugOn_false, incRtMigration, hprio.task]
  exact hmark

/-- Dequeueing touches the queue of the task's CPU. -/
theorem dequeueRtEntity_touch (hprio : (s.task p).prio < maxRtPrio)
    (hnr : (s.rq (s.task p).cpu).rtNrRunning ≠ 0)
    (hbest : (s.rq (s.task p).cpu).highestCurr ≤ (s.task p).prio) :
    Touch s (dequeueRtEntity s p) (s.task p).cpu
      ((s.rq (s.task p).cpu).unlink p (s.task p)) := by
  have hunlink := Touch.updRq s (s.task p).cpu
    (f := fun r => { r with active := r.active.unlink p (s.task p).prio }) rfl rfl rfl rfl
  have hquiet : (decide (maxRtPrio ≤ (s.task p).prio) ||
      decide (((s.updRq (s.task p).cpu fun r =>
        { r with active := r.active.unlink p (s.task p).prio }).rq (s.task p).cpu).rtNrRunning = 0)) =
      false := by
    rw [hunlink.self, decide_eq_false (Nat.not_le.mpr hprio), decide_eq_false hnr, Bool.or_false]
  have hcount := hunlink.trans (Touch.updRq _ (s.task p).cpu
    (f := fun r => { r with rtNrRunning := r.rtNrRunning - 1 }) rfl rfl rfl rfl)
  rw [hunlink.self] at hcount
  have hlower := hcount.trans (decRtPrio_touch (s.task p).prio fun _ => by
    rw [hcount.self]
    exact hbest)
  rw [hcount.self] at hlower
  have htotal := hlower.trans (Touch.updRq _ (s.task p).cpu (f := fun r =>
    { r with rtNrTotal := r.rtNrTotal - 1, rtNrMigratory := r.rtNrMigratory - migratory (s.task p) })
    rfl rfl rfl rfl)
  rw [hlower.self] at htotal
  have hmark := htotal.trans (updateRtMigration_touch _ _)
  rw [htotal.self] at hmark
  rw [dequeueRtEntity, decRtTasks]
  have htask : (s.updRq (s.task p).cpu fun r =>
      { r with active := r.active.unlink p (s.task p).prio }).task = s.task := rfl
  rw [htask, hquiet, bugOn_false, decRtMigration, hlower.task]
  exact hmark

/-! ## All of it -/

def State.nr (s : State) (p : Pid) : Nat := (s.task p).nrCpusAllowed

/-- Where a task is pushable: not kept back, and free to go elsewhere. -/
def waiting (lvl : Pid → Option Nat) (nr : Pid → Nat) (run : Option Pid) (p : Pid) : Option Nat :=
  if run ≠ some p ∧ 1 < nr p then lvl p else none

/-- Every run queue stands for the tasks at the levels `lvl`, and the root domains know what they
need. -/
structure Books (lvl : Cpu → Pid → Option Nat) (s : State) : Prop where
  rq : ∀ c, RqRep (lvl c) s.nr (s.rq c)
  rto : RtoRep s.loaded s
  cpupri : CpupriRep s
  place : ∀ c p k, lvl c p = some k → (s.task p).cpu = c ∧ (s.task p).prio = k
  bug : s.bug = false

/-- The pushable lists of all CPUs. -/
def Waits (key : Cpu → Pid → Option Nat) (s : State) : Prop :=
  ∀ c, WaitRep (key c) (s.rq c).highestNext (s.pushable c)

/-- All of it, with the tasks `run` kept back from pushing. -/
structure Rep (lvl : Cpu → Pid → Option Nat) (run : Cpu → Option Pid) (s : State) : Prop
    extends Books lvl s where
  wait : Waits (fun c => waiting (lvl c) s.nr (run c)) s

/-- The levels, with another one for `p` on `c`. -/
def setLvl (lvl : Cpu → Pid → Option Nat) (c : Cpu) (p : Pid) (k : Option Nat) :
    Cpu → Pid → Option Nat := Function.update lvl c (Function.update (lvl c) p k)

section Waiting

variable {lvl : Pid → Option Nat} {nr : Pid → Nat} {run : Option Pid}

/-- Whoever waits is queued, does not run and may run elsewhere. -/
theorem waiting_some (h : waiting lvl nr run p = some k) :
    lvl p = some k ∧ run ≠ some p ∧ 1 < nr p := by
  rw [waiting] at h
  split at h
  next hp => exact ⟨h, hp⟩
  next => cases h

/-- Who is not queued does not wait. -/
theorem waiting_none (hp : lvl p = none) : waiting lvl nr run p = none := by
  rw [waiting, hp]
  exact ite_self _

/-- Another level for a pushable task is another key. -/
theorem waiting_update (hp : run ≠ some p ∧ 1 < nr p) (o : Option Nat) :
    waiting (Function.update lvl p o) nr run = Function.update (waiting lvl nr run) p o := by
  funext q
  by_cases hq : q = p
  · subst hq
    rw [Function.update_self, waiting, if_pos hp, Function.update_self]
  · rw [Function.update_of_ne hq, waiting, waiting, Function.update_of_ne hq]

/-- Another level for a task that is not pushable changes no key. -/
theorem waiting_update_of_not (hp : ¬(run ≠ some p ∧ 1 < nr p)) (o : Option Nat) :
    waiting (Function.update lvl p o) nr run = waiting lvl nr run := by
  funext q
  by_cases hq : q = p
  · subst hq
    rw [waiting, waiting, if_neg hp, if_neg hp]
  · rw [waiting, waiting, Function.update_of_ne hq]

/-- A task that is taken off waits nowhere. -/
theorem waiting_update_none : waiting (Function.update lvl p none) nr run =
    Function.update (waiting lvl nr run) p none := by
  by_cases hp : run ≠ some p ∧ 1 < nr p
  · exact waiting_update hp none
  · rw [waiting_update_of_not hp]
    refine (Function.update_eq_self_iff.mpr ?_).symm
    rw [waiting, if_neg hp]

variable {lvls : Cpu → Pid → Option Nat} {runs : Cpu → Option Pid}

/-- Over all CPUs, another level for a pushable task is another key on its CPU. -/
theorem waiting_setLvl (hp : runs c ≠ some p ∧ 1 < nr p) (o : Option Nat) :
    (fun d => waiting (setLvl lvls c p o d) nr (runs d)) =
      setLvl (fun d => waiting (lvls d) nr (runs d)) c p o := by
  funext d
  by_cases hd : d = c
  · subst hd
    rw [setLvl, Function.update_self, setLvl, Function.update_self]
    exact waiting_update hp o
  · rw [setLvl, Function.update_of_ne hd, setLvl, Function.update_of_ne hd]

/-- A task that runs or is bound to its CPU never shows among those that wait. -/
theorem waiting_setLvl_of_not (hp : ¬(runs c ≠ some p ∧ 1 < nr p)) (o : Option Nat) :
    (fun d => waiting (setLvl lvls c p o d) nr (runs d)) = fun d => waiting (lvls d) nr (runs d) := by
  funext d
  by_cases hd : d = c
  · subst hd
    rw [setLvl, Function.update_self]
    exact waiting_update_of_not hp o
  · rw [setLvl, Function.update_of_ne hd]

/-- A task that leaves the queue no longer waits. -/
theorem waiting_setLvl_none : (fun d => waiting (setLvl lvls c p none d) nr (runs d)) =
    setLvl (fun d => waiting (lvls d) nr (runs d)) c p none := by
  funext d
  by_cases hd : d = c
  · subst hd
    rw [setLvl, Function.update_self, setLvl, Function.update_self]
    exact waiting_update_none
  · rw [setLvl, Function.update_of_ne hd, setLvl, Function.update_of_ne hd]

end Waiting

section Books

variable {lvl key : Cpu → Pid → Option Nat} {run : Cpu → Option Pid} {r : RtRq} {o : Option Nat}

@[simp] theorem setLvl_self : setLvl lvl c p o c = Function.update (lvl c) p o :=
  Function.update_self _ _ _

theorem setLvl_of_ne (hd : d ≠ c) : setLvl lvl c p o d = lvl d := Function.update_of_ne hd _ _

/-- A task is queued on one CPU only. -/
theorem Books.elsewhere (h : Books lvl s) (hp : lvl c p = some k) (hd : d ≠ c) : lvl d p = none := by
  by_contra hsome
  obtain ⟨j, hj⟩ := Option.ne_none_iff_exists'.mp hsome
  exact hd ((h.place d p j hj).1.symm.trans (h.place c p k hp).1)

/-- The list head of a task tells whether it is queued on its CPU. -/
theorem Books.onRtRq_iff (h : Books lvl s) : onRtRq s p = true ↔ lvl (s.task p).cpu p ≠ none :=
  (h.rq (s.task p).cpu).active.linked_iff p

/-- Another run queue for `c`, over other levels there. -/
theorem Books.touch (h : Books lvl s) (ht : Touch s t c r)
    (hr : RqRep (Function.update (lvl c) p o) s.nr r)
    (hplace : ∀ k, o = some k → (s.task p).cpu = c ∧ (s.task p).prio = k) :
    Books (setLvl lvl c p o) t where
  rq d := by
    have hnr : t.nr = s.nr := funext fun q => congrArg (fun f => (f q).nrCpusAllowed) ht.task
    rw [hnr, ht.rq]
    by_cases hd : d = c
    · subst hd
      rw [setLvl_self, Function.update_self]
      exact hr
    · rw [setLvl_of_ne hd, Function.update_of_ne hd]
      exact h.rq d
  rto := ht.rto h.rto
  cpupri := ht.cpupri h.cpupri
  place d q k hq := by
    rw [ht.task]
    by_cases hd : d = c
    · subst hd
      rw [setLvl_self] at hq
      by_cases hqp : q = p
      · subst hqp
        rw [Function.update_self] at hq
        exact hplace k hq
      · rw [Function.update_of_ne hqp] at hq
        exact h.place d q k hq
    · rw [setLvl_of_ne hd] at hq
      exact h.place d q k hq
  bug := ht.bug.trans h.bug

/-- What happens to the lists of a queue leaves the pushable lists alone. -/
theorem Waits.touch (h : Waits key s) (ht : Touch s t c r)
    (hnext : r.highestNext = (s.rq c).highestNext) : Waits key t := by
  intro d
  rw [ht.pushable, ht.rq]
  by_cases hd : d = c
  · subst hd
    rw [Function.update_self, hnext]
    exact h d
  · rw [Function.update_of_ne hd]
    exact h d

/-- Enqueueing keeps the books, and the pushable lists with them. -/
theorem Books.enqueueRtEntity (h : Books lvl s) (hc : (s.task p).cpu = c) (hp : lvl c p = none)
    (hprio : (s.task p).prio < maxRtPrio) (head : Bool) :
    Books (setLvl lvl c p (some (s.task p).prio)) (PushPull.enqueueRtEntity s p head) ∧
      ∀ key, Waits key s → Waits key (PushPull.enqueueRtEntity s p head) := by
  subst hc
  have ht := enqueueRtEntity_touch hprio head
  refine ⟨h.touch ht ((h.rq _).link hp hprio rfl head) fun k hk => ⟨rfl, ?_⟩,
    fun key hw => hw.touch ht rfl⟩
  exact Option.some.inj hk

/-- Dequeueing keeps the books, and the pushable lists with them. -/
theorem Books.dequeueRtEntity (h : Books lvl s) (hp : lvl c p = some k) :
    Books (setLvl lvl c p none) (PushPull.dequeueRtEntity s p) ∧
      ∀ key, Waits key s → Waits key (PushPull.dequeueRtEntity s p) := by
  obtain ⟨rfl, rfl⟩ := h.place c p k hp
  have hrq := h.rq (s.task p).cpu
  have hnr : (s.rq (s.task p).cpu).rtNrRunning ≠ 0 := fun hzero =>
    hrq.running.eq_zero_iff.mp hzero p (by rw [hp]; exact Option.some_ne_none _)
  have ht := dequeueRtEntity_touch (hrq.active.level_lt p _ hp) hnr (hrq.highest.le p _ hp)
  exact ⟨h.touch ht (hrq.unlink hp rfl) (fun k hk => nomatch hk), fun key hw => hw.touch ht rfl⟩

/-! ## The pushable lists -/

/-- The books do not read the lists and caches of pushable tasks. -/
theorem Books.pushable (h : Books lvl s) (l : Cpu → List (Nat × Pid)) (n : Nat) :
    Books lvl (({ s with pushable := l } : State).updRq c fun r => { r with highestNext := n }) := by
  have ht := Touch.updRq s c (f := fun r => { r with highestNext := n }) rfl rfl rfl rfl
  refine ⟨fun d => ?_, ⟨(ht.rto h.rto).mask, (ht.rto h.rto).count⟩, ht.cpupri h.cpupri, h.place, h.bug⟩
  show RqRep (lvl d) s.nr (Function.update s.rq c { s.rq c with highestNext := n } d)
  by_cases hd : d = c
  · subst hd
    rw [Function.update_self]
    exact (h.rq d).congr rfl rfl rfl rfl rfl rfl
  · rw [Function.update_of_ne hd]
    exact h.rq d

/-- A task added to a pushable list waits there under its priority. -/
theorem Waits.enqueuePushableTask (h : Waits key s) (hp : ∀ d, key d p = none)
    (hprio : (s.task p).prio < maxRtPrio) (c : Cpu) :
    Waits (setLvl key c p (some (s.task p).prio)) (PushPull.enqueuePushableTask s c p) := by
  intro d
  show WaitRep _ (Function.update s.rq c _ d).highestNext
    (Function.update (fun d => Plist.del p (s.pushable d)) c _ d)
  by_cases hd : d = c
  · subst hd
    rw [setLvl_self, Function.update_self, Function.update_self]
    exact (h d).add (hp d) hprio
  · rw [setLvl_of_ne hd, Function.update_of_ne hd, Function.update_of_ne hd]
    exact (h d).del_absent (hp d)

/-- A task taken from its pushable list waits nowhere. -/
theorem Waits.dequeuePushableTask (h : Waits key s) (hp : ∀ d, d ≠ c → key d p = none)
    (hprio : ∀ q k, key c q = some k → (s.task q).prio = k) :
    Waits (setLvl key c p none) (PushPull.dequeuePushableTask s c p) := by
  intro d
  show WaitRep _ (Function.update s.rq c _ d).highestNext (Plist.del p (s.pushable d))
  by_cases hd : d = c
  · subst hd
    have hdel := (h d).del p
    -- the cache is read off the task, not off its entry
    have hfirst : firstPrio s.task (Plist.del p (s.pushable d)) =
        Plist.firstKey maxRtPrio (Plist.del p (s.pushable d)) := by
      cases hl : Plist.del p (s.pushable d) with
      | nil => rfl
      | cons e l =>
        have hmem : (e.1, e.2) ∈ Plist.del p (s.pushable d) := by
          rw [hl]
          exact List.mem_cons_self
        exact hprio e.2 e.1 (((h d).list.mem_iff e.1 e.2).mp (Plist.mem_del.mp hmem).1)
    rw [setLvl_self, Function.update_self]
    refine ⟨hdel.list, ?_⟩
    show PrioArray.Least maxRtPrio _ (firstPrio s.task (Plist.del p (s.pushable d)))
    rw [hfirst]
    exact hdel.next
  · rw [setLvl_of_ne hd, Function.update_of_ne hd]
    exact (h d).del_absent (hp d hd)

end Books

/-! ## The class hooks -/

/-- What the books do not change. -/
structure Kept (s t : State) : Prop where
  task : t.task = s.task
  curr : ∀ d, (t.rq d).curr = (s.rq d).curr
  online : ∀ d, (t.rq d).online = (s.rq d).online
  rd : ∀ d, (t.rq d).rd = (s.rq d).rd

theorem Kept.refl (s : State) : Kept s s := ⟨rfl, fun _ => rfl, fun _ => rfl, fun _ => rfl⟩

theorem Kept.trans {u : State} (h : Kept s t) (h' : Kept t u) : Kept s u :=
  ⟨h'.task.trans h.task, fun d => (h'.curr d).trans (h.curr d),
    fun d => (h'.online d).trans (h.online d), fun d => (h'.rd d).trans (h.rd d)⟩

/-- Rewriting a queue without its current task, its state and its domain keeps these. -/
theorem Kept.of_update {r : RtRq} (htask : t.task = s.task) (hrq : t.rq = Function.update s.rq c r)
    (hcurr : r.curr = (s.rq c).curr) (honline : r.online = (s.rq c).online)
    (hrd : r.rd = (s.rq c).rd) : Kept s t := by
  have hfield : ∀ {α : Type} (g : RtRq → α), g r = g (s.rq c) → ∀ d, g (t.rq d) = g (s.rq d) := by
    intro α g hg d
    rw [hrq]
    by_cases hd : d = c
    · subst hd
      rw [Function.update_self, hg]
    · rw [Function.update_of_ne hd]
  exact ⟨htask, hfield RtRq.curr hcurr, hfield RtRq.online honline, hfield RtRq.rd hrd⟩

section Hooks

variable {lvl : Cpu → Pid → Option Nat} {run : Cpu → Option Pid}

/-- Pushable lists are not among what is kept. -/
theorem enqueuePushableTask_kept (s : State) (c : Cpu) (p : Pid) :
    Kept s (enqueuePushableTask s c p) :=
  Kept.of_update (c := c) rfl rfl rfl rfl rfl

/-- Taking a task from a pushable list keeps all that matters elsewhere. -/
theorem dequeuePushableTask_kept (s : State) (c : Cpu) (p : Pid) :
    Kept s (dequeuePushableTask s c p) :=
  Kept.of_update (c := c) rfl rfl rfl rfl rfl

theorem Kept.nr (h : Kept s t) : t.nr = s.nr :=
  funext fun q => congrArg (fun f : Pid → RtTask => (f q).nrCpusAllowed) h.task

/-- The key of a pushable task is its priority. -/
theorem Books.waiting_prio (h : Books lvl s) {o : Option Pid}
    (hq : waiting (lvl c) s.nr o q = some k) : (s.task q).prio = k :=
  (h.place c q k (waiting_some hq).1).2

/-- `enqueue_task_rt` gives the task its level on the CPU and nothing else. -/
theorem Rep.enqueueTaskRt (h : Rep lvl run s) (hc : (s.task p).cpu = c) (hp : ∀ d, lvl d p = none)
    (hprio : (s.task p).prio < maxRtPrio) (hrun : run c = some (s.rq c).curr) (head : Bool) :
    Rep (setLvl lvl c p (some (s.task p).prio)) run (PushPull.enqueueTaskRt s c p head) ∧
      Kept s (PushPull.enqueueTaskRt s c p head) := by
  have hoff : dequeueRtStack s p = s := by
    have hnot : ¬onRtRq s p = true := fun hon => h.onRtRq_iff.mp hon (hp _)
    rw [dequeueRtStack, if_neg hnot]
  obtain ⟨hbooks, hwaits⟩ := h.toBooks.enqueueRtEntity hc (hp c) hprio head
  have hkept : Kept s (enqueueRtEntity s p head) := by
    subst hc
    have ht := enqueueRtEntity_touch hprio head
    exact Kept.of_update ht.task ht.rq rfl rfl rfl
  have htest : (!taskCurrent (enqueueRtEntity s p head) c p) = true ∧
      ((enqueueRtEntity s p head).task p).nrCpusAllowed > 1 ↔ run c ≠ some p ∧ 1 < s.nr p := by
    rw [hrun, hkept.task, taskCurrent, hkept.curr]
    simp [State.nr]
  rw [PushPull.enqueueTaskRt, hoff]
  split
  next hpush =>
    have hkept' := hkept.trans (enqueuePushableTask_kept (enqueueRtEntity s p head) c p)
    refine ⟨⟨hbooks.pushable _ _, ?_⟩, hkept'⟩
    have hadd := (hwaits _ h.wait).enqueuePushableTask (fun d => waiting_none (hp d))
      (hkept.task ▸ hprio) c
    rw [hkept.task] at hadd
    rw [hkept'.nr, waiting_setLvl (htest.mp hpush)]
    exact hadd
  next hpush =>
    refine ⟨⟨hbooks, ?_⟩, hkept⟩
    rw [hkept.nr, waiting_setLvl_of_not fun hp' => hpush (htest.mpr hp')]
    exact hwaits _ h.wait

/-- `dequeue_task_rt` takes the level of the task away and nothing else. -/
theorem Rep.dequeueTaskRt (h : Rep lvl run s) (hp : lvl c p = some k) :
    Rep (setLvl lvl c p none) run (PushPull.dequeueTaskRt s c p) ∧
      Kept s (PushPull.dequeueTaskRt s c p) := by
  obtain ⟨hcpu, hprio⟩ := h.place c p k hp
  have hon : onRtRq s p = true := h.onRtRq_iff.mpr (by rw [hcpu, hp]; exact Option.some_ne_none k)
  obtain ⟨hbooks, hwaits⟩ := h.toBooks.dequeueRtEntity hp
  have hkept : Kept s (dequeueRtEntity s p) := by
    subst hcpu hprio
    have hrq := h.rq (s.task p).cpu
    have hnr : (s.rq (s.task p).cpu).rtNrRunning ≠ 0 := fun hzero =>
      hrq.running.eq_zero_iff.mp hzero p (by rw [hp]; exact Option.some_ne_none _)
    have ht := dequeueRtEntity_touch (hrq.active.level_lt p _ hp) hnr (hrq.highest.le p _ hp)
    exact Kept.of_update ht.task ht.rq rfl rfl rfl
  rw [PushPull.dequeueTaskRt, dequeueRtStack, if_pos hon]
  have hkept' := hkept.trans (dequeuePushableTask_kept (dequeueRtEntity s p) c p)
  refine ⟨⟨hbooks.pushable _ _, ?_⟩, hkept'⟩
  have hdel := (hwaits _ h.wait).dequeuePushableTask (c := c) (p := p)
    (fun d hd => waiting_none (h.elsewhere hp hd)) fun q j hq => by
      rw [hkept.task]
      exact h.waiting_prio hq
  rw [hkept'.nr, waiting_setLvl_none]
  exact hdel

end Hooks

end LinuxWrr.PushPull
