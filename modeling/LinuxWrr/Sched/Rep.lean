import LinuxWrr.Sched.Core

/-!
# What the run queues are for

Every run queue keeps three copies of one fact: which task is queued, in which class,
at which level. The lists, the bitmaps and the counters are all functions of it. This
file states the fact once, as a map from tasks to *slots*, and shows that each class's
enqueue and dequeue update every copy together.

- `Slot`: a scheduling class, a cpu and a level.
- `slotOf`: the slot the data of a task ask for; the level is `rt_priority` mapped by
  the WRR file's `wrr_se_prio`, or the effective priority for the RT class.
- `RqRep m c r`: the run queue `r` of cpu `c` represents the map `m`.
- `Rep s m`: every run queue of `s` does.
- `Rep.enqueueTask`, `Rep.dequeueTask`: **the class hooks refine the map updates**
  `m[p := slotOf p]` and `m[p := none]`.
- `Frame s t`: the two states differ in queues, counters and accounting only.
-/

namespace LinuxWrr

/-- Where a task can be linked. -/
structure Slot where
  schedClass : ClassId
  cpu : Cpu
  level : Nat
  deriving DecidableEq, Repr

/-- The index map of the WRR file that is built. -/
def wrrLevel (cfg : Config) : Task → Nat :=
  match cfg.wrr with
  | .basic => Basic.wrrSePrio
  | .rmlfq => Rmlfq.wrrSePrio

/-- The queue index the class of `t` uses for `t`. -/
def seLevel (cfg : Config) (t : Task) : Nat :=
  match t.schedClass with
  | .wrr => wrrLevel cfg t
  | .rt => Rt.rtSePrio t
  | _ => 0

/-- The slot the fields of `t` ask for. -/
def slotOf (cfg : Config) (t : Task) : Slot := ⟨t.schedClass, t.cpu, seLevel cfg t⟩

/-- A slot depends on the class, the cpu and the two priorities only. -/
theorem slotOf_congr (cfg : Config) {f g : Task} (hclass : f.schedClass = g.schedClass)
    (hcpu : f.cpu = g.cpu) (hrt : f.rtPriority = g.rtPriority) (hprio : f.prio = g.prio) :
    slotOf cfg f = slotOf cfg g := by
  have hwrr : wrrLevel cfg f = wrrLevel cfg g := by
    unfold wrrLevel
    cases cfg.wrr
    · exact hrt
    · show 99 - f.rtPriority = 99 - g.rtPriority
      rw [hrt]
  have hrtl : Rt.rtSePrio f = Rt.rtSePrio g := by rw [Rt.rtSePrio, hprio, Rt.rtSePrio]
  have hlevel : seLevel cfg f = seLevel cfg g := by
    unfold seLevel
    rw [hclass, hwrr, hrtl]
  rw [slotOf, hclass, hcpu, hlevel, slotOf]

/-- The level of a slot, seen from class `k` of cpu `c`. -/
def slotLevel (k : ClassId) (c : Cpu) (x : Option Slot) : Option Nat :=
  x.bind fun x => if x.schedClass = k ∧ x.cpu = c then some x.level else none

/-- The part of a slot map that concerns class `k` of cpu `c`. -/
def levelAt (m : Pid → Option Slot) (k : ClassId) (c : Cpu) (p : Pid) : Option Nat :=
  slotLevel k c (m p)

@[simp] theorem slotLevel_none (k : ClassId) (c : Cpu) : slotLevel k c none = none := rfl

@[simp] theorem slotLevel_self (k : ClassId) (c : Cpu) (i : Nat) :
    slotLevel k c (some ⟨k, c, i⟩) = some i := by
  simp [slotLevel]

theorem slotLevel_eq_some {k : ClassId} {c : Cpu} {x : Option Slot} {i : Nat} :
    slotLevel k c x = some i ↔ x = some ⟨k, c, i⟩ := by
  cases x with
  | none => simp
  | some x =>
    obtain ⟨k', c', j⟩ := x
    simp only [slotLevel, Option.bind_some, Option.ite_none_right_eq_some, Option.some.injEq,
      Slot.mk.injEq, and_assoc]

theorem slotLevel_of_class_ne {k k' : ClassId} (h : k' ≠ k) (c c' : Cpu) (i : Nat) :
    slotLevel k c (some ⟨k', c', i⟩) = none := by
  simp [slotLevel, h]

theorem slotLevel_of_cpu_ne {c c' : Cpu} (h : c' ≠ c) (k k' : ClassId) (i : Nat) :
    slotLevel k c (some ⟨k', c', i⟩) = none := by
  simp [slotLevel, h]

/-- Rewriting a slot changes the level of its task. -/
theorem levelAt_update (m : Pid → Option Slot) (p : Pid) (x : Option Slot) (k : ClassId)
    (c : Cpu) : levelAt (Function.update m p x) k c
      = Function.update (levelAt m k c) p (slotLevel k c x) := by
  funext q
  by_cases hq : q = p
  · subst hq
    simp [levelAt]
  · simp [levelAt, hq]

/-- An update that class `k` of cpu `c` cannot see. -/
theorem levelAt_update_of_eq {m : Pid → Option Slot} {p : Pid} {x : Option Slot} {k : ClassId}
    {c : Cpu} (h : slotLevel k c x = levelAt m k c p) :
    levelAt (Function.update m p x) k c = levelAt m k c := by
  rw [levelAt_update, h, Function.update_eq_self]

/-! ## Class queues that represent a map from tasks to levels -/

structure WrrRep (lvl : Pid → Option Nat) (w : WrrRq) : Prop where
  active : w.active.Repr maxWrrPrio lvl
  nr : w.wrrNrRunning = w.active.size maxWrrPrio
  leaf : w.onLeafList = true ↔ w.wrrNrRunning ≠ 0

structure RtRep (lvl : Pid → Option Nat) (r : RtRq) : Prop where
  active : r.active.Repr maxRtPrio lvl
  nr : r.rtNrRunning = r.active.size maxRtPrio

structure CfsRep (lvl : Pid → Option Nat) (f : CfsRq) : Prop where
  nodup : f.tasks.Nodup
  mem : ∀ p, p ∈ f.tasks ↔ lvl p ≠ none
  nr : f.hNrRunning = f.tasks.length

/-- Only the stop task of the cpu can be queued in its stop class. -/
def StopRep (lvl : Pid → Option Nat) (stop : Option Pid) : Prop :=
  ∀ p, lvl p ≠ none → stop = some p

/-- How many stop tasks are queued: none or one. -/
def stopNr (lvl : Pid → Option Nat) (stop : Option Pid) : Int :=
  match stop with
  | none => 0
  | some p => if lvl p = none then 0 else 1

section ClassQueues

variable {lvl : Pid → Option Nat} {p : Pid} {i j : Nat}

/-- The counter of the WRR queue is zero exactly when no WRR task is queued. -/
theorem WrrRep.nr_eq_zero_iff {w : WrrRq} (h : WrrRep lvl w) :
    w.wrrNrRunning = 0 ↔ ∀ p, lvl p = none := by
  rw [h.nr, ← h.active.size_eq_zero_iff]
  exact Int.natCast_eq_zero

/-- The RT counter is zero exactly when no task has a level. -/
theorem RtRep.nr_eq_zero_iff {r : RtRq} (h : RtRep lvl r) :
    r.rtNrRunning = 0 ↔ ∀ p, lvl p = none := by
  rw [h.nr, ← h.active.size_eq_zero_iff]
  exact Int.natCast_eq_zero

/-- The fair list is empty exactly when no task is queued. -/
theorem CfsRep.nr_eq_zero_iff {f : CfsRq} (h : CfsRep lvl f) :
    f.tasks.length = 0 ↔ ∀ p, lvl p = none := by
  rw [List.length_eq_zero_iff, List.eq_nil_iff_forall_not_mem]
  refine forall_congr' fun p => ?_
  rw [h.mem, not_not]

/-- The stop task is not counted exactly when it is not queued. -/
theorem stopNr_eq_zero_iff {stop : Option Pid} (h : StopRep lvl stop) :
    stopNr lvl stop = 0 ↔ ∀ p, lvl p = none := by
  constructor
  · intro hz p
    by_contra hp
    rw [h p hp] at hz
    simp [stopNr, hp] at hz
  · intro hn
    cases stop with
    | none => rfl
    | some p => simp [stopNr, hn p]

theorem stopNr_nonneg (lvl : Pid → Option Nat) (stop : Option Pid) : 0 ≤ stopNr lvl stop := by
  unfold stopNr
  cases stop with
  | none => exact Int.le_refl 0
  | some p =>
    dsimp only
    split <;> omega

/-- `enqueue_wrr_entity`: link the task, set its bit, count it, and see that the queue
is on the leaf list. -/
theorem WrrRep.enqueue {w : WrrRq} (h : WrrRep lvl w) (hp : lvl p = none) (hi : i < maxWrrPrio)
    (head : Bool) :
    WrrRep (Function.update lvl p (some i))
      { active := (w.active.listAddAt head p i).setBit i
        wrrNrRunning := w.wrrNrRunning + 1
        onLeafList := if w.wrrNrRunning = 0 then true else w.onLeafList } where
  active := h.active.enqueue hp hi head
  nr := by
    rw [PrioArray.size_congr (PrioArray.setBit_queue i _), PrioArray.size_listAddAt head p hi]
    have := h.nr
    push_cast
    omega
  leaf := by
    have hnr := h.nr
    have hleaf := h.leaf
    dsimp only
    split
    · simp only [true_iff]
      omega
    next hne =>
      rw [hleaf]
      omega

/-- `dequeue_wrr_entity` takes the level of the task away. -/
theorem WrrRep.dequeue {w : WrrRq} (h : WrrRep lvl w) (hp : lvl p = some i) :
    WrrRep (Function.update lvl p none)
      { active := w.active.unlink p i
        wrrNrRunning := w.wrrNrRunning - 1
        onLeafList := if w.wrrNrRunning - 1 = 0 then false else w.onLeafList } where
  active := h.active.dequeue hp
  nr := by
    have hsize := h.active.size_dequeue hp
    have hnr := h.nr
    dsimp only
    omega
  leaf := by
    have hsize := h.active.size_dequeue hp
    have hnr := h.nr
    have hleaf := h.leaf
    dsimp only
    split
    next hz => simp [hz]
    next hz =>
      rw [hleaf]
      omega

/-- A change of the array that keeps the number of links. -/
theorem WrrRep.setActive {w : WrrRq} (h : WrrRep lvl w) {lvl' : Pid → Option Nat}
    {a : PrioArray Pid} (ha : a.Repr maxWrrPrio lvl')
    (hsize : a.size maxWrrPrio = w.active.size maxWrrPrio) :
    WrrRep lvl' { w with active := a } where
  active := ha
  nr := by
    rw [hsize]
    exact h.nr
  leaf := h.leaf

/-- Linking an RT task gives it its level. -/
theorem RtRep.enqueue {r : RtRq} (h : RtRep lvl r) (hp : lvl p = none) (hi : i < maxRtPrio)
    (head : Bool) (highest : Nat) :
    RtRep (Function.update lvl p (some i))
      { r with
        active := (r.active.listAddAt head p i).setBit i
        rtNrRunning := r.rtNrRunning + 1
        highestPrio := highest } where
  active := h.active.enqueue hp hi head
  nr := by
    rw [PrioArray.size_congr (PrioArray.setBit_queue i _), PrioArray.size_listAddAt head p hi]
    have := h.nr
    push_cast
    omega

/-- Unlinking an RT task takes its level away. -/
theorem RtRep.dequeue {r : RtRq} (h : RtRep lvl r) (hp : lvl p = some i) (highest : Nat) :
    RtRep (Function.update lvl p none)
      { r with
        active := r.active.unlink p i
        rtNrRunning := r.rtNrRunning - 1
        highestPrio := highest } where
  active := h.active.dequeue hp
  nr := by
    have hsize := h.active.size_dequeue hp
    have hnr := h.nr
    dsimp only
    omega

/-- Requeueing an RT task changes no level. -/
theorem RtRep.rotate {r : RtRq} (h : RtRep lvl r) (hp : lvl p = some i) (head : Bool) :
    RtRep lvl { r with active := (r.active.listDelInit p).listAddAt head p i } where
  active := h.active.rotate hp head
  nr := by
    rw [h.active.size_rotate hp head]
    exact h.nr

/-- A fair task is added to the list. -/
theorem CfsRep.enqueue {f : CfsRq} (h : CfsRep lvl f) (hp : lvl p = none) :
    CfsRep (Function.update lvl p (some i))
      { tasks := p :: f.tasks, hNrRunning := f.hNrRunning + 1 } where
  nodup := List.nodup_cons.mpr ⟨fun hmem => (h.mem p).mp hmem hp, h.nodup⟩
  mem q := by
    by_cases hq : q = p
    · subst hq
      simp
    · simp [hq, h.mem]
  nr := by
    have := h.nr
    simp only [List.length_cons]
    omega

/-- One fair task fewer, counted in the list. -/
theorem CfsRep.length_dequeue {f : CfsRq} (h : CfsRep lvl f) (hp : lvl p = some i) :
    (f.tasks.erase p).length + 1 = f.tasks.length := by
  have hmem : p ∈ f.tasks := (h.mem p).mpr (by simp [hp])
  have hlen := List.length_erase_of_mem hmem
  have hpos := List.length_pos_of_mem hmem
  omega

/-- A fair task is taken out of the list. -/
theorem CfsRep.dequeue {f : CfsRq} (h : CfsRep lvl f) (hp : lvl p = some i) :
    CfsRep (Function.update lvl p none)
      { tasks := f.tasks.erase p, hNrRunning := f.hNrRunning - 1 } where
  nodup := h.nodup.erase p
  mem q := by
    by_cases hq : q = p
    · subst hq
      simp [h.nodup.mem_erase_iff]
    · simp [hq, h.nodup.mem_erase_iff, h.mem]
  nr := by
    have hlen := h.length_dequeue hp
    have hnr := h.nr
    dsimp only
    omega

theorem StopRep.enqueue {stop : Option Pid} (h : StopRep lvl stop) (hp : stop = some p) :
    StopRep (Function.update lvl p (some i)) stop := by
  intro q hq
  by_cases hqp : q = p
  · rw [hqp]
    exact hp
  · rw [Function.update_of_ne hqp] at hq
    exact h q hq

theorem StopRep.dequeue {stop : Option Pid} (h : StopRep lvl stop) :
    StopRep (Function.update lvl p none) stop := by
  intro q hq
  by_cases hqp : q = p
  · subst hqp
    simp at hq
  · rw [Function.update_of_ne hqp] at hq
    exact h q hq

end ClassQueues

/-! ## Run queues that represent a slot map -/

/-- The run queue `r` of cpu `c` represents the slot map `m`. -/
structure RqRep (m : Pid → Option Slot) (c : Cpu) (r : Rq) : Prop where
  wrr : WrrRep (levelAt m .wrr c) r.wrr
  rt : RtRep (levelAt m .rt c) r.rt
  cfs : CfsRep (levelAt m .fair c) r.cfs
  stop : StopRep (levelAt m .stop c) r.stop
  nr : r.nrRunning = stopNr (levelAt m .stop c) r.stop + r.rt.rtNrRunning + r.wrr.wrrNrRunning
    + r.cfs.tasks.length

/-- Every run queue of `s` represents `m`. -/
def Rep (s : System) (m : Pid → Option Slot) : Prop := ∀ c, RqRep m c (s.rq c)

/-- A queue represents any slots with the same levels. -/
theorem RqRep.congr {m m' : Pid → Option Slot} {c : Cpu} {r : Rq} (h : RqRep m c r)
    (heq : ∀ k, levelAt m' k c = levelAt m k c) : RqRep m' c r where
  wrr := by rw [heq]; exact h.wrr
  rt := by rw [heq]; exact h.rt
  cfs := by rw [heq]; exact h.cfs
  stop := by rw [heq]; exact h.stop
  nr := by rw [heq]; exact h.nr

section Link

variable {m : Pid → Option Slot} {c : Cpu} {r : Rq} {p : Pid} {i : Nat}

/-- A linked task gets its level in its own class and on its own CPU. -/
theorem levelAt_link_self (k : ClassId) :
    levelAt (Function.update m p (some ⟨k, c, i⟩)) k c
      = Function.update (levelAt m k c) p (some i) := by
  rw [levelAt_update, slotLevel_self]

/-- In another class or on another CPU linking changes nothing. -/
theorem levelAt_link_of_ne (hp : m p = none) {k k' : ClassId} (hk : k' ≠ k) (c c' : Cpu) :
    levelAt (Function.update m p (some ⟨k', c', i⟩)) k c = levelAt m k c :=
  levelAt_update_of_eq (by rw [slotLevel_of_class_ne hk, levelAt, hp, slotLevel_none])

theorem levelAt_unlink_self (k : ClassId) (c : Cpu) :
    levelAt (Function.update m p none) k c = Function.update (levelAt m k c) p none := by
  rw [levelAt_update, slotLevel_none]

/-- In another class or on another CPU unlinking changes nothing. -/
theorem levelAt_unlink_of_ne {k k' : ClassId} {c' : Cpu} (hp : m p = some ⟨k', c', i⟩)
    (hk : k' ≠ k) (c : Cpu) : levelAt (Function.update m p none) k c = levelAt m k c :=
  levelAt_update_of_eq (by rw [slotLevel_none, levelAt, hp, slotLevel_of_class_ne hk])

theorem levelAt_of_slot {k : ClassId} (hp : m p = some ⟨k, c, i⟩) : levelAt m k c p = some i := by
  rw [levelAt, hp, slotLevel_self]

theorem levelAt_eq_some {k : ClassId} : levelAt m k c p = some i ↔ m p = some ⟨k, c, i⟩ :=
  slotLevel_eq_some

theorem levelAt_of_none (hp : m p = none) (k : ClassId) (c : Cpu) : levelAt m k c p = none := by
  rw [levelAt, hp, slotLevel_none]

/-- A WRR task enters its queue at its level. -/
theorem RqRep.enqueueWrr (h : RqRep m c r) (hp : m p = none) (hi : i < maxWrrPrio)
    (head : Bool) :
    RqRep (Function.update m p (some ⟨.wrr, c, i⟩)) c
      { r with
        wrr :=
          { active := (r.wrr.active.listAddAt head p i).setBit i
            wrrNrRunning := r.wrr.wrrNrRunning + 1
            onLeafList := if r.wrr.wrrNrRunning = 0 then true else r.wrr.onLeafList }
        nrRunning := r.nrRunning + 1 } where
  wrr := by
    rw [levelAt_link_self]
    exact h.wrr.enqueue (levelAt_of_none hp .wrr c) hi head
  rt := by
    rw [levelAt_link_of_ne hp (by decide)]
    exact h.rt
  cfs := by
    rw [levelAt_link_of_ne hp (by decide)]
    exact h.cfs
  stop := by
    rw [levelAt_link_of_ne hp (by decide)]
    exact h.stop
  nr := by
    rw [levelAt_link_of_ne hp (by decide)]
    have := h.nr
    dsimp only
    omega

/-- A WRR task leaves its queue. -/
theorem RqRep.dequeueWrr (h : RqRep m c r) (hp : m p = some ⟨.wrr, c, i⟩) :
    RqRep (Function.update m p none) c
      { r with
        wrr :=
          { active := r.wrr.active.unlink p i
            wrrNrRunning := r.wrr.wrrNrRunning - 1
            onLeafList := if r.wrr.wrrNrRunning - 1 = 0 then false else r.wrr.onLeafList }
        nrRunning := r.nrRunning - 1 } where
  wrr := by
    rw [levelAt_unlink_self]
    exact h.wrr.dequeue (levelAt_of_slot hp)
  rt := by
    rw [levelAt_unlink_of_ne hp (by decide)]
    exact h.rt
  cfs := by
    rw [levelAt_unlink_of_ne hp (by decide)]
    exact h.cfs
  stop := by
    rw [levelAt_unlink_of_ne hp (by decide)]
    exact h.stop
  nr := by
    rw [levelAt_unlink_of_ne hp (by decide)]
    have := h.nr
    dsimp only
    omega

theorem RqRep.enqueueRt (h : RqRep m c r) (hp : m p = none) (hi : i < maxRtPrio)
    (head : Bool) (highest : Nat) :
    RqRep (Function.update m p (some ⟨.rt, c, i⟩)) c
      { r with
        rt :=
          { r.rt with
            active := (r.rt.active.listAddAt head p i).setBit i
            rtNrRunning := r.rt.rtNrRunning + 1
            highestPrio := highest }
        nrRunning := r.nrRunning + 1 } where
  wrr := by
    rw [levelAt_link_of_ne hp (by decide)]
    exact h.wrr
  rt := by
    rw [levelAt_link_self]
    exact h.rt.enqueue (levelAt_of_none hp .rt c) hi head highest
  cfs := by
    rw [levelAt_link_of_ne hp (by decide)]
    exact h.cfs
  stop := by
    rw [levelAt_link_of_ne hp (by decide)]
    exact h.stop
  nr := by
    rw [levelAt_link_of_ne hp (by decide)]
    have := h.nr
    dsimp only
    omega

theorem RqRep.dequeueRt (h : RqRep m c r) (hp : m p = some ⟨.rt, c, i⟩) (highest : Nat) :
    RqRep (Function.update m p none) c
      { r with
        rt :=
          { r.rt with
            active := r.rt.active.unlink p i
            rtNrRunning := r.rt.rtNrRunning - 1
            highestPrio := highest }
        nrRunning := r.nrRunning - 1 } where
  wrr := by
    rw [levelAt_unlink_of_ne hp (by decide)]
    exact h.wrr
  rt := by
    rw [levelAt_unlink_self]
    exact h.rt.dequeue (levelAt_of_slot hp) highest
  cfs := by
    rw [levelAt_unlink_of_ne hp (by decide)]
    exact h.cfs
  stop := by
    rw [levelAt_unlink_of_ne hp (by decide)]
    exact h.stop
  nr := by
    rw [levelAt_unlink_of_ne hp (by decide)]
    have := h.nr
    dsimp only
    omega

theorem RqRep.enqueueFair (h : RqRep m c r) (hp : m p = none) :
    RqRep (Function.update m p (some ⟨.fair, c, i⟩)) c
      { r with
        cfs := { tasks := p :: r.cfs.tasks, hNrRunning := r.cfs.hNrRunning + 1 }
        nrRunning := r.nrRunning + 1 } where
  wrr := by
    rw [levelAt_link_of_ne hp (by decide)]
    exact h.wrr
  rt := by
    rw [levelAt_link_of_ne hp (by decide)]
    exact h.rt
  cfs := by
    rw [levelAt_link_self]
    exact h.cfs.enqueue (levelAt_of_none hp .fair c)
  stop := by
    rw [levelAt_link_of_ne hp (by decide)]
    exact h.stop
  nr := by
    rw [levelAt_link_of_ne hp (by decide)]
    have := h.nr
    simp only [List.length_cons]
    omega

theorem RqRep.dequeueFair (h : RqRep m c r) (hp : m p = some ⟨.fair, c, i⟩) :
    RqRep (Function.update m p none) c
      { r with
        cfs := { tasks := r.cfs.tasks.erase p, hNrRunning := r.cfs.hNrRunning - 1 }
        nrRunning := r.nrRunning - 1 } where
  wrr := by
    rw [levelAt_unlink_of_ne hp (by decide)]
    exact h.wrr
  rt := by
    rw [levelAt_unlink_of_ne hp (by decide)]
    exact h.rt
  cfs := by
    rw [levelAt_unlink_self]
    exact h.cfs.dequeue (levelAt_of_slot hp)
  stop := by
    rw [levelAt_unlink_of_ne hp (by decide)]
    exact h.stop
  nr := by
    rw [levelAt_unlink_of_ne hp (by decide)]
    have hnr := h.nr
    have hlen := h.cfs.length_dequeue (levelAt_of_slot hp)
    dsimp only
    omega

theorem RqRep.enqueueStop (h : RqRep m c r) (hp : m p = none) (hstop : r.stop = some p) :
    RqRep (Function.update m p (some ⟨.stop, c, i⟩)) c
      { r with nrRunning := r.nrRunning + 1 } where
  wrr := by
    rw [levelAt_link_of_ne hp (by decide)]
    exact h.wrr
  rt := by
    rw [levelAt_link_of_ne hp (by decide)]
    exact h.rt
  cfs := by
    rw [levelAt_link_of_ne hp (by decide)]
    exact h.cfs
  stop := by
    rw [levelAt_link_self]
    exact h.stop.enqueue hstop
  nr := by
    have hold : stopNr (levelAt m .stop c) r.stop = 0 := by
      simp [stopNr, hstop, levelAt_of_none hp]
    have hnew : stopNr (Function.update (levelAt m .stop c) p (some i)) r.stop = 1 := by
      simp [stopNr, hstop]
    have hnr := h.nr
    rw [levelAt_link_self, hnew]
    dsimp only
    omega

theorem RqRep.dequeueStop (h : RqRep m c r) (hp : m p = some ⟨.stop, c, i⟩) :
    RqRep (Function.update m p none) c { r with nrRunning := r.nrRunning - 1 } where
  wrr := by
    rw [levelAt_unlink_of_ne hp (by decide)]
    exact h.wrr
  rt := by
    rw [levelAt_unlink_of_ne hp (by decide)]
    exact h.rt
  cfs := by
    rw [levelAt_unlink_of_ne hp (by decide)]
    exact h.cfs
  stop := by
    rw [levelAt_unlink_self]
    exact h.stop.dequeue
  nr := by
    have hlvl := levelAt_of_slot hp
    have hstop : r.stop = some p := h.stop p (by simp [hlvl])
    have hold : stopNr (levelAt m .stop c) r.stop = 1 := by
      simp [stopNr, hstop, hlvl]
    have hnew : stopNr (Function.update (levelAt m .stop c) p none) r.stop = 0 := by
      simp [stopNr, hstop]
    have hnr := h.nr
    rw [levelAt_unlink_self, hnew]
    dsimp only
    omega

/-- The WRR list of the cpu is reordered or one of its tasks changes level. -/
theorem RqRep.setActive (h : RqRep m c r) {i : Nat} (hp : m p = some ⟨.wrr, c, i⟩) {j : Nat}
    {a : PrioArray Pid}
    (ha : a.Repr maxWrrPrio (Function.update (levelAt m .wrr c) p (some j)))
    (hsize : a.size maxWrrPrio = r.wrr.active.size maxWrrPrio) :
    RqRep (Function.update m p (some ⟨.wrr, c, j⟩)) c
      { r with wrr := { r.wrr with active := a } } where
  wrr := by
    rw [levelAt_link_self]
    exact h.wrr.setActive ha hsize
  rt := by
    rw [levelAt_update_of_eq (by simp [levelAt, hp, slotLevel_of_class_ne])]
    exact h.rt
  cfs := by
    rw [levelAt_update_of_eq (by simp [levelAt, hp, slotLevel_of_class_ne])]
    exact h.cfs
  stop := by
    rw [levelAt_update_of_eq (by simp [levelAt, hp, slotLevel_of_class_ne])]
    exact h.stop
  nr := by
    rw [levelAt_update_of_eq (by simp [levelAt, hp, slotLevel_of_class_ne])]
    exact h.nr

/-- Requeueing an RT task leaves the slots as they are. -/
theorem RqRep.rotateRt (h : RqRep m c r) (hp : m p = some ⟨.rt, c, i⟩) (head : Bool) :
    RqRep m c
      { r with
        rt := { r.rt with active := (r.rt.active.listDelInit p).listAddAt head p i } } where
  wrr := h.wrr
  rt := h.rt.rotate (levelAt_of_slot hp) head
  cfs := h.cfs
  stop := h.stop
  nr := h.nr

/-- Nothing but the parts that the representation reads matters. -/
theorem RqRep.of_eq (h : RqRep m c r) {r' : Rq} (hnr : r'.nrRunning = r.nrRunning)
    (hwrr : r'.wrr = r.wrr) (hactive : r'.rt.active = r.rt.active)
    (hrt : r'.rt.rtNrRunning = r.rt.rtNrRunning) (hcfs : r'.cfs = r.cfs)
    (hstop : r'.stop = r.stop) : RqRep m c r' where
  wrr := by rw [hwrr]; exact h.wrr
  rt :=
    { active := by rw [hactive]; exact h.rt.active
      nr := by rw [hactive, hrt]; exact h.rt.nr }
  cfs := by rw [hcfs]; exact h.cfs
  stop := by rw [hstop]; exact h.stop
  nr := by rw [hnr, hstop, hrt, hwrr, hcfs]; exact h.nr

end Link

/-! ## The class hooks refine updates of the slot map -/

section Hooks

variable {cfg : Config} {s t : System} {m : Pid → Option Slot} {c : Cpu} {p : Pid}

/-- A slot of cpu `c`, or none: what the run queues of the other cpus cannot see. -/
def OnCpu (c : Cpu) (x : Option Slot) : Prop := ∀ k c', c' ≠ c → slotLevel k c' x = none

theorem OnCpu.none (c : Cpu) : OnCpu c none := fun _ _ _ => rfl

theorem OnCpu.some (k : ClassId) (c : Cpu) (i : Nat) : OnCpu c (some ⟨k, c, i⟩) :=
  fun k' _ hc => slotLevel_of_cpu_ne (Ne.symm hc) k' k i

/-- One run queue changes, and the slot map only where that run queue sees it. -/
theorem Rep.setRq (h : Rep s m) {r : Rq} {x : Option Slot}
    (hrq : t.rq = Function.update s.rq c r) (hold : OnCpu c (m p)) (hnew : OnCpu c x)
    (hr : RqRep (Function.update m p x) c r) : Rep t (Function.update m p x) := by
  intro c'
  rw [hrq]
  by_cases hc : c' = c
  · subst hc
    rwa [Function.update_self]
  · rw [Function.update_of_ne hc]
    refine (h c').congr fun k => levelAt_update_of_eq ?_
    rw [hnew k c' hc, levelAt, hold k c' hc]

/-- `Rep` looks at the run queues only. -/
theorem Rep.of_rq (h : Rep s m) (hrq : t.rq = s.rq) : Rep t m := by
  intro c
  rw [hrq]
  exact h c

/-- Both files enqueue alike, up to the list a task belongs to. -/
theorem wrrSchedClass_enqueueTask (cfg : Config) :
    (wrrSchedClass cfg).enqueueTask = WrrCommon.enqueueTaskWrr (wrrLevel cfg) := by
  unfold wrrSchedClass wrrLevel
  cases cfg.wrr <;> rfl

/-- Both files dequeue alike, up to the list a task belongs to. -/
theorem wrrSchedClass_dequeueTask (cfg : Config) :
    (wrrSchedClass cfg).dequeueTask = WrrCommon.dequeueTaskWrr (wrrLevel cfg) := by
  unfold wrrSchedClass wrrLevel
  cases cfg.wrr <;> rfl

/-! ### Each hook as one update of its run queue -/

/-- Enqueueing a WRR task links it and counts it in the queue of its CPU. -/
theorem enqueueTaskWrr_rq (sePrio : Task → Nat) (hc : (s.task p).cpu = c) (flags : Nat) :
    (WrrCommon.enqueueTaskWrr sePrio s c p flags).rq = Function.update s.rq c
      { s.rq c with
        wrr :=
          { active := ((s.rq c).wrr.active.listAddAt (enqueueHead flags) p
              (sePrio (s.task p))).setBit (sePrio (s.task p))
            wrrNrRunning := (s.rq c).wrr.wrrNrRunning + 1
            onLeafList := if (s.rq c).wrr.wrrNrRunning = 0 then true else (s.rq c).wrr.onLeafList }
        nrRunning := (s.rq c).nrRunning + 1 } := by
  subst hc
  simp [WrrCommon.enqueueTaskWrr, WrrCommon.enqueueWrrEntity, System.setWrr, System.incNrRunning]

/-- Dequeueing a WRR task unlinks it and counts it out. -/
theorem dequeueTaskWrr_rq (sePrio : Task → Nat) (hc : (s.task p).cpu = c) :
    (WrrCommon.dequeueTaskWrr sePrio s c p).rq = Function.update s.rq c
      { s.rq c with
        wrr :=
          { active := (s.rq c).wrr.active.unlink p (sePrio (s.task p))
            wrrNrRunning := (s.rq c).wrr.wrrNrRunning - 1
            onLeafList :=
              if (s.rq c).wrr.wrrNrRunning - 1 = 0 then false else (s.rq c).wrr.onLeafList }
        nrRunning := (s.rq c).nrRunning - 1 } := by
  subst hc
  simp [WrrCommon.dequeueTaskWrr, WrrCommon.dequeueWrrEntity, System.setWrr, System.decNrRunning,
    PrioArray.unlink]

/-- Enqueueing an RT task links it and counts it in the queue of its CPU. -/
theorem enqueueTaskRt_rq (hc : (s.task p).cpu = c) (hnot : Rt.onRtRq s p = false) (flags : Nat) :
    (Rt.enqueueTaskRt s c p flags).rq = Function.update s.rq c
      { s.rq c with
        rt :=
          { (s.rq c).rt with
            active := ((s.rq c).rt.active.listAddAt (enqueueHead flags) p
              (Rt.rtSePrio (s.task p))).setBit (Rt.rtSePrio (s.task p))
            rtNrRunning := (s.rq c).rt.rtNrRunning + 1
            highestPrio := Rt.incRtPrio (Rt.rtSePrio (s.task p)) (s.rq c).rt.highestPrio }
        nrRunning := (s.rq c).nrRunning + 1 } := by
  subst hc
  simp [Rt.enqueueTaskRt, Rt.dequeueRtStack, hnot, Rt.enqueueRtEntity, System.setRt,
    System.incNrRunning]

/-- Dequeueing an RT task unlinks it and counts it out. -/
theorem dequeueTaskRt_rq (hc : (s.task p).cpu = c) (hon : Rt.onRtRq s p = true) :
    ∃ highest, (Rt.dequeueTaskRt s c p).rq = Function.update s.rq c
      { s.rq c with
        rt :=
          { (s.rq c).rt with
            active := (s.rq c).rt.active.unlink p (Rt.rtSePrio (s.task p))
            rtNrRunning := (s.rq c).rt.rtNrRunning - 1
            highestPrio := highest }
        nrRunning := (s.rq c).nrRunning - 1 } := by
  subst hc
  have hon' : Rt.onRtRq (Rt.updateCurrRt s (s.task p).cpu) p = true := by
    rw [Rt.onRtRq, Rt.updateCurrRt_rq, Rt.updateCurrRt_task]
    exact hon
  refine ⟨((Rt.dequeueTaskRt s (s.task p).cpu p).rq (s.task p).cpu).rt.highestPrio, ?_⟩
  simp [Rt.dequeueTaskRt, Rt.dequeueRtStack, hon', Rt.dequeueRtEntity, System.setRt,
    System.decNrRunning, PrioArray.unlink]

theorem fairEnqueueTask_rq (flags : Nat) :
    (fairSchedClass.enqueueTask s c p flags).rq = Function.update s.rq c
      { s.rq c with
        cfs :=
          { tasks := p :: (s.rq c).cfs.tasks, hNrRunning := (s.rq c).cfs.hNrRunning + 1 }
        nrRunning := (s.rq c).nrRunning + 1 } := by
  simp [fairSchedClass, System.setCfs, System.incNrRunning]

theorem fairDequeueTask_rq :
    (fairSchedClass.dequeueTask s c p).rq = Function.update s.rq c
      { s.rq c with
        cfs :=
          { tasks := (s.rq c).cfs.tasks.erase p, hNrRunning := (s.rq c).cfs.hNrRunning - 1 }
        nrRunning := (s.rq c).nrRunning - 1 } := by
  simp [fairSchedClass, System.setCfs, System.decNrRunning]

/-- A task that may be on a run queue: it is not an idle task, and the level its array
class asks for exists. -/
structure Queueable (cfg : Config) (t : Task) : Prop where
  notIdle : t.schedClass ≠ .idle
  wrr : t.schedClass = .wrr → wrrLevel cfg t < maxWrrPrio
  rt : t.schedClass = .rt → Rt.rtSePrio t < maxRtPrio

/-- The list head of an RT task tells whether it is queued on its CPU. -/
theorem onRtRq_iff (h : Rep s m) : Rt.onRtRq s p = true ↔ levelAt m .rt (s.task p).cpu p ≠ none :=
  (h (s.task p).cpu).rt.active.linked_iff p

/-- **Enqueue** refines `m[p := slotOf p]`. -/
theorem Rep.enqueueTask (h : Rep s m) (hp : m p = none) (hc : (s.task p).cpu = c)
    (hq : Queueable cfg (s.task p))
    (hstop : (s.task p).schedClass = .stop → (s.rq c).stop = some p) (flags : Nat) :
    Rep (enqueueTask cfg s c p flags)
      (Function.update m p (some (slotOf cfg (s.task p)))) := by
  have hslot : slotOf cfg (s.task p) = ⟨(s.task p).schedClass, c, seLevel cfg (s.task p)⟩ := by
    rw [slotOf, hc]
  have hold : OnCpu c (m p) := by
    rw [hp]
    exact OnCpu.none c
  have hnew : OnCpu c (some (slotOf cfg (s.task p))) := by
    rw [hslot]
    exact OnCpu.some _ c _
  cases hk : (s.task p).schedClass with
  | stop =>
    refine h.setRq (r := { s.rq c with nrRunning := (s.rq c).nrRunning + 1 }) ?_ hold hnew ?_
    · rw [LinuxWrr.enqueueTask, hk]
      rfl
    · rw [hslot, hk]
      exact (h c).enqueueStop hp (hstop hk)
  | rt =>
    -- an RT task that was queued would be dequeued first
    have hnot : Rt.onRtRq s p = false := by
      rw [← Bool.not_eq_true, onRtRq_iff h]
      simp [levelAt_of_none hp]
    have hlevel : seLevel cfg (s.task p) = Rt.rtSePrio (s.task p) := by simp [seLevel, hk]
    rw [LinuxWrr.enqueueTask, hk]
    refine h.setRq (enqueueTaskRt_rq hc hnot flags) hold hnew ?_
    rw [hslot, hk, hlevel]
    exact (h c).enqueueRt hp (hq.rt hk) _ _
  | wrr =>
    have hlevel : seLevel cfg (s.task p) = wrrLevel cfg (s.task p) := by simp [seLevel, hk]
    rw [LinuxWrr.enqueueTask, hk]
    show Rep ((wrrSchedClass cfg).enqueueTask s c p flags) _
    rw [wrrSchedClass_enqueueTask]
    refine h.setRq (enqueueTaskWrr_rq _ hc flags) hold hnew ?_
    rw [hslot, hk, hlevel]
    exact (h c).enqueueWrr hp (hq.wrr hk) _
  | fair =>
    rw [LinuxWrr.enqueueTask, hk]
    refine h.setRq (fairEnqueueTask_rq flags) hold hnew ?_
    rw [hslot, hk]
    exact (h c).enqueueFair hp
  | idle => exact absurd hk hq.notIdle

/-- **Dequeue** refines `m[p := none]`. -/
theorem Rep.dequeueTask (h : Rep s m) (hp : m p = some (slotOf cfg (s.task p)))
    (hc : (s.task p).cpu = c) (hidle : (s.task p).schedClass ≠ .idle) :
    Rep (dequeueTask cfg s c p) (Function.update m p none) := by
  have hslot : m p = some ⟨(s.task p).schedClass, c, seLevel cfg (s.task p)⟩ := by
    rw [hp, slotOf, hc]
  have hold : OnCpu c (m p) := by
    rw [hslot]
    exact OnCpu.some _ c _
  cases hk : (s.task p).schedClass with
  | stop =>
    rw [hk] at hslot
    refine h.setRq (r := { s.rq c with nrRunning := (s.rq c).nrRunning - 1 }) ?_ hold
      (OnCpu.none c) ((h c).dequeueStop hslot)
    rw [LinuxWrr.dequeueTask, hk]
    rfl
  | rt =>
    have hlevel : seLevel cfg (s.task p) = Rt.rtSePrio (s.task p) := by simp [seLevel, hk]
    rw [hk, hlevel] at hslot
    -- the dequeue of the RT class tests whether the task is linked
    have hon : Rt.onRtRq s p = true := by
      rw [onRtRq_iff h, hc, levelAt_of_slot hslot]
      exact Option.some_ne_none _
    obtain ⟨highest, hrq⟩ := dequeueTaskRt_rq hc hon
    rw [LinuxWrr.dequeueTask, hk]
    exact h.setRq hrq hold (OnCpu.none c) ((h c).dequeueRt hslot highest)
  | wrr =>
    have hlevel : seLevel cfg (s.task p) = wrrLevel cfg (s.task p) := by simp [seLevel, hk]
    rw [hk, hlevel] at hslot
    rw [LinuxWrr.dequeueTask, hk]
    show Rep ((wrrSchedClass cfg).dequeueTask s c p) _
    rw [wrrSchedClass_dequeueTask]
    exact h.setRq (dequeueTaskWrr_rq _ hc) hold (OnCpu.none c) ((h c).dequeueWrr hslot)
  | fair =>
    rw [hk] at hslot
    rw [LinuxWrr.dequeueTask, hk]
    exact h.setRq fairDequeueTask_rq hold (OnCpu.none c) ((h c).dequeueFair hslot)
  | idle => exact absurd hk hidle

end Hooks

end LinuxWrr
