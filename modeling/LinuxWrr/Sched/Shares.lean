import LinuxWrr.Lib.RoundRobin
import LinuxWrr.Sched.Effect

/-!
# Shares of the basic WRR class

While nothing but ticks happens on a cpu, `task_tick_wrr` counts the slice of the current
task down, refills it by group and requeues the task behind its level, and the pick takes
the new head. Seen from the first non-empty level this is a weighted round robin: its list
is the ring of a `RoundRobin`, the slices are the quanta.

- `Config.groupSlice`: the slice of a group whose path decides it.
- `RunsRing`: the states of such a run, as the start state plus a ring.
- `tickAndSwitch_simulates`: a tick is one unit of service.
- `basic_shares`: **every task gets its slices, in turns, and the run queue comes back.**
-/

namespace LinuxWrr

variable {cfg : Config} {s s₀ : System} {c : Cpu} {p : Pid} {i n tg : Nat}

/-! ## The slice of a group -/

/-- The path `task_group_path` writes, if any. -/
def TaskGroup.path (g : TaskGroup) : Option (List Char) :=
  match g.autogroupPath with
  | some path => some path
  | none => g.cgroupPath

/-- The slice of the tasks of the group `tg`, when its path has a first character: without
one the character that decides is what an earlier call left in the buffer. -/
def Config.groupSlice (cfg : Config) (tg : Nat) : Option Nat :=
  match (cfg.group tg).path with
  | some (_ :: rest) =>
    some (if rest.head? = some 'b' then cfg.wrrBackTimeslice else cfg.wrrForeTimeslice)
  | _ => none

/-- Writing a path puts its second character at index 1. -/
theorem writePath_one (buf : Nat → Char) (a : Char) (rest : List Char) :
    writePath buf (a :: rest) 1 = rest.head?.getD '\x00' := by
  cases rest <;> rfl

/-- A group with a path writes it into the buffer. -/
theorem taskGroupPath_of_path {path : List Char} (h : (cfg.group tg).path = some path)
    (s : System) : (taskGroupPath cfg s tg).groupPath = writePath s.groupPath path := by
  unfold TaskGroup.path at h
  unfold taskGroupPath
  cases hauto : (cfg.group tg).autogroupPath with
  | some path' =>
    rw [hauto] at h
    cases h
    rfl
  | none =>
    rw [hauto] at h
    dsimp only at h
    rw [h]

/-- A refill gives the slice of the group. -/
theorem Basic.refill_eq (h : cfg.groupSlice tg = some n) (s : System) :
    Basic.refill cfg (taskGroupPath cfg s tg) = n := by
  unfold Config.groupSlice at h
  cases hpath : (cfg.group tg).path with
  | none =>
    rw [hpath] at h
    cases h
  | some path =>
    rw [hpath] at h
    cases path with
    | nil => cases h
    | cons a rest =>
      cases h
      show (if (taskGroupPath cfg s tg).groupPath 1 != 'b' then cfg.wrrForeTimeslice
        else cfg.wrrBackTimeslice) = _
      rw [taskGroupPath_of_path hpath, writePath_one]
      cases rest with
      | nil => rfl
      | cons b rest =>
        show (if b != 'b' then _ else _) = if some b = some 'b' then _ else _
        by_cases hb : b = 'b'
        · subst hb
          rfl
        · rw [if_pos (bne_iff_ne.mpr hb), if_neg (fun h => hb (Option.some.inj h))]

/-- Slices are positive `unsigned int`s. -/
theorem groupSlice_range (hhz : 100 ≤ cfg.hz) (h : cfg.groupSlice tg = some n) :
    0 < n ∧ n < 2 ^ 32 := by
  have hfits := cfg.hzFits
  have hback : 0 < cfg.wrrBackTimeslice ∧ cfg.wrrBackTimeslice < 2 ^ 32 := by
    unfold Config.wrrBackTimeslice
    omega
  have hfore : 0 < cfg.wrrForeTimeslice ∧ cfg.wrrForeTimeslice < 2 ^ 32 := by
    unfold Config.wrrForeTimeslice
    omega
  unfold Config.groupSlice at h
  split at h
  · cases h
    split
    · exact hback
    · exact hfore
  · cases h

/-! ## Ticks -/

namespace Basic

/-- `put_prev_task_wrr` and `pick_next_task_wrr`, as `__schedule` calls them. -/
def switchWrr (s : System) (c : Cpu) : System :=
  let prev := (s.rq c).curr
  match pickNextTaskWrr (putPrevTaskWrr s c prev) c with
  | (some next, s) => (s.clearTskNeedResched prev).updRq c fun r => { r with curr := next }
  | (none, s) => s

/-- A tick, and a switch if it asked for one. -/
def tickAndSwitch (cfg : Config) (c : Cpu) (s : System) : System :=
  let s := taskTickWrr cfg s c (s.rq c).curr
  if s.needResched (s.rq c).curr then switchWrr s c else s

end Basic

/-- The current task is the first of the first non-empty level, and the tasks of that level
are in groups that decide their slice, and hold a full one. -/
structure FullLevel (cfg : Config) (s : System) (c : Cpu) (i : Nat) : Prop where
  lowest : ∀ j < i, (s.rq c).wrr.active.queue j = []
  current : ((s.rq c).wrr.active.queue i).head? = some (s.rq c).curr
  full : ∀ p ∈ (s.rq c).wrr.active.queue i,
    cfg.groupSlice (s.task p).schedTaskGroup = some (s.task p).timeSlice

/-- The run queue of `c` with another order of level `i` and another current task. -/
def System.reordered (s : System) (c : Cpu) (i : Nat) (queue : List Pid) (curr : Pid) : Rq :=
  { s.rq c with
    wrr := { (s.rq c).wrr with active := (s.rq c).wrr.active.setQueue i queue }
    curr := curr }

/-- The state `s` is `s₀` with level `i` of `c` in the order and with the slices of `r`,
and with `curr` running. -/
structure RunsRing (s₀ : System) (c : Cpu) (i : Nat) (r : RoundRobin Pid) (curr : Pid)
    (s : System) : Prop where
  task : ∀ p, s.task p = { s₀.task p with timeSlice := r.left p }
  rq : s.rq = Function.update s₀.rq c (s₀.reordered c i r.queue curr)
  other : ∀ p, p ∉ (s₀.rq c).wrr.active.queue i →
    s.se p = s₀.se p ∧ s.needResched p = s₀.needResched p
  slice : ∀ p, p ∉ (s₀.rq c).wrr.active.queue i → r.left p = (s₀.task p).timeSlice

namespace RunsRing

variable {queue xs : List Pid} {left : Pid → Nat} {curr prev : Pid} {lvl : Pid → Option Nat}

theorem rq_self {r : RoundRobin Pid} (h : RunsRing s₀ c i r curr s) :
    s.rq c = s₀.reordered c i r.queue curr := by
  rw [h.rq, Function.update_self]

/-- Run-time accounting and `need_resched` of the tasks of the level are not part of the
ring. -/
theorem of_frame {r : RoundRobin Pid} {t : System} (h : RunsRing s₀ c i r curr s)
    (htask : t.task = s.task) (hrq : t.rq = s.rq)
    (hother : ∀ p, p ∉ (s₀.rq c).wrr.active.queue i →
      t.se p = s.se p ∧ t.needResched p = s.needResched p) : RunsRing s₀ c i r curr t where
  task p := by rw [htask, h.task]
  rq := by rw [hrq, h.rq]
  other p hp := ⟨(hother p hp).1.trans (h.other p hp).1, (hother p hp).2.trans (h.other p hp).2⟩
  slice := h.slice

/-- Writing a slice keeps the ring, with the new slice in it. -/
theorem setSlice (h : RunsRing s₀ c i ⟨queue, left⟩ curr s)
    (hp : p ∈ (s₀.rq c).wrr.active.queue i) (slice : Nat) :
    RunsRing s₀ c i ⟨queue, Function.update left p slice⟩ curr
      (s.updTask p fun t => { t with timeSlice := slice }) where
  task q := by
    show Function.update s.task p { s.task p with timeSlice := slice } q =
      { s₀.task q with timeSlice := Function.update left p slice q }
    by_cases hq : q = p
    · rw [hq, Function.update_self, Function.update_self, h.task]
    · rw [Function.update_of_ne hq, Function.update_of_ne hq, h.task]
  rq := h.rq
  other := h.other
  slice q hq := by
    show Function.update left p slice q = _
    rw [Function.update_of_ne (ne_of_mem_of_not_mem hp hq).symm]
    exact h.slice q hq

theorem setTskNeedResched {r : RoundRobin Pid} (h : RunsRing s₀ c i r curr s)
    (hp : p ∈ (s₀.rq c).wrr.active.queue i) : RunsRing s₀ c i r curr (s.setTskNeedResched p) := by
  refine h.of_frame rfl rfl fun q hq => ⟨rfl, ?_⟩
  exact Function.update_of_ne (ne_of_mem_of_not_mem hp hq).symm _ _

theorem clearTskNeedResched {r : RoundRobin Pid} (h : RunsRing s₀ c i r curr s)
    (hp : p ∈ (s₀.rq c).wrr.active.queue i) :
    RunsRing s₀ c i r curr (s.clearTskNeedResched p) := by
  refine h.of_frame rfl rfl fun q hq => ⟨rfl, ?_⟩
  exact Function.update_of_ne (ne_of_mem_of_not_mem hp hq).symm _ _

theorem setSe {r : RoundRobin Pid} (h : RunsRing s₀ c i r curr s)
    (hp : p ∈ (s₀.rq c).wrr.active.queue i) (e : SchedEntity) :
    RunsRing s₀ c i r curr (s.setSe p e) := by
  refine h.of_frame rfl rfl fun q hq => ⟨?_, rfl⟩
  exact Function.update_of_ne (ne_of_mem_of_not_mem hp hq).symm _ _

theorem updateCurrWrr {r : RoundRobin Pid} (h : RunsRing s₀ c i r curr s)
    (hcurr : curr ∈ (s₀.rq c).wrr.active.queue i) :
    RunsRing s₀ c i r curr (updateCurrWrr s c) := by
  unfold LinuxWrr.updateCurrWrr
  split
  · exact h
  · have hself : (s.rq c).curr = curr := by
      rw [h.rq_self]
      rfl
    have hmem : (s.rq c).curr ∈ (s₀.rq c).wrr.active.queue i := by rwa [hself]
    exact h.setSe hmem _

theorem taskGroupPath {r : RoundRobin Pid} (h : RunsRing s₀ c i r curr s) (cfg : Config)
    (tg : Nat) : RunsRing s₀ c i r curr (taskGroupPath cfg s tg) := by
  refine h.of_frame (taskGroupPath_task cfg s tg) (taskGroupPath_rq cfg s tg) fun q _ => ?_
  rw [taskGroupPath_se, taskGroupPath_needResched]
  exact ⟨rfl, rfl⟩

/-- The requeue of the first task moves it to the end of the ring. -/
theorem requeueTaskWrr (hrep : (s₀.rq c).wrr.active.Repr n lvl)
    (h : RunsRing s₀ c i ⟨p :: xs, left⟩ p s) (hlevel : Basic.wrrSePrio (s₀.task p) = i)
    (hperm : (p :: xs).Perm ((s₀.rq c).wrr.active.queue i)) :
    RunsRing s₀ c i ⟨xs ++ [p], left⟩ p (Basic.requeueTaskWrr s c p false) where
  task := h.task
  rq := by
    have hlevel' : Basic.wrrSePrio (s.task p) = i := by
      rw [h.task]
      exact hlevel
    have hactive : (((s.rq c).wrr.active.listDelInit p).listAddAt false p i) =
        (s₀.rq c).wrr.active.setQueue i (xs ++ [p]) := by
      rw [h.rq_self]
      exact hrep.rotate_head hperm
    have hrequeue : Basic.requeueTaskWrr s c p false =
        s.setActive c ((s₀.rq c).wrr.active.setQueue i (xs ++ [p])) := by
      rw [← hactive, ← hlevel']
      rfl
    rw [hrequeue]
    show Function.update s.rq c _ = _
    rw [h.rq_self, h.rq, Function.update_idem]
    rfl
  other := h.other
  slice := h.slice

/-- The pick makes the first task of the ring current. -/
theorem switchWrr {next : Pid} {r : RoundRobin Pid} (h : RunsRing s₀ c i r prev s)
    (hnr : (s₀.rq c).wrr.wrrNrRunning ≠ 0)
    (hbit : (s₀.rq c).wrr.active.findFirstBit maxWrrPrio = i) (hnext : r.served = some next)
    (hmem : next ∈ (s₀.rq c).wrr.active.queue i) (hprev : prev ∈ (s₀.rq c).wrr.active.queue i) :
    RunsRing s₀ c i r next (Basic.switchWrr s c) := by
  have hcurr : (s.rq c).curr = prev := by
    rw [h.rq_self]
    rfl
  have hput : RunsRing s₀ c i r prev (putPrevTaskWrr s c (s.rq c).curr) := h.updateCurrWrr hprev
  unfold Basic.switchWrr
  dsimp only
  generalize putPrevTaskWrr s c (s.rq c).curr = u at hput
  -- the ring is the first level that is not empty, and its head is served next
  have hpick : pickNextTaskWrr u c = (some next, u.startExec c next) := by
    have hnr' : (u.rq c).wrr.wrrNrRunning ≠ 0 := by
      rw [hput.rq_self]
      exact hnr
    have hbit' : (u.rq c).wrr.active.findFirstBit maxWrrPrio = i := by
      rw [hput.rq_self]
      exact hbit
    have hhead : (u.rq c).wrr.active.queue i = r.queue := by
      rw [hput.rq_self]
      exact PrioArray.setQueue_queue_self i _ _
    unfold pickNextTaskWrr
    dsimp only
    rw [if_neg hnr', hbit', hhead, show r.queue.head? = some next from hnext]
  have hstart : RunsRing s₀ c i r prev (u.startExec c next) := hput.setSe hmem _
  rw [hpick]
  rw [← hcurr] at hprev
  have hclear := hstart.clearTskNeedResched hprev
  refine ⟨hclear.task, ?_, hclear.other, hclear.slice⟩
  show Function.update (u.startExec c next).rq c { (u.startExec c next).rq c with curr := next } = _
  rw [hstart.rq_self, hstart.rq, Function.update_idem]
  rfl

/-- After a tick the switch, if there is one, makes the first task of the ring current. -/
theorem settle {next : Pid} {r : RoundRobin Pid} (h : RunsRing s₀ c i r prev s)
    (hnr : (s₀.rq c).wrr.wrrNrRunning ≠ 0)
    (hbit : (s₀.rq c).wrr.active.findFirstBit maxWrrPrio = i) (hnext : r.served = some next)
    (hmem : next ∈ (s₀.rq c).wrr.active.queue i) (hprev : prev ∈ (s₀.rq c).wrr.active.queue i)
    (hflag : next = prev ∨ s.needResched prev = true) :
    RunsRing s₀ c i r next
      (if s.needResched (s.rq c).curr then Basic.switchWrr s c else s) := by
  have hcurr : (s.rq c).curr = prev := by
    rw [h.rq_self]
    rfl
  rw [hcurr]
  by_cases hneed : s.needResched prev = true
  · rw [if_pos hneed]
    exact h.switchWrr hnr hbit hnext hmem hprev
  · rw [if_neg hneed]
    rcases hflag with rfl | hflag
    · exact h
    · exact absurd hflag hneed

end RunsRing

namespace FullLevel

variable {queue xs : List Pid} {left : Pid → Nat} {curr : Pid}

theorem wrrTask (h : Inv cfg s) (hcfg : cfg.wrr = .basic)
    (hp : p ∈ (s.rq c).wrr.active.queue i) :
    (s.task p).policy = .wrr ∧ Basic.wrrSePrio (s.task p) = i := by
  obtain ⟨hqueued, hlevel⟩ := h.mem_wrr_iff.mp hp
  rw [wrrLevel_basic hcfg] at hlevel
  exact ⟨(h.task p (h.alive_of_onRq hqueued.1)).wrr hqueued.2.1, hlevel⟩

theorem current_mem (hfull : FullLevel cfg s c i) :
    (s.rq c).curr ∈ (s.rq c).wrr.active.queue i := List.mem_of_mem_head? hfull.current

/-- With a ring to serve the WRR counter is not zero. -/
theorem nr_ne_zero (h : Inv cfg s) (hfull : FullLevel cfg s c i) :
    (s.rq c).wrr.wrrNrRunning ≠ 0 := by
  intro hzero
  exact h.wrrNr_eq_zero_iff.mp hzero _ (h.mem_wrr_iff.mp hfull.current_mem).1

/-- The level of the ring is the first that is set. -/
theorem findFirstBit (h : Inv cfg s) (hfull : FullLevel cfg s c i) :
    (s.rq c).wrr.active.findFirstBit maxWrrPrio = i := by
  have hrep := (h.rep c).wrr.active
  have hcurr := (hrep.mem_iff i _).mp hfull.current_mem
  have hle := hrep.findFirstBit_le_level hcurr
  have hlt := hrep.level_lt _ i hcurr
  obtain ⟨x, hhead, -⟩ := hrep.findFirstBit_head (Nat.lt_of_le_of_lt hle hlt)
  refine Nat.le_antisymm hle (Nat.le_of_not_lt fun hlow => ?_)
  rw [hfull.lowest _ hlow] at hhead
  cases hhead

/-- The slices with which the run starts are in range. -/
theorem slice_range (hhz : 100 ≤ cfg.hz) (hfull : FullLevel cfg s c i)
    (hp : p ∈ (s.rq c).wrr.active.queue i) :
    0 < (s.task p).timeSlice ∧ (s.task p).timeSlice < 2 ^ 32 :=
  groupSlice_range hhz (hfull.full p hp)

end FullLevel

/-- The ring of the run: the list of level `i`, with the slices. -/
def System.ring (s : System) (c : Cpu) (i : Nat) : RoundRobin Pid where
  queue := (s.rq c).wrr.active.queue i
  left p := (s.task p).timeSlice

/-- The state in which the ring starts is in step with it. -/
theorem System.ring_runs (s : System) (c : Cpu) (i : Nat) :
    RunsRing s c i (s.ring c i) (s.rq c).curr s where
  task _ := rfl
  rq := by
    have hqueue : (s.rq c).wrr.active.setQueue i (s.ring c i).queue = (s.rq c).wrr.active := by
      show PrioArray.mk _ (Function.update _ _ _) = _
      rw [show (s.ring c i).queue = (s.rq c).wrr.active.queue i from rfl, Function.update_eq_self]
    have hrq : s.reordered c i (s.ring c i).queue (s.rq c).curr = s.rq c := by
      unfold System.reordered
      rw [hqueue]
    rw [hrq, Function.update_eq_self]
  other _ _ := ⟨rfl, rfl⟩
  slice _ _ := rfl

/-- Above zero a slice counts down without a wrap. -/
theorem decU32_of_pos (hpos : 0 < n) (hlt : n < 2 ^ 32) : decU32 n = n - 1 := by
  unfold decU32
  omega

section Tick

variable {xs : List Pid} {left : Pid → Nat} {curr : Pid} {t : System}

/-- The end of a slice moves the task to the end of the ring, with a new slice. -/
theorem RunsRing.sliceExpired (h : Inv cfg s₀) (hcfg : cfg.wrr = .basic)
    (hfull : FullLevel cfg s₀ c i) (hs : RunsRing s₀ c i ⟨p :: xs, left⟩ p s)
    (hperm : (p :: xs).Perm ((s₀.rq c).wrr.active.queue i)) :
    RunsRing s₀ c i ⟨xs ++ [p], Function.update left p (s₀.task p).timeSlice⟩ p
        (Basic.sliceExpired cfg s c p) ∧
      (xs ≠ [] → (Basic.sliceExpired cfg s c p).needResched p = true) := by
  have hp : p ∈ (s₀.rq c).wrr.active.queue i := hperm.subset List.mem_cons_self
  obtain ⟨-, hlevel⟩ := FullLevel.wrrTask h hcfg hp
  have hrep := (h.rep c).wrr.active
  have hslice : Basic.refill cfg (LinuxWrr.taskGroupPath cfg s (s.task p).schedTaskGroup) =
      (s₀.task p).timeSlice := by
    refine Basic.refill_eq ?_ s
    rw [hs.task]
    exact hfull.full p hp
  have hrefill : RunsRing s₀ c i ⟨p :: xs, Function.update left p (s₀.task p).timeSlice⟩ p
      (Basic.refillSlice cfg s p) := by
    rw [← hslice]
    exact (hs.taskGroupPath cfg _).setSlice hp _
  unfold Basic.sliceExpired
  dsimp only
  generalize Basic.refillSlice cfg s p = u at hrefill
  -- the list has a neighbour for the task iff the ring has a second one
  have halone : Basic.notAlone u c p = true ↔ 2 ≤ (p :: xs).length := by
    have hlevel' : Basic.wrrSePrio (u.task p) = i := by
      rw [hrefill.task]
      exact hlevel
    have hqueue : ((u.rq c).wrr.active.queue i) = p :: xs := by
      rw [hrefill.rq_self]
      exact PrioArray.setQueue_queue_self i _ _
    have hactive : (u.rq c).wrr.active = (s₀.rq c).wrr.active.setQueue i (p :: xs) := by
      rw [hrefill.rq_self]
      rfl
    unfold Basic.notAlone
    rw [hlevel', ← hqueue, hactive]
    exact (hrep.permute hperm).notAlone_iff ((hrep.mem_iff i p).mp hp)
  by_cases hmany : Basic.notAlone u c p = true
  · rw [if_pos hmany]
    refine ⟨(hrefill.requeueTaskWrr hrep hlevel hperm).setTskNeedResched hp, fun _ => ?_⟩
    show Function.update u.needResched p true p = true
    rw [Function.update_self]
  · rw [if_neg hmany]
    have hnil : xs = [] := by
      rw [halone, List.length_cons] at hmany
      exact List.length_eq_zero_iff.mp (by omega)
    subst hnil
    exact ⟨hrefill, fun hne => absurd rfl hne⟩

/-- **A tick is one unit of service**: the machine of the ticks simulates the round robin. -/
theorem tickAndSwitch_simulates (h : Inv cfg s₀) (hcfg : cfg.wrr = .basic) (hhz : 100 ≤ cfg.hz)
    (hfull : FullLevel cfg s₀ c i) :
    Simulates
      (fun s r => r.Fair (fun p => (s₀.task p).timeSlice) ((s₀.rq c).wrr.active.queue i) ∧
        ∃ curr, r.served = some curr ∧ RunsRing s₀ c i r curr s)
      (Basic.tickAndSwitch cfg c) (RoundRobin.serve fun p => (s₀.task p).timeSlice)
      (fun s => some (s.rq c).curr) RoundRobin.served where
  step := by
    rintro s r ⟨hfair, curr, hserved, hs⟩
    refine ⟨hfair.serve, ?_⟩
    obtain ⟨queue, left⟩ := r
    cases queue with
    | nil => cases hserved
    | cons p xs =>
      obtain rfl : p = curr := Option.some.inj hserved
      have hmem : ∀ q ∈ p :: xs, q ∈ (s₀.rq c).wrr.active.queue i := fun q hq =>
        hfair.perm.subset hq
      have hp := hmem p List.mem_cons_self
      have hpos : 0 < left p := hfair.pos p hp
      have hle : left p ≤ (s₀.task p).timeSlice := hfair.le p hp
      have hlt := (hfull.slice_range hhz hp).2
      have hnr := FullLevel.nr_ne_zero h hfull
      have hbit := FullLevel.findFirstBit h hfull
      have hcurr : (s.rq c).curr = p := by
        rw [hs.rq_self]
        rfl
      unfold Basic.tickAndSwitch
      rw [hcurr]
      have hpolicy : (s.task p).policy = .wrr := by
        rw [hs.task]
        exact (FullLevel.wrrTask h hcfg hp).1
      have hdec : decU32 (s.task p).timeSlice = left p - 1 := by
        rw [hs.task]
        exact decU32_of_pos hpos (Nat.lt_of_le_of_lt hle hlt)
      have hset := (hs.updateCurrWrr hp).setSlice hp (left p - 1)
      rw [RoundRobin.serve_cons]
      dsimp only
      by_cases hlast : left p - 1 = 0
      · -- the slice is used up
        rw [Basic.taskTickWrr_eq_expired hpolicy (hdec.trans hlast), if_pos hlast]
        rw [hlast] at hset
        obtain ⟨hexp, hflag⟩ := RunsRing.sliceExpired h hcfg hfull hset hfair.perm
        rw [Function.update_idem] at hexp
        cases xs with
        | nil => exact ⟨p, rfl, hexp.settle hnr hbit rfl hp hp (.inl rfl)⟩
        | cons q xs =>
          have hq := hmem q (List.mem_cons_of_mem p List.mem_cons_self)
          exact ⟨q, rfl, hexp.settle hnr hbit rfl hq hp (.inr (hflag (List.cons_ne_nil q xs)))⟩
      · rw [Basic.taskTickWrr_eq_count hpolicy (hdec ▸ hlast), hdec, if_neg hlast]
        exact ⟨p, rfl, hset.settle hnr hbit rfl hp hp (.inl rfl)⟩
  out := by
    rintro s r ⟨-, curr, hserved, hs⟩
    rw [hserved, hs.rq_self]
    rfl

end Tick

/-- When no stop task is queued and no RT task may run, `__schedule` of a running WRR task
is the class's own switch. -/
theorem schedule_eq_switchWrr (h : Inv cfg s) (hcurr : s.Queued .wrr c (s.rq c).curr)
    (hstop : ∀ p, ¬s.Eligible .stop c p) (hrt : ∀ p, ¬s.Eligible .rt c p) (o : Outside) :
    schedule cfg s c false o = Basic.switchWrr s c := by
  have hput : retirePrev cfg s c false = putPrevTaskWrr s c (s.rq c).curr := by
    show (schedClassOf cfg (s.task (s.rq c).curr).schedClass).putPrevTask s c _ = _
    rw [hcurr.2.1]
    exact wrrSchedClass_putPrevTask cfg s c _
  have hframe : Frame s (retirePrev cfg s c false) := (retirePrev_effect cfg s c false).1.frame
  have hinv : Inv cfg (retirePrev cfg s c false) := retirePrev_inv h fun hs => nomatch hs
  have htask : (retirePrev cfg s c false).task = s.task := putPrevTask_task cfg s c _
  have hqueued : ∀ k p, (retirePrev cfg s c false).Queued k c p ↔ s.Queued k c p := fun k p =>
    System.queued_congr (congrFun htask p)
  have hsame : ∀ k p, (retirePrev cfg s c false).Eligible k c p ↔ s.Eligible k c p := fun k p =>
    System.eligible_congr (hqueued k p) (hframe.rtThrottled c)
  have hnr : ((retirePrev cfg s c false).rq c).wrr.wrrNrRunning ≠ 0 := fun hzero =>
    hinv.wrrNr_eq_zero_iff.mp hzero (s.rq c).curr ((hqueued _ _).mpr hcurr)
  obtain ⟨-, q, hpick, -⟩ := hinv.wrr_search hnr
  have hwrr : (schedClassOf cfg .wrr).pickNextTask (retirePrev cfg s c false) c o =
      (some q, (retirePrev cfg s c false).startExec c q) := by
    rw [← hpick]
    exact wrrSchedClass_pick cfg _ c o
  -- the stop and the RT class are passed over
  have hall : pickNextTask cfg (retirePrev cfg s c false) c o =
      (some q, (retirePrev cfg s c false).startExec c q) := by
    have hskip : ∀ k, k ≠ .fair → k ≠ .idle → (∀ p, ¬s.Eligible k c p) → ∀ ks,
        pickFrom cfg c o (k :: ks) (retirePrev cfg s c false) =
          pickFrom cfg c o ks (retirePrev cfg s c false) := fun k hk hidle hnone ks =>
      pickFrom_of_none (hinv.classPick_none hk hidle fun p hp => hnone p ((hsame k p).mp hp)) ks
    rw [hinv.pickNextTask_eq, forEachClass, hskip .stop (by decide) (by decide) hstop,
      hskip .rt (by decide) (by decide) hrt, pickFrom_of_some hwrr]
  unfold schedule switchTo Basic.switchWrr
  dsimp only
  rw [hall, ← hput, hpick]

/-- So the ticks of the class, with its own switch, are the ticks of the core. -/
theorem tickAndSwitch_eq_core (h : Inv cfg s) (hcfg : cfg.wrr = .basic)
    (hfull : FullLevel cfg s c i) (hstop : ∀ p, ¬s.Eligible .stop c p)
    (hrt : ∀ p, ¬s.Eligible .rt c p) (o : Outside) :
    Basic.tickAndSwitch cfg c s =
      let t := schedulerTick cfg s c o
      if t.needResched (t.rq c).curr then schedule cfg t c false o else t := by
  have hcurr : s.Queued .wrr c (s.rq c).curr := (h.mem_wrr_iff.mp hfull.current_mem).1
  have htick : schedulerTick cfg s c o = Basic.taskTickWrr cfg s c (s.rq c).curr := by
    show (schedClassOf cfg (s.task (s.rq c).curr).schedClass).taskTick s c _ o = _
    rw [hcurr.2.1]
    show (wrrSchedClass cfg).taskTick s c _ o = _
    unfold wrrSchedClass
    rw [hcfg]
    rfl
  have hrtp := (h.task _ (h.alive_of_onRq hcurr.1)).rtPriority
  have hmove : Move cfg s (schedulerTick cfg s c o) (s.rq c).curr :=
    schedulerTick_move hcurr.2.2 hrtp o
  have hinv : Inv cfg (schedulerTick cfg s c o) := hmove.inv h hcurr.1
  unfold Basic.tickAndSwitch
  rw [← htick]
  dsimp only
  split
  · refine (schedule_eq_switchWrr hinv ?_ (fun p hp => hstop p (hmove.eligible_iff.mp hp))
      (fun p hp => hrt p (hmove.eligible_iff.mp hp)) o).symm
    rw [hmove.frame.curr]
    exact hmove.queued_iff.mpr hcurr
  · rfl

/-- **Weighted round robin shares**: from a state in which the first non-empty level is
full and its head runs, `k` rounds of ticks run every task of the level for `k` times its
slice, in turns in queue order, and bring back every run queue and every task; in between
no other task runs or changes, and no other level does. -/
theorem basic_shares (hcfg : cfg.wrr = .basic) (hhz : 100 ≤ cfg.hz) (hs : Boot s₀)
    (hreach : Reach (fun s op => op.Pre s) (exec cfg) s₀ s) (hfull : FullLevel cfg s c i)
    (k : Nat) :
    let queue := (s.rq c).wrr.active.queue i
    let slice := fun p => (s.task p).timeSlice
    let tick := Basic.tickAndSwitch cfg c
    let rounds := k * RoundRobin.roundLength slice queue
    let currents := outputs tick (fun u => (u.rq c).curr) rounds s
    currents = (List.replicate k (RoundRobin.turns slice queue)).flatten ∧
      (∀ p ∈ queue, currents.count p = k * slice p) ∧
      (tick^[rounds] s).rq = s.rq ∧ (tick^[rounds] s).task = s.task ∧
      ∀ n, (∀ p, p ∉ queue → ((tick^[n] s).rq c).curr ≠ p ∧
          (tick^[n] s).task p = s.task p ∧ (tick^[n] s).se p = s.se p) ∧
        ∀ j, j ≠ i → ((tick^[n] s).rq c).wrr.active.queue j = (s.rq c).wrr.active.queue j := by
  intro queue slice tick rounds currents
  have hinv : Inv cfg s := reach_inv (fun _ _ hop => hop) hs hreach
  have hsim := tickAndSwitch_simulates hinv hcfg hhz hfull
  have hpos : ∀ p ∈ queue, 0 < slice p := fun p hp => (hfull.slice_range hhz hp).1
  have hstart : (s.ring c i).Fair slice queue ∧ ∃ curr, (s.ring c i).served = some curr ∧
      RunsRing s c i (s.ring c i) curr s :=
    ⟨⟨List.Perm.refl _, hpos, fun _ _ => Nat.le_refl _⟩, _, hfull.current, s.ring_runs c i⟩
  obtain ⟨hstate, hout⟩ := RoundRobin.serve_rounds hpos (fun _ _ => rfl : ∀ p ∈ queue,
    slice p = slice p) k
  have hcurrents : currents = (List.replicate k (RoundRobin.turns slice queue)).flatten := by
    -- the outputs of the two machines agree, tick for tick
    have hmap : currents.map some =
        (List.replicate k (RoundRobin.turns slice queue)).flatten.map some := by
      rw [← hout]
      refine Eq.trans ?_ (hsim.outputs_eq rounds hstart)
      exact List.map_map
    exact List.map_injective_iff.mpr (Option.some_injective Pid) hmap
  refine ⟨hcurrents, fun p hp => ?_, ?_, ?_, fun n => ?_⟩
  · rw [hcurrents]
    exact RoundRobin.count_rounds ((hinv.rep c).wrr.active.nodup i) hp k
  · -- after whole rounds the ring is as it was at the start
    obtain ⟨-, curr, hserved, hruns⟩ := hsim.iterate rounds hstart
    rw [show (RoundRobin.serve slice)^[rounds] (s.ring c i) = s.ring c i from hstate] at hserved hruns
    have hcurr : (s.rq c).curr = curr := Option.some.inj (hfull.current.symm.trans hserved)
    rw [hruns.rq, ← hcurr, ← (s.ring_runs c i).rq]
  · obtain ⟨-, curr, hserved, hruns⟩ := hsim.iterate rounds hstart
    rw [show (RoundRobin.serve slice)^[rounds] (s.ring c i) = s.ring c i from hstate] at hruns
    funext p
    rw [hruns.task]
    rfl
  · obtain ⟨hfair, curr, hserved, hruns⟩ := hsim.iterate n hstart
    refine ⟨fun p hp => ⟨?_, ?_, (hruns.other p hp).1⟩, fun j hj => ?_⟩
    · rw [hruns.rq_self]
      rintro rfl
      exact hp (hfair.perm.subset (List.mem_of_mem_head? hserved))
    · rw [hruns.task, hruns.slice p hp]
    · rw [hruns.rq_self]
      exact PrioArray.setQueue_queue_of_ne hj _ _

/-- A foreground and a background task at level 30, of which the first runs, and a task at
level 50. -/
theorem basic_shares_boot :
    let ops : List Op := [.moveGroup 5 1, .setscheduler 1 .wrr false 30 .quiet,
      .setscheduler 5 .wrr false 30 .quiet, .setscheduler 9 .wrr false 50 .quiet,
      .wakeUp 1 0 .quiet, .wakeUp 5 0 .quiet, .wakeUp 9 0 .quiet, .schedule 0 false .quiet]
    let s := ops.foldl (exec (upConfig .basic)) bootSystem
    let tick := Basic.tickAndSwitch (upConfig .basic) 0
    (s.rq 0).wrr.active.queue 30 = [1, 5] ∧
      outputs tick (fun u => (u.rq 0).curr) 22 s =
        [1, 1, 1, 1, 1, 1, 1, 1, 1, 1, 5, 1, 1, 1, 1, 1, 1, 1, 1, 1, 1, 5] ∧
      (tick^[22] s).task = s.task := by
  intro ops s tick
  have hreach : Reach (fun s op => op.Pre s) (exec (upConfig .basic)) bootSystem s :=
    reach_of_check bootSystem_boot.inv ops (by decide +kernel)
  have hqueue : (s.rq 0).wrr.active.queue 30 = [1, 5] := by decide +kernel
  have hfull : FullLevel (upConfig .basic) s 0 30 := by
    refine ⟨by decide +kernel, by decide +kernel, ?_⟩
    rw [hqueue]
    decide +kernel
  have hslices : (s.task 1).timeSlice = 10 ∧ (s.task 5).timeSlice = 1 := by decide +kernel
  have hlength : 2 * RoundRobin.roundLength (fun p => (s.task p).timeSlice)
      ((s.rq 0).wrr.active.queue 30) = 22 := by
    rw [hqueue]
    decide +kernel
  obtain ⟨hcurrents, -, -, htask, -⟩ :=
    basic_shares rfl (by decide) bootSystem_boot hreach hfull 2
  rw [hlength] at hcurrents htask
  refine ⟨hqueue, ?_, htask⟩
  rw [hcurrents, hqueue]
  decide +kernel

end LinuxWrr
