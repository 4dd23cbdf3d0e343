import LinuxWrr.Sched.Types
import LinuxWrr.Tg.Walk

/-!
# Real-time bandwidth of task groups

With `CONFIG_RT_GROUP_SCHED` a group may use `rt_runtime` nanoseconds of real-time in each
`rt_period`. Before a limit changes, `__rt_schedulable` walks the tree of groups with the new
limit in place of the old one, and looks whether every group has enough for its children.

- `tgRtSchedulable`, `RtSchedulable`: the check of one group, and the walk.
- `TgSetRtBandwidth`, `SchedRtHandler`: the limit of a group, and the global one.
- `rtSchedulable_iff`: when the walk returns 0.

A walk is not a function here, since it need not end: `RtSchedulable cfg s d ret` says that it
returns `ret`. The limits are held as nanoseconds, since `ns_to_ktime` and `ktime_to_ns` undo each
other. Groups may be created and destroyed during a walk; here they are not.

`sched_rt_handler` stores the global limit before it takes `rt_constraints_mutex`, and takes it back
if the check under the mutex refuses it. Here both are one step, so that no other operation sees a
limit that has not been checked.
-/

namespace LinuxWrr.Tg

structure Config where
  /-- `BITS_PER_LONG`. -/
  longBits : Nat
  /-- `cpu_possible_mask`. -/
  cpus : List Cpu
  long : longBits = 32 ∨ longBits = 64

/-- A uniprocessor kernel with a `long` of 32 bits. -/
def armUp : Config := ⟨32, [0], .inl rfl⟩

/-- The value of a `u64` after `x` is stored. -/
def u64 (x : Int) : Nat := (x % 2 ^ 64).toNat

/-- `RUNTIME_INF`, which is `(u64)~0ULL`. -/
def runtimeInf : Nat := 2 ^ 64 - 1

def einval : Int := -22
def ebusy : Int := -16

/-- The values of a `long`. -/
def Config.IsLong (cfg : Config) (x : Int) : Prop :=
  -2 ^ (cfg.longBits - 1) ≤ x ∧ x < 2 ^ (cfg.longBits - 1)

/-- `to_ratio`. No caller has a period of 0. -/
def toRatio (cfg : Config) (period runtime : Nat) : Nat :=
  if runtime = runtimeInf then 2 ^ 20
  else runtime * 2 ^ 20 % 2 ^ 64 / period % 2 ^ cfg.longBits

end LinuxWrr.Tg

namespace LinuxWrr.Tg.Rt

/-- What the checks ask of a thread. -/
structure Thread where
  /-- `rt_task(p)`. -/
  rtTask : Bool
  /-- `task_cpu(p)`. -/
  cpu : Cpu
  deriving DecidableEq

structure State where
  tree : Links Gid
  /-- `tg->rt_bandwidth.rt_period`, in ns. -/
  rtPeriod : Gid → Nat
  /-- `tg->rt_bandwidth.rt_runtime`. -/
  rtRuntime : Gid → Nat
  /-- `tg->rt_rq[i]->rt_runtime`. -/
  rqRuntime : Gid → Cpu → Nat
  /-- `cpu_rq(i)->rt.tg`. -/
  rqTg : Cpu → Gid
  threads : List Thread
  sysctlRtPeriod : Nat
  sysctlRtRuntime : Int
  /-- `def_rt_bandwidth.rt_period` and `def_rt_bandwidth.rt_runtime`. -/
  defRtPeriod : Nat
  defRtRuntime : Nat

/-- `struct rt_schedulable_data`. -/
structure RtSchedulableData where
  tg : Option Gid
  rtPeriod : Nat
  rtRuntime : Nat
  deriving DecidableEq

/-- `global_rt_period`. -/
def globalRtPeriod (s : State) : Nat := u64 (s.sysctlRtPeriod * 1000)

/-- `global_rt_runtime`. -/
def globalRtRuntime (s : State) : Nat :=
  if s.sysctlRtRuntime < 0 then runtimeInf else u64 (s.sysctlRtRuntime * 1000)

/-- `rt_bandwidth_enabled`. -/
def rtBandwidthEnabled (s : State) : Bool := decide (0 ≤ s.sysctlRtRuntime)

/-- `tg_has_rt_tasks`. -/
def tgHasRtTasks (s : State) (tg : Gid) : Bool :=
  s.threads.any fun p => p.rtTask && decide (s.rqTg p.cpu = tg)

/-- The period of `tg` in the walk for `d`. -/
def RtSchedulableData.period (d : RtSchedulableData) (s : State) (tg : Gid) : Nat :=
  if d.tg = some tg then d.rtPeriod else s.rtPeriod tg

/-- The runtime of `tg` in the walk for `d`. -/
def RtSchedulableData.runtime (d : RtSchedulableData) (s : State) (tg : Gid) : Nat :=
  if d.tg = some tg then d.rtRuntime else s.rtRuntime tg

def tgRtSchedulable (cfg : Config) (s : State) (tg : Gid) (d : RtSchedulableData) : Int :=
  let period := d.period s tg
  let runtime := d.runtime s tg
  if period < runtime ∧ runtime ≠ runtimeInf then einval
  else if rtBandwidthEnabled s ∧ runtime = 0 ∧ tgHasRtTasks s tg then ebusy
  else
    let total := toRatio cfg period runtime
    if toRatio cfg (globalRtPeriod s) (globalRtRuntime s) < total then einval
    else
      -- `sum` is an `unsigned long`
      let sum := (s.tree.children tg).foldl (fun sum child =>
        (sum + toRatio cfg (d.period s child) (d.runtime s child)) % 2 ^ cfg.longBits) 0
      if total < sum then einval else 0

/-- `__rt_schedulable` returns `ret`. -/
def RtSchedulable (cfg : Config) (s : State) (d : RtSchedulableData) (ret : Int) : Prop :=
  Loop.Ends
    (walkTgTreeFrom s.tree rootTaskGroup (fun tg d => (tgRtSchedulable cfg s tg d, d)) tgNop)
    (.down rootTaskGroup, d) (ret, d)

/-- `tg_set_rt_bandwidth`, behind the walk. -/
def State.setRtBandwidth (cfg : Config) (s : State) (tg : Gid) (rtPeriod rtRuntime : Nat) : State :=
  { s with
    rtPeriod := Function.update s.rtPeriod tg rtPeriod
    rtRuntime := Function.update s.rtRuntime tg rtRuntime
    rqRuntime := Function.update s.rqRuntime tg fun i =>
      if i ∈ cfg.cpus then rtRuntime else s.rqRuntime tg i }

/-- `tg_set_rt_bandwidth` returns `err` in the state `t`. -/
structure TgSetRtBandwidth (cfg : Config) (s : State) (tg : Gid) (rtPeriod rtRuntime : Nat)
    (err : Int) (t : State) : Prop where
  walk : RtSchedulable cfg s { tg := some tg, rtPeriod := rtPeriod, rtRuntime := rtRuntime } err
  state : t = if err = 0 then s.setRtBandwidth cfg tg rtPeriod rtRuntime else s

/-- `sched_group_set_rt_runtime` returns `err` in the state `t`. -/
def SchedGroupSetRtRuntime (cfg : Config) (s : State) (tg : Gid) (rtRuntimeUs : Int) (err : Int)
    (t : State) : Prop :=
  TgSetRtBandwidth cfg s tg (s.rtPeriod tg)
    (if rtRuntimeUs < 0 then runtimeInf else u64 (rtRuntimeUs * 1000)) err t

/-- `sched_group_set_rt_period` returns `err` in the state `t`. -/
def SchedGroupSetRtPeriod (cfg : Config) (s : State) (tg : Gid) (rtPeriodUs : Int) (err : Int)
    (t : State) : Prop :=
  if u64 (rtPeriodUs * 1000) = 0 then err = einval ∧ t = s
  else TgSetRtBandwidth cfg s tg (u64 (rtPeriodUs * 1000)) (s.rtRuntime tg) err t

/-- `sched_rt_global_constraints` returns `ret`. -/
def SchedRtGlobalConstraints (cfg : Config) (s : State) (ret : Int) : Prop :=
  if s.sysctlRtPeriod = 0 then ret = einval
  else if globalRtPeriod s < globalRtRuntime s ∧ globalRtRuntime s ≠ runtimeInf then ret = einval
  else RtSchedulable cfg s { tg := none, rtPeriod := 0, rtRuntime := 0 } ret

/-- What `proc_dointvec` writes: an `unsigned int` and an `int`. -/
def State.setSysctl (s : State) (period : Nat) (runtime : Int) : State :=
  { s with sysctlRtPeriod := period, sysctlRtRuntime := runtime }

/-- `sched_rt_handler` returns `ret` in the state `t` after `proc_dointvec` has written these, where
nothing else happens in between: the source stores the new limit before it takes
`rt_constraints_mutex`, so that another CPU may see it before it is checked. -/
def SchedRtHandler (cfg : Config) (s : State) (period : Nat) (runtime : Int) (ret : Int)
    (t : State) : Prop :=
  let new := s.setSysctl period runtime
  SchedRtGlobalConstraints cfg new ret ∧
    t = if ret ≠ 0 then s
      else { new with defRtRuntime := globalRtRuntime new, defRtPeriod := globalRtPeriod new }

/-- `sched_create_group`, where nothing fails; `alloc_rt_sched_group` sets the limits. -/
def schedCreateGroup (cfg : Config) (s : State) (tg parent : Gid) (htg : s.tree.Fresh tg)
    (hne : tg ≠ parent) : State :=
  { s with
    tree := s.tree.link tg parent htg hne
    rtPeriod := Function.update s.rtPeriod tg s.defRtPeriod
    rtRuntime := Function.update s.rtRuntime tg 0
    rqRuntime := Function.update s.rqRuntime tg fun i =>
      if i ∈ cfg.cpus then 0 else s.rqRuntime tg i }

/-- `sched_destroy_group`. -/
def schedDestroyGroup (s : State) (tg : Gid) : State :=
  match s.tree.parent tg with
  | some parent => { s with tree := s.tree.unlink tg parent }
  | none => s

/-! ## Ratios -/

section Ratio

variable {cfg : Config} {period runtime : Nat}

/-- A long has more bits than a ratio. -/
theorem twentyTwo_le (cfg : Config) : 22 ≤ cfg.longBits := by
  obtain h | h := cfg.long
  · omega
  · omega

theorem toRatio_zero : toRatio cfg period 0 = 0 := by
  rw [toRatio, if_neg (by decide), Nat.zero_mul, Nat.zero_mod, Nat.zero_div, Nat.zero_mod]

theorem toRatio_inf : toRatio cfg period runtimeInf = 2 ^ 20 := if_pos rfl

/-- A limit of no more than the period is no more than the whole CPU. -/
theorem toRatio_le (h : runtime ≤ period ∨ runtime = runtimeInf) :
    toRatio cfg period runtime ≤ 2 ^ 20 := by
  by_cases hinf : runtime = runtimeInf
  · rw [hinf, toRatio_inf]
  · have hle := h.resolve_right hinf
    rw [toRatio, if_neg hinf]
    refine (Nat.mod_le _ _).trans ?_
    refine Nat.div_le_of_le_mul ?_
    exact (Nat.mod_le _ _).trans (Nat.mul_le_mul_right _ hle)

end Ratio

/-! ## The walk -/

section Walk

variable {cfg : Config} {s : State} {d : RtSchedulableData} {tg : Gid} {ret : Int}

/-- The ratio of a group in the walk for `d`. -/
def RtSchedulableData.ratio (d : RtSchedulableData) (cfg : Config) (s : State) (tg : Gid) : Nat :=
  toRatio cfg (d.period s tg) (d.runtime s tg)

/-- The global ratio. -/
def globalRatio (cfg : Config) (s : State) : Nat :=
  toRatio cfg (globalRtPeriod s) (globalRtRuntime s)

/-- What `tg_rt_schedulable` looks for, apart from the RT tasks. -/
structure Fits (cfg : Config) (s : State) (d : RtSchedulableData) (tg : Gid) : Prop where
  runtime : d.runtime s tg ≤ d.period s tg ∨ d.runtime s tg = runtimeInf
  total : d.ratio cfg s tg ≤ globalRatio cfg s
  sum : ((s.tree.children tg).map (d.ratio cfg s)).sum % 2 ^ cfg.longBits ≤ d.ratio cfg s tg

/-- Why `tg_rt_schedulable` returns `-EBUSY`. -/
def Starves (s : State) (d : RtSchedulableData) (tg : Gid) : Prop :=
  rtBandwidthEnabled s ∧ d.runtime s tg = 0 ∧ tgHasRtTasks s tg

/-- A sum in a word is the sum of the ratios modulo the word. -/
theorem sum_wraps (f : Gid → Nat) (n sum : Nat) (children : List Gid) (hsum : sum < 2 ^ n) :
    children.foldl (fun sum child => (sum + f child) % 2 ^ n) sum =
      (sum + (children.map f).sum) % 2 ^ n := by
  induction children generalizing sum with
  | nil => exact (Nat.mod_eq_of_lt hsum).symm
  | cons c children ih =>
    rw [List.foldl_cons, ih _ (Nat.mod_lt _ (Nat.two_pow_pos n)), List.map_cons, List.sum_cons,
      Nat.mod_add_mod, Nat.add_assoc]

/-- One visit passes exactly when the group fits and starves nobody. -/
theorem tgRtSchedulable_iff :
    tgRtSchedulable cfg s tg d = 0 ↔ Fits cfg s d tg ∧ ¬Starves s d tg := by
  have hsum : (s.tree.children tg).foldl (fun sum child =>
      (sum + toRatio cfg (d.period s child) (d.runtime s child)) % 2 ^ cfg.longBits) 0 =
      ((s.tree.children tg).map (d.ratio cfg s)).sum % 2 ^ cfg.longBits := by
    have h := sum_wraps (d.ratio cfg s) cfg.longBits 0 (s.tree.children tg) (Nat.two_pow_pos _)
    rwa [Nat.zero_add] at h
  unfold tgRtSchedulable
  rw [hsum]
  dsimp only
  by_cases hlimit : d.period s tg < d.runtime s tg ∧ d.runtime s tg ≠ runtimeInf
  · rw [if_pos hlimit]
    refine iff_of_false (by decide) fun h => ?_
    obtain hle | hinf := h.1.runtime
    · exact absurd hlimit.1 (Nat.not_lt.mpr hle)
    · exact hlimit.2 hinf
  · rw [if_neg hlimit]
    have hruntime : d.runtime s tg ≤ d.period s tg ∨ d.runtime s tg = runtimeInf := by
      by_cases hinf : d.runtime s tg = runtimeInf
      · exact .inr hinf
      · exact .inl (Nat.not_lt.mp fun hlt => hlimit ⟨hlt, hinf⟩)
    by_cases hbusy : rtBandwidthEnabled s ∧ d.runtime s tg = 0 ∧ tgHasRtTasks s tg
    · rw [if_pos hbusy]
      exact iff_of_false (by decide) fun h => h.2 hbusy
    · rw [if_neg hbusy]
      by_cases htotal : toRatio cfg (globalRtPeriod s) (globalRtRuntime s) <
          toRatio cfg (d.period s tg) (d.runtime s tg)
      · rw [if_pos htotal]
        exact iff_of_false (by decide) fun h => absurd htotal (Nat.not_lt.mpr h.1.total)
      · rw [if_neg htotal]
        by_cases hfit : toRatio cfg (d.period s tg) (d.runtime s tg) <
            ((s.tree.children tg).map (d.ratio cfg s)).sum % 2 ^ cfg.longBits
        · rw [if_pos hfit]
          exact iff_of_false (by decide) fun h => absurd hfit (Nat.not_lt.mpr h.1.sum)
        · rw [if_neg hfit]
          exact iff_of_true rfl ⟨⟨hruntime, Nat.not_lt.mp htotal, Nat.not_lt.mp hfit⟩, hbusy⟩

/-- The visitors of the walk. -/
def visits (cfg : Config) (s : State) : Visit Gid → RtSchedulableData → Int × RtSchedulableData :=
  visitor (fun tg d => (tgRtSchedulable cfg s tg d, d)) tgNop

theorem visits_snd (v : Visit Gid) (d : RtSchedulableData) : (visits cfg s v d).2 = d := by
  cases v with
  | enter tg => rfl
  | leave tg => rfl

/-- The walk ends, and with what the visits return. -/
theorem rtSchedulable_iff_visitAll : RtSchedulable cfg s d ret ↔
    ret = (Links.visitAll (visits cfg s) (s.tree.visits rootTaskGroup) d).1 := by
  have hends : Loop.Ends (walkTgTreeFrom s.tree rootTaskGroup
      (fun tg d => (tgRtSchedulable cfg s tg d, d)) tgNop) (.down rootTaskGroup, d)
      (Links.visitAll (visits cfg s) (s.tree.visits rootTaskGroup) d) :=
    (covers_inner .refl d).ends
  have hsnd : (Links.visitAll (visits cfg s) (s.tree.visits rootTaskGroup) d).2 = d :=
    Links.visitAll_snd visits_snd
  constructor
  · intro h
    exact congrArg Prod.fst (h.unique hends)
  · rintro rfl
    have heq : ((Links.visitAll (visits cfg s) (s.tree.visits rootTaskGroup) d).1, d) =
        Links.visitAll (visits cfg s) (s.tree.visits rootTaskGroup) d := Prod.ext rfl hsnd.symm
    rw [RtSchedulable, heq]
    exact hends

theorem rtSchedulable_total (cfg : Config) (s : State) (d : RtSchedulableData) :
    ∃ ret, RtSchedulable cfg s d ret := ⟨_, rtSchedulable_iff_visitAll.mpr rfl⟩

/-- The walk returns 0 exactly if every group of the tree passes its check. -/
theorem rtSchedulable_iff : RtSchedulable cfg s d 0 ↔
    ∀ tg, s.tree.Below rootTaskGroup tg → Fits cfg s d tg ∧ ¬Starves s d tg := by
  rw [rtSchedulable_iff_visitAll, eq_comm, Links.visitAll_eq_zero_iff visits_snd]
  constructor
  · intro h tg htg
    exact tgRtSchedulable_iff.mp (h (.enter tg) (Links.enter_mem_visits.mpr htg))
  · intro h v hv
    cases v with
    | enter tg => exact tgRtSchedulable_iff.mpr (h tg (Links.enter_mem_visits.mp hv))
    | leave tg => rfl

end Walk

end LinuxWrr.Tg.Rt
