import LinuxWrr.Tg.RtSchedulable

/-!
# Real-time bandwidth over runs

Groups are created and destroyed, their limits and the global one are written, and threads come and
go, change their class and move between CPUs, in any order, but one after the other: while the
global limit is written, from the store to the check, nothing else happens. Otherwise a group could
get a limit that the check then refuses to the whole system (`overlap_exceeds`).

- `RtInv`: every group has enough for its children, and none more than the global limit.
- `rtBandwidth_reach`: **in every run, groups none of which is inside another are never promised
  more than a group around them, nor more than the global limit**.
- `share_reach`: so are the shares of the CPU, but for rounding.
- `setRtBandwidth_admits`: a limit is accepted exactly if it fits in between the parent and the
  children, and the root group is not left without runtime while there are RT tasks anywhere.
-/

namespace LinuxWrr.Tg.Rt

/-- One operation, which no other overlaps. A `long` and an `int` are what their types can hold. -/
inductive Step (cfg : Config) : State → State → Prop where
  /-- `kzalloc` returns memory that is not in use. -/
  | create {s : State} {tg parent : Gid} (htg : s.tree.Fresh tg) (hne : tg ≠ parent)
      (hroot : tg ≠ rootTaskGroup) : Step cfg s (schedCreateGroup cfg s tg parent htg hne)
  | destroy (s : State) (tg : Gid) : Step cfg s (schedDestroyGroup s tg)
  | setRuntime {s t : State} {tg : Gid} {us err : Int} (hus : cfg.IsLong us)
      (h : SchedGroupSetRtRuntime cfg s tg us err t) : Step cfg s t
  | setPeriod {s t : State} {tg : Gid} {us err : Int} (hus : cfg.IsLong us)
      (h : SchedGroupSetRtPeriod cfg s tg us err t) : Step cfg s t
  | sysctl {s t : State} {period : Nat} {runtime ret : Int} (hperiod : period < 2 ^ 32)
      (hruntime : -2 ^ 31 ≤ runtime ∧ runtime < 2 ^ 31)
      (h : SchedRtHandler cfg s period runtime ret t) : Step cfg s t
  | threads (s : State) (threads : List Thread) : Step cfg s { s with threads := threads }

/-- After `sched_init`. -/
def boot : State where
  tree := Links.empty
  rtPeriod _ := 1000000 * 1000
  rtRuntime _ := 950000 * 1000
  rqRuntime _ _ := 950000 * 1000
  rqTg _ := rootTaskGroup
  threads := []
  sysctlRtPeriod := 1000000
  sysctlRtRuntime := 950000
  defRtPeriod := 1000000 * 1000
  defRtRuntime := 950000 * 1000

/-- `s` is reached by some run of operations that do not overlap. -/
def Reachable (cfg : Config) (s : State) : Prop := Relation.ReflTransGen (Step cfg) boot s

/-- The ratio of a group. -/
def ratio (cfg : Config) (s : State) (tg : Gid) : Nat :=
  toRatio cfg (s.rtPeriod tg) (s.rtRuntime tg)

/-- What every operation keeps of the groups below the root. -/
structure RtInv (cfg : Config) (s : State) : Prop where
  period : ∀ tg, s.tree.Below rootTaskGroup tg → 0 < s.rtPeriod tg
  runtime : ∀ tg, s.tree.Below rootTaskGroup tg →
    s.rtRuntime tg ≤ s.rtPeriod tg ∨ s.rtRuntime tg = runtimeInf
  total : ∀ tg, s.tree.Below rootTaskGroup tg → ratio cfg s tg ≤ globalRatio cfg s
  sum : ∀ tg, s.tree.Below rootTaskGroup tg →
    ((s.tree.children tg).map (ratio cfg s)).sum ≤ ratio cfg s tg
  /-- With a `long` of 32 bits, no limit is so long that `to_ratio` overflows. -/
  small : cfg.longBits = 32 → ∀ tg, s.tree.Below rootTaskGroup tg →
    s.rtRuntime tg < 2 ^ 44 ∨ s.rtRuntime tg = runtimeInf
  globalRuntime : globalRtRuntime s ≤ globalRtPeriod s ∨ globalRtRuntime s = runtimeInf
  globalSmall : globalRtRuntime s < 2 ^ 44 ∨ globalRtRuntime s = runtimeInf
  globalPeriod : 0 < globalRtPeriod s
  defPeriod : 0 < s.defRtPeriod
  rqTg : ∀ i, s.rqTg i = rootTaskGroup

variable {cfg : Config} {s t : State} {d : RtSchedulableData} {tg parent g : Gid} {err : Int}
  {period runtime : Nat}

/-! ## What the operations do to the ratios -/

section Data

theorem data_period_self (h : d.tg = some tg) : d.period s tg = d.rtPeriod := if_pos h

theorem data_runtime_self (h : d.tg = some tg) : d.runtime s tg = d.rtRuntime := if_pos h

theorem data_ratio_self (h : d.tg = some tg) :
    d.ratio cfg s tg = toRatio cfg d.rtPeriod d.rtRuntime := by
  rw [RtSchedulableData.ratio, data_period_self h, data_runtime_self h]

theorem data_period_of_ne (h : d.tg ≠ some g) : d.period s g = s.rtPeriod g := if_neg h

theorem data_runtime_of_ne (h : d.tg ≠ some g) : d.runtime s g = s.rtRuntime g := if_neg h

theorem data_ratio_of_ne (h : d.tg ≠ some g) : d.ratio cfg s g = ratio cfg s g := by
  rw [RtSchedulableData.ratio, data_period_of_ne h, data_runtime_of_ne h, ratio]

/-- A walk for one group takes the others as they are. -/
theorem data_tg_ne (hd : d.tg = some tg) (h : g ≠ tg) : d.tg ≠ some g := by
  rw [hd]
  exact fun heq => h (Option.some.inj heq).symm

/-- The sum over the children of the parent, with the new limit. -/
theorem sum_with (hd : d.tg = some tg) (hmem : tg ∈ s.tree.children g) :
    ((s.tree.children g).map (d.ratio cfg s)).sum =
      toRatio cfg d.rtPeriod d.rtRuntime +
        (((s.tree.children g).erase tg).map (ratio cfg s)).sum := by
  have hrest : ((s.tree.children g).erase tg).map (d.ratio cfg s) =
      ((s.tree.children g).erase tg).map (ratio cfg s) := by
    refine List.map_congr_left fun c hc => ?_
    have hne : c ≠ tg := ((s.tree.nodup g).mem_erase_iff.mp hc).1
    exact data_ratio_of_ne (data_tg_ne hd hne)
  rw [← List.sum_map_erase (d.ratio cfg s) hmem, data_ratio_self hd, hrest]

/-- Elsewhere the sum over the children is what it was. -/
theorem sum_without (hd : d.tg = some tg) (hmem : tg ∉ s.tree.children g) :
    (s.tree.children g).map (d.ratio cfg s) = (s.tree.children g).map (ratio cfg s) := by
  refine List.map_congr_left fun c hc => ?_
  have hne : c ≠ tg := by
    rintro rfl
    exact hmem hc
  exact data_ratio_of_ne (data_tg_ne hd hne)

end Data

section SetRtBandwidth

/-- The new periods are those the check was made for. -/
theorem setRtBandwidth_period : (s.setRtBandwidth cfg tg period runtime).rtPeriod g =
    RtSchedulableData.period ⟨some tg, period, runtime⟩ s g := by
  by_cases h : g = tg
  · rw [h, data_period_self rfl]
    exact Function.update_self ..
  · rw [data_period_of_ne (data_tg_ne rfl h)]
    exact Function.update_of_ne h ..

/-- The new runtimes are those the check was made for. -/
theorem setRtBandwidth_runtime : (s.setRtBandwidth cfg tg period runtime).rtRuntime g =
    RtSchedulableData.runtime ⟨some tg, period, runtime⟩ s g := by
  by_cases h : g = tg
  · rw [h, data_runtime_self rfl]
    exact Function.update_self ..
  · rw [data_runtime_of_ne (data_tg_ne rfl h)]
    exact Function.update_of_ne h ..

/-- The new ratios are those the check was made for. -/
theorem setRtBandwidth_ratio : ratio cfg (s.setRtBandwidth cfg tg period runtime) =
    RtSchedulableData.ratio ⟨some tg, period, runtime⟩ cfg s := by
  funext g
  rw [ratio, setRtBandwidth_period, setRtBandwidth_runtime, RtSchedulableData.ratio]

end SetRtBandwidth

/-- A ratio of a group whose limit does not exceed its period. -/
theorem RtInv.ratio_le (h : RtInv cfg s) (htg : s.tree.Below rootTaskGroup tg) :
    ratio cfg s tg ≤ 2 ^ 20 := toRatio_le (h.runtime tg htg)

/-- While a limit is being checked, the sum of the children does not overflow. -/
theorem RtInv.sum_lt (h : RtInv cfg s) (hd : d.tg = some tg)
    (hfit : ∀ g, s.tree.Below rootTaskGroup g → Fits cfg s d g)
    (hg : s.tree.Below rootTaskGroup g) :
    ((s.tree.children g).map (d.ratio cfg s)).sum ≤ d.ratio cfg s g := by
  have hlt : ((s.tree.children g).map (d.ratio cfg s)).sum ≤ 2 ^ 21 := by
    have hsum := h.sum g hg
    have hle := h.ratio_le hg
    by_cases hmem : tg ∈ s.tree.children g
    · have hfit' := hfit tg (hg.trans (.of_mem hmem))
      have hnew : d.ratio cfg s tg ≤ 2 ^ 20 := toRatio_le hfit'.runtime
      have hold : (((s.tree.children g).erase tg).map (ratio cfg s)).sum ≤
          ((s.tree.children g).map (ratio cfg s)).sum :=
        (List.erase_sublist.map _).sum_le_sum fun _ _ => Nat.zero_le _
      rw [data_ratio_self hd] at hnew
      rw [sum_with hd hmem]
      omega
    · rw [sum_without hd hmem]
      omega
  have hwide : 2 ^ 21 < 2 ^ cfg.longBits :=
    Nat.pow_lt_pow_right (by decide) (Nat.lt_of_lt_of_le (by decide) (twentyTwo_le cfg))
  have hfits := (hfit g hg).sum
  rwa [Nat.mod_eq_of_lt (hlt.trans_lt hwide)] at hfits

/-! ## The steps -/

/-- `sched_init` gives the root group all of the global limit. -/
theorem boot_inv (cfg : Config) : RtInv cfg boot := by
  refine
    { period := fun _ _ => show 0 < 1000000 * 1000 by decide
      runtime := fun _ _ => .inl (show 950000 * 1000 ≤ 1000000 * 1000 by decide)
      total := fun _ _ => Nat.le_refl _
      sum := fun _ _ => Nat.zero_le _
      small := fun _ _ _ => .inl (show 950000 * 1000 < 2 ^ 44 by decide)
      globalRuntime := .inl (by decide)
      globalSmall := .inl (by decide)
      globalPeriod := by decide
      defPeriod := by decide
      rqTg := fun _ => rfl }

section Create

variable {htg : s.tree.Fresh tg} {hne : tg ≠ parent}

/-- A new group has the default period. -/
theorem create_period_self :
    (schedCreateGroup cfg s tg parent htg hne).rtPeriod tg = s.defRtPeriod :=
  Function.update_self ..

theorem create_runtime_self : (schedCreateGroup cfg s tg parent htg hne).rtRuntime tg = 0 :=
  Function.update_self ..

theorem create_ratio_self : ratio cfg (schedCreateGroup cfg s tg parent htg hne) tg = 0 := by
  rw [ratio, create_runtime_self, toRatio_zero]

theorem create_period_of_ne (h : g ≠ tg) :
    (schedCreateGroup cfg s tg parent htg hne).rtPeriod g = s.rtPeriod g :=
  Function.update_of_ne h ..

theorem create_runtime_of_ne (h : g ≠ tg) :
    (schedCreateGroup cfg s tg parent htg hne).rtRuntime g = s.rtRuntime g :=
  Function.update_of_ne h ..

/-- A new group leaves the shares of the others alone. -/
theorem create_ratio_of_ne (h : g ≠ tg) :
    ratio cfg (schedCreateGroup cfg s tg parent htg hne) g = ratio cfg s g := by
  rw [ratio, create_period_of_ne h, create_runtime_of_ne h, ratio]

/-- The new group adds nothing to its parent. -/
theorem create_sum : (((schedCreateGroup cfg s tg parent htg hne).tree.children g).map
    (ratio cfg (schedCreateGroup cfg s tg parent htg hne))).sum =
    ((s.tree.children g).map (ratio cfg s)).sum := by
  have hold : (s.tree.children g).map (ratio cfg (schedCreateGroup cfg s tg parent htg hne)) =
      (s.tree.children g).map (ratio cfg s) := by
    refine List.map_congr_left fun c hc => create_ratio_of_ne ?_
    rintro rfl
    exact htg.notMem g hc
  by_cases hg : g = parent
  · have hchildren : (schedCreateGroup cfg s tg parent htg hne).tree.children g =
        tg :: s.tree.children g := by
      rw [hg]
      exact Links.link_children_self htg hne
    rw [hchildren, List.map_cons, List.sum_cons, create_ratio_self, hold, Nat.zero_add]
  · have hchildren : (schedCreateGroup cfg s tg parent htg hne).tree.children g =
        s.tree.children g := Links.link_children_of_ne htg hne hg
    rw [hchildren, hold]

/-- A new group has a runtime of 0 and the default period, and so asks for nothing. -/
theorem create_inv (h : RtInv cfg s) (hroot : tg ≠ rootTaskGroup) :
    RtInv cfg (schedCreateGroup cfg s tg parent htg hne) := by
  have hbelow : ∀ g, (schedCreateGroup cfg s tg parent htg hne).tree.Below rootTaskGroup g →
      g = tg ∨ (g ≠ tg ∧ s.tree.Below rootTaskGroup g) := by
    intro g hg
    by_cases hgtg : g = tg
    · exact .inl hgtg
    · obtain hold | ⟨rfl, -⟩ := Links.below_of_link htg hne hg hroot.symm
      · exact .inr ⟨hgtg, hold⟩
      · exact absurd rfl hgtg
  refine
    { period := fun g hg => ?_
      runtime := fun g hg => ?_
      total := fun g hg => ?_
      sum := fun g hg => ?_
      small := fun hlong g hg => ?_
      globalRuntime := h.globalRuntime
      globalSmall := h.globalSmall
      globalPeriod := h.globalPeriod
      defPeriod := h.defPeriod
      rqTg := h.rqTg }
  · obtain rfl | ⟨hgtg, hold⟩ := hbelow g hg
    · rw [create_period_self]
      exact h.defPeriod
    · rw [create_period_of_ne hgtg]
      exact h.period g hold
  · obtain rfl | ⟨hgtg, hold⟩ := hbelow g hg
    · exact .inl (create_runtime_self.trans_le (Nat.zero_le _))
    · rw [create_period_of_ne hgtg, create_runtime_of_ne hgtg]
      exact h.runtime g hold
  · obtain rfl | ⟨hgtg, hold⟩ := hbelow g hg
    · rw [create_ratio_self]
      exact Nat.zero_le _
    · rw [create_ratio_of_ne hgtg]
      exact h.total g hold
  · obtain rfl | ⟨hgtg, hold⟩ := hbelow g hg
    · rw [create_sum, htg.children]
      exact Nat.zero_le _
    · rw [create_sum, create_ratio_of_ne hgtg]
      exact h.sum g hold
  · obtain rfl | ⟨hgtg, hold⟩ := hbelow g hg
    · exact .inl (create_runtime_self.trans_lt (Nat.two_pow_pos 44))
    · rw [create_runtime_of_ne hgtg]
      exact h.small hlong g hold

end Create

/-- Without the group its parent has one child less to provide for. -/
theorem destroy_inv (h : RtInv cfg s) (tg : Gid) : RtInv cfg (schedDestroyGroup s tg) := by
  unfold schedDestroyGroup
  cases hparent : s.tree.parent tg with
  | none => exact h
  | some parent =>
    have hbelow : ∀ g, (s.tree.unlink tg parent).Below rootTaskGroup g →
        s.tree.Below rootTaskGroup g := fun g hg => Links.below_of_unlink hg
    refine
      { h with
        period := fun g hg => h.period g (hbelow g hg)
        runtime := fun g hg => h.runtime g (hbelow g hg)
        total := fun g hg => h.total g (hbelow g hg)
        sum := fun g hg => ?_
        small := fun hlong g hg => h.small hlong g (hbelow g hg) }
    have hsum := h.sum g (hbelow g hg)
    by_cases hg' : g = parent
    · rw [hg'] at hsum ⊢
      refine Nat.le_trans ?_ hsum
      rw [Links.unlink_children_self]
      exact (List.erase_sublist.map _).sum_le_sum fun _ _ => Nat.zero_le _
    · rwa [Links.unlink_children_of_ne hg']

/-- An accepted limit has passed the check of every group; a refused one changes nothing. -/
theorem setRtBandwidth_inv (h : RtInv cfg s) (hset : TgSetRtBandwidth cfg s tg period runtime err t)
    (hperiod : 0 < period ∨ period = s.rtPeriod tg)
    (hsmall : cfg.longBits = 32 → runtime < 2 ^ 44 ∨ runtime = runtimeInf ∨
      runtime = s.rtRuntime tg) : RtInv cfg t := by
  rw [hset.state]
  by_cases herr : err = 0
  · rw [if_pos herr]
    have hwalk := hset.walk
    rw [herr, rtSchedulable_iff] at hwalk
    refine
      { period := fun g hg => ?_
        runtime := fun g hg => ?_
        total := fun g hg => ?_
        sum := fun g hg => ?_
        small := fun hlong g hg => ?_
        globalRuntime := h.globalRuntime
        globalSmall := h.globalSmall
        globalPeriod := h.globalPeriod
        defPeriod := h.defPeriod
        rqTg := h.rqTg }
    · rw [setRtBandwidth_period]
      by_cases hg' : g = tg
      · rw [hg'] at hg ⊢
        rw [data_period_self rfl]
        exact hperiod.elim id fun hold => hold ▸ h.period tg hg
      · rw [data_period_of_ne (data_tg_ne rfl hg')]
        exact h.period g hg
    · rw [setRtBandwidth_period, setRtBandwidth_runtime]
      exact (hwalk g hg).1.runtime
    · rw [setRtBandwidth_ratio]
      exact (hwalk g hg).1.total
    · rw [setRtBandwidth_ratio]
      exact h.sum_lt rfl (fun g hg => (hwalk g hg).1) hg
    · rw [setRtBandwidth_runtime]
      by_cases hg' : g = tg
      · rw [hg'] at hg ⊢
        rw [data_runtime_self rfl]
        obtain hlt | hinf | hold := hsmall hlong
        · exact .inl hlt
        · exact .inr hinf
        · exact hold ▸ h.small hlong tg hg
      · rw [data_runtime_of_ne (data_tg_ne rfl hg')]
        exact h.small hlong g hg
  · rw [if_neg herr]
    exact h

/-! ### The global limit -/

/-- Numbers that fit are stored as they are. -/
theorem u64_eq {x : Int} (h0 : 0 ≤ x) (h : x < 2 ^ 64) : u64 x = x.toNat := by
  rw [u64, Int.emod_eq_of_lt h0 h]

/-- When `sched_rt_global_constraints` passes, the global runtime fits the period and the walk over
all groups has passed. -/
theorem constraints_zero (h : SchedRtGlobalConstraints cfg s 0) : s.sysctlRtPeriod ≠ 0 ∧
    (globalRtRuntime s ≤ globalRtPeriod s ∨ globalRtRuntime s = runtimeInf) ∧
      RtSchedulable cfg s { tg := none, rtPeriod := 0, rtRuntime := 0 } 0 := by
  unfold SchedRtGlobalConstraints at h
  by_cases hperiod : s.sysctlRtPeriod = 0
  · rw [if_pos hperiod] at h
    exact absurd h (by decide)
  · rw [if_neg hperiod] at h
    by_cases hlimit : globalRtPeriod s < globalRtRuntime s ∧ globalRtRuntime s ≠ runtimeInf
    · rw [if_pos hlimit] at h
      exact absurd h (by decide)
    · rw [if_neg hlimit] at h
      refine ⟨hperiod, ?_, h⟩
      by_cases hinf : globalRtRuntime s = runtimeInf
      · exact .inr hinf
      · exact .inl (Nat.not_lt.mp fun hlt => hlimit ⟨hlt, hinf⟩)

/-- A new global limit has passed the check of every group; a refused one is taken back. -/
theorem sysctl_inv (h : RtInv cfg s) {new : Nat} {limit ret : Int} (hnew : new < 2 ^ 32)
    (hlimit : -2 ^ 31 ≤ limit ∧ limit < 2 ^ 31) (hset : SchedRtHandler cfg s new limit ret t) :
    RtInv cfg t := by
  obtain ⟨hret, hstate⟩ := hset
  rw [hstate]
  by_cases hzero : ret = 0
  · rw [if_neg (not_not.mpr hzero)]
    rw [hzero] at hret
    obtain ⟨hperiod, hglobal, hwalk⟩ := constraints_zero hret
    rw [rtSchedulable_iff] at hwalk
    have hpos : 0 < globalRtPeriod (s.setSysctl new limit) := by
      have hne : new ≠ 0 := hperiod
      show 0 < u64 (new * 1000)
      rw [u64_eq (by omega) (by omega)]
      omega
    have hsmall : globalRtRuntime (s.setSysctl new limit) < 2 ^ 44 ∨
        globalRtRuntime (s.setSysctl new limit) = runtimeInf := by
      show (if limit < 0 then runtimeInf else u64 (limit * 1000)) < 2 ^ 44 ∨
        (if limit < 0 then runtimeInf else u64 (limit * 1000)) = runtimeInf
      by_cases hneg : limit < 0
      · rw [if_pos hneg]
        exact .inr rfl
      · rw [if_neg hneg, u64_eq (by omega) (by omega)]
        exact .inl (by omega)
    exact
      { period := h.period
        runtime := h.runtime
        total := fun tg htg => by
          have htotal := (hwalk tg htg).1.total
          rwa [data_ratio_of_ne (Option.some_ne_none tg).symm] at htotal
        sum := h.sum
        small := h.small
        globalRuntime := hglobal
        globalSmall := hsmall
        globalPeriod := hpos
        defPeriod := hpos
        rqTg := h.rqTg }
  · rw [if_pos hzero]
    exact h

/-! ## Runs -/

/-- **Step lemma**: every operation keeps the invariant. -/
theorem step_inv (h : RtInv cfg s) (hstep : Step cfg s t) : RtInv cfg t := by
  cases hstep with
  | create htg hne hroot => exact create_inv h hroot
  | destroy tg => exact destroy_inv h tg
  | @setRuntime _ tg us err hus hset =>
    refine setRtBandwidth_inv h hset (.inr rfl) fun hlong => ?_
    by_cases hneg : us < 0
    · rw [if_pos hneg]
      exact .inr (.inl rfl)
    · have hlt := hus.2
      rw [hlong] at hlt
      rw [if_neg hneg, u64_eq (by omega) (by omega)]
      exact .inl (by omega)
  | @setPeriod _ tg us err hus hset =>
    unfold SchedGroupSetRtPeriod at hset
    by_cases hzero : u64 (us * 1000) = 0
    · rw [if_pos hzero] at hset
      rw [hset.2]
      exact h
    · rw [if_neg hzero] at hset
      exact setRtBandwidth_inv h hset (.inl (Nat.pos_of_ne_zero hzero)) fun _ => .inr (.inr rfl)
  | sysctl hnew hlimit hset => exact sysctl_inv h hnew hlimit hset
  | threads threads =>
    exact ⟨h.period, h.runtime, h.total, h.sum, h.small, h.globalRuntime, h.globalSmall,
      h.globalPeriod, h.defPeriod, h.rqTg⟩

/-- **Run lemma**: the invariant holds after every run. -/
theorem reachable_inv (h : Reachable cfg s) : RtInv cfg s := by
  induction h with
  | refl => exact boot_inv cfg
  | tail _ hstep ih => exact step_inv ih hstep

/-- Groups none of which is inside another have no more than a group around them. -/
theorem RtInv.sum_antichain (h : RtInv cfg s) (htg : s.tree.Below rootTaskGroup tg)
    {A : Finset Gid} (hA : ∀ g ∈ A, s.tree.Below tg g)
    (hanti : ∀ g ∈ A, ∀ g' ∈ A, s.tree.Below g g' → g = g') :
    ∑ g ∈ A, ratio cfg s g ≤ ratio cfg s tg :=
  Links.sum_le_of_antichain (fun g hg => h.sum g (htg.trans hg)) hA hanti

/-- **In every run** of operations that do not overlap, groups none of which is inside another are
promised no more than a group around them, and that one no more than the global limit, which is at
most the whole CPU. -/
theorem rtBandwidth_reach (h : Reachable cfg s) (htg : s.tree.Below rootTaskGroup tg)
    {A : Finset Gid} (hA : ∀ g ∈ A, s.tree.Below tg g)
    (hanti : ∀ g ∈ A, ∀ g' ∈ A, s.tree.Below g g' → g = g') :
    ∑ g ∈ A, ratio cfg s g ≤ ratio cfg s tg ∧ ratio cfg s tg ≤ globalRatio cfg s ∧
      globalRatio cfg s ≤ 2 ^ 20 := by
  have hinv := reachable_inv h
  exact ⟨hinv.sum_antichain htg hA hanti, hinv.total tg htg, toRatio_le hinv.globalRuntime⟩

/-- **Why the global limit has to be written alone.** While the new global limit of the whole CPU is
stored and not yet checked, the root group gets the whole CPU; when the old limit is back, the group
is above it. -/
theorem overlap_exceeds :
    let stored := boot.setSysctl 1000000 1000000
    let s := stored.setRtBandwidth armUp rootTaskGroup 1000000000 1000000000
    TgSetRtBandwidth armUp stored rootTaskGroup 1000000000 1000000000 0 s ∧
      globalRatio armUp (s.setSysctl 1000000 950000) <
        ratio armUp (s.setSysctl 1000000 950000) rootTaskGroup := by
  intro stored s
  exact ⟨⟨⟨5, by decide +kernel⟩, rfl⟩, by decide +kernel⟩

/-! ### Nested groups -/

/-- After one `sched_create_group`. -/
def oneGroup : State := schedCreateGroup armUp boot 1 rootTaskGroup one_fresh one_ne_root

def twoGroups : State := schedCreateGroup armUp oneGroup 2 1 two_fresh two_ne_one

theorem three_ne_one : 3 ≠ 1 := by decide

/-- Groups 2 and 3 in group 1, and an RT thread in the root group. -/
def threeGroups : State :=
  { schedCreateGroup armUp twoGroups 3 1 three_fresh three_ne_one with threads := [⟨true, 0⟩] }

/-- Of each second, group 1 has 400 ms, group 2 has 300 ms of them and group 3 the rest. -/
def limited : State :=
  ((threeGroups.setRtBandwidth armUp 1 1000000000 400000000).setRtBandwidth armUp 2 1000000000
    300000000).setRtBandwidth armUp 3 1000000000 100000000

/-- A write of a runtime that is accepted. -/
theorem setRuntime_step {us : Int} (hus : cfg.IsLong us) (hperiod : s.rtPeriod tg = period)
    (hruntime : (if us < 0 then runtimeInf else u64 (us * 1000)) = runtime)
    (hwalk : RtSchedulable cfg s ⟨some tg, period, runtime⟩ 0) :
    Step cfg s (s.setRtBandwidth cfg tg period runtime) := by
  subst hperiod hruntime
  exact .setRuntime hus ⟨hwalk, rfl⟩

theorem limited_reach : Reachable armUp limited := by
  have hone : Reachable armUp oneGroup :=
    Relation.ReflTransGen.single (.create one_fresh one_ne_root one_ne_root)
  have htwo : Reachable armUp twoGroups := hone.tail (.create two_fresh two_ne_one (by decide))
  have hthree : Reachable armUp threeGroups :=
    (htwo.tail (.create three_fresh three_ne_one (by decide))).tail (.threads _ [⟨true, 0⟩])
  have hlong : ∀ us : Int, 0 ≤ us ∧ us < 2 ^ 31 → armUp.IsLong us := by
    intro us hus
    show -2 ^ 31 ≤ us ∧ us < 2 ^ 31
    omega
  refine ((hthree.tail (setRuntime_step (hlong 400000 (by decide)) ?_ ?_ ⟨20, ?_⟩)).tail
    (setRuntime_step (hlong 300000 (by decide)) ?_ ?_ ⟨20, ?_⟩)).tail
    (setRuntime_step (hlong 100000 (by decide)) ?_ ?_ ⟨20, ?_⟩)
  all_goals decide +kernel

theorem limited_below : ∀ g ∈ ({2, 3} : Finset Gid), limited.tree.Below 1 g := by
  intro g hg
  refine .of_mem ?_
  rw [Finset.mem_insert, Finset.mem_singleton] at hg
  obtain rfl | rfl := hg
  · decide +kernel
  · decide +kernel

theorem limited_one : limited.tree.Below rootTaskGroup 1 := .of_mem (by decide +kernel)

theorem limited_antichain : ∀ g ∈ ({2, 3} : Finset Gid), ∀ g' ∈ ({2, 3} : Finset Gid),
    limited.tree.Below g g' → g = g' := by
  intro g hg g' _ hbelow
  refine (Links.eq_of_below_leaf ?_ hbelow).symm
  rw [Finset.mem_insert, Finset.mem_singleton] at hg
  obtain rfl | rfl := hg
  · decide +kernel
  · decide +kernel

/-- Three and one tenths of the CPU inside of four tenths. -/
theorem rtBandwidth_reach_limited :
    ∑ g ∈ {2, 3}, ratio armUp limited g ≤ ratio armUp limited 1 ∧
      [0, 1, 2, 3].map (ratio armUp limited) = [996147, 419430, 314572, 104857] :=
  ⟨(rtBandwidth_reach limited_reach limited_one limited_below limited_antichain).1,
    by decide +kernel⟩

/-! ## Shares of the CPU -/

/-- The part of the CPU that a limit grants. -/
def share (period runtime : Nat) : ℚ := if runtime = runtimeInf then 1 else runtime / period

/-- `to_ratio` counts a share in units of `2 ^ -20` and rounds it down. -/
theorem share_bounds (hperiod : 0 < period) (hlimit : runtime ≤ period ∨ runtime = runtimeInf)
    (hsmall : runtime < 2 ^ 44 ∨ runtime = runtimeInf) :
    (toRatio cfg period runtime : ℚ) / 2 ^ 20 ≤ share period runtime ∧
      share period runtime ≤ ((toRatio cfg period runtime : ℚ) + 1) / 2 ^ 20 := by
  by_cases hinf : runtime = runtimeInf
  · rw [hinf, toRatio_inf, share, if_pos rfl]
    norm_num
  · have hfit : runtime * 2 ^ 20 < 2 ^ 64 := by
      have hlt := hsmall.resolve_right hinf
      omega
    have hone : runtime * 2 ^ 20 / period ≤ 2 ^ 20 :=
      Nat.div_le_of_le_mul (Nat.mul_le_mul_right _ (hlimit.resolve_right hinf))
    have hwide : 2 ^ 20 < 2 ^ cfg.longBits :=
      Nat.pow_lt_pow_right (by decide) (Nat.lt_of_lt_of_le (by decide) (twentyTwo_le cfg))
    have hratio : toRatio cfg period runtime = runtime * 2 ^ 20 / period := by
      rw [toRatio, if_neg hinf, Nat.mod_eq_of_lt hfit, Nat.mod_eq_of_lt (hone.trans_lt hwide)]
    have hpos : (0 : ℚ) < period := Nat.cast_pos.mpr hperiod
    rw [hratio, share, if_neg hinf]
    constructor
    · rw [div_le_div_iff₀ (by positivity) hpos]
      exact_mod_cast Nat.div_mul_le_self (runtime * 2 ^ 20) period
    · rw [div_le_div_iff₀ hpos (by positivity)]
      have hlt := Nat.lt_div_mul_add (a := runtime * 2 ^ 20) hperiod
      have hle : runtime * 2 ^ 20 ≤ (runtime * 2 ^ 20 / period + 1) * period := by
        rw [Nat.add_one_mul]
        exact Nat.le_of_lt hlt
      exact_mod_cast hle

/-- **The shares of the CPU** that such groups are promised add up to no more than the global one,
but for rounding; on 64 bits this needs that no limit is 2^44 ns or more. -/
theorem share_reach (h : Reachable cfg s) {A : Finset Gid}
    (hA : ∀ g ∈ A, s.tree.Below rootTaskGroup g)
    (hanti : ∀ g ∈ A, ∀ g' ∈ A, s.tree.Below g g' → g = g')
    (hsmall : cfg.longBits = 32 ∨ ∀ g ∈ A, s.rtRuntime g < 2 ^ 44 ∨ s.rtRuntime g = runtimeInf) :
    ∑ g ∈ A, share (s.rtPeriod g) (s.rtRuntime g) ≤
      share (globalRtPeriod s) (globalRtRuntime s) + A.card / 2 ^ 20 := by
  have hinv := reachable_inv h
  have hbound : ∀ g ∈ A, share (s.rtPeriod g) (s.rtRuntime g) ≤
      ((ratio cfg s g : ℚ) + 1) / 2 ^ 20 := by
    intro g hg
    refine (share_bounds (hinv.period g (hA g hg)) (hinv.runtime g (hA g hg)) ?_).2
    exact hsmall.elim (fun hlong => hinv.small hlong g (hA g hg)) fun hall => hall g hg
  have hratio : ((∑ g ∈ A, ratio cfg s g : Nat) : ℚ) ≤ globalRatio cfg s := by
    have hle := (hinv.sum_antichain .refl hA hanti).trans (hinv.total rootTaskGroup .refl)
    exact_mod_cast hle
  have hglobal : (globalRatio cfg s : ℚ) / 2 ^ 20 ≤
      share (globalRtPeriod s) (globalRtRuntime s) :=
    (share_bounds hinv.globalPeriod hinv.globalRuntime hinv.globalSmall).1
  calc ∑ g ∈ A, share (s.rtPeriod g) (s.rtRuntime g)
      ≤ ∑ g ∈ A, ((ratio cfg s g : ℚ) + 1) / 2 ^ 20 := Finset.sum_le_sum hbound
    _ = ((∑ g ∈ A, ratio cfg s g : Nat) : ℚ) / 2 ^ 20 + A.card / 2 ^ 20 := by
        rw [← Finset.sum_div, Finset.sum_add_distrib, Finset.sum_const, nsmul_one, add_div]
        push_cast
        rfl
    _ ≤ (globalRatio cfg s : ℚ) / 2 ^ 20 + A.card / 2 ^ 20 := by gcongr
    _ ≤ share (globalRtPeriod s) (globalRtRuntime s) + A.card / 2 ^ 20 := by gcongr

theorem share_reach_limited :
    ∑ g ∈ {2, 3}, share (limited.rtPeriod g) (limited.rtRuntime g) ≤
        share (globalRtPeriod limited) (globalRtRuntime limited) +
          (({2, 3} : Finset Gid).card : ℚ) / 2 ^ 20 ∧
      ([1, 2, 3].map fun g => (limited.rtPeriod g, limited.rtRuntime g)) =
        [(1000000000, 400000000), (1000000000, 300000000), (1000000000, 100000000)] :=
  ⟨share_reach limited_reach (fun g hg => limited_one.trans (limited_below g hg)) limited_antichain
    (.inl rfl), by decide +kernel⟩

/-! ## Which limits are accepted -/

/-- The limit fits between the parent and the children, and RT tasks do not starve. -/
structure Admissible (cfg : Config) (s : State) (tg : Gid) (period runtime : Nat) : Prop where
  limit : runtime ≤ period ∨ runtime = runtimeInf
  total : toRatio cfg period runtime ≤ globalRatio cfg s
  children : ((s.tree.children tg).map (ratio cfg s)).sum ≤ toRatio cfg period runtime
  parent : ∀ p, s.tree.Below rootTaskGroup p → tg ∈ s.tree.children p →
    toRatio cfg period runtime + (((s.tree.children p).erase tg).map (ratio cfg s)).sum ≤
      ratio cfg s p
  /-- Only the root group is asked about, but then for the RT tasks of all groups. -/
  tasks : rtBandwidthEnabled s → (∃ p ∈ s.threads, p.rtTask = true) →
    (if tg = rootTaskGroup then runtime else s.rtRuntime rootTaskGroup) ≠ 0

/-- All CPUs have the root group as the group of their RT run queue, so that no other group is ever
found to have RT tasks. -/
theorem tgHasRtTasks_iff (h : RtInv cfg s) : tgHasRtTasks s tg = true ↔
    tg = rootTaskGroup ∧ ∃ p ∈ s.threads, p.rtTask = true := by
  unfold tgHasRtTasks
  rw [List.any_eq_true]
  constructor
  · rintro ⟨p, hp, hboth⟩
    obtain ⟨hrt, heq⟩ := (Bool.and_eq_true _ _).mp hboth
    exact ⟨(of_decide_eq_true heq).symm.trans (h.rqTg p.cpu), p, hp, hrt⟩
  · rintro ⟨rfl, p, hp, hrt⟩
    exact ⟨p, hp, (Bool.and_eq_true _ _).mpr ⟨hrt, decide_eq_true (h.rqTg p.cpu)⟩⟩

/-- The walk over all groups comes down to the neighbours of the one group whose limit changes. -/
theorem RtInv.admits (h : RtInv cfg s) (htg : s.tree.Below rootTaskGroup tg) :
    RtSchedulable cfg s ⟨some tg, period, runtime⟩ 0 ↔ Admissible cfg s tg period runtime := by
  have hself : tg ∉ s.tree.children tg := fun hmem => Links.not_below_of_mem hmem .refl
  have hratio : RtSchedulableData.ratio ⟨some tg, period, runtime⟩ cfg s tg =
      toRatio cfg period runtime := data_ratio_self rfl
  have hother : ∀ g, g ≠ tg → RtSchedulableData.ratio ⟨some tg, period, runtime⟩ cfg s g =
      ratio cfg s g := fun g hg => data_ratio_of_ne (data_tg_ne rfl hg)
  have hroot : RtSchedulableData.runtime ⟨some tg, period, runtime⟩ s rootTaskGroup =
      if tg = rootTaskGroup then runtime else s.rtRuntime rootTaskGroup := by
    rw [RtSchedulableData.runtime]
    exact if_congr Option.some_inj rfl rfl
  rw [rtSchedulable_iff]
  constructor
  · intro hwalk
    have hsum : ∀ g, s.tree.Below rootTaskGroup g → ((s.tree.children g).map
        (RtSchedulableData.ratio ⟨some tg, period, runtime⟩ cfg s)).sum ≤
          RtSchedulableData.ratio ⟨some tg, period, runtime⟩ cfg s g := fun g hg =>
      h.sum_lt rfl (fun g hg => (hwalk g hg).1) hg
    obtain ⟨hfit, -⟩ := hwalk tg htg
    refine ⟨?_, ?_, ?_, fun p hp hmem => ?_, fun henabled htasks hzero => ?_⟩
    · have hlimit := hfit.runtime
      rwa [data_runtime_self rfl, data_period_self rfl] at hlimit
    · rw [← hratio]
      exact hfit.total
    · have hchildren := hsum tg htg
      rwa [sum_without rfl hself, hratio] at hchildren
    · have hparent := hsum p hp
      have hne : p ≠ tg := fun heq => hself (heq ▸ hmem)
      rwa [sum_with rfl hmem, hother p hne] at hparent
    · refine (hwalk rootTaskGroup .refl).2 ⟨henabled, hroot.trans hzero, ?_⟩
      exact (tgHasRtTasks_iff h).mpr ⟨rfl, htasks⟩
  · intro hadm g hg
    have hstarves : ¬Starves s ⟨some tg, period, runtime⟩ g := by
      rintro ⟨henabled, hzero, hbusy⟩
      obtain ⟨rfl, htasks⟩ := (tgHasRtTasks_iff h).mp hbusy
      exact hadm.tasks henabled htasks (hroot.symm.trans hzero)
    refine ⟨?_, hstarves⟩
    by_cases hgtg : g = tg
    · subst hgtg
      refine ⟨?_, hratio.trans_le hadm.total, (Nat.mod_le _ _).trans ?_⟩
      · rw [data_runtime_self rfl, data_period_self rfl]
        exact hadm.limit
      · rw [sum_without rfl hself, hratio]
        exact hadm.children
    · have hne : RtSchedulableData.tg ⟨some tg, period, runtime⟩ ≠ some g := data_tg_ne rfl hgtg
      refine ⟨?_, (hother g hgtg).trans_le (h.total g hg), (Nat.mod_le _ _).trans ?_⟩
      · rw [data_runtime_of_ne hne, data_period_of_ne hne]
        exact h.runtime g hg
      · rw [hother g hgtg]
        by_cases hmem : tg ∈ s.tree.children g
        · rw [sum_with rfl hmem]
          exact hadm.parent g hg hmem
        · rw [sum_without rfl hmem]
          exact h.sum g hg

/-- **A limit is accepted** exactly if it fits between the parent and the children: after operations
that did not overlap, the walk over the whole tree is as good as a look at the neighbours. -/
theorem setRtBandwidth_admits (h : Reachable cfg s) (htg : s.tree.Below rootTaskGroup tg)
    (period runtime : Nat) : (∃ err t, TgSetRtBandwidth cfg s tg period runtime err t) ∧
      ∀ err t, TgSetRtBandwidth cfg s tg period runtime err t →
        (err = 0 ↔ Admissible cfg s tg period runtime) := by
  constructor
  · obtain ⟨err, hwalk⟩ := rtSchedulable_total cfg s ⟨some tg, period, runtime⟩
    exact ⟨err, _, hwalk, rfl⟩
  · intro err t hset
    rw [← (reachable_inv h).admits htg, rtSchedulable_iff_visitAll,
      rtSchedulable_iff_visitAll.mp hset.walk, eq_comm]

/-- Half of its limit for group 3 is accepted, twice its limit is refused. -/
theorem setRtBandwidth_admits_limited :
    (TgSetRtBandwidth armUp limited 3 1000000000 50000000 0
        (limited.setRtBandwidth armUp 3 1000000000 50000000) ∧
      Admissible armUp limited 3 1000000000 50000000) ∧
    TgSetRtBandwidth armUp limited 3 1000000000 200000000 einval limited ∧
      ¬Admissible armUp limited 3 1000000000 200000000 := by
  have hbelow : limited.tree.Below rootTaskGroup 3 :=
    limited_one.trans (limited_below 3 (by decide))
  have hhalf : TgSetRtBandwidth armUp limited 3 1000000000 50000000 0
      (limited.setRtBandwidth armUp 3 1000000000 50000000) := ⟨⟨20, by decide +kernel⟩, rfl⟩
  have htwice : TgSetRtBandwidth armUp limited 3 1000000000 200000000 einval limited :=
    ⟨⟨20, by decide +kernel⟩, rfl⟩
  refine ⟨⟨hhalf, ?_⟩, htwice, fun hadm => ?_⟩
  · exact ((setRtBandwidth_admits limited_reach hbelow 1000000000 50000000).2 _ _ hhalf).mp rfl
  · have hzero := ((setRtBandwidth_admits limited_reach hbelow 1000000000 200000000).2 _ _
      htwice).mpr hadm
    exact absurd hzero (by decide)

end LinuxWrr.Tg.Rt
