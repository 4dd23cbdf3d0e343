import LinuxWrr.Tg.CfsSchedulable

/-!
# Quotas over runs

Groups are created and destroyed, and their quotas and periods are written, in any order; no group
comes or goes while a walk is on its way.

- `CfsInv`: no group is promised more than those around it.
- `cfsQuota_reach`: **so it is in every run**.
- `setCfsBandwidth_admits`: a quota is accepted exactly if it lies between the limits above and
  those below, whatever a rejected walk has left in `hierarchal_quota`.

`init_cfs_bandwidth` gives a group no limit, and a period that is a parameter here.
-/

namespace LinuxWrr.Tg.Cfs

/-- `sched_create_group`, where nothing fails; `init_cfs_bandwidth` sets the quota. -/
def schedCreateGroup (s : State) (defaultPeriod : Nat) (tg parent : Gid) (htg : s.tree.Fresh tg)
    (hne : tg ≠ parent) : State where
  tree := s.tree.link tg parent htg hne
  period := Function.update s.period tg defaultPeriod
  quota := Function.update s.quota tg runtimeInf
  hierarchalQuota := Function.update s.hierarchalQuota tg 0

/-- `sched_destroy_group`. -/
def schedDestroyGroup (s : State) (tg : Gid) : State :=
  match s.tree.parent tg with
  | some parent => { s with tree := s.tree.unlink tg parent }
  | none => s

/-- One operation. A `long` is what its type can hold. -/
inductive Step (cfg : Config) (defaultPeriod : Nat) : State → State → Prop where
  /-- `kzalloc` returns memory that is not in use. -/
  | create {s : State} {tg parent : Gid} (htg : s.tree.Fresh tg) (hne : tg ≠ parent)
      (hroot : tg ≠ rootTaskGroup) :
      Step cfg defaultPeriod s (schedCreateGroup s defaultPeriod tg parent htg hne)
  | destroy (s : State) (tg : Gid) : Step cfg defaultPeriod s (schedDestroyGroup s tg)
  | setQuota {s t : State} {tg : Gid} {us ret : Int} (hus : cfg.IsLong us)
      (h : TgSetCfsQuota cfg s tg us ret t) : Step cfg defaultPeriod s t
  | setPeriod {s t : State} {tg : Gid} {us ret : Int} (hus : cfg.IsLong us)
      (h : TgSetCfsPeriod cfg s tg us ret t) : Step cfg defaultPeriod s t

/-- After `sched_init`. -/
def boot (defaultPeriod : Nat) : State where
  tree := Links.empty
  period _ := defaultPeriod
  quota _ := runtimeInf
  hierarchalQuota _ := 0

/-- `s` is reached by some run. -/
def Reachable (cfg : Config) (defaultPeriod : Nat) (s : State) : Prop :=
  Relation.ReflTransGen (Step cfg defaultPeriod) (boot defaultPeriod) s

/-- The period of a group is one that `tg_set_cfs_bandwidth` would take. -/
def IsPeriod (period : Nat) : Prop := minCfsQuotaPeriod ≤ period ∧ period ≤ maxCfsQuotaPeriod

/-- The quota has come from a `long`, as microseconds. -/
def IsQuota (cfg : Config) (quota : Nat) : Prop :=
  quota = runtimeInf ∨ quota / 1000 < 2 ^ (cfg.longBits - 1)

/-- The ratio of a group. -/
def ratio (cfg : Config) (s : State) (tg : Gid) : Nat :=
  normalized cfg (u64 (tgGetCfsPeriod cfg s tg)) (u64 (tgGetCfsQuota cfg s tg))

/-- The limit of a group. -/
def limit (cfg : Config) (s : State) (tg : Gid) : WithTop ℕ := limitOf tg (ratio cfg s tg)

/-- The limit that `tg` would have. -/
def newLimit (cfg : Config) (tg : Gid) (period quota : Nat) : WithTop ℕ :=
  limitOf tg <|
    if quota = runtimeInf then runtimeInf else normalized cfg (period / 1000) (quota / 1000)

structure CfsInv (cfg : Config) (s : State) : Prop where
  root : s.tree.parent rootTaskGroup = none
  period : ∀ g, IsPeriod (s.period g)
  quota : ∀ g, IsQuota cfg (s.quota g)
  nested : ∀ g, s.tree.Below rootTaskGroup g → Nested s.tree (limit cfg s) g

variable {cfg : Config} {s t u : State} {tg parent g a : Gid} {ret : Int}
  {period quota defaultPeriod : Nat}

/-! ## What a new quota does to the limits -/

section Ratio

/-- The walk is about the group it was started for. -/
theorem init_tg : (CfsSchedulableData.init tg period quota).tg = tg := by
  unfold CfsSchedulableData.init
  split <;> rfl

theorem normalized_inf : normalized cfg period runtimeInf = runtimeInf := if_pos (.inl rfl)

/-- For the group in question the walk uses the new period and quota. -/
theorem normalize_self : normalizeCfsQuota cfg s tg (.init tg period quota) =
    if quota = runtimeInf then runtimeInf else normalized cfg (period / 1000) (quota / 1000) := by
  rw [normalizeCfsQuota, if_pos init_tg.symm]
  by_cases hinf : quota = runtimeInf
  · rw [CfsSchedulableData.init, if_neg (not_not.mpr hinf), if_pos hinf, hinf, normalized_inf]
  · rw [CfsSchedulableData.init, if_pos hinf, if_neg hinf]

/-- For any other group the walk uses what the group has. -/
theorem normalize_of_ne (h : g ≠ tg) :
    normalizeCfsQuota cfg s g (.init tg period quota) = ratio cfg s g := by
  refine if_neg ?_
  rwa [init_tg]

/-- The limit of the group in question is the new one. -/
theorem limit_self : CfsSchedulableData.limit (.init tg period quota) cfg s tg =
    newLimit cfg tg period quota := by
  rw [CfsSchedulableData.limit, normalize_self, newLimit]

/-- The limit of any other group is its own. -/
theorem limit_of_ne (h : g ≠ tg) :
    CfsSchedulableData.limit (.init tg period quota) cfg s g = limit cfg s g := by
  rw [CfsSchedulableData.limit, normalize_of_ne h, limit]

/-- What a `long` can hold comes back from it. -/
theorem u64_long {n : ℕ} (h : n < 2 ^ (cfg.longBits - 1)) :
    u64 (Word.signed cfg.longBits n) = n := by
  have hrange : n < 2 ^ 63 ∧ 2 * n < 2 ^ cfg.longBits := by
    obtain hlong | hlong := cfg.long
    · rw [hlong] at h ⊢
      omega
    · rw [hlong] at h ⊢
      omega
  have hsigned : Word.signed cfg.longBits n = n := by
    refine Word.signed_of_range ?_ (by exact_mod_cast hrange.2)
    have hpos : (0 : Int) < 2 ^ cfg.longBits := by positivity
    omega
  rw [hsigned, u64, Int.emod_eq_of_lt (by omega) (by omega), Int.toNat_natCast]

/-- A period in microseconds fits a word. -/
theorem period_lt (h : IsPeriod period) : period / 1000 < 2 ^ (cfg.longBits - 1) := by
  have hle : period / 1000 ≤ 1000000 := Nat.div_le_div_right h.2
  have hlong : 2 ^ 21 ≤ 2 ^ (cfg.longBits - 1) := by
    have hbits := Rt.twentyTwo_le cfg
    exact Nat.pow_le_pow_right (by decide) (by omega)
  omega

/-- The ratio of a group is its quota for a normalized period. -/
theorem ratio_eq (hperiod : IsPeriod (s.period g)) (hquota : IsQuota cfg (s.quota g)) :
    ratio cfg s g = if s.quota g = runtimeInf then runtimeInf
      else normalized cfg (s.period g / 1000) (s.quota g / 1000) := by
  rw [ratio, tgGetCfsPeriod, tgGetCfsQuota, u64_long (period_lt hperiod)]
  by_cases hinf : s.quota g = runtimeInf
  · rw [if_pos hinf, if_pos hinf, u64_neg_one, normalized_inf]
  · rw [if_neg hinf, if_neg hinf, u64_long (hquota.resolve_left hinf)]

/-- A limited quota over a period of at least 2 µs. -/
theorem normalized_small (h : 2 ≤ period) :
    normalized cfg period quota = runtimeInf ∨ normalized cfg period quota < 2 ^ 63 := by
  unfold normalized
  by_cases hinf : quota = runtimeInf ∨ quota = u64 (-1)
  · exact .inl (if_pos hinf)
  · rw [if_neg hinf, toRatio, if_neg fun heq => hinf (.inl heq)]
    right
    refine (Nat.mod_le _ _).trans_lt ?_
    refine Nat.div_lt_of_lt_mul ?_
    have hlt := Nat.mod_lt (quota * 2 ^ 20) (Nat.two_pow_pos 64)
    omega

/-- A period is two microseconds or more. -/
theorem two_le (h : IsPeriod period) : 2 ≤ period / 1000 := by
  have hle : 1000000 / 1000 ≤ period / 1000 := Nat.div_le_div_right h.1
  omega

/-- Within the invariant all values of a walk are small. -/
theorem CfsInv.small (h : CfsInv cfg s) (hperiod : IsPeriod period) :
    Small cfg s (.init tg period quota) := by
  intro g
  by_cases hg : g = tg
  · rw [hg, normalize_self]
    split
    · exact .inl rfl
    · exact normalized_small (two_le hperiod)
  · rw [normalize_of_ne hg, ratio, tgGetCfsPeriod, u64_long (period_lt (h.period g))]
    exact normalized_small (two_le (h.period g))

/-- The limits after `tg_set_cfs_bandwidth` are those it has checked. -/
theorem setCfsBandwidth_limit (hsame : Same s u) (hperiod : IsPeriod period)
    (hquota : IsQuota cfg quota) : limit cfg (u.setCfsBandwidth tg period quota) =
      CfsSchedulableData.limit (.init tg period quota) cfg s := by
  funext g
  by_cases hg : g = tg
  · have hp : (u.setCfsBandwidth tg period quota).period tg = period := Function.update_self ..
    have hq : (u.setCfsBandwidth tg period quota).quota tg = quota := Function.update_self ..
    rw [hg, limit_self, limit, ratio_eq (hp.symm ▸ hperiod) (hq.symm ▸ hquota), hp, hq, newLimit]
  · have hp : (u.setCfsBandwidth tg period quota).period g = s.period g := by
      rw [← hsame.period]
      exact Function.update_of_ne hg ..
    have hq : (u.setCfsBandwidth tg period quota).quota g = s.quota g := by
      rw [← hsame.quota]
      exact Function.update_of_ne hg ..
    rw [limit_of_ne hg, limit, limit, ratio, ratio, tgGetCfsPeriod, tgGetCfsPeriod, tgGetCfsQuota,
      tgGetCfsQuota, hp, hq]

end Ratio

/-! ## The steps -/

/-- `tg_set_cfs_bandwidth` has refused the numbers, or has walked. -/
theorem tgSet_cases (h : TgSetCfsBandwidth cfg s tg period quota ret t) :
    (¬(tg ≠ rootTaskGroup ∧ minCfsQuotaPeriod ≤ quota ∧ IsPeriod period) ∧ ret = einval ∧ t = s) ∨
      ((tg ≠ rootTaskGroup ∧ minCfsQuotaPeriod ≤ quota ∧ IsPeriod period) ∧
        ∃ u, CfsSchedulable cfg s tg period quota ret u ∧
          t = if ret ≠ 0 then u else u.setCfsBandwidth tg period quota) := by
  unfold TgSetCfsBandwidth at h
  by_cases hroot : tg = rootTaskGroup
  · rw [if_pos hroot] at h
    exact .inl ⟨fun hall => hall.1 hroot, h⟩
  · rw [if_neg hroot] at h
    by_cases hmin : quota < minCfsQuotaPeriod ∨ period < minCfsQuotaPeriod
    · rw [if_pos hmin] at h
      refine .inl ⟨fun hall => ?_, h⟩
      exact hmin.elim (Nat.not_lt.mpr hall.2.1) (Nat.not_lt.mpr hall.2.2.1)
    · rw [if_neg hmin] at h
      by_cases hmax : maxCfsQuotaPeriod < period
      · rw [if_pos hmax] at h
        exact .inl ⟨fun hall => Nat.not_lt.mpr hall.2.2.2 hmax, h⟩
      · rw [if_neg hmax] at h
        obtain ⟨hquota, hperiod⟩ := not_or.mp hmin
        exact .inr ⟨⟨hroot, Nat.not_lt.mp hquota, Nat.not_lt.mp hperiod, Nat.not_lt.mp hmax⟩, h⟩

/-- The walk writes nothing that limits depend on. -/
theorem Same.limit (h : Same s t) : limit cfg t = limit cfg s := by
  funext g
  unfold Cfs.limit ratio tgGetCfsPeriod tgGetCfsQuota
  rw [h.period, h.quota]

/-- The walk writes nothing that the invariant depends on. -/
theorem CfsInv.same (h : CfsInv cfg s) (hsame : Same s t) : CfsInv cfg t := by
  refine ⟨?_, ?_, ?_, ?_⟩
  · rw [hsame.tree]
    exact h.root
  · rw [hsame.period]
    exact h.period
  · rw [hsame.quota]
    exact h.quota
  · rw [hsame.tree, hsame.limit]
    exact h.nested

/-- Setting a group's bandwidth keeps the invariant, refused or not. -/
theorem setCfsBandwidth_inv (h : CfsInv cfg s)
    (hset : TgSetCfsBandwidth cfg s tg period quota ret t) (hquota : IsQuota cfg quota) :
    CfsInv cfg t := by
  obtain ⟨-, -, rfl⟩ | ⟨⟨-, -, hperiod⟩, u, hwalk, hstate⟩ := tgSet_cases hset
  · exact h
  · have hsame := cfsSchedulable_same hwalk
    by_cases hret : ret = 0
    · rw [hstate, if_neg (not_not.mpr hret)]
      refine ⟨?_, fun g => ?_, fun g => ?_, ?_⟩
      · exact (congrArg (fun tree => Links.parent tree rootTaskGroup) hsame.tree).trans h.root
      · show IsPeriod (Function.update u.period tg period g)
        rw [Function.update_apply, hsame.period]
        split
        · exact hperiod
        · exact h.period g
      · show IsQuota cfg (Function.update u.quota tg quota g)
        rw [Function.update_apply, hsame.quota]
        split
        · exact hquota
        · exact h.quota g
      · rw [setCfsBandwidth_limit hsame hperiod hquota]
        have hnested := (cfsSchedulable_iff h.root (h.small hperiod) hwalk).mp hret
        rw [← hsame.tree] at hnested
        exact hnested
    · rw [hstate, if_pos hret]
      exact h.same hsame

theorem boot_inv (hdefault : IsPeriod defaultPeriod) : CfsInv cfg (boot defaultPeriod) := by
  refine ⟨rfl, fun _ => hdefault, fun _ => .inl rfl, fun g _ a _ => .inl (if_pos (.inr ?_))⟩
  rw [ratio_eq hdefault (.inl rfl)]
  exact if_pos rfl

section Create

variable {htg : s.tree.Fresh tg} {hne : tg ≠ parent}

/-- A new group has the default period. -/
theorem create_period : (schedCreateGroup s defaultPeriod tg parent htg hne).period g =
    if g = tg then defaultPeriod else s.period g := Function.update_apply ..

theorem create_quota : (schedCreateGroup s defaultPeriod tg parent htg hne).quota g =
    if g = tg then runtimeInf else s.quota g := Function.update_apply ..

/-- A new group leaves the limits of the others alone. -/
theorem create_limit_of_ne (h : g ≠ tg) :
    limit cfg (schedCreateGroup s defaultPeriod tg parent htg hne) g = limit cfg s g := by
  unfold limit ratio tgGetCfsPeriod tgGetCfsQuota
  rw [create_period, create_quota, if_neg h, if_neg h]

theorem create_limit_self :
    limit cfg (schedCreateGroup s defaultPeriod tg parent htg hne) tg = ⊤ := by
  refine if_pos (.inr ?_)
  unfold ratio tgGetCfsQuota
  rw [create_quota, if_pos rfl, if_pos rfl, u64_neg_one, normalized_inf]

theorem create_inv (h : CfsInv cfg s) (hdefault : IsPeriod defaultPeriod)
    (hroot : tg ≠ rootTaskGroup) :
    CfsInv cfg (schedCreateGroup s defaultPeriod tg parent htg hne) := by
  refine ⟨?_, fun g => ?_, fun g => ?_, fun g hg a hag => ?_⟩
  · exact (Function.update_of_ne hroot.symm ..).trans h.root
  · rw [create_period]
    split
    · exact hdefault
    · exact h.period g
  · rw [create_quota]
    split
    · exact .inl rfl
    · exact h.quota g
  · by_cases hgtg : g = tg
    · rw [hgtg]
      exact .inl create_limit_self
    · have hgroot : s.tree.Below rootTaskGroup g := by
        obtain hold | ⟨heq, -⟩ := Links.below_of_link htg hne hg hroot.symm
        · exact hold
        · exact absurd heq hgtg
      have hatg : a ≠ tg := by
        -- nothing is below the new group
        rintro rfl
        have hleaf : (s.tree.link a parent htg hne).children a = [] :=
          (Links.link_children_of_ne htg hne hne).trans htg.children
        exact hgtg (Links.eq_of_below_leaf hleaf hag)
      have habove : s.tree.Below a g := by
        obtain hold | ⟨heq, -⟩ := Links.below_of_link htg hne hag hatg
        · exact hold
        · exact absurd heq hgtg
      rw [create_limit_of_ne hgtg, create_limit_of_ne hatg]
      exact h.nested g hgroot a habove

end Create

theorem destroy_inv (h : CfsInv cfg s) (tg : Gid) : CfsInv cfg (schedDestroyGroup s tg) := by
  unfold schedDestroyGroup
  cases hparent : s.tree.parent tg with
  | none => exact h
  | some parent =>
    refine ⟨h.root, h.period, h.quota, fun g hg a hag => ?_⟩
    exact h.nested g (Links.below_of_unlink hg) a (Links.below_of_unlink hag)

/-- What user space can write is a quota. -/
theorem isQuota_long {us : Int} (hus : cfg.IsLong us) :
    IsQuota cfg (if us < 0 then runtimeInf else u64 (us * 1000)) := by
  by_cases hneg : us < 0
  · exact .inl (if_pos hneg)
  · rw [if_neg hneg]
    right
    have hlt := hus.2
    obtain hlong | hlong := cfg.long
    · rw [hlong] at hlt ⊢
      rw [u64, Int.emod_eq_of_lt (by omega) (by omega)]
      omega
    · rw [hlong]
      have hmod := Int.emod_lt_of_pos (us * 1000) (show (0 : Int) < 2 ^ 64 by decide)
      unfold u64
      omega

theorem step_inv (hdefault : IsPeriod defaultPeriod) (h : CfsInv cfg s)
    (hstep : Step cfg defaultPeriod s t) : CfsInv cfg t := by
  cases hstep with
  | create htg hne hroot => exact create_inv h hdefault hroot
  | destroy tg => exact destroy_inv h tg
  | setQuota hus hset => exact setCfsBandwidth_inv h hset (isQuota_long hus)
  | setPeriod hus hset => exact setCfsBandwidth_inv h hset (h.quota _)

theorem reachable_inv (hdefault : IsPeriod defaultPeriod) (h : Reachable cfg defaultPeriod s) :
    CfsInv cfg s := by
  induction h with
  | refl => exact boot_inv hdefault
  | tail _ hstep ih => exact step_inv hdefault ih hstep

/-! ## Results -/

/-- **In every run** a group that has a limit has one that is not above that of any group around
it. -/
theorem cfsQuota_reach (hdefault : IsPeriod defaultPeriod) (h : Reachable cfg defaultPeriod s)
    (hg : s.tree.Below rootTaskGroup g) (ha : s.tree.Below a g) :
    limit cfg s g = ⊤ ∨ limit cfg s g ≤ limit cfg s a :=
  (reachable_inv hdefault h).nested g hg a ha

/-! ### Nested groups -/

/-- The walk of `tg_set_cfs_bandwidth`, for so many turns. -/
def walkTurns (cfg : Config) (turns : Nat) (s : State) (tg : Gid) (period quota : Nat) :
    Option (Int × State) :=
  Loop.run (walkTgTreeFrom s.tree rootTaskGroup (tgCfsSchedulableDown cfg (.init tg period quota))
    tgNop) turns (.down rootTaskGroup, s)

/-- What `tg_set_cfs_bandwidth` makes of its result. -/
def afterWalk (s : State) (tg : Gid) (period quota : Nat) : Option (Int × State) → State
  | some (ret, u) => if ret ≠ 0 then u else u.setCfsBandwidth tg period quota
  | none => s

/-- A walk that ends within so many turns gives the result of the call. -/
theorem tgSet_of_turns {turns : Nat} (hroot : tg ≠ rootTaskGroup) (hquota : minCfsQuotaPeriod ≤ quota)
    (hperiod : IsPeriod period)
    (hwalk : (walkTurns cfg turns s tg period quota).map Prod.fst = some ret) :
    TgSetCfsBandwidth cfg s tg period quota ret
      (afterWalk s tg period quota (walkTurns cfg turns s tg period quota)) := by
  obtain ⟨⟨ret', u⟩, hrun, hret⟩ := Option.map_eq_some_iff.mp hwalk
  have hends : CfsSchedulable cfg s tg period quota ret' u := ⟨turns, hrun⟩
  have hret' : ret' = ret := hret
  rw [hret'] at hends
  have hmin : ¬(quota < minCfsQuotaPeriod ∨ period < minCfsQuotaPeriod) :=
    not_or.mpr ⟨Nat.not_lt.mpr hquota, Nat.not_lt.mpr hperiod.1⟩
  unfold TgSetCfsBandwidth
  rw [if_neg hroot, if_neg hmin, if_neg (Nat.not_lt.mpr hperiod.2), hrun, hret']
  exact ⟨u, hends, rfl⟩

/-- 100 ms. -/
def slack : Nat := 100000000

theorem isPeriod_slack : IsPeriod slack := ⟨by decide, by decide⟩

/-- After one `sched_create_group`. -/
def oneGroup : State := schedCreateGroup (boot slack) slack 1 rootTaskGroup one_fresh one_ne_root

def twoGroups : State := schedCreateGroup oneGroup slack 2 1 two_fresh two_ne_one

theorem three_ne_two : 3 ≠ 2 := by decide

/-- Group 3 in group 2 in group 1. -/
def threeGroups : State := schedCreateGroup twoGroups slack 3 2 three_fresh three_ne_two

/-- A write of a quota, as 20 turns of the walk leave it. -/
def setQuota (s : State) (tg : Gid) (quota : Nat) : State :=
  afterWalk s tg slack quota (walkTurns armUp 20 s tg slack quota)

/-- Half a CPU for group 1 and a fifth for group 3, with the unlimited group 2 in between. -/
def limited : State := setQuota (setQuota threeGroups 1 50000000) 3 20000000

/-- A write of `us` microseconds whose walk ends within 20 turns. -/
theorem setQuota_step (us ret : Int) (hus : armUp.IsLong us)
    (hmem : (if us < 0 then runtimeInf else u64 (us * 1000)) = quota) (hperiod : s.period tg = slack)
    (hroot : tg ≠ rootTaskGroup) (hquota : minCfsQuotaPeriod ≤ quota)
    (hwalk : (walkTurns armUp 20 s tg slack quota).map Prod.fst = some ret) :
    Step armUp defaultPeriod s (setQuota s tg quota) := by
  have hset : TgSetCfsQuota armUp s tg us ret (setQuota s tg quota) := by
    unfold TgSetCfsQuota
    rw [hmem, hperiod]
    exact tgSet_of_turns hroot hquota isPeriod_slack hwalk
  exact .setQuota hus hset

theorem limited_reach : Reachable armUp slack limited := by
  have hone : Reachable armUp slack oneGroup :=
    Relation.ReflTransGen.single (.create one_fresh one_ne_root one_ne_root)
  have htwo : Reachable armUp slack twoGroups := hone.tail (.create two_fresh two_ne_one (by decide))
  have hthree : Reachable armUp slack threeGroups :=
    htwo.tail (.create three_fresh three_ne_two (by decide))
  refine (hthree.tail (setQuota_step 50000 0 ⟨by decide, by decide⟩ ?_ ?_ ?_ ?_ ?_)).tail
    (setQuota_step 20000 0 ⟨by decide, by decide⟩ ?_ ?_ ?_ ?_ ?_)
  all_goals decide +kernel

theorem limited_below : limited.tree.Below 1 3 :=
  (Links.Below.of_mem (by decide +kernel : 2 ∈ limited.tree.children 1)).trans
    (.of_mem (by decide +kernel))

theorem limited_one : limited.tree.Below rootTaskGroup 1 := .of_mem (by decide +kernel)

/-- A fifth inside of a half, with a group without a limit in between. -/
theorem cfsQuota_reach_limited :
    (limit armUp limited 3 = ⊤ ∨ limit armUp limited 3 ≤ limit armUp limited 1) ∧
      [1, 2, 3].map (limit armUp limited) = [524288, ⊤, 209715] :=
  ⟨cfsQuota_reach isPeriod_slack limited_reach (limited_one.trans limited_below) limited_below,
    by decide +kernel⟩

/-- A tenth for group 1 is refused, since group 3 has more; the walk has left its mark in
`hierarchal_quota` by then. -/
def refused : State := setQuota limited 1 10000000

theorem refused_reach : Reachable armUp slack refused := by
  refine limited_reach.tail (setQuota_step 10000 einval ⟨by decide, by decide⟩ ?_ ?_ ?_ ?_ ?_)
  all_goals decide +kernel

/-- The numbers are in range, and the limit lies between those above and those below. -/
structure AdmissibleQuota (cfg : Config) (s : State) (tg : Gid) (period quota : Nat) : Prop where
  notRoot : tg ≠ rootTaskGroup
  enough : minCfsQuotaPeriod ≤ quota
  inRange : IsPeriod period
  above : ∀ a, a ≠ tg → s.tree.Below a tg →
    newLimit cfg tg period quota = ⊤ ∨ newLimit cfg tg period quota ≤ limit cfg s a
  below : ∀ g, g ≠ tg → s.tree.Below tg g →
    limit cfg s g = ⊤ ∨ limit cfg s g ≤ newLimit cfg tg period quota

/-- The groups that are neither above nor below do not matter. -/
theorem CfsInv.nested_iff (h : CfsInv cfg s) (htg : s.tree.Below rootTaskGroup tg)
    (hroot : tg ≠ rootTaskGroup) (hquota : minCfsQuotaPeriod ≤ quota) (hperiod : IsPeriod period) :
    (∀ g, s.tree.Below rootTaskGroup g →
      Nested s.tree (CfsSchedulableData.limit (.init tg period quota) cfg s) g) ↔
        AdmissibleQuota cfg s tg period quota := by
  constructor
  · intro hall
    refine ⟨hroot, hquota, hperiod, fun a ha hatg => ?_, fun g hg htgg => ?_⟩
    · have hnested := hall tg htg a hatg
      rwa [limit_self, limit_of_ne ha] at hnested
    · have hnested := hall g (htg.trans htgg) tg htgg
      rwa [limit_self, limit_of_ne hg] at hnested
  · intro hadm g hg a hag
    by_cases hgtg : g = tg
    · subst hgtg
      by_cases hatg : a = g
      · rw [hatg]
        exact .inr le_rfl
      · rw [limit_self, limit_of_ne hatg]
        exact hadm.above a hatg hag
    · by_cases hatg : a = tg
      · subst hatg
        rw [limit_self, limit_of_ne hgtg]
        exact hadm.below g hgtg hag
      · rw [limit_of_ne hgtg, limit_of_ne hatg]
        exact h.nested g hg a hag

/-- **A quota is accepted** exactly if it lies between the limits above and those below, and then
`hierarchal_quota` is the least limit around each group. -/
theorem setCfsBandwidth_admits (hdefault : IsPeriod defaultPeriod)
    (h : Reachable cfg defaultPeriod s) (htg : s.tree.Below rootTaskGroup tg) (period : Nat)
    (hquota : IsQuota cfg quota) :
    (∃ ret t, TgSetCfsBandwidth cfg s tg period quota ret t) ∧
      ∀ ret t, TgSetCfsBandwidth cfg s tg period quota ret t →
        (ret = 0 ↔ AdmissibleQuota cfg s tg period quota) ∧
          (ret = 0 → ∀ g, s.tree.Below rootTaskGroup g → ∃ v,
            t.hierarchalQuota g = hierarchal v ∧ LeastLimit t.tree (limit cfg t) g v) := by
  have hinv := reachable_inv hdefault h
  constructor
  · obtain ⟨ret, u, hwalk⟩ := cfsSchedulable_total cfg s tg period quota
    unfold TgSetCfsBandwidth
    split
    · exact ⟨_, _, rfl, rfl⟩
    · split
      · exact ⟨_, _, rfl, rfl⟩
      · split
        · exact ⟨_, _, rfl, rfl⟩
        · exact ⟨ret, _, u, hwalk, rfl⟩
  · intro ret t hset
    have hfail : einval ≠ 0 := by decide
    obtain ⟨hbad, rfl, rfl⟩ | ⟨⟨hroot, hmin, hperiod⟩, u, hwalk, hstate⟩ := tgSet_cases hset
    · refine ⟨iff_of_false hfail fun hadm => ?_, fun hzero => absurd hzero hfail⟩
      exact hbad ⟨hadm.notRoot, hadm.enough, hadm.inRange⟩
    · have hsmall : Small cfg s (.init tg period quota) := hinv.small hperiod
      have hsame := cfsSchedulable_same hwalk
      refine ⟨?_, fun hzero g hg => ?_⟩
      · rw [cfsSchedulable_iff hinv.root hsmall hwalk]
        exact hinv.nested_iff htg hroot hmin hperiod
      · rw [hstate, if_neg (not_not.mpr hzero), setCfsBandwidth_limit hsame hperiod hquota]
        rw [hzero] at hwalk
        have hleast := cfsSchedulable_least hinv.root hsmall hwalk hg
        rw [← hsame.tree] at hleast
        exact hleast

/-- After the refused call, three tenths for group 2 between the two limits are accepted: the walk
overwrites what the refused one has left. -/
theorem setCfsBandwidth_admits_refused :
    let t := setQuota refused 2 30000000
    [0, 1, 2, 3].map refused.hierarchalQuota = [-1, 104857, 104857, 209715] ∧
      TgSetCfsBandwidth armUp refused 2 slack 30000000 0 t ∧
      AdmissibleQuota armUp refused 2 slack 30000000 ∧
      [0, 1, 2, 3].map t.hierarchalQuota = [-1, 524288, 314572, 209715] ∧
      ∀ g, refused.tree.Below rootTaskGroup g → ∃ v,
        t.hierarchalQuota g = hierarchal v ∧ LeastLimit t.tree (limit armUp t) g v := by
  intro t
  have hquota : IsQuota armUp 30000000 := .inr (by decide)
  have hbelow : refused.tree.Below rootTaskGroup 2 :=
    (Links.Below.of_mem (by decide +kernel : 1 ∈ refused.tree.children rootTaskGroup)).trans
      (.of_mem (by decide +kernel))
  have hset : TgSetCfsBandwidth armUp refused 2 slack 30000000 0 t :=
    tgSet_of_turns (by decide) (by decide) isPeriod_slack (by decide +kernel)
  have hall := (setCfsBandwidth_admits isPeriod_slack refused_reach hbelow slack hquota).2 0 t hset
  exact ⟨by decide +kernel, hset, hall.1.mp rfl, by decide +kernel, hall.2 rfl⟩

end LinuxWrr.Tg.Cfs
