import LinuxWrr.Lib.Word
import LinuxWrr.Tg.RtSchedulable

/-!
# Quotas of task groups

With `CONFIG_CFS_BANDWIDTH` the tasks of a group share a quota of CPU time in each period. Before
a quota changes, `__cfs_schedulable` walks the tree of groups, and writes into each the least
quota of the groups around it, which the groups below then compare with their own.

- `tgCfsSchedulableDown`, `CfsSchedulable`: the check of one group, and the walk.
- `TgSetCfsBandwidth`: the quota and the period of a group.
- `cfsSchedulable_iff`: when the walk returns 0.
- `cfsSchedulable_least`: what it has then written.

What the run queues and the timers make of a quota is not here. Groups may be created and
destroyed during a walk; here they are not.
-/

namespace LinuxWrr.Tg.Cfs

structure State where
  tree : Links Gid
  /-- `tg->cfs_bandwidth.period`, in ns. -/
  period : Gid → Nat
  /-- `tg->cfs_bandwidth.quota`. -/
  quota : Gid → Nat
  /-- `tg->cfs_bandwidth.hierarchal_quota`. -/
  hierarchalQuota : Gid → Int

/-- `struct cfs_schedulable_data`. -/
structure CfsSchedulableData where
  tg : Gid
  period : Nat
  quota : Nat

def maxCfsQuotaPeriod : Nat := 1000000000
def minCfsQuotaPeriod : Nat := 1000000

def tgGetCfsQuota (cfg : Config) (s : State) (tg : Gid) : Int :=
  if s.quota tg = runtimeInf then -1
  else Word.signed cfg.longBits (s.quota tg / 1000 : Nat)

def tgGetCfsPeriod (cfg : Config) (s : State) (tg : Gid) : Int :=
  Word.signed cfg.longBits (s.period tg / 1000 : Nat)

/-- `normalize_cfs_quota`, behind the choice of the numbers. -/
def normalized (cfg : Config) (period quota : Nat) : Nat :=
  if quota = runtimeInf ∨ quota = u64 (-1) then runtimeInf else toRatio cfg period quota

def normalizeCfsQuota (cfg : Config) (s : State) (tg : Gid) (d : CfsSchedulableData) : Nat :=
  if tg = d.tg then normalized cfg d.period d.quota
  else normalized cfg (u64 (tgGetCfsPeriod cfg s tg)) (u64 (tgGetCfsQuota cfg s tg))

def State.setHierarchalQuota (s : State) (tg : Gid) (quota : Int) : State :=
  { s with hierarchalQuota := Function.update s.hierarchalQuota tg quota }

def tgCfsSchedulableDown (cfg : Config) (d : CfsSchedulableData) (tg : Gid) (s : State) :
    Int × State :=
  match s.tree.parent tg with
  | none => (0, s.setHierarchalQuota tg (Word.signed 64 runtimeInf))
  | some parent =>
    let quota := Word.signed 64 (normalizeCfsQuota cfg s tg d)
    let parentQuota := s.hierarchalQuota parent
    -- `RUNTIME_INF` is a `u64`, and so is what it is compared with
    if u64 quota = runtimeInf then (0, s.setHierarchalQuota tg parentQuota)
    else if u64 parentQuota ≠ runtimeInf ∧ parentQuota < quota then (einval, s)
    else (0, s.setHierarchalQuota tg quota)

/-- The data of the walk, where `do_div` has made microseconds of a limited quota. -/
def CfsSchedulableData.init (tg : Gid) (period quota : Nat) : CfsSchedulableData :=
  if quota ≠ runtimeInf then { tg := tg, period := period / 1000, quota := quota / 1000 }
  else { tg := tg, period := period, quota := quota }

/-- `__cfs_schedulable` returns `ret` in the state `t`. -/
def CfsSchedulable (cfg : Config) (s : State) (tg : Gid) (period quota : Nat) (ret : Int)
    (t : State) : Prop :=
  Loop.Ends
    (walkTgTreeFrom s.tree rootTaskGroup (tgCfsSchedulableDown cfg (.init tg period quota)) tgNop)
    (.down rootTaskGroup, s) (ret, t)

/-- `tg_set_cfs_bandwidth`, behind the walk. -/
def State.setCfsBandwidth (s : State) (tg : Gid) (period quota : Nat) : State :=
  { s with
    period := Function.update s.period tg period
    quota := Function.update s.quota tg quota }

/-- `tg_set_cfs_bandwidth` returns `ret` in the state `t`. -/
def TgSetCfsBandwidth (cfg : Config) (s : State) (tg : Gid) (period quota : Nat) (ret : Int)
    (t : State) : Prop :=
  if tg = rootTaskGroup then ret = einval ∧ t = s
  else if quota < minCfsQuotaPeriod ∨ period < minCfsQuotaPeriod then ret = einval ∧ t = s
  else if maxCfsQuotaPeriod < period then ret = einval ∧ t = s
  else ∃ u, CfsSchedulable cfg s tg period quota ret u ∧
    t = if ret ≠ 0 then u else u.setCfsBandwidth tg period quota

/-- `tg_set_cfs_quota` returns `ret` in the state `t`. -/
def TgSetCfsQuota (cfg : Config) (s : State) (tg : Gid) (cfsQuotaUs : Int) (ret : Int)
    (t : State) : Prop :=
  TgSetCfsBandwidth cfg s tg (s.period tg)
    (if cfsQuotaUs < 0 then runtimeInf else u64 (cfsQuotaUs * 1000)) ret t

/-- `tg_set_cfs_period` returns `ret` in the state `t`. -/
def TgSetCfsPeriod (cfg : Config) (s : State) (tg : Gid) (cfsPeriodUs : Int) (ret : Int)
    (t : State) : Prop :=
  TgSetCfsBandwidth cfg s tg (u64 (cfsPeriodUs * 1000)) (s.quota tg) ret t

/-! ## Limits -/

/-- A ratio as a limit; the root group has none. -/
def limitOf (tg : Gid) (ratio : Nat) : WithTop ℕ :=
  if tg = rootTaskGroup ∨ ratio = runtimeInf then ⊤ else ratio

/-- The limit of a group in the walk for `d`. -/
def CfsSchedulableData.limit (d : CfsSchedulableData) (cfg : Config) (s : State) (tg : Gid) :
    WithTop ℕ := limitOf tg (normalizeCfsQuota cfg s tg d)

/-- A limit in `hierarchal_quota`. -/
def hierarchal (v : WithTop ℕ) : Int := (v.map ((↑) : ℕ → ℤ)).untopD (-1)

/-- A group is not promised more than those around it. -/
def Nested (tree : Links Gid) (limit : Gid → WithTop ℕ) (tg : Gid) : Prop :=
  ∀ a, tree.Below a tg → limit tg = ⊤ ∨ limit tg ≤ limit a

/-- `v` is the least limit of `tg` and the groups around it. -/
def LeastLimit (tree : Links Gid) (limit : Gid → WithTop ℕ) (tg : Gid) (v : WithTop ℕ) : Prop :=
  IsLeast (limit '' {a | tree.Below a tg}) v

section Limits

variable {tree : Links Gid} {limit : Gid → WithTop ℕ} {c p : Gid} {v : WithTop ℕ}

theorem hierarchal_coe (n : ℕ) : hierarchal n = n := rfl

theorem top_or_coe (v : WithTop ℕ) : v = ⊤ ∨ ∃ n : ℕ, v = n := by
  induction v using WithTop.recTopCoe with
  | top => exact .inl rfl
  | coe n => exact .inr ⟨n, rfl⟩

/-- A child without a limit inherits the least limit above it. -/
theorem LeastLimit.inherit (h : LeastLimit tree limit p v) (hc : c ∈ tree.children p)
    (htop : limit c = ⊤) : LeastLimit tree limit c v := by
  obtain ⟨⟨a, ha, hav⟩, hlower⟩ := h
  refine ⟨⟨a, Links.Below.trans ha (.of_mem hc), hav⟩, ?_⟩
  rintro _ ⟨b, hb, rfl⟩
  obtain rfl | hbp := Links.below_of_mem hc hb
  · rw [htop]
    exact le_top
  · exact hlower ⟨b, hbp, rfl⟩

/-- A child with a limit that is not above the others. -/
theorem LeastLimit.own (h : LeastLimit tree limit p v) (hc : c ∈ tree.children p)
    (hle : limit c ≤ v) : LeastLimit tree limit c (limit c) := by
  refine ⟨⟨c, .refl, rfl⟩, ?_⟩
  rintro _ ⟨b, hb, rfl⟩
  obtain rfl | hbp := Links.below_of_mem hc hb
  · exact le_rfl
  · exact hle.trans (h.2 ⟨b, hbp, rfl⟩)

/-- To be compared with the least limit is to be compared with all of them. -/
theorem LeastLimit.nested_iff (h : LeastLimit tree limit p v) (hc : c ∈ tree.children p)
    (hne : limit c ≠ ⊤) : Nested tree limit c ↔ limit c ≤ v := by
  constructor
  · intro hnested
    obtain ⟨a, ha, rfl⟩ := h.1
    exact (hnested a (Links.Below.trans ha (.of_mem hc))).resolve_left hne
  · intro hle b hb
    right
    exact (h.own hc hle).2 ⟨b, hb, rfl⟩

end Limits

/-! ## The walk -/

section Walk

variable {cfg : Config} {s s₀ t : State} {d : CfsSchedulableData} {tg a c p : Gid} {ret : Int}
  {period quota : Nat}

/-- What the walk leaves alone. -/
structure Same (s₀ s : State) : Prop where
  tree : s.tree = s₀.tree
  period : s.period = s₀.period
  quota : s.quota = s₀.quota

/-- The walk has been here, and has written what it should. -/
structure Settled (cfg : Config) (s₀ : State) (d : CfsSchedulableData) (tg : Gid) (s : State) :
    Prop where
  same : Same s₀ s
  below : s₀.tree.Below rootTaskGroup tg
  least : ∃ v, s.hierarchalQuota tg = hierarchal v ∧ LeastLimit s₀.tree (d.limit cfg s₀) tg v ∧
    ∀ n : ℕ, v = n → n < 2 ^ 63

/-- The new ratio of a group does not depend on what the walk writes. -/
theorem Same.normalize (h : Same s₀ s) :
    normalizeCfsQuota cfg s tg d = normalizeCfsQuota cfg s₀ tg d := by
  unfold normalizeCfsQuota tgGetCfsPeriod tgGetCfsQuota
  rw [h.period, h.quota]

/-- Writing a hierarchical quota changes nothing else. -/
theorem Same.set (h : Same s₀ s) (x : Int) : Same s₀ (s.setHierarchalQuota tg x) :=
  ⟨h.tree, h.period, h.quota⟩

theorem set_self (x : Int) : (s.setHierarchalQuota tg x).hierarchalQuota tg = x :=
  Function.update_self ..

theorem set_of_ne (h : a ≠ tg) (x : Int) :
    (s.setHierarchalQuota tg x).hierarchalQuota a = s.hierarchalQuota a :=
  Function.update_of_ne h ..

/-- Writing the quota of another group leaves a settled one settled. -/
theorem Settled.set (h : Settled cfg s₀ d a s) (hne : a ≠ tg) (x : Int) :
    Settled cfg s₀ d a (s.setHierarchalQuota tg x) := by
  refine ⟨h.same.set x, h.below, ?_⟩
  rw [set_of_ne hne]
  exact h.least

/-- A visit writes one number, or none. -/
theorem down_snd (cfg : Config) (d : CfsSchedulableData) (tg : Gid) (s : State) :
    (tgCfsSchedulableDown cfg d tg s).2 = s ∨
    ∃ x, (tgCfsSchedulableDown cfg d tg s).2 = s.setHierarchalQuota tg x := by
  unfold tgCfsSchedulableDown
  cases s.tree.parent tg with
  | none => exact .inr ⟨_, rfl⟩
  | some parent =>
    dsimp only
    by_cases hinf : u64 (Word.signed 64 (normalizeCfsQuota cfg s tg d)) = runtimeInf
    · rw [if_pos hinf]
      exact .inr ⟨_, rfl⟩
    · rw [if_neg hinf]
      by_cases hexceeds : u64 (s.hierarchalQuota parent) ≠ runtimeInf ∧
          s.hierarchalQuota parent < Word.signed 64 (normalizeCfsQuota cfg s tg d)
      · rw [if_pos hexceeds]
        exact .inl rfl
      · rw [if_neg hexceeds]
        exact .inr ⟨_, rfl⟩

/-- As a signed word, `RUNTIME_INF` is -1. -/
theorem signed_inf : Word.signed 64 runtimeInf = -1 := by
  norm_num [Word.signed, runtimeInf, Int.bmod]

theorem u64_neg_one : u64 (-1) = runtimeInf := by
  unfold u64 runtimeInf
  omega

theorem limit_root : d.limit cfg s rootTaskGroup = ⊤ := by
  rw [CfsSchedulableData.limit, limitOf, if_pos (.inl rfl)]

theorem u64_of_lt {n : ℕ} (h : n < 2 ^ 63) : u64 n ≠ runtimeInf := by
  have heq : u64 n = n := by
    rw [u64, Int.emod_eq_of_lt (by omega) (by omega), Int.toNat_natCast]
  rw [heq, runtimeInf]
  omega

theorem signed_of_lt {n : ℕ} (h : n < 2 ^ 63) : Word.signed 64 n = n :=
  Word.signed_of_range (by omega) (by omega)

/-- At the root a visit passes and writes that there is no limit. -/
theorem down_root (cfg : Config) (d : CfsSchedulableData)
    (hroot : s.tree.parent rootTaskGroup = none) :
    (tgCfsSchedulableDown cfg d rootTaskGroup s).1 = 0 ∧
      Settled cfg s d rootTaskGroup (tgCfsSchedulableDown cfg d rootTaskGroup s).2 := by
  have hdown : tgCfsSchedulableDown cfg d rootTaskGroup s =
      (0, s.setHierarchalQuota rootTaskGroup (-1)) := by
    unfold tgCfsSchedulableDown
    rw [hroot, signed_inf]
  rw [hdown]
  refine ⟨rfl, ⟨rfl, rfl, rfl⟩, .refl, ⊤, set_self _, ⟨⟨rootTaskGroup, .refl, limit_root⟩, ?_⟩,
    fun n hn => absurd hn (WithTop.natCast_ne_top n).symm⟩
  rintro _ ⟨b, hb, rfl⟩
  rcases Relation.ReflTransGen.cases_tail hb with heq | ⟨q, -, hq⟩
  · rw [← heq]
    exact limit_root.ge
  · have hparent := s.tree.parent_of_mem hq
    rw [hroot] at hparent
    cases hparent

/-- At any other group a visit passes exactly when the group's limit fits below those above it, and
then settles the group. -/
theorem down_child (hroot : s₀.tree.parent rootTaskGroup = none)
    (hsmall : normalizeCfsQuota cfg s₀ c d = runtimeInf ∨ normalizeCfsQuota cfg s₀ c d < 2 ^ 63)
    (hc : c ∈ s₀.tree.children p) (h : Settled cfg s₀ d p s) :
    ((tgCfsSchedulableDown cfg d c s).1 = 0 ↔ Nested s₀.tree (d.limit cfg s₀) c) ∧
      ((tgCfsSchedulableDown cfg d c s).1 = 0 →
        Settled cfg s₀ d c (tgCfsSchedulableDown cfg d c s).2) := by
  have hparent := s₀.tree.parent_of_mem hc
  have hne : c ≠ rootTaskGroup := by
    rintro rfl
    rw [hroot] at hparent
    cases hparent
  have hbelow : s₀.tree.Below rootTaskGroup c := h.below.trans (.of_mem hc)
  obtain ⟨v, hv, hleast, hvsmall⟩ := h.least
  unfold tgCfsSchedulableDown
  rw [h.same.tree, hparent, h.same.normalize]
  dsimp only
  by_cases hinf : normalizeCfsQuota cfg s₀ c d = runtimeInf
  · have htop : d.limit cfg s₀ c = ⊤ := if_pos (.inr hinf)
    rw [hinf, signed_inf, if_pos u64_neg_one]
    refine ⟨iff_of_true rfl fun a _ => .inl htop, fun _ => ⟨h.same.set _, hbelow, v, ?_⟩⟩
    exact ⟨(set_self _).trans hv, hleast.inherit hc htop, hvsmall⟩
  · have hlt := hsmall.resolve_left hinf
    have hlimit : d.limit cfg s₀ c = (normalizeCfsQuota cfg s₀ c d : ℕ) :=
      if_neg (not_or.mpr ⟨hne, hinf⟩)
    have hlimited : d.limit cfg s₀ c ≠ ⊤ := by
      rw [hlimit]
      exact WithTop.natCast_ne_top _
    rw [signed_of_lt hlt, if_neg (u64_of_lt hlt), hleast.nested_iff hc hlimited, hlimit, hv]
    have hexceeds : (u64 (hierarchal v) ≠ runtimeInf ∧
        hierarchal v < normalizeCfsQuota cfg s₀ c d) ↔
          ¬((normalizeCfsQuota cfg s₀ c d : ℕ) : WithTop ℕ) ≤ v := by
      obtain rfl | ⟨n, rfl⟩ := top_or_coe v
      · exact iff_of_false (fun h => h.1 u64_neg_one) fun h => h le_top
      · rw [hierarchal_coe, and_iff_right (u64_of_lt (hvsmall n rfl)), Nat.cast_le, not_le]
        exact Int.ofNat_lt
    by_cases hle : ((normalizeCfsQuota cfg s₀ c d : ℕ) : WithTop ℕ) ≤ v
    · rw [if_neg fun hboth => hexceeds.mp hboth hle]
      have hown := hleast.own hc (hlimit.trans_le hle)
      rw [hlimit] at hown
      refine ⟨iff_of_true rfl hle, fun _ => ⟨h.same.set _, hbelow, _, set_self _, hown, ?_⟩⟩
      intro n hn
      have heq : normalizeCfsQuota cfg s₀ c d = n := Nat.cast_inj.mp hn
      rwa [← heq]
    · rw [if_pos (hexceeds.mpr hle)]
      have hfail : einval ≠ 0 := by decide
      exact ⟨iff_of_false hfail hle, fun h => absurd h hfail⟩

/-- The visitors of the walk. -/
def visits (cfg : Config) (d : CfsSchedulableData) : Visit Gid → State → Int × State :=
  visitor (tgCfsSchedulableDown cfg d) tgNop

/-- The call is the walk over all visits, from the root. -/
theorem cfsSchedulable_iff_visitAll : CfsSchedulable cfg s tg period quota ret t ↔
    (ret, t) = Links.visitAll (visits cfg (.init tg period quota)) (s.tree.visits rootTaskGroup)
      s := by
  have hends : Loop.Ends (walkTgTreeFrom s.tree rootTaskGroup
      (tgCfsSchedulableDown cfg (.init tg period quota)) tgNop) (.down rootTaskGroup, s)
      (Links.visitAll (visits cfg (.init tg period quota)) (s.tree.visits rootTaskGroup) s) :=
    (covers_inner .refl s).ends
  constructor
  · intro h
    exact h.unique hends
  · intro h
    rw [CfsSchedulable, h]
    exact hends

/-- Every ratio of the walk fits into an `s64`. -/
def Small (cfg : Config) (s : State) (d : CfsSchedulableData) : Prop :=
  ∀ g, normalizeCfsQuota cfg s g d = runtimeInf ∨ normalizeCfsQuota cfg s g d < 2 ^ 63

/-- Going down, the walk settles the quota of every group from that of its parent. -/
theorem walk_settles (hroot : s.tree.parent rootTaskGroup = none) (hsmall : Small cfg s d) :
    Links.Settles s.tree (visits cfg d) (Settled cfg s d) (Nested s.tree (d.limit cfg s))
      rootTaskGroup s := by
  refine Links.visitAll_topDown (fun _ _ => rfl) (fun a b s' hne h => ?_)
    (fun p c s' hc h => down_child hroot (hsmall c) hc h) ?_
  · obtain heq | ⟨x, heq⟩ := down_snd cfg d a s'
    · exact heq.symm ▸ h
    · exact heq.symm ▸ h.set hne x
  · obtain ⟨hzero, hsettled⟩ := down_root cfg d hroot
    refine ⟨iff_of_true hzero fun a ha => .inl limit_root, fun _ => hsettled⟩

/-- A walk changes nothing but what it writes, also when it fails. -/
theorem cfsSchedulable_same (h : CfsSchedulable cfg s tg period quota ret t) : Same s t := by
  have hvisit : ∀ v s', Same s s' → Same s (visits cfg (.init tg period quota) v s').2 := by
    intro v s' hs
    cases v with
    | enter g =>
      obtain heq | ⟨x, heq⟩ := down_snd cfg (.init tg period quota) g s'
      · exact heq.symm ▸ hs
      · exact heq.symm ▸ hs.set x
    | leave g => exact hs
  have hall : Same s (Links.visitAll (visits cfg (.init tg period quota))
      (s.tree.visits rootTaskGroup) s).2 := Links.visitAll_invariant hvisit ⟨rfl, rfl, rfl⟩
  rwa [← cfsSchedulable_iff_visitAll.mp h] at hall

/-- The walk returns 0 exactly if no group is promised more than those around it. -/
theorem cfsSchedulable_iff (hroot : s.tree.parent rootTaskGroup = none)
    (hsmall : Small cfg s (.init tg period quota))
    (h : CfsSchedulable cfg s tg period quota ret t) : ret = 0 ↔
      ∀ g, s.tree.Below rootTaskGroup g →
        Nested s.tree (CfsSchedulableData.limit (.init tg period quota) cfg s) g := by
  have hiff := (walk_settles hroot hsmall).1
  rwa [← cfsSchedulable_iff_visitAll.mp h] at hiff

/-- It has then written the least limit into each group, whatever was there before. -/
theorem cfsSchedulable_least (hroot : s.tree.parent rootTaskGroup = none)
    (hsmall : Small cfg s (.init tg period quota)) (h : CfsSchedulable cfg s tg period quota 0 t)
    {g : Gid} (hg : s.tree.Below rootTaskGroup g) : ∃ v, t.hierarchalQuota g = hierarchal v ∧
      LeastLimit s.tree (CfsSchedulableData.limit (.init tg period quota) cfg s) g v := by
  have hsettled := (walk_settles hroot hsmall).2
  rw [← cfsSchedulable_iff_visitAll.mp h] at hsettled
  obtain ⟨v, hv, hleast, -⟩ := (hsettled rfl g hg).least
  exact ⟨v, hv, hleast⟩

theorem cfsSchedulable_total (cfg : Config) (s : State) (tg : Gid) (period quota : Nat) :
    ∃ ret t, CfsSchedulable cfg s tg period quota ret t :=
  ⟨_, _, cfsSchedulable_iff_visitAll.mpr rfl⟩

end Walk

end LinuxWrr.Tg.Cfs
