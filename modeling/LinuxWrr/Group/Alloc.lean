import LinuxWrr.Lib.Heap
import LinuxWrr.Lib.Reach
import LinuxWrr.Sched.Types

/-!
# The memory of task groups

A group has two arrays, `tg->wrr_rq` and `tg->wrr_se`, with an entry for each cpu, and a run
queue and an entity that `alloc_wrr_sched_group` allocates for cpu 0 and no other. When a later
allocation fails everything is given back; when the group is freed, only the arrays are.

- `allocWrrSchedGroup`, `freeWrrSchedGroup`, `schedCreateGroup`, `freeSchedGroup`.
- `MemState`, `memStep`: groups are created and freed in any order.
- `MemInv`: the live groups own their objects, and no two own the same.
- `CreationOk`: what creating a group and freeing it later should do.
- `creationOk_iff`: **they do it exactly when the creation fails**.
-/

namespace LinuxWrr.Group

open Heap

/-! ## The functions -/

/-- The WRR part of a `task_group`: the two arrays, and their entries. -/
structure TaskGroupMem where
  /-- `tg->wrr_rq`. -/
  wrrRqs : Ptr
  /-- `tg->wrr_se`. -/
  wrrSes : Ptr
  /-- `tg->wrr_rq[cpu]`. -/
  wrrRq : Cpu → Ptr
  /-- `tg->wrr_se[cpu]`. -/
  wrrSe : Cpu → Ptr

/-- Fresh from `kzalloc`. -/
def TaskGroupMem.zeroed : TaskGroupMem where
  wrrRqs := none
  wrrSes := none
  wrrRq _ := none
  wrrSe _ := none

/-- Which steps of a creation succeed, if they are reached. -/
structure Outcomes where
  tg : Bool
  /-- `alloc_fair_sched_group`; its objects are not those of the WRR step. -/
  fair : Bool
  /-- `alloc_rt_sched_group`; likewise. -/
  rt : Bool
  wrrRqs : Bool
  wrrSes : Bool
  wrrRq : Bool
  wrrSe : Bool
  deriving DecidableEq, Repr

/-- `init_tg_wrr_entry`: what it writes to the group. -/
def initTgWrrEntry (tg : TaskGroupMem) (wrrRq wrrSe : Ptr) (cpu : Cpu) : TaskGroupMem :=
  { tg with
    wrrRq := Function.update tg.wrrRq cpu wrrRq
    wrrSe := Function.update tg.wrrSe cpu wrrSe }

/-- `alloc_wrr_sched_group`: what it returns, and the group and the heap after it. -/
def allocWrrSchedGroup (a : Outcomes) (h : Heap) (tg : TaskGroupMem) :
    Bool × TaskGroupMem × Heap :=
  let wrrRqs := h.alloc a.wrrRqs
  let tg := { tg with wrrRqs := wrrRqs.1 }
  if wrrRqs.1 = none then (false, tg, wrrRqs.2)
  else
    let wrrSes := wrrRqs.2.alloc a.wrrSes
    let tg := { tg with wrrSes := wrrSes.1 }
    if wrrSes.1 = none then (false, tg, wrrSes.2)
    else
      let wrrRq := wrrSes.2.alloc a.wrrRq
      if wrrRq.1 = none then (false, tg, wrrRq.2)
      else
        let wrrSe := wrrRq.2.alloc a.wrrSe
        -- `err_free_rq`
        if wrrSe.1 = none then (false, tg, wrrSe.2.free wrrRq.1)
        else (true, initTgWrrEntry tg wrrRq.1 wrrSe.1 0, wrrSe.2)

/-- `free_wrr_sched_group`. -/
def freeWrrSchedGroup (h : Heap) (tg : TaskGroupMem) : Heap :=
  (h.free tg.wrrRqs).free tg.wrrSes

/-- `free_sched_group`, of the group at `k`. -/
def freeSchedGroup (h : Heap) (k : Nat) (tg : TaskGroupMem) : Heap :=
  (freeWrrSchedGroup h tg).free (some k)

/-- `sched_create_group`: the new group and where it is, unless it returns `-ENOMEM`. -/
def schedCreateGroup (a : Outcomes) (h : Heap) : Option (Nat × TaskGroupMem) × Heap :=
  match h.alloc a.tg with
  | (none, h) => (none, h)
  | (some k, h) =>
    if a.fair = false then (none, freeSchedGroup h k .zeroed)
    else if a.rt = false then (none, freeSchedGroup h k .zeroed)
    else
      let r := allocWrrSchedGroup a h .zeroed
      if r.1 then (some (k, r.2.1), r.2.2) else (none, freeSchedGroup r.2.2 k r.2.1)

variable {a : Outcomes} {h : Heap} {owned : Finset Nat} {k : Nat} {tg : TaskGroupMem}

/-! ## What they do to the heap -/

/-- What `free_wrr_sched_group` frees. -/
def TaskGroupMem.arrays (tg : TaskGroupMem) : Finset Nat :=
  tg.wrrRqs.toFinset ∪ tg.wrrSes.toFinset

/-- What `free_sched_group` frees. -/
def objects (k : Nat) (tg : TaskGroupMem) : Finset Nat := insert k tg.arrays

/-- The group and its arrays are different objects. -/
structure Apart (k : Nat) (tg : TaskGroupMem) : Prop where
  self : k ∉ tg.arrays
  arrays : Disjoint tg.wrrRqs.toFinset tg.wrrSes.toFinset

/-- Freeing a group's runqueues and entities gives back exactly its arrays. -/
theorem freeWrrSchedGroup_accounts (hacc : h.Accounts owned)
    (hapart : Disjoint tg.wrrRqs.toFinset tg.wrrSes.toFinset) (hsub : tg.arrays ⊆ owned) :
    (freeWrrSchedGroup h tg).Accounts (owned \ tg.arrays) := by
  obtain ⟨hrqs, hses⟩ := Finset.union_subset_iff.mp hsub
  have hfree := (hacc.free hrqs).free (Finset.subset_sdiff.mpr ⟨hses, hapart.symm⟩)
  rw [sdiff_sdiff_left] at hfree
  exact hfree

/-- Destroying a group gives back its two arrays and the `task_group` itself. -/
theorem freeSchedGroup_accounts (hacc : h.Accounts owned) (hapart : Apart k tg)
    (hsub : objects k tg ⊆ owned) :
    (freeSchedGroup h k tg).Accounts (owned \ objects k tg) := by
  obtain ⟨hk, harrays⟩ := Finset.insert_subset_iff.mp hsub
  have hself : (some k : Ptr).toFinset ⊆ owned \ tg.arrays :=
    Finset.singleton_subset_iff.mpr (Finset.mem_sdiff.mpr ⟨hk, hapart.self⟩)
  have hfree := (freeWrrSchedGroup_accounts hacc hapart.arrays harrays).free hself
  rw [show (some k : Ptr).toFinset = {k} from rfl, Finset.sdiff_singleton_eq_erase] at hfree
  rwa [objects, Finset.sdiff_insert]

/-- The group that a creation at `k` makes: only cpu 0 has entries. -/
def createdGroup (k : Nat) : TaskGroupMem where
  wrrRqs := some (k + 1)
  wrrSes := some (k + 2)
  wrrRq := Function.update (fun _ => none) 0 (some (k + 3))
  wrrSe := Function.update (fun _ => none) 0 (some (k + 4))

/-- The four allocations of the WRR step succeed. -/
def Outcomes.WrrOk (a : Outcomes) : Prop :=
  a.wrrRqs = true ∧ a.wrrSes = true ∧ a.wrrRq = true ∧ a.wrrSe = true

/-- What a failed WRR step leaves behind. -/
structure WrrFailed (h : Heap) (owned : Finset Nat) (r : Bool × TaskGroupMem × Heap) : Prop where
  returned : r.1 = false
  /-- The run queue has been given back; the arrays are the group's. -/
  accounts : r.2.2.Accounts (r.2.1.arrays ∪ owned)
  newer : ∀ x ∈ r.2.1.arrays, h.next ≤ x
  apart : Disjoint r.2.1.wrrRqs.toFinset r.2.1.wrrSes.toFinset

/-- A failed step may have left no array behind. -/
theorem WrrFailed.zeroed (hacc : h.Accounts owned) : WrrFailed h owned (false, .zeroed, h) where
  returned := rfl
  accounts := by
    rwa [show (TaskGroupMem.zeroed).arrays ∪ owned = owned from Finset.empty_union owned]
  newer x hx := absurd hx (Finset.notMem_empty x)
  apart := Finset.disjoint_empty_left _

/-- A failed step may have left the array of run queues behind. -/
theorem WrrFailed.rqs (hacc : h.Accounts owned) : WrrFailed h owned
    (false, { TaskGroupMem.zeroed with wrrRqs := some h.next }, (h.alloc true).2) := by
  have harrays : ({ TaskGroupMem.zeroed with wrrRqs := some h.next }).arrays = {h.next} :=
    Finset.union_empty _
  constructor
  · rfl
  · rw [harrays, ← Finset.insert_eq]
    exact hacc.alloc
  · intro x hx
    rw [harrays, Finset.mem_singleton] at hx
    rw [hx]
  · exact Finset.disjoint_empty_right _

/-- A failed step may have left both arrays behind, and nothing more. -/
theorem WrrFailed.both {h' : Heap} (hacc : h'.Accounts (insert (h.next + 1) (insert h.next owned))) :
    WrrFailed h owned (false, { TaskGroupMem.zeroed with
      wrrRqs := some h.next, wrrSes := some (h.next + 1) }, h') := by
  have harrays : ({ TaskGroupMem.zeroed with
      wrrRqs := some h.next, wrrSes := some (h.next + 1) }).arrays = {h.next} ∪ {h.next + 1} := rfl
  have hpair : insert (h.next + 1) (insert h.next owned) = {h.next} ∪ {h.next + 1} ∪ owned := by
    rw [Finset.insert_comm, Finset.insert_eq, Finset.insert_eq, Finset.union_assoc]
  constructor
  · rfl
  · rw [harrays, ← hpair]
    exact hacc
  · intro x hx
    rw [harrays, Finset.mem_union, Finset.mem_singleton, Finset.mem_singleton] at hx
    omega
  · exact Finset.disjoint_singleton.mpr (Nat.succ_ne_self _).symm

/-- **What a failed WRR step leaves** is one of these three. -/
theorem allocWrrSchedGroup_failed (hacc : h.Accounts owned) (hfail : ¬a.WrrOk) :
    WrrFailed h owned (allocWrrSchedGroup a h .zeroed) := by
  -- one case for each allocation that may be the first to fail
  cases hrqs : a.wrrRqs with
  | false =>
    have hr : allocWrrSchedGroup a h .zeroed = (false, .zeroed, h) := by
      simp [allocWrrSchedGroup, hrqs, alloc_false, TaskGroupMem.zeroed]
    rw [hr]
    exact WrrFailed.zeroed hacc
  | true =>
  cases hses : a.wrrSes with
  | false =>
    have hr : allocWrrSchedGroup a h .zeroed =
        (false, { TaskGroupMem.zeroed with wrrRqs := some h.next }, (h.alloc true).2) := by
      simp [allocWrrSchedGroup, hrqs, hses, alloc_true, alloc_false, TaskGroupMem.zeroed]
    rw [hr]
    exact WrrFailed.rqs hacc
  | true =>
  cases hrq : a.wrrRq with
  | false =>
    have hr : allocWrrSchedGroup a h .zeroed = (false, { TaskGroupMem.zeroed with
        wrrRqs := some h.next, wrrSes := some (h.next + 1) }, ((h.alloc true).2.alloc true).2) := by
      simp [allocWrrSchedGroup, hrqs, hses, hrq, alloc_true, alloc_false, TaskGroupMem.zeroed]
    rw [hr]
    exact WrrFailed.both hacc.alloc.alloc
  | true =>
  cases hse : a.wrrSe with
  | false =>
    have hr : allocWrrSchedGroup a h .zeroed = (false, { TaskGroupMem.zeroed with
        wrrRqs := some h.next, wrrSes := some (h.next + 1) },
        (((h.alloc true).2.alloc true).2.alloc true).2.free (some (h.next + 2))) := by
      simp [allocWrrSchedGroup, hrqs, hses, hrq, hse, alloc_true, alloc_false,
        TaskGroupMem.zeroed]
    rw [hr]
    -- `err_free_rq` has given the run queue back
    exact WrrFailed.both hacc.alloc.alloc.alloc_free
  | true => exact absurd ⟨hrqs, hses, hrq, hse⟩ hfail

/-- Every step of the creation succeeds. -/
def Outcomes.Ok (a : Outcomes) : Prop := a.tg = true ∧ a.fair = true ∧ a.rt = true ∧ a.WrrOk

/-- A failure before the WRR step gives the group back, which has no arrays yet. -/
theorem freeSchedGroup_zeroed (hacc : h.Accounts owned) :
    (freeSchedGroup (h.alloc true).2 h.next .zeroed).Accounts owned := hacc.alloc_free

/-- **A creation that fails** gives back what it allocated. -/
theorem schedCreateGroup_failed (hacc : h.Accounts owned) (hfail : ¬a.Ok) :
    (schedCreateGroup a h).1 = none ∧ (schedCreateGroup a h).2.Accounts owned := by
  unfold schedCreateGroup
  cases htg : a.tg with
  | false => exact ⟨rfl, hacc⟩
  | true =>
  rw [alloc_true]
  dsimp only
  split
  · exact ⟨rfl, freeSchedGroup_zeroed hacc⟩
  next hfair =>
  split
  · exact ⟨rfl, freeSchedGroup_zeroed hacc⟩
  next hrt =>
  have hwrr : ¬a.WrrOk := fun hok => hfail
    ⟨htg, Bool.eq_true_of_not_eq_false hfair, Bool.eq_true_of_not_eq_false hrt, hok⟩
  obtain ⟨hret, hstep, hge, hdisjoint⟩ := allocWrrSchedGroup_failed hacc.alloc hwrr
  rw [alloc_true] at hret hstep hge hdisjoint
  rw [if_neg (Bool.eq_false_iff.mp hret)]
  refine ⟨rfl, ?_⟩
  -- the arrays are newer than the group, and that is newer than the rest
  have hself : h.next ∉ (allocWrrSchedGroup a _ .zeroed).2.1.arrays :=
    fun hmem => absurd (hge _ hmem) (Nat.not_succ_le_self _)
  have hold : Disjoint (allocWrrSchedGroup a _ .zeroed).2.1.arrays owned :=
    Finset.disjoint_left.mpr fun x hx hx' =>
      Nat.lt_irrefl _ ((hacc.bound x hx').trans (hge x hx))
  have hfree := freeSchedGroup_accounts (k := h.next) hstep ⟨hself, hdisjoint⟩
    (Finset.insert_subset (Finset.mem_union_right _ (Finset.mem_insert_self _ _))
      Finset.subset_union_left)
  rwa [objects, Finset.union_insert, Finset.insert_sdiff_insert, Finset.sdiff_insert,
    Finset.union_sdiff_cancel_left hold, Finset.erase_eq_of_notMem hacc.next_notMem] at hfree

/-- **A creation that succeeds** makes a group with two arrays, and two more objects. -/
theorem schedCreateGroup_ok (hacc : h.Accounts owned) (hok : a.Ok) :
    (schedCreateGroup a h).1 = some (h.next, createdGroup h.next) ∧
      (schedCreateGroup a h).2.Accounts
        (insert (h.next + 4) (insert (h.next + 3) (objects h.next (createdGroup h.next) ∪ owned))) ∧
      (schedCreateGroup a h).2.next = h.next + 5 := by
  obtain ⟨htg, hfair, hrt, hrqs, hses, hrq, hse⟩ := hok
  have hcreate : schedCreateGroup a h = (some (h.next, createdGroup h.next),
      ((((h.alloc true).2.alloc true).2.alloc true).2.alloc true).2.alloc true |>.2) := by
    simp [schedCreateGroup, allocWrrSchedGroup, initTgWrrEntry, createdGroup, htg, hfair, hrt, hrqs,
      hses, hrq, hse, alloc_true, TaskGroupMem.zeroed]
  rw [hcreate]
  refine ⟨rfl, ?_, rfl⟩
  have hobjects : insert (h.next + 2) (insert (h.next + 1) (insert h.next owned)) =
      objects h.next (createdGroup h.next) ∪ owned := by
    show _ = insert h.next ({h.next + 1} ∪ {h.next + 2}) ∪ owned
    rw [Finset.insert_union, Finset.union_assoc, ← Finset.insert_eq, ← Finset.insert_eq,
      Finset.insert_comm (h.next + 2) (h.next + 1), Finset.insert_comm (h.next + 2) h.next,
      Finset.insert_comm (h.next + 1) h.next]
  rw [← hobjects]
  exact hacc.alloc.alloc.alloc.alloc.alloc

/-! ## Runs -/

/-- The heap, and the groups that have been created and not freed. -/
structure MemState where
  heap : Heap
  group : Nat → Option TaskGroupMem

inductive MemOp where
  /-- `sched_create_group`. -/
  | create (a : Outcomes)
  /-- `free_sched_group_rcu`, after `sched_destroy_group`. -/
  | free (k : Nat)
  deriving DecidableEq

def memStep (s : MemState) : MemOp → MemState
  | .create a =>
    let r := schedCreateGroup a s.heap
    match r.1 with
    | none => { s with heap := r.2 }
    | some (k, tg) => { heap := r.2, group := Function.update s.group k (some tg) }
  | .free k =>
    match s.group k with
    | none => s
    | some tg => { heap := freeSchedGroup s.heap k tg, group := Function.update s.group k none }

/-- A group is freed once. -/
def MemState.Pre (s : MemState) : MemOp → Prop
  | .create _ => True
  | .free k => (s.group k).isSome = true

def MemState.init : MemState := ⟨Heap.init, fun _ => none⟩

/-- Every live group is as it was created and owns its objects, and no other group has any of
them. -/
structure MemInv (s : MemState) (owned : Finset Nat) : Prop where
  accounts : s.heap.Accounts owned
  created : ∀ k tg, s.group k = some tg → tg = createdGroup k ∧ objects k tg ⊆ owned
  apart : ∀ k l, k ≠ l → (s.group k).isSome = true → (s.group l).isSome = true →
    Disjoint (objects k (createdGroup k)) (objects l (createdGroup l))

variable {s t : MemState} {op : MemOp}

theorem mem_createdGroup_arrays {x : Nat} :
    x ∈ (createdGroup k).arrays ↔ x = k + 1 ∨ x = k + 2 := by
  show x ∈ ({k + 1} ∪ {k + 2} : Finset Nat) ↔ _
  rw [Finset.mem_union, Finset.mem_singleton, Finset.mem_singleton]

/-- The objects of a created group do not overlap. -/
theorem createdGroup_apart (k : Nat) : Apart k (createdGroup k) where
  self := by
    rw [mem_createdGroup_arrays]
    omega
  arrays := Finset.disjoint_singleton.mpr (by omega)

/-- A created group lies entirely in fresh addresses. -/
theorem objects_ge {x : Nat} (hx : x ∈ objects k (createdGroup k)) : k ≤ x := by
  rw [objects, Finset.mem_insert, mem_createdGroup_arrays] at hx
  omega

namespace MemInv

theorem init : MemInv MemState.init ∅ :=
  ⟨Accounts.init, fun _ _ hno => (nomatch hno), fun _ _ _ hno => (nomatch hno)⟩

theorem subset (h' : MemInv s owned) (hk : (s.group k).isSome = true) :
    s.group k = some (createdGroup k) ∧ objects k (createdGroup k) ⊆ owned := by
  obtain ⟨tg, htg⟩ := Option.isSome_iff_exists.mp hk
  obtain ⟨rfl, hsub⟩ := h'.created k tg htg
  exact ⟨htg, hsub⟩

/-- A creation that fails changes the record of frees only. -/
theorem create_failed (h' : MemInv s owned) (hfail : ¬a.Ok) :
    memStep s (.create a) = { s with heap := (schedCreateGroup a s.heap).2 } ∧
      MemInv (memStep s (.create a)) owned := by
  obtain ⟨hnone, hacc⟩ := schedCreateGroup_failed h'.accounts hfail
  have hstep : memStep s (.create a) = { s with heap := (schedCreateGroup a s.heap).2 } := by
    unfold memStep
    dsimp only
    rw [hnone]
  refine ⟨hstep, ?_⟩
  rw [hstep]
  exact ⟨hacc, h'.created, h'.apart⟩

/-- The objects of the live groups are older than those of the next one. -/
theorem objects_new (h' : MemInv s owned) (hk : (s.group k).isSome = true) :
    Disjoint (objects k (createdGroup k)) (objects s.heap.next (createdGroup s.heap.next)) := by
  refine Finset.disjoint_left.mpr fun x hx hx' => ?_
  have hlt := h'.accounts.bound x ((h'.subset hk).2 hx)
  exact absurd (objects_ge hx') (Nat.not_le.mpr hlt)

/-- A new group, whose objects and some more have been handed out. -/
theorem insert_group (h' : MemInv s owned) {heap : Heap} {owned' : Finset Nat}
    (hacc : heap.Accounts owned')
    (hsub : objects s.heap.next (createdGroup s.heap.next) ∪ owned ⊆ owned') :
    MemInv { heap, group := Function.update s.group s.heap.next (some (createdGroup s.heap.next)) }
      owned' := by
  refine ⟨hacc, fun k tg hk => ?_, fun k l hkl hk hl => ?_⟩
  · dsimp only at hk
    by_cases hnext : k = s.heap.next
    · subst hnext
      rw [Function.update_self] at hk
      cases hk
      exact ⟨rfl, Finset.subset_union_left.trans hsub⟩
    · rw [Function.update_of_ne hnext] at hk
      obtain ⟨htg, hold⟩ := h'.created k tg hk
      exact ⟨htg, hold.trans (Finset.subset_union_right.trans hsub)⟩
  · dsimp only at hk hl
    -- at most one of the two is the new one
    by_cases hnext : k = s.heap.next
    · subst hnext
      rw [Function.update_of_ne (Ne.symm hkl)] at hl
      exact (h'.objects_new hl).symm
    · rw [Function.update_of_ne hnext] at hk
      by_cases hnext' : l = s.heap.next
      · subst hnext'
        exact h'.objects_new hk
      · rw [Function.update_of_ne hnext'] at hl
        exact h'.apart k l hkl hk hl

/-- A creation that succeeds: the run queue and the entity are nobody's. -/
theorem create_ok (h' : MemInv s owned) (hok : a.Ok) :
    memStep s (.create a) =
        { heap := (schedCreateGroup a s.heap).2
          group := Function.update s.group s.heap.next (some (createdGroup s.heap.next)) } ∧
      MemInv (memStep s (.create a)) (insert (s.heap.next + 4) (insert (s.heap.next + 3)
        (objects s.heap.next (createdGroup s.heap.next) ∪ owned))) := by
  obtain ⟨hsome, hacc, -⟩ := schedCreateGroup_ok h'.accounts hok
  have hstep : memStep s (.create a) =
      { heap := (schedCreateGroup a s.heap).2
        group := Function.update s.group s.heap.next (some (createdGroup s.heap.next)) } := by
    unfold memStep
    dsimp only
    rw [hsome]
  refine ⟨hstep, ?_⟩
  rw [hstep]
  exact h'.insert_group hacc ((Finset.subset_insert _ _).trans (Finset.subset_insert _ _))

theorem free (h' : MemInv s owned) (hk : (s.group k).isSome = true) :
    MemInv (memStep s (.free k)) (owned \ objects k (createdGroup k)) := by
  obtain ⟨hgroup, hsub⟩ := h'.subset hk
  have hstep : memStep s (.free k) =
      { heap := freeSchedGroup s.heap k (createdGroup k)
        group := Function.update s.group k none } := by
    unfold memStep
    dsimp only
    rw [hgroup]
  have hother : ∀ l, (Function.update s.group k none l).isSome = true →
      l ≠ k ∧ (s.group l).isSome = true := by
    intro l hl
    by_cases hlk : l = k
    · subst hlk
      rw [Function.update_self] at hl
      cases hl
    · rw [Function.update_of_ne hlk] at hl
      exact ⟨hlk, hl⟩
  rw [hstep]
  refine ⟨freeSchedGroup_accounts h'.accounts (createdGroup_apart k) hsub, fun l tg hl => ?_,
    fun l m hlm hl hm => ?_⟩
  · have hsome : (Function.update s.group k none l).isSome = true := by
      rw [show Function.update s.group k none l = some tg from hl]
      rfl
    obtain ⟨hlk, hlive⟩ := hother l hsome
    dsimp only at hl
    rw [Function.update_of_ne hlk] at hl
    obtain ⟨rfl, hsub'⟩ := h'.created l tg hl
    exact ⟨rfl, Finset.subset_sdiff.mpr ⟨hsub', h'.apart l k hlk hlive hk⟩⟩
  · exact h'.apart l m hlm (hother l hl).2 (hother m hm).2

end MemInv

/-- **Step lemma**: creating and destroying groups keeps the memory invariant. -/
theorem memStep_inv (h' : MemInv s owned) (hop : s.Pre op) : ∃ owned', MemInv (memStep s op) owned' := by
  cases op with
  | create a =>
    by_cases hok : a.Ok
    · exact ⟨_, (h'.create_ok hok).2⟩
    · exact ⟨_, (h'.create_failed hok).2⟩
  | free k => exact ⟨_, h'.free hop⟩

/-- In every state reached, what the groups own is what the heap has live. -/
theorem memInv_reach (hrun : Reach MemState.Pre memStep MemState.init s) : ∃ owned, MemInv s owned :=
  hrun.invariant (I := fun s => ∃ owned, MemInv s owned)
    (fun _ _ h' hop => h'.elim fun _ h' => memStep_inv h' hop) ⟨∅, MemInv.init⟩

/-! ## Creating a group and freeing it -/

/-- The objects that the WRR step of a creation has allocated: those newer than the group. -/
def WrrObject (a : Outcomes) (h : Heap) (x : Nat) : Prop :=
  h.next < x ∧ x < (schedCreateGroup a h).2.next

/-- What the creation of a group should do on a machine with `n` possible cpus. -/
structure CreationOk (n : Nat) (a : Outcomes) (s : MemState) : Prop where
  /-- The error path frees what the WRR step has allocated, once. -/
  failed : (schedCreateGroup a s.heap).1 = none → ∀ x, WrrObject a s.heap x →
    x ∉ (memStep s (.create a)).heap.live ∧ (memStep s (.create a)).heap.freed.count x = 1
  once : ∀ x, (memStep s (.create a)).heap.freed.count x ≤ 1
  /-- A new group has a run queue and an entity for every cpu. -/
  entries : ∀ k tg, (schedCreateGroup a s.heap).1 = some (k, tg) →
    ∀ cpu < n, tg.wrrRq cpu ≠ none ∧ tg.wrrSe cpu ≠ none
  /-- When the group is freed later, so are all these objects, once. -/
  freed : ∀ k tg, (schedCreateGroup a s.heap).1 = some (k, tg) →
    ∀ t, Reach (fun t op => t.Pre op ∧ op ≠ .free k) memStep (memStep s (.create a)) t →
      ∀ x, WrrObject a s.heap x →
        x ∉ (memStep t (.free k)).heap.live ∧ (memStep t (.free k)).heap.freed.count x = 1

/-- The entries of a new group are those of cpu 0. -/
theorem createdGroup_entries_iff (n k : Nat) :
    (∀ cpu < n, (createdGroup k).wrrRq cpu ≠ none ∧ (createdGroup k).wrrSe cpu ≠ none) ↔ n ≤ 1 := by
  constructor
  · intro hall
    by_contra hn
    exact (hall 1 (by omega)).1 rfl
  · intro hn cpu hcpu
    obtain rfl : cpu = 0 := by omega
    exact ⟨(fun hno => nomatch hno), fun hno => nomatch hno⟩

/-- The run queue and the entity of a new group are live whatever is freed. -/
theorem leak (h' : MemInv s owned) (hok : a.Ok) :
    (s.heap.next + 3) ∈ (memStep (memStep s (.create a)) (.free s.heap.next)).heap.live := by
  obtain ⟨hstep, hinv⟩ := h'.create_ok hok
  have hsome : ((memStep s (.create a)).group s.heap.next).isSome = true := by
    rw [hstep]
    dsimp only
    rw [Function.update_self]
    rfl
  rw [(hinv.free hsome).accounts.live, Finset.mem_sdiff]
  refine ⟨Finset.mem_insert_of_mem (Finset.mem_insert_self _ _), ?_⟩
  rw [objects, Finset.mem_insert, mem_createdGroup_arrays]
  omega

/-- **Creating and freeing a group**: its WRR objects are balanced exactly when some step of the
creation fails. -/
theorem creationOk_iff (hrun : Reach MemState.Pre memStep MemState.init s) (n : Nat)
    (a : Outcomes) : CreationOk n a s ↔ ¬a.Ok := by
  obtain ⟨owned, h'⟩ := memInv_reach hrun
  constructor
  · intro hcreate hok
    obtain ⟨hsome, -, hnext⟩ := schedCreateGroup_ok h'.accounts hok
    have hobject : WrrObject a s.heap (s.heap.next + 3) := by
      unfold WrrObject
      rw [hnext]
      omega
    exact (hcreate.freed _ _ hsome _ (Reach.refl _) _ hobject).1 (leak h' hok)
  · intro hfail
    obtain ⟨hnone, -⟩ := schedCreateGroup_failed h'.accounts hfail
    obtain ⟨hstep, hinv⟩ := h'.create_failed hfail
    refine ⟨fun _ x hx => ?_, hinv.accounts.count_le, fun k tg hsome => ?_, fun k tg hsome => ?_⟩
    · have hlt : x < (memStep s (.create a)).heap.next := by
        rw [hstep]
        exact hx.2
      exact hinv.accounts.freed_once hlt fun hmem =>
        Nat.lt_asymm hx.1 (h'.accounts.bound x hmem)
    · rw [hnone] at hsome
      cases hsome
    · rw [hnone] at hsome
      cases hsome

instance (a : Outcomes) : Decidable a.Ok :=
  inferInstanceAs (Decidable (_ = _ ∧ _ = _ ∧ _ = _ ∧ _ = _ ∧ _ = _ ∧ _ = _ ∧ _ = _))

/-- Memory is enough. -/
def Outcomes.plenty : Outcomes := ⟨true, true, true, true, true, true, true⟩

/-- A group is created and freed; the next creation fails at its last allocation. -/
theorem creationOk_boot :
    let s := memStep (memStep MemState.init (.create .plenty)) (.free 0)
    CreationOk 4 { Outcomes.plenty with wrrSe := false } s := by
  intro s
  have hcreate : MemState.init.Pre (.create .plenty) := trivial
  have hrun : Reach MemState.Pre memStep MemState.init s :=
    (Reach.single hcreate).tail (by decide : _ = true)
  exact (creationOk_iff hrun 4 _).mpr (by decide)

/-- Enough memory, one cpu: run queue and entity are still live when the group has been freed.
With two cpus the second has no entries. -/
theorem creation_leaks :
    ¬CreationOk 1 .plenty MemState.init ∧ ¬CreationOk 2 .plenty MemState.init ∧
      (memStep (memStep MemState.init (.create .plenty)) (.free 0)).heap.live = {3, 4} := by
  have hlive : (memStep (memStep MemState.init (.create .plenty)) (.free 0)).heap.live = {3, 4} := by
    decide
  refine ⟨fun hok => ?_, fun hok => ?_, hlive⟩
  · have hobject : WrrObject .plenty MemState.init.heap 3 := ⟨by decide, by decide⟩
    have hgone := (hok.freed 0 _ rfl _ (Reach.refl _) 3 hobject).1
    rw [hlive] at hgone
    exact hgone (by decide)
  · exact (hok.entries 0 _ rfl 1 (by decide)).1 rfl

end LinuxWrr.Group
