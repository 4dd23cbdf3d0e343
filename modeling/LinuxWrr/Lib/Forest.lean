import Mathlib

/-!
# Forests held together by pointers

A node has a list of its children and points to its parent. `Links` is such a forest, `link` and
`unlink` are the ways in which it grows and shrinks, `visits` is the depth-first order in which a
subtree is entered and left, and `visitAll` makes visits until one of them reports an error.

- `enter_mem_visits`: the order goes through the subtree, and through nothing else.
- `visitAll_eq_zero_iff`: visits that only look report an error if one of the nodes has one.
- `visitAll_topDown`: so do visits that settle each node on the grounds of its parent.
- `sum_le_of_antichain`: where the weights of the children never exceed that of their parent, the
  weights of any nodes none of which is below another never exceed that of a common ancestor.
-/

universe u v

/-- The pointers of a forest. -/
structure Links (α : Type u) where
  children : α → List α
  parent : α → Option α
  parent_of_mem : ∀ {p c}, c ∈ children p → parent c = some p
  nodup : ∀ p, (children p).Nodup
  wf : WellFounded fun c p => c ∈ children p

/-- Entering a node for the first time, or leaving it for the last. -/
inductive Visit (α : Type u) where
  | enter (a : α)
  | leave (a : α)
  deriving DecidableEq

namespace Links

variable {α : Type u} {σ : Type v} {L : Links α} {a b c p : α}

/-- `b` is in the subtree of `a`. -/
def Below (L : Links α) : α → α → Prop := Relation.ReflTransGen fun p c => c ∈ L.children p

theorem Below.refl : L.Below a a := Relation.ReflTransGen.refl

theorem Below.trans (h : L.Below a b) (h' : L.Below b c) : L.Below a c :=
  Relation.ReflTransGen.trans h h'

theorem Below.of_mem (h : c ∈ L.children p) : L.Below p c := Relation.ReflTransGen.single h

/-- Whatever is below a node is the node itself or below one of its children. -/
theorem below_iff : L.Below a b ↔ b = a ∨ ∃ c ∈ L.children a, L.Below c b := by
  unfold Below
  rw [Relation.ReflTransGen.cases_head_iff]
  constructor
  · rintro (rfl | ⟨c, hc, hcb⟩)
    · exact .inl rfl
    · exact .inr ⟨c, hc, hcb⟩
  · rintro (rfl | ⟨c, hc, hcb⟩)
    · exact .inl rfl
    · exact .inr ⟨c, hc, hcb⟩

/-- Nothing but a leaf itself is below it. -/
theorem eq_of_below_leaf (hleaf : L.children a = []) (h : L.Below a b) : b = a := by
  obtain heq | ⟨c, hc, -⟩ := below_iff.mp h
  · exact heq
  · rw [hleaf] at hc
    exact absurd hc List.not_mem_nil

/-- A child is not above its parent. -/
theorem not_below_of_mem (h : c ∈ L.children p) : ¬L.Below c p := by
  intro hcp
  have hwf := L.wf.transGen
  have hcyc : Relation.TransGen (fun c p => c ∈ L.children p) p p := by
    refine Relation.TransGen.tail' ?_ h
    exact Relation.reflTransGen_swap.mp hcp
  exact hwf.irrefl.irrefl p hcyc

theorem ne_of_mem_of_below (hap : L.Below a p) (h : c ∈ L.children p) : c ≠ a := by
  rintro rfl
  exact not_below_of_mem h hap

/-- What is above a node is above its parent, or the node itself. -/
theorem below_of_mem (h : c ∈ L.children p) (hb : L.Below b c) : b = c ∨ L.Below b p := by
  rcases Relation.ReflTransGen.cases_tail hb with hbc | ⟨q, hbq, hcq⟩
  · exact .inl hbc.symm
  · right
    have hqp : some q = some p := (L.parent_of_mem hcq).symm.trans (L.parent_of_mem h)
    rwa [← Option.some.inj hqp]

/-- The subtrees of two children do not meet. -/
theorem eq_of_below (hc : c ∈ L.children p) (hd : b ∈ L.children p) (hca : L.Below c a)
    (hba : L.Below b a) : c = b := by
  induction hca with
  | refl =>
    obtain h | h := below_of_mem hc hba
    · exact h.symm
    · exact absurd h (not_below_of_mem hd)
  | tail hcq hq ih =>
    obtain rfl | h := below_of_mem hq hba
    · have hp : some _ = some p := (L.parent_of_mem hq).symm.trans (L.parent_of_mem hd)
      rw [Option.some.inj hp] at hcq
      exact absurd hcq (not_below_of_mem hc)
    · exact ih h

/-! ## The order of a walk -/

/-- The subtree of `a` in depth-first order. -/
def visits (L : Links α) (a : α) : List (Visit α) :=
  .enter a :: ((L.children a).attach.flatMap fun c => visits L c.1) ++ [.leave a]
termination_by L.wf.wrap a
decreasing_by exact c.2

/-- The same, without leaving `a`. -/
def inner (L : Links α) (a : α) : List (Visit α) :=
  .enter a :: (L.children a).flatMap L.visits

/-- The visits of a subtree end with the one that leaves its root. -/
theorem visits_eq (L : Links α) (a : α) : L.visits a = L.inner a ++ [.leave a] := by
  rw [visits, inner, List.flatMap_subtype (g := L.visits) fun _ _ => rfl, List.unattach_attach]

/-- A walk enters the nodes of the subtree, and no others. -/
theorem enter_mem_visits : .enter b ∈ L.visits a ↔ L.Below a b := by
  induction a using L.wf.induction with
  | _ a ih =>
    rw [visits_eq, inner, below_iff, List.mem_append, List.mem_cons, List.mem_flatMap,
      List.mem_singleton, Visit.enter.injEq]
    constructor
    · rintro ((hb | ⟨c, hc, hcb⟩) | hb)
      · exact .inl hb
      · exact .inr ⟨c, hc, (ih c hc).mp hcb⟩
      · cases hb
    · rintro (hb | ⟨c, hc, hcb⟩)
      · exact .inl (.inl hb)
      · exact .inl (.inr ⟨c, hc, (ih c hc).mpr hcb⟩)

/-- Make the visits in turn until one does not return 0. -/
def visitAll (f : Visit α → σ → Int × σ) : List (Visit α) → σ → Int × σ
  | [], s => (0, s)
  | v :: vs, s => if (f v s).1 ≠ 0 then f v s else visitAll f vs (f v s).2

variable {f : Visit α → σ → Int × σ} {v : Visit α} {vs ws : List (Visit α)} {s : σ}

/-- The walk stops at the first visit that answers with an error. -/
theorem visitAll_cons_of_ne (h : (f v s).1 ≠ 0) : visitAll f (v :: vs) s = f v s := if_pos h

/-- After a visit without an error the walk goes on with the next. -/
theorem visitAll_cons_of_eq (h : (f v s).1 = 0) :
    visitAll f (v :: vs) s = visitAll f vs (f v s).2 := if_neg (not_not.mpr h)

theorem visitAll_singleton : visitAll f [v] s = f v s := by
  by_cases h : (f v s).1 = 0
  · rw [visitAll_cons_of_eq h]
    exact Prod.ext h.symm rfl
  · exact visitAll_cons_of_ne h

/-- An error in the first part of a walk is the answer of the whole. -/
theorem visitAll_append_of_ne (h : (visitAll f vs s).1 ≠ 0) :
    visitAll f (vs ++ ws) s = visitAll f vs s := by
  induction vs generalizing s with
  | nil => exact absurd rfl h
  | cons v vs ih =>
    rw [List.cons_append]
    by_cases hv : (f v s).1 = 0
    · rw [visitAll_cons_of_eq hv] at h ⊢
      rw [visitAll_cons_of_eq hv, ih h]
    · rw [visitAll_cons_of_ne hv, visitAll_cons_of_ne hv]

/-- A walk whose first part meets no error goes on with the second. -/
theorem visitAll_append_of_eq (h : (visitAll f vs s).1 = 0) :
    visitAll f (vs ++ ws) s = visitAll f ws (visitAll f vs s).2 := by
  induction vs generalizing s with
  | nil => rfl
  | cons v vs ih =>
    rw [List.cons_append]
    by_cases hv : (f v s).1 = 0
    · rw [visitAll_cons_of_eq hv] at h ⊢
      rw [visitAll_cons_of_eq hv, ih h]
    · rw [visitAll_cons_of_ne hv] at h
      exact absurd h hv

/-- What every visit keeps, the walk keeps. -/
theorem visitAll_invariant {I : σ → Prop} (hf : ∀ v s, I s → I (f v s).2) (h : I s) :
    I (visitAll f vs s).2 := by
  induction vs generalizing s with
  | nil => exact h
  | cons v vs ih =>
    by_cases hv : (f v s).1 = 0
    · rw [visitAll_cons_of_eq hv]
      exact ih (hf v s h)
    · rw [visitAll_cons_of_ne hv]
      exact hf v s h

/-- A visitor that leaves the state alone leaves it so over a whole walk. -/
theorem visitAll_snd (hf : ∀ v s, (f v s).2 = s) : (visitAll f vs s).2 = s :=
  visitAll_invariant (I := fun t => t = s) (fun v t ht => (hf v t).trans ht) rfl

/-- Visits that leave the state alone succeed together if each of them does. -/
theorem visitAll_eq_zero_iff (hf : ∀ v s, (f v s).2 = s) :
    (visitAll f vs s).1 = 0 ↔ ∀ v ∈ vs, (f v s).1 = 0 := by
  induction vs with
  | nil => exact iff_of_true rfl fun v hv => absurd hv List.not_mem_nil
  | cons v vs ih =>
    rw [List.forall_mem_cons]
    by_cases hv : (f v s).1 = 0
    · rw [visitAll_cons_of_eq hv, hf, ih, and_iff_right hv]
    · rw [visitAll_cons_of_ne hv]
      exact iff_of_false hv fun h => hv h.1

/-! ### Visits that go by the parent -/

section TopDown

variable {Q : α → σ → Prop} {ok : α → Prop}

/-- What is settled stays so while other nodes are entered. -/
theorem visitAll_keep (hleave : ∀ a s, f (.leave a) s = (0, s))
    (hkeep : ∀ a b s, b ≠ a → Q b s → Q b (f (.enter a) s).2) (hb : .enter b ∉ vs)
    (h : Q b s) : Q b (visitAll f vs s).2 := by
  induction vs generalizing s with
  | nil => exact h
  | cons v vs ih =>
    obtain ⟨hv, hvs⟩ := not_or.mp (mt List.mem_cons.mpr hb)
    have hnext : Q b (f v s).2 := by
      cases v with
      | enter a => exact hkeep a b s (fun heq => hv (congrArg Visit.enter heq)) h
      | leave a =>
        rw [hleave]
        exact h
    by_cases hzero : (f v s).1 = 0
    · rw [visitAll_cons_of_eq hzero]
      exact ih hvs hnext
    · rw [visitAll_cons_of_ne hzero]
      exact hnext

/-- A last visit that does nothing may be left out. -/
theorem visitAll_leave (hleave : ∀ a s, f (.leave a) s = (0, s)) :
    visitAll f (vs ++ [.leave a]) s = visitAll f vs s := by
  by_cases h : (visitAll f vs s).1 = 0
  · rw [visitAll_append_of_eq h, visitAll_singleton, hleave]
    exact Prod.ext h.symm rfl
  · exact visitAll_append_of_ne h

/-- The walk through the subtree of `a` succeeds if its nodes are in order, and settles them. -/
def Settles (L : Links α) (f : Visit α → σ → Int × σ) (Q : α → σ → Prop) (ok : α → Prop) (a : α)
    (s : σ) : Prop :=
  ((visitAll f (L.visits a) s).1 = 0 ↔ ∀ b, L.Below a b → ok b) ∧
    ((visitAll f (L.visits a) s).1 = 0 → ∀ b, L.Below a b → Q b (visitAll f (L.visits a) s).2)

/-- The subtrees of some of the children of `p`. -/
theorem settles_children (hleave : ∀ a s, f (.leave a) s = (0, s))
    (hkeep : ∀ a b s, b ≠ a → Q b s → Q b (f (.enter a) s).2) {l : List α} (hl : l.Nodup)
    (hchild : ∀ c ∈ l, c ∈ L.children p) (hsub : ∀ c ∈ l, ∀ s, Q p s → Settles L f Q ok c s)
    (hs : Q p s) :
    ((visitAll f (l.flatMap L.visits) s).1 = 0 ↔ ∀ c ∈ l, ∀ b, L.Below c b → ok b) ∧
      ((visitAll f (l.flatMap L.visits) s).1 = 0 →
        ∀ c ∈ l, ∀ b, L.Below c b → Q b (visitAll f (l.flatMap L.visits) s).2) := by
  induction l generalizing s with
  | nil =>
    refine ⟨iff_of_true rfl fun c hc => absurd hc List.not_mem_nil, fun _ c hc => ?_⟩
    exact absurd hc List.not_mem_nil
  | cons c l ih =>
    obtain ⟨hc, hl⟩ := List.nodup_cons.mp hl
    obtain ⟨hiff, hsettled⟩ := hsub c List.mem_cons_self s hs
    have hcp := hchild c List.mem_cons_self
    rw [List.flatMap_cons, List.forall_mem_cons]
    by_cases hzero : (visitAll f (L.visits c) s).1 = 0
    · rw [visitAll_append_of_eq hzero, and_iff_right (hiff.mp hzero)]
      have hp : Q p (visitAll f (L.visits c) s).2 := by
        refine visitAll_keep hleave hkeep (fun hmem => ?_) hs
        exact not_below_of_mem hcp (enter_mem_visits.mp hmem)
      obtain ⟨hiff', hsettled'⟩ := ih hl (fun d hd => hchild d (List.mem_cons_of_mem c hd))
        (fun d hd => hsub d (List.mem_cons_of_mem c hd)) hp
      refine ⟨hiff', fun hrest => List.forall_mem_cons.mpr ⟨fun b hb => ?_, hsettled' hrest⟩⟩
      -- the later subtrees do not meet that of `c`
      refine visitAll_keep hleave hkeep (fun hmem => ?_) (hsettled hzero b hb)
      obtain ⟨d, hd, hdb⟩ := List.mem_flatMap.mp hmem
      have hcd := eq_of_below hcp (hchild d (List.mem_cons_of_mem c hd)) hb
        (enter_mem_visits.mp hdb)
      exact hc (hcd ▸ hd)
    · rw [visitAll_append_of_ne hzero]
      exact ⟨iff_of_false hzero fun hall => hzero (hiff.mpr hall.1), fun h => absurd h hzero⟩

/-- Where entering a node goes by what it finds at the parent, and settles the node if it is in
order, a walk succeeds exactly if all nodes are in order, and settles them all. -/
theorem visitAll_topDown (hleave : ∀ a s, f (.leave a) s = (0, s))
    (hkeep : ∀ a b s, b ≠ a → Q b s → Q b (f (.enter a) s).2)
    (henter : ∀ p c s, c ∈ L.children p → Q p s →
      ((f (.enter c) s).1 = 0 ↔ ok c) ∧ ((f (.enter c) s).1 = 0 → Q c (f (.enter c) s).2))
    (ha : ((f (.enter a) s).1 = 0 ↔ ok a) ∧ ((f (.enter a) s).1 = 0 → Q a (f (.enter a) s).2)) :
    Settles L f Q ok a s := by
  induction a using L.wf.induction generalizing s with
  | _ a ih =>
    obtain ⟨hiff, hsettled⟩ := ha
    rw [Settles, visits_eq, visitAll_leave hleave, inner]
    by_cases hzero : (f (.enter a) s).1 = 0
    · rw [visitAll_cons_of_eq hzero]
      have hself := hsettled hzero
      obtain ⟨hiff', hsettled'⟩ := settles_children hleave hkeep (L.nodup a) (fun c hc => hc)
        (fun c hc s hs => ih c hc (henter a c s hc hs)) hself
      constructor
      · rw [hiff']
        constructor
        · intro hall b hb
          obtain rfl | ⟨c, hc, hcb⟩ := below_iff.mp hb
          · exact hiff.mp hzero
          · exact hall c hc b hcb
        · intro hall c hc b hb
          exact hall b ((Below.of_mem hc).trans hb)
      · intro hrest b hb
        obtain rfl | ⟨c, hc, hcb⟩ := below_iff.mp hb
        · refine visitAll_keep hleave hkeep (fun hmem => ?_) hself
          obtain ⟨c, hc, hcb⟩ := List.mem_flatMap.mp hmem
          exact not_below_of_mem hc (enter_mem_visits.mp hcb)
        · exact hsettled' hrest c hc b hcb
    · rw [visitAll_cons_of_ne hzero]
      exact ⟨iff_of_false hzero fun hall => hzero (hiff.mpr (hall a .refl)),
        fun h => absurd h hzero⟩

end TopDown

/-! ## Growing and shrinking -/

/-- No node knows of another. -/
def empty : Links α where
  children _ := []
  parent _ := none
  parent_of_mem h := absurd h List.not_mem_nil
  nodup _ := List.nodup_nil
  wf := ⟨fun _ => Acc.intro _ fun _ h => absurd h List.not_mem_nil⟩

section Link

variable [DecidableEq α]

/-- `c` has nothing to do with the forest, but for a parent that does not know it. -/
structure Fresh (L : Links α) (c : α) : Prop where
  children : L.children c = []
  notMem : ∀ p, c ∉ L.children p

/-- Make `c` the first child of `p`. -/
def link (L : Links α) (c p : α) (hc : L.Fresh c) (hne : c ≠ p) : Links α where
  children := Function.update L.children p (c :: L.children p)
  parent := Function.update L.parent c (some p)
  parent_of_mem := by
    intro q d hd
    have hcase : (d = c ∧ q = p) ∨ d ∈ L.children q := by
      by_cases hq : q = p
      · rw [hq, Function.update_self, List.mem_cons] at hd
        exact hd.imp (fun h => ⟨h, hq⟩) fun h => hq ▸ h
      · rw [Function.update_of_ne hq] at hd
        exact .inr hd
    obtain ⟨rfl, rfl⟩ | hd' := hcase
    · exact Function.update_self ..
    · have hdc : d ≠ c := by
        rintro rfl
        exact hc.notMem q hd'
      rw [Function.update_of_ne hdc]
      exact L.parent_of_mem hd'
  nodup := by
    intro q
    by_cases hq : q = p
    · rw [hq, Function.update_self]
      exact List.nodup_cons.mpr ⟨hc.notMem p, L.nodup p⟩
    · rw [Function.update_of_ne hq]
      exact L.nodup q
  wf := by
    have hacc : Acc (fun d q => d ∈ Function.update L.children p (c :: L.children p) q) c := by
      refine Acc.intro _ fun d hd => ?_
      rw [Function.update_of_ne hne, hc.children] at hd
      exact absurd hd List.not_mem_nil
    refine ⟨fun q => ?_⟩
    induction q using L.wf.induction with
    | _ q ih =>
      refine Acc.intro _ fun d hd => ?_
      by_cases hq : q = p
      · rw [hq, Function.update_self, List.mem_cons] at hd
        obtain rfl | hd := hd
        · exact hacc
        · exact ih d (hq ▸ hd)
      · rw [Function.update_of_ne hq] at hd
        exact ih d hd

/-- Take `c` off the list of the children of `p`. -/
def unlink (L : Links α) (c p : α) : Links α where
  children := Function.update L.children p ((L.children p).erase c)
  parent := L.parent
  parent_of_mem := by
    intro q d hd
    by_cases hq : q = p
    · rw [hq, Function.update_self] at hd
      rw [hq]
      exact L.parent_of_mem (List.mem_of_mem_erase hd)
    · rw [Function.update_of_ne hq] at hd
      exact L.parent_of_mem hd
  nodup := by
    intro q
    by_cases hq : q = p
    · rw [hq, Function.update_self]
      exact (L.nodup p).erase c
    · rw [Function.update_of_ne hq]
      exact L.nodup q
  wf := by
    refine Subrelation.wf (fun {d q} hd => ?_) L.wf
    by_cases hq : q = p
    · rw [hq, Function.update_self] at hd
      rw [hq]
      exact List.mem_of_mem_erase hd
    · rwa [Function.update_of_ne hq] at hd

/-- A linked node becomes the first child. -/
theorem link_children_self (hc : L.Fresh c) (hne : c ≠ p) :
    (L.link c p hc hne).children p = c :: L.children p := Function.update_self ..

theorem link_children_of_ne (hc : L.Fresh c) (hne : c ≠ p) (h : a ≠ p) :
    (L.link c p hc hne).children a = L.children a := Function.update_of_ne h ..

omit [DecidableEq α] in
/-- Where no node knows of another, every node is fresh. -/
theorem Fresh.empty : (Links.empty : Links α).Fresh c := ⟨rfl, fun _ => List.not_mem_nil⟩

/-- A node that is not linked stays fresh when another one is. -/
theorem Fresh.link (h : L.Fresh a) (hc : L.Fresh c) (hne : c ≠ p) (hac : a ≠ c) (hap : a ≠ p) :
    (L.link c p hc hne).Fresh a where
  children := (link_children_of_ne hc hne hap).trans h.children
  notMem q := by
    by_cases hq : q = p
    · rw [hq, link_children_self]
      exact List.not_mem_cons_of_ne_of_not_mem hac (h.notMem p)
    · rw [link_children_of_ne hc hne hq]
      exact h.notMem q

/-- Unlinking takes the node out of the children of its parent. -/
theorem unlink_children_self : (L.unlink c p).children p = (L.children p).erase c :=
  Function.update_self ..

theorem unlink_children_of_ne (h : a ≠ p) : (L.unlink c p).children a = L.children a :=
  Function.update_of_ne h ..

/-- Linking a fresh leaf adds this node below its new ancestors and no other. -/
theorem below_of_link (hc : L.Fresh c) (hne : c ≠ p) (h : (L.link c p hc hne).Below a b)
    (ha : a ≠ c) : L.Below a b ∨ (b = c ∧ L.Below a p) := by
  induction h with
  | refl => exact .inl .refl
  | @tail q d _ hd ih =>
    obtain hq | ⟨rfl, -⟩ := ih
    · by_cases hqp : q = p
      · rw [hqp, link_children_self, List.mem_cons] at hd
        obtain rfl | hd := hd
        · exact .inr ⟨rfl, hqp ▸ hq⟩
        · exact .inl (Relation.ReflTransGen.tail hq (hqp ▸ hd))
      · rw [link_children_of_ne hc hne hqp] at hd
        exact .inl (Relation.ReflTransGen.tail hq hd)
    · rw [link_children_of_ne hc hne hne, hc.children] at hd
      exact absurd hd List.not_mem_nil

/-- Unlinking a node puts nothing below another that was not below it before. -/
theorem below_of_unlink (h : (L.unlink c p).Below a b) : L.Below a b := by
  refine Relation.ReflTransGen.mono (fun q d hd => ?_) a b h
  by_cases hq : q = p
  · rw [hq, unlink_children_self] at hd
    rw [hq]
    exact List.mem_of_mem_erase hd
  · rwa [unlink_children_of_ne hq] at hd

end Link

/-! ## Weights -/

/-- Weights that do not grow towards the leaves add up to no more than the weight at the top. -/
theorem sum_le_of_antichain [DecidableEq α] {w : α → Nat}
    (hw : ∀ q, L.Below p q → ((L.children q).map w).sum ≤ w q) {A : Finset α}
    (hA : ∀ x ∈ A, L.Below p x) (hanti : ∀ x ∈ A, ∀ y ∈ A, L.Below x y → x = y) :
    ∑ x ∈ A, w x ≤ w p := by
  induction p using L.wf.induction generalizing A with
  | _ p ih =>
    by_cases hp : p ∈ A
    · have hsingle : A = {p} := by
        refine Finset.eq_singleton_iff_unique_mem.mpr ⟨hp, fun x hx => ?_⟩
        exact (hanti p hp x hx (hA x hx)).symm
      rw [hsingle, Finset.sum_singleton]
    · -- every element of `A` is below one of the children
      have hchild : ∀ x ∈ A, ∃ c ∈ L.children p, L.Below c x := by
        intro x hx
        obtain rfl | h := below_iff.mp (hA x hx)
        · exact absurd hx hp
        · exact h
      choose! child hmem hbelow using hchild
      have hpart : ∑ x ∈ A, w x =
          ∑ c ∈ (L.children p).toFinset, ∑ x ∈ A with child x = c, w x := by
        refine (Finset.sum_fiberwise_of_maps_to (fun x hx => ?_) w).symm
        exact List.mem_toFinset.mpr (hmem x hx)
      have hle : ∀ c ∈ (L.children p).toFinset, ∑ x ∈ A with child x = c, w x ≤ w c := by
        intro c hc
        rw [List.mem_toFinset] at hc
        refine ih c hc (fun q hq => hw q ((Below.of_mem hc).trans hq)) (fun x hx => ?_) ?_
        · obtain ⟨hxA, rfl⟩ := Finset.mem_filter.mp hx
          exact hbelow x hxA
        · intro x hx y hy
          exact hanti x (Finset.mem_filter.mp hx).1 y (Finset.mem_filter.mp hy).1
      calc ∑ x ∈ A, w x
          = ∑ c ∈ (L.children p).toFinset, ∑ x ∈ A with child x = c, w x := hpart
        _ ≤ ∑ c ∈ (L.children p).toFinset, w c := Finset.sum_le_sum hle
        _ = ((L.children p).map w).sum := List.sum_toFinset w (L.nodup p)
        _ ≤ w p := hw p .refl

end Links
