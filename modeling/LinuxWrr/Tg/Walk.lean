import LinuxWrr.Lib.Forest
import LinuxWrr.Lib.Loop

/-!
# Walking the tree of task groups

`walk_tg_tree_from` goes through the groups below one group without a stack: it jumps into a loop
over the children of a group, and finds the way back by the pointers to the parents and the
siblings.

- `walkTgTreeFrom`: the body of the walk, between two of its labels.
- `walkTgTreeFrom_ends`: **the walk ends, and it has called `down` and `up` as a recursive walk
  calls them, until the first error**.
-/

universe u

namespace LinuxWrr.Tg

abbrev Gid := Nat

/-- `root_task_group`. -/
def rootTaskGroup : Gid := 0

theorem one_ne_root : 1 ≠ rootTaskGroup := by decide

theorem two_ne_one : 2 ≠ 1 := by decide

/-- Beside the root group alone, the number 1 is free. -/
theorem one_fresh : (Links.empty : Links Gid).Fresh 1 := .empty

/-- After a first group with number 1, the number 2 is free. -/
theorem two_fresh : (Links.empty.link 1 rootTaskGroup one_fresh one_ne_root).Fresh 2 :=
  Links.Fresh.empty.link one_fresh one_ne_root (by decide) (by decide)

/-- After a second group, which is in the first one, the number 3 is free. -/
theorem three_fresh :
    ((Links.empty.link 1 rootTaskGroup one_fresh one_ne_root).link 2 1 two_fresh two_ne_one).Fresh
      3 :=
  (Links.Fresh.empty.link one_fresh one_ne_root (by decide) (by decide)).link two_fresh two_ne_one
    (by decide) (by decide)

/-- `tg_visitor`: what it returns, and what it leaves in `*data`. -/
abbrev Visitor (σ : Type u) := Gid → σ → Int × σ

/-- Where a walk is. -/
inductive Pc where
  /-- At `down`. -/
  | down (parent : Gid)
  /-- In the loop over the children of `parent`, where the iterator stands at `child`. -/
  | next (parent : Gid) (child : Option Gid)
  deriving DecidableEq

/-- The sibling behind `child`, to which `continue` goes. -/
def after (siblings : List Gid) (child : Gid) : Option Gid :=
  (siblings.dropWhile fun g => decide (g ≠ child)).tail.head?

variable {σ : Type u}

def walkTgTreeFrom (tree : Links Gid) (start : Gid) (down up : Visitor σ) :
    Pc × σ → (Pc × σ) ⊕ (Int × σ)
  | (.down parent, data) =>
    let ret := down parent data
    if ret.1 ≠ 0 then .inr ret
    else .inl (.next parent (tree.children parent).head?, ret.2)
  | (.next _ (some child), data) => .inl (.down child, data)
  | (.next parent none, data) =>
    let ret := up parent data
    if ret.1 ≠ 0 ∨ parent = start then .inr ret
    else
      match tree.parent parent with
      | some q => .inl (.next q (after (tree.children q) parent), ret.2)
      | none => .inr ret

/-- `tg_nop`. -/
def tgNop : Visitor σ := fun _ data => (0, data)

/-- The two visitors as one. -/
def visitor (down up : Visitor σ) : Visit Gid → σ → Int × σ
  | .enter g => down g
  | .leave g => up g

variable {tree : Links Gid} {start p c : Gid} {down up : Visitor σ} {data : σ}

/-- After a child comes the next one of the list. -/
theorem after_append {l₁ l₂ : List Gid} (h : (l₁ ++ c :: l₂).Nodup) :
    after (l₁ ++ c :: l₂) c = l₂.head? := by
  have hpre : ∀ g ∈ l₁, decide (g ≠ c) = true := by
    rintro g hg
    refine decide_eq_true ?_
    rintro rfl
    exact (List.nodup_append.mp h).2.2 g hg g List.mem_cons_self rfl
  unfold after
  rw [List.dropWhile_append_of_pos hpre, List.dropWhile_cons_of_neg (by simp), List.tail_cons]

/-! ## One step of the walk -/

/-- On the way down an error ends the walk. -/
theorem walk_down_of_ne (h : (down p data).1 ≠ 0) :
    walkTgTreeFrom tree start down up (.down p, data) = .inr (down p data) := if_pos h

/-- On the way down the walk turns to the first child. -/
theorem walk_down_of_eq (h : (down p data).1 = 0) :
    walkTgTreeFrom tree start down up (.down p, data) =
      .inl (.next p (tree.children p).head?, (down p data).2) := if_neg (not_not.mpr h)

/-- On the way up an error ends the walk. -/
theorem walk_up_of_ne (h : (up p data).1 ≠ 0) :
    walkTgTreeFrom tree start down up (.next p none, data) = .inr (up p data) := if_pos (.inl h)

/-- When the start is left the walk is over. -/
theorem walk_up_start : walkTgTreeFrom tree start down up (.next start none, data) =
    .inr (up start data) := if_pos (.inr rfl)

/-- On the way up the walk turns to the next sibling. -/
theorem walk_up_of_eq (h : (up c data).1 = 0) (hne : c ≠ start) (hp : tree.parent c = some p) :
    walkTgTreeFrom tree start down up (.next c none, data) =
      .inl (.next p (after (tree.children p) c), (up c data).2) := by
  rw [walkTgTreeFrom, if_neg (not_or.mpr ⟨not_not.mpr h, hne⟩), hp]

/-! ## The walk through a subtree -/

/-- The walk gets from `x` to `k` with the visits `r`, or ends with their error. -/
def Covers (tree : Links Gid) (start : Gid) (down up : Visitor σ) (x : Pc × σ) (r : Int × σ)
    (k : Pc) : Prop :=
  (r.1 ≠ 0 → Loop.Ends (walkTgTreeFrom tree start down up) x r) ∧
    (r.1 = 0 → ∀ a, Loop.Ends (walkTgTreeFrom tree start down up) (k, r.2) a →
      Loop.Ends (walkTgTreeFrom tree start down up) x a)

/-- A step of the walk may be put before what it covers. -/
theorem Covers.go {x y : Pc × σ} {r : Int × σ} {k : Pc}
    (h : walkTgTreeFrom tree start down up x = .inl y) (hy : Covers tree start down up y r k) :
    Covers tree start down up x r k :=
  ⟨fun hr => (hy.1 hr).go h, fun hr a ha => (hy.2 hr a ha).go h⟩

/-- The empty sequence of visits is covered where the walk stands. -/
theorem Covers.nil {k : Pc} : Covers tree start down up (k, data)
    (Links.visitAll (visitor down up) [] data) k :=
  ⟨fun h => absurd rfl h, fun _ _ ha => ha⟩

/-- Two lists of visits are covered one after the other. -/
theorem Covers.append {x : Pc × σ} {vs ws : List (Visit Gid)} {j k : Pc}
    (hv : Covers tree start down up x (Links.visitAll (visitor down up) vs data) j)
    (hw : ∀ s, Covers tree start down up (j, s) (Links.visitAll (visitor down up) ws s) k) :
    Covers tree start down up x (Links.visitAll (visitor down up) (vs ++ ws) data) k := by
  by_cases h : (Links.visitAll (visitor down up) vs data).1 = 0
  · rw [Links.visitAll_append_of_eq h]
    refine ⟨fun hr => ?_, fun hr a ha => ?_⟩
    · exact hv.2 h _ ((hw _).1 hr)
    · exact hv.2 h a ((hw _).2 hr a ha)
  · rw [Links.visitAll_append_of_ne h]
    exact ⟨hv.1, fun h' => absurd h' h⟩

/-- A visit and what follows it are covered together. -/
theorem Covers.cons {x : Pc × σ} {v : Visit Gid} {ws : List (Visit Gid)} {j k : Pc}
    (hv : Covers tree start down up x (visitor down up v data) j)
    (hw : ∀ s, Covers tree start down up (j, s) (Links.visitAll (visitor down up) ws s) k) :
    Covers tree start down up x (Links.visitAll (visitor down up) (v :: ws) data) k := by
  rw [← Links.visitAll_singleton (f := visitor down up)] at hv
  exact hv.append hw

/-- The step down covers the visit that enters. -/
theorem covers_down : Covers tree start down up (.down p, data) (visitor down up (.enter p) data)
    (.next p (tree.children p).head?) :=
  ⟨fun h => Loop.Ends.leave (walk_down_of_ne h), fun h _ ha => ha.go (walk_down_of_eq h)⟩

/-- The step up covers the visit that leaves. -/
theorem covers_up (hne : c ≠ start) (hp : tree.parent c = some p) :
    Covers tree start down up (.next c none, data) (visitor down up (.leave c) data)
      (.next p (after (tree.children p) c)) :=
  ⟨fun h => Loop.Ends.leave (walk_up_of_ne h), fun h _ ha => ha.go (walk_up_of_eq h hne hp)⟩

/-- The loop over the children, from some child on. -/
theorem covers_children (hp : tree.Below start p)
    (hchild : ∀ c ∈ tree.children p, ∀ s, Covers tree start down up (.down c, s)
      (Links.visitAll (visitor down up) (tree.inner c) s) (.next c none))
    {l₁ l₂ : List Gid} (hl : tree.children p = l₁ ++ l₂) (data : σ) :
    Covers tree start down up (.next p l₂.head?, data)
      (Links.visitAll (visitor down up) (l₂.flatMap tree.visits) data) (.next p none) := by
  induction l₂ generalizing l₁ data with
  | nil => exact .nil
  | cons c l₂ ih =>
    have hc : c ∈ tree.children p := by
      rw [hl]
      exact List.mem_append_right l₁ List.mem_cons_self
    have hnodup := tree.nodup p
    rw [hl] at hnodup
    have hnext : after (tree.children p) c = l₂.head? := by
      rw [hl]
      exact after_append hnodup
    rw [List.flatMap_cons, Links.visits_eq, List.append_assoc]
    refine Covers.go (y := (.down c, data)) rfl ?_
    refine (hchild c hc data).append fun s => ?_
    -- back at the parent, the loop goes on behind `c`
    refine (covers_up (Links.ne_of_mem_of_below hp hc) (tree.parent_of_mem hc)).cons fun s => ?_
    rw [hnext]
    have hrest : tree.children p = (l₁ ++ [c]) ++ l₂ := by
      rw [hl, List.append_assoc, List.singleton_append]
    exact ih hrest s

/-- Below `start`, the walk is recursive. -/
theorem covers_inner (hp : tree.Below start p) (data : σ) :
    Covers tree start down up (.down p, data)
      (Links.visitAll (visitor down up) (tree.inner p) data) (.next p none) := by
  induction p using tree.wf.induction generalizing data with
  | _ p ih =>
    unfold Links.inner
    refine covers_down.cons fun s => ?_
    refine covers_children hp (fun c hc s => ?_) (List.nil_append _).symm s
    exact ih c hc (hp.trans (.of_mem hc)) s

/-- Back at `start`, the walk ends. -/
theorem Covers.ends (h : Covers tree start down up (.down start, data)
    (Links.visitAll (visitor down up) (tree.inner start) data) (.next start none)) :
    Loop.Ends (walkTgTreeFrom tree start down up) (.down start, data)
      (Links.visitAll (visitor down up) (tree.visits start) data) := by
  obtain ⟨herr, hgo⟩ := h
  rw [Links.visits_eq]
  by_cases h : (Links.visitAll (visitor down up) (tree.inner start) data).1 = 0
  · rw [Links.visitAll_append_of_eq h, Links.visitAll_singleton]
    exact hgo h _ (Loop.Ends.leave walk_up_start)
  · rw [Links.visitAll_append_of_ne h]
    exact herr h

/-- `walk_tg_tree_from` is a depth-first walk. -/
theorem walkTgTreeFrom_ends (tree : Links Gid) (start : Gid) (down up : Visitor σ) (data : σ) :
    Loop.Ends (walkTgTreeFrom tree start down up) (.down start, data)
      (Links.visitAll (visitor down up) (tree.visits start) data) :=
  (covers_inner .refl data).ends

end LinuxWrr.Tg
