import Mathlib.Algebra.GroupWithZero.Nat
import Mathlib.Data.List.Iterate
import Mathlib.Logic.Function.Basic
import Mathlib.Logic.Function.Iterate

/-!
# Weighted round robin

A ring of clients is served one unit at a time: the first client is served until its turn
is over, then goes to the end of the ring with a new turn. This file says what a whole
round of such a service is, and how a machine that keeps its ring in some other form
inherits that.

- `outputs`: what the first `n` steps of an iterated function put out, and
  `Simulates.outputs_eq`: related machines put out the same.
- `RoundRobin`, `RoundRobin.serve`: the ring and one unit of service.
- `RoundRobin.serve_turn`: a turn serves the first client and moves it to the end.
- `RoundRobin.serve_rounds`: **after `k` rounds every client was served exactly `k` times its
  quantum, in ring order, and the ring is back where it started.**
-/

universe u v w

/-! ## Outputs and simulation -/

section Outputs

variable {σ : Type u} {τ : Type v} {β : Type w} {f : σ → σ} {g : τ → τ} {out : σ → β}
  {out' : τ → β}

/-- What the states before the first `n` steps of `f` put out. -/
def outputs (f : σ → σ) (out : σ → β) (n : Nat) (s : σ) : List β := (List.iterate f s n).map out

/-- The first output, and those of the rest. -/
theorem outputs_succ (n : Nat) (s : σ) : outputs f out (n + 1) s = out s :: outputs f out n (f s) := rfl

/-- The outputs of a run that is cut in two. -/
theorem outputs_add (m n : Nat) (s : σ) :
    outputs f out (m + n) s = outputs f out m s ++ outputs f out n (f^[m] s) := by
  unfold outputs
  rw [List.iterate_add, List.map_append]

/-- Every step of `f` is matched by a step of `g`, and the outputs agree. -/
structure Simulates (R : σ → τ → Prop) (f : σ → σ) (g : τ → τ) (out : σ → β) (out' : τ → β) :
    Prop where
  step : ∀ s t, R s t → R (f s) (g t)
  out : ∀ s t, R s t → out s = out' t

variable {R : σ → τ → Prop} {s : σ} {t : τ}

/-- A simulation relates the states after any number of steps. -/
theorem Simulates.iterate (h : Simulates R f g out out') (n : Nat) (hst : R s t) :
    R (f^[n] s) (g^[n] t) := by
  induction n generalizing s t with
  | zero => exact hst
  | succ n ih => exact ih (h.step s t hst)

/-- Systems that simulate each other show the same outputs. -/
theorem Simulates.outputs_eq (h : Simulates R f g out out') (n : Nat) (hst : R s t) :
    outputs f out n s = outputs g out' n t := by
  induction n generalizing s t with
  | zero => rfl
  | succ n ih => rw [outputs_succ, outputs_succ, h.out s t hst, ih (h.step s t hst)]

end Outputs

/-! ## The ring -/

/-- The clients in the order in which they wait, the served one first, and what is left of
each one's turn. -/
structure RoundRobin (α : Type u) where
  queue : List α
  left : α → Nat

namespace RoundRobin

variable {α : Type u} [DecidableEq α] {quantum left : α → Nat} {x : α} {xs ys : List α}

/-- One unit of service for the first client. -/
def serve (quantum : α → Nat) (r : RoundRobin α) : RoundRobin α :=
  match r.queue with
  | [] => r
  | x :: xs =>
    if r.left x - 1 = 0 then
      { queue := xs ++ [x], left := Function.update r.left x (quantum x) }
    else { r with left := Function.update r.left x (r.left x - 1) }

/-- The client being served. -/
def served (r : RoundRobin α) : Option α := r.queue.head?

theorem serve_cons (quantum : α → Nat) (xs : List α) (left : α → Nat) (x : α) :
    serve quantum ⟨x :: xs, left⟩ =
      if left x - 1 = 0 then ⟨xs ++ [x], Function.update left x (quantum x)⟩
      else ⟨x :: xs, Function.update left x (left x - 1)⟩ := rfl

/-- The rest of a turn: the client is served as often as it has units left, then moves to
the end of the ring. -/
theorem serve_rest {n : Nat} (hn : left x = n + 1) :
    (serve quantum)^[n + 1] ⟨x :: xs, left⟩ =
        ⟨xs ++ [x], Function.update left x (quantum x)⟩ ∧
      outputs (serve quantum) served (n + 1) ⟨x :: xs, left⟩ =
        List.replicate (n + 1) (some x) := by
  induction n generalizing left with
  | zero =>
    have hserve : serve quantum ⟨x :: xs, left⟩ =
        ⟨xs ++ [x], Function.update left x (quantum x)⟩ := by
      rw [serve_cons, if_pos (by omega)]
    exact ⟨hserve, rfl⟩
  | succ n ih =>
    have hserve : serve quantum ⟨x :: xs, left⟩ =
        ⟨x :: xs, Function.update left x (left x - 1)⟩ := by
      rw [serve_cons, if_neg (by omega)]
    have hleft : Function.update left x (left x - 1) x = n + 1 := by
      rw [Function.update_self]
      omega
    obtain ⟨hstate, houtputs⟩ := ih hleft
    constructor
    · rw [Function.iterate_succ_apply, hserve, hstate, Function.update_idem]
    · rw [outputs_succ, hserve, houtputs]
      rfl

/-- A whole turn of the first client puts it at the end of the queue. -/
theorem serve_turn (hpos : 0 < quantum x) (hfull : left x = quantum x) :
    (serve quantum)^[quantum x] ⟨x :: xs, left⟩ = ⟨xs ++ [x], left⟩ ∧
      outputs (serve quantum) served (quantum x) ⟨x :: xs, left⟩ =
        List.replicate (quantum x) (some x) := by
  obtain ⟨n, hn⟩ : ∃ n, quantum x = n + 1 := ⟨quantum x - 1, by omega⟩
  obtain ⟨hstate, houtputs⟩ : (serve quantum)^[n + 1] ⟨x :: xs, left⟩ = _ ∧
      outputs (serve quantum) served (n + 1) ⟨x :: xs, left⟩ = _ := serve_rest (hfull.trans hn)
  rw [← hn] at hstate houtputs
  refine ⟨?_, houtputs⟩
  rw [hstate, ← hfull, Function.update_eq_self]

/-- The turns of the clients `xs`, one after another. -/
def turns (quantum : α → Nat) (xs : List α) : List α :=
  xs.flatMap fun x => List.replicate (quantum x) x

/-- How many units a round over the clients `xs` takes. -/
def roundLength (quantum : α → Nat) (xs : List α) : Nat := (xs.map quantum).sum

/-- After the turns of the first clients these are at the end of the queue. -/
theorem serve_turns (hpos : ∀ x ∈ xs, 0 < quantum x) (hfull : ∀ x ∈ xs, left x = quantum x) :
    (serve quantum)^[roundLength quantum xs] ⟨xs ++ ys, left⟩ = ⟨ys ++ xs, left⟩ ∧
      outputs (serve quantum) served (roundLength quantum xs) ⟨xs ++ ys, left⟩ =
        (turns quantum xs).map some := by
  induction xs generalizing ys with
  | nil =>
    refine ⟨?_, rfl⟩
    show (⟨ys, left⟩ : RoundRobin α) = ⟨ys ++ [], left⟩
    rw [List.append_nil]
  | cons x xs ih =>
    have hlength : roundLength quantum (x :: xs) = quantum x + roundLength quantum xs := rfl
    obtain ⟨hstate, houtputs⟩ : (serve quantum)^[quantum x] ⟨x :: (xs ++ ys), left⟩ = _ ∧
        outputs (serve quantum) served (quantum x) ⟨x :: (xs ++ ys), left⟩ = _ :=
      serve_turn (hpos x List.mem_cons_self) (hfull x List.mem_cons_self)
    -- `x` has gone to the end of the ring
    have hrest : (serve quantum)^[roundLength quantum xs] ⟨xs ++ (ys ++ [x]), left⟩ = _ ∧
        outputs (serve quantum) served (roundLength quantum xs) ⟨xs ++ (ys ++ [x]), left⟩ = _ :=
      ih (fun y hy => hpos y (List.mem_cons_of_mem _ hy))
        fun y hy => hfull y (List.mem_cons_of_mem _ hy)
    rw [← List.append_assoc] at hrest
    rw [hlength, List.cons_append]
    constructor
    · rw [Nat.add_comm, Function.iterate_add_apply, hstate, hrest.1, List.append_assoc]
      rfl
    · rw [outputs_add, houtputs, hstate, hrest.2, ← List.map_replicate, ← List.map_append]
      rfl

/-- **Rounds**: after `k` rounds the ring is back where it started, and every client had
`k` turns of its quantum, in ring order. -/
theorem serve_rounds (hpos : ∀ x ∈ xs, 0 < quantum x) (hfull : ∀ x ∈ xs, left x = quantum x)
    (k : Nat) :
    (serve quantum)^[k * roundLength quantum xs] ⟨xs, left⟩ = ⟨xs, left⟩ ∧
      outputs (serve quantum) served (k * roundLength quantum xs) ⟨xs, left⟩ =
        (List.replicate k (turns quantum xs)).flatten.map some := by
  have hround : (serve quantum)^[roundLength quantum xs] ⟨xs ++ [], left⟩ = _ ∧
      outputs (serve quantum) served (roundLength quantum xs) ⟨xs ++ [], left⟩ = _ :=
    serve_turns hpos hfull
  rw [List.append_nil, List.nil_append] at hround
  induction k with
  | zero =>
    rw [Nat.zero_mul]
    exact ⟨rfl, rfl⟩
  | succ k ih =>
    rw [Nat.succ_mul, Nat.add_comm]
    constructor
    · rw [Nat.add_comm, Function.iterate_add_apply, hround.1, ih.1]
    · rw [outputs_add, hround.1, hround.2, ih.2, List.replicate_succ, List.flatten_cons,
        List.map_append]

/-- A client occurs in a round as often as its quantum says. -/
theorem count_turns (hnd : xs.Nodup) (hx : x ∈ xs) : (turns quantum xs).count x = quantum x := by
  induction xs with
  | nil => cases hx
  | cons y ys ih =>
    obtain ⟨hy, hnd'⟩ := List.nodup_cons.mp hnd
    have hcount : (turns quantum (y :: ys)).count x =
        (List.replicate (quantum y) y).count x + (turns quantum ys).count x :=
      List.count_append
    rw [hcount]
    by_cases hxy : x = y
    · subst hxy
      have hnone : x ∉ turns quantum ys := by
        intro hmem
        obtain ⟨z, hz, hxz⟩ := List.mem_flatMap.mp hmem
        rw [List.eq_of_mem_replicate hxz] at hy
        exact hy hz
      rw [List.count_replicate_self, List.count_eq_zero_of_not_mem hnone, Nat.add_zero]
    · have hne : (List.replicate (quantum y) y).count x = 0 :=
        List.count_eq_zero_of_not_mem fun hmem => hxy (List.eq_of_mem_replicate hmem)
      rw [hne, Nat.zero_add]
      exact ih hnd' (List.mem_of_ne_of_mem hxy hx)

/-- In `k` rounds every client is served `k` times its quantum. -/
theorem count_rounds (hnd : xs.Nodup) (hx : x ∈ xs) (k : Nat) :
    (List.replicate k (turns quantum xs)).flatten.count x = k * quantum x := by
  induction k with
  | zero => rw [Nat.zero_mul]; rfl
  | succ k ih =>
    rw [List.replicate_succ, List.flatten_cons, List.count_append, ih, count_turns hnd hx,
      Nat.succ_mul, Nat.add_comm]

/-! ## What every unit of service keeps -/

/-- The ring `r` is a rearrangement of the clients `clients`, each with a part of its
quantum left. -/
structure Fair (quantum : α → Nat) (clients : List α) (r : RoundRobin α) : Prop where
  perm : r.queue.Perm clients
  pos : ∀ x ∈ clients, 0 < r.left x
  le : ∀ x ∈ clients, r.left x ≤ quantum x

/-- Reordering the clients and renewing one budget within its quantum keeps the state fair. -/
theorem Fair.update {clients queue queue' : List α} {v : Nat}
    (h : Fair quantum clients ⟨queue, left⟩) (hperm : queue'.Perm clients) (hpos : 0 < v)
    (hle : v ≤ quantum x) : Fair quantum clients ⟨queue', Function.update left x v⟩ := by
  refine ⟨hperm, fun y hy => ?_, fun y hy => ?_⟩
  · show 0 < Function.update left x v y
    by_cases hyx : y = x
    · rwa [hyx, Function.update_self]
    · rw [Function.update_of_ne hyx]
      exact h.pos y hy
  · show Function.update left x v y ≤ quantum y
    by_cases hyx : y = x
    · rwa [hyx, Function.update_self]
    · rw [Function.update_of_ne hyx]
      exact h.le y hy

theorem Fair.serve {clients : List α} {r : RoundRobin α} (h : Fair quantum clients r) :
    Fair quantum clients (r.serve quantum) := by
  obtain ⟨queue, left⟩ := r
  cases queue with
  | nil => exact h
  | cons x xs =>
    have hx : x ∈ clients := h.perm.subset List.mem_cons_self
    have hpos : 0 < left x := h.pos x hx
    have hle : left x ≤ quantum x := h.le x hx
    rw [serve_cons]
    by_cases hlast : left x - 1 = 0
    · -- a new turn, at the end of the ring
      rw [if_pos hlast]
      exact h.update ((List.perm_append_singleton x xs).trans h.perm) (by omega) (Nat.le_refl _)
    · rw [if_neg hlast]
      exact h.update h.perm (by omega) (by omega)

end RoundRobin
