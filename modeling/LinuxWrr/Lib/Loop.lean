import Mathlib.Data.Nat.Basic

/-!
# Loops that need not end

The body of a loop either goes on with a new state or leaves with a result. `Loop.run` allows
it a number of turns; `Loop.Ends` says that some number is enough. Two rules settle whether a
loop ends: an invariant with a measure that goes down, and an invariant under which the body
never leaves.
-/

universe u v

namespace Loop

variable {σ : Type u} {α : Type v} {body : σ → σ ⊕ α} {s t : σ} {a b : α}

/-- Run the loop for at most `n` turns. -/
def run (body : σ → σ ⊕ α) : Nat → σ → Option α
  | 0, _ => none
  | n + 1, s =>
    match body s with
    | .inl t => run body n t
    | .inr a => some a

/-- The loop leaves with `a`. -/
def Ends (body : σ → σ ⊕ α) (s : σ) (a : α) : Prop := ∃ n, run body n s = some a

/-- A turn that goes on uses up one unit of fuel. -/
theorem run_go (h : body s = .inl t) (n : Nat) : run body (n + 1) s = run body n t := by
  rw [run, h]

/-- A turn that leaves the loop gives its result, however much fuel is left. -/
theorem run_leave (h : body s = .inr a) (n : Nat) : run body (n + 1) s = some a := by
  rw [run, h]

theorem Ends.leave (h : body s = .inr a) : Ends body s a := ⟨1, run_leave h 0⟩

/-- A loop ends as it does from the state after its first turn. -/
theorem Ends.go (h : body s = .inl t) (ht : Ends body t a) : Ends body s a := by
  obtain ⟨n, hn⟩ := ht
  exact ⟨n + 1, (run_go h n).trans hn⟩

/-- More turns do not change the result. -/
theorem run_mono {n m : Nat} (h : run body n s = some a) (hle : n ≤ m) :
    run body m s = some a := by
  induction n generalizing s m with
  | zero => cases h
  | succ n ih =>
    obtain ⟨m, rfl⟩ : ∃ k, m = k + 1 := ⟨m - 1, by omega⟩
    cases hb : body s with
    | inl t =>
      rw [run_go hb] at h ⊢
      exact ih h (by omega)
    | inr a' =>
      rw [run_leave hb] at h ⊢
      exact h

/-- A loop ends in one way only. -/
theorem Ends.unique (h : Ends body s a) (h' : Ends body s b) : a = b := by
  obtain ⟨n, hn⟩ := h
  obtain ⟨m, hm⟩ := h'
  have hn' := run_mono hn (Nat.le_max_left n m)
  have hm' := run_mono hm (Nat.le_max_right n m)
  exact Option.some.inj (hn'.symm.trans hm')

/-- A loop ends if every turn leaves or brings the measure down. -/
theorem ends_of_measure {I : σ → Prop} {Q : α → Prop} (μ : σ → Nat)
    (hbody : ∀ s, I s → (∃ a, body s = .inr a ∧ Q a) ∨ ∃ t, body s = .inl t ∧ I t ∧ μ t < μ s)
    (hs : I s) : ∃ a, Ends body s a ∧ Q a := by
  induction hn : μ s using Nat.strong_induction_on generalizing s with
  | _ n ih =>
    obtain ⟨a, hb, ha⟩ | ⟨t, hb, ht, hlt⟩ := hbody s hs
    · exact ⟨a, Ends.leave hb, ha⟩
    · obtain ⟨a, hends, ha⟩ := ih (μ t) (hn ▸ hlt) ht rfl
      exact ⟨a, hends.go hb, ha⟩

/-- A loop never ends if the body never leaves. -/
theorem not_ends {I : σ → Prop} (hbody : ∀ s, I s → ∃ t, body s = .inl t ∧ I t) (hs : I s) :
    ¬Ends body s a := by
  rintro ⟨n, hn⟩
  induction n generalizing s with
  | zero => cases hn
  | succ n ih =>
    obtain ⟨t, hb, ht⟩ := hbody s hs
    rw [run_go hb] at hn
    exact ih ht hn

end Loop
