import Mathlib.Logic.Relation

/-!
# Runs of guarded transition systems

A system is given by an executable effect `exec : σ → ι → σ` and a guard
`ok : σ → ι → Prop` saying when an operation may be issued. `Reach ok exec` is the
reachability relation of the guarded system; the guard is an argument, so that one
`exec` can be run under the caller discipline alone or under the discipline plus a
condition on every step, and `Reach.mono` relates the two. Runs that are written down
as a list are checked by evaluation (`Reach.of_runTest`).
-/

universe u v

variable {σ : Type u} {ι : Type v}

/-- One guarded step. -/
def Step (ok : σ → ι → Prop) (exec : σ → ι → σ) (s t : σ) : Prop :=
  ∃ op, ok s op ∧ exec s op = t

/-- `t` is reached from `s` by finitely many guarded steps. -/
def Reach (ok : σ → ι → Prop) (exec : σ → ι → σ) : σ → σ → Prop :=
  Relation.ReflTransGen (Step ok exec)

namespace Reach

variable {ok ok' : σ → ι → Prop} {exec : σ → ι → σ} {s t r : σ}

/-- From every state the empty run leads to the state itself. -/
theorem refl (s : σ) : Reach ok exec s s := Relation.ReflTransGen.refl

/-- A run may be continued by an operation that is allowed where it ends. -/
theorem tail (h : Reach ok exec s t) {op : ι} (hok : ok t op) :
    Reach ok exec s (exec t op) :=
  Relation.ReflTransGen.tail h ⟨op, hok, rfl⟩

theorem single {op : ι} (hok : ok s op) : Reach ok exec s (exec s op) :=
  (refl s).tail hok

/-- Runs may be put one after the other. -/
theorem trans (h : Reach ok exec s t) (h' : Reach ok exec t r) : Reach ok exec s r :=
  Relation.ReflTransGen.trans h h'

/-- A run under a stronger guard is a run under a weaker one. -/
theorem mono (hok : ∀ s op, ok s op → ok' s op) (h : Reach ok exec s t) :
    Reach ok' exec s t := by
  refine Relation.ReflTransGen.mono (fun a b => ?_) s t h
  rintro ⟨op, ha, hb⟩
  exact ⟨op, hok a op ha, hb⟩

/-- What holds initially and is preserved by every guarded step holds at the end of
every run. -/
theorem invariant {I : σ → Prop} (hstep : ∀ s op, I s → ok s op → I (exec s op))
    (h : Reach ok exec s t) (hs : I s) : I t := by
  induction h with
  | refl => exact hs
  | tail _ hbc ih =>
    obtain ⟨op, hop, rfl⟩ := hbc
    exact hstep _ op ih hop

/-- As `invariant`, with an invariant `J` of the run already known. -/
theorem invariant_of {I J : σ → Prop} (hJ : ∀ t, Reach ok exec s t → J t)
    (hstep : ∀ s op, J s → I s → ok s op → I (exec s op))
    (h : Reach ok exec s t) (hs : I s) : I t := by
  induction h with
  | refl => exact hs
  | tail hab hbc ih =>
    obtain ⟨op, hop, rfl⟩ := hbc
    exact hstep _ op (hJ _ hab) ih hop

/-- Issue the operations in turn, as long as each passes the test. -/
def runTest (test : σ → ι → Bool) (exec : σ → ι → σ) : σ → List ι → Bool
  | _, [] => true
  | s, op :: ops => test s op && runTest test exec (exec s op) ops

/-- A test that decides the guard, where an invariant holds, decides whole runs. -/
theorem of_runTest {test : σ → ι → Bool} {I : σ → Prop}
    (hstep : ∀ s op, I s → ok s op → I (exec s op))
    (htest : ∀ s op, I s → test s op = true → ok s op) (hs : I s) {ops : List ι}
    (hrun : runTest test exec s ops = true) : Reach ok exec s (ops.foldl exec s) := by
  induction ops generalizing s with
  | nil => exact refl s
  | cons op ops ih =>
    obtain ⟨hop, hrest⟩ := Bool.and_eq_true_iff.mp hrun
    have hok := htest s op hs hop
    exact (single hok).trans (ih (hstep s op hs hok) hrest)

end Reach
