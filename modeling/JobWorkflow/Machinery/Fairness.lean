import JobWorkflow.Machinery.Pointwise
import JobWorkflow.Machinery.Runs
import Mathlib.Order.Filter.AtTopBot.Basic

/-!
# Machinery/Fairness — runs without end

A `Path` is an infinite run of a step function; what holds of it from some time on is `∀ᶠ`, what
happens over and over is `∃ᶠ`.  Fairness is a hypothesis about what happens over and over.

* `Path.always` — an invariant holds at all times.
* `Path.lockstep` — a path of one machine is one of the other, if their steps are related.
* `settles` — a rank that never goes up stays where it is from some time on.
* `comes_to` — what is kept until something happens, and is over in the end.
-/

namespace Runs

universe u v w x

variable {σ : Type u} {α : Type v} {τ : Type w} {β : Type x}

/-- A run without end. -/
structure Path (step : σ → α → Option σ) where
  state : ℕ → σ
  act : ℕ → α
  next : ∀ n, step (state n) (act n) = some (state (n + 1))

/-- The states that the actions lead to; where one is not enabled, nothing happens. -/
def trace (step : σ → α → Option σ) (s : σ) (act : ℕ → α) : ℕ → σ
  | 0 => s
  | n + 1 => (step (trace step s act n) (act n)).getD (trace step s act n)

/-- The path of actions that are enabled, each in its turn. -/
def Path.follow (step : σ → α → Option σ) (s : σ) (act : ℕ → α)
    (h : ∀ n, (step (trace step s act n) (act n)).isSome) : Path step where
  state := trace step s act
  act := act
  next n := by
    rw [trace]
    exact (Option.some_get (h n)).symm.trans (congrArg some (Option.get_eq_getD _))

/-- **An invariant holds at all times.** -/
theorem Path.always {step : σ → α → Option σ} {ok : σ → α → Prop} {p : Path step} {I : σ → Prop}
    (h₀ : I (p.state 0)) (hI : ∀ s a s', I s → ok s a → step s a = some s' → I s')
    (hok : ∀ n, ok (p.state n) (p.act n)) (n : ℕ) : I (p.state n) := by
  induction n with
  | zero => exact h₀
  | succ n ih => exact hI _ _ _ ih (hok n) (p.next n)

/-- **A path of one machine is one of the other**, if their steps are related. -/
theorem Path.lockstep {step : σ → α → Option σ} {step' : τ → β → Option τ} {R : σ → τ → Prop}
    {typed : β → Prop} (f : β → α)
    (h : ∀ s t b, R s t → typed b → Option.Rel R (step s (f b)) (step' t b)) (p : Path step')
    (hp : ∀ n, typed (p.act n)) {s : σ} (hs : R s (p.state 0)) :
    ∃ q : Path step, q.state 0 = s ∧ (∀ n, q.act n = f (p.act n)) ∧
      ∀ n, R (q.state n) (p.state n) := by
  have hnext : ∀ n s, R s (p.state n) → ∃ s', step s (f (p.act n)) = some s' ∧
      R s' (p.state (n + 1)) := by
    intro n s hs
    rcases (h s _ _ hs (hp n)).eq_cases with ⟨-, hno⟩ | ⟨s', _, hs', ht, hR⟩
    · exact nomatch hno.symm.trans (p.next n)
    · obtain rfl := Option.some.inj (ht.symm.trans (p.next n))
      exact ⟨s', hs', hR⟩
  have hR : ∀ n, R (trace step s (f ∘ p.act) n) (p.state n) := by
    intro n
    induction n with
    | zero => exact hs
    | succ n ih =>
      obtain ⟨s', hs', hR⟩ := hnext n _ ih
      rw [trace, Function.comp_apply, hs']
      exact hR
  refine ⟨.follow step s (f ∘ p.act) fun n => ?_, rfl, fun _ => rfl, hR⟩
  obtain ⟨s', hs', -⟩ := hnext n _ (hR n)
  exact Option.isSome_iff_exists.mpr ⟨s', hs'⟩

/-- **A rank that never goes up settles.** -/
theorem settles {f : ℕ → ℕ} {n : ℕ} (h : ∀ k ≥ n, f (k + 1) ≤ f k) :
    ∃ m ≥ n, ∀ k ≥ m, f k = f m := by
  -- where it is least
  obtain ⟨m, hm, hleast⟩ := WellFounded.has_min (measure f).wf (Set.Ici n)
    ⟨n, Set.mem_Ici.mpr (Nat.le_refl n)⟩
  refine ⟨m, hm, fun k hk => Nat.le_antisymm ?_ (Nat.not_lt.mp (hleast k (Nat.le_trans hm hk)))⟩
  induction k, hk using Nat.le_induction with
  | base => exact Nat.le_refl _
  | succ k hk ih => exact Nat.le_trans (h k (Nat.le_trans hm hk)) ih

/-- **What is kept until `Q` happens, and is over in the end, comes to `Q`.** -/
theorem comes_to {P Q : ℕ → Prop} {n m : ℕ} (hnm : n ≤ m) (hn : P n)
    (keep : ∀ k, n ≤ k → k < m → P k → P (k + 1) ∨ Q k) (hm : ¬ P m) :
    ∃ k, n ≤ k ∧ k < m ∧ Q k := by
  by_contra hno
  have hP : ∀ k ≥ n, k ≤ m → P k := by
    intro k hk
    induction k, hk using Nat.le_induction with
    | base => exact fun _ => hn
    | succ k hk ih =>
      intro hkm
      refine (keep k hk hkm (ih (Nat.le_of_succ_le hkm))).resolve_right fun hQ => hno ?_
      exact ⟨k, hk, hkm, hQ⟩
  exact hm (hP m hnm (Nat.le_refl m))

end Runs
