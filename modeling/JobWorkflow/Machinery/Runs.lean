import Mathlib.Data.Nat.Notation
import Mathlib.Data.Option.Basic

/-!
# Machinery/Runs — runs of a step function

A machine is a partial step function `step : σ → α → Option σ`; a run takes a list of actions in
order and stops being a run at an action that is not enabled.  Four rules carry the results about
runs:

* `invariant` — what each step preserves, each run preserves; the steps may be restricted to those
  that meet a condition (`Along`).
* `count_le_potential` — a run takes at most as many marked steps as its potential grows.
* `Reachable.simulate` — a map under which each step is a step of another machine, or none at all,
  carries reachable states to reachable states.
* `lockstep` — two machines whose steps are related take the same runs to related states.
-/

namespace Runs

universe u v w x

variable {σ : Type u} {α : Type v}

/-- The state after the actions, if each is enabled in its turn. -/
def run (step : σ → α → Option σ) : σ → List α → Option σ
  | s, [] => some s
  | s, a :: as => (step s a).bind fun s' => run step s' as

/-- Every step the run takes meets the condition. -/
def Along (step : σ → α → Option σ) (ok : σ → α → Prop) : σ → List α → Prop
  | _, [] => True
  | s, a :: as => ok s a ∧ ∀ s' ∈ step s a, Along step ok s' as

/-- Some run leads from `s₀` to `s`. -/
def Reachable (step : σ → α → Option σ) (s₀ s : σ) : Prop := ∃ as, run step s₀ as = some s

/-- The number of steps of the run that `p` marks. -/
def count (step : σ → α → Option σ) (p : σ → σ → Bool) : σ → List α → ℕ
  | _, [] => 0
  | s, a :: as =>
    match step s a with
    | none => 0
    | some s' => (if p s s' then 1 else 0) + count step p s' as

section Decidable

variable (step : σ → α → Option σ) (ok : σ → α → Prop) [∀ s a, Decidable (ok s a)]

instance decidableAlong : ∀ s as, Decidable (Along step ok s as)
  | _, [] => inferInstanceAs (Decidable True)
  | s, a :: as =>
    have : DecidablePred fun s' => Along step ok s' as := fun s' => decidableAlong s' as
    inferInstanceAs (Decidable (ok s a ∧ ∀ s' ∈ step s a, Along step ok s' as))

end Decidable

variable {step : σ → α → Option σ} {ok : σ → α → Prop} {s₀ s s' : σ}

/-! ## Reachable states -/

theorem Reachable.refl : Reachable step s₀ s₀ := ⟨[], rfl⟩

theorem run_append (as bs : List α) (s : σ) :
    run step s (as ++ bs) = (run step s as).bind fun s' => run step s' bs := by
  induction as generalizing s with
  | nil => rfl
  | cons a as ih => simp only [List.cons_append, run, Option.bind_assoc, ih]

theorem Reachable.trans {s₁ s₂ : σ} (h₁ : Reachable step s₀ s₁) (h₂ : Reachable step s₁ s₂) :
    Reachable step s₀ s₂ := by
  obtain ⟨as, has⟩ := h₁
  obtain ⟨bs, hbs⟩ := h₂
  exact ⟨as ++ bs, by rw [run_append, has]; exact hbs⟩

theorem Reachable.snoc {a : α} (h : Reachable step s₀ s) (ha : step s a = some s') :
    Reachable step s₀ s' :=
  h.trans ⟨[a], by rw [run, ha]; rfl⟩

theorem along_true (as : List α) (s : σ) : Along step (fun _ _ => True) s as := by
  induction as generalizing s with
  | nil => trivial
  | cons a as ih => exact ⟨trivial, fun s' _ => ih s'⟩

theorem along_cons {a : α} {as : List α} (h : ok s a) (hs : step s a = some s')
    (hrest : Along step ok s' as) : Along step ok s (a :: as) :=
  ⟨h, fun _ ht => Option.some.inj (hs.symm.trans ht) ▸ hrest⟩

theorem Along.imp {ok' : σ → α → Prop} (h : ∀ s a, ok s a → ok' s a) {as : List α} {s : σ}
    (hs : Along step ok s as) : Along step ok' s as := by
  induction as generalizing s with
  | nil => trivial
  | cons a as ih => exact ⟨h s a hs.1, fun s' ha => ih (hs.2 s' ha)⟩

theorem Along.and {ok' : σ → α → Prop} {as : List α} {s : σ} (hs : Along step ok s as)
    (hs' : Along step ok' s as) : Along step (fun s a => ok s a ∧ ok' s a) s as := by
  induction as generalizing s with
  | nil => trivial
  | cons a as ih => exact ⟨⟨hs.1, hs'.1⟩, fun s₁ h₁ => ih (hs.2 s₁ h₁) (hs'.2 s₁ h₁)⟩

theorem along_append {as bs : List α} {s s' : σ} (has : Along step ok s as)
    (hrun : run step s as = some s') (hbs : Along step ok s' bs) : Along step ok s (as ++ bs) := by
  induction as generalizing s with
  | nil => exact Option.some.inj hrun ▸ hbs
  | cons a as ih =>
    obtain ⟨s₁, h₁, hrest⟩ := Option.bind_eq_some_iff.mp hrun
    exact along_cons has.1 h₁ (ih (has.2 s₁ h₁) hrest)

/-- A condition on the actions alone. -/
theorem along_of_forall {p : α → Prop} (as : List α) (s : σ) (h : ∀ a ∈ as, p a) :
    Along step (fun _ a => p a) s as := by
  induction as generalizing s with
  | nil => trivial
  | cons a as ih =>
    rw [List.forall_mem_cons] at h
    exact ⟨h.1, fun s' _ => ih s' h.2⟩

/-! ## Invariants -/

/-- **What each step preserves, each run preserves.** -/
theorem invariant {I : σ → Prop} (hI : ∀ s a s', I s → ok s a → step s a = some s' → I s')
    (as : List α) (s : σ) (hs : I s) (hok : Along step ok s as)
    (hrun : run step s as = some s') : I s' := by
  induction as generalizing s with
  | nil => exact Option.some.inj hrun ▸ hs
  | cons a as ih =>
    obtain ⟨s₁, h₁, hrest⟩ := Option.bind_eq_some_iff.mp hrun
    exact ih s₁ (hI s a s₁ hs hok.1 h₁) (hok.2 s₁ h₁) hrest

/-- The same, over all reachable states. -/
theorem Reachable.invariant {I : σ → Prop} (h₀ : I s₀)
    (hI : ∀ s a s', I s → step s a = some s' → I s') (h : Reachable step s₀ s) : I s := by
  obtain ⟨as, hrun⟩ := h
  exact Runs.invariant (fun s a s' hs _ => hI s a s' hs) as s₀ h₀ (along_true as s₀) hrun

/-- Two conditions that agree at the states of an invariant, in a run that meets a third. -/
theorem along_congr_of {I : σ → Prop} {F ok' : σ → α → Prop}
    (hI : ∀ s a s', I s → F s a → step s a = some s' → I s')
    (h : ∀ s a, I s → F s a → (ok s a ↔ ok' s a)) (as : List α) (s : σ) (hs : I s)
    (hfix : Along step F s as) : Along step ok s as ↔ Along step ok' s as := by
  induction as generalizing s with
  | nil => rfl
  | cons a as ih =>
    refine and_congr (h s a hs hfix.1) (forall₂_congr fun s' hs' => ?_)
    exact ih s' (hI s a s' hs hfix.1 hs') (hfix.2 s' hs')

/-- Two conditions that agree at the states of an invariant. -/
theorem along_congr {I : σ → Prop} {ok' : σ → α → Prop}
    (hI : ∀ s a s', I s → step s a = some s' → I s') (h : ∀ s a, I s → (ok s a ↔ ok' s a))
    (as : List α) (s : σ) (hs : I s) : Along step ok s as ↔ Along step ok' s as :=
  along_congr_of (fun s a s' hs _ => hI s a s' hs) (fun s a hs _ => h s a hs) as s hs
    (along_true as s)

/-- **A property of every state a run passes through**, if each step of the kind `F` keeps it
exactly when the step meets the condition. -/
theorem prefixes_iff_along_of {I P : σ → Prop} {F : α → Prop}
    (hI : ∀ s a s', I s → F a → step s a = some s' → I s')
    (hP : ∀ s a s', I s → F a → P s → step s a = some s' → (P s' ↔ ok s a))
    (hstuck : ∀ s a, step s a = none → ok s a) (as : List α) (has : ∀ a ∈ as, F a) (s : σ)
    (hi : I s) (hs : P s) :
    (∀ bs, bs <+: as → ∀ s' ∈ run step s bs, P s') ↔ Along step ok s as := by
  induction as generalizing s with
  | nil =>
    refine iff_of_true (fun bs hbs s' hs' => ?_) trivial
    rw [List.prefix_nil.mp hbs] at hs'
    exact Option.some.inj hs' ▸ hs
  | cons a as ih =>
    obtain ⟨hF, hrestF⟩ := List.forall_mem_cons.mp has
    constructor
    · intro h
      cases ha : step s a with
      | none => exact ⟨hstuck s a ha, fun s' hs' => nomatch ha.symm.trans hs'⟩
      | some s₁ =>
        have h₁ : P s₁ := h [a] (List.prefix_append [a] as) s₁ (by rw [run, ha]; rfl)
        refine along_cons ((hP s a s₁ hi hF hs ha).mp h₁) ha
          ((ih hrestF s₁ (hI s a s₁ hi hF ha) h₁).mp ?_)
        intro bs hbs s' hs'
        exact h (a :: bs) (List.prefix_cons_inj a |>.mpr hbs) s' (by rw [run, ha]; exact hs')
    · rintro ⟨hok, hrest⟩ bs hbs s' hs'
      cases bs with
      | nil => exact Option.some.inj hs' ▸ hs
      | cons b bs =>
        obtain ⟨rfl, hprefix⟩ := List.cons_prefix_cons.mp hbs
        obtain ⟨s₁, h₁, hs'⟩ := Option.bind_eq_some_iff.mp hs'
        have hs₁ : P s₁ := (hP s b s₁ hi hF hs h₁).mpr hok
        exact (ih hrestF s₁ (hI s b s₁ hi hF h₁) hs₁).mpr (hrest s₁ h₁) bs hprefix s' hs'

/-- The same, for steps of every kind. -/
theorem prefixes_iff_along {I P : σ → Prop} (hI : ∀ s a s', I s → step s a = some s' → I s')
    (hP : ∀ s a s', I s → P s → step s a = some s' → (P s' ↔ ok s a))
    (hstuck : ∀ s a, step s a = none → ok s a) (as : List α) (s : σ) (hi : I s) (hs : P s) :
    (∀ bs, bs <+: as → ∀ s' ∈ run step s bs, P s') ↔ Along step ok s as :=
  prefixes_iff_along_of (F := fun _ => True) (fun s a s' hs _ => hI s a s' hs)
    (fun s a s' hi _ => hP s a s' hi) hstuck as (fun _ _ => trivial) s hi hs

/-- **Marked steps are paid for by the potential.** -/
theorem count_le_potential {I : σ → Prop} {p : σ → σ → Bool} (φ : σ → ℕ)
    (hI : ∀ s a s', I s → ok s a → step s a = some s' → I s')
    (hφ : ∀ s a s', I s → ok s a → step s a = some s' → φ s + (if p s s' then 1 else 0) ≤ φ s')
    (as : List α) (s : σ) (hs : I s) (hok : Along step ok s as)
    (hrun : run step s as = some s') : φ s + count step p s as ≤ φ s' := by
  induction as generalizing s with
  | nil => exact Option.some.inj hrun ▸ Nat.le_refl _
  | cons a as ih =>
    obtain ⟨s₁, h₁, hrest⟩ := Option.bind_eq_some_iff.mp hrun
    have hnow := hφ s a s₁ hs hok.1 h₁
    have hlater := ih s₁ (hI s a s₁ hs hok.1 h₁) (hok.2 s₁ h₁) hrest
    rw [count, h₁]
    change φ s + ((if p s s₁ then 1 else 0) + count step p s₁ as) ≤ φ s'
    omega

/-! ## Simulation -/

variable {τ : Type w} {β : Type x} {step' : τ → β → Option τ}

/-- **Simulation up to stuttering.**  The invariant `I` may be used to show that a step is one of
the simulating machine, and is established on the way. -/
theorem Reachable.simulate {I : σ → Prop} (f : σ → τ) (h₀ : I s₀)
    (hI : ∀ s a s', I s → step s a = some s' → I s')
    (hsim : ∀ s a s', I s → step s a = some s' →
      f s' = f s ∨ ∃ b, step' (f s) b = some (f s'))
    (h : Reachable step s₀ s) : Reachable step' (f s₀) (f s) := by
  refine (h.invariant (I := fun s => I s ∧ Reachable step' (f s₀) (f s))
    ⟨h₀, Reachable.refl⟩ fun s a s' hs ha => ⟨hI s a s' hs.1 ha, ?_⟩).2
  rcases hsim s a s' hs.1 ha with heq | ⟨b, hb⟩
  · rw [heq]
    exact hs.2
  · exact hs.2.snoc hb

/-! ## Machines in lockstep -/

section Lockstep

variable {R : σ → τ → Prop} (f : β → α) {typed : β → Prop}
  (h : ∀ s t b, R s t → typed b → Option.Rel R (step s (f b)) (step' t b))

include h

/-- **Two machines whose steps are related stay related**: one takes a run exactly when the other
does, and ends in a related state. -/
theorem lockstep (bs : List β) (hbs : ∀ b ∈ bs, typed b) {s : σ} {t : τ} (hst : R s t) :
    Option.Rel R (run step s (bs.map f)) (run step' t bs) := by
  induction bs generalizing s t with
  | nil => exact .some hst
  | cons b bs ih =>
    rw [List.forall_mem_cons] at hbs
    rw [List.map_cons, run, run]
    have hstep := h s t b hst hbs.1
    generalize step s (f b) = x at hstep
    generalize step' t b = y at hstep
    cases hstep with
    | none => exact .none
    | some hr => exact ih hbs.2 hr

/-- Conditions that agree at related states agree along related runs. -/
theorem along_iff_of_lockstep {ok' : τ → β → Prop}
    (hok : ∀ s t b, R s t → typed b → (ok s (f b) ↔ ok' t b)) (bs : List β)
    (hbs : ∀ b ∈ bs, typed b) {s : σ} {t : τ} (hst : R s t) :
    Along step ok s (bs.map f) ↔ Along step' ok' t bs := by
  induction bs generalizing s t with
  | nil => rfl
  | cons b bs ih =>
    rw [List.forall_mem_cons] at hbs
    rw [List.map_cons, Along, Along]
    refine and_congr (hok s t b hst hbs.1) ?_
    have hstep := h s t b hst hbs.1
    generalize step s (f b) = x at hstep
    generalize step' t b = y at hstep
    cases hstep with
    | none => exact ⟨fun _ _ hn => (nomatch hn), fun _ _ hn => (nomatch hn)⟩
    | some hr =>
      constructor
      · rintro hs _ ⟨⟩
        exact (ih hbs.2 hr).mp (hs _ rfl)
      · rintro ht _ ⟨⟩
        exact (ih hbs.2 hr).mpr (ht _ rfl)

end Lockstep

end Runs
