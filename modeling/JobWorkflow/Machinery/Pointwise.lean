import Mathlib.Data.List.Forall2

/-!
# Machinery/Pointwise — list operations on lists related element by element

What relational parametricity gives for the operations a query is made of: two lists related by
`List.Forall₂ R`, queried by conditions that agree on related elements, give related results.
-/

namespace List

universe u v

variable {α : Type u} {β : Type v} {R : α → β → Prop}

/-- Every element has a partner. -/
theorem Forall₂.exists_right {l₁ : List α} {l₂ : List β} (h : Forall₂ R l₁ l₂) {a : α}
    (ha : a ∈ l₁) : ∃ b ∈ l₂, R a b := by
  induction h with
  | nil => exact absurd ha not_mem_nil
  | cons hab _ ih =>
    rcases mem_cons.mp ha with rfl | ha
    · exact ⟨_, mem_cons_self, hab⟩
    · obtain ⟨b, hb, hr⟩ := ih ha
      exact ⟨b, mem_cons_of_mem _ hb, hr⟩

theorem Forall₂.exists_left {l₁ : List α} {l₂ : List β} (h : Forall₂ R l₁ l₂) {b : β}
    (hb : b ∈ l₂) : ∃ a ∈ l₁, R a b :=
  h.flip.exists_right hb

/-- What follows of the elements of the two lists. -/
theorem Forall₂.imp_mem {S : α → β → Prop} {l₁ : List α} {l₂ : List β} (h : Forall₂ R l₁ l₂)
    (hS : ∀ a ∈ l₁, ∀ b ∈ l₂, R a b → S a b) : Forall₂ S l₁ l₂ := by
  induction h with
  | nil => exact .nil
  | cons hab _ ih =>
    refine .cons (hS _ mem_cons_self _ mem_cons_self hab) (ih fun a ha b hb => ?_)
    exact hS a (mem_cons_of_mem _ ha) b (mem_cons_of_mem _ hb)

/-- The first hits are related, if there are any. -/
theorem Forall₂.find?_cases {p : α → Bool} {q : β → Bool} (hpq : ∀ a b, R a b → p a = q b)
    {l₁ : List α} {l₂ : List β} (h : Forall₂ R l₁ l₂) :
    (l₁.find? p = none ∧ l₂.find? q = none) ∨
      ∃ a b, l₁.find? p = some a ∧ l₂.find? q = some b ∧ R a b := by
  induction h with
  | nil => exact Or.inl ⟨rfl, rfl⟩
  | @cons a b _ _ hab _ ih =>
    have hp := hpq a b hab
    cases ha : p a with
    | true =>
      exact Or.inr ⟨a, b, find?_cons_of_pos ha, find?_cons_of_pos (hp.symm.trans ha), hab⟩
    | false =>
      rw [find?_cons_of_neg (by rw [ha]; exact Bool.false_ne_true),
        find?_cons_of_neg (by rw [← hp, ha]; exact Bool.false_ne_true)]
      exact ih

theorem Forall₂.countP_eq {p : α → Bool} {q : β → Bool} (hpq : ∀ a b, R a b → p a = q b)
    {l₁ : List α} {l₂ : List β} (h : Forall₂ R l₁ l₂) : l₁.countP p = l₂.countP q := by
  induction h with
  | nil => rfl
  | @cons a b _ _ hab _ ih => rw [countP_cons, countP_cons, hpq a b hab, ih]

end List

/-- What is related by one relation is related by a weaker one. -/
theorem Option.Rel.imp {α β : Type*} {R S : α → β → Prop} (hS : ∀ a b, R a b → S a b)
    {x : Option α} {y : Option β} (h : Option.Rel R x y) : Option.Rel S x y := by
  cases h with
  | none => exact .none
  | some h => exact .some (hS _ _ h)

/-- Related options are both empty, or hold related values. -/
theorem Option.Rel.eq_cases {α β : Type*} {R : α → β → Prop} {x : Option α} {y : Option β}
    (h : Option.Rel R x y) :
    (x = Option.none ∧ y = Option.none) ∨
      ∃ a b, x = Option.some a ∧ y = Option.some b ∧ R a b := by
  cases h with
  | none => exact Or.inl ⟨rfl, rfl⟩
  | some h => exact Or.inr ⟨_, _, rfl, rfl, h⟩

theorem Option.Rel.flip {α β : Type*} {R : α → β → Prop} {x : Option α} {y : Option β}
    (h : Option.Rel R x y) : Option.Rel (fun b a => R a b) y x := by
  cases h with
  | none => exact .none
  | some h => exact .some h

/-- Related options stay so under functions that keep the relation. -/
theorem Option.Rel.map {α β γ δ : Type*} {R : α → β → Prop} {S : γ → δ → Prop} {f : α → γ}
    {g : β → δ} (hfg : ∀ a b, R a b → S (f a) (g b)) {x : Option α} {y : Option β}
    (h : Option.Rel R x y) : Option.Rel S (x.map f) (y.map g) := by
  cases h with
  | none => exact .none
  | some h => exact .some (hfg _ _ h)

/-- The elements at one index are related, if there are any. -/
theorem List.Forall₂.getElem? {α β : Type*} {R : α → β → Prop} {l₁ : List α} {l₂ : List β}
    (h : List.Forall₂ R l₁ l₂) (n : ℕ) : Option.Rel R l₁[n]? l₂[n]? := by
  induction h generalizing n with
  | nil => exact .none
  | cons hab _ ih =>
    cases n with
    | zero => exact .some hab
    | succ n => exact ih n
