import Mathlib.Data.List.Infix

/-!
# Machinery/Streak — counters that a success clears

A counter goes up by one at each `true` and back to zero at each `false`.  It reaches `n` exactly
when there are `n` in a row (`reaches_zero_iff`).
-/

namespace Streak

/-- Whether the counter reaches `n`, from a count on. -/
def Reaches (n : ℕ) : ℕ → List Bool → Prop
  | _, [] => False
  | c, true :: bs => n ≤ c + 1 ∨ Reaches n (c + 1) bs
  | _, false :: bs => Reaches n 0 bs

variable {n : ℕ}

theorem reaches_cons_true {c : ℕ} {bs : List Bool} :
    Reaches n c (true :: bs) ↔ n ≤ c + 1 ∨ Reaches n (c + 1) bs := Iff.rfl

theorem reaches_cons_false {c : ℕ} {bs : List Bool} :
    Reaches n c (false :: bs) ↔ Reaches n 0 bs := Iff.rfl

/-- A shorter beginning of the same run. -/
theorem prefix_of_le {k : ℕ} (h : k ≤ n) {bs : List Bool}
    (hp : List.replicate n true <+: bs) : List.replicate k true <+: bs :=
  List.IsPrefix.trans (List.prefix_replicate_iff.mpr ⟨by simpa using h, by simp⟩) hp

/-- No run of `true`s begins with a `false`. -/
theorem not_prefix_false {k : ℕ} (hk : 0 < k) {bs : List Bool} :
    ¬ List.replicate k true <+: false :: bs := by
  obtain ⟨j, rfl⟩ : ∃ j, k = j + 1 := ⟨k - 1, by omega⟩
  simp [List.replicate_succ, List.cons_prefix_cons]

/-- A `false` at the beginning is part of no streak. -/
theorem infix_false_iff (h : 0 < n) {bs : List Bool} :
    List.replicate n true <:+: false :: bs ↔ List.replicate n true <:+: bs :=
  List.infix_cons_iff.trans (or_iff_right (not_prefix_false h))

/-- **The counter, from `c` on**: the streak it is in is completed, or there is a whole one. -/
theorem reaches_iff {c : ℕ} (h : c < n) {bs : List Bool} :
    Reaches n c bs ↔ List.replicate (n - c) true <+: bs ∨ List.replicate n true <:+: bs := by
  induction bs generalizing c with
  | nil =>
    have hne : ∀ k, 0 < k → List.replicate k true ≠ [] := fun k hk => by simp [hk.ne']
    simp [Reaches, hne (n - c) (by omega), hne n (by omega)]
  | cons a bs ih =>
    obtain ⟨k, hk⟩ : ∃ k, n - c = k + 1 := ⟨n - c - 1, by omega⟩
    cases a with
    | false =>
      have hn : 0 < n := by omega
      rw [reaches_cons_false, ih hn, Nat.sub_zero, infix_false_iff hn,
        or_iff_right (not_prefix_false (by omega : 0 < n - c))]
      exact or_iff_right_of_imp List.IsPrefix.isInfix
    | true =>
      rw [reaches_cons_true, hk, List.replicate_succ, List.cons_prefix_cons, List.infix_cons_iff]
      by_cases hlast : n ≤ c + 1
      · obtain rfl : k = 0 := by omega
        simp [hlast]
      · have hsub : n - (c + 1) = k := by omega
        rw [ih (by omega), hsub]
        constructor
        · rintro (hle | hp | hi)
          · exact absurd hle hlast
          · exact Or.inl ⟨rfl, hp⟩
          · exact Or.inr (Or.inr hi)
        · rintro (⟨-, hp⟩ | hp | hi)
          · exact Or.inr (Or.inl hp)
          · obtain ⟨j, rfl⟩ : ∃ j, n = j + 1 := ⟨n - 1, by omega⟩
            rw [List.replicate_succ, List.cons_prefix_cons] at hp
            exact Or.inr (Or.inl (prefix_of_le (by omega) hp.2))
          · exact Or.inr (Or.inr hi)

/-- **The counter reaches `n`** exactly when there are `n` in a row. -/
theorem reaches_zero_iff (h : 0 < n) {bs : List Bool} :
    Reaches n 0 bs ↔ List.replicate n true <:+: bs := by
  rw [reaches_iff h, Nat.sub_zero]
  exact or_iff_right_of_imp List.IsPrefix.isInfix

end Streak
