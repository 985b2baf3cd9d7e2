import Mathlib.Data.List.Basic

/-!
# Machinery/Regex — regular expressions matched at the start of a text

The part of Python's `re` without groups and alternatives: classes of characters, sequences, bounded
repetition and the two anchors.  `$` also stands before a newline that ends the text.  Without
look-around, what backtracking finds is what there is, so that a match is a relation.
-/

inductive Regex
  /-- `[…]`. -/
  | oneOf (p : Char → Bool)
  /-- `^`. -/
  | start
  /-- `$`. -/
  | stop
  | seq (r r' : Regex)
  /-- `r{0,n}`. -/
  | upTo (n : ℕ) (r : Regex)

namespace Regex

/-- **From what is read and what is to come, to the same after a match.** -/
inductive Consumes : Regex → List Char → List Char → List Char → List Char → Prop
  | oneOf {p c before after} (h : p c = true) :
      Consumes (.oneOf p) before (c :: after) (before ++ [c]) after
  | start {after} : Consumes .start [] after [] after
  | stop {before} : Consumes .stop before [] before []
  | stopBeforeNewline {before} : Consumes .stop before ['\n'] before ['\n']
  | seq {r r' b₁ a₁ b₂ a₂ b₃ a₃} (h : Consumes r b₁ a₁ b₂ a₂) (h' : Consumes r' b₂ a₂ b₃ a₃) :
      Consumes (.seq r r') b₁ a₁ b₃ a₃
  | done {n r before after} : Consumes (.upTo n r) before after before after
  | more {n r b₁ a₁ b₂ a₂ b₃ a₃} (h : Consumes r b₁ a₁ b₂ a₂)
      (h' : Consumes (.upTo n r) b₂ a₂ b₃ a₃) : Consumes (.upTo (n + 1) r) b₁ a₁ b₃ a₃

/-- `re.compile(r).match(s)`. -/
def Match (r : Regex) (s : String) : Prop :=
  ∃ before after, Consumes r [] s.toList before after

variable {p : Char → Bool} {r r' : Regex} {b₁ a₁ b₂ a₂ : List Char}

theorem consumes_oneOf : Consumes (.oneOf p) b₁ a₁ b₂ a₂ ↔
    ∃ c, p c = true ∧ a₁ = c :: a₂ ∧ b₂ = b₁ ++ [c] := by
  constructor
  · rintro ⟨h⟩
    exact ⟨_, h, rfl, rfl⟩
  · rintro ⟨c, h, rfl, rfl⟩
    exact .oneOf h

theorem consumes_start : Consumes .start b₁ a₁ b₂ a₂ ↔ b₁ = [] ∧ b₂ = [] ∧ a₂ = a₁ := by
  constructor
  · rintro ⟨⟩
    exact ⟨rfl, rfl, rfl⟩
  · rintro ⟨rfl, rfl, rfl⟩
    exact .start

theorem consumes_stop : Consumes .stop b₁ a₁ b₂ a₂ ↔
    (a₁ = [] ∨ a₁ = ['\n']) ∧ b₂ = b₁ ∧ a₂ = a₁ := by
  constructor
  · intro h
    cases h with
    | stop => exact ⟨Or.inl rfl, rfl, rfl⟩
    | stopBeforeNewline => exact ⟨Or.inr rfl, rfl, rfl⟩
  · rintro ⟨rfl | rfl, rfl, rfl⟩
    · exact .stop
    · exact .stopBeforeNewline

theorem consumes_seq : Consumes (.seq r r') b₁ a₁ b₂ a₂ ↔
    ∃ b a, Consumes r b₁ a₁ b a ∧ Consumes r' b a b₂ a₂ := by
  constructor
  · rintro ⟨⟩
    exact ⟨_, _, ‹_›, ‹_›⟩
  · rintro ⟨b, a, h, h'⟩
    exact .seq h h'

/-- **A bounded repetition of a class** reads so many characters of the class. -/
theorem consumes_upTo_oneOf (n : ℕ) : Consumes (.upTo n (.oneOf p)) b₁ a₁ b₂ a₂ ↔
    ∃ w, a₁ = w ++ a₂ ∧ b₂ = b₁ ++ w ∧ w.length ≤ n ∧ ∀ c ∈ w, p c = true := by
  constructor
  · induction n generalizing b₁ a₁ with
    | zero =>
      rintro ⟨⟩
      exact ⟨[], rfl, (List.append_nil _).symm, Nat.le_refl _, nofun⟩
    | succ n ih =>
      intro h
      cases h with
      | done => exact ⟨[], rfl, (List.append_nil _).symm, Nat.zero_le _, nofun⟩
      | more h h' =>
        obtain ⟨c, hc, rfl, rfl⟩ := consumes_oneOf.mp h
        obtain ⟨w, rfl, rfl, hlength, hw⟩ := ih h'
        exact ⟨c :: w, rfl, List.append_assoc _ _ _, Nat.succ_le_succ hlength,
          List.forall_mem_cons.mpr ⟨hc, hw⟩⟩
  · rintro ⟨w, rfl, rfl, hlength, hw⟩
    induction w generalizing n b₁ with
    | nil =>
      rw [List.append_nil]
      exact .done
    | cons c w ih =>
      obtain ⟨m, rfl⟩ := Nat.exists_eq_add_of_lt (Nat.zero_lt_of_lt (Nat.lt_of_succ_le hlength))
      obtain ⟨hc, hw⟩ := List.forall_mem_cons.mp hw
      have hrest : Consumes (.upTo (0 + m) (.oneOf p)) (b₁ ++ [c]) (w ++ a₂) (b₁ ++ [c] ++ w) a₂ :=
        ih (0 + m) (Nat.le_of_succ_le_succ hlength) hw
      rw [List.append_assoc] at hrest
      exact .more (consumes_oneOf.mpr ⟨c, hc, rfl, rfl⟩) hrest

end Regex
