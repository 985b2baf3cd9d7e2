import Mathlib.Algebra.Order.Ring.Int
import Mathlib.Data.List.Infix
import Mathlib.Tactic.Linarith

/-!
# Machinery/Breaker — circuit breakers, by what they let through

A breaker lets calls through while it is closed, and counts those that fail in a row.  The failure
that reaches `limit` opens it; from then on one call is let through when `timeout` has passed, and
closes it or opens it again.

`Explains` ties the state to the log of what got through, and `Step` keeps it.  So whatever calls
come, a call that follows `limit` failures in a row comes `timeout` after the last of them, and
callees that are down for a time `w` are called at most `limit + w / timeout` times
(`Spaced.mul_le`).
-/

namespace Breaker

inductive State
  | closed (failures : ℕ)
  | opened (since : ℤ)

/-- A call that got through. -/
structure Attempt where
  time : ℤ
  failed : Bool

/-- Whether a call gets through. -/
def State.Admits (timeout now : ℤ) : State → Prop
  | .closed _ => True
  | .opened since => since + timeout ≤ now

/-- **One call**: what gets through, and what it makes of the breaker.  It may take its time until
the breaker is opened. -/
inductive Step (limit : ℕ) (timeout : ℤ) : State → Option Attempt → State → Prop
  | kept {st} : Step limit timeout st none st
  | returned {st now} (h : st.Admits timeout now) :
      Step limit timeout st (some ⟨now, false⟩) (.closed 0)
  | counted {n now} (h : n + 1 < limit) :
      Step limit timeout (.closed n) (some ⟨now, true⟩) (.closed (n + 1))
  | tripped {n now since} (h : limit ≤ n + 1) (hs : now ≤ since) :
      Step limit timeout (.closed n) (some ⟨now, true⟩) (.opened since)
  | reopened {before now since} (h : before + timeout ≤ now) (hs : now ≤ since) :
      Step limit timeout (.opened before) (some ⟨now, true⟩) (.opened since)

/-- A call that does not fail closes the breaker. -/
theorem Step.closed {limit : ℕ} {timeout now : ℤ} {st st' : State}
    (h : Step limit timeout st (some ⟨now, false⟩) st') : st' = .closed 0 := by
  cases h with
  | returned => rfl

/-! ## The log, latest first -/

/-- The number of failures since the latest call that did not fail. -/
def streak (log : List Attempt) : ℕ := (log.takeWhile Attempt.failed).length

/-- **A call that follows `limit` failures in a row comes `timeout` after the last of them.** -/
def Spaced (limit : ℕ) (timeout : ℤ) (log : List Attempt) : Prop :=
  ∀ newer a b older, log = newer ++ a :: b :: older → limit ≤ streak (b :: older) →
    b.time + timeout ≤ a.time

variable {limit : ℕ} {timeout : ℤ} {log : List Attempt}

/-- What fails lengthens the streak. -/
theorem length_le_streak_append {newer : List Attempt} (h : ∀ a ∈ newer, a.failed = true)
    (older : List Attempt) : newer.length ≤ streak (newer ++ older) := by
  rw [streak, List.takeWhile_append_of_pos h, List.length_append]
  exact Nat.le_add_right _ _

theorem Spaced.nil : Spaced limit timeout [] := fun _ _ _ _ h => by simp at h

theorem Spaced.cons {a : Attempt} (h : Spaced limit timeout log)
    (ha : limit ≤ streak log → ∀ b ∈ log.head?, b.time + timeout ≤ a.time) :
    Spaced limit timeout (a :: log) := by
  intro newer a' b older he hlimit
  rcases List.cons_eq_append_iff.mp he with ⟨rfl, he⟩ | ⟨rest, rfl, he⟩
  · obtain ⟨rfl, rfl⟩ := List.cons.inj he
    exact ha hlimit b rfl
  · exact h rest a' b older (List.cons.inj he).2 hlimit

/-- What the state says about the latest calls. -/
def State.Fits (limit : ℕ) (log : List Attempt) : State → Prop
  | .closed n => streak log = n ∧ n < limit
  | .opened since => limit ≤ streak log ∧ ∀ a ∈ log.head?, a.time ≤ since

/-- **A breaker in this state may have let this through.** -/
structure Explains (limit : ℕ) (timeout : ℤ) (log : List Attempt) (st : State) : Prop where
  spaced : Spaced limit timeout log
  fits : st.Fits limit log

theorem Explains.start (h : 0 < limit) : Explains limit timeout [] (.closed 0) :=
  ⟨.nil, rfl, h⟩

/-- A call that gets through an open breaker comes `timeout` after the last one. -/
theorem Explains.spaced_cons {st : State} {a : Attempt} (h : Explains limit timeout log st)
    (ha : st.Admits timeout a.time) : Spaced limit timeout (a :: log) := by
  refine h.spaced.cons fun hlimit b hb => ?_
  obtain ⟨-, hfits⟩ := h
  cases st with
  | closed n =>
    obtain ⟨rfl, hlt⟩ := hfits
    exact absurd hlimit (not_le.mpr hlt)
  | opened since =>
    have hlate : since + timeout ≤ a.time := ha
    have hb := hfits.2 b hb
    linarith

/-- **Every call is explained in its turn.** -/
theorem Explains.step {st st' : State} {a : Option Attempt} (h : Explains limit timeout log st)
    (ha : Step limit timeout st a st') (hpos : 0 < limit) :
    Explains limit timeout (a.toList ++ log) st' := by
  cases ha with
  | kept => exact h
  | returned hnow => exact ⟨h.spaced_cons hnow, rfl, hpos⟩
  | @counted n now hlt =>
    have hspaced := h.spaced_cons (a := ⟨now, true⟩) trivial
    obtain ⟨rfl, -⟩ := h.fits
    exact ⟨hspaced, rfl, hlt⟩
  | @tripped n now since hle hs =>
    have hspaced := h.spaced_cons (a := ⟨now, true⟩) trivial
    obtain ⟨rfl, -⟩ := h.fits
    refine ⟨hspaced, hle, fun b hb => ?_⟩
    obtain rfl := Option.some.inj hb
    exact hs
  | @reopened before now since hle hs =>
    have hspaced := h.spaced_cons (a := ⟨now, true⟩) hle
    refine ⟨hspaced, h.fits.1.trans (Nat.le_succ _), fun b hb => ?_⟩
    obtain rfl := Option.some.inj hb
    exact hs

/-- **Calls that all fail** get through at most `limit` times, and once more for every `timeout`
that passes. -/
theorem Spaced.mul_le {newer older : List Attempt} (h : Spaced limit timeout (newer ++ older))
    (hfail : ∀ a ∈ newer, a.failed = true) {start : ℤ} (hstart : ∀ a ∈ newer, start ≤ a.time)
    (hpos : 0 < limit) :
    ∀ a ∈ newer.head?, ((newer.length - limit : ℕ) : ℤ) * timeout ≤ a.time - start := by
  induction newer with
  | nil => exact fun a ha => nomatch ha
  | cons a newer ih =>
    rintro _ ⟨⟩
    obtain ⟨hnow, hstart⟩ := List.forall_mem_cons.mp hstart
    have hfail := (List.forall_mem_cons.mp hfail).2
    rw [List.length_cons]
    by_cases hfew : newer.length < limit
    · rw [Nat.sub_eq_zero_of_le hfew, Nat.cast_zero, zero_mul]
      linarith
    · cases newer with
      | nil => exact absurd hpos hfew
      | cons b newer =>
        have hgap : b.time + timeout ≤ a.time := h [] a b (newer ++ older) rfl
          ((not_lt.mp hfew).trans (length_le_streak_append hfail older))
        have hrest := ih (fun fresh x y old he => h (a :: fresh) x y old (congrArg _ he)) hfail
          hstart b rfl
        have hsub : (b :: newer).length + 1 - limit = ((b :: newer).length - limit) + 1 := by omega
        rw [hsub, Nat.cast_add, Nat.cast_one, add_mul, one_mul]
        linarith

end Breaker
