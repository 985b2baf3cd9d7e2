import Mathlib.Data.List.Basic

/-!
# Machinery/Exchange — services that answer requests

A service is a function `serve : σ → α → β × σ` from a state and a request to an answer and the
state it leaves.  `replies` are its answers to a list of requests and `final` is the state they
leave; `final_invariant` is the rule for it.  `map_replies_eq` is the two-run rule: requests that
look alike, on states that are related, are answered alike all along, if each of them is and keeps
the states related.
-/

namespace Exchange

universe u v w x y

variable {σ : Type u} {α : Type v} {β : Type w} {γ : Type x} {δ : Type y}

/-- The answers to the requests, in order. -/
def replies (serve : σ → α → β × σ) : σ → List α → List β
  | _, [] => []
  | s, a :: as => (serve s a).1 :: replies serve (serve s a).2 as

/-- The state the requests leave. -/
def final (serve : σ → α → β × σ) : σ → List α → σ
  | s, [] => s
  | s, a :: as => final serve (serve s a).2 as

variable {serve : σ → α → β × σ}

/-- What each request preserves, all of them preserve. -/
theorem final_invariant {I : σ → Prop} (h : ∀ s a, I s → I (serve s a).2) {s : σ} (hs : I s)
    (as : List α) : I (final serve s as) := by
  induction as generalizing s with
  | nil => exact hs
  | cons a as ih => exact ih (h s a hs)

/-- **The two-run rule**, for requests that look alike through `f` and meet `P`, and answers that
are looked at through `g`. -/
theorem map_replies_eq {R : σ → σ → Prop} {P : α → Prop} {f : α → γ} {g : β → δ}
    (h : ∀ s s' a a', R s s' → f a = f a' → P a →
      g (serve s a).1 = g (serve s' a').1 ∧ R (serve s a).2 (serve s' a').2)
    {as as' : List α} {s s' : σ} (hs : R s s') (hmap : as.map f = as'.map f)
    (hP : ∀ a ∈ as, P a) :
    (replies serve s as).map g = (replies serve s' as').map g ∧
      R (final serve s as) (final serve s' as') := by
  induction as generalizing as' s s' with
  | nil =>
    obtain rfl : as' = [] := List.map_eq_nil_iff.mp hmap.symm
    exact ⟨rfl, hs⟩
  | cons a as ih =>
    obtain ⟨a', as', rfl, ha, hmap⟩ := List.map_eq_cons_iff.mp hmap.symm
    rw [List.forall_mem_cons] at hP
    obtain ⟨hg, hs₁⟩ := h s s' a a' hs ha.symm hP.1
    obtain ⟨hreplies, hfinal⟩ := ih hs₁ hmap.symm hP.2
    refine ⟨?_, hfinal⟩
    rw [replies, replies, List.map_cons, List.map_cons, hg, hreplies]

end Exchange
