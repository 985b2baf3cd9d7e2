import Mathlib.Data.Int.Notation
import Mathlib.Data.List.Nodup
import Mathlib.Data.List.Pairwise
import Mathlib.Logic.Function.Basic

/-!
# Machinery/Serial — schedulers that take the runs of each key one after another

A run of a key is submitted when all earlier runs of that key are over.  It waits until it is
started; once under way it is finished, or is retried and waits again, unless it has been retried as
often as the key's cap allows.

A `History` carries in its fields what this comes to: no id is used twice, and of two runs of one
key the earlier is over.  What an order does to a run is said once, by `Order.on`, and the four laws
of `step` are all that an implementation has to be compared with.
-/

namespace Serial

universe u v

/-- Where a run stands. -/
inductive Phase
  | waiting
  | underway
  | over (success : Bool)
deriving DecidableEq

/-- No more is going to happen. -/
def Phase.Over : Phase → Prop
  | .over _ => True
  | _ => False

instance : DecidablePred Phase.Over
  | .waiting | .underway => inferInstanceAs (Decidable False)
  | .over _ => inferInstanceAs (Decidable True)

structure Run (κ : Type u) (ι : Type v) where
  id : ι
  key : κ
  phase : Phase
  retries : ℕ

/-- What a run can be told to do. -/
inductive Order
  | start
  | retry
  | finish (success : Bool)

variable {κ : Type u} {ι : Type v}

/-- The run after the order, if it admits it. -/
def Order.on (cap : ℤ) (r : Run κ ι) : Order → Option (Run κ ι)
  | .start => if r.phase = .waiting then some { r with phase := .underway } else none
  | .retry =>
    if r.phase = .underway ∧ r.retries < cap then
      some { r with phase := .waiting, retries := r.retries + 1 }
    else none
  | .finish success => if r.phase = .underway then some { r with phase := .over success } else none

/-- An order is given to a run that is not over, and leaves its id and key. -/
theorem Order.on_eq_some {cap : ℤ} {o : Order} {r r' : Run κ ι} (h : o.on cap r = some r') :
    r'.id = r.id ∧ r'.key = r.key ∧ ¬ r.phase.Over := by
  cases o with
  | start =>
    obtain ⟨hphase, ⟨⟩⟩ := Option.ite_none_right_eq_some.mp h
    exact ⟨rfl, rfl, hphase ▸ id⟩
  | retry =>
    obtain ⟨⟨hphase, -⟩, ⟨⟩⟩ := Option.ite_none_right_eq_some.mp h
    exact ⟨rfl, rfl, hphase ▸ id⟩
  | finish success =>
    obtain ⟨hphase, ⟨⟩⟩ := Option.ite_none_right_eq_some.mp h
    exact ⟨rfl, rfl, hphase ▸ id⟩

/-! ## Histories -/

/-- **The runs in the order of their submission.**  Of two runs of one key, the earlier is over. -/
structure History (κ : Type u) (ι : Type v) where
  runs : List (Run κ ι)
  nodup_id : (runs.map Run.id).Nodup
  serial : runs.Pairwise fun r r' => r.key = r'.key → r.phase.Over

/-- A run with a new id, of a key whose runs are over. -/
def History.submit (h : History κ ι) (k : κ) (i : ι) (hid : i ∉ h.runs.map Run.id)
    (hover : ∀ r ∈ h.runs, r.key = k → r.phase.Over) : History κ ι where
  runs := h.runs ++ [⟨i, k, .waiting, 0⟩]
  nodup_id := by
    rw [List.map_append, List.nodup_append_comm]
    exact List.nodup_cons.mpr ⟨hid, h.nodup_id⟩
  serial := by
    refine List.pairwise_append.mpr ⟨h.serial, List.pairwise_singleton _ _, fun r hr r' hr' => ?_⟩
    obtain rfl := List.mem_singleton.mp hr'
    exact hover r hr

variable [DecidableEq ι]

/-- What becomes of a run when run `i` is given the order. -/
def Order.after (cap : κ → ℤ) (i : ι) (o : Order) (r : Run κ ι) : Run κ ι :=
  if r.id = i then (o.on (cap r.key) r).getD r else r

theorem Order.after_cases (cap : κ → ℤ) (i : ι) (o : Order) (r : Run κ ι) :
    o.after cap i r = r ∨ r.id = i ∧ o.on (cap r.key) r = some (o.after cap i r) := by
  unfold after
  split
  · rename_i hi
    cases hon : o.on (cap r.key) r with
    | none => exact Or.inl rfl
    | some r' => exact Or.inr ⟨hi, rfl⟩
  · exact Or.inl rfl

theorem Order.after_frame (cap : κ → ℤ) (i : ι) (o : Order) (r : Run κ ι) :
    (o.after cap i r).id = r.id ∧ (o.after cap i r).key = r.key ∧
      (r.phase.Over → (o.after cap i r).phase.Over) := by
  rcases o.after_cases cap i r with he | ⟨-, hon⟩
  · rw [he]
    exact ⟨rfl, rfl, id⟩
  · obtain ⟨hid, hkey, hover⟩ := Order.on_eq_some hon
    exact ⟨hid, hkey, fun h => absurd h hover⟩

/-- Run `i` is given an order. -/
def History.order (h : History κ ι) (cap : κ → ℤ) (i : ι) (o : Order) : History κ ι where
  runs := h.runs.map (o.after cap i)
  nodup_id := by
    have hid : Run.id ∘ o.after cap i = Run.id := funext fun r => (o.after_frame cap i r).1
    rw [List.map_map, hid]
    exact h.nodup_id
  serial := by
    refine List.pairwise_map.mpr (h.serial.imp fun {r r'} hover hkey => ?_)
    obtain ⟨-, hr, hkeep⟩ := o.after_frame cap i r
    obtain ⟨-, hr', -⟩ := o.after_frame cap i r'
    exact hkeep (hover (hr.symm.trans (hkey.trans hr')))

/-! ## Schedulers -/

/-- A history, and how often a run of each key may be retried. -/
structure Scheduler (κ : Type u) (ι : Type v) extends History κ ι where
  cap : κ → ℤ

inductive Event (κ : Type u) (ι : Type v)
  | submit (key : κ) (id : ι)
  | order (id : ι) (order : Order)
  | limit (key : κ) (cap : ℤ)

namespace Scheduler

/-- A scheduler that nothing has been submitted to. -/
def idle (cap : κ → ℤ) : Scheduler κ ι := ⟨⟨[], List.nodup_nil, .nil⟩, cap⟩

variable [DecidableEq κ]

/-- **One event**, if the scheduler admits it. -/
def step (s : Scheduler κ ι) : Event κ ι → Option (Scheduler κ ι)
  | .submit k i =>
    if h : i ∉ s.runs.map Run.id ∧ ∀ r ∈ s.runs, r.key = k → r.phase.Over then
      some ⟨s.toHistory.submit k i h.1 h.2, s.cap⟩
    else none
  | .order i o =>
    if ∃ r ∈ s.runs, r.id = i ∧ (o.on (s.cap r.key) r).isSome then
      some ⟨s.toHistory.order s.cap i o, s.cap⟩
    else none
  | .limit k n => some { s with cap := Function.update s.cap k n }

variable {s : Scheduler κ ι} {k : κ} {i : ι} {o : Order}

theorem step_submit (hid : i ∉ s.runs.map Run.id)
    (hover : ∀ r ∈ s.runs, r.key = k → r.phase.Over) : ∃ s', s.step (.submit k i) = some s' ∧
      s'.runs = s.runs ++ [⟨i, k, .waiting, 0⟩] ∧ s'.cap = s.cap :=
  ⟨_, dif_pos ⟨hid, hover⟩, rfl, rfl⟩

/-- A key whose runs are not all over admits no more. -/
theorem step_submit_eq_none {r : Run κ ι} (hr : r ∈ s.runs) (hkey : r.key = k)
    (hover : ¬ r.phase.Over) : s.step (.submit k i) = none :=
  dif_neg fun h => hover (h.2 r hr hkey)

theorem step_order {r r' : Run κ ι} (hr : r ∈ s.runs) (hid : r.id = i)
    (hon : o.on (s.cap r.key) r = some r') : ∃ s', s.step (.order i o) = some s' ∧
      s'.runs = s.runs.map (fun q => if q.id = i then r' else q) ∧ s'.cap = s.cap := by
  refine ⟨_, if_pos ⟨r, hr, hid, Option.isSome_of_mem hon⟩, List.map_congr_left fun q hq => ?_, rfl⟩
  unfold Order.after
  split
  · rename_i hqi
    obtain rfl := List.inj_on_of_nodup_map s.nodup_id hq hr (hqi.trans hid.symm)
    rw [hon, Option.getD_some]
  · rfl

theorem step_order_eq_none (h : ∀ r ∈ s.runs, r.id = i → o.on (s.cap r.key) r = none) :
    s.step (.order i o) = none := by
  refine if_neg ?_
  rintro ⟨r, hr, hid, hsome⟩
  rw [h r hr hid] at hsome
  exact Bool.false_ne_true hsome

end Scheduler

end Serial
