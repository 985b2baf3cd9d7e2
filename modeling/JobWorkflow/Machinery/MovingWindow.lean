import Mathlib.Data.Int.Notation
import Mathlib.Data.List.Basic

/-!
# Machinery/MovingWindow — limiters that admit so many hits of a key in a window

A limiter is known by what it says of itself: how many hits of a key it has admitted in the window
that ends now.  `admitted` are those of some hits that it lets through.  Within one window it lets
so many of each key through and no more (`count_admitted`), so that it bounds them all together
exactly if they are few or share one key (`bounded_iff`), and it takes from the allowance of no
other key (`used_left`).
-/

namespace MovingWindow

universe u v w

/-- So many hits in a window so long. -/
structure Item where
  amount : ℕ
  expiry : ℤ

/-- **A moving window limiter** over keys `κ`. -/
class Limiter (L : Type u) (κ : outParam (Type v)) where
  fresh : L
  /-- A hit of a key, at a time: whether it is admitted. -/
  hit : Item → κ → ℤ → L → Bool × L
  /-- The hits of a key that were admitted in the window that ends at a time. -/
  used : Item → L → κ → ℤ → ℕ
  used_fresh : ∀ item key now, used item fresh key now = 0
  hit_iff : ∀ item key now l, (hit item key now l).1 = true ↔ used item l key now < item.amount
  /-- An admitted hit counts for its own key until it is out of the window. -/
  used_hit : ∀ item key now l later, (hit item key now l).1 = true → now ≤ later →
    later ≤ now + item.expiry →
      used item (hit item key now l).2 key later = used item l key later + 1
  /-- Nothing else changes. -/
  used_other : ∀ item key now l key' later, now ≤ later →
    ¬ ((hit item key now l).1 = true ∧ key' = key ∧ later ≤ now + item.expiry) →
      used item (hit item key now l).2 key' later = used item l key' later

/-! ## The plain limiter -/

/-- The admitted hits, with their times. -/
abbrev Log (κ : Type v) := List (κ × ℤ)

/-- The hits of a key that are not out of the window. -/
def Log.used {κ : Type v} [DecidableEq κ] (item : Item) (l : Log κ) (key : κ) (now : ℤ) : ℕ :=
  l.countP fun e => e.1 = key ∧ now ≤ e.2 + item.expiry

instance {κ : Type v} [DecidableEq κ] : Limiter (Log κ) κ where
  fresh := []
  hit item key now l :=
    if Log.used item l key now < item.amount then (true, (key, now) :: l) else (false, l)
  used := Log.used
  used_fresh _ _ _ := rfl
  hit_iff item key now l := by
    split
    · exact iff_of_true rfl ‹_›
    · exact iff_of_false Bool.false_ne_true ‹_›
  used_hit item key now l later hhit _ hlater := by
    split
    · exact List.countP_cons_of_pos (decide_eq_true ⟨rfl, hlater⟩)
    · rw [if_neg ‹_›] at hhit
      exact absurd hhit Bool.false_ne_true
  used_other item key now l key' later _ hother := by
    split
    · rw [if_pos ‹_›] at hother
      exact List.countP_cons_of_neg fun h =>
        hother ⟨rfl, (of_decide_eq_true h).1.symm, (of_decide_eq_true h).2⟩
    · rfl

/-! ## A sequence of hits -/

section Run

variable {L : Type u} {κ : Type v} [Limiter L κ] {α : Type w}

/-- Those that are admitted. -/
def admitted (item : Item) (key : α → κ) (time : α → ℤ) : L → List α → List α
  | _, [] => []
  | l, a :: as =>
    match Limiter.hit item (key a) (time a) l with
    | (true, l') => a :: admitted item key time l' as
    | (false, l') => admitted item key time l' as

/-- The limiter after them. -/
def left (item : Item) (key : α → κ) (time : α → ℤ) : L → List α → L
  | l, [] => l
  | l, a :: as => left item key time (Limiter.hit item (key a) (time a) l).2 as

variable {item : Item} {key : α → κ} {time : α → ℤ} {l : L} {a : α} {as : List α} {k : κ}

theorem admitted_cons : admitted item key time l (a :: as) =
    if (Limiter.hit item (key a) (time a) l).1 then
      a :: admitted item key time (Limiter.hit item (key a) (time a) l).2 as
    else admitted item key time (Limiter.hit item (key a) (time a) l).2 as := by
  rw [admitted]
  rcases Limiter.hit item (key a) (time a) l with ⟨_ | _, l'⟩
  · rfl
  · rfl

/-- A hit that is refused changes nothing. -/
theorem used_of_refused {now later : ℤ} {j : κ} (hhit : ¬ (Limiter.hit item j now l).1 = true)
    (hle : now ≤ later) :
    Limiter.used item (Limiter.hit item j now l).2 k later = Limiter.used item l k later :=
  Limiter.used_other _ _ _ _ _ _ hle fun hall => hhit hall.1

/-- Without room, every hit is refused. -/
theorem refused_of_amount_eq_zero {now : ℤ} (hzero : item.amount = 0) :
    ¬ (Limiter.hit item k now l).1 = true := by
  rw [Limiter.hit_iff, hzero]
  exact Nat.not_lt_zero _

/-- A hit of another key changes nothing of this one. -/
theorem used_of_ne {now later : ℤ} {j : κ} (hjk : j ≠ k) (hle : now ≤ later) :
    Limiter.used item (Limiter.hit item j now l).2 k later = Limiter.used item l k later :=
  Limiter.used_other _ _ _ _ _ _ hle fun hall => hjk hall.2.1.symm

/-- **Hits within one window**, in order. -/
structure InWindow (item : Item) (time : α → ℤ) (as : List α) : Prop where
  ordered : as.Pairwise fun a b => time a ≤ time b
  within : ∃ start, ∀ a ∈ as, start ≤ time a ∧ time a ≤ start + item.expiry

theorem InWindow.tail (h : InWindow item time (a :: as)) : InWindow item time as := by
  obtain ⟨start, hwithin⟩ := h.within
  exact ⟨h.ordered.of_cons, start, (List.forall_mem_cons.mp hwithin).2⟩

/-- A later hit still finds the first one in its window. -/
theorem InWindow.later (h : InWindow item time (a :: as)) {b : α} (hb : b ∈ as) :
    time a ≤ time b ∧ time b ≤ time a + item.expiry := by
  obtain ⟨start, hwithin⟩ := h.within
  obtain ⟨hstart, -⟩ := hwithin a List.mem_cons_self
  obtain ⟨-, hend⟩ := hwithin b (List.mem_cons_of_mem a hb)
  exact ⟨List.rel_of_pairwise_cons h.ordered hb, by omega⟩

/-- At the end of the window, all hits are still in it. -/
theorem InWindow.end (h : InWindow item time as) :
    ∃ later, ∀ a ∈ as, time a ≤ later ∧ later ≤ time a + item.expiry := by
  obtain ⟨start, hwithin⟩ := h.within
  refine ⟨start + item.expiry, fun a ha => ?_⟩
  obtain ⟨hstart, hend⟩ := hwithin a ha
  exact ⟨hend, by omega⟩

theorem admitted_sublist (l : L) (as : List α) : (admitted item key time l as).Sublist as := by
  induction as generalizing l with
  | nil => exact List.Sublist.refl _
  | cons a as ih =>
    rw [admitted_cons]
    split
    · exact (ih _).cons_cons a
    · exact (ih _).cons a

/-- **Of one key, no more than the amount are admitted**, whatever was admitted before. -/
theorem length_admitted_le (hkey : ∀ a ∈ as, key a = k) (h : InWindow item time as) {c : ℕ}
    (hc : c ≤ item.amount) (hused : ∀ a ∈ as, c ≤ Limiter.used item l k (time a)) :
    c + (admitted item key time l as).length ≤ item.amount := by
  induction as generalizing l c with
  | nil => exact hc
  | cons a as ih =>
    obtain ⟨rfl, hkeys⟩ := List.forall_mem_cons.mp hkey
    obtain ⟨hnow, hused⟩ := List.forall_mem_cons.mp hused
    rw [admitted_cons]
    split
    · rename_i hhit
      have hroom : c < item.amount := Nat.lt_of_le_of_lt hnow ((Limiter.hit_iff _ _ _ _).mp hhit)
      have hrest := ih hkeys h.tail hroom fun b hb => by
        obtain ⟨hle, hin⟩ := h.later hb
        rw [Limiter.used_hit _ _ _ _ _ hhit hle hin]
        exact Nat.succ_le_succ (hused b hb)
      rw [List.length_cons]
      omega
    · rename_i hhit
      refine ih hkeys h.tail hc fun b hb => ?_
      rw [used_of_refused hhit (h.later hb).1]
      exact hused b hb

variable [DecidableEq κ]

/-- **Of every key, as many are admitted as there is room for**, if so many were before. -/
theorem count_admitted (h : InWindow item time as) {c : ℕ}
    (hused : ∀ a ∈ as, Limiter.used item l k (time a) = c) :
    ((admitted item key time l as).map key).count k =
      min (item.amount - c) ((as.map key).count k) := by
  induction as generalizing l c with
  | nil => exact (Nat.min_zero _).symm
  | cons a as ih =>
    obtain ⟨hnow, hused⟩ := List.forall_mem_cons.mp hused
    have hhit := Limiter.hit_iff item (key a) (time a) l
    rw [admitted_cons]
    by_cases hk : key a = k
    · subst hk
      rw [hnow] at hhit
      by_cases hroom : c < item.amount
      · have hrest := ih h.tail (c := c + 1) fun b hb => by
          obtain ⟨hle, hin⟩ := h.later hb
          rw [Limiter.used_hit _ _ _ _ _ (hhit.mpr hroom) hle hin, hused b hb]
        rw [if_pos (hhit.mpr hroom), List.map_cons, List.map_cons, List.count_cons_self,
          List.count_cons_self, hrest]
        omega
      · have hrefused : ¬ (Limiter.hit item (key a) (time a) l).1 = true :=
          fun h => hroom (hhit.mp h)
        have hrest := ih h.tail fun b hb =>
          (used_of_refused hrefused (h.later hb).1).trans (hused b hb)
        rw [if_neg hrefused, hrest]
        omega
    · have hrest := ih h.tail fun b hb => (used_of_ne hk (h.later hb).1).trans (hused b hb)
      split
      · rw [List.map_cons, List.map_cons, List.count_cons_of_ne hk, List.count_cons_of_ne hk, hrest]
      · rw [List.map_cons, List.count_cons_of_ne hk, hrest]

/-- What is admitted is used up, as long as it is in the window. -/
theorem used_left {later : ℤ} (hlater : ∀ a ∈ as, time a ≤ later ∧ later ≤ time a + item.expiry) :
    Limiter.used item (left item key time l as) k later =
      Limiter.used item l k later + ((admitted item key time l as).map key).count k := by
  induction as generalizing l with
  | nil => rfl
  | cons a as ih =>
    obtain ⟨⟨hle, hin⟩, hlater⟩ := List.forall_mem_cons.mp hlater
    rw [left, ih hlater, admitted_cons]
    split
    · rename_i hhit
      rw [List.map_cons]
      by_cases hk : key a = k
      · subst hk
        rw [Limiter.used_hit _ _ _ _ _ hhit hle hin, List.count_cons_self]
        omega
      · rw [used_of_ne hk hle, List.count_cons_of_ne hk]
    · rename_i hhit
      rw [used_of_refused hhit hle]

omit [DecidableEq κ] in
/-- **Hits of other keys take nothing from a key**, nor do any if there is no room at all. -/
theorem used_left_of_ne {later : ℤ} (hlater : ∀ a ∈ as, time a ≤ later)
    (hother : item.amount = 0 ∨ ∀ a ∈ as, key a ≠ k) :
    Limiter.used item (left item key time l as) k later = Limiter.used item l k later := by
  induction as generalizing l with
  | nil => rfl
  | cons a as ih =>
    rw [List.forall_mem_cons] at hlater
    rw [left, ih hlater.2 (hother.imp_right fun h => (List.forall_mem_cons.mp h).2)]
    rcases hother with hzero | hother
    · exact used_of_refused (refused_of_amount_eq_zero hzero) hlater.1
    · exact used_of_ne (hother a List.mem_cons_self) hlater.1

/-- Two keys have no more members than there are. -/
theorem count_add_count_le (xs : List κ) {j : κ} (hjk : j ≠ k) :
    xs.count j + xs.count k ≤ xs.length := by
  induction xs with
  | nil => exact Nat.le_refl 0
  | cons x xs ih =>
    rw [List.count_cons, List.count_cons, List.length_cons]
    by_cases hj : x = j
    · have hk : ¬ x = k := fun h => hjk (hj.symm.trans h)
      simp only [hj, beq_self_eq_true, if_true]
      rw [if_neg (by simpa using fun h => hk (hj.trans h))]
      omega
    · rw [if_neg (by simpa using hj)]
      split
      · omega
      · omega

/-- More than the amount are left of two keys, if no more than that of each are left out. -/
theorem lt_length_of_count {xs ys : List κ} {n : ℕ} (hcount : ∀ k, xs.count k = min n (ys.count k))
    (hpos : 0 < n) (hmany : n < ys.length) {j : κ} (hj : j ∈ ys) (hk : k ∈ ys) (hjk : j ≠ k) :
    n < xs.length := by
  have hfull : ∀ i ∈ ys, ∀ i' ∈ ys, i ≠ i' → n ≤ ys.count i → n < xs.length := by
    intro i _ i' hi' hne hfull
    have htwo := count_add_count_le xs hne
    rw [hcount i, hcount i', Nat.min_eq_left hfull] at htwo
    have hsome := List.count_pos_iff.mpr hi'
    omega
  by_cases hroom : ∀ i, ys.count i < n
  · have hperm : xs.Perm ys := List.perm_iff_count.mpr fun i =>
      (hcount i).trans (Nat.min_eq_right (Nat.le_of_lt (hroom i)))
    rwa [hperm.length_eq]
  · obtain ⟨i, hi⟩ := not_forall.mp hroom
    have hfilled := Nat.le_of_not_lt hi
    have hmem : i ∈ ys := List.count_pos_iff.mp (Nat.lt_of_lt_of_le hpos hfilled)
    by_cases hij : i = j
    · exact hfull i hmem k hk (hij ▸ hjk) hfilled
    · exact hfull i hmem j hj hij hfilled

theorem count_admitted_fresh (h : InWindow item time as) :
    ((admitted item key time (Limiter.fresh : L) as).map key).count k =
      min item.amount ((as.map key).count k) :=
  count_admitted h fun _ _ => Limiter.used_fresh _ _ _

omit [DecidableEq κ] in
theorem admitted_of_amount_eq_zero (hzero : item.amount = 0) :
    admitted item key time l as = [] := by
  induction as generalizing l with
  | nil => rfl
  | cons a as ih =>
    rw [admitted_cons, if_neg (refused_of_amount_eq_zero hzero)]
    exact ih

/-- **All keys together are bounded by the amount of one, exactly if** there is no room at all, or
the hits are no more than that, or share one key. -/
theorem bounded_iff (h : InWindow item time as) :
    (∀ l : L, (admitted item key time l as).length ≤ item.amount) ↔
      item.amount = 0 ∨ as.length ≤ item.amount ∨ ∀ a ∈ as, ∀ b ∈ as, key a = key b := by
  constructor
  · intro hbound
    by_contra hnot
    obtain ⟨hpos, hrest⟩ := not_or.mp hnot
    obtain ⟨hmany, hkeys⟩ := not_or.mp hrest
    push Not at hkeys
    obtain ⟨a, ha, b, hb, hab⟩ := hkeys
    have hcount : ∀ k, ((admitted item key time (Limiter.fresh : L) as).map key).count k = _ :=
      fun _ => count_admitted_fresh h
    have hlong := lt_length_of_count hcount (Nat.pos_of_ne_zero hpos)
      (by rw [List.length_map]; omega) (List.mem_map_of_mem ha) (List.mem_map_of_mem hb) hab
    rw [List.length_map] at hlong
    exact absurd (hbound Limiter.fresh) (Nat.not_le.mpr hlong)
  · rintro (hzero | hfew | hone) l
    · rw [admitted_of_amount_eq_zero hzero]
      exact Nat.zero_le _
    · exact Nat.le_trans (admitted_sublist l as).length_le hfew
    · cases as with
      | nil => exact Nat.zero_le _
      | cons a as =>
        have hle := length_admitted_le (l := l) (fun b hb => hone b hb a List.mem_cons_self) h
          (Nat.zero_le _) fun _ _ => Nat.zero_le _
        rwa [Nat.zero_add] at hle

/-- **A set of keys is left alone, exactly if** there is no room at all, or no hit is of one. -/
theorem untouched_iff (h : InWindow item time as) {P : κ → Prop} :
    (∀ (l : L) (k : κ), P k → ∀ later, (∀ a ∈ as, time a ≤ later) →
      Limiter.used item (left item key time l as) k later = Limiter.used item l k later) ↔
        item.amount = 0 ∨ ∀ a ∈ as, ¬ P (key a) := by
  constructor
  · intro huntouched
    by_contra hnot
    obtain ⟨hpos, hkeys⟩ := not_or.mp hnot
    push Not at hkeys
    obtain ⟨a, ha, hP⟩ := hkeys
    obtain ⟨later, hlater⟩ := h.end
    have hsame := huntouched (Limiter.fresh : L) (key a) hP later fun b hb => (hlater b hb).1
    rw [used_left hlater, count_admitted_fresh h] at hsame
    have hsome := List.count_pos_iff.mpr (List.mem_map_of_mem (f := key) ha)
    omega
  · rintro hother l k hP later hlater
    exact used_left_of_ne hlater (hother.imp_right fun hno a ha he => hno a ha (he ▸ hP))

/-! ## One key among others, over any time -/

omit [DecidableEq κ] in
/-- One hit of a key, in two limiters that have admitted as many of it. -/
theorem used_hit_congr {l' : L} {now later : ℤ}
    (hnow : Limiter.used item l k now = Limiter.used item l' k now)
    (h : Limiter.used item l k later = Limiter.used item l' k later) (hle : now ≤ later) :
    Limiter.used item (Limiter.hit item k now l).2 k later =
      Limiter.used item (Limiter.hit item k now l').2 k later := by
  have hsame : (Limiter.hit item k now l).1 = true ↔ (Limiter.hit item k now l').1 = true := by
    rw [Limiter.hit_iff, Limiter.hit_iff, hnow]
  by_cases hhit : (Limiter.hit item k now l).1 = true
  · by_cases hin : later ≤ now + item.expiry
    · rw [Limiter.used_hit _ _ _ _ _ hhit hle hin,
        Limiter.used_hit _ _ _ _ _ (hsame.mp hhit) hle hin, h]
    · rw [Limiter.used_other _ _ _ _ _ _ hle fun hall => hin hall.2.2,
        Limiter.used_other _ _ _ _ _ _ hle fun hall => hin hall.2.2, h]
  · rw [used_of_refused hhit hle, used_of_refused (fun h' => hhit (hsame.mpr h')) hle, h]

omit [DecidableEq κ] in
theorem admitted_append (l : L) (as bs : List α) : admitted item key time l (as ++ bs) =
    admitted item key time l as ++ admitted item key time (left item key time l as) bs := by
  induction as generalizing l with
  | nil => rfl
  | cons a as ih =>
    rw [List.cons_append, admitted_cons, admitted_cons, left, ih]
    split
    · rfl
    · rfl

/-- What a limiter has used of a key is what it has admitted of it in the window. -/
theorem used_left_eq {later : ℤ} (hlater : ∀ a ∈ as, time a ≤ later) :
    Limiter.used item (left item key time l as) k later = Limiter.used item l k later +
      (admitted item key time l as).countP fun a => key a = k ∧ later ≤ time a + item.expiry := by
  induction as generalizing l with
  | nil => rfl
  | cons a as ih =>
    obtain ⟨hle, hlater⟩ := List.forall_mem_cons.mp hlater
    rw [left, ih hlater, admitted_cons]
    split
    · rename_i hhit
      by_cases hin : key a = k ∧ later ≤ time a + item.expiry
      · obtain ⟨rfl, hin⟩ := hin
        rw [Limiter.used_hit _ _ _ _ _ hhit hle hin, List.countP_cons_of_pos (by simpa using hin)]
        omega
      · rw [Limiter.used_other _ _ _ _ _ _ hle fun hall => hin ⟨hall.2.1.symm, hall.2.2⟩,
          List.countP_cons_of_neg (by simpa using hin)]
    · rename_i hhit
      rw [used_of_refused hhit hle]

/-- **The hits of one key are admitted as if they came alone.** -/
theorem admitted_filter {m : L} (hord : as.Pairwise fun a b => time a ≤ time b)
    (hused : ∀ a ∈ as, Limiter.used item l k (time a) = Limiter.used item m k (time a)) :
    (admitted item key time l as).filter (fun a => key a = k) =
      admitted item key time m (as.filter fun a => key a = k) := by
  induction as generalizing l m with
  | nil => rfl
  | cons a as ih =>
    obtain ⟨hle, hord⟩ := List.pairwise_cons.mp hord
    obtain ⟨hnow, hused⟩ := List.forall_mem_cons.mp hused
    rw [admitted_cons]
    by_cases hk : key a = k
    · subst hk
      have hrest := ih hord (l := (Limiter.hit item (key a) (time a) l).2)
        (m := (Limiter.hit item (key a) (time a) m).2)
        fun b hb => used_hit_congr hnow (hused b hb) (hle b hb)
      have hsame : (Limiter.hit item (key a) (time a) l).1 =
          (Limiter.hit item (key a) (time a) m).1 := by
        rw [Bool.eq_iff_iff, Limiter.hit_iff, Limiter.hit_iff, hnow]
      have hcons : ∀ bs : List α, (a :: bs).filter (fun b => key b = key a) =
          a :: bs.filter fun b => key b = key a := fun _ => List.filter_cons_of_pos (by simp)
      rw [hcons, admitted_cons, ← hsame, ← hrest]
      split
      · exact hcons _
      · rfl
    · have hrest := ih hord (l := (Limiter.hit item (key a) (time a) l).2) (m := m)
        fun b hb => (used_of_ne hk (hle b hb)).trans (hused b hb)
      rw [List.filter_cons_of_neg (by simpa using hk), ← hrest]
      split
      · exact List.filter_cons_of_neg (by simpa using hk)
      · rfl

omit [DecidableEq κ] in
/-- A hit takes nothing back. -/
theorem used_le_hit {now later : ℤ} {j : κ} (hle : now ≤ later) :
    Limiter.used item l k later ≤ Limiter.used item (Limiter.hit item j now l).2 k later := by
  by_cases hall : (Limiter.hit item j now l).1 = true ∧ k = j ∧ later ≤ now + item.expiry
  · obtain ⟨hhit, rfl, hin⟩ := hall
    rw [Limiter.used_hit _ _ _ _ _ hhit hle hin]
    exact Nat.le_succ _
  · exact Nat.le_of_eq (Limiter.used_other _ _ _ _ _ _ hle hall).symm

/-- **In no window are more than the amount admitted of one key**, wherever the window starts. -/
theorem countP_admitted_le (hord : as.Pairwise fun a b => time a ≤ time b) {start : ℤ} {c : ℕ}
    (hc : c ≤ item.amount)
    (hused : ∀ a ∈ as, time a ≤ start + item.expiry → c ≤ Limiter.used item l k (time a)) :
    c + (admitted item key time l as).countP
      (fun a => key a = k ∧ start ≤ time a ∧ time a ≤ start + item.expiry) ≤ item.amount := by
  induction as generalizing l c with
  | nil => exact hc
  | cons a as ih =>
    obtain ⟨hle, hord⟩ := List.pairwise_cons.mp hord
    obtain ⟨hnow, hused⟩ := List.forall_mem_cons.mp hused
    have hkeep : ∀ b ∈ as, time b ≤ start + item.expiry →
        c ≤ Limiter.used item (Limiter.hit item (key a) (time a) l).2 k (time b) := fun b hb hin =>
      Nat.le_trans (hused b hb hin) (used_le_hit (hle b hb))
    rw [admitted_cons]
    split
    · rename_i hhit
      by_cases hwin : key a = k ∧ start ≤ time a ∧ time a ≤ start + item.expiry
      · obtain ⟨rfl, hstart, hend⟩ := hwin
        have hroom : c < item.amount :=
          Nat.lt_of_le_of_lt (hnow hend) ((Limiter.hit_iff _ _ _ _).mp hhit)
        -- from now on it counts, until the window ends
        have hrest := ih hord hroom fun b hb hin => by
          rw [Limiter.used_hit _ _ _ _ _ hhit (hle b hb) (by omega)]
          exact Nat.succ_le_succ (hused b hb hin)
        rw [List.countP_cons_of_pos (by simpa using ⟨hstart, hend⟩)]
        omega
      · rw [List.countP_cons_of_neg (by simpa using hwin)]
        exact ih hord hc hkeep
    · exact ih hord hc hkeep

end Run

end MovingWindow
