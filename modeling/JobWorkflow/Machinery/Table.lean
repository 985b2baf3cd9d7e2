import Mathlib.Data.List.Nodup
import Mathlib.Data.List.Pairwise
import Mathlib.Data.List.Sort

/-!
# Machinery/Table — relational tables with a primary key and a partial unique index

A table carries its two constraints: no two rows share a key, and no two rows that the partial index
covers share an index value.  A row that would break either cannot be inserted, and an update that
moves no row's key and brings no row under a new index value keeps both, so no statement on a
`Table` builds an invalid one.
-/

universe u v w x

/-- The unique constraints of a table: the primary key, and a partial index over the rows it gives a
value. -/
structure Schema (ρ : Type u) (κ : Type v) (ν : Type w) where
  key : ρ → κ
  index : ρ → Option ν

/-- Rows under the constraints of the schema. -/
@[ext] structure Table {ρ : Type u} {κ : Type v} {ν : Type w} (S : Schema ρ κ ν) where
  rows : List ρ
  nodup_key : (rows.map S.key).Nodup
  nodup_index : (rows.filterMap S.index).Nodup

variable {ρ : Type u} {κ : Type v} {ν : Type w} {S : Schema ρ κ ν}

/-- The new row takes the old one's place in every constraint, or leaves the index. -/
structure Schema.Keeps (S : Schema ρ κ ν) (r r' : ρ) : Prop where
  key : S.key r' = S.key r
  index : S.index r' = S.index r ∨ S.index r' = none

namespace Table

instance : EmptyCollection (Table S) := ⟨⟨[], List.nodup_nil, List.nodup_nil⟩⟩

/-! ## Insertion -/

/-- No row of the table has the key or the index value of `r`. -/
def Fits (t : Table S) (r : ρ) : Prop :=
  S.key r ∉ t.rows.map S.key ∧ ∀ v ∈ S.index r, v ∉ t.rows.filterMap S.index

instance [DecidableEq κ] [DecidableEq ν] (t : Table S) (r : ρ) : Decidable (t.Fits r) :=
  inferInstanceAs (Decidable (_ ∧ _))

/-- The table with the row appended. -/
def append (t : Table S) (r : ρ) (h : t.Fits r) : Table S where
  rows := t.rows ++ [r]
  nodup_key := by
    rw [List.map_append, List.nodup_append_comm]
    exact List.nodup_cons.mpr ⟨h.1, t.nodup_key⟩
  nodup_index := by
    rw [List.filterMap_append, List.nodup_append_comm]
    cases hr : S.index r with
    | none => simpa [List.filterMap, hr] using t.nodup_index
    | some v =>
      rw [List.filterMap_cons_some hr]
      exact List.nodup_cons.mpr ⟨h.2 v hr, t.nodup_index⟩

/-- `INSERT … ON CONFLICT DO NOTHING`, with the number of rows inserted. -/
def insert [DecidableEq κ] [DecidableEq ν] (t : Table S) (r : ρ) : ℕ × Table S :=
  if h : t.Fits r then (1, t.append r h) else (0, t)

theorem insert_of_fits [DecidableEq κ] [DecidableEq ν] {t : Table S} {r : ρ} (h : t.Fits r) :
    t.insert r = (1, t.append r h) :=
  dif_pos h

theorem insert_of_not_fits [DecidableEq κ] [DecidableEq ν] {t : Table S} {r : ρ}
    (h : ¬ t.Fits r) : t.insert r = (0, t) :=
  dif_neg h

theorem rows_insert [DecidableEq κ] [DecidableEq ν] (t : Table S) (r : ρ) :
    (t.insert r).2.rows = if t.Fits r then t.rows ++ [r] else t.rows := by
  unfold insert
  split <;> rfl

/-! ## Update -/

/-- `assign` gives the new row for the rows an update selects. -/
def Sound (S : Schema ρ κ ν) (assign : ρ → Option ρ) : Prop :=
  ∀ r, ∀ r' ∈ assign r, S.Keeps r r'

/-- The row after the update. -/
def after (assign : ρ → Option ρ) (r : ρ) : ρ := (assign r).getD r

/-- What an update leaves of a row, in the constraints. -/
theorem keeps_after {assign : ρ → Option ρ} (h : Sound S assign) (r : ρ) :
    S.Keeps r (after assign r) := by
  unfold after
  cases hr : assign r with
  | none => exact ⟨rfl, Or.inl rfl⟩
  | some r' => exact h r r' hr

/-- `UPDATE`: every selected row is replaced where it stands. -/
def update (t : Table S) (assign : ρ → Option ρ) (h : Sound S assign) : Table S where
  rows := t.rows.map (after assign)
  nodup_key := by
    have hkey : S.key ∘ after assign = S.key := funext fun r => (keeps_after h r).key
    rw [List.map_map, hkey]
    exact t.nodup_key
  nodup_index := by
    have hsub : ∀ rs : List ρ, ((rs.map (after assign)).filterMap S.index).Sublist
        (rs.filterMap S.index) := by
      intro rs
      induction rs with
      | nil => exact List.Sublist.refl _
      | cons r rs ih =>
        rw [List.map_cons]
        rcases (keeps_after h r).index with hi | hi
        · cases hr : S.index r with
          | none => rwa [List.filterMap_cons_none (hi.trans hr), List.filterMap_cons_none hr]
          | some v =>
            rw [List.filterMap_cons_some (hi.trans hr), List.filterMap_cons_some hr]
            exact ih.cons_cons v
        · rw [List.filterMap_cons_none hi]
          cases hr : S.index r with
          | none => rwa [List.filterMap_cons_none hr]
          | some v =>
            rw [List.filterMap_cons_some hr]
            exact ih.cons v
    exact t.nodup_index.sublist (hsub t.rows)

/-- An update moves no keys. -/
theorem map_key_update (t : Table S) {assign : ρ → Option ρ} (h : Sound S assign) :
    (t.update assign h).rows.map S.key = t.rows.map S.key := by
  have hkey : S.key ∘ after assign = S.key := funext fun r => (keeps_after h r).key
  rw [update, List.map_map, hkey]

/-- The rows an update returns, `RETURNING *`. -/
def returning (t : Table S) (assign : ρ → Option ρ) : List ρ := t.rows.filterMap assign

/-- `SET … WHERE …`. -/
def setWhere (p : ρ → Bool) (f : ρ → ρ) (r : ρ) : Option ρ := if p r then some (f r) else none

theorem after_setWhere (p : ρ → Bool) (f : ρ → ρ) (r : ρ) :
    after (setWhere p f) r = if p r then f r else r := by
  unfold after setWhere
  split <;> rfl

theorem sound_setWhere {p : ρ → Bool} {f : ρ → ρ} (h : ∀ r, p r = true → S.Keeps r (f r)) :
    Sound S (setWhere p f) := by
  intro r r' hr'
  obtain ⟨hp, he⟩ := Option.ite_none_right_eq_some.mp hr'
  exact Option.some.inj he ▸ h r hp

/-! ## Lookup -/

/-- The row with the key. -/
def find? [DecidableEq κ] (t : Table S) (k : κ) : Option ρ := t.rows.find? fun r => S.key r = k

theorem find?_eq_some [DecidableEq κ] {t : Table S} {k : κ} {r : ρ} :
    t.find? k = some r ↔ r ∈ t.rows ∧ S.key r = k := by
  unfold find?
  constructor
  · exact fun h => ⟨List.mem_of_find?_eq_some h, by simpa using List.find?_some h⟩
  · rintro ⟨hmem, rfl⟩
    obtain ⟨r', hr'⟩ := Option.isSome_iff_exists.mp
      (List.find?_isSome.mpr ⟨r, hmem, by simp⟩ :
        (t.rows.find? fun r' => S.key r' = S.key r).isSome)
    have hkey : S.key r' = S.key r := by simpa using List.find?_some hr'
    rw [hr', List.inj_on_of_nodup_map t.nodup_key (List.mem_of_find?_eq_some hr') hmem hkey]

/-- Two rows under one index value are one. -/
theorem eq_of_index {t : Table S} {r r' : ρ} {v : ν} (hr : r ∈ t.rows) (hr' : r' ∈ t.rows)
    (h : S.index r = some v) (h' : S.index r' = some v) : r = r' := by
  have hsymm : Std.Symm fun a b : ρ =>
      ∀ v, S.index a = some v → ∀ v', S.index b = some v' → v ≠ v' :=
    ⟨fun _ _ h v hv v' hv' he => h v' hv' v hv he.symm⟩
  by_contra hne
  exact (List.pairwise_filterMap.mp t.nodup_index).forall hr hr' hne v h v h' rfl

/-- Keys being distinct, a selection by key is a lookup. -/
theorem filter_key [DecidableEq κ] (t : Table S) (k : κ) :
    t.rows.filter (fun r => k = S.key r) = (t.find? k).toList := by
  have key : ∀ rows : List ρ, (rows.map S.key).Nodup →
      rows.filter (fun r => k = S.key r) = (rows.find? fun r => S.key r = k).toList := by
    intro rows
    induction rows with
    | nil => exact fun _ => rfl
    | cons r rows ih =>
      intro hnd
      obtain ⟨hr, hnd⟩ := List.nodup_cons.mp hnd
      by_cases hk : S.key r = k
      · subst hk
        have hnone : rows.filter (fun r' => S.key r = S.key r') = [] :=
          List.filter_eq_nil_iff.mpr fun r' hr' he =>
            hr (List.mem_map.mpr ⟨r', hr', (of_decide_eq_true he).symm⟩)
        rw [List.filter_cons_of_pos (by simp), hnone, List.find?_cons_of_pos (by simp)]
        rfl
      · rw [List.filter_cons_of_neg (by simpa using Ne.symm hk),
          List.find?_cons_of_neg (by simpa using hk), ih hnd]
  exact key t.rows t.nodup_key

/-- A row that is not selected is not found by an update by key. -/
theorem after_of_none {assign : ρ → Option ρ} {r : ρ} (h : assign r = none) :
    after assign r = r := by
  rw [after, h]
  rfl

/-- An update that selects no row of the table changes nothing and returns nothing. -/
theorem update_none {t : Table S} {assign : ρ → Option ρ} (hs : Sound S assign)
    (h : ∀ r ∈ t.rows, assign r = none) :
    t.update assign hs = t ∧ t.returning assign = [] := by
  refine ⟨Table.ext ?_, List.filterMap_eq_nil_iff.mpr h⟩
  exact (List.map_congr_left fun r hr => after_of_none (h r hr)).trans (List.map_id' _)

/-- A lookup among rows that are rewritten under their keys. -/
theorem find?_of_map [DecidableEq κ] {t t' : Table S} {g : ρ → ρ} (h : t'.rows = t.rows.map g)
    (hg : ∀ r, S.key (g r) = S.key r) (k : κ) : t'.find? k = (t.find? k).map g := by
  have hcomp : (fun r => decide (S.key r = k)) ∘ g = fun r => decide (S.key r = k) :=
    funext fun r => by rw [Function.comp_apply, hg]
  rw [find?, find?, h, List.find?_map, hcomp]

/-- An insertion hides no row. -/
theorem find?_insert_of_some [DecidableEq κ] [DecidableEq ν] {t : Table S} {k : κ} {r : ρ}
    (h : t.find? k = some r) (r' : ρ) : (t.insert r').2.find? k = some r := by
  obtain ⟨hmem, hk⟩ := find?_eq_some.mp h
  refine find?_eq_some.mpr ⟨?_, hk⟩
  rw [rows_insert]
  split
  · exact List.mem_append_left _ hmem
  · exact hmem

/-- A row outside the partial index is inserted unless its key is taken. -/
theorem fits_of_index_none {t : Table S} {r : ρ} (hr : S.index r = none) :
    t.Fits r ↔ S.key r ∉ t.rows.map S.key :=
  and_iff_left fun v hv => by cases hr.symm.trans hv

/-- A lookup after such an insertion: what was there comes first. -/
theorem find?_insert [DecidableEq κ] [DecidableEq ν] {t : Table S} {r : ρ}
    (hr : S.index r = none) (k : κ) :
    (t.insert r).2.find? k = (t.find? k).or (if S.key r = k then some r else none) := by
  rw [find?, rows_insert]
  split
  · rw [List.find?_append, List.find?_singleton]
    simp only [decide_eq_true_eq]
    rfl
  · rename_i hf
    rw [fits_of_index_none hr, not_not, List.mem_map] at hf
    obtain ⟨q, hq, hkey⟩ := hf
    split
    · rename_i hk
      rw [← hk, find?_eq_some.mpr ⟨hq, hkey⟩]
      exact find?_eq_some.mpr ⟨hq, hkey⟩
    · rw [Option.or_none]
      rfl

/-- What an update of the row with a key returns. -/
theorem returning_key [DecidableEq κ] {t : Table S} {k : κ} {r : ρ} (hr : t.find? k = some r)
    {assign : ρ → Option ρ} (h : ∀ r', S.key r' ≠ k → assign r' = none) :
    t.returning assign = (assign r).toList := by
  obtain ⟨hmem, rfl⟩ := find?_eq_some.mp hr
  obtain ⟨before, later, hsplit⟩ := List.append_of_mem hmem
  have hnd := t.nodup_key
  rw [hsplit, List.map_append, List.map_cons, List.nodup_middle, List.nodup_cons,
    ← List.map_append] at hnd
  -- no other row has the key
  have hnone : ∀ r' ∈ before ++ later, assign r' = none := fun r' hr' =>
    h r' fun he => hnd.1 (List.mem_map.mpr ⟨r', hr', he⟩)
  have hbefore : before.filterMap assign = [] :=
    List.filterMap_eq_nil_iff.mpr fun r' hr' => hnone r' (List.mem_append_left _ hr')
  have hlater : later.filterMap assign = [] :=
    List.filterMap_eq_nil_iff.mpr fun r' hr' => hnone r' (List.mem_append_right _ hr')
  rw [returning, hsplit, List.filterMap_append, hbefore, List.nil_append]
  cases hassign : assign r with
  | none => rw [List.filterMap_cons_none hassign, hlater]; rfl
  | some r' => rw [List.filterMap_cons_some hassign, hlater]; rfl

/-- A condition on the row with a key holds of one row, if it holds of that row. -/
theorem countP_key [DecidableEq κ] {t : Table S} {k : κ} {r : ρ} (hr : t.find? k = some r)
    {p : ρ → Bool} (hp : p r = true) (hkey : ∀ r', p r' = true → S.key r' = k) :
    t.rows.countP p = 1 := by
  obtain ⟨hmem, -⟩ := find?_eq_some.mp hr
  have hle : t.rows.countP p ≤ (t.rows.map S.key).count k := by
    rw [List.count, List.countP_map]
    exact List.countP_mono_left fun r' _ hp' => beq_iff_eq.mpr (hkey r' hp')
  have hone := List.nodup_iff_count_le_one.mp t.nodup_key k
  have hpos : 0 < t.rows.countP p := List.countP_pos_iff.mpr ⟨r, hmem, hp⟩
  omega

/-! ## Upserts -/

section Upsert

variable [DecidableEq κ] [DecidableEq ν]

/-- `INSERT … ON CONFLICT (key) DO UPDATE`, of a row outside the partial index. -/
def upsert (t : Table S) (r : ρ) (hr : S.index r = none) : Table S :=
  ((t.update (setWhere (fun r' => S.key r' = S.key r) fun _ => r)
    (sound_setWhere fun _ hk => ⟨(of_decide_eq_true hk).symm, Or.inr hr⟩)).insert r).2

/-- The rows of an upsert: the new one, and the old ones with another key. -/
theorem mem_upsert {t : Table S} {r r' : ρ} {hr : S.index r = none} :
    r' ∈ (t.upsert r hr).rows ↔ r' = r ∨ r' ∈ t.rows ∧ S.key r' ≠ S.key r := by
  have hupdated : r' ∈ t.rows.map (after (setWhere (fun q => S.key q = S.key r) fun _ => r)) ↔
      (r' = r ∧ S.key r ∈ t.rows.map S.key) ∨ r' ∈ t.rows ∧ S.key r' ≠ S.key r := by
    simp only [List.mem_map, after_setWhere, decide_eq_true_eq]
    constructor
    · rintro ⟨q, hq, he⟩
      split at he
      · rename_i hk
        exact Or.inl ⟨he.symm, q, hq, hk⟩
      · rename_i hk
        exact Or.inr (he ▸ ⟨hq, hk⟩)
    · rintro (⟨rfl, q, hq, hk⟩ | ⟨hq, hk⟩)
      · exact ⟨q, hq, if_pos hk⟩
      · exact ⟨r', hq, if_neg hk⟩
  have hsound : Sound S (setWhere (fun q => S.key q = S.key r) fun _ => r) :=
    sound_setWhere fun _ hk => ⟨(of_decide_eq_true hk).symm, Or.inr hr⟩
  have hfits : (t.update _ hsound).Fits r ↔ S.key r ∉ t.rows.map S.key := by
    rw [fits_of_index_none hr]
    exact not_congr (by rw [map_key_update])
  rw [upsert, rows_insert]
  split
  · rename_i hf
    have hkey := hfits.mp hf
    rw [List.mem_append, List.mem_singleton, or_comm]
    exact or_congr_right (hupdated.trans (or_iff_right fun h => hkey h.2))
  · rename_i hf
    have hkey := not_not.mp (mt hfits.mpr hf)
    exact hupdated.trans (or_congr_left (and_iff_left hkey))

theorem find?_upsert (t : Table S) (r : ρ) (hr : S.index r = none) (k : κ) :
    (t.upsert r hr).find? k = if k = S.key r then some r else t.find? k := by
  refine Option.ext fun q => ?_
  rw [find?_eq_some, mem_upsert]
  split
  · rename_i hk
    subst hk
    constructor
    · rintro ⟨rfl | ⟨-, hne⟩, hkey⟩
      · rfl
      · exact absurd hkey hne
    · intro he
      obtain rfl := Option.some.inj he
      exact ⟨Or.inl rfl, rfl⟩
  · rename_i hk
    rw [find?_eq_some]
    constructor
    · rintro ⟨rfl | ⟨hmem, -⟩, rfl⟩
      · exact absurd rfl hk
      · exact ⟨hmem, rfl⟩
    · rintro ⟨hmem, rfl⟩
      exact ⟨Or.inr ⟨hmem, hk⟩, rfl⟩

end Upsert

/-! ## Statements that may be refused -/

section Refused

variable [DecidableEq κ] [DecidableEq ν]

/-- `INSERT`: refused, if a constraint is in the way. -/
def insert? (t : Table S) (r : ρ) : Option (Table S) :=
  if h : t.Fits r then some (t.append r h) else none

/-- `UPDATE` of any columns, keys included: refused, if two rows would break a constraint.
PostgreSQL checks row by row, and so refuses some updates more, whose keys shift from row to row:
there it is as if the statement had not been made. -/
def update? (t : Table S) (assign : ρ → Option ρ) : Option (Table S) :=
  let rows := t.rows.map (after assign)
  if h : (rows.map S.key).Nodup ∧ (rows.filterMap S.index).Nodup then some ⟨rows, h.1, h.2⟩
  else none

theorem insert?_eq_some {t t' : Table S} {r : ρ} (h : t.insert? r = some t') :
    t'.rows = t.rows ++ [r] := by
  unfold insert? at h
  split at h
  · exact Option.some.inj h ▸ rfl
  · cases h

/-- An update is refused only if its rows are not those of a table. -/
theorem update?_eq_some {t t' : Table S} {assign : ρ → Option ρ} :
    t.update? assign = some t' ↔ t'.rows = t.rows.map (after assign) := by
  unfold update?
  dsimp only
  constructor
  · intro h
    split at h
    · exact Option.some.inj h ▸ rfl
    · cases h
  · intro h
    have hkey : ((t.rows.map (after assign)).map S.key).Nodup := h ▸ t'.nodup_key
    have hindex : ((t.rows.map (after assign)).filterMap S.index).Nodup := h ▸ t'.nodup_index
    rw [dif_pos ⟨hkey, hindex⟩]
    exact congrArg some (Table.ext h.symm)

end Refused

/-- `DELETE`. -/
def delete (t : Table S) (p : ρ → Bool) : Table S where
  rows := t.rows.filter fun r => !p r
  nodup_key := t.nodup_key.sublist (List.filter_sublist.map S.key)
  nodup_index := t.nodup_index.sublist (List.filter_sublist.filterMap S.index)

/-- Keys being distinct, a delete takes a key away with its row. -/
theorem key_mem_delete_iff {t : Table S} {p : ρ → Bool} {r : ρ} (hr : r ∈ t.rows) :
    S.key r ∈ (t.delete p).rows.map S.key ↔ p r = false := by
  rw [List.mem_map]
  constructor
  · rintro ⟨r', hr', he⟩
    obtain ⟨hr', hp⟩ := List.mem_filter.mp hr'
    obtain rfl := List.inj_on_of_nodup_map t.nodup_key hr' hr he
    simpa using hp
  · exact fun hp => ⟨r, List.mem_filter.mpr ⟨hr, by simpa using hp⟩, rfl⟩

/-! ## Joins -/

/-- `LEFT JOIN`: each row of the left with its partners on the right, or with none. -/
def leftJoin {τ : Type x} {υ : Type u} (on : τ → υ → Bool) (rows : List τ) (right : List υ) :
    List (τ × Option υ) :=
  rows.flatMap fun r =>
    match right.filter (on r) with
    | [] => [(r, none)]
    | partners => partners.map fun q => (r, some q)

/-- Where the partner is selected by its key, the join is a lookup. -/
theorem leftJoin_key [DecidableEq κ] {τ : Type x} (f : τ → κ) (t : Table S) (rows : List τ) :
    leftJoin (fun r q => f r = S.key q) rows t.rows = rows.map fun r => (r, t.find? (f r)) := by
  unfold leftJoin
  rw [List.map_eq_flatMap]
  refine List.flatMap_congr fun r _ => ?_
  rw [filter_key]
  cases t.find? (f r) with
  | none => rfl
  | some q => rfl

end Table
