import Mathlib.Data.List.Nodup

/-!
# Machinery/Dict — dictionaries that remember insertion order

A dictionary is the list of its items with pairwise distinct keys.  Assigning to a key that is
present replaces the value where it stands; assigning to a new key appends.  Iteration follows the
items, so a loop over a dictionary is a loop over `items`, `keys` or `values`.
-/

universe u v

/-- An insertion-ordered dictionary. -/
@[ext]
structure Dict (κ : Type u) (α : Type v) where
  items : List (κ × α)
  nodup_keys : (items.map Prod.fst).Nodup

namespace Dict

variable {κ : Type u} {α : Type v}

instance : EmptyCollection (Dict κ α) := ⟨⟨[], List.nodup_nil⟩⟩

def keys (d : Dict κ α) : List κ := d.items.map Prod.fst

def values (d : Dict κ α) : List α := d.items.map Prod.snd

variable [DecidableEq κ]

/-- The value at a key, if the key is present. -/
def get? (d : Dict κ α) (k : κ) : Option α :=
  (d.items.find? fun e => e.1 = k).map Prod.snd

/-- The items after an assignment `d[k] = v`. -/
def assign (k : κ) (v : α) : List (κ × α) → List (κ × α)
  | [] => [(k, v)]
  | e :: es => if e.1 = k then (k, v) :: es else e :: assign k v es

/-- Assignment changes no key that is present and appends one that is not. -/
theorem keys_assign (k : κ) (v : α) (es : List (κ × α)) :
    (assign k v es).map Prod.fst
      = if k ∈ es.map Prod.fst then es.map Prod.fst else es.map Prod.fst ++ [k] := by
  induction es with
  | nil => rfl
  | cons e es ih =>
    by_cases h : e.1 = k
    · subst h
      simp [assign]
    · rw [assign, if_neg h, List.map_cons, ih]
      by_cases hk : k ∈ es.map Prod.fst
      · rw [if_pos hk, if_pos (by simp only [List.map_cons, List.mem_cons, hk, or_true])]
        rfl
      · have hne : k ∉ (e :: es).map Prod.fst := by
          rw [List.map_cons, List.mem_cons]
          exact fun hm => hm.elim (fun he => h he.symm) hk
        rw [if_neg hk, if_neg hne]
        rfl

/-- `d[k] = v`. -/
def set (d : Dict κ α) (k : κ) (v : α) : Dict κ α where
  items := assign k v d.items
  nodup_keys := by
    rw [keys_assign]
    split
    · exact d.nodup_keys
    · rename_i hk
      exact List.nodup_append.mpr ⟨d.nodup_keys, List.nodup_singleton k,
        fun a ha b hb hab => hk (by rw [← List.mem_singleton.mp hb, ← hab]; exact ha)⟩

/-! ## Lookup -/

/-- Keys being distinct, the first hit is the only one. -/
theorem get?_eq_some {d : Dict κ α} {k : κ} {v : α} : d.get? k = some v ↔ (k, v) ∈ d.items := by
  obtain ⟨es, hnd⟩ := d
  constructor
  · intro h
    obtain ⟨e, he, rfl⟩ := Option.map_eq_some_iff.mp h
    obtain rfl : e.1 = k := by simpa using List.find?_some he
    exact List.mem_of_find?_eq_some he
  · intro h
    have hsome : (es.find? fun e => e.1 = k).isSome :=
      List.find?_isSome.mpr ⟨(k, v), h, by simp⟩
    obtain ⟨e, he⟩ := Option.isSome_iff_exists.mp hsome
    have hk : e.1 = k := by simpa using List.find?_some he
    have hev : e = (k, v) :=
      List.inj_on_of_nodup_map hnd (List.mem_of_find?_eq_some he) h hk
    simp [get?, he, hev]

theorem get?_eq_none {d : Dict κ α} {k : κ} : d.get? k = none ↔ k ∉ d.keys := by
  rw [get?, Option.map_eq_none_iff, List.find?_eq_none, keys, List.mem_map]
  constructor
  · rintro h ⟨e, he, rfl⟩
    exact h e he (by simp)
  · exact fun h e he hk => h ⟨e, he, by simpa using hk⟩

theorem mem_values {d : Dict κ α} {v : α} : v ∈ d.values ↔ ∃ k, d.get? k = some v := by
  simp only [values, List.mem_map, get?_eq_some, Prod.exists, exists_eq_right]

theorem get?_set_self (d : Dict κ α) (k : κ) (v : α) : (d.set k v).get? k = some v := by
  rw [get?_eq_some]
  change (k, v) ∈ assign k v d.items
  induction d.items with
  | nil => exact List.mem_singleton_self _
  | cons e es ih =>
    rw [assign]
    split
    · exact List.mem_cons_self
    · exact List.mem_cons_of_mem _ ih

theorem get?_set_of_ne (d : Dict κ α) {k k' : κ} (v : α) (h : k' ≠ k) :
    (d.set k v).get? k' = d.get? k' := by
  change ((assign k v d.items).find? fun e => e.1 = k').map Prod.snd
    = (d.items.find? fun e => e.1 = k').map Prod.snd
  induction d.items with
  | nil => simp [assign, Ne.symm h]
  | cons e es ih =>
    rw [assign]
    split
    · rename_i hk
      subst hk
      rw [List.find?_cons_of_neg (by simpa using Ne.symm h),
        List.find?_cons_of_neg (by simpa using Ne.symm h)]
    · by_cases hk' : e.1 = k'
      · rw [List.find?_cons_of_pos (by simpa using hk'),
          List.find?_cons_of_pos (by simpa using hk')]
      · rw [List.find?_cons_of_neg (by simpa using hk'),
          List.find?_cons_of_neg (by simpa using hk'), ih]

theorem get?_set (d : Dict κ α) (k k' : κ) (v : α) :
    (d.set k v).get? k' = if k' = k then some v else d.get? k' := by
  split
  · rename_i h
    rw [h, get?_set_self]
  · rename_i h
    exact get?_set_of_ne d v h

/-- Of two assignments to one key the second stays. -/
theorem set_set (d : Dict κ α) (k : κ) (v w : α) : (d.set k v).set k w = d.set k w := by
  have hitems : ∀ es : List (κ × α), assign k w (assign k v es) = assign k w es := by
    intro es
    induction es with
    | nil => simp [assign]
    | cons e es ih =>
      by_cases he : e.1 = k
      · simp [assign, he]
      · simp [assign, he, ih]
  exact Dict.ext (hitems d.items)

/-! ## The items an assignment leaves -/

theorem assign_of_notMem (k : κ) (v : α) (es : List (κ × α)) (hk : k ∉ es.map Prod.fst) :
    assign k v es = es ++ [(k, v)] := by
  induction es with
  | nil => rfl
  | cons e es ih =>
    rw [List.map_cons, List.mem_cons, not_or] at hk
    rw [assign, if_neg (Ne.symm hk.1), ih hk.2]
    rfl

theorem assign_of_mem (k : κ) (v : α) (es : List (κ × α)) (hnd : (es.map Prod.fst).Nodup)
    (hk : k ∈ es.map Prod.fst) :
    assign k v es = es.map fun e => if e.1 = k then (k, v) else e := by
  induction es with
  | nil => exact absurd hk (by simp)
  | cons e es ih =>
    rw [List.map_cons, List.nodup_cons] at hnd
    rw [assign, List.map_cons]
    by_cases he : e.1 = k
    · have hrest : ∀ e' ∈ es, (if e'.1 = k then (k, v) else e') = e' := fun e' he' =>
        if_neg fun hk' => hnd.1 (List.mem_map.mpr ⟨e', he', hk'.trans he.symm⟩)
      rw [if_pos he, if_pos he, List.map_congr_left hrest, List.map_id']
    · rw [List.map_cons, List.mem_cons] at hk
      rw [if_neg he, if_neg he, ih hnd.2 (hk.resolve_left (Ne.symm he))]

/-- Assigning to a new key appends. -/
theorem items_set_of_get?_none {d : Dict κ α} {k : κ} (v : α) (h : d.get? k = none) :
    (d.set k v).items = d.items ++ [(k, v)] :=
  assign_of_notMem k v d.items (get?_eq_none.mp h)

/-- Assigning to a key that is present rewrites the item standing there. -/
theorem items_set_of_get?_some {d : Dict κ α} {k : κ} {w : α} (v : α) (h : d.get? k = some w) :
    (d.set k v).items = d.items.map fun e => if e.1 = k then (k, v) else e :=
  assign_of_mem k v d.items d.nodup_keys (List.mem_map.mpr ⟨(k, w), get?_eq_some.mp h, rfl⟩)

/-- Rewriting the value at a key is a rewriting of the items with that key. -/
theorem items_set_map {d : Dict κ α} {k : κ} {v : α} (f : α → α) (h : d.get? k = some v) :
    (d.set k (f v)).items = d.items.map fun e => if e.1 = k then (e.1, f e.2) else e := by
  rw [items_set_of_get?_some (f v) h]
  refine List.map_congr_left fun e he => ?_
  by_cases hk : e.1 = k
  · have hv : e.2 = v := by
      have he' : d.get? k = some e.2 := get?_eq_some.mpr (hk ▸ he)
      exact Option.some.inj (he'.symm.trans h)
    rw [if_pos hk, if_pos hk, hk, hv]
  · rw [if_neg hk, if_neg hk]

/-- A key and a condition select one item, if the value at the key meets the condition. -/
theorem countP_key_eq_one {d : Dict κ α} {k : κ} {p : α → Bool} :
    d.items.countP (fun e => e.1 = k ∧ p e.2) = 1 ↔ ∃ v, d.get? k = some v ∧ p v = true := by
  constructor
  · intro h
    obtain ⟨⟨k', v⟩, he, hp⟩ := List.countP_pos_iff.mp (by rw [h]; exact Nat.one_pos)
    obtain ⟨rfl, hv⟩ := of_decide_eq_true hp
    exact ⟨v, get?_eq_some.mpr he, hv⟩
  · rintro ⟨v, hv, hp⟩
    have hone : d.items.countP (fun e => e.1 = k ∧ p e.2) ≤ d.keys.count k := by
      rw [keys, List.count, List.countP_map]
      exact List.countP_mono_left fun e _ he => by simpa using (of_decide_eq_true he).1
    have hpos : 0 < d.items.countP (fun e => e.1 = k ∧ p e.2) :=
      List.countP_pos_iff.mpr ⟨(k, v), get?_eq_some.mp hv, decide_eq_true ⟨rfl, hp⟩⟩
    have hle := List.nodup_iff_count_le_one.mp d.nodup_keys k
    exact Nat.le_antisymm (Nat.le_trans hone hle) hpos

/-! ## Comprehensions -/

/-- `{k: v for k, v in items}`: of two items with one key, the later is kept. -/
def ofList (items : List (κ × α)) : Dict κ α := items.foldl (fun d e => d.set e.1 e.2) ∅

/-- The last item with a key is the one that counts. -/
theorem get?_ofList (items : List (κ × α)) (k : κ) :
    (ofList items).get? k = (items.reverse.find? fun e => e.1 = k).map Prod.snd := by
  have fold : ∀ d : Dict κ α, (items.foldl (fun d e => d.set e.1 e.2) d).get? k =
      ((items.reverse.find? fun e => e.1 = k).map Prod.snd).or (d.get? k) := by
    induction items with
    | nil => exact fun _ => rfl
    | cons e items ih =>
      intro d
      rw [List.foldl_cons, ih, List.reverse_cons, List.find?_append, get?_set, List.find?_singleton]
      cases items.reverse.find? fun e => e.1 = k with
      | some e' => rfl
      | none =>
        by_cases hk : e.1 = k
        · simp [hk]
        · simp [hk, Ne.symm hk]
  rw [ofList, fold]
  exact Option.or_none

end Dict
