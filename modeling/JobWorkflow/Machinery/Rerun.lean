import JobWorkflow.Machinery.Sql

/-!
# Machinery/Rerun — running migrations again

What a statement is to bring about is a predicate on databases, `Statement.Holds`.  Three facts
about it carry the results:

* a statement that holds changes nothing (`exec_of_holds`);
* a statement that succeeds holds afterwards (`holds_of_exec`);
* a statement that succeeds only adds to the database (`extends_of_exec`), and what holds goes on
  holding as a database is added to (`Statement.Holds.mono`).

So a run changes nothing exactly when all its statements hold (`run_eq_self_iff`), as they do after
a run (`run_again`).  The last two facts need the statements to be `Repeatable`.
-/

namespace Sql

variable {V E : Type} [DecidableEq V]

/-! ## What a database keeps as it is added to -/

namespace Table

omit [DecidableEq V]

variable {t t' t'' : Table V E}

/-- The table has grown: by columns that a row need not name, by rows, and in the rows it had. -/
structure Extends (t t' : Table V E) : Prop where
  names : t.names ⊆ t'.names
  columns : ∀ c ∈ t'.columns, c ∈ t.columns ∨ (c.notNull → c.default.isSome)
  primaryKey : t'.primaryKey = t.primaryKey
  rows : ∀ row ∈ t.rows, ∃ row' ∈ t'.rows, ∀ name v, t.cell row name = some v →
    t'.cell row' name = some v

theorem Extends.refl (t : Table V E) : t.Extends t where
  names := List.Subset.refl _
  columns := fun _ h => Or.inl h
  primaryKey := rfl
  rows := fun row h => ⟨row, h, fun _ _ hv => hv⟩

theorem Extends.trans (h : t.Extends t') (h' : t'.Extends t'') : t.Extends t'' where
  names := List.Subset.trans h.names h'.names
  columns := fun c hc => (h'.columns c hc).elim (h.columns c) Or.inr
  primaryKey := h'.primaryKey.trans h.primaryKey
  rows := by
    intro row hrow
    obtain ⟨row', hrow', hcell⟩ := h.rows row hrow
    obtain ⟨row'', hrow'', hcell'⟩ := h'.rows row' hrow'
    exact ⟨row'', hrow'', fun name v hv => hcell' name v (hcell name v hv)⟩

theorem extends_addColumn {c : Column E} (eval : E → ℕ → V) (t : Table V E)
    (hc : c.notNull → c.default.isSome) : t.Extends (t.addColumn eval c) where
  names := by
    intro name hname
    exact List.map_subset _ (List.subset_append_left t.columns [c]) hname
  columns := by
    intro c' hc'
    refine (List.mem_append.mp hc').imp_right fun h => ?_
    rw [List.mem_singleton.mp h]
    exact hc
  primaryKey := rfl
  rows := by
    intro row hrow
    obtain ⟨k, hk, rfl⟩ := List.mem_iff_getElem.mp hrow
    refine ⟨_, List.mem_mapIdx.mpr ⟨k, hk, rfl⟩, fun name v => ?_⟩
    exact cell_addColumn eval _ (t.width _ hrow)

theorem extends_insertRow (eval : E → ℕ → V) (k : ℕ) (given : List (String × V))
    (t : Table V E) : t.Extends (t.insertRow eval k given) where
  names := List.Subset.refl _
  columns := fun _ h => Or.inl h
  primaryKey := rfl
  rows := fun row h => ⟨row, List.mem_append_left _ h, fun _ _ hv => hv⟩

end Table

/-- An index stays as it is. -/
inductive Relation.Extends : Relation V E → Relation V E → Prop
  | table {t t' : Table V E} (h : t.Extends t') : Extends (.table t) (.table t')
  | index (i : Index V) : Extends (.index i) (.index i)

/-- Each relation is there still, or has grown. -/
def Database.Extends (db db' : Database V E) : Prop :=
  ∀ name r, db.lookup name = some r → ∃ r', db'.lookup name = some r' ∧ r.Extends r'

/-- What may be added again and again: columns that a row need not name, and rows that give the
columns in which a conflict is looked for. -/
def Statement.Repeatable : Statement V E → Prop
  | .createTable _ _ _ => True
  | .createIndex _ _ => True
  | .addColumns _ columns => ∀ c ∈ columns, c.notNull → c.default.isSome
  | .insert _ rows conflict => ∀ given ∈ rows, conflict ⊆ given.map Prod.fst

omit [DecidableEq V] in
instance : ∀ s : Statement V E, Decidable s.Repeatable
  | .createTable _ _ _ => inferInstanceAs (Decidable True)
  | .createIndex _ _ => inferInstanceAs (Decidable True)
  | .addColumns _ columns =>
    inferInstanceAs (Decidable (∀ c ∈ columns, c.notNull → c.default.isSome))
  | .insert _ rows conflict =>
    inferInstanceAs (Decidable (∀ given ∈ rows, conflict ⊆ given.map Prod.fst))

namespace Database

omit [DecidableEq V]

variable {db db' db'' : Database V E} {name : String}

theorem Extends.refl (db : Database V E) : db.Extends db := by
  intro name r hr
  cases r with
  | table t => exact ⟨_, hr, .table (.refl t)⟩
  | index i => exact ⟨_, hr, .index i⟩

theorem Extends.trans (h : db.Extends db') (h' : db'.Extends db'') : db.Extends db'' := by
  intro name r hr
  obtain ⟨r', hr', hext⟩ := h name r hr
  obtain ⟨r'', hr'', hext'⟩ := h' name r' hr'
  refine ⟨r'', hr'', ?_⟩
  cases hext with
  | table ht => cases hext' with
    | table ht' => exact .table (ht.trans ht')
  | index i => exact hext'

theorem extends_insert_new (r : Relation V E) (h : name ∉ db) : db.Extends (db.insert name r) := by
  intro name' r' hr'
  have hne : name' ≠ name := fun he => h (he ▸ Finmap.mem_iff.mpr ⟨r', hr'⟩)
  obtain ⟨r'', hr'', hext⟩ := Extends.refl db name' r' hr'
  exact ⟨r'', (Finmap.lookup_insert_of_ne db hne).trans hr'', hext⟩

theorem extends_insert_table {t t' : Table V E} (ht : db.lookup name = some (.table t))
    (hext : t.Extends t') : db.Extends (db.insert name (.table t')) := by
  intro name' r' hr'
  by_cases hname : name' = name
  · subst hname
    obtain rfl : r' = .table t := Option.some.inj (hr'.symm.trans ht)
    exact ⟨_, Finmap.lookup_insert db, .table hext⟩
  · obtain ⟨r'', hr'', hext'⟩ := Extends.refl db name' r' hr'
    exact ⟨r'', (Finmap.lookup_insert_of_ne db hname).trans hr'', hext'⟩

theorem Extends.table {t : Table V E} (h : db.Extends db')
    (ht : db.lookup name = some (.table t)) :
    ∃ t', db'.lookup name = some (.table t') ∧ t.Extends t' := by
  obtain ⟨r', hr', hext⟩ := h name _ ht
  cases hext with
  | table hext => exact ⟨_, hr', hext⟩

theorem Extends.index {i : Index V} (h : db.Extends db')
    (hi : db.lookup name = some (.index i)) : db'.lookup name = some (.index i) := by
  obtain ⟨r', hr', hext⟩ := h name _ hi
  cases hext with
  | index => exact hr'

theorem Extends.mem (h : db.Extends db') (hname : name ∈ db) : name ∈ db' := by
  obtain ⟨r, hr⟩ := Finmap.mem_iff.mp hname
  obtain ⟨r', hr', -⟩ := h name r hr
  exact Finmap.mem_iff.mpr ⟨r', hr'⟩

end Database

section

variable {eval : E → ℕ → V} {db db' : Database V E} {s : Statement V E} {t t' : Table V E}

theorem extends_of_addColumns {columns : List (Column E)}
    (hrep : ∀ c ∈ columns, c.notNull → c.default.isSome)
    (h : addColumns eval db columns t = .ok t') : t.Extends t' := by
  induction columns generalizing t with
  | nil => exact Except.ok.inj h ▸ .refl t
  | cons c columns ih =>
    rw [List.forall_mem_cons] at hrep
    rw [addColumns] at h
    split at h
    · exact ih hrep.2 h
    · obtain ⟨-, h⟩ := require_bind_eq_ok.mp h
      obtain ⟨-, h⟩ := require_bind_eq_ok.mp h
      obtain ⟨-, h⟩ := require_bind_eq_ok.mp h
      exact (Table.extends_addColumn eval t hrep.1).trans (ih hrep.2 h)

theorem extends_of_insertRows {uniques arbiters : Finset (Unique V)} {k : ℕ}
    {rows : List (List (String × V))} (h : insertRows eval uniques arbiters k rows t = .ok t') :
    t.Extends t' := by
  induction rows generalizing t k with
  | nil => exact Except.ok.inj h ▸ .refl t
  | cons given rows ih =>
    obtain ⟨-, h⟩ := require_bind_eq_ok.mp h
    split at h
    · exact ih h
    · obtain ⟨-, h⟩ := require_bind_eq_ok.mp h
      exact (Table.extends_insertRow eval k given t).trans (ih h)

/-- **A statement only adds to the database.** -/
theorem extends_of_exec (hrep : s.Repeatable) (h : exec eval db s = .ok db') :
    db.Extends db' := by
  cases effect_of_exec h with
  | skipTable => exact .refl db
  | newTable hname => exact Database.extends_insert_new _ hname
  | skipIndex => exact .refl db
  | newIndex _ _ hname => exact Database.extends_insert_new _ hname
  | addColumns ht ht' => exact Database.extends_insert_table ht (extends_of_addColumns hrep ht')
  | insert ht _ _ ht' => exact Database.extends_insert_table ht (extends_of_insertRows ht')

end

/-! ## What a statement is to bring about -/

/-- The row given need not name more columns than it does. -/
structure Table.Accepts (t : Table V E) (given : List (String × V)) : Prop where
  names : given.map Prod.fst ⊆ t.names
  notNull : ∀ c ∈ t.columns, c.notNull → (given.lookup c.name).isSome ∨ c.default.isSome

/-- A row of the table has the values given, in all columns of one of the constraints. -/
def Table.Taken (t : Table V E) (us : Finset (Unique V)) (given : List (String × V)) : Prop :=
  ∃ u ∈ us, ∃ row ∈ t.rows, ∀ name ∈ u.columns,
    (given.lookup name).isSome ∧ t.cell row name = given.lookup name

/-- What the statement is to bring about is there. -/
def Statement.Holds (db : Database V E) : Statement V E → Prop
  | .createTable name _ _ => name ∈ db
  | .createIndex name i =>
    name ∈ db ∧ ∃ t, db.lookup i.table = some (.table t) ∧ i.mentions ⊆ t.names
  | .addColumns name columns =>
    ∃ t, db.lookup name = some (.table t) ∧ columns.map Column.name ⊆ t.names
  | .insert name rows conflict =>
    ∃ t, db.lookup name = some (.table t) ∧ (db.arbiters name t conflict).Nonempty ∧
      ∀ given ∈ rows, t.Accepts given ∧ t.Taken (db.arbiters name t conflict) given

section

variable {eval : E → ℕ → V} {db db' : Database V E} {s : Statement V E} {t t' : Table V E}

/-! ## A statement that holds changes nothing -/

theorem addColumns_of_holds {columns : List (Column E)}
    (h : columns.map Column.name ⊆ t.names) : addColumns eval db columns t = .ok t := by
  induction columns with
  | nil => rfl
  | cons c columns ih =>
    obtain ⟨hc, hcs⟩ := List.cons_subset.mp h
    rw [addColumns, if_pos hc]
    exact ih hcs

omit [DecidableEq V] in
/-- The row that is there is in conflict with the row given. -/
theorem clash_newRow {u : Unique V} {k : ℕ} {given : List (String × V)} {row : List (Option V)}
    (hcond : u.cond = none)
    (h : ∀ name ∈ u.columns, (given.lookup name).isSome ∧ t.cell row name = given.lookup name) :
    t.Clash u (t.newRow eval k given) row := by
  constructor
  · intro c hc
    cases hcond.symm.trans hc
  · intro name hname
    obtain ⟨hgiven, hrow⟩ := h name hname
    have hmem : name ∈ t.names := Table.mem_names_of_cell (hrow ▸ hgiven)
    rw [Table.cell_newRow hmem hgiven]
    exact ⟨hgiven, hrow⟩

theorem insertRows_of_holds {uniques arbiters : Finset (Unique V)}
    (hcond : ∀ u ∈ arbiters, u.cond = none) {k : ℕ} {rows : List (List (String × V))}
    (h : ∀ given ∈ rows, t.Accepts given ∧ t.Taken arbiters given) :
    insertRows eval uniques arbiters k rows t = .ok t := by
  induction rows generalizing k with
  | nil => rfl
  | cons given rows ih =>
    rw [List.forall_mem_cons] at h
    obtain ⟨⟨hgiven, u, hu, row, hrow, htaken⟩, hrest⟩ := h
    refine require_bind_eq_ok.mpr ⟨fun c hc hnull => ?_, ?_⟩
    · rw [Column.fill, Option.isSome_or, Option.isSome_map, Bool.or_eq_true]
      exact hgiven.notNull c hc hnull
    · rw [if_pos ⟨u, hu, row, hrow, clash_newRow (hcond u hu) htaken⟩]
      exact ih hrest

theorem Database.cond_of_mem_arbiters {name : String} {conflict : List String} {u : Unique V}
    (h : u ∈ db.arbiters name t conflict) : u.cond = none :=
  (Finset.mem_filter.mp h).2.1

/-- **A statement that holds changes nothing.** -/
theorem exec_of_holds (h : s.Holds db) : exec eval db s = .ok db := by
  have hself : ∀ {name r}, db.lookup name = some r → db.insert name r = db := by
    intro name r hr
    refine Finmap.ext_lookup fun name' => ?_
    by_cases hname : name' = name
    · rw [hname, Finmap.lookup_insert, hr]
    · rw [Finmap.lookup_insert_of_ne db hname]
  cases s with
  | createTable name columns primaryKey => exact if_pos h
  | createIndex name i =>
    obtain ⟨hname, t, ht, hm⟩ := h
    refine bind_eq_ok.mpr ⟨t, Database.table?_eq_ok.mpr ht, require_bind_eq_ok.mpr ⟨hm, ?_⟩⟩
    exact if_pos hname
  | addColumns name columns =>
    obtain ⟨t, ht, hcols⟩ := h
    refine bind_eq_ok.mpr ⟨t, Database.table?_eq_ok.mpr ht, bind_eq_ok.mpr
      ⟨t, addColumns_of_holds hcols, ?_⟩⟩
    exact congrArg Except.ok (hself ht)
  | insert name rows conflict =>
    obtain ⟨t, ht, harbiters, hrows⟩ := h
    refine bind_eq_ok.mpr ⟨t, Database.table?_eq_ok.mpr ht, require_bind_eq_ok.mpr
      ⟨fun given hgiven => (hrows given hgiven).1.names, require_bind_eq_ok.mpr ⟨harbiters, ?_⟩⟩⟩
    refine bind_eq_ok.mpr ⟨t,
      insertRows_of_holds (fun u => Database.cond_of_mem_arbiters) hrows, ?_⟩
    refine require_bind_eq_ok.mpr ⟨fun c _ ref _ x hx => ?_, congrArg Except.ok (hself ht)⟩
    rw [List.drop_length] at hx
    exact absurd hx List.not_mem_nil

/-! ## What holds goes on holding -/

theorem Database.mem_uniques {name : String} {u : Unique V} :
    u ∈ db.uniques name t ↔ u = ⟨t.primaryKey, none⟩ ∨ ∃ k i, db.lookup k = some (.index i) ∧
      i.table = name ∧ i.unique ∧ u = ⟨i.columns.map Prod.fst, i.cond⟩ := by
  simp only [uniques, Finset.mem_union, Finset.mem_singleton, Finset.mem_biUnion, Finmap.mem_keys,
    Option.mem_toFinset]
  refine or_congr_right ⟨?_, ?_⟩
  · rintro ⟨k, -, hu⟩
    unfold constraint at hu
    split at hu
    · rename_i i hi
      obtain ⟨⟨htable, hunique⟩, he⟩ := Option.ite_none_right_eq_some.mp hu
      exact ⟨k, i, hi, htable, hunique, (Option.some.inj he).symm⟩
    · cases hu
    · cases hu
  · rintro ⟨k, i, hi, htable, hunique, rfl⟩
    refine ⟨k, Finmap.mem_iff.mpr ⟨_, hi⟩, ?_⟩
    rw [hi]
    exact if_pos ⟨htable, hunique⟩

theorem Database.Extends.arbiters (name : String) (conflict : List String) (h : db.Extends db')
    (ht : t.Extends t') : db.arbiters name t conflict ⊆ db'.arbiters name t' conflict := by
  refine Finset.filter_subset_filter _ fun u hu => mem_uniques.mpr ?_
  rcases mem_uniques.mp hu with rfl | ⟨k, i, hi, hrest⟩
  · exact Or.inl (by rw [ht.primaryKey])
  · exact Or.inr ⟨k, i, h.index hi, hrest⟩

omit [DecidableEq V] in
theorem Table.Accepts.mono {given : List (String × V)} (h : t.Accepts given)
    (ht : t.Extends t') : t'.Accepts given where
  names := List.Subset.trans h.names ht.names
  notNull := by
    intro c hc hnull
    rcases ht.columns c hc with hc | hc
    · exact h.notNull c hc hnull
    · exact Or.inr (hc hnull)

omit [DecidableEq V] in
theorem Table.Taken.mono {us us' : Finset (Unique V)} {given : List (String × V)}
    (h : t.Taken us given) (ht : t.Extends t') (hus : us ⊆ us') : t'.Taken us' given := by
  obtain ⟨u, hu, row, hrow, htaken⟩ := h
  obtain ⟨row', hrow', hcell⟩ := ht.rows row hrow
  refine ⟨u, hus hu, row', hrow', fun name hname => ?_⟩
  obtain ⟨hgiven, heq⟩ := htaken name hname
  obtain ⟨v, hv⟩ := Option.isSome_iff_exists.mp hgiven
  exact ⟨hgiven, (hcell name v (heq.trans hv)).trans hv.symm⟩

/-- **What holds goes on holding** as the database is added to. -/
theorem Statement.Holds.mono (h : s.Holds db) (hext : db.Extends db') : s.Holds db' := by
  cases s with
  | createTable name columns primaryKey => exact hext.mem h
  | createIndex name i =>
    obtain ⟨hname, t, ht, hm⟩ := h
    obtain ⟨t', ht', hgrow⟩ := hext.table ht
    exact ⟨hext.mem hname, t', ht', List.Subset.trans hm hgrow.names⟩
  | addColumns name columns =>
    obtain ⟨t, ht, hcols⟩ := h
    obtain ⟨t', ht', hgrow⟩ := hext.table ht
    exact ⟨t', ht', List.Subset.trans hcols hgrow.names⟩
  | insert name rows conflict =>
    obtain ⟨t, ht, harbiters, hrows⟩ := h
    obtain ⟨t', ht', hgrow⟩ := hext.table ht
    have harb := hext.arbiters name conflict hgrow
    refine ⟨t', ht', harbiters.mono harb, fun given hgiven => ?_⟩
    exact ⟨(hrows given hgiven).1.mono hgrow, (hrows given hgiven).2.mono hgrow harb⟩

/-! ## What a statement brings about -/

theorem names_of_addColumns {columns : List (Column E)}
    (hrep : ∀ c ∈ columns, c.notNull → c.default.isSome)
    (h : addColumns eval db columns t = .ok t') : columns.map Column.name ⊆ t'.names := by
  induction columns generalizing t with
  | nil => exact List.nil_subset _
  | cons c columns ih =>
    rw [List.forall_mem_cons] at hrep
    rw [List.map_cons, List.cons_subset]
    rw [addColumns] at h
    split at h
    · rename_i hc
      exact ⟨(extends_of_addColumns hrep.2 h).names hc, ih hrep.2 h⟩
    · obtain ⟨-, h⟩ := require_bind_eq_ok.mp h
      obtain ⟨-, h⟩ := require_bind_eq_ok.mp h
      obtain ⟨-, h⟩ := require_bind_eq_ok.mp h
      have hc : c.name ∈ (t.addColumn eval c).names :=
        List.mem_map.mpr ⟨c, List.mem_append_right _ (List.mem_singleton_self c), rfl⟩
      exact ⟨(extends_of_addColumns hrep.2 h).names hc, ih hrep.2 h⟩

/-- What inserting one row brings about, on the way to the rest. -/
theorem insertRows_cons {uniques arbiters : Finset (Unique V)} {k : ℕ}
    {given : List (String × V)} {rows : List (List (String × V))} (hne : arbiters.Nonempty)
    (hnames : given.map Prod.fst ⊆ t.names)
    (hcols : ∀ u ∈ arbiters, u.columns ⊆ given.map Prod.fst)
    (h : insertRows eval uniques arbiters k (given :: rows) t = .ok t') :
    t.Accepts given ∧ ∃ t₁, t.Extends t₁ ∧ t₁.Taken arbiters given ∧
      insertRows eval uniques arbiters (k + 1) rows t₁ = .ok t' := by
  obtain ⟨hnull, h⟩ := require_bind_eq_ok.mp h
  have haccepts : t.Accepts given := by
    refine ⟨hnames, fun c hc hc' => ?_⟩
    have hfill := hnull c hc hc'
    rwa [Column.fill, Option.isSome_or, Option.isSome_map, Bool.or_eq_true] at hfill
  -- the cells in which a conflict is looked for are those given
  have hcell : ∀ u ∈ arbiters, ∀ name ∈ u.columns, (given.lookup name).isSome ∧
      t.cell (t.newRow eval k given) name = given.lookup name := by
    intro u hu name hname
    have hmem := hcols u hu hname
    have hgiven : (given.lookup name).isSome := by
      rw [List.lookup_isSome_iff]
      obtain ⟨e, he, rfl⟩ := List.mem_map.mp hmem
      exact ⟨e, he, beq_self_eq_true _⟩
    exact ⟨hgiven, Table.cell_newRow (hnames hmem) hgiven⟩
  refine ⟨haccepts, ?_⟩
  split at h
  · rename_i hclash
    obtain ⟨u, hu, row, hrow, -, hclash⟩ := hclash
    refine ⟨t, .refl t, ⟨u, hu, row, hrow, fun name hname => ?_⟩, h⟩
    obtain ⟨hgiven, hnew⟩ := hcell u hu name hname
    exact ⟨hgiven, (hclash name hname).2.trans hnew⟩
  · obtain ⟨-, h⟩ := require_bind_eq_ok.mp h
    obtain ⟨u, hu⟩ := hne
    exact ⟨_, Table.extends_insertRow eval k given t,
      ⟨u, hu, _, List.mem_append_right _ (List.mem_singleton_self _), hcell u hu⟩, h⟩

theorem taken_of_insertRows {uniques arbiters : Finset (Unique V)} {k : ℕ}
    {rows : List (List (String × V))} (hne : arbiters.Nonempty)
    (hnames : ∀ given ∈ rows, given.map Prod.fst ⊆ t.names)
    (hcols : ∀ given ∈ rows, ∀ u ∈ arbiters, u.columns ⊆ given.map Prod.fst)
    (h : insertRows eval uniques arbiters k rows t = .ok t') :
    ∀ given ∈ rows, t'.Accepts given ∧ t'.Taken arbiters given := by
  induction rows generalizing t k with
  | nil => exact fun given hgiven => absurd hgiven List.not_mem_nil
  | cons given rows ih =>
    rw [List.forall_mem_cons] at hnames hcols ⊢
    obtain ⟨haccepts, t₁, hgrow, htaken, hrest⟩ := insertRows_cons hne hnames.1 hcols.1 h
    have hgrow' := extends_of_insertRows hrest
    refine ⟨⟨haccepts.mono (hgrow.trans hgrow'), htaken.mono hgrow' (Finset.Subset.refl _)⟩, ?_⟩
    exact ih (fun g hg => List.Subset.trans (hnames.2 g hg) hgrow.names) hcols.2 hrest

/-- **A statement that succeeds holds afterwards.** -/
theorem holds_of_exec (hrep : s.Repeatable) (h : exec eval db s = .ok db') : s.Holds db' := by
  have hext := extends_of_exec hrep h
  have hmem : ∀ {name : String} {r : Relation V E}, name ∈ db.insert name r :=
    Finmap.mem_insert.mpr (Or.inl rfl)
  cases effect_of_exec h with
  | skipTable hname => exact hname
  | newTable => exact hmem
  | skipIndex ht hm hname => exact ⟨hname, _, ht, hm⟩
  | newIndex ht hm =>
    obtain ⟨t', ht', hgrow⟩ := hext.table ht
    exact ⟨hmem, t', ht', List.Subset.trans hm hgrow.names⟩
  | addColumns ht ht' => exact ⟨_, Finmap.lookup_insert db, names_of_addColumns hrep ht'⟩
  | @insert name rows conflict t t' ht hnames harbiters ht' =>
    have hgrow := extends_of_insertRows ht'
    have harb := hext.arbiters name conflict hgrow
    have hcols : ∀ given ∈ rows, ∀ u ∈ db.arbiters name t conflict,
        u.columns ⊆ given.map Prod.fst := fun given hgiven u hu =>
      List.Subset.trans (Finset.mem_filter.mp hu).2.2.1 (hrep given hgiven)
    refine ⟨_, Finmap.lookup_insert db, harbiters.mono harb, fun given hgiven => ?_⟩
    obtain ⟨haccepts, htaken⟩ := taken_of_insertRows harbiters hnames hcols ht' given hgiven
    exact ⟨haccepts, htaken.mono (.refl _) harb⟩

/-! ## Runs -/

theorem run_append (ss ss' : List (Statement V E)) :
    run eval db (ss ++ ss') = run eval db ss >>= fun db' => run eval db' ss' := by
  induction ss generalizing db with
  | nil => rfl
  | cons s ss ih =>
    rw [List.cons_append, run, run, bind_assoc]
    exact bind_congr fun db' => ih

theorem extends_of_run {ss : List (Statement V E)} (hrep : ∀ s ∈ ss, s.Repeatable)
    (h : run eval db ss = .ok db') : db.Extends db' := by
  induction ss generalizing db with
  | nil => exact Except.ok.inj h ▸ .refl db
  | cons s ss ih =>
    rw [List.forall_mem_cons] at hrep
    obtain ⟨db₁, h₁, h⟩ := bind_eq_ok.mp h
    exact (extends_of_exec hrep.1 h₁).trans (ih hrep.2 h)

/-- **After a run all its statements hold.** -/
theorem holds_of_run {ss : List (Statement V E)} (hrep : ∀ s ∈ ss, s.Repeatable)
    (h : run eval db ss = .ok db') : ∀ s ∈ ss, s.Holds db' := by
  induction ss generalizing db with
  | nil => exact fun s hs => absurd hs List.not_mem_nil
  | cons s ss ih =>
    rw [List.forall_mem_cons] at hrep ⊢
    obtain ⟨db₁, h₁, h⟩ := bind_eq_ok.mp h
    exact ⟨(holds_of_exec hrep.1 h₁).mono (extends_of_run hrep.2 h), ih hrep.2 h⟩

theorem run_of_holds {ss : List (Statement V E)} (h : ∀ s ∈ ss, s.Holds db) :
    run eval db ss = .ok db := by
  induction ss with
  | nil => rfl
  | cons s ss ih =>
    rw [List.forall_mem_cons] at h
    exact bind_eq_ok.mpr ⟨db, exec_of_holds h.1, ih h.2⟩

/-- **A run changes nothing exactly when all its statements hold.** -/
theorem run_eq_self_iff {ss : List (Statement V E)} (hrep : ∀ s ∈ ss, s.Repeatable) :
    run eval db ss = .ok db ↔ ∀ s ∈ ss, s.Holds db :=
  ⟨holds_of_run hrep, run_of_holds⟩

/-- **To run the statements again, right after, changes nothing**, whatever the defaults are worth
by then. -/
theorem run_again {ss : List (Statement V E)} (eval' : E → ℕ → V) (hrep : ∀ s ∈ ss, s.Repeatable)
    (h : run eval db ss = .ok db') : run eval' db' ss = .ok db' :=
  run_of_holds (holds_of_run hrep h)

end

end Sql
