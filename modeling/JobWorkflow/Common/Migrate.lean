import JobWorkflow.Common.Migrations
import JobWorkflow.Machinery.Rerun
import JobWorkflow.Machinery.Runs

/-!
# Common/Migrate — the migrations, run at every startup

`common/migrate.py` runs the files in order, in one transaction.  Between two startups the
components call the store and an operator edits `job_type_config`.

* `run_database` — what a run does to a migrated database: it adds the rows of the demo seed whose
  types have none.
* `find?_seeded` — so a config row that is there is kept, and a demo type's that is gone comes back.
* `run_reached` — so, among the databases reached from a migrated one, a run leaves those as they
  are that have the demo types' rows.
-/

namespace JobWorkflow

open Migrations

namespace Migrate

/-- `sorted(MIGRATIONS_DIR.glob("*.sql"))`. -/
def files : List (String × List SqlStatement) :=
  migrationsDir.insertionSort fun a b => a.1 ≤ b.1

/-- The statements, in the order in which they are executed. -/
def statements : List SqlStatement := files.flatMap Prod.snd

/-- One transaction: an error leaves the database as it is. -/
def run (session : Session) (db : SqlDatabase) : Except Sql.Error SqlDatabase :=
  Sql.run session.eval db statements

/-- The statements ahead of the demo seed. -/
def beforeSeed : List SqlStatement :=
  init ++ [.addColumns "job_type_config" configPayloadColumns]

def afterSeed : List SqlStatement := jobInputPayload ++ jobCreator

theorem statements_eq : statements = beforeSeed ++ demoSeed :: afterSeed := by
  have hfiles : files = migrationsDir := by
    refine List.Pairwise.insertionSort_eq ?_
    have hnames : (migrationsDir.map Prod.fst).Pairwise (· ≤ ·) := by decide
    exact List.pairwise_map.mp hnames
  rw [statements, hfiles]
  rfl

theorem repeatable : ∀ s ∈ statements, s.Repeatable := by
  rw [statements_eq]
  decide

/-! ## The schema is there -/

theorem mem_database (d : PostgresStore) :
    ∀ name ∈ ["jobs", "jobs_one_active_per_type", "jobs_status_idx", "jobs_type_created_idx",
      "outbox", "outbox_unpublished", "job_type_config", "jobs_created_by_sub_idx"],
      name ∈ d.database := by
  simp only [← Finmap.lookup_isSome, List.forall_mem_cons]
  exact ⟨rfl, rfl, rfl, rfl, rfl, rfl, rfl, rfl, fun _ h => absurd h List.not_mem_nil⟩

/-- An index on `jobs`. -/
theorem holds_createIndex {d : PostgresStore} {name : String} {i : Sql.Index SqlValue}
    (hname : name ∈ d.database) (ht : i.table = "jobs")
    (hm : i.mentions ⊆ allJobsColumns.map Sql.Column.name) :
    (Sql.Statement.createIndex name i : SqlStatement).Holds d.database :=
  ⟨hname, d.jobsTable, ht ▸ d.lookup_jobs, hm⟩

/-- Columns of `jobs`. -/
theorem holds_addColumns (d : PostgresStore) {columns : List SqlColumn}
    (h : columns.map Sql.Column.name ⊆ allJobsColumns.map Sql.Column.name) :
    (Sql.Statement.addColumns "jobs" columns : SqlStatement).Holds d.database :=
  ⟨d.jobsTable, d.lookup_jobs, h⟩

theorem holds_beforeSeed (d : PostgresStore) : ∀ s ∈ beforeSeed, s.Holds d.database := by
  have hmem := mem_database d
  have houtbox : outboxUnpublished.mentions ⊆ outboxColumns.map Sql.Column.name := by decide
  have hconfig : configPayloadColumns.map Sql.Column.name ⊆
      allConfigColumns.map Sql.Column.name := by decide
  simp only [beforeSeed, init, List.cons_append, List.nil_append, List.forall_mem_cons]
  exact ⟨hmem _ (by decide),
    holds_createIndex (hmem _ (by decide)) rfl (by decide),
    holds_createIndex (hmem _ (by decide)) rfl (by decide),
    holds_createIndex (hmem _ (by decide)) rfl (by decide),
    hmem _ (by decide),
    ⟨hmem _ (by decide), d.outboxTable, rfl, houtbox⟩,
    hmem _ (by decide),
    ⟨_, d.lookup_job_type_config, hconfig⟩,
    fun _ h => absurd h List.not_mem_nil⟩

theorem holds_afterSeed (d : PostgresStore) : ∀ s ∈ afterSeed, s.Holds d.database := by
  simp only [afterSeed, jobInputPayload, jobCreator, List.cons_append, List.nil_append,
    List.forall_mem_cons]
  exact ⟨holds_addColumns d (by decide),
    holds_addColumns d (by decide),
    holds_createIndex (mem_database d _ (by decide)) rfl (by decide),
    fun _ h => absurd h List.not_mem_nil⟩

/-! ## The demo seed -/

/-- The types that are seeded. -/
def demoTypes : List String := ["hello", "boom"]

/-- Each of the demo types has a config row. -/
def Seeded (d : PostgresStore) : Prop :=
  ∀ t ∈ demoTypes, t ∈ d.jobTypeConfig.rows.map ConfigRow.jobType

instance (d : PostgresStore) : Decidable (Seeded d) :=
  inferInstanceAs (Decidable (∀ t ∈ demoTypes, t ∈ d.jobTypeConfig.rows.map ConfigRow.jobType))

theorem cell_configTable (rows : List ConfigRow) (r : ConfigRow) :
    (configTable rows).cell r.cells "job_type" = some (.text r.jobType) :=
  rfl

/-- `job_type_config` has one unique constraint, its primary key. -/
theorem uniques_configTable (d : PostgresStore) (rows : List ConfigRow) :
    d.database.uniques "job_type_config" (configTable rows) = {⟨["job_type"], none⟩} := by
  ext u
  rw [Sql.Database.mem_uniques, Finset.mem_singleton]
  refine or_iff_left ?_
  rintro ⟨k, i, hi, htable, -⟩
  rw [PostgresStore.database, Finmap.dlookup_list_toFinmap] at hi
  have hmem := List.of_mem_dlookup hi
  simp only [List.mem_cons, List.not_mem_nil, or_false, Sigma.mk.injEq, heq_eq_eq,
    Sql.Relation.index.injEq, reduceCtorEq, and_false, false_or] at hmem
  rcases hmem with ⟨-, rfl⟩ | ⟨-, rfl⟩ | ⟨-, rfl⟩ | ⟨-, rfl⟩ | ⟨-, rfl⟩
  all_goals exact absurd htable (by decide)

theorem arbiters_configTable (d : PostgresStore) (rows : List ConfigRow) :
    d.database.arbiters "job_type_config" (configTable rows) ["job_type"] =
      {⟨["job_type"], none⟩} := by
  rw [Sql.Database.arbiters, uniques_configTable]
  decide

/-- A row to seed is there if its type has a row. -/
theorem taken_iff {rows : List ConfigRow} {given : List (String × SqlValue)} {t : String}
    (hgiven : given.lookup "job_type" = some (.text t)) :
    (configTable rows).Taken {⟨["job_type"], none⟩} given ↔ t ∈ rows.map ConfigRow.jobType := by
  rw [List.mem_map]
  constructor
  · rintro ⟨u, hu, row, hrow, htaken⟩
    obtain ⟨r, hr, rfl⟩ := List.mem_map.mp hrow
    rw [Finset.mem_singleton.mp hu] at htaken
    have hcell := (htaken _ (List.mem_singleton_self _)).2
    rw [cell_configTable, hgiven] at hcell
    exact ⟨r, hr, SqlValue.text.inj (Option.some.inj hcell)⟩
  · rintro ⟨r, hr, rfl⟩
    refine ⟨_, Finset.mem_singleton_self _, r.cells, List.mem_map.mpr ⟨r, hr, rfl⟩, ?_⟩
    intro name hname
    rw [List.mem_singleton.mp hname, hgiven, cell_configTable]
    exact ⟨rfl, rfl⟩

theorem accepts_demoSeed (rows : List ConfigRow) :
    ∀ given ∈ demoSeedValues, (configTable rows).Accepts given := by
  have hnames : ∀ given ∈ demoSeedValues,
      given.map Prod.fst ⊆ allConfigColumns.map Sql.Column.name := by decide
  have hnull : ∀ given ∈ demoSeedValues, ∀ c ∈ allConfigColumns,
      c.notNull → (given.lookup c.name).isSome ∨ c.default.isSome := by decide
  exact fun given h => ⟨hnames given h, hnull given h⟩

theorem holds_demoSeed_iff (d : PostgresStore) : demoSeed.Holds d.database ↔ Seeded d := by
  have htaken : (∀ given ∈ demoSeedValues,
      (configTable d.jobTypeConfig.rows).Taken {⟨["job_type"], none⟩} given) ↔ Seeded d := by
    simp only [demoSeedValues, Seeded, demoTypes, List.forall_mem_cons]
    exact and_congr (taken_iff rfl) (and_congr (taken_iff rfl) (by simp))
  have harbiters := arbiters_configTable d d.jobTypeConfig.rows
  constructor
  · rintro ⟨t, ht, -, hrows⟩
    obtain rfl : configTable d.jobTypeConfig.rows = t :=
      Sql.Relation.table.inj (Option.some.inj (d.lookup_job_type_config.symm.trans ht))
    exact htaken.mp fun given h => harbiters ▸ (hrows given h).2
  · intro h
    refine ⟨_, d.lookup_job_type_config, ?_, fun given hgiven =>
      ⟨accepts_demoSeed _ given hgiven, ?_⟩⟩
    · exact harbiters ▸ Finset.singleton_nonempty _
    · exact harbiters ▸ htaken.mpr h given hgiven

/-- **To migrate changes nothing exactly when the demo types have their rows.** -/
theorem run_eq_self_iff (session : Session) (d : PostgresStore) :
    run session d.database = .ok d.database ↔ Seeded d := by
  rw [run, Sql.run_eq_self_iff repeatable, statements_eq, List.forall_mem_append,
    List.forall_mem_cons, holds_demoSeed_iff]
  constructor
  · exact fun h => h.2.1
  · exact fun h => ⟨holds_beforeSeed d, h, holds_afterSeed d⟩

/-! ## What a run adds -/

/-- The rows of the demo seed, as the defaults complete them. -/
def demoRows : List ConfigRow :=
  [⟨"hello", 15 * 60 * 1000000, 3, helloPayload⟩, ⟨"boom", 15 * 60 * 1000000, 3, .object ∅⟩]

/-- `INSERT … ON CONFLICT DO NOTHING` of the rows. -/
def insertAll (config : Table configSchema) (rows : List ConfigRow) : Table configSchema :=
  rows.foldl (fun config row => (config.insert row).2) config

/-- The store with the demo seed. -/
def seeded (d : PostgresStore) : PostgresStore :=
  { d with jobTypeConfig := insertAll d.jobTypeConfig demoRows }

/-- The store of a database that nothing has been put in. -/
def empty : PostgresStore := ⟨∅, ∅, ∅, 1, 1⟩

/-- **The migrations build the database of an empty store**, with the demo seed. -/
theorem run_empty (session : Session) : run session ∅ = .ok (seeded empty).database := by
  rw [run, statements_eq]
  rfl

theorem clash_iff (rows : List ConfigRow) (r r' : ConfigRow) :
    (configTable rows).Clash ⟨["job_type"], none⟩ r.cells r'.cells ↔ r'.jobType = r.jobType := by
  rw [Sql.Table.Clash]
  simp [cell_configTable]

theorem isSome_cells (r : ConfigRow) : ∀ x ∈ r.cells, x.isSome := by
  simp [ConfigRow.cells]

/-- A row conflicts exactly if it does not fit. -/
theorem clash_iff_not_fits {config : Table configSchema} {r : ConfigRow} :
    (∃ u ∈ ({⟨["job_type"], none⟩} : Finset (Sql.Unique SqlValue)),
      ∃ row' ∈ (configTable config.rows).rows,
        (configTable config.rows).Clash u r.cells row') ↔ ¬ config.Fits r := by
  rw [Table.fits_of_index_none rfl, not_not, List.mem_map]
  constructor
  · rintro ⟨u, hu, row', hrow', hclash⟩
    obtain ⟨r', hr', rfl⟩ := List.mem_map.mp hrow'
    rw [Finset.mem_singleton.mp hu] at hclash
    exact ⟨r', hr', (clash_iff config.rows r r').mp hclash⟩
  · rintro ⟨r', hr', hkey⟩
    exact ⟨_, Finset.mem_singleton_self _, r'.cells, List.mem_map.mpr ⟨r', hr', rfl⟩,
      (clash_iff config.rows r r').mpr hkey⟩

theorem insertRow_configTable {session : Session} {k : ℕ} {given : List (String × SqlValue)}
    {config : Table configSchema} {r : ConfigRow} (hfits : config.Fits r)
    (hcells : allConfigColumns.map (fun c => c.fill session.eval k given) = r.cells) :
    (configTable config.rows).insertRow session.eval k given =
      configTable (config.append r hfits).rows := by
  refine Sql.Table.ext rfl rfl ?_
  change config.rows.map ConfigRow.cells ++ [allConfigColumns.map _] =
    (config.rows ++ [r]).map ConfigRow.cells
  rw [hcells, List.map_append]
  rfl

/-- Inserting the rows given is inserting the rows they are completed to. -/
theorem insertRows_configTable {session : Session} {given : List (List (String × SqlValue))}
    {rows : List ConfigRow}
    (h : List.Forall₂ (fun g r => ∀ k, allConfigColumns.map (fun c => c.fill session.eval k g) =
      r.cells) given rows) (k : ℕ) (config : Table configSchema) :
    Sql.insertRows session.eval {⟨["job_type"], none⟩} {⟨["job_type"], none⟩} k given
      (configTable config.rows) = .ok (configTable (insertAll config rows).rows) := by
  induction h generalizing k config with
  | nil => rfl
  | @cons g r given rows hcells _ ih =>
    have hnew : (configTable config.rows).newRow session.eval k g = r.cells := hcells k
    refine Sql.require_bind_eq_ok.mpr ⟨fun c hc _ => ?_, ?_⟩
    · have hmem : c.fill session.eval k g ∈ r.cells := hcells k ▸ List.mem_map.mpr ⟨c, hc, rfl⟩
      exact isSome_cells r _ hmem
    rw [hnew, insertAll, List.foldl_cons, ← insertAll]
    by_cases hfits : config.Fits r
    · rw [if_neg fun h => clash_iff_not_fits.mp h hfits, Table.insert_of_fits hfits]
      refine Sql.require_bind_eq_ok.mpr ⟨fun u hu row' hrow' h => ?_, ?_⟩
      · exact clash_iff_not_fits.mp ⟨u, hu, row', hrow', h⟩ hfits
      · rw [insertRow_configTable hfits (hcells k), ih]
    · rw [if_pos (clash_iff_not_fits.mpr hfits), Table.insert_of_not_fits hfits, ih]

/-- Another `job_type_config`, the rest being the same. -/
theorem insert_configTable (d : PostgresStore) (config : Table configSchema) :
    d.database.insert "job_type_config" (.table (configTable config.rows)) =
      ({ d with jobTypeConfig := config } : PostgresStore).database := by
  refine Finmap.ext_lookup fun name => ?_
  by_cases hname : name = "job_type_config"
  · subst hname
    rw [Finmap.lookup_insert]
    rfl
  · have hrest : ∀ before later : List (Σ _ : String, Sql.Relation SqlValue SqlDefault), ∀ r r',
        (before ++ ⟨"job_type_config", r⟩ :: later).dlookup name =
          (before ++ ⟨"job_type_config", r'⟩ :: later).dlookup name := by
      intro before later r r'
      rw [List.dlookup_append, List.dlookup_append, List.dlookup_cons_ne _ _ hname,
        List.dlookup_cons_ne _ _ hname]
    rw [Finmap.lookup_insert_of_ne _ hname, PostgresStore.database, PostgresStore.database,
      Finmap.dlookup_list_toFinmap, Finmap.dlookup_list_toFinmap]
    exact hrest [_, _] _ _ _

theorem exec_demoSeed (session : Session) (d : PostgresStore) :
    Sql.exec session.eval d.database demoSeed = .ok (seeded d).database := by
  have hcells : List.Forall₂ (fun g r => ∀ k, allConfigColumns.map (fun c =>
      c.fill session.eval k g) = ConfigRow.cells r) demoSeedValues demoRows :=
    .cons (fun _ => rfl) (.cons (fun _ => rfl) .nil)
  have hreferences : ∀ c ∈ allConfigColumns, c.references = none := by decide
  have harbiters := arbiters_configTable d d.jobTypeConfig.rows
  refine Sql.bind_eq_ok.mpr ⟨_, Sql.Database.table?_eq_ok.mpr d.lookup_job_type_config, ?_⟩
  refine Sql.require_bind_eq_ok.mpr ⟨fun given h => (accepts_demoSeed _ given h).names, ?_⟩
  refine Sql.require_bind_eq_ok.mpr ⟨harbiters ▸ Finset.singleton_nonempty _, ?_⟩
  refine Sql.bind_eq_ok.mpr ⟨configTable (seeded d).jobTypeConfig.rows, ?_, ?_⟩
  · rw [uniques_configTable, harbiters]
    exact insertRows_configTable hcells 0 d.jobTypeConfig
  · refine Sql.require_bind_eq_ok.mpr ⟨fun c hc ref href => ?_, ?_⟩
    · rw [hreferences c hc] at href
      cases href
    · exact congrArg Except.ok (insert_configTable d _)

/-- **What a run does to a migrated database**: it adds the rows of the demo seed whose types have
none. -/
theorem run_database (session : Session) (d : PostgresStore) :
    run session d.database = .ok (seeded d).database := by
  rw [run, statements_eq, Sql.run_append]
  refine Sql.bind_eq_ok.mpr ⟨d.database, Sql.run_of_holds (holds_beforeSeed d), ?_⟩
  rw [Sql.run]
  exact Sql.bind_eq_ok.mpr
    ⟨_, exec_demoSeed session d, Sql.run_of_holds (holds_afterSeed (seeded d))⟩

/-- **A config row that is there is kept; a demo type's that is not comes back**, and no other type
is given one. -/
theorem find?_seeded (d : PostgresStore) (t : String) :
    (seeded d).jobTypeConfig.find? t =
      (d.jobTypeConfig.find? t).or (demoRows.find? fun r => r.jobType = t) := by
  have hinsert : ∀ (rows : List ConfigRow) (config : Table configSchema),
      (insertAll config rows).find? t =
        (config.find? t).or (rows.find? fun r => r.jobType = t) := by
    intro rows
    induction rows with
    | nil => exact fun config => Option.or_none.symm
    | cons r rows ih =>
      intro config
      rw [insertAll, List.foldl_cons, ← insertAll, ih, Table.find?_insert rfl, Option.or_assoc]
      by_cases hkey : r.jobType = t
      · rw [List.find?_cons_of_pos (by simpa using hkey), if_pos (by exact hkey)]
        rfl
      · rw [List.find?_cons_of_neg (by simpa using hkey), if_neg (by exact hkey)]
        rfl
  exact hinsert demoRows d.jobTypeConfig

/-! ## Between two startups -/

/-- A call of a component, or a statement of the operator's on `job_type_config`; an upsert is an
update or an insert. -/
inductive Act
  | call (c : Call)
  | insertConfig (row : ConfigRow)
  | updateConfig (assign : ConfigRow → Option ConfigRow)
  | deleteConfig (p : ConfigRow → Bool)

/-- A statement that would give two rows one key is refused. -/
def step [ColumnTypes] (d : PostgresStore) : Act → Option PostgresStore
  | .call c => some (d.exec c).2
  | .insertConfig row =>
    (d.jobTypeConfig.insert? row).map fun config => { d with jobTypeConfig := config }
  | .updateConfig assign =>
    (d.jobTypeConfig.update? assign).map fun config => { d with jobTypeConfig := config }
  | .deleteConfig p => some { d with jobTypeConfig := d.jobTypeConfig.delete p }

/-- The step takes no demo type's row away: a delete selects none of them, and an update that gives
no two rows one key gives some row each demo type's. -/
def Spares (d : PostgresStore) : Act → Prop
  | .call _ => True
  | .insertConfig _ => True
  | .updateConfig assign =>
    let types := d.jobTypeConfig.rows.map fun r => (Table.after assign r).jobType
    types.Nodup → ∀ t ∈ demoTypes, t ∈ types
  | .deleteConfig p => ∀ r ∈ d.jobTypeConfig.rows, r.jobType ∈ demoTypes → p r = false

instance (d : PostgresStore) : ∀ a : Act, Decidable (Spares d a)
  | .call _ => inferInstanceAs (Decidable True)
  | .insertConfig _ => inferInstanceAs (Decidable True)
  | .updateConfig assign =>
    inferInstanceAs (Decidable
      ((d.jobTypeConfig.rows.map fun r => (Table.after assign r).jobType).Nodup →
        ∀ t ∈ demoTypes, t ∈ d.jobTypeConfig.rows.map fun r => (Table.after assign r).jobType))
  | .deleteConfig p =>
    inferInstanceAs (Decidable (∀ r ∈ d.jobTypeConfig.rows, r.jobType ∈ demoTypes → p r = false))

/-- An update is refused exactly if it gives two rows one key. -/
theorem update?_isSome_iff (d : PostgresStore) (assign : ConfigRow → Option ConfigRow) :
    (d.jobTypeConfig.update? assign).isSome ↔
      (d.jobTypeConfig.rows.map fun r => (Table.after assign r).jobType).Nodup := by
  rw [Option.isSome_iff_exists]
  constructor
  · rintro ⟨config, hconfig⟩
    have hnodup := config.nodup_key
    rwa [Table.update?_eq_some.mp hconfig, List.map_map] at hnodup
  · intro h
    refine ⟨⟨d.jobTypeConfig.rows.map (Table.after assign), ?_, ?_⟩, Table.update?_eq_some.mpr rfl⟩
    · rwa [List.map_map]
    · rw [List.filterMap_eq_nil_iff.mpr fun r _ => configSchema_index r]
      exact List.nodup_nil

theorem jobTypeConfig_insertJob [ColumnTypes] (d : PostgresStore) (t : String)
    (p : Option Document) (cr : Option Creator) (now : Time) :
    (d.insertJob t p cr now).2.jobTypeConfig = d.jobTypeConfig := by
  simp only [PostgresStore.insertJob]
  split <;> rfl

/-- No call takes a config row away. -/
theorem mem_types_exec [ColumnTypes] {d : PostgresStore} {t : String} (c : Call)
    (h : t ∈ d.jobTypeConfig.rows.map ConfigRow.jobType) :
    t ∈ (d.exec c).2.jobTypeConfig.rows.map ConfigRow.jobType := by
  cases c with
  | enqueue t' p cr now now' =>
    rcases d.exec_enqueue t' p cr now now' with ⟨-, he⟩ | ⟨-, he⟩
    · rwa [he]
    · rw [he]
      change t ∈ (d.insertJob t' p cr now).2.jobTypeConfig.rows.map _
      rwa [jobTypeConfig_insertJob]
  | fetchUnpublished limit => rwa [PostgresStore.exec_fetchUnpublished]
  | requeueStuck i now =>
    change t ∈ (d.requeueStuck i now).2.jobTypeConfig.rows.map _
    rwa [PostgresStore.requeueStuck_jobTypeConfig]
  | setTypeConfig t' timeout cap p =>
    rcases d.exec_setTypeConfig t' timeout cap p with ⟨-, he⟩ | ⟨-, he⟩
    · rwa [he]
    rw [he]
    obtain ⟨r, hr, rfl⟩ := List.mem_map.mp h
    let row : ConfigRow := ⟨t', timeout, cap, .object (p.getD ∅)⟩
    have hupsert : ∀ r', r' ∈ (d.jobTypeConfig.upsert row (configSchema_index row)).rows ↔
        r' = row ∨ r' ∈ d.jobTypeConfig.rows ∧ r'.jobType ≠ t' := fun _ => Table.mem_upsert
    by_cases hkey : r.jobType = t'
    · exact List.mem_map.mpr ⟨row, (hupsert row).mpr (Or.inl rfl), hkey.symm⟩
    · exact List.mem_map.mpr ⟨r, (hupsert r).mpr (Or.inr ⟨hr, hkey⟩), rfl⟩
  | markDispatched o i now => exact h
  | claim i now => exact h
  | resolvePayload i t' now => exact h
  | complete i now => exact h
  | fail i now => exact h
  | findStuck now => exact h
  | deadLetter i now => exact h
  | getJob i => exact h

/-- A step keeps the demo types' rows exactly if it takes none away. -/
theorem seeded_step_iff [ColumnTypes] {d d' : PostgresStore} {a : Act} (h : Seeded d)
    (hs : step d a = some d') : Seeded d' ↔ Spares d a := by
  cases a with
  | call c =>
    obtain rfl := Option.some.inj hs
    exact iff_of_true (fun t ht => mem_types_exec c (h t ht)) trivial
  | insertConfig row =>
    obtain ⟨config, hconfig, rfl⟩ := Option.map_eq_some_iff.mp hs
    refine iff_of_true (fun t ht => ?_) trivial
    rw [Table.insert?_eq_some hconfig, List.map_append]
    exact List.mem_append_left _ (h t ht)
  | updateConfig assign =>
    obtain ⟨config, hconfig, rfl⟩ := Option.map_eq_some_iff.mp hs
    have htypes : config.rows.map ConfigRow.jobType =
        d.jobTypeConfig.rows.map fun r => (Table.after assign r).jobType := by
      rw [Table.update?_eq_some.mp hconfig, List.map_map]
      rfl
    have hnodup := (update?_isSome_iff d assign).mp (Option.isSome_of_eq_some hconfig)
    change (∀ t ∈ demoTypes, t ∈ config.rows.map ConfigRow.jobType) ↔ _
    rw [htypes]
    exact ⟨fun h' _ => h', fun hspares => hspares hnodup⟩
  | deleteConfig p =>
    obtain rfl := Option.some.inj hs
    have hkey : ∀ r ∈ d.jobTypeConfig.rows,
        (r.jobType ∈ (d.jobTypeConfig.delete p).rows.map ConfigRow.jobType ↔ p r = false) :=
      fun r hr => Table.key_mem_delete_iff hr
    constructor
    · exact fun h' r hr ht => (hkey r hr).mp (h' _ ht)
    · intro hspares t ht
      obtain ⟨r, hr, rfl⟩ := List.mem_map.mp (h t ht)
      exact (hkey r hr).mpr (hspares r hr ht)

/-- A statement that is refused takes nothing away. -/
theorem spares_of_refused [ColumnTypes] {d : PostgresStore} {a : Act} (h : step d a = none) :
    Spares d a := by
  cases a with
  | call c => trivial
  | insertConfig row => trivial
  | updateConfig assign =>
    intro hnodup
    have hsome := (update?_isSome_iff d assign).mpr hnodup
    rw [Option.map_eq_none_iff.mp h] at hsome
    cases hsome
  | deleteConfig p => cases h

/-- A migrated database has the demo types' rows. -/
theorem seeded_of_run {session : Session} {db : SqlDatabase} {d : PostgresStore}
    (h : run session db = .ok d.database) : Seeded d :=
  (run_eq_self_iff session d).mp (Sql.run_again session.eval repeatable h)

/-- **Running the migrations again.**  Of the databases reached from a migrated one, those are left
as they are that have the demo types' rows; and all are along a run exactly if no step of it takes
one of these rows away. -/
theorem run_reached [ColumnTypes] {session₀ : Session} {db₀ : SqlDatabase} {d₀ : PostgresStore}
    (h₀ : run session₀ db₀ = .ok d₀.database) :
    (∀ d, Runs.Reachable step d₀ d →
      ((∀ session, run session d.database = .ok d.database) ↔ Seeded d)) ∧
    ∀ as, (∀ bs, bs <+: as → ∀ d ∈ Runs.run step d₀ bs,
      ∀ session, run session d.database = .ok d.database) ↔ Runs.Along step Spares d₀ as := by
  have hself : ∀ d : PostgresStore,
      (∀ session, run session d.database = .ok d.database) ↔ Seeded d := fun d =>
    ⟨fun h => (run_eq_self_iff ⟨0, fun _ => 0⟩ d).mp (h _),
      fun h session => (run_eq_self_iff session d).mpr h⟩
  refine ⟨fun d _ => hself d, fun as => ?_⟩
  simp only [hself]
  exact Runs.prefixes_iff_along (I := fun _ => True) (P := Seeded) (fun _ _ _ _ _ => trivial)
    (fun d a d' _ h hs => seeded_step_iff h hs) (fun d a hs => spares_of_refused hs) as d₀ trivial
    (seeded_of_run h₀)

attribute [local instance] ColumnTypes.nulFree

/-- A config is changed, a type is given one and runs a job, and the type is removed again. -/
def edits : List Act :=
  [.updateConfig fun r => if r.jobType = "hello" then some { r with maxAttempts := 5 } else none,
    .insertConfig ⟨"report", 60, 1, .object ∅⟩, .call (.enqueue "report" none none 0 0),
    .call (.claim 1 1), .call (.resolvePayload 1 "report" 2), .call (.complete 1 3),
    .deleteConfig fun r => r.jobType = "report"]

theorem run_reached_edits :
    ∃ d, Runs.run step (seeded empty) edits = some d ∧
      (d.jobTypeConfig.find? "hello").map ConfigRow.maxAttempts = some 5 ∧
      d.jobTypeConfig.find? "report" = none ∧ d.jobs.rows.map JobRow.status = [.completed] ∧
      ∀ session, run session d.database = .ok d.database := by
  have hmigrated : run ⟨0, fun _ => 0⟩ ∅ = .ok (seeded empty).database := run_empty _
  have hspares : Runs.Along step Spares (seeded empty) edits := by decide
  refine ⟨_, rfl, by decide, by decide, by decide, ?_⟩
  exact ((run_reached hmigrated).2 edits).mpr hspares edits (List.prefix_refl _) _ rfl

/-- The operator removes `boom`; the next startup puts its row back. -/
theorem run_restores_boom :
    let session : Session := ⟨0, fun _ => 0⟩
    let removed : PostgresStore :=
      { empty with
        jobTypeConfig := (insertAll ∅ demoRows).delete fun r => r.jobType = "boom" }
    run session ∅ = .ok (seeded empty).database ∧
    Runs.run step (seeded empty) [.deleteConfig fun r => r.jobType = "boom"] = some removed ∧
    removed.jobTypeConfig.find? "boom" = none ∧
    run session removed.database ≠ .ok removed.database ∧
    run session removed.database = .ok (seeded removed).database ∧
    ((seeded removed).jobTypeConfig.find? "boom").map ConfigRow.payload = some (.object ∅) := by
  intro session removed
  have hgone : ¬ Seeded removed := by decide
  refine ⟨run_empty session, rfl, by decide, ?_, run_database session removed, by decide⟩
  exact fun h => hgone ((run_eq_self_iff session removed).mp h)

end Migrate

end JobWorkflow
