import JobWorkflow.Common.Db
import JobWorkflow.Machinery.Sql

/-!
# Common/Migrations — the files of `migrations/`, and the database they build

The statements of each file, under its name, and the database that a `PostgresStore` stands for: the
tables and indexes the migrations leave, with the store's rows.  An identity sequence is no relation
here.
-/

namespace JobWorkflow

/-! ## Values -/

/-- The values of the migrations' columns. -/
inductive SqlValue
  | int (n : ℤ)
  | text (s : String)
  | jsonb (d : Document)
  | timestamptz (t : Time)
  | interval (d : Duration)
deriving DecidableEq

/-- The default of a column: a literal, `now()`, or the next value of an identity column. -/
inductive SqlDefault
  | literal (v : SqlValue)
  | now
  | identity
deriving DecidableEq

/-- What a transaction reads beside the tables. -/
structure Session where
  now : Time
  nextval : ℕ → ℤ

def Session.eval (session : Session) : SqlDefault → ℕ → SqlValue
  | .literal v, _ => v
  | .now, _ => .timestamptz session.now
  | .identity, k => .int (session.nextval k)

abbrev SqlColumn := Sql.Column SqlDefault

abbrev SqlStatement := Sql.Statement SqlValue SqlDefault

abbrev SqlDatabase := Sql.Database SqlValue SqlDefault

/-- `'{}'::jsonb`. -/
def emptyObject : SqlValue := .jsonb (.object ∅)

namespace Migrations

/-! ## `001_init.sql` -/

def jobsColumns : List SqlColumn :=
  [{ name := "id", type := .bigint, default := some .identity },
    { name := "job_type", type := .text, notNull := true },
    { name := "status", type := .text, notNull := true
      default := some (.literal (.text "queued")) },
    { name := "payload", type := .jsonb, notNull := true
      default := some (.literal emptyObject) },
    { name := "attempts", type := .int, notNull := true, default := some (.literal (.int 0)) },
    { name := "created_at", type := .timestamptz, notNull := true, default := some .now },
    { name := "updated_at", type := .timestamptz, notNull := true, default := some .now }]

def jobsOneActivePerType : Sql.Index SqlValue where
  table := "jobs"
  columns := [("job_type", .asc)]
  unique := true
  cond := some (.isIn "status" [.text "queued", .text "dispatched", .text "running"])

def jobsStatusIdx : Sql.Index SqlValue where
  table := "jobs"
  columns := [("status", .asc)]

def jobsTypeCreatedIdx : Sql.Index SqlValue where
  table := "jobs"
  columns := [("job_type", .asc), ("created_at", .desc)]

def outboxColumns : List SqlColumn :=
  [{ name := "id", type := .bigint, default := some .identity },
    { name := "job_id", type := .bigint, notNull := true, references := some ("jobs", "id") },
    { name := "payload", type := .jsonb, notNull := true },
    { name := "published_at", type := .timestamptz }]

def outboxUnpublished : Sql.Index SqlValue where
  table := "outbox"
  columns := [("id", .asc)]
  cond := some (.isNull "published_at")

/-- The timeout is 15 minutes. -/
def jobTypeConfigColumns : List SqlColumn :=
  [{ name := "job_type", type := .text },
    { name := "run_timeout", type := .interval, notNull := true
      default := some (.literal (.interval (15 * 60 * 1000000))) },
    { name := "max_attempts", type := .int, notNull := true
      default := some (.literal (.int 3)) }]

def init : List SqlStatement :=
  [.createTable "jobs" jobsColumns ["id"],
    .createIndex "jobs_one_active_per_type" jobsOneActivePerType,
    .createIndex "jobs_status_idx" jobsStatusIdx,
    .createIndex "jobs_type_created_idx" jobsTypeCreatedIdx,
    .createTable "outbox" outboxColumns ["id"],
    .createIndex "outbox_unpublished" outboxUnpublished,
    .createTable "job_type_config" jobTypeConfigColumns ["job_type"]]

/-! ## `002_config_payload.sql` -/

def configPayloadColumns : List SqlColumn :=
  [{ name := "payload", type := .jsonb, notNull := true, default := some (.literal emptyObject) }]

/-- `'{"name": "Ada"}'::jsonb`. -/
def helloPayload : Document := .object (Finmap.singleton "name" (.scalar (.str "Ada")))

def demoSeedValues : List (List (String × SqlValue)) :=
  [[("job_type", .text "hello"), ("payload", .jsonb helloPayload)],
    [("job_type", .text "boom"), ("payload", emptyObject)]]

/-- The demo seed. -/
def demoSeed : SqlStatement := .insert "job_type_config" demoSeedValues ["job_type"]

def configPayload : List SqlStatement :=
  [.addColumns "job_type_config" configPayloadColumns, demoSeed]

/-! ## `003_job_input_payload.sql` -/

def inputPayloadColumns : List SqlColumn :=
  [{ name := "input_payload", type := .jsonb, notNull := true
     default := some (.literal emptyObject) }]

def jobInputPayload : List SqlStatement := [.addColumns "jobs" inputPayloadColumns]

/-! ## `004_job_creator.sql` -/

def createdByColumns : List SqlColumn :=
  [{ name := "created_by_sub", type := .text },
    { name := "created_by_type", type := .text },
    { name := "created_by_client", type := .text }]

def jobsCreatedBySubIdx : Sql.Index SqlValue where
  table := "jobs"
  columns := [("created_by_sub", .asc)]

def jobCreator : List SqlStatement :=
  [.addColumns "jobs" createdByColumns,
    .createIndex "jobs_created_by_sub_idx" jobsCreatedBySubIdx]

/-! ## The files -/

/-- `MIGRATIONS_DIR`. -/
def migrationsDir : List (String × List SqlStatement) :=
  [("001_init.sql", init), ("002_config_payload.sql", configPayload),
    ("003_job_input_payload.sql", jobInputPayload), ("004_job_creator.sql", jobCreator)]

end Migrations

/-! ## The database of a store -/

/-- The values of `JobStatus`. -/
def JobStatus.value : JobStatus → String
  | queued => "queued"
  | dispatched => "dispatched"
  | running => "running"
  | completed => "completed"
  | failed => "failed"

/-- An envelope as it is kept in the outbox. -/
def Envelope.toDocument (e : Envelope) : Document :=
  .object ([⟨"job_id", .scalar (.num e.jobId)⟩, ⟨"job_type", .scalar (.str e.jobType)⟩] :
    List (Σ _ : String, Json)).toFinmap

open Migrations

def JobRow.cells (r : JobRow) : List (Option SqlValue) :=
  [some (.int r.id), some (.text r.jobType), some (.text r.status.value), some (.jsonb r.payload),
    some (.int r.attempts), some (.timestamptz r.createdAt), some (.timestamptz r.updatedAt),
    some (.jsonb r.inputPayload), r.createdBySub.map .text, r.createdByType.map .text,
    r.createdByClient.map .text]

def OutboxRow.cells (r : OutboxRow) : List (Option SqlValue) :=
  [some (.int r.id), some (.int r.jobId), some (.jsonb r.payload.toDocument),
    r.publishedAt.map .timestamptz]

def ConfigRow.cells (r : ConfigRow) : List (Option SqlValue) :=
  [some (.text r.jobType), some (.interval r.runTimeout), some (.int r.maxAttempts),
    some (.jsonb r.payload)]

/-- The columns of `jobs`, in the order in which the migrations add them. -/
def allJobsColumns : List SqlColumn :=
  Sql.createdColumns jobsColumns ["id"] ++ inputPayloadColumns ++ createdByColumns

def allConfigColumns : List SqlColumn :=
  Sql.createdColumns jobTypeConfigColumns ["job_type"] ++ configPayloadColumns

def configTable (rows : List ConfigRow) : Sql.Table SqlValue SqlDefault where
  columns := allConfigColumns
  primaryKey := ["job_type"]
  rows := rows.map ConfigRow.cells
  width := by
    intro row hrow
    obtain ⟨r, -, rfl⟩ := List.mem_map.mp hrow
    rfl

namespace PostgresStore

def jobsTable (d : PostgresStore) : Sql.Table SqlValue SqlDefault where
  columns := allJobsColumns
  primaryKey := ["id"]
  rows := d.jobs.rows.map JobRow.cells
  width := by
    intro row hrow
    obtain ⟨r, -, rfl⟩ := List.mem_map.mp hrow
    rfl

def outboxTable (d : PostgresStore) : Sql.Table SqlValue SqlDefault where
  columns := Sql.createdColumns outboxColumns ["id"]
  primaryKey := ["id"]
  rows := d.outbox.rows.map OutboxRow.cells
  width := by
    intro row hrow
    obtain ⟨r, -, rfl⟩ := List.mem_map.mp hrow
    rfl

/-- The schema and the rows. -/
def database (d : PostgresStore) : SqlDatabase :=
  -- the relation a first run writes last comes first
  ([⟨"jobs_created_by_sub_idx", .index jobsCreatedBySubIdx⟩,
    ⟨"jobs", .table d.jobsTable⟩,
    ⟨"job_type_config", .table (configTable d.jobTypeConfig.rows)⟩,
    ⟨"outbox_unpublished", .index outboxUnpublished⟩,
    ⟨"outbox", .table d.outboxTable⟩,
    ⟨"jobs_type_created_idx", .index jobsTypeCreatedIdx⟩,
    ⟨"jobs_status_idx", .index jobsStatusIdx⟩,
    ⟨"jobs_one_active_per_type", .index jobsOneActivePerType⟩] :
    List (Σ _ : String, Sql.Relation SqlValue SqlDefault)).toFinmap

theorem lookup_jobs (d : PostgresStore) : d.database.lookup "jobs" = some (.table d.jobsTable) :=
  rfl

theorem lookup_job_type_config (d : PostgresStore) :
    d.database.lookup "job_type_config" = some (.table (configTable d.jobTypeConfig.rows)) :=
  rfl

end PostgresStore

end JobWorkflow
