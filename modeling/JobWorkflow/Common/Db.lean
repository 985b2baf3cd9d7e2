import JobWorkflow.Common.Ledger
import JobWorkflow.Machinery.Table
import Mathlib.Data.Finset.Sort
import Mathlib.Data.String.Basic

/-!
# Common/Db — `PostgresStore` over the migrations' schema

The three tables of `migrations/`, with their constraints, and the methods of `common/db.py` as the
SQL they run.  Each method is one transaction, so it reads `now()` once.  A table's rows stand in
the order of insertion, of which only `find_stuck` lets anything be seen.  No statement deletes a
row, so the foreign key of `outbox` needs no check.  Which values a column takes is a parameter of
everything below (`ColumnTypes`).

The methods that update one job by a guarded `UPDATE` share `updateJobs`.
-/

namespace JobWorkflow

/-! ## The schema -/

/-- **What the types of the columns take**: PostgreSQL's `text` takes no NUL, and its `jsonb` no
document with one in a string. -/
class ColumnTypes where
  text : String → Bool
  jsonb : Document → Bool
  /-- What a `text` column keeps of a value that is not text, if it takes it. -/
  cast : Json → Option String

mutual

/-- A NUL somewhere in a value. -/
def hasNul : Json → Bool
  | .scalar (.str s) => s.toList.any (· = '\x00')
  | .scalar _ => false
  | .array xs => anyNul xs
  | .object members => memberNul members

def anyNul : List Json → Bool
  | [] => false
  | x :: xs => hasNul x || anyNul xs

def memberNul : List (String × Json) → Bool
  | [] => false
  | (k, x) :: members => k.toList.any (· = '\x00') || hasNul x || memberNul members

end

/-- Columns that take everything without a NUL, but no number for a text. -/
@[reducible] def ColumnTypes.nulFree : ColumnTypes where
  text s := !s.toList.any (· = '\x00')
  jsonb
    | .scalar v => !hasNul (.scalar v)
    | .array xs => !anyNul xs
    | .object o => !o.any fun k x => k.toList.any (· = '\x00') || hasNul x
  cast _ := none

/-- A row of `jobs`. -/
structure JobRow where
  id : JobId
  jobType : String
  status : JobStatus
  inputPayload : Document
  payload : Document
  attempts : ℕ
  createdAt : Time
  updatedAt : Time
  createdBySub : Option String
  createdByType : Option String
  createdByClient : Option String

/-- The primary key, and `jobs_one_active_per_type`. -/
def jobsSchema : Schema JobRow JobId String where
  key := JobRow.id
  index r := if r.status ∈ JobStatus.active then some r.jobType else none

/-- A row of `outbox`. -/
structure OutboxRow where
  id : OutboxId
  jobId : JobId
  payload : Envelope
  publishedAt : Option Time

/-- `OutboxMessage(id=…, job_id=…, payload=…)`. -/
def OutboxRow.message (r : OutboxRow) : OutboxMessage := ⟨r.id, r.jobId, r.payload⟩

def outboxSchema : Schema OutboxRow OutboxId Empty := ⟨OutboxRow.id, fun _ => none⟩

/-- A row of `job_type_config`. -/
structure ConfigRow where
  jobType : String
  runTimeout : Duration
  maxAttempts : ℤ
  payload : Document

def configSchema : Schema ConfigRow String Empty := ⟨ConfigRow.jobType, fun _ => none⟩

@[simp] theorem configSchema_index (row : ConfigRow) : configSchema.index row = none := rfl

/-- The tables, and the values the identity columns generate next. -/
structure PostgresStore where
  jobs : Table jobsSchema
  outbox : Table outboxSchema
  jobTypeConfig : Table configSchema
  jobIdentity : JobId
  outboxIdentity : OutboxId

/-! ## `jsonb ||` -/

/-- What an operand contributes to a concatenation of arrays: its elements, or itself. -/
def Document.elements : Document → List Json
  | .scalar v => [.scalar v]
  | .array xs => xs
  | .object o =>
    [.object (o.keys.sort.filterMap fun k => (o.lookup k).map fun v => (k, v))]

/-- Two objects give the union of their keys, the right one winning; all else is concatenated. -/
def Document.concat : Document → Document → Document
  | .object base, .object input => .object (input ∪ base)
  | a, b => .array (a.elements ++ b.elements)

namespace PostgresStore

/-! ## The updates of `jobs` -/

/-- An update that moves no active job to another type and wakes no finished one. -/
theorem keeps_of_active {r r' : JobRow} (hid : r'.id = r.id) (ht : r'.jobType = r.jobType)
    (ha : r'.status ∈ JobStatus.active → r.status ∈ JobStatus.active) :
    jobsSchema.Keeps r r' := by
  refine ⟨hid, ?_⟩
  by_cases h : r'.status ∈ JobStatus.active
  · exact Or.inl (by simp only [jobsSchema, h, ha h, if_true, ht])
  · exact Or.inr (if_neg h)

/-- `UPDATE jobs SET … WHERE …`, for an assignment made to active jobs only. -/
def updateJobs (p : JobRow → Bool) (f : JobRow → JobRow)
    (hid : ∀ r, (f r).id = r.id) (ht : ∀ r, (f r).jobType = r.jobType)
    (ha : ∀ r, p r = true → r.status ∈ JobStatus.active) (d : PostgresStore) : PostgresStore :=
  { d with
    jobs := d.jobs.update (Table.setWhere p f)
      (Table.sound_setWhere fun r hr => keeps_of_active (hid r) (ht r) fun _ => ha r hr) }

/-- `cur.rowcount`. -/
def rowcount (p : JobRow → Bool) (d : PostgresStore) : ℕ := d.jobs.rows.countP p

/-! ## What is inserted -/

section Parameters

variable [ColumnTypes]

/-- What a `text` column keeps of a value, if it takes it. -/
def toText : Json → Option String
  | .scalar (.str s) => if ColumnTypes.text s then some s else none
  | v => ColumnTypes.cast v

/-- Whether the columns take what `enqueue` inserts. -/
def takes (jobType : String) (inputPayload : Option Document) (creator : Option Creator) : Bool :=
  let creator := creator.getD .anonymous
  ColumnTypes.text jobType && ColumnTypes.jsonb (orEmpty inputPayload) &&
    creator.sub.all ColumnTypes.text && creator.type.all ColumnTypes.text &&
    creator.clientId.all fun v => (toText v).isSome

/-- The row `enqueue` inserts: the columns it gives, and the defaults of the rest. -/
def newRow (jobId : JobId) (jobType : String) (inputPayload : Option Document)
    (creator : Creator) (now : Time) : JobRow where
  id := jobId
  jobType := jobType
  status := .queued
  inputPayload := orEmpty inputPayload
  payload := .object ∅
  attempts := 0
  createdAt := now
  updatedAt := now
  createdBySub := creator.sub
  createdByType := creator.type
  createdByClient := creator.clientId.bind toText

/-! ## The methods -/

/-- The transaction of `enqueue`, once the parameters of its statements are taken.  The envelope has
no text but the type. -/
def insertJob (jobType : String) (inputPayload : Option Document) (creator : Option Creator)
    (now : Time) (d : PostgresStore) : Option JobId × PostgresStore :=
  let jobId := d.jobIdentity
  let inserted := d.jobs.insert
    (newRow jobId jobType inputPayload (creator.getD .anonymous) now)
  -- the identity value is consumed even by a row that is not inserted
  let d' := { d with jobs := inserted.2, jobIdentity := jobId + 1 }
  if inserted.1 = 0 then (none, d')
  else
    (some jobId,
      { d' with
        outbox := (d.outbox.insert
          ⟨d.outboxIdentity, jobId, buildEnvelope jobId jobType, none⟩).2
        outboxIdentity := d.outboxIdentity + 1 })

/-- A value that a column does not take is refused before anything is executed. -/
def enqueue (jobType : String) (inputPayload : Option Document) (creator : Option Creator)
    (now : Time) (d : PostgresStore) : Except StoreError (Option JobId) × PostgresStore :=
  if takes jobType inputPayload creator then
    (d.insertJob jobType inputPayload creator now).map .ok id
  else (.error .dataError, d)

end Parameters

/-- `WHERE published_at IS NULL ORDER BY id FOR UPDATE SKIP LOCKED LIMIT …`, while other
transactions hold the locks of the rows `locked`. -/
def selectUnpublished (locked : OutboxId → Bool) (limit : ℤ) (d : PostgresStore) :
    Except StoreError (List OutboxMessage) :=
  if limit < 0 then .error .negativeLimit
  else
    .ok ((((d.outbox.rows.filter fun r => r.publishedAt.isNone && !locked r.id).insertionSort
        fun a b => a.id ≤ b.id).take limit.toNat).map OutboxRow.message)

/-- The call with nothing locked by others. -/
def fetchUnpublished : ℤ → PostgresStore → Except StoreError (List OutboxMessage) :=
  selectUnpublished fun _ => false

/-- `UPDATE outbox SET published_at = … WHERE …`. -/
def setPublishedAt (p : OutboxRow → Bool) (publishedAt : Option Time) (d : PostgresStore) :
    PostgresStore :=
  { d with
    outbox := d.outbox.update (Table.setWhere p fun r => { r with publishedAt := publishedAt })
      (Table.sound_setWhere fun _ _ => ⟨rfl, Or.inl rfl⟩) }

def markDispatched (outboxId : OutboxId) (jobId : JobId) (now : Time) (d : PostgresStore) :
    PostgresStore :=
  (d.setPublishedAt (fun r => r.id = outboxId) (some now)).updateJobs
    (fun r => r.id = jobId ∧ r.status = .queued)
    (fun r => { r with status := .dispatched, updatedAt := now })
    (fun _ => rfl) (fun _ => rfl)
    (fun r hr => by rw [(of_decide_eq_true hr).2]; decide)

/-- `_guarded_update`: an update of one job in the given statuses, and whether a row matched. -/
def guardedUpdate (statuses : List JobStatus) (hs : statuses ⊆ JobStatus.active)
    (f : JobRow → JobRow) (hid : ∀ r, (f r).id = r.id) (ht : ∀ r, (f r).jobType = r.jobType)
    (jobId : JobId) (d : PostgresStore) : Bool × PostgresStore :=
  let p := fun r : JobRow => r.id = jobId ∧ r.status ∈ statuses
  (d.rowcount p = 1, d.updateJobs p f hid ht fun _ hr => hs (of_decide_eq_true hr).2)

def claim (jobId : JobId) (now : Time) : PostgresStore → Bool × PostgresStore :=
  guardedUpdate [.queued, .dispatched] (by decide)
    (fun r => { r with status := .running, updatedAt := now }) (fun _ => rfl) (fun _ => rfl) jobId

/-- The config row is the one of the message's type. -/
def resolvePayload (jobId : JobId) (jobType : String) (now : Time) (d : PostgresStore) :
    Option Document × PostgresStore :=
  let assign := fun j : JobRow =>
    (d.jobTypeConfig.rows.find? fun c =>
      j.id = jobId ∧ c.jobType = jobType ∧ j.status = .running).map fun c =>
        { j with payload := c.payload.concat j.inputPayload, updatedAt := now }
  ((d.jobs.returning assign).head?.map JobRow.payload,
    { d with
      jobs := d.jobs.update assign fun r r' hr => by
        obtain ⟨c, -, rfl⟩ := Option.map_eq_some_iff.mp hr
        exact keeps_of_active rfl rfl id })

def complete (jobId : JobId) (now : Time) : PostgresStore → Bool × PostgresStore :=
  guardedUpdate [.running] (by decide)
    (fun r => { r with status := .completed, updatedAt := now }) (fun _ => rfl) (fun _ => rfl) jobId

def fail (jobId : JobId) (now : Time) : PostgresStore → Bool × PostgresStore :=
  guardedUpdate [.running] (by decide)
    (fun r => { r with status := .failed, updatedAt := now }) (fun _ => rfl) (fun _ => rfl) jobId

/-- `jobs LEFT JOIN job_type_config USING (job_type)`, with `COALESCE` to the default timeout. -/
def findStuck (now : Time) (d : PostgresStore) : List StuckJob :=
  ((Table.leftJoin (fun j c => j.jobType = c.jobType) d.jobs.rows d.jobTypeConfig.rows).filter
    fun jc => jc.1.status = .running ∧
      jc.1.updatedAt < now - (jc.2.map ConfigRow.runTimeout).getD defaultRunTimeout).map
    fun jc => ⟨jc.1.id, jc.1.jobType, jc.1.attempts⟩

/-- `COALESCE((SELECT max_attempts FROM job_type_config …), 3)`. -/
def maxAttempts (d : PostgresStore) (jobType : String) : ℤ :=
  ((d.jobTypeConfig.rows.find? fun c => c.jobType = jobType).map ConfigRow.maxAttempts).getD
    defaultMaxAttempts

def requeueStuck (jobId : JobId) (now : Time) (d : PostgresStore) : Bool × PostgresStore :=
  let p := fun r : JobRow =>
    r.id = jobId ∧ r.status = .running ∧ (r.attempts : ℤ) < d.maxAttempts r.jobType
  let d' := d.updateJobs p
    (fun r => { r with status := .queued, attempts := r.attempts + 1, updatedAt := now })
    (fun _ => rfl) (fun _ => rfl) fun _ hr => by rw [(of_decide_eq_true hr).2.1]; decide
  if d.rowcount p ≠ 1 then (false, d')
  else (true, d'.setPublishedAt (fun r => r.jobId = jobId) none)

def deadLetter (jobId : JobId) (now : Time) : PostgresStore → Bool × PostgresStore :=
  guardedUpdate [.running] (by decide)
    (fun r => { r with status := .failed, updatedAt := now }) (fun _ => rfl) (fun _ => rfl) jobId

def getJob (jobId : JobId) (d : PostgresStore) : Option Job :=
  (d.jobs.find? jobId).map fun r =>
    { id := r.id
      jobType := r.jobType
      status := r.status
      inputPayload := r.inputPayload
      payload := r.payload
      attempts := r.attempts
      createdAt := r.createdAt
      updatedAt := r.updatedAt
      createdBy := some ⟨r.createdBySub, r.createdByType, r.createdByClient.map .text⟩ }

instance [ColumnTypes] : Store PostgresStore where
  enqueue t p cr now _ := enqueue t p cr now
  fetchUnpublished := fetchUnpublished
  markDispatched := markDispatched
  claim := claim
  resolvePayload i t now d := (d.resolvePayload i t now).map .ok id
  complete := complete
  fail := fail
  findStuck := findStuck
  requeueStuck := requeueStuck
  deadLetter := deadLetter
  getJob := getJob

/-! ## Calls -/

/-- What an operator does to give a type its configuration: one upsert of its row. -/
def setTypeConfig (jobType : String) (runTimeout : Duration) (maxAttempts : ℤ)
    (payload : Option Payload) (d : PostgresStore) : PostgresStore :=
  { d with
    jobTypeConfig := d.jobTypeConfig.upsert
      ⟨jobType, runTimeout, maxAttempts, .object (payload.getD ∅)⟩ (configSchema_index _) }

section Parameters

variable [ColumnTypes] {d : PostgresStore} {t : String} {p : Option Document}
  {cr : Option Creator} {now : Time}

theorem enqueue_of_takes (h : takes t p cr = true) :
    d.enqueue t p cr now = (d.insertJob t p cr now).map .ok id := if_pos h

theorem enqueue_of_not_takes (h : takes t p cr = false) :
    d.enqueue t p cr now = (.error .dataError, d) :=
  if_neg (by rw [h]; exact Bool.false_ne_true)

/-- An enqueue that conflicts consumes an identity value. -/
theorem insertJob_of_not_fits
    (h : ¬ d.jobs.Fits (newRow d.jobIdentity t p (cr.getD .anonymous) now)) :
    d.insertJob t p cr now = (none, { d with jobIdentity := d.jobIdentity + 1 }) := by
  simp only [insertJob, Table.insert_of_not_fits h, if_true]

/-- An enqueue that does not inserts a row into each table. -/
theorem insertJob_of_fits
    (h : d.jobs.Fits (newRow d.jobIdentity t p (cr.getD .anonymous) now))
    (ho : ∀ r ∈ d.outbox.rows, r.id < d.outboxIdentity) :
    ∃ hfit : d.outbox.Fits
        ⟨d.outboxIdentity, d.jobIdentity, buildEnvelope d.jobIdentity t, none⟩,
      d.insertJob t p cr now = (some d.jobIdentity,
        { d with
          jobs := d.jobs.append _ h
          outbox := d.outbox.append _ hfit
          jobIdentity := d.jobIdentity + 1
          outboxIdentity := d.outboxIdentity + 1 }) := by
  have hfit : d.outbox.Fits
      ⟨d.outboxIdentity, d.jobIdentity, buildEnvelope d.jobIdentity t, none⟩ := by
    refine ⟨fun hmem => ?_, fun v _ => v.elim⟩
    obtain ⟨row, hrow, he⟩ := List.mem_map.mp hmem
    exact (ho row hrow).ne he
  refine ⟨hfit, ?_⟩
  simp only [insertJob, Table.insert_of_fits h, Table.insert_of_fits hfit, one_ne_zero, if_false]

/-- Whether the columns take a configuration. -/
def takesConfig (jobType : String) (payload : Option Payload) : Bool :=
  ColumnTypes.text jobType && ColumnTypes.jsonb (.object (payload.getD ∅))

/-- Run one call. -/
def exec (d : PostgresStore) : Call → Reply × PostgresStore
  | .enqueue t p cr now _ =>
    match d.enqueue t p cr now with
    | (.ok jobId, d') => (.jobId jobId, d')
    | (.error e, d') => (.raised e, d')
  | .fetchUnpublished limit =>
    match d.fetchUnpublished limit with
    | .ok rows => (.rows rows, d)
    | .error e => (.raised e, d)
  | .markDispatched o i now => (.unit, d.markDispatched o i now)
  | .claim i now => (d.claim i now).map .flag id
  | .resolvePayload i t now => (d.resolvePayload i t now).map (fun p => .payload (.ok p)) id
  | .complete i now => (d.complete i now).map .flag id
  | .fail i now => (d.fail i now).map .flag id
  | .findStuck now => (.stuck (d.findStuck now), d)
  | .requeueStuck i now => (d.requeueStuck i now).map .flag id
  | .deadLetter i now => (d.deadLetter i now).map .flag id
  | .getJob i => (.job (d.getJob i), d)
  | .setTypeConfig t timeout cap p =>
    if takesConfig t p then (.unit, d.setTypeConfig t timeout cap p) else (.raised .dataError, d)

/-- Whether the columns take the values of a call. -/
def takesCall : Call → Bool
  | .enqueue t p cr _ _ => takes t p cr
  | .setTypeConfig t _ _ p => takesConfig t p
  | _ => true

/-- **An enqueue is refused, and then nothing happens, or it is carried out.** -/
theorem exec_enqueue (d : PostgresStore) (t : String) (p : Option Document) (cr : Option Creator)
    (now updatedAt : Time) :
    (takes t p cr = false ∧ d.exec (.enqueue t p cr now updatedAt) = (.raised .dataError, d)) ∨
    (takes t p cr = true ∧ d.exec (.enqueue t p cr now updatedAt) =
      (d.insertJob t p cr now).map .jobId id) := by
  rw [exec]
  cases h : takes t p cr with
  | false =>
    rw [enqueue_of_not_takes h]
    exact Or.inl ⟨rfl, rfl⟩
  | true =>
    rw [enqueue_of_takes h]
    exact Or.inr ⟨rfl, rfl⟩

/-- So is the upsert of a configuration. -/
theorem exec_setTypeConfig (d : PostgresStore) (t : String) (timeout : Duration) (cap : ℤ)
    (p : Option Payload) :
    (takesConfig t p = false ∧
      d.exec (.setTypeConfig t timeout cap p) = (.raised .dataError, d)) ∨
    (takesConfig t p = true ∧
      d.exec (.setTypeConfig t timeout cap p) = (.unit, d.setTypeConfig t timeout cap p)) := by
  rw [exec]
  cases takesConfig t p with
  | false => exact Or.inl ⟨rfl, rfl⟩
  | true => exact Or.inr ⟨rfl, rfl⟩

/-- A fetch changes nothing. -/
theorem exec_fetchUnpublished (d : PostgresStore) (limit : ℤ) :
    (d.exec (.fetchUnpublished limit)).2 = d := by
  rw [exec]
  split <;> rfl

end Parameters

/-- The rows of `jobs` after a re-queue, whatever it comes to. -/
theorem requeueStuck_rows (d : PostgresStore) (i : JobId) (now : Time) :
    (d.requeueStuck i now).2.jobs.rows = d.jobs.rows.map (Table.after (Table.setWhere
      (fun r => r.id = i ∧ r.status = .running ∧ (r.attempts : ℤ) < d.maxAttempts r.jobType)
      fun r => { r with status := .queued, attempts := r.attempts + 1, updatedAt := now })) := by
  rw [requeueStuck]
  dsimp only
  split <;> rfl

theorem requeueStuck_jobIdentity (d : PostgresStore) (i : JobId) (now : Time) :
    (d.requeueStuck i now).2.jobIdentity = d.jobIdentity := by
  rw [requeueStuck]
  dsimp only
  split <;> rfl

theorem requeueStuck_jobTypeConfig (d : PostgresStore) (i : JobId) (now : Time) :
    (d.requeueStuck i now).2.jobTypeConfig = d.jobTypeConfig := by
  rw [requeueStuck]
  dsimp only
  split <;> rfl

end PostgresStore

end JobWorkflow
