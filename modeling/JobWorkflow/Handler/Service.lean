import JobWorkflow.Common.Resolution
import JobWorkflow.Worker.Service

/-!
# Handler/Service — `handler.service.enqueue` and the CLI, and what becomes of the payload

`python -m handler` parses its second argument and enqueues whatever JSON value it is.  An object
reaches the handler as the overlay it was meant for; `null` and the other falsy values are enqueued
as `{}`.  Any other value is stored as it is: `InMemoryStore` raises when it comes to overlay it,
and `PostgresStore` hands the handler an array (`payload_promised_iff`).

`json.loads` enters as a function.
-/

namespace JobWorkflow

open ConfiguredStore

namespace Handler

/-! ## The program -/

structure EnqueueResult where
  jobId : Option JobId
  enqueued : Bool

/-- Enqueue a job unless an active one of the same type already exists. -/
def enqueue {σ : Type} [Store σ] (jobType : String) (payload : Option Document)
    (createdAt updatedAt : Time) (store : σ) : Except StoreError EnqueueResult × σ :=
  (Store.enqueue jobType (some (orEmpty payload)) none createdAt updatedAt store).map
    (Except.map fun jobId => ⟨jobId, jobId.isSome⟩) id

/-- What `main` raises: the argument is no JSON, or the database does not take a value. -/
inductive Error
  | jsonDecodeError
  | store (e : StoreError)

/-- What the process leaves on the terminal. -/
structure Exit where
  code : ℕ
  stdout : String
  stderr : String

/-- The document that the `jobs` row is to store, after both `payload or {}`. -/
def stored (payload : Document) : Document := orEmpty (some (orEmpty (some payload)))

section Columns

variable [ColumnTypes]

/-- `python -m handler <job_type> [payload_json]`, on a database that is there. -/
def main (loads : String → Option Document) (argv : List String) (now : Time)
    (store : PostgresStore) : Except Error Exit × PostgresStore :=
  match argv with
  | [] => (.ok ⟨2, "", "usage: python -m handler <job_type> [payload_json]\n"⟩, store)
  | jobType :: args =>
    match args.head?.elim (some (.object ∅)) loads with
    | none => (.error .jsonDecodeError, store)
    | some payload =>
      match enqueue jobType (some payload) now now store with
      | (.error e, store) => (.error (.store e), store)
      | (.ok ⟨some jobId, _⟩, store) =>
        (.ok ⟨0, s!"enqueued {jobType} as job {jobId}\n", ""⟩, store)
      | (.ok ⟨none, _⟩, store) =>
        (.ok ⟨0, s!"skipped {jobType}: an active job already exists\n", ""⟩, store)

omit [ColumnTypes] in
/-- A value is stored as it is if it is truthy, and as `{}` if it is not. -/
theorem stored_eq (payload : Document) : stored payload = orEmpty (some payload) := by
  rw [stored]
  cases h : payload.truthy with
  | true =>
    have he : orEmpty (some payload) = payload := if_pos h
    rw [he, he]
  | false =>
    have he : orEmpty (some payload) = .object ∅ := if_neg (by rw [h]; exact Bool.false_ne_true)
    rw [he, orEmpty_object]

/-- The database takes the type, and the value as it is stored. -/
def Taken (jobType : String) (payload : Document) : Prop :=
  ColumnTypes.text jobType = true ∧ ColumnTypes.jsonb (orEmpty (some payload)) = true

theorem takes_iff {jobType : String} {payload : Document} :
    PostgresStore.takes jobType (some (orEmpty (some payload))) none = true ↔
      Taken jobType payload := by
  have hstored : orEmpty (some (orEmpty (some payload))) = orEmpty (some payload) :=
    stored_eq payload
  simp [PostgresStore.takes, Creator.anonymous, hstored, Taken]

/-- What `enqueue` does with a value that the database takes, and with any other. -/
theorem enqueue_cases (jobType : String) (payload : Document) (now : Time) (d : PostgresStore) :
    (Taken jobType payload ∧ enqueue jobType (some payload) now now d =
      (d.insertJob jobType (some (orEmpty (some payload))) none now).map
        (fun jobId => .ok ⟨jobId, jobId.isSome⟩) id) ∨
    (¬ Taken jobType payload ∧
      enqueue jobType (some payload) now now d = (.error .dataError, d)) := by
  have henq : enqueue jobType (some payload) now now d =
      (d.enqueue jobType (some (orEmpty (some payload))) none now).map
        (Except.map fun jobId => ⟨jobId, jobId.isSome⟩) id := rfl
  rw [henq, ← takes_iff]
  cases h : PostgresStore.takes jobType (some (orEmpty (some payload))) none with
  | true =>
    rw [PostgresStore.enqueue_of_takes h]
    exact Or.inl ⟨rfl, rfl⟩
  | false =>
    rw [PostgresStore.enqueue_of_not_takes h]
    exact Or.inr ⟨Bool.false_ne_true, rfl⟩

/-- What `main` does with an argument that it parses. -/
theorem main_parsed {loads : String → Option Document} {arg : String} {payload : Document}
    (h : loads arg = some payload) (jobType : String) (args : List String) (now : Time)
    (store : PostgresStore) :
    (¬ Taken jobType payload ∧
      main loads (jobType :: arg :: args) now store = (.error (.store .dataError), store)) ∨
    (Taken jobType payload ∧ ∃ exit, main loads (jobType :: arg :: args) now store =
      (.ok exit, (enqueue jobType (some payload) now now store).2)) := by
  simp only [main, List.head?_cons, Option.elim_some, h]
  rcases enqueue_cases jobType payload now store with ⟨ht, he⟩ | ⟨hn, he⟩
  · refine Or.inr ⟨ht, ?_⟩
    rw [he]
    rcases store.insertJob jobType (some (orEmpty (some payload))) none now with ⟨_ | jobId, d'⟩
    · exact ⟨_, rfl⟩
    · exact ⟨_, rfl⟩
  · refine Or.inl ⟨hn, ?_⟩
    rw [he]

end Columns

/-! ## Later calls -/

/-- A store on which any call can be made. -/
class CallableStore (σ : Type) extends ConfiguredStore σ where
  exec : σ → Call → Reply × σ

instance : CallableStore InMemoryStore := ⟨exec⟩

instance [ColumnTypes] : CallableStore PostgresStore := ⟨PostgresStore.exec⟩

/-- The store after the calls. -/
def after {σ : Type} [CallableStore σ] (calls : List Call) (s : σ) : σ :=
  calls.foldl (fun s c => (CallableStore.exec s c).2) s

/-- A job that no single call loses is not lost, and stays the same run. -/
theorem after_sameRun {σ : Type} [CallableStore σ] {I : σ → Prop}
    (hI : ∀ s c, I s → I (CallableStore.exec s c).2)
    (hjob : ∀ s c i (j : Job), I s → Store.getJob i s = some j →
      ∃ j', Store.getJob i (CallableStore.exec s c).2 = some j' ∧ SameRun j j')
    (calls : List Call) {s : σ} (hs : I s) {i : JobId} {j : Job} (hj : Store.getJob i s = some j) :
    ∃ j', Store.getJob i (after calls s) = some j' ∧ SameRun j j' := by
  induction calls generalizing s j with
  | nil => exact ⟨j, hj, .refl j⟩
  | cons c calls ih =>
    obtain ⟨j', hj', hsame⟩ := hjob s c i j hs hj
    obtain ⟨j'', hj'', hsame'⟩ := ih (hI s c hs) hj'
    exact ⟨j'', hj'', hsame.trans hsame'⟩

theorem after_inMemory (calls : List Call) {s : InMemoryStore} (hs : WellKeyed s) {i : JobId}
    {j : Job} (hj : Store.getJob i s = some j) :
    ∃ j', Store.getJob i (after calls s) = some j' ∧ SameRun j j' :=
  after_sameRun (I := WellKeyed) (fun s c hs => wellKeyed_of_effect (exec_effect c s) hs)
    (fun s c i j hs hj => by
      obtain ⟨j', hj', hm⟩ := (exec_effect c s).job hs hj
      exact ⟨j', hj', hm.sameRun⟩) calls hs hj

theorem after_postgres [ColumnTypes] (calls : List Call) {d : PostgresStore} {i : JobId} {j : Job}
    (hj : Store.getJob i d = some j) :
    ∃ j', Store.getJob i (after calls d) = some j' ∧ SameRun j j' :=
  after_sameRun (I := fun _ => True) (fun _ _ _ => trivial)
    (fun _ c _ _ _ hj => PostgresStore.keeps_run c hj) calls trivial hj

/-! ## `process` on the Postgres side -/

section Process

variable [ColumnTypes] {d : PostgresStore} {i : JobId} {r : JobRow}

omit [ColumnTypes] in
/-- A guarded update of a row in one of the statuses takes effect. -/
theorem guardedUpdate_found {statuses : List JobStatus} (hs : statuses ⊆ JobStatus.active)
    {f : JobRow → JobRow} {hid : ∀ r, (f r).id = r.id} {ht : ∀ r, (f r).jobType = r.jobType}
    (hr : d.jobs.find? i = some r) (hst : r.status ∈ statuses) :
    (d.guardedUpdate statuses hs f hid ht i).1 = true ∧
      (d.guardedUpdate statuses hs f hid ht i).2.jobs.find? i = some (f r) := by
  obtain ⟨-, hkey⟩ := Table.find?_eq_some.mp hr
  have hp : decide (r.id = i ∧ r.status ∈ statuses) = true := decide_eq_true ⟨hkey, hst⟩
  constructor
  · have hcount : d.rowcount (fun r => r.id = i ∧ r.status ∈ statuses) = 1 :=
      Table.countP_key hr hp fun r' hr' => (of_decide_eq_true hr').1
    exact decide_eq_true hcount
  · have hkeep : ∀ r, jobsSchema.key (Table.after (Table.setWhere
        (fun r => decide (r.id = i ∧ r.status ∈ statuses)) f) r) = jobsSchema.key r := by
      intro r
      rw [Table.after_setWhere]
      split
      · exact hid r
      · rfl
    have hfind : (d.guardedUpdate statuses hs f hid ht i).2.jobs.find? i = _ :=
      Table.find?_of_map rfl hkeep i
    rw [hfind, hr, Option.map_some, Table.after_setWhere, if_pos hp]

/-- A guarded update to a terminal status ends the job. -/
theorem ended_of_guardedUpdate {statuses : List JobStatus} (hs : statuses ⊆ JobStatus.active)
    {f : JobRow → JobRow} {hid : ∀ r, (f r).id = r.id} {ht : ∀ r, (f r).jobType = r.jobType}
    (hr : d.jobs.find? i = some r) (hst : r.status ∈ statuses)
    (hend : (f r).status ∈ JobStatus.terminal) :
    ∃ job, Store.getJob i (d.guardedUpdate statuses hs f hid ht i).2 = some job ∧
      job.status ∈ JobStatus.terminal :=
  ⟨_, PostgresStore.getJob_eq_some.mpr ⟨_, (guardedUpdate_found hs hr hst).2, rfl⟩, hend⟩

omit [ColumnTypes] in
/-- Resolving leaves a running row running. -/
theorem resolvePayload_running (hr : d.jobs.find? i = some r) (hrun : r.status = .running)
    (t : String) (now : Time) :
    ∃ r', (d.resolvePayload i t now).2.jobs.find? i = some r' ∧ r'.status = .running := by
  rcases PostgresStore.resolvePayload_cases i t now d with ⟨r', c, hr', -, -, he, hjobs⟩ | ⟨-, he⟩
  · obtain rfl := Option.some.inj (hr.symm.trans hr')
    rw [he]
    exact ⟨_, (hjobs i).trans (if_pos rfl), hrun⟩
  · rw [he]
    exact ⟨r, hr, hrun⟩

/-- **`process` leaves the job it claims ended**, whatever payload it resolves. -/
theorem process_ends (hr : d.jobs.find? i = some r)
    (hst : r.status ∈ [JobStatus.queued, JobStatus.dispatched]) (lookup : Lookup) (t : String)
    (t₁ t₂ t₃ : Time) :
    ∃ job, Store.getJob i (process d lookup ⟨i, t⟩ t₁ t₂ t₃).store = some job ∧
      job.status ∈ JobStatus.terminal := by
  have hclaimed : (d.claim i t₁).1 = true ∧ (d.claim i t₁).2.jobs.find? i = _ :=
    guardedUpdate_found (by decide) hr hst
  have hclaim : Store.claim i t₁ d = (true, (d.claim i t₁).2) := Prod.ext hclaimed.1 rfl
  obtain ⟨r', hr', hrun⟩ := resolvePayload_running hclaimed.2 rfl t t₂
  have hmem : r'.status ∈ [JobStatus.running] := List.mem_singleton.mpr hrun
  have hfail : ∃ job, Store.getJob i
      (Store.fail i t₃ ((d.claim i t₁).2.resolvePayload i t t₂).2).2 = some job ∧
      job.status ∈ JobStatus.terminal :=
    ended_of_guardedUpdate (by decide) hr' hmem (show JobStatus.failed ∈ _ by decide)
  have hcomplete : ∃ job, Store.getJob i
      (Store.complete i t₃ ((d.claim i t₁).2.resolvePayload i t t₂).2).2 = some job ∧
      job.status ∈ JobStatus.terminal :=
    ended_of_guardedUpdate (by decide) hr' hmem (show JobStatus.completed ∈ _ by decide)
  have hresolve : Store.resolvePayload i t t₂ (d.claim i t₁).2 =
      (.ok ((d.claim i t₁).2.resolvePayload i t t₂).1,
        ((d.claim i t₁).2.resolvePayload i t t₂).2) := rfl
  simp only [process, hclaim, hresolve]
  cases ((d.claim i t₁).2.resolvePayload i t t₂).1 with
  | none => exact hfail
  | some payload =>
    cases lookup t with
    | none => exact hfail
    | some handler =>
      dsimp only
      cases handler payload with
      | raised => exact hfail
      | returned => exact hcomplete

end Process

/-! ## What is promised of a payload -/

/-- The keys a producer gives: the members of an object; another value has none. -/
def producerKeys : Document → Payload
  | .object o => o
  | _ => ∅

/-- **A run of job `i` gets its payload**: whatever is called before, once the run is claimed it is
resolved to the overlay, and `process` leaves it ended. -/
structure Delivers {σ : Type} [CallableStore σ] (s : σ) (i : JobId) (t : String)
    (keys base : Payload) : Prop where
  resolves : ∀ calls now job, Store.getJob i (after calls s) = some job → job.status = .running →
    baseConfig t (after calls s) = some (.object base) →
      (Store.resolvePayload i t now (after calls s)).1 = .ok (some (.object (keys ∪ base)))
  ends : ∀ calls lookup t₁ t₂ t₃ job, Store.getJob i (after calls s) = some job → job.Waiting →
    baseConfig t (after calls s) = some (.object base) →
      ∃ job', Store.getJob i (process (after calls s) lookup ⟨i, t⟩ t₁ t₂ t₃).store = some job' ∧
        job'.status ∈ JobStatus.terminal

/-- An object is delivered on the in-memory side. -/
theorem delivers_inMemory {s : InMemoryStore} (hw : WellKeyed s) {i : JobId} {j : Job}
    {keys : Payload} (hj : Store.getJob i s = some j) (hin : j.inputPayload = .object keys)
    (base : Payload) : Delivers s i j.jobType keys base := by
  have later : ∀ {calls job}, Store.getJob i (after calls s) = some job →
      job.jobType = j.jobType ∧ job.inputPayload = .object keys := by
    intro calls job hjob
    obtain ⟨job', hjob', hsame⟩ := after_inMemory calls hw hj
    obtain rfl := Option.some.inj (hjob.symm.trans hjob')
    exact ⟨hsame.jobType, hsame.inputPayload.trans hin⟩
  refine ⟨fun calls now job hjob hrun hbase => ?_, fun calls lookup t₁ t₂ t₃ job hjob hwait _ => ?_⟩
  · obtain ⟨ht, hin'⟩ := later hjob
    obtain ⟨cfg, hcfg, hpay⟩ := Option.map_eq_some_iff.mp hbase
    obtain rfl := Document.object.inj hpay
    have hcall : (after calls s).resolvePayload i j.jobType now = _ :=
      InMemoryStore.resolvePayload_of_config hjob hrun (ht ▸ hcfg) hin'
    exact congrArg Prod.fst hcall
  · have hran : Ran _ lookup ⟨i, j.jobType⟩ job keys
        (process (after calls s) lookup ⟨i, j.jobType⟩ t₁ t₂ t₃) :=
      ran_of_process hjob hwait (later hjob).2
    rcases hran.ended with h | h
    all_goals
      obtain ⟨job', hjob', hst⟩ := Option.map_eq_some_iff.mp h
      exact ⟨job', hjob', by rw [hst]; decide⟩

/-- An object is delivered on the Postgres side. -/
theorem delivers_postgres [ColumnTypes] {d : PostgresStore} {i : JobId} {j : Job} {keys : Payload}
    (hj : Store.getJob i d = some j) (hin : j.inputPayload = .object keys) (base : Payload) :
    Delivers d i j.jobType keys base := by
  refine ⟨fun calls now job hjob hrun hbase => ?_, fun calls lookup t₁ t₂ t₃ job hjob hwait _ => ?_⟩
  · obtain ⟨job', hjob', hsame⟩ := after_postgres calls hj
    obtain rfl := Option.some.inj (hjob.symm.trans hjob')
    obtain ⟨r, hr, rfl⟩ := PostgresStore.getJob_eq_some.mp hjob
    obtain ⟨c, hc, hpay⟩ := Option.map_eq_some_iff.mp hbase
    rcases PostgresStore.resolvePayload_cases i j.jobType now (after calls d) with
      ⟨r', c', hr', -, hc', he, -⟩ | ⟨hnone, -⟩
    · obtain rfl := Option.some.inj (hr.symm.trans hr')
      obtain rfl := Option.some.inj (hc.symm.trans hc')
      have hinput : r.inputPayload = .object keys := hsame.inputPayload.trans hin
      rw [hpay, hinput] at he
      exact congrArg (fun x => Except.ok x.1) he
    · exact nomatch (hnone r hr hrun).symm.trans hc
  · obtain ⟨r, hr, rfl⟩ := PostgresStore.getJob_eq_some.mp hjob
    exact process_ends hr hwait lookup j.jobType t₁ t₂ t₃

/-- `enqueue` made the job. -/
def Enqueued {σ : Type} (result : Except StoreError EnqueueResult × σ) (i : JobId) : Prop :=
  ∃ made, result.1 = .ok made ∧ made.jobId = some i

/-- **What is promised of a value** that the CLI parses, for a type and a base config: the database
does not take it, or both stores deliver the overlay. -/
def Promised [ColumnTypes] (t : String) (value : Document) (base : Payload) : Prop :=
  (∀ loads arg args now d, loads arg = some value →
    ∃ e, main loads (t :: arg :: args) now d = (.error e, d)) ∨
  (∀ (cfg : Dict String TypeConfig) (l : Ledger Unit) createdAt updatedAt i,
    Runs.Reachable Ledger.step (Ledger.start cfg) l →
    Enqueued (enqueue t (some value) createdAt updatedAt l.store) i →
      Delivers (enqueue t (some value) createdAt updatedAt l.store).2 i t
        (producerKeys value) base) ∧
  (∀ loads arg args now (d : PostgresStore) exit i, loads arg = some value →
    (main loads (t :: arg :: args) now d).1 = .ok exit →
    Enqueued (enqueue t (some value) now now d) i →
      Delivers (main loads (t :: arg :: args) now d).2 i t (producerKeys value) base)

/-! ## Where the promise is kept -/

/-- A value that is stored as an object: an object, or a falsy value. -/
def StoredAsObject (value : Document) : Prop := (∃ o, value = .object o) ∨ value.truthy = false

theorem orEmpty_of_storedAsObject {value : Document} (h : StoredAsObject value) :
    orEmpty (some value) = .object (producerKeys value) := by
  rcases h with ⟨o, rfl⟩ | h
  · exact orEmpty_object o
  · cases value with
    | object o => exact orEmpty_object o
    | scalar v => exact if_neg (by rw [h]; exact Bool.false_ne_true)
    | array xs => exact if_neg (by rw [h]; exact Bool.false_ne_true)

theorem enqueue_inMemory {s : InMemoryStore} {t : String} {value : Document}
    {createdAt updatedAt : Time} {i : JobId}
    (h : Enqueued (enqueue t (some value) createdAt updatedAt s) i) :
    ∃ j, Store.getJob i (enqueue t (some value) createdAt updatedAt s).2 = some j ∧
      j.jobType = t ∧ j.inputPayload = orEmpty (some value) := by
  have hcall : (enqueue t (some value) createdAt updatedAt s).2 =
      (s.enqueue t (some (orEmpty (some value))) none createdAt updatedAt).2 := rfl
  obtain ⟨made, hmade, hid⟩ := h
  obtain rfl := Except.ok.inj hmade
  have hid : (s.enqueue t (some (orEmpty (some value))) none createdAt updatedAt).1 = some i := hid
  rw [hcall]
  rw [InMemoryStore.enqueue] at hid ⊢
  split at hid
  · cases hid
  · rename_i hfree
    obtain rfl := Option.some.inj hid
    rw [if_neg hfree]
    exact ⟨_, Dict.get?_set_self s.jobs _ _, rfl, stored_eq value⟩

theorem enqueue_postgres [ColumnTypes] {d : PostgresStore} {t : String} {value : Document}
    {now : Time} {i : JobId} (h : Enqueued (enqueue t (some value) now now d) i) :
    ∃ j, Store.getJob i (enqueue t (some value) now now d).2 = some j ∧
      j.jobType = t ∧ j.inputPayload = orEmpty (some value) := by
  obtain ⟨made, hmade, hid⟩ := h
  rcases enqueue_cases t value now d with ⟨-, he⟩ | ⟨-, he⟩
  · rw [he] at hmade ⊢
    obtain rfl := Except.ok.inj hmade
    by_cases hfit : d.jobs.Fits
        (PostgresStore.newRow d.jobIdentity t (some (orEmpty (some value))) .anonymous now)
    · have hjobs : (d.insertJob t (some (orEmpty (some value))) none now).2.jobs =
          d.jobs.append _ hfit ∧
          (d.insertJob t (some (orEmpty (some value))) none now).1 = some d.jobIdentity := by
        have hins := Table.insert_of_fits hfit
        simp only [PostgresStore.insertJob, Option.getD_none, hins, one_ne_zero, if_false, and_self]
      obtain rfl := Option.some.inj (hjobs.2.symm.trans hid)
      have hfind : (d.jobs.append _ hfit).find? d.jobIdentity = some _ := Table.find?_eq_some.mpr
        ⟨List.mem_append_right _ (List.mem_singleton_self _), rfl⟩
      rw [← hjobs.1] at hfind
      exact ⟨_, PostgresStore.getJob_eq_some.mpr ⟨_, hfind, rfl⟩, rfl, stored_eq value⟩
    · have hno : (d.insertJob t (some (orEmpty (some value))) none now).1 = some i := hid
      rw [PostgresStore.insertJob_of_not_fits hfit] at hno
      cases hno
  · rw [he] at hmade
    cases hmade

/-- A type with the base config. -/
def configOf (t : String) (base : Payload) : Dict String TypeConfig :=
  (∅ : Dict String TypeConfig).set t ⟨defaultRunTimeout, defaultMaxAttempts, base⟩

/-- A value that is stored as it is and is no object is not delivered: `resolve_payload` raises. -/
theorem not_delivers {value : Document} (h : ¬ StoredAsObject value) (t : String)
    (keys base : Payload) :
    ¬ Delivers
      (enqueue t (some value) 0 0 (Ledger.start (ι := Unit) (configOf t base)).store).2
      1 t keys base := by
  rw [StoredAsObject, not_or, Bool.not_eq_false] at h
  obtain ⟨hobj, htruthy⟩ := h
  have hstored : stored value = value := by
    rw [stored_eq, orEmpty, if_pos htruthy]
  have hover : overlay base (stored value) = .error .notAMapping := by
    rw [hstored]
    cases value with
    | object o => exact absurd ⟨o, rfl⟩ hobj
    | scalar v => rfl
    | array xs => rfl
  intro hdel
  let s := (enqueue t (some value) 0 0 (Ledger.start (ι := Unit) (configOf t base)).store).2
  let j := InMemoryStore.newJob 1 t (some (orEmpty (some value))) none 0 0
  let running : Job := { j with status := .running, updatedAt := 1 }
  have hwait : s.claim 1 1 = (true, s.putJob 1 running) :=
    InMemoryStore.claim_of_waiting (j := j) rfl (show JobStatus.queued ∈ _ by decide)
  have hclaim : after [.claim 1 1] s = s.putJob 1 running := congrArg Prod.snd hwait
  have hcfg : s.typeConfig.get? t = some ⟨defaultRunTimeout, defaultMaxAttempts, base⟩ :=
    Dict.get?_set_self _ _ _
  have hok := hdel.resolves [.claim 1 1] 2 running
  rw [hclaim] at hok
  have herr : (s.putJob 1 running).resolvePayload 1 t 2 = (.error .notAMapping, _) :=
    InMemoryStore.resolvePayload_of_error InMemoryStore.getJob_putJob_self rfl hcfg hover
  have hres := hok InMemoryStore.getJob_putJob_self rfl
    (congrArg (Option.map fun cfg : TypeConfig => Document.object cfg.payload) hcfg)
  cases (congrArg Prod.fst herr).symm.trans hres

section Columns

variable [ColumnTypes] {t : String} {value : Document} {base : Payload}

/-- What is promised fails of any other value that the database takes. -/
theorem storedAsObject_of_promised (h : Promised t value base) (ht : Taken t value) :
    StoredAsObject value := by
  rcases h with hrejected | ⟨hmem, -⟩
  · let loads : String → Option Document := fun _ => some value
    have hloads : loads "" = some value := rfl
    obtain ⟨e, he⟩ := hrejected loads "" [] 0 ⟨∅, ∅, ∅, 1, 1⟩ hloads
    rcases main_parsed hloads t [] 0 ⟨∅, ∅, ∅, 1, 1⟩ with ⟨hno, -⟩ | ⟨-, exit, hok⟩
    · exact absurd ht hno
    · exact nomatch (congrArg Prod.fst hok).symm.trans (congrArg Prod.fst he)
  · by_contra hno
    exact not_delivers hno t (producerKeys value) base
      (hmem (configOf t base) (Ledger.start (configOf t base)) 0 0 1 ⟨[], rfl⟩ ⟨_, rfl, rfl⟩)

/-- **A payload is delivered exactly if** the database does not take it or its type, it is an
object, or it is falsy. -/
theorem payload_promised_iff (t : String) (value : Document) (base : Payload) :
    Promised t value base ↔
      ColumnTypes.text t = false ∨ ColumnTypes.jsonb (orEmpty (some value)) = false ∨
        (∃ o, value = .object o) ∨ value.truthy = false := by
  have htaken : ¬ Taken t value ↔
      ColumnTypes.text t = false ∨ ColumnTypes.jsonb (orEmpty (some value)) = false := by
    rw [Taken, not_and_or, Bool.not_eq_true, Bool.not_eq_true]
  rw [← or_assoc, ← htaken]
  constructor
  · intro h
    by_cases ht : Taken t value
    · exact Or.inr (storedAsObject_of_promised h ht)
    · exact Or.inl ht
  · rintro (hrejected | hobj)
    · refine Or.inl fun loads arg args now d hloads => ?_
      rcases main_parsed hloads t args now d with ⟨-, he⟩ | ⟨ht, -⟩
      · exact ⟨_, he⟩
      · exact absurd ht hrejected
    · have horEmpty := orEmpty_of_storedAsObject hobj
      refine Or.inr ⟨fun cfg l ca ua i hl hid => ?_,
        fun loads arg args now d exit i hloads hexit hid => ?_⟩
      · obtain ⟨j, hj, rfl, hin⟩ := enqueue_inMemory hid
        have hw : WellKeyed (enqueue j.jobType (some value) ca ua l.store).2 :=
          wellKeyed_of_effect (exec_effect
            (.enqueue j.jobType (some (orEmpty (some value))) none ca ua) l.store)
            (Ledger.wellKeyed_of_reachable hl)
        exact delivers_inMemory hw hj (hin.trans horEmpty) base
      · obtain ⟨j, hj, rfl, hin⟩ := enqueue_postgres hid
        rcases main_parsed hloads j.jobType args now d with ⟨-, he⟩ | ⟨-, exit', he⟩
        · exact nomatch (congrArg Prod.fst he).symm.trans hexit
        · rw [he]
          exact delivers_postgres hj (hin.trans horEmpty) base

end Columns

attribute [local instance] ColumnTypes.nulFree in
/-- The argument `[1]`: `InMemoryStore` raises, and the handler of the type is given an array. -/
theorem payload_promised_array :
    let value : Document := .array [.scalar (.num 1)]
    let d : PostgresStore :=
      PostgresStore.setTypeConfig "hello" defaultRunTimeout 3 none ⟨∅, ∅, ∅, 1, 1⟩
    let enqueued := (main (fun _ => some value) ["hello", "[1]"] 1 d).2
    (∃ xs, (Store.resolvePayload 1 "hello" 3 (after [.claim 1 2] enqueued)).1 =
        .ok (some (.array xs))) ∧
      ¬ Promised "hello" value ∅ := by
  refine ⟨⟨_, rfl⟩, fun h => ?_⟩
  rcases storedAsObject_of_promised h ⟨rfl, rfl⟩ with ⟨o, ho⟩ | hfalsy
  · exact nomatch ho
  · exact nomatch hfalsy

end Handler

end JobWorkflow
