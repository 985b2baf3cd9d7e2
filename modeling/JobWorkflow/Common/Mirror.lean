import JobWorkflow.Common.Correspondence
import JobWorkflow.Common.Db
import JobWorkflow.Machinery.Pointwise

/-!
# Common/Mirror — the two stores answer alike

`InMemoryStore` promises to mirror the Postgres semantics.  The two are compared under a renaming of
job ids: a conflicting insert consumes an identity value, so the ids Postgres hands out have gaps.

* `Mirrors` — the jobs and the outbox rows correspond one by one, in order, and a type has the same
  configuration on both sides.
* `CallRel`, `ReplyRel` — the same call, and the same answer, up to the renaming.
* `Call.Taken` — the columns take what an enqueue would store, and give it back as it was.
-/

namespace JobWorkflow

open InMemoryStore

/-! ## Renamings -/

/-- The ids of the same runs, on the in-memory side and on the Postgres side. -/
abbrev Renaming := List (JobId × JobId)

namespace Renaming

/-- The renaming preserves and reflects the order. -/
def Monotone (ρ : Renaming) : Prop := ∀ p ∈ ρ, ∀ q ∈ ρ, p.1 < q.1 ↔ p.2 < q.2

/-- The two ids name the same run, or no run on either side. -/
def Corr (ρ : Renaming) (i i' : JobId) : Prop := ∀ p ∈ ρ, p.1 = i ↔ p.2 = i'

theorem Monotone.corr {ρ : Renaming} (hρ : ρ.Monotone) {i i' : JobId} (h : (i, i') ∈ ρ) :
    ρ.Corr i i' := by
  intro p hp
  have hlt : p.1 < i ↔ p.2 < i' := hρ p hp _ h
  have hgt : i < p.1 ↔ i' < p.2 := hρ _ h p hp
  constructor
  · rintro rfl
    exact le_antisymm (not_lt.mp (mt hgt.mpr (lt_irrefl _))) (not_lt.mp (mt hlt.mpr (lt_irrefl _)))
  · rintro rfl
    exact le_antisymm (not_lt.mp (mt hgt.mp (lt_irrefl _))) (not_lt.mp (mt hlt.mp (lt_irrefl _)))

end Renaming

variable {ρ : Renaming}

/-! ## The relation -/

/-- A job and a row of `jobs` agree; a job nobody is known to have created has no
creator columns. -/
structure JobRel (ρ : Renaming) (e : JobId × Job) (r : JobRow) : Prop where
  ids : (e.1, r.id) ∈ ρ
  id_eq : e.2.id = e.1
  jobType : e.2.jobType = r.jobType
  status : e.2.status = r.status
  object : ∃ o, r.inputPayload = .object o
  inputPayload : e.2.inputPayload = r.inputPayload
  payload : e.2.payload = r.payload
  attempts : e.2.attempts = r.attempts
  createdAt : e.2.createdAt = r.createdAt
  updatedAt : e.2.updatedAt = r.updatedAt
  creator : e.2.createdBy.getD .anonymous =
    ⟨r.createdBySub, r.createdByType, r.createdByClient.map .text⟩

/-- An outbox message and a row of `outbox` agree. -/
structure OutboxRel (ρ : Renaming) (published : Finset OutboxId) (e : OutboxId × OutboxMessage)
    (r : OutboxRow) : Prop where
  key : e.1 = r.id
  id_eq : e.2.id = e.1
  ids : (e.2.jobId, r.jobId) ∈ ρ
  message : e.2.payload.jobId = e.2.jobId
  envelope : r.payload.jobId = r.jobId
  jobType : e.2.payload.jobType = r.payload.jobType
  published : e.1 ∈ published ↔ r.publishedAt.isSome

/-- A type's configuration and its row agree. -/
structure ConfigRel (cfg : TypeConfig) (row : ConfigRow) : Prop where
  runTimeout : cfg.runTimeout = row.runTimeout
  maxAttempts : cfg.maxAttempts = row.maxAttempts
  payload : row.payload = .object cfg.payload

/-- Every type has the same configuration. -/
def SameConfig (cfg : Dict String TypeConfig) (table : Table configSchema) : Prop :=
  ∀ t, Option.Rel ConfigRel (cfg.get? t) (table.find? t)

theorem SameConfig.cases {cfg : Dict String TypeConfig} {table : Table configSchema}
    (h : SameConfig cfg table) (t : String) :
    (cfg.get? t = none ∧ table.find? t = none) ∨
      ∃ c row, cfg.get? t = some c ∧ table.find? t = some row ∧ ConfigRel c row := by
  have hrel := h t
  generalize cfg.get? t = a at hrel ⊢
  generalize table.find? t = b at hrel ⊢
  cases hrel with
  | none => exact Or.inl ⟨rfl, rfl⟩
  | some hc => exact Or.inr ⟨_, _, rfl, rfl, hc⟩

/-- **The stores mirror each other.** -/
structure Mirrors (ρ : Renaming) (s : InMemoryStore) (d : PostgresStore) : Prop where
  monotone : ρ.Monotone
  below : ∀ p ∈ ρ, p.1 < s.nextJobId ∧ p.2 < d.jobIdentity
  jobs : List.Forall₂ (JobRel ρ) s.jobs.items d.jobs.rows
  outbox : List.Forall₂ (OutboxRel ρ s.published) s.outbox.items d.outbox.rows
  outbox_sorted : s.outbox.items.Pairwise fun e e' => e.1 < e'.1
  outbox_below : ∀ e ∈ s.outbox.items, e.1 < s.nextOutboxId
  nextOutboxId : s.nextOutboxId = d.outboxIdentity
  config : SameConfig s.typeConfig d.jobTypeConfig

/-- The same call on the two stores, as the components make it: payloads are objects, limits are not
negative, a marked row and a resolved envelope are of the outbox. -/
inductive CallRel (ρ : Renaming) (s : InMemoryStore) : Call → Call → Prop
  | enqueue {t cr now} {p : Option Payload} :
      CallRel ρ s (.enqueue t (p.map .object) cr now now) (.enqueue t (p.map .object) cr now now)
  | fetchUnpublished {limit} (h : 0 ≤ limit) :
      CallRel ρ s (.fetchUnpublished limit) (.fetchUnpublished limit)
  | markDispatched {o i i' now} (h : ρ.Corr i i')
      (hm : ∃ m, s.outbox.get? o = some m ∧ m.jobId = i) :
      CallRel ρ s (.markDispatched o i now) (.markDispatched o i' now)
  | claim {i i' now} (h : ρ.Corr i i') : CallRel ρ s (.claim i now) (.claim i' now)
  | resolvePayload {i i' t now} (h : ρ.Corr i i')
      (hm : ∃ o m, s.outbox.get? o = some m ∧ m.payload = ⟨i, t⟩) :
      CallRel ρ s (.resolvePayload i t now) (.resolvePayload i' t now)
  | complete {i i' now} (h : ρ.Corr i i') : CallRel ρ s (.complete i now) (.complete i' now)
  | fail {i i' now} (h : ρ.Corr i i') : CallRel ρ s (.fail i now) (.fail i' now)
  | findStuck {now} : CallRel ρ s (.findStuck now) (.findStuck now)
  | requeueStuck {i i' now} (h : ρ.Corr i i') :
      CallRel ρ s (.requeueStuck i now) (.requeueStuck i' now)
  | deadLetter {i i' now} (h : ρ.Corr i i') : CallRel ρ s (.deadLetter i now) (.deadLetter i' now)
  | getJob {i i'} (h : ρ.Corr i i') : CallRel ρ s (.getJob i) (.getJob i')
  | setTypeConfig {t timeout cap p} :
      CallRel ρ s (.setTypeConfig t timeout cap p) (.setTypeConfig t timeout cap p)

/-- A client id, if there is one, is text. -/
def hasTextClient (cr : Option Creator) : Bool :=
  (cr.bind Creator.clientId).all fun v => v.asText.isSome

/-- **The columns take the call**: all that an enqueue or an operator would insert, and the client
id of a job that is inserted is text, as it is annotated. -/
def Call.Taken [ColumnTypes] (s : InMemoryStore) : Call → Prop
  | .enqueue t p cr _ _ =>
    PostgresStore.takes t p cr = true ∧ (hasTextClient cr = true ∨ s.active t = true)
  | .setTypeConfig t _ _ p => PostgresStore.takesConfig t p = true
  | _ => True

/-- The same row to publish. -/
structure MessageRel (ρ : Renaming) (m m' : OutboxMessage) : Prop where
  id : m.id = m'.id
  jobId : (m.jobId, m'.jobId) ∈ ρ
  payload : (m.payload.jobId, m'.payload.jobId) ∈ ρ
  jobType : m.payload.jobType = m'.payload.jobType

/-- The same stuck run. -/
structure StuckRel (ρ : Renaming) (x x' : StuckJob) : Prop where
  jobId : (x.jobId, x'.jobId) ∈ ρ
  jobType : x.jobType = x'.jobType
  attempts : x.attempts = x'.attempts

/-- The same job; no creator is as good as an all-None one. -/
structure SameJob (ρ : Renaming) (j j' : Job) : Prop where
  id : (j.id, j'.id) ∈ ρ
  jobType : j.jobType = j'.jobType
  status : j.status = j'.status
  inputPayload : j.inputPayload = j'.inputPayload
  payload : j.payload = j'.payload
  attempts : j.attempts = j'.attempts
  createdAt : j.createdAt = j'.createdAt
  updatedAt : j.updatedAt = j'.updatedAt
  createdBy : j.createdBy.getD .anonymous = j'.createdBy.getD .anonymous

/-- The same answer; stuck runs are listed in any order. -/
inductive ReplyRel (ρ : Renaming) : Reply → Reply → Prop
  | jobId {r r'} (h : Option.Rel (fun i i' => (i, i') ∈ ρ) r r') :
      ReplyRel ρ (.jobId r) (.jobId r')
  | rows {ms ms'} (h : List.Forall₂ (MessageRel ρ) ms ms') : ReplyRel ρ (.rows ms) (.rows ms')
  | unit : ReplyRel ρ .unit .unit
  | flag {b} : ReplyRel ρ (.flag b) (.flag b)
  | payload {p} : ReplyRel ρ (.payload (.ok p)) (.payload (.ok p))
  | stuck {xs xs'} (h : ∀ x ∈ xs, ∃ x' ∈ xs', StuckRel ρ x x')
      (h' : ∀ x' ∈ xs', ∃ x ∈ xs, StuckRel ρ x x') : ReplyRel ρ (.stuck xs) (.stuck xs')
  | job {r r'} (h : Option.Rel (SameJob ρ) r r') : ReplyRel ρ (.job r) (.job r')

/-! ## Client ids -/

theorem hasTextClient_iff {cr : Option Creator} : hasTextClient cr = true ↔
    ∃ clientId : Option String, (cr.getD .anonymous).clientId = clientId.map .text := by
  cases cr with
  | none => exact iff_of_true rfl ⟨none, rfl⟩
  | some creator =>
    obtain ⟨sub, type, clientId⟩ := creator
    cases clientId with
    | none => exact iff_of_true rfl ⟨none, rfl⟩
    | some v =>
      change v.asText.isSome = true ↔ ∃ clientId : Option String, some v = clientId.map .text
      rw [Option.isSome_iff_exists]
      constructor
      · rintro ⟨s, hs⟩
        exact ⟨some s, congrArg some (Json.asText_eq_some.mp hs)⟩
      · rintro ⟨clientId, h⟩
        obtain ⟨s, -, hs⟩ := Option.map_eq_some_iff.mp h.symm
        exact ⟨s, Json.asText_eq_some.mpr hs.symm⟩

/-- A text that the column takes is read back. -/
theorem clientId_read_back [ColumnTypes] {t : String} {p : Option Document} {cr : Option Creator}
    (ht : PostgresStore.takes t p cr = true) (hc : hasTextClient cr = true) :
    ((cr.getD .anonymous).clientId.bind PostgresStore.toText).map .text =
      (cr.getD .anonymous).clientId := by
  obtain ⟨clientId, hclient⟩ := hasTextClient_iff.mp hc
  have hall : (cr.getD .anonymous).clientId.all (fun v => (PostgresStore.toText v).isSome) = true :=
    (Bool.and_eq_true_iff.mp ht).2
  rw [hclient] at hall ⊢
  cases clientId with
  | none => rfl
  | some s =>
    change (if ColumnTypes.text s then some s else none).isSome = true at hall
    change Option.map _ (if ColumnTypes.text s then some s else none) = _
    split at hall
    · rename_i hs
      rw [if_pos hs]
    · exact nomatch hall

/-! ## Lookups -/

variable {s : InMemoryStore} {d : PostgresStore} {i i' : JobId} {now : Time}

namespace Mirrors

/-- Corresponding ids find related jobs, or none. -/
theorem getJob_cases (h : Mirrors ρ s d) (hi : ρ.Corr i i') :
    (s.getJob i = none ∧ d.jobs.find? i' = none) ∨
      ∃ j r, s.getJob i = some j ∧ d.jobs.find? i' = some r ∧ JobRel ρ (i, j) r := by
  rcases h.jobs.find?_cases (p := fun e => e.1 = i) (q := fun r => r.id = i')
    fun e r hr => decide_eq_decide.mpr (hi _ hr.ids) with ⟨he, hr⟩ | ⟨e, r, he, hr, hrel⟩
  · exact Or.inl ⟨by rw [InMemoryStore.getJob, Dict.get?, he]; rfl, hr⟩
  · have hkey : e.1 = i := by simpa using List.find?_some he
    refine Or.inr ⟨e.2, r, by rw [InMemoryStore.getJob, Dict.get?, he]; rfl, hr, ?_⟩
    rw [← hkey]
    exact hrel

/-- The jobs may be rewritten on both sides, if they stay related. -/
theorem withJobs (h : Mirrors ρ s d) {jobs : Dict JobId Job} {table : Table jobsSchema}
    (hjobs : List.Forall₂ (JobRel ρ) jobs.items table.rows) :
    Mirrors ρ { s with jobs := jobs } { d with jobs := table } :=
  ⟨h.monotone, h.below, hjobs, h.outbox, h.outbox_sorted, h.outbox_below, h.nextOutboxId, h.config⟩

end Mirrors

/-! ## Updates of one job -/

/-- Only the jobs change. -/
theorem guardedUpdate_frame (guard : Job → Bool) (update : Job → Job) (i : JobId)
    (s : InMemoryStore) : (InMemoryStore.guardedUpdate guard update i s).2 =
      { s with jobs := (InMemoryStore.guardedUpdate guard update i s).2.jobs } := by
  rcases guardedUpdate_cases guard update i s with ⟨j, -, -, he⟩ | ⟨-, he⟩
  · rw [he]
  · rw [he]

/-- A conditional update of the value at a key, on the items. -/
theorem guardedUpdate_items (guard : Job → Bool) (update : Job → Job) (i : JobId)
    (s : InMemoryStore) : (InMemoryStore.guardedUpdate guard update i s).2.jobs.items =
      s.jobs.items.map fun e => if e.1 = i ∧ guard e.2 = true then (e.1, update e.2) else e := by
  rcases guardedUpdate_cases guard update i s with ⟨j, hj, hg, he⟩ | ⟨hno, he⟩
  · rw [he]
    refine (Dict.items_set_map (fun _ => update j) hj).trans (List.map_congr_left fun e hmem => ?_)
    by_cases hk : e.1 = i
    · have hv : e.2 = j :=
        Option.some.inj ((Dict.get?_eq_some.mpr (hk ▸ hmem : (i, e.2) ∈ _)).symm.trans hj)
      rw [if_pos hk, if_pos ⟨hk, hv ▸ hg⟩, hv]
    · rw [if_neg hk, if_neg fun h => hk h.1]
  · rw [he]
    refine (List.map_id' _).symm.trans (List.map_congr_left fun e hmem => ?_)
    refine (if_neg ?_).symm
    rintro ⟨rfl, hg⟩
    exact Bool.false_ne_true ((hno e.2 (Dict.get?_eq_some.mpr hmem)).symm.trans hg)

/-- Whether it took effect. -/
theorem guardedUpdate_flag (guard : Job → Bool) (update : Job → Job) (i : JobId)
    (s : InMemoryStore) : (InMemoryStore.guardedUpdate guard update i s).1 =
      decide (s.jobs.items.countP (fun e => e.1 = i ∧ guard e.2) = 1) := by
  have hiff : (InMemoryStore.guardedUpdate guard update i s).1 = true ↔
      s.jobs.items.countP (fun e => e.1 = i ∧ guard e.2) = 1 := by
    rw [Dict.countP_key_eq_one]
    rcases guardedUpdate_cases guard update i s with ⟨j, hj, hg, he⟩ | ⟨hno, he⟩
    · rw [he]
      exact ⟨fun _ => ⟨j, hj, hg⟩, fun _ => rfl⟩
    · rw [he]
      refine ⟨fun h => absurd h Bool.false_ne_true, ?_⟩
      rintro ⟨j, hj, hg⟩
      exact absurd ((hno j hj).symm.trans hg) Bool.false_ne_true
  exact Bool.eq_iff_iff.mpr (hiff.trans (decide_eq_true_iff).symm)

end JobWorkflow
