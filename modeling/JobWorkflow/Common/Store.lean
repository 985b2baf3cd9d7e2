import JobWorkflow.Common.Models
import JobWorkflow.Machinery.Dict
import Mathlib.Data.Finset.Basic
import Mathlib.Data.List.Sort

/-!
# Common/Store — the `Store` protocol and `InMemoryStore`

`Store` is the protocol of `common/store.py`; a method takes the clock readings it makes and the
state it runs on, and returns its result with the state it leaves.  `InMemoryStore` is the
dictionary implementation.  Four of its mutators read one job, test it and rewrite it in place:
`guardedUpdate` is that shape, and `guardedUpdate_cases` is all a caller needs of them.
-/

namespace JobWorkflow

/-- What a database raises to its caller. -/
inductive StoreError
  | negativeLimit
  | dataError
deriving DecidableEq

/-- The operations the components call. -/
class Store (σ : Type) where
  enqueue : String → Option Document → Option Creator → Time → Time → σ →
    Except StoreError (Option JobId) × σ
  fetchUnpublished : ℤ → σ → Except StoreError (List OutboxMessage)
  markDispatched : OutboxId → JobId → Time → σ → σ
  claim : JobId → Time → σ → Bool × σ
  resolvePayload : JobId → String → Time → σ → Except TypeError (Option Document) × σ
  complete : JobId → Time → σ → Bool × σ
  fail : JobId → Time → σ → Bool × σ
  findStuck : Time → σ → List StuckJob
  requeueStuck : JobId → Time → σ → Bool × σ
  deadLetter : JobId → Time → σ → Bool × σ
  getJob : JobId → σ → Option Job

/-- `timedelta(minutes=15)`. -/
def defaultRunTimeout : Duration := 15 * 60 * 1000000

def defaultMaxAttempts : ℤ := 3

structure TypeConfig where
  runTimeout : Duration
  maxAttempts : ℤ
  payload : Payload

/-- The process-local store.  The two counters hold the value `next` returns next. -/
structure InMemoryStore where
  jobs : Dict JobId Job
  outbox : Dict OutboxId OutboxMessage
  published : Finset OutboxId
  typeConfig : Dict String TypeConfig
  nextJobId : JobId
  nextOutboxId : OutboxId

namespace InMemoryStore

/-- `InMemoryStore()`. -/
def empty : InMemoryStore := ⟨∅, ∅, ∅, ∅, 1, 1⟩

def setTypeConfig (jobType : String) (runTimeout : Duration) (maxAttempts : ℤ)
    (payload : Option Payload) (s : InMemoryStore) : InMemoryStore :=
  { s with typeConfig := s.typeConfig.set jobType ⟨runTimeout, maxAttempts, payload.getD ∅⟩ }

def timeout (s : InMemoryStore) (jobType : String) : Duration :=
  match s.typeConfig.get? jobType with
  | some cfg => cfg.runTimeout
  | none => defaultRunTimeout

def maxAttempts (s : InMemoryStore) (jobType : String) : ℤ :=
  match s.typeConfig.get? jobType with
  | some cfg => cfg.maxAttempts
  | none => defaultMaxAttempts

/-- Whether a job of the type is in an active status. -/
def active (s : InMemoryStore) (jobType : String) : Bool :=
  s.jobs.values.any fun j => j.jobType = jobType ∧ j.status ∈ JobStatus.active

def getJob (jobId : JobId) (s : InMemoryStore) : Option Job := s.jobs.get? jobId

/-! ## The operations -/

/-- The job `enqueue` builds. -/
def newJob (jobId : JobId) (jobType : String) (inputPayload : Option Document)
    (creator : Option Creator) (createdAt updatedAt : Time) : Job where
  id := jobId
  jobType := jobType
  status := .queued
  inputPayload := orEmpty inputPayload
  payload := .object ∅
  attempts := 0
  createdAt := createdAt
  updatedAt := updatedAt
  createdBy := creator

def enqueue (jobType : String) (inputPayload : Option Document) (creator : Option Creator)
    (createdAt updatedAt : Time) (s : InMemoryStore) : Option JobId × InMemoryStore :=
  if s.active jobType then (none, s)
  else
    let jobId := s.nextJobId
    let outboxId := s.nextOutboxId
    (some jobId,
      { s with
        jobs := s.jobs.set jobId
          (newJob jobId jobType inputPayload creator createdAt updatedAt)
        outbox := s.outbox.set outboxId ⟨outboxId, jobId, buildEnvelope jobId jobType⟩
        nextJobId := jobId + 1
        nextOutboxId := outboxId + 1 })

/-- `rows[:limit]`: a negative limit drops rows from the end. -/
def sliceTo {α : Type} (rows : List α) (limit : ℤ) : List α :=
  if 0 ≤ limit then rows.take limit.toNat else rows.take (rows.length - (-limit).toNat)

def fetchUnpublished (limit : ℤ) (s : InMemoryStore) : List OutboxMessage :=
  sliceTo
    (((s.outbox.items.insertionSort fun a b => a.1 ≤ b.1).filter
      fun e => e.1 ∉ s.published).map Prod.snd)
    limit

/-- Read a job, test it, and rewrite it in place if it passes. -/
def guardedUpdate (guard : Job → Bool) (update : Job → Job) (jobId : JobId)
    (s : InMemoryStore) : Bool × InMemoryStore :=
  match s.jobs.get? jobId with
  | some job =>
    if guard job then (true, { s with jobs := s.jobs.set jobId (update job) }) else (false, s)
  | none => (false, s)

def markDispatched (outboxId : OutboxId) (jobId : JobId) (now : Time) (s : InMemoryStore) :
    InMemoryStore :=
  (guardedUpdate (fun job => job.status = .queued)
    (fun job => { job with status := .dispatched, updatedAt := now }) jobId
    { s with published := insert outboxId s.published }).2

def claim (jobId : JobId) (now : Time) : InMemoryStore → Bool × InMemoryStore :=
  guardedUpdate (fun job => job.status ∈ [JobStatus.queued, JobStatus.dispatched])
    (fun job => { job with status := .running, updatedAt := now }) jobId

/-- The config is the one of the stored job's type; the message's type is not read. -/
def resolvePayload (jobId : JobId) (_jobType : String) (now : Time) (s : InMemoryStore) :
    Except TypeError (Option Document) × InMemoryStore :=
  match s.jobs.get? jobId with
  | none => (.ok none, s)
  | some job =>
    if job.status ≠ .running then (.ok none, s)
    else
      match s.typeConfig.get? job.jobType with
      | none => (.ok none, s)
      | some cfg =>
        match overlay cfg.payload job.inputPayload with
        | .error e => (.error e, s)
        | .ok payload =>
          (.ok (some (.object payload)),
            { s with
              jobs := s.jobs.set jobId { job with payload := .object payload, updatedAt := now } })

/-- `_terminal`. -/
def terminate (jobId : JobId) (status : JobStatus) (now : Time) :
    InMemoryStore → Bool × InMemoryStore :=
  guardedUpdate (fun job => job.status = .running)
    (fun job => { job with status := status, updatedAt := now }) jobId

def complete (jobId : JobId) (now : Time) : InMemoryStore → Bool × InMemoryStore :=
  terminate jobId .completed now

def fail (jobId : JobId) (now : Time) : InMemoryStore → Bool × InMemoryStore :=
  terminate jobId .failed now

def findStuck (now : Time) (s : InMemoryStore) : List StuckJob :=
  (s.jobs.values.filter fun job =>
    job.status = .running ∧ s.timeout job.jobType < now - job.updatedAt).map
      fun job => ⟨job.id, job.jobType, job.attempts⟩

/-- Discard the published flag of every outbox row of the job. -/
def rearm (jobId : JobId) (s : InMemoryStore) : Finset OutboxId :=
  s.outbox.items.foldl
    (fun published e => if e.2.jobId = jobId then published.erase e.1 else published) s.published

def requeueStuck (jobId : JobId) (now : Time) (s : InMemoryStore) : Bool × InMemoryStore :=
  match s.jobs.get? jobId with
  | none => (false, s)
  | some job =>
    if job.status ≠ .running then (false, s)
    else if s.maxAttempts job.jobType ≤ job.attempts then (false, s)
    else
      (true,
        { s with
          jobs := s.jobs.set jobId
            { job with status := .queued, attempts := job.attempts + 1, updatedAt := now }
          published := s.rearm jobId })

def deadLetter (jobId : JobId) (now : Time) : InMemoryStore → Bool × InMemoryStore :=
  guardedUpdate (fun job => job.status = .running)
    (fun job => { job with status := .failed, updatedAt := now }) jobId

instance : Store InMemoryStore where
  enqueue t p cr createdAt updatedAt s := (s.enqueue t p cr createdAt updatedAt).map .ok id
  fetchUnpublished limit s := .ok (s.fetchUnpublished limit)
  markDispatched := markDispatched
  claim := claim
  resolvePayload := resolvePayload
  complete := complete
  fail := fail
  findStuck := findStuck
  requeueStuck := requeueStuck
  deadLetter := deadLetter
  getJob := getJob

/-! ## One job rewritten -/

section PutJob

variable {s : InMemoryStore} {i : JobId} {j : Job}

/-- Job `i` rewritten in place. -/
def putJob (i : JobId) (j : Job) (s : InMemoryStore) : InMemoryStore :=
  { s with jobs := s.jobs.set i j }

@[simp] theorem getJob_putJob_self : (s.putJob i j).getJob i = some j :=
  Dict.get?_set_self s.jobs i j

theorem getJob_putJob_of_ne {k : JobId} (h : k ≠ i) : (s.putJob i j).getJob k = s.getJob k :=
  Dict.get?_set_of_ne s.jobs j h

@[simp] theorem putJob_putJob {j' : Job} : (s.putJob i j).putJob i j' = s.putJob i j' :=
  congrArg (fun jobs => { s with jobs := jobs }) (Dict.set_set s.jobs i j j')

@[simp] theorem putJob_typeConfig : (s.putJob i j).typeConfig = s.typeConfig := rfl

end PutJob

/-! ## What each operation can do -/

variable {s : InMemoryStore} {i : JobId} {now : Time}

theorem active_iff {jobType : String} : s.active jobType = true ↔
    ∃ i j, s.getJob i = some j ∧ j.jobType = jobType ∧ j.status ∈ JobStatus.active := by
  simp only [active, List.any_eq_true, Dict.mem_values, decide_eq_true_eq]
  constructor
  · rintro ⟨j, ⟨i, hi⟩, hj⟩
    exact ⟨i, j, hi, hj⟩
  · rintro ⟨i, j, hi, hj⟩
    exact ⟨j, ⟨i, hi⟩, hj⟩

theorem guardedUpdate_cases (guard : Job → Bool) (update : Job → Job) (i : JobId)
    (s : InMemoryStore) :
    (∃ job, s.getJob i = some job ∧ guard job = true ∧
      guardedUpdate guard update i s = (true, { s with jobs := s.jobs.set i (update job) })) ∨
    ((∀ job, s.getJob i = some job → guard job = false) ∧
      guardedUpdate guard update i s = (false, s)) := by
  unfold guardedUpdate getJob
  cases hi : s.jobs.get? i with
  | none => exact Or.inr ⟨fun _ h => (nomatch h), rfl⟩
  | some job =>
    cases hg : guard job with
    | true => exact Or.inl ⟨job, rfl, hg, if_pos hg⟩
    | false =>
      refine Or.inr ⟨fun job' h => Option.some.inj h ▸ hg, if_neg ?_⟩
      rw [hg]
      exact Bool.false_ne_true

theorem guardedUpdate_pass {guard : Job → Bool} {update : Job → Job} {job : Job}
    (hj : s.getJob i = some job) (hg : guard job = true) :
    guardedUpdate guard update i s = (true, { s with jobs := s.jobs.set i (update job) }) := by
  rcases guardedUpdate_cases guard update i s with ⟨job', hj', -, he⟩ | ⟨hno, -⟩
  · obtain rfl := Option.some.inj (hj.symm.trans hj')
    exact he
  · exact absurd (hg.symm.trans (hno job hj)) (by simp)

theorem guardedUpdate_refuse {guard : Job → Bool} {update : Job → Job}
    (h : ∀ job, s.getJob i = some job → guard job = false) :
    guardedUpdate guard update i s = (false, s) := by
  rcases guardedUpdate_cases guard update i s with ⟨job, hj, hg, -⟩ | ⟨-, he⟩
  · exact absurd (hg.symm.trans (h job hj)) (by simp)
  · exact he

/-- A row stays published exactly when it was and is not one of the job's. -/
theorem mem_rearm {o : OutboxId} : o ∈ s.rearm i ↔
    o ∈ s.published ∧ ∀ m, s.outbox.get? o = some m → m.jobId ≠ i := by
  have fold : ∀ (es : List (OutboxId × OutboxMessage)) (p : Finset OutboxId),
      o ∈ es.foldl (fun p e => if e.2.jobId = i then p.erase e.1 else p) p ↔
        o ∈ p ∧ ∀ m, (o, m) ∈ es → m.jobId ≠ i := by
    intro es
    induction es with
    | nil => simp
    | cons e es ih =>
      intro p
      obtain ⟨o', m'⟩ := e
      rw [List.foldl_cons, ih]
      by_cases h : m'.jobId = i
      · simp only [h, if_true, Finset.mem_erase, List.mem_cons, Prod.mk.injEq]
        constructor
        · rintro ⟨⟨hne, hp⟩, hes⟩
          exact ⟨hp, fun m hm => hm.elim (fun e => absurd e.1 hne) (hes m)⟩
        · rintro ⟨hp, hes⟩
          exact ⟨⟨fun he => hes m' (Or.inl ⟨he, rfl⟩) h, hp⟩, fun m hm => hes m (Or.inr hm)⟩
      · simp only [h, if_false, List.mem_cons, Prod.mk.injEq]
        constructor
        · rintro ⟨hp, hes⟩
          exact ⟨hp, fun m hm => hm.elim (fun e => e.2 ▸ h) (hes m)⟩
        · rintro ⟨hp, hes⟩
          exact ⟨hp, fun m hm => hes m (Or.inr hm)⟩
  rw [rearm, fold]
  exact and_congr_right fun _ => forall_congr' fun m => by rw [Dict.get?_eq_some]

theorem requeueStuck_cases (i : JobId) (now : Time) (s : InMemoryStore) :
    (∃ job, s.getJob i = some job ∧ job.status = .running ∧
      job.attempts < s.maxAttempts job.jobType ∧
      s.requeueStuck i now = (true,
        { s with
          jobs := s.jobs.set i
            { job with status := .queued, attempts := job.attempts + 1, updatedAt := now }
          published := s.rearm i })) ∨
    ((∀ job, s.getJob i = some job → job.status = .running →
        s.maxAttempts job.jobType ≤ job.attempts) ∧
      s.requeueStuck i now = (false, s)) := by
  unfold requeueStuck getJob
  cases hi : s.jobs.get? i with
  | none => exact Or.inr ⟨fun _ h => (nomatch h), rfl⟩
  | some job =>
    by_cases hr : job.status = .running
    · by_cases hc : s.maxAttempts job.jobType ≤ job.attempts
      · refine Or.inr ⟨fun job' h _ => Option.some.inj h ▸ hc, ?_⟩
        simp only [hr, hc, ne_eq, not_true, if_false, if_true]
      · refine Or.inl ⟨job, rfl, hr, not_le.mp hc, ?_⟩
        simp only [hr, hc, ne_eq, not_true, if_false]
    · refine Or.inr ⟨fun job' h hr' => absurd (Option.some.inj h ▸ hr') hr, ?_⟩
      simp only [hr, ne_eq, not_false_eq_true, if_true]

theorem resolvePayload_cases (i : JobId) (t : String) (now : Time) (s : InMemoryStore) :
    (∃ job cfg payload, s.getJob i = some job ∧ job.status = .running ∧
      s.typeConfig.get? job.jobType = some cfg ∧
      overlay cfg.payload job.inputPayload = .ok payload ∧
      s.resolvePayload i t now = (.ok (some (.object payload)),
        { s with
          jobs := s.jobs.set i { job with payload := .object payload, updatedAt := now } })) ∨
    ((s.resolvePayload i t now).2 = s ∧
      ((s.resolvePayload i t now).1 = .ok none ∨
        ∃ e, (s.resolvePayload i t now).1 = .error e)) := by
  unfold resolvePayload getJob
  cases hi : s.jobs.get? i with
  | none => exact Or.inr ⟨rfl, Or.inl rfl⟩
  | some job =>
    by_cases hr : job.status = .running
    · dsimp only
      rw [if_neg (not_not.mpr hr)]
      cases hcfg : s.typeConfig.get? job.jobType with
      | none => exact Or.inr ⟨rfl, Or.inl rfl⟩
      | some cfg =>
        dsimp only
        cases ho : overlay cfg.payload job.inputPayload with
        | error e => exact Or.inr ⟨rfl, Or.inr ⟨e, rfl⟩⟩
        | ok payload => exact Or.inl ⟨job, cfg, payload, rfl, hr, hcfg, ho, rfl⟩
    · dsimp only
      rw [if_pos hr]
      exact Or.inr ⟨rfl, Or.inl rfl⟩

/-- Nothing happens, unless the job is running and its type has a config. -/
theorem resolvePayload_of_none {t : String}
    (h : ∀ j, s.getJob i = some j → j.status = .running → s.typeConfig.get? j.jobType = none) :
    s.resolvePayload i t now = (.ok none, s) := by
  rw [resolvePayload]
  cases hj : s.jobs.get? i with
  | none => rfl
  | some j =>
    dsimp only
    split
    · rfl
    · rename_i hrun
      rw [h j hj (not_not.mp hrun)]

/-- The overlay of the type's config is stored and returned. -/
theorem resolvePayload_of_overlay {t : String} {j : Job} {cfg : TypeConfig} {p : Payload}
    (hj : s.getJob i = some j) (hrun : j.status = .running)
    (hcfg : s.typeConfig.get? j.jobType = some cfg)
    (ho : overlay cfg.payload j.inputPayload = .ok p) :
    s.resolvePayload i t now = (.ok (some (.object p)),
      { s with jobs := s.jobs.set i { j with payload := .object p, updatedAt := now } }) := by
  rw [resolvePayload, show s.jobs.get? i = some j from hj]
  dsimp only
  rw [if_neg (not_not.mpr hrun), hcfg]
  dsimp only
  rw [ho]

theorem resolvePayload_of_config {t : String} {j : Job} {cfg : TypeConfig} {o : Payload}
    (hj : s.getJob i = some j) (hrun : j.status = .running)
    (hcfg : s.typeConfig.get? j.jobType = some cfg) (ho : j.inputPayload = .object o) :
    s.resolvePayload i t now = (.ok (some (.object (o ∪ cfg.payload))),
      { s with
        jobs := s.jobs.set i { j with payload := .object (o ∪ cfg.payload), updatedAt := now } }) :=
  resolvePayload_of_overlay hj hrun hcfg (by rw [ho]; rfl)

/-- An input that is no mapping raises, and nothing is stored. -/
theorem resolvePayload_of_error {t : String} {j : Job} {cfg : TypeConfig} {e : TypeError}
    (hj : s.getJob i = some j) (hrun : j.status = .running)
    (hcfg : s.typeConfig.get? j.jobType = some cfg)
    (ho : overlay cfg.payload j.inputPayload = .error e) :
    s.resolvePayload i t now = (.error e, s) := by
  rw [resolvePayload, show s.jobs.get? i = some j from hj]
  dsimp only
  rw [if_neg (not_not.mpr hrun), hcfg]
  dsimp only
  rw [ho]

/-- `None` says that the job is not running or that its type has no config. -/
theorem resolvePayload_eq_none {t : String} : (s.resolvePayload i t now).1 = .ok none ↔
    ∀ j, s.getJob i = some j → j.status = .running → s.typeConfig.get? j.jobType = none := by
  refine ⟨fun h j hj hrun => ?_, fun h => by rw [resolvePayload_of_none h]⟩
  rw [resolvePayload, show s.jobs.get? i = some j from hj] at h
  dsimp only at h
  rw [if_neg (not_not.mpr hrun)] at h
  cases hcfg : s.typeConfig.get? j.jobType with
  | none => rfl
  | some cfg =>
    rw [hcfg] at h
    dsimp only at h
    cases ho : overlay cfg.payload j.inputPayload with
    | error e => rw [ho] at h; exact nomatch h
    | ok payload => rw [ho] at h; exact nomatch h

theorem mem_of_mem_sliceTo {α : Type} {rows : List α} {limit : ℤ} {a : α}
    (h : a ∈ sliceTo rows limit) : a ∈ rows := by
  unfold sliceTo at h
  split at h
  · exact List.mem_of_mem_take h
  · exact List.mem_of_mem_take h

/-- A fetched row is an unpublished row of the outbox. -/
theorem mem_fetchUnpublished {limit : ℤ} {m : OutboxMessage} (h : m ∈ s.fetchUnpublished limit) :
    ∃ o, s.outbox.get? o = some m ∧ o ∉ s.published := by
  obtain ⟨⟨o, m'⟩, he, rfl⟩ := List.mem_map.mp (mem_of_mem_sliceTo h)
  obtain ⟨hmem, hp⟩ := List.mem_filter.mp he
  rw [List.mem_insertionSort] at hmem
  exact ⟨o, Dict.get?_eq_some.mpr hmem, of_decide_eq_true hp⟩

/-- The listed jobs are the ones running past their type's timeout. -/
theorem mem_findStuck {x : StuckJob} : x ∈ s.findStuck now ↔
    ∃ i j, s.getJob i = some j ∧ j.status = .running ∧
      s.timeout j.jobType < now - j.updatedAt ∧ x = ⟨j.id, j.jobType, j.attempts⟩ := by
  simp only [findStuck, List.mem_map, List.mem_filter, Dict.mem_values, decide_eq_true_eq, getJob]
  constructor
  · rintro ⟨j, ⟨⟨i, hi⟩, hr, ht⟩, rfl⟩
    exact ⟨i, j, hi, hr, ht, rfl⟩
  · rintro ⟨i, j, hi, hr, ht, rfl⟩
    exact ⟨j, ⟨⟨i, hi⟩, hr, ht⟩, rfl⟩

end InMemoryStore

end JobWorkflow
