import JobWorkflow.Common.Correspondence
import JobWorkflow.Common.Messaging

/-!
# System/Relay — the outbox between the store and the producer

A relay is a ledger together with every message handed to the producer.  Any call may be made at any
time by anyone, except that `publish` and `mark_dispatched` take a row that some earlier fetch
returned, however stale.

* `Relay.Sound` — what every reachable relay satisfies: the store's jobs and rows correspond, and
  what was fetched is in the outbox.
* `outbox_corresponds_to_jobs` — the correspondence in every reachable state, with whatever was
  produced being the envelope of an existing job.
-/

namespace JobWorkflow

open InMemoryStore

variable {ι : Type} {s s' : InMemoryStore} {c : Call} {r : Reply}

/-! ## The relay -/

/-- The rows a fetch returned. -/
def Reply.fetched : Reply → List OutboxMessage
  | .rows ms => ms
  | _ => []

/-- A ledger, and what was handed to the producer, oldest first. -/
structure Relay (ι : Type) where
  ledger : Ledger ι
  produced : List Record

namespace Relay

def store (r : Relay ι) : InMemoryStore := r.ledger.store

def start (cfg : Dict String TypeConfig) : Relay ι := ⟨.start cfg, []⟩

/-- The rows returned by the fetches so far. -/
def fetched (r : Relay ι) : List OutboxMessage := r.ledger.journal.flatMap fun e => e.reply.fetched

def perform (r : Relay ι) (actor : ι) (c : Call) : Relay ι :=
  { r with ledger := r.ledger.perform actor c }

def publish (r : Relay ι) (topic : String) (msg : OutboxMessage) : Relay ι :=
  { r with produced := r.produced ++ [recordOf topic msg] }

inductive Action (ι : Type)
  | call (actor : ι) (c : Call)
  | publish (topic : String) (msg : OutboxMessage)
  | mark (actor : ι) (msg : OutboxMessage) (now : Time)

/-- Any call but a `mark_dispatched`; a row is published or marked only if it was fetched. -/
def step (r : Relay ι) : Action ι → Option (Relay ι)
  | .call _ (.markDispatched _ _ _) => none
  | .call actor c => some (r.perform actor c)
  | .publish topic msg => if msg ∈ r.fetched then some (r.publish topic msg) else none
  | .mark actor msg now =>
    if msg ∈ r.fetched then some (r.perform actor (.markDispatched msg.id msg.jobId now)) else none

variable {r r' : Relay ι} {a : Action ι}

theorem step_call {actor : ι} (h : ∀ o i now, c ≠ .markDispatched o i now) :
    step r (.call actor c) = some (r.perform actor c) := by
  cases c with
  | markDispatched o i now => exact absurd rfl (h o i now)
  | _ => rfl

/-- **A step is a call or a publication**, of a fetched row where it is of a row. -/
theorem step_cases (h : step r a = some r') :
    (∃ actor c, (∀ o i now, c = .markDispatched o i now →
        ∃ m ∈ r.fetched, m.id = o ∧ m.jobId = i) ∧ r' = r.perform actor c) ∨
      ∃ topic, ∃ m ∈ r.fetched, r' = r.publish topic m := by
  cases a with
  | call actor c =>
    cases c with
    | markDispatched o i now => exact nomatch h
    | _ =>
      refine Or.inl ⟨actor, _, ?_, (Option.some.inj h).symm⟩
      exact fun _ _ _ he => nomatch he
  | publish topic msg =>
    obtain ⟨hmem, h⟩ := Option.ite_none_right_eq_some.mp h
    exact Or.inr ⟨topic, msg, hmem, (Option.some.inj h).symm⟩
  | mark actor msg now =>
    obtain ⟨hmem, h⟩ := Option.ite_none_right_eq_some.mp h
    refine Or.inl ⟨actor, _, fun o i now' he => ?_, (Option.some.inj h).symm⟩
    obtain ⟨rfl, rfl, -⟩ := Call.markDispatched.inj he
    exact ⟨msg, hmem, rfl, rfl⟩

/-- The relay's ledger is a run of the ledger. -/
theorem ledger_reachable {cfg : Dict String TypeConfig}
    (h : Runs.Reachable step (start cfg) r) :
    Runs.Reachable Ledger.step (Ledger.start cfg) r.ledger := by
  refine h.simulate (I := fun _ => True) ledger trivial (fun _ _ _ _ _ => trivial) ?_
  intro r a r' _ ha
  rcases step_cases ha with ⟨actor, c, -, rfl⟩ | ⟨topic, m, -, rfl⟩
  · exact Or.inr ⟨(actor, c), rfl⟩
  · exact Or.inl rfl

/-- What every reachable relay satisfies. -/
structure Sound (r : Relay ι) : Prop where
  wellKeyed : WellKeyed r.store
  corresponds : Corresponds r.store
  fetched_row : ∀ m ∈ r.fetched, r.store.outbox.get? m.id = some m
  produced_job : ∀ rec ∈ r.produced, ∃ j, r.store.getJob rec.message.jobId = some j ∧
    rec.message = buildEnvelope j.id j.jobType ∧ rec.key = toString j.id

theorem Sound.start (cfg : Dict String TypeConfig) : Sound (start (ι := ι) cfg) :=
  ⟨Ledger.wellKeyed_start (ι := ι) cfg, .empty cfg, fun _ h => (nomatch h), fun _ h => (nomatch h)⟩

/-- Only a fetch returns rows, and they are rows of the outbox. -/
theorem exec_fetched (hs : Corresponds s) {m : OutboxMessage} (h : m ∈ (exec s c).1.fetched) :
    s.outbox.get? m.id = some m := by
  cases c with
  | fetchUnpublished limit =>
    obtain ⟨o, ho, -⟩ := mem_fetchUnpublished h
    rw [hs.row_id o m ho]
    exact ho
  | _ => exact nomatch h

theorem Sound.perform (hr : Sound r) (actor : ι) (c : Call) (hmark : ∀ o i now,
    c = .markDispatched o i now → ∃ m ∈ r.fetched, m.id = o ∧ m.jobId = i) :
    Sound (r.perform actor c) := by
  have heff := exec_effect c r.store
  refine ⟨wellKeyed_of_effect heff hr.wellKeyed,
    corresponds_of_effect heff hr.wellKeyed hr.corresponds fun o i now hc => ?_,
    fun m hm => heff.row hr.corresponds ?_, fun rec hrec => ?_⟩
  · obtain ⟨m, hm, rfl, rfl⟩ := hmark o i now hc
    exact ⟨m, hr.fetched_row m hm, rfl⟩
  · rcases List.mem_append.mp hm with hm | hm
    · exact exec_fetched hr.corresponds hm
    · exact hr.fetched_row m hm
  · obtain ⟨j, hj, hmsg, hkey⟩ := hr.produced_job rec hrec
    obtain ⟨j', hj', hmove⟩ := heff.job hr.wellKeyed hj
    exact ⟨j', hj', by rw [hmove.id_eq, hmove.jobType_eq]; exact hmsg,
      by rw [hmove.id_eq]; exact hkey⟩

theorem Sound.publish (hr : Sound r) (topic : String) {m : OutboxMessage} (hm : m ∈ r.fetched) :
    Sound (r.publish topic m) := by
  refine ⟨hr.wellKeyed, hr.corresponds, hr.fetched_row, fun rec hrec => ?_⟩
  rcases List.mem_append.mp hrec with hrec | hrec
  · exact hr.produced_job rec hrec
  · obtain rfl := List.mem_singleton.mp hrec
    obtain ⟨j, hj, hp⟩ := hr.corresponds.row_job m.id m (hr.fetched_row m hm)
    have hid : j.id = m.jobId := hr.wellKeyed.id_eq _ j hj
    refine ⟨j, ?_, ?_, ?_⟩
    · rw [recordOf, hp]
      exact hj
    · rw [hid]
      exact hp
    · rw [hid]
      rfl

theorem Sound.of_step (hr : Sound r) (h : step r a = some r') : Sound r' := by
  rcases step_cases h with ⟨actor, c, hmark, rfl⟩ | ⟨topic, m, hm, rfl⟩
  · exact hr.perform actor c hmark
  · exact hr.publish topic hm

theorem sound_of_reachable {cfg : Dict String TypeConfig}
    (h : Runs.Reachable step (start cfg) r) : Sound r :=
  h.invariant (Sound.start cfg) fun _ _ _ hr ha => hr.of_step ha

end Relay

/-- **Outbox-job correspondence.**  In every reachable state each job has exactly one outbox row,
each row holds the envelope of an existing job, the row of a queued job is unpublished and that of a
dispatched job is published, and every message ever handed to the producer is the envelope of an
existing job, keyed by that job's id. -/
theorem outbox_corresponds_to_jobs {cfg : Dict String TypeConfig} {r : Relay ι}
    (h : Runs.Reachable Relay.step (Relay.start cfg) r) :
    (∀ i j, r.store.getJob i = some j →
      ∃! o, ∃ m, r.store.outbox.get? o = some m ∧ m.jobId = i) ∧
    (∀ o m, r.store.outbox.get? o = some m → ∃ j, r.store.getJob m.jobId = some j ∧
      m.payload = buildEnvelope m.jobId j.jobType ∧
      (j.status = .queued → o ∉ r.store.published) ∧
      (j.status = .dispatched → o ∈ r.store.published)) ∧
    ∀ rec ∈ r.produced, ∃ j, r.store.getJob rec.message.jobId = some j ∧
      rec.message = buildEnvelope rec.message.jobId j.jobType ∧
      rec.key = toString rec.message.jobId := by
  have hr : Relay.Sound r := Relay.sound_of_reachable h
  refine ⟨fun i j hj => ?_, fun o m hm => ?_, fun rec hrec => ?_⟩
  · obtain ⟨o, m, hm, hi⟩ := hr.corresponds.job_row i j hj
    refine ⟨o, ⟨m, hm, hi⟩, ?_⟩
    rintro o' ⟨m', hm', hi'⟩
    exact hr.corresponds.row_unique o' o m' m hm' hm (hi'.trans hi.symm)
  · obtain ⟨j, hj, hp⟩ := hr.corresponds.row_job o m hm
    exact ⟨j, hj, hp, hr.corresponds.queued_unpublished o m j hm hj,
      hr.corresponds.dispatched_published o m j hm hj⟩
  · obtain ⟨j, hj, hmsg, hkey⟩ := hr.produced_job rec hrec
    obtain hid : j.id = rec.message.jobId := hr.wellKeyed.id_eq _ j hj
    rw [hid] at hmsg hkey
    exact ⟨j, hj, hmsg, hkey⟩

/-- A stale mark after a re-arm: the row is published again, and the queued job is moved with it. -/
theorem outbox_corresponds_to_jobs_stale_mark :
    let m : OutboxMessage := ⟨1, 1, buildEnvelope 1 "hello"⟩
    let as : List (Relay.Action Unit) :=
      [.call () (.enqueue "hello" none none 0 0), .call () (.fetchUnpublished 10),
        .publish "jobs" m, .call () (.claim 1 1), .call () (.requeueStuck 1 2), .mark () m 3]
    ∃ r, Runs.run Relay.step (Relay.start ∅) as = some r ∧ 1 ∈ r.store.published ∧
      ∃! o, ∃ m, r.store.outbox.get? o = some m ∧ m.jobId = 1 := by
  intro m as
  have h : Runs.Reachable Relay.step (Relay.start ∅) _ := ⟨as, rfl⟩
  exact ⟨_, rfl, by decide, (outbox_corresponds_to_jobs h).1 1 _ rfl⟩

end JobWorkflow
