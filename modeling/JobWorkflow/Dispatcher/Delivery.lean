import JobWorkflow.Common.Outbox
import JobWorkflow.Dispatcher.Service
import JobWorkflow.Machinery.Pointwise
import JobWorkflow.Machinery.Runs

/-!
# Dispatcher/Delivery — `dispatch_once` with `KafkaProducer`, under broker failures

`flush` tells its caller nothing, and `publish` registers no delivery callback, so the loop marks
every row it fetched whatever the broker answered (`dispatchBatch_kafka`).

* `failed_delivery_loses` — one failed delivery, and the row is published while no message exists.
* `delivered_iff_broker_accepts` — the rows marked are the rows accepted, and no state of a run has
  a published row without its message, exactly in the runs in which the broker accepts the message
  of every row that is fetched.
-/

namespace JobWorkflow

open ConfluentProducer

/-! ## One publication -/

/-- The outcome of the one fate of a queue of one message. -/
theorem mem_delivered_single {r : Record} {fates : List Bool} (h : fates.length = 1) :
    r ∈ delivered [r] fates ↔ fates = [true] := by
  obtain ⟨fate, rfl⟩ := List.length_eq_one_iff.mp h
  cases fate <;> simp [delivered]

theorem eq_of_mem_delivered_single {r r' : Record} {fates : List Bool}
    (h : r' ∈ delivered [r] fates) : r' = r := by
  obtain ⟨⟨_, fate⟩, hmem, rfl⟩ := List.mem_map.mp h
  exact List.mem_singleton.mp (List.of_mem_zip (List.mem_filter.mp hmem).1).1

variable {π : Type} [ConfluentProducer π]

namespace KafkaProducer

/-- The broker accepts the message when it is published. -/
def Accepts (r : Record) (p : KafkaProducer π) : Prop := fates (produce r p.producer) = [true]

section Lawful

variable [LawfulConfluentProducer π] {r : Record} {p : KafkaProducer π}

theorem queue_publish (r : Record) (p : KafkaProducer π) :
    queue (publish r p).2.producer = [] :=
  LawfulConfluentProducer.queue_flush _

theorem accepted_publish (hp : queue p.producer = []) : accepted (publish r p).2.producer =
    accepted p.producer ++ delivered [r] (fates (produce r p.producer)) := by
  rw [publish, LawfulConfluentProducer.accepted_flush, LawfulConfluentProducer.accepted_produce,
    LawfulConfluentProducer.queue_produce, hp]
  rfl

theorem length_fates_produce (hp : queue p.producer = []) :
    (fates (produce r p.producer)).length = 1 := by
  rw [LawfulConfluentProducer.length_fates, LawfulConfluentProducer.queue_produce, hp]
  rfl

end Lawful

end KafkaProducer

/-! ## One batch -/

variable {σ : Type} [Store σ] {topic : String}

/-- Mark the rows one after the other. -/
def markAll : List OutboxMessage → (ℕ → Time) → σ → σ
  | [], _, s => s
  | msg :: messages, clock, s =>
    markAll messages (fun k => clock (k + 1)) (Store.markDispatched msg.id msg.jobId (clock 0) s)

/-- Publish the rows one after the other. -/
def publishAll (topic : String) : List OutboxMessage → KafkaProducer π → KafkaProducer π
  | [], p => p
  | msg :: messages, p =>
    publishAll topic messages (KafkaProducer.publish (recordOf topic msg) p).2

/-- **Every row is marked, whatever the broker answers.** -/
theorem dispatchBatch_kafka (messages : List OutboxMessage) (clock : ℕ → Time) (s : σ)
    (p : KafkaProducer π) : dispatchBatch topic messages clock (s, p) =
      (.ok (), markAll messages clock s, publishAll topic messages p) := by
  induction messages generalizing clock s p with
  | nil => rfl
  | cons msg messages ih =>
    exact ih (fun k => clock (k + 1)) (Store.markDispatched msg.id msg.jobId (clock 0) s)
      (KafkaProducer.publish (recordOf topic msg) p).2

/-- The broker accepts each message of the batch in its turn. -/
def AcceptsAll (topic : String) : List OutboxMessage → KafkaProducer π → Prop
  | [], _ => True
  | msg :: messages, p => p.Accepts (recordOf topic msg) ∧
      AcceptsAll topic messages (KafkaProducer.publish (recordOf topic msg) p).2

/-- The messages of the batch that the broker accepts. -/
def acceptedOf (topic : String) : List OutboxMessage → KafkaProducer π → List Record
  | [], _ => []
  | msg :: messages, p =>
    delivered [recordOf topic msg] (fates (produce (recordOf topic msg) p.producer)) ++
      acceptedOf topic messages (KafkaProducer.publish (recordOf topic msg) p).2

theorem exists_of_mem_acceptedOf {rec : Record} (messages : List OutboxMessage)
    (p : KafkaProducer π) (h : rec ∈ acceptedOf topic messages p) :
    ∃ m ∈ messages, recordOf topic m = rec := by
  induction messages generalizing p with
  | nil => exact nomatch h
  | cons msg messages ih =>
    rcases List.mem_append.mp h with h | h
    · exact ⟨msg, List.mem_cons_self, (eq_of_mem_delivered_single h).symm⟩
    · obtain ⟨m, hm, he⟩ := ih _ h
      exact ⟨m, List.mem_cons_of_mem _ hm, he⟩

section Lawful

variable [LawfulConfluentProducer π]

theorem queue_publishAll (messages : List OutboxMessage) (p : KafkaProducer π)
    (hp : queue p.producer = []) : queue (publishAll topic messages p).producer = [] := by
  induction messages generalizing p with
  | nil => exact hp
  | cons msg messages ih => exact ih _ (p.queue_publish _)

theorem accepted_publishAll (messages : List OutboxMessage) (p : KafkaProducer π)
    (hp : queue p.producer = []) : accepted (publishAll topic messages p).producer =
      accepted p.producer ++ acceptedOf topic messages p := by
  induction messages generalizing p with
  | nil => exact (List.append_nil _).symm
  | cons msg messages ih =>
    rw [publishAll, ih _ (p.queue_publish _), KafkaProducer.accepted_publish hp, acceptedOf,
      List.append_assoc]

/-- If the messages differ, the broker accepts the batch exactly when each message is among those it
accepts. -/
theorem acceptsAll_iff (messages : List OutboxMessage) (p : KafkaProducer π)
    (hp : queue p.producer = []) (hnd : (messages.map (recordOf topic)).Nodup) :
    AcceptsAll topic messages p ↔
      ∀ m ∈ messages, recordOf topic m ∈ acceptedOf topic messages p := by
  induction messages generalizing p with
  | nil => exact iff_of_true trivial (fun _ h => (nomatch h))
  | cons msg messages ih =>
    obtain ⟨hnew, hnd⟩ := List.nodup_cons.mp hnd
    have hrest := ih (KafkaProducer.publish (recordOf topic msg) p).2 (p.queue_publish _) hnd
    have hhead : p.Accepts (recordOf topic msg) ↔
        recordOf topic msg ∈ acceptedOf topic (msg :: messages) p := by
      rw [acceptedOf, List.mem_append, KafkaProducer.Accepts,
        mem_delivered_single (KafkaProducer.length_fates_produce hp)]
      refine (or_iff_left fun h => hnew ?_).symm
      obtain ⟨m, hm, he⟩ := exists_of_mem_acceptedOf messages _ h
      exact List.mem_map.mpr ⟨m, hm, he⟩
    have htail : ∀ m ∈ messages, (recordOf topic m ∈ acceptedOf topic (msg :: messages) p ↔
        recordOf topic m ∈ acceptedOf topic messages
          (KafkaProducer.publish (recordOf topic msg) p).2) := by
      intro m hm
      rw [acceptedOf, List.mem_append]
      refine or_iff_right fun h => hnew ?_
      rw [← eq_of_mem_delivered_single h]
      exact List.mem_map_of_mem hm
    rw [AcceptsAll, hrest, hhead, List.forall_mem_cons]
    exact and_congr_right fun _ => forall₂_congr fun m hm => (htail m hm).symm

end Lawful

/-! ## Marking in Postgres -/

section Columns

variable [ColumnTypes]

theorem markAll_rows (messages : List OutboxMessage) (clock : ℕ → Time) (d : PostgresStore) :
    List.Forall₂ (PostgresStore.MarkedRow (messages.map OutboxMessage.id)) d.outbox.rows
      (markAll messages clock d).outbox.rows := by
  induction messages generalizing clock d with
  | nil => exact List.forall₂_same.mpr fun _ _ => ⟨rfl, (or_iff_left List.not_mem_nil).symm⟩
  | cons msg messages ih =>
    have hrest := ih (fun k => clock (k + 1)) (d.markDispatched msg.id msg.jobId (clock 0))
    rw [PostgresStore.markDispatched_rows, List.forall₂_map_left_iff] at hrest
    refine hrest.imp fun row row' h => ?_
    have hfirst := PostgresStore.markedRow_reflag msg.id msg.jobId (clock 0) row
    have hid : (reflag (.markDispatched msg.id msg.jobId (clock 0)) .unit row).id = row.id :=
      congrArg OutboxMessage.id hfirst.message
    refine ⟨h.message.trans hfirst.message, ?_⟩
    rw [h.published, hfirst.published, hid, List.mem_singleton, List.map_cons, List.mem_cons,
      or_assoc]

theorem markAll_sound (messages : List OutboxMessage) (clock : ℕ → Time) (d : PostgresStore)
    (h : d.OutboxSound) : (markAll messages clock d).OutboxSound := by
  induction messages generalizing clock d with
  | nil => exact h
  | cons msg messages ih =>
    exact ih _ _
      ((PostgresStore.exec_outbox h (.markDispatched msg.id msg.jobId (clock 0))).sound h)

/-! ## Runs -/

/-- A dispatcher, its producer and the store, with how many messages the broker had accepted when
each job's row was last armed. -/
structure Delivery (π : Type) where
  store : PostgresStore
  producer : KafkaProducer π
  armedAt : JobId → ℕ

namespace Delivery

/-- What can happen between two calls of `dispatch_once`: any call but a mark, by anyone. -/
inductive Action
  | dispatchOnce (batchSize : ℤ) (clock : ℕ → Time)
  | call (c : Call)

def start (table : Table configSchema) (p : π) : Delivery π :=
  ⟨⟨∅, ∅, table, 1, 1⟩, ⟨p⟩, fun _ => 0⟩

/-- The messages the broker has accepted, oldest first. -/
def accepted (q : Delivery π) : List Record := ConfluentProducer.accepted q.producer.producer

def dispatch (topic : String) (batchSize : ℤ) (clock : ℕ → Time) (q : Delivery π) : Delivery π :=
  let sp := (dispatchOnce topic batchSize clock (q.store, q.producer)).2
  { q with store := sp.1, producer := sp.2 }

def perform (c : Call) (q : Delivery π) : Delivery π :=
  let reply := (q.store.exec c).1
  { q with
    store := (q.store.exec c).2
    armedAt := fun i => if arms c reply = some i then q.accepted.length else q.armedAt i }

def step (topic : String) (q : Delivery π) : Action → Option (Delivery π)
  | .dispatchOnce batchSize clock => some (q.dispatch topic batchSize clock)
  | .call (.markDispatched ..) => none
  | .call c => some (q.perform c)

variable {q q' : Delivery π} {a : Action}

theorem step_cases (h : step topic q a = some q') :
    (∃ batchSize clock, a = .dispatchOnce batchSize clock ∧
      q' = q.dispatch topic batchSize clock) ∨
    ∃ c, a = .call c ∧ (∀ o i now, c ≠ .markDispatched o i now) ∧ q' = q.perform c := by
  cases a with
  | dispatchOnce batchSize clock => exact Or.inl ⟨_, _, rfl, (Option.some.inj h).symm⟩
  | call c =>
    cases c with
    | markDispatched o i now => exact nomatch h
    | _ => exact Or.inr ⟨_, rfl, nofun, (Option.some.inj h).symm⟩

/-- A batch is published and marked. -/
def afterBatch (topic : String) (messages : List OutboxMessage) (clock : ℕ → Time)
    (q : Delivery π) : Delivery π :=
  { q with
    store := markAll messages clock q.store
    producer := publishAll topic messages q.producer }

/-- What `dispatch_once` does: nothing, if the fetch raises; else the batch is published
and marked. -/
theorem dispatch_cases (topic : String) (batchSize : ℤ) (clock : ℕ → Time) (q : Delivery π) :
    ((∀ messages, q.store.fetchUnpublished batchSize ≠ .ok messages) ∧
      q.dispatch topic batchSize clock = q) ∨
    ∃ messages, q.store.fetchUnpublished batchSize = .ok messages ∧
      q.dispatch topic batchSize clock = q.afterBatch topic messages clock := by
  have hfetch : (Store.fetchUnpublished batchSize q.store) =
    q.store.fetchUnpublished batchSize := rfl
  rw [dispatch, dispatchOnce, hfetch]
  cases hq : q.store.fetchUnpublished batchSize with
  | error e => exact Or.inl ⟨nofun, rfl⟩
  | ok messages =>
    refine Or.inr ⟨messages, rfl, ?_⟩
    dsimp only
    rw [dispatchBatch_kafka]
    rfl

/-! ## The claimed guarantee -/

/-- Every row is unpublished, or its message was accepted since the row was last armed. -/
def Delivered (topic : String) (q : Delivery π) : Prop :=
  ∀ row ∈ q.store.outbox.rows, row.publishedAt.isSome = true →
    recordOf topic row.message ∈ q.accepted.drop (q.armedAt row.jobId)

/-- A call of `dispatch_once` marks a row only if the broker accepts its message. -/
def MarksAccepted (topic : String) (q : Delivery π) (a : Action) : Prop :=
  ∀ batchSize clock, a = .dispatchOnce batchSize clock →
    ∀ row ∈ q.store.outbox.rows, row.publishedAt = none →
    ∀ row' ∈ (q.dispatch topic batchSize clock).store.outbox.rows,
      row'.message = row.message → row'.publishedAt.isSome = true →
      recordOf topic row.message ∈
        (q.dispatch topic batchSize clock).accepted.drop q.accepted.length

/-- **The broker accepts** the message of every row a call of `dispatch_once` fetches. -/
def BrokerAccepts (topic : String) (q : Delivery π) (a : Action) : Prop :=
  ∀ batchSize clock messages, a = .dispatchOnce batchSize clock →
    q.store.fetchUnpublished batchSize = .ok messages → AcceptsAll topic messages q.producer

/-- What every reachable state satisfies: no message of an unpublished row was accepted since the
row was armed. -/
structure Sound (topic : String) (q : Delivery π) : Prop where
  outbox : q.store.OutboxSound
  queue : queue q.producer.producer = []
  armedAt_le : ∀ i, q.armedAt i ≤ q.accepted.length
  fresh : ∀ row ∈ q.store.outbox.rows, row.publishedAt = none →
    recordOf topic row.message ∉ q.accepted.drop (q.armedAt row.jobId)

/-! ## Other calls -/

/-- A call re-arms rows that are unpublished and leaves the others alone. -/
theorem perform_row_cases (hs : Sound topic q) {c : Call}
    (hc : ∀ o i now, c ≠ .markDispatched o i now) {row : OutboxRow}
    (hrow : row ∈ (q.perform c).store.outbox.rows) :
    (row.publishedAt = none ∧ (q.perform c).armedAt row.jobId = q.accepted.length) ∨
      row ∈ q.store.outbox.rows ∧ (q.perform c).armedAt row.jobId = q.armedAt row.jobId := by
  rcases (PostgresStore.exec_outbox hs.outbox c).row_cases hs.outbox hc hrow with
    ⟨ha, hnone⟩ | ⟨ha, hold⟩
  · exact Or.inl ⟨hnone, if_pos ha⟩
  · exact Or.inr ⟨hold, if_neg ha⟩

theorem Sound.perform (hs : Sound topic q) {c : Call}
    (hc : ∀ o i now, c ≠ .markDispatched o i now) : Sound topic (q.perform c) := by
  refine ⟨(PostgresStore.exec_outbox hs.outbox c).sound hs.outbox, hs.queue, fun i => ?_,
    fun row hrow hnone => ?_⟩
  · change (if _ then q.accepted.length else q.armedAt i) ≤ q.accepted.length
    split
    · exact le_refl _
    · exact hs.armedAt_le i
  · change _ ∉ q.accepted.drop _
    rcases perform_row_cases hs hc hrow with ⟨-, ha⟩ | ⟨hold, ha⟩
    · rw [ha, List.drop_length]
      exact List.not_mem_nil
    · rw [ha]
      exact hs.fresh row hold hnone

theorem delivered_perform (hs : Sound topic q) (hd : Delivered topic q) {c : Call}
    (hc : ∀ o i now, c ≠ .markDispatched o i now) : Delivered topic (q.perform c) := by
  intro row hrow hpub
  rcases perform_row_cases hs hc hrow with ⟨hnone, -⟩ | ⟨hold, ha⟩
  · rw [hnone] at hpub
    exact absurd hpub Bool.false_ne_true
  · rw [ha]
    exact hd row hold hpub

/-! ## One call of `dispatch_once` -/

section Fetched

variable {limit : ℤ} {messages : List OutboxMessage}

omit [ColumnTypes] in
/-- A row whose message the broker accepts was fetched. -/
theorem message_mem_of_accepted (hs : Sound topic q)
    (hfetch : q.store.fetchUnpublished limit = .ok messages) {row : OutboxRow}
    (hrow : row ∈ q.store.outbox.rows)
    (hacc : recordOf topic row.message ∈ acceptedOf topic messages q.producer) :
    row.message ∈ messages := by
  obtain ⟨m, hm, he⟩ := exists_of_mem_acceptedOf messages _ hacc
  obtain ⟨row₀, hrow₀, -, -, rfl⟩ := PostgresStore.mem_selectUnpublished hfetch hm
  have hsame : row₀.message = row.message :=
    hs.outbox.message_eq (List.mem_map_of_mem hrow₀) (List.mem_map_of_mem hrow)
      (congrArg Record.message he)
  rwa [← hsame]

omit [ColumnTypes] in
/-- Each fetched row has a message of its own. -/
theorem nodup_records (hs : Sound topic q)
    (hfetch : q.store.fetchUnpublished limit = .ok messages) :
    (messages.map (recordOf topic)).Nodup := by
  refine List.Nodup.of_map (fun r => r.message.jobId) ?_
  have hjobs : messages.map ((fun r => r.message.jobId) ∘ recordOf topic) =
      messages.map OutboxMessage.jobId := by
    refine List.map_congr_left fun m hm => ?_
    obtain ⟨row, hrow, -, -, rfl⟩ := PostgresStore.mem_selectUnpublished hfetch hm
    exact hs.outbox.envelope _ (List.mem_map_of_mem hrow)
  rw [List.map_map, hjobs]
  exact PostgresStore.nodup_selectUnpublished hs.outbox hfetch

variable [LawfulConfluentProducer π]

theorem accepted_afterBatch (hs : Sound topic q) (clock : ℕ → Time) :
    (q.afterBatch topic messages clock).accepted =
      q.accepted ++ acceptedOf topic messages q.producer :=
  accepted_publishAll messages q.producer hs.queue

theorem drop_afterBatch (hs : Sound topic q) (clock : ℕ → Time) (i : JobId) :
    (q.afterBatch topic messages clock).accepted.drop (q.armedAt i) =
      q.accepted.drop (q.armedAt i) ++ acceptedOf topic messages q.producer := by
  rw [accepted_afterBatch hs, List.drop_append_of_le_length (hs.armedAt_le i)]

theorem Sound.afterBatch (hs : Sound topic q)
    (hfetch : q.store.fetchUnpublished limit = .ok messages) (clock : ℕ → Time) :
    Sound topic (q.afterBatch topic messages clock) := by
  refine ⟨markAll_sound messages clock q.store hs.outbox, queue_publishAll messages _ hs.queue,
    fun i => ?_, fun row' hrow' hnone => ?_⟩
  · rw [accepted_afterBatch hs, List.length_append]
    exact (hs.armedAt_le i).trans (Nat.le_add_right _ _)
  · obtain ⟨row, hrow, hmarked⟩ := (markAll_rows messages clock q.store).exists_left hrow'
    have hpub : ¬ (row.publishedAt.isSome = true ∨ row.id ∈ messages.map OutboxMessage.id) := by
      rw [← hmarked.published, hnone]
      exact Bool.false_ne_true
    change _ ∉ (q.afterBatch topic messages clock).accepted.drop (q.armedAt row'.jobId)
    rw [drop_afterBatch hs, hmarked.message, hmarked.jobId]
    intro hmem
    rcases List.mem_append.mp hmem with hold | hnew
    · exact hs.fresh row hrow (by simpa using mt Or.inl hpub) hold
    · exact hpub (Or.inr (List.mem_map_of_mem (message_mem_of_accepted hs hfetch hrow hnew)))

/-- Every row is delivered after the batch exactly when the broker accepts the batch. -/
theorem delivered_afterBatch (hs : Sound topic q) (hd : Delivered topic q)
    (hfetch : q.store.fetchUnpublished limit = .ok messages) (clock : ℕ → Time) :
    Delivered topic (q.afterBatch topic messages clock) ↔
      AcceptsAll topic messages q.producer := by
  rw [acceptsAll_iff messages q.producer hs.queue (nodup_records hs hfetch)]
  constructor
  · intro h m hm
    obtain ⟨row, hrow, hnone, -, rfl⟩ := PostgresStore.mem_selectUnpublished hfetch hm
    obtain ⟨row', hrow', hmarked⟩ := (markAll_rows messages clock q.store).exists_right hrow
    have hmem : _ ∈ (q.afterBatch topic messages clock).accepted.drop (q.armedAt row'.jobId) :=
      h row' hrow' (hmarked.published.mpr (Or.inr (List.mem_map_of_mem hm)))
    rw [drop_afterBatch hs, hmarked.message, hmarked.jobId] at hmem
    exact (List.mem_append.mp hmem).resolve_left (hs.fresh row hrow hnone)
  · intro h row' hrow' hpub
    obtain ⟨row, hrow, hmarked⟩ := (markAll_rows messages clock q.store).exists_left hrow'
    change _ ∈ (q.afterBatch topic messages clock).accepted.drop (q.armedAt row'.jobId)
    rw [drop_afterBatch hs, hmarked.message, hmarked.jobId]
    refine List.mem_append.mpr ?_
    rcases hmarked.published.mp hpub with hold | hid
    · exact Or.inl (hd row hrow hold)
    · exact Or.inr (h _ (PostgresStore.message_mem_of_id hfetch hrow hid))

/-- The batch marks accepted rows only, exactly when the broker accepts the batch. -/
theorem marksAccepted_afterBatch (hs : Sound topic q)
    (hfetch : q.store.fetchUnpublished limit = .ok messages) (clock : ℕ → Time) :
    (∀ row ∈ q.store.outbox.rows, row.publishedAt = none →
      ∀ row' ∈ (q.afterBatch topic messages clock).store.outbox.rows,
        row'.message = row.message → row'.publishedAt.isSome = true →
        recordOf topic row.message ∈
          (q.afterBatch topic messages clock).accepted.drop q.accepted.length) ↔
      AcceptsAll topic messages q.producer := by
  rw [acceptsAll_iff messages q.producer hs.queue (nodup_records hs hfetch),
    accepted_afterBatch hs, List.drop_left]
  constructor
  · intro h m hm
    obtain ⟨row, hrow, hnone, -, rfl⟩ := PostgresStore.mem_selectUnpublished hfetch hm
    obtain ⟨row', hrow', hmarked⟩ := (markAll_rows messages clock q.store).exists_right hrow
    exact h row hrow hnone row' hrow' hmarked.message
      (hmarked.published.mpr (Or.inr (List.mem_map_of_mem hm)))
  · intro h row hrow hnone row' hrow' he hpub
    obtain ⟨row₀, hrow₀, hmarked⟩ := (markAll_rows messages clock q.store).exists_left hrow'
    obtain rfl : row₀ = row := hs.outbox.row_eq hrow₀ hrow
      (congrArg OutboxMessage.jobId (hmarked.message.symm.trans he))
    rcases hmarked.published.mp hpub with hold | hid
    · rw [hnone] at hold
      exact absurd hold Bool.false_ne_true
    · exact h _ (PostgresStore.message_mem_of_id hfetch hrow hid)

end Fetched

/-! ## Along a run -/

omit [ColumnTypes] in
theorem sound_start (table : Table configSchema) {p : π} (hp : ConfluentProducer.queue p = []) :
    Sound topic (start table p) :=
  ⟨.empty table, hp, fun _ => Nat.zero_le _, nofun⟩

section Lawful

variable [LawfulConfluentProducer π]

theorem Sound.of_step (hs : Sound topic q) (h : step topic q a = some q') : Sound topic q' := by
  rcases step_cases h with ⟨batchSize, clock, rfl, rfl⟩ | ⟨c, rfl, hc, rfl⟩
  · rcases dispatch_cases topic batchSize clock q with ⟨-, he⟩ | ⟨messages, hfetch, he⟩
    · rw [he]
      exact hs
    · rw [he]
      exact hs.afterBatch hfetch clock
  · exact hs.perform hc

/-- A step keeps the guarantee exactly when the broker accepts. -/
theorem delivered_step (hs : Sound topic q) (hd : Delivered topic q)
    (h : step topic q a = some q') : Delivered topic q' ↔ BrokerAccepts topic q a := by
  rcases step_cases h with ⟨batchSize, clock, rfl, rfl⟩ | ⟨c, rfl, hc, rfl⟩
  · rcases dispatch_cases topic batchSize clock q with ⟨hno, he⟩ | ⟨messages, hfetch, he⟩
    · rw [he]
      refine iff_of_true hd ?_
      rintro _ _ messages ⟨⟩ hfetch
      exact absurd hfetch (hno messages)
    · rw [he, delivered_afterBatch hs hd hfetch clock]
      constructor
      · rintro haccepts _ _ messages' ⟨⟩ hfetch'
        obtain rfl := Except.ok.inj (hfetch.symm.trans hfetch')
        exact haccepts
      · exact fun haccepts => haccepts _ _ messages rfl hfetch
  · exact iff_of_true (delivered_perform hs hd hc) nofun

theorem marksAccepted_iff (hs : Sound topic q) :
    MarksAccepted topic q a ↔ BrokerAccepts topic q a := by
  cases a with
  | call c => exact iff_of_true nofun nofun
  | dispatchOnce batchSize clock =>
    rcases dispatch_cases topic batchSize clock q with ⟨hno, he⟩ | ⟨messages, hfetch, he⟩
    · refine iff_of_true ?_ ?_
      · rintro _ _ ⟨⟩ row hrow hnone row' hrow' hmessage hpub
        rw [he] at hrow'
        obtain rfl := hs.outbox.row_eq hrow' hrow (congrArg OutboxMessage.jobId hmessage)
        rw [hnone] at hpub
        exact absurd hpub Bool.false_ne_true
      · rintro _ _ messages ⟨⟩ hfetch
        exact absurd hfetch (hno messages)
    · have hmarks := marksAccepted_afterBatch hs hfetch clock
      constructor
      · rintro h _ _ messages' ⟨⟩ hfetch'
        obtain rfl := Except.ok.inj (hfetch.symm.trans hfetch')
        refine hmarks.mp ?_
        have hcall := h batchSize clock rfl
        rwa [he] at hcall
      · rintro h _ _ ⟨⟩
        rw [he]
        exact hmarks.mpr (h _ _ messages rfl hfetch)

/-- **Delivery failures lose no job exactly when there are none**: along a run, the calls of
`dispatch_once` mark only rows whose message the broker accepted, and every row is at all times
unpublished or accepted since it was last armed, if and only if the broker accepts the message of
every row fetched. -/
theorem delivered_iff_broker_accepts (topic : String) (table : Table configSchema) {p : π}
    (hp : ConfluentProducer.queue p = []) (as : List Action) :
    (Runs.Along (step topic) (MarksAccepted topic) (start table p) as ↔
      Runs.Along (step topic) (BrokerAccepts topic) (start table p) as) ∧
    ((∀ bs, bs <+: as → ∀ q ∈ Runs.run (step topic) (start table p) bs, Delivered topic q) ↔
      Runs.Along (step topic) (BrokerAccepts topic) (start table p) as) := by
  have hstart : Sound topic (start table p) := sound_start table hp
  have hsound : ∀ (q : Delivery π) a q', Sound topic q → step topic q a = some q' →
      Sound topic q' := fun q a q' hs h => hs.of_step h
  constructor
  · exact Runs.along_congr hsound (fun q a hs => marksAccepted_iff hs) as _ hstart
  · refine Runs.prefixes_iff_along hsound (fun q a q' hs hd h => delivered_step hs hd h)
      (fun q a h => ?_) as _ hstart nofun
    rintro batchSize clock messages rfl
    exact nomatch h

end Lawful

end Delivery

end Columns

/-! ## A client with scripted answers -/

/-- A client whose broker gives the scripted answers, and accepts everything after them. -/
structure ScriptedClient where
  queue : List Record
  script : List Bool
  accepted : List Record

namespace ScriptedClient

def fates (c : ScriptedClient) : List Bool :=
  (List.range c.queue.length).map fun k => c.script.getD k true

instance : ConfluentProducer ScriptedClient where
  produce r c := { c with queue := c.queue ++ [r] }
  flush c := ⟨[], c.script.drop c.queue.length, c.accepted ++ delivered c.queue c.fates⟩
  queue := queue
  fates := fates
  accepted := accepted

instance : LawfulConfluentProducer ScriptedClient where
  queue_produce _ _ := rfl
  accepted_produce _ _ := rfl
  length_fates _ := (List.length_map _).trans List.length_range
  queue_flush _ := rfl
  accepted_flush _ := rfl

end ScriptedClient

namespace Delivery

attribute [local instance] ColumnTypes.nulFree

/-- One job, dispatched once. -/
def dispatchHello : List Action :=
  [.call (.enqueue "hello" none none 0 0), .dispatchOnce 10 fun _ => 1]

/-- The broker accepts the message. -/
theorem delivered_iff_broker_accepts_hello :
    ∃ q, Runs.run (step "jobs") (start ∅ (⟨[], [true], []⟩ : ScriptedClient)) dispatchHello =
        some q ∧
      Delivered "jobs" q := by
  obtain ⟨q, hq⟩ : ∃ q, Runs.run (step "jobs") (start ∅ (⟨[], [true], []⟩ : ScriptedClient))
    dispatchHello = some q := ⟨_, rfl⟩
  have hiff := delivered_iff_broker_accepts "jobs" ∅ (p := (⟨[], [true], []⟩ : ScriptedClient)) rfl
    dispatchHello
  refine ⟨q, hq, hiff.2.mpr ?_ dispatchHello (List.prefix_refl _) q hq⟩
  refine Runs.along_cons nofun rfl (Runs.along_cons ?_ rfl trivial)
  rintro _ _ messages ⟨⟩ hfetch
  obtain rfl := Except.ok.inj hfetch
  exact ⟨rfl, trivial⟩

/-- **A failed delivery is forgotten**: the row is published, and the broker has
accepted nothing. -/
theorem failed_delivery_loses :
    ¬ ∀ q, Runs.Reachable (step "jobs") (start ∅ (⟨[], [false], []⟩ : ScriptedClient)) q →
      Delivered "jobs" q := by
  intro hall
  obtain ⟨q, row, hq, hrow, hpub, hacc⟩ : ∃ q, ∃ row : OutboxRow,
      Runs.run (step "jobs") (start ∅ (⟨[], [false], []⟩ : ScriptedClient)) dispatchHello = some q ∧
      q.store.outbox.rows = [row] ∧ row.publishedAt.isSome = true ∧ q.accepted = [] :=
    ⟨_, _, rfl, rfl, rfl, rfl⟩
  have hmem := hall q ⟨dispatchHello, hq⟩ row (by rw [hrow]; exact List.mem_singleton_self row) hpub
  rw [hacc, List.drop_nil] at hmem
  exact List.not_mem_nil hmem

end Delivery

end JobWorkflow
