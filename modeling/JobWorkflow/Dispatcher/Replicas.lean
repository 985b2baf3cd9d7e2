import JobWorkflow.Common.Outbox
import JobWorkflow.Dispatcher.Service
import JobWorkflow.Machinery.Runs

/-!
# Dispatcher/Replicas — dispatchers side by side, with row locks

Any number of dispatchers run `dispatch_once` over one database.  `fetch_unpublished` is a
transaction of its own: it locks the rows it selects, skips those locked by others, and releases the
locks when its `connection()` block commits, before anything is published.  From there to
`mark_dispatched` nothing keeps the row from another dispatcher.

* `two_replicas_publish_twice` — both dispatchers fetch the row, and both publish it.
* `published_at_most_once` — no row is published twice between two armings in a run whose fetches
  return only rows that nobody is about to publish and nobody has published since they were armed.
-/

namespace JobWorkflow

/-- Where a dispatcher is in `dispatch_once`. -/
inductive Phase
  /-- The transaction of `fetch_unpublished` is open. -/
  | fetching (messages : List OutboxMessage)
  /-- The loop is at the first of the messages. -/
  | loop (messages : List OutboxMessage)
  /-- The message is published and not yet marked. -/
  | marking (msg : OutboxMessage) (messages : List OutboxMessage)

/-- The messages it has fetched and not yet published. -/
def Phase.pending : Phase → List OutboxMessage
  | .fetching messages => messages
  | .loop messages => messages
  | .marking _ messages => messages

/-- The database with its row locks, the dispatchers, what they have published, oldest first, and
how much of it was there when each job's row was last armed. -/
structure Replicas where
  store : PostgresStore
  locks : OutboxId → Option ℕ
  dispatchers : ℕ → Phase
  produced : List Record
  armedAt : JobId → ℕ

namespace Replicas

/-- The steps of the dispatchers, and any call but a mark by anyone else. -/
inductive Action
  | select (k : ℕ) (batchSize : ℤ)
  | commit (k : ℕ)
  | publish (k : ℕ)
  | mark (k : ℕ) (now : Time)
  | call (c : Call)

def start (table : Table configSchema) : Replicas :=
  ⟨⟨∅, ∅, table, 1, 1⟩, fun _ => none, fun _ => .loop [], [], fun _ => 0⟩

def locked (q : Replicas) (o : OutboxId) : Bool := (q.locks o).isSome

def goto (k : ℕ) (phase : Phase) (q : Replicas) : Replicas :=
  { q with dispatchers := Function.update q.dispatchers k phase }

/-- The rows of the messages are locked by the dispatcher. -/
def lock (k : ℕ) (messages : List OutboxMessage) (q : Replicas) : Replicas :=
  { q with locks := fun o => if o ∈ messages.map OutboxMessage.id then some k else q.locks o }

/-- The dispatcher's locks are released. -/
def release (k : ℕ) (q : Replicas) : Replicas :=
  { q with locks := fun o => if q.locks o = some k then none else q.locks o }

variable {topic : String} {q q' : Replicas} {a : Action}

section Columns

variable [ColumnTypes]

def perform (c : Call) (q : Replicas) : Replicas :=
  let reply := (q.store.exec c).1
  { q with
    store := (q.store.exec c).2
    armedAt := fun i => if arms c reply = some i then q.produced.length else q.armedAt i }

/-- The call updates an outbox row that a dispatcher has locked, and waits for it. -/
def waits (c : Call) (q : Replicas) : Bool :=
  q.store.outbox.rows.any fun row =>
    arms c (q.store.exec c).1 = some row.jobId ∧ q.locked row.id

def step (topic : String) (q : Replicas) : Action → Option Replicas
  | .select k batchSize =>
    match q.dispatchers k with
    | .loop [] =>
      match q.store.selectUnpublished q.locked batchSize with
      | .ok messages => some ((q.lock k messages).goto k (.fetching messages))
      | .error _ => none
    | _ => none
  | .commit k =>
    match q.dispatchers k with
    | .fetching messages => some ((q.release k).goto k (.loop messages))
    | _ => none
  | .publish k =>
    match q.dispatchers k with
    | .loop (msg :: messages) =>
      some ({ q with produced := q.produced ++ [recordOf topic msg] }.goto k
        (.marking msg messages))
    | _ => none
  | .mark k now =>
    match q.dispatchers k with
    | .marking msg messages =>
      if q.locked msg.id then none
      else
        some ({ q with store := q.store.markDispatched msg.id msg.jobId now }.goto k
          (.loop messages))
    | _ => none
  | .call (.markDispatched ..) => none
  | .call c => if q.waits c then none else some (q.perform c)

/-- The step relation. -/
inductive Step (topic : String) (q : Replicas) : Action → Replicas → Prop
  | select {k batchSize messages} (hk : q.dispatchers k = .loop [])
      (hfetch : q.store.selectUnpublished q.locked batchSize = .ok messages) :
      Step topic q (.select k batchSize) ((q.lock k messages).goto k (.fetching messages))
  | commit {k messages} (hk : q.dispatchers k = .fetching messages) :
      Step topic q (.commit k) ((q.release k).goto k (.loop messages))
  | publish {k msg messages} (hk : q.dispatchers k = .loop (msg :: messages)) :
      Step topic q (.publish k) ({ q with produced := q.produced ++ [recordOf topic msg] }.goto k
        (.marking msg messages))
  | mark {k msg messages now} (hk : q.dispatchers k = .marking msg messages) :
      Step topic q (.mark k now)
        ({ q with store := q.store.markDispatched msg.id msg.jobId now }.goto k (.loop messages))
  | call {c} (hc : ∀ o i now, c ≠ .markDispatched o i now) :
      Step topic q (.call c) (q.perform c)

theorem step_cases (h : step topic q a = some q') : Step topic q a q' := by
  cases a with
  | select k batchSize =>
    rw [step] at h
    split at h
    · rename_i hk
      split at h
      · rename_i hfetch
        obtain rfl := Option.some.inj h
        exact .select hk hfetch
      · exact nomatch h
    · exact nomatch h
  | commit k =>
    rw [step] at h
    split at h
    · rename_i hk
      obtain rfl := Option.some.inj h
      exact .commit hk
    · exact nomatch h
  | publish k =>
    rw [step] at h
    split at h
    · rename_i hk
      obtain rfl := Option.some.inj h
      exact .publish hk
    · exact nomatch h
  | mark k now =>
    rw [step] at h
    split at h
    · rename_i hk
      obtain ⟨-, h⟩ := Option.ite_none_left_eq_some.mp h
      obtain rfl := Option.some.inj h
      exact .mark hk
    · exact nomatch h
  | call c =>
    have perform : ∀ c, (if q.waits c then none else some (q.perform c)) = some q' →
        q' = q.perform c := fun c h =>
      (Option.some.inj (Option.ite_none_left_eq_some.mp h).2).symm
    cases c with
    | markDispatched o i now => exact nomatch h
    | _ =>
      obtain rfl := perform _ h
      exact .call nofun

/-! ## A dispatcher on its own -/

/-- The steps of the loop over `n` messages. -/
def loopActions (k : ℕ) : ℕ → (ℕ → Time) → List Action
  | 0, _ => []
  | n + 1, clock => .publish k :: .mark k (clock 0) :: loopActions k n fun j => clock (j + 1)

theorem run_loop (k : ℕ) (messages : List OutboxMessage) (clock : ℕ → Time) (q : Replicas)
    (hk : q.dispatchers k = .loop messages) (hfree : ∀ o, q.locks o = none) :
    ∃ q', Runs.run (step topic) q (loopActions k messages.length clock) = some q' ∧
      q'.dispatchers k = .loop [] ∧
      dispatchBatch topic messages clock (q.store, InMemoryProducer.mk q.produced) =
        (.ok (), q'.store, ⟨q'.produced⟩) := by
  induction messages generalizing clock q with
  | nil => exact ⟨q, rfl, hk, rfl⟩
  | cons msg messages ih =>
    let q₁ := { q with produced := q.produced ++ [recordOf topic msg] }.goto k
      (.marking msg messages)
    let q₂ := { q₁ with store := q₁.store.markDispatched msg.id msg.jobId (clock 0) }.goto k
      (.loop messages)
    have h₁ : step topic q (.publish k) = some q₁ := by
      rw [step, hk]
    have hk₁ : q₁.dispatchers k = .marking msg messages := Function.update_self ..
    have hfree₁ : q₁.locked msg.id = false := congrArg Option.isSome (hfree msg.id)
    have h₂ : step topic q₁ (.mark k (clock 0)) = some q₂ := by
      rw [step, hk₁]
      dsimp only
      rw [hfree₁]
      rfl
    obtain ⟨q', hrun, hk', he⟩ := ih (fun j => clock (j + 1)) q₂
      (Function.update_self ..) hfree
    refine ⟨q', ?_, hk', he⟩
    rw [List.length_cons, loopActions, Runs.run, h₁, Option.bind_some, Runs.run, h₂,
      Option.bind_some]
    exact hrun

/-- The fetch and its commit, with no rows locked by others. -/
theorem run_fetch (topic : String) {k : ℕ} {limit : ℤ} {messages : List OutboxMessage}
    (hk : q.dispatchers k = .loop []) (hfree : ∀ o, q.locks o = none)
    (hfetch : q.store.selectUnpublished q.locked limit = .ok messages) :
    ∃ q', Runs.run (step topic) q [.select k limit, .commit k] = some q' ∧
      q'.dispatchers k = .loop messages ∧ (∀ o, q'.locks o = none) ∧
      q'.store = q.store ∧ q'.produced = q.produced := by
  let q₁ := (q.lock k messages).goto k (.fetching messages)
  have h₁ : step topic q (.select k limit) = some q₁ := by
    rw [step, hk]
    dsimp only
    rw [hfetch]
  have hk₁ : q₁.dispatchers k = .fetching messages := Function.update_self ..
  have h₂ : step topic q₁ (.commit k) = some ((q₁.release k).goto k (.loop messages)) := by
    rw [step, hk₁]
  refine ⟨(q₁.release k).goto k (.loop messages), ?_, Function.update_self .., fun o => ?_,
    rfl, rfl⟩
  · rw [Runs.run, h₁, Option.bind_some, Runs.run, h₂]
    rfl
  · change (if (if o ∈ messages.map OutboxMessage.id then some k else q.locks o) = some k
      then none else if o ∈ messages.map OutboxMessage.id then some k else q.locks o) = none
    by_cases ho : o ∈ messages.map OutboxMessage.id
    · rw [if_pos ho, if_pos rfl]
    · rw [if_neg ho, hfree o]
      rfl

/-- **A dispatcher on its own runs `dispatch_once`.** -/
theorem run_dispatchOnce {k : ℕ} {limit : ℤ} {clock : ℕ → Time} {n : ℕ}
    (hk : q.dispatchers k = .loop []) (hfree : ∀ o, q.locks o = none)
    (hn : (dispatchOnce topic limit clock (q.store, InMemoryProducer.mk q.produced)).1 = .ok n) :
    ∃ q', Runs.run (step topic) q (.select k limit :: .commit k :: loopActions k n clock) =
        some q' ∧
      q'.dispatchers k = .loop [] ∧
      dispatchOnce topic limit clock (q.store, InMemoryProducer.mk q.produced) =
        (.ok n, q'.store, ⟨q'.produced⟩) := by
  have hlocked : q.locked = fun _ => false := funext fun o => congrArg Option.isSome (hfree o)
  have hstore : Store.fetchUnpublished limit q.store =
      q.store.selectUnpublished q.locked limit := by
    rw [hlocked]
    rfl
  rw [dispatchOnce, hstore] at hn ⊢
  cases hfetch : q.store.selectUnpublished q.locked limit with
  | error e =>
    rw [hfetch] at hn
    exact nomatch hn
  | ok messages =>
    obtain ⟨q₂, hrun₂, hk₂, hfree₂, hstore₂, hproduced₂⟩ := run_fetch topic hk hfree hfetch
    obtain ⟨q', hrun, hk', he⟩ := run_loop k messages clock q₂ hk₂ hfree₂
    rw [hstore₂, hproduced₂] at he
    rw [hfetch] at hn
    dsimp only at hn ⊢
    rw [he] at hn ⊢
    obtain rfl : messages.length = n := Except.ok.inj hn
    refine ⟨q', ?_, hk', rfl⟩
    change Runs.run (step topic) q ([.select k limit, .commit k] ++ _) = some q'
    rw [Runs.run_append, hrun₂, Option.bind_some]
    exact hrun

end Columns

/-! ## The claimed guarantee -/

/-- How often the message was published since the job's row was armed. -/
def copies (topic : String) (q : Replicas) (m : OutboxMessage) : ℕ :=
  (q.produced.drop (q.armedAt m.jobId)).count (recordOf topic m)

/-- The message of each row was published at most once since the row was armed. -/
def AtMostOnce (topic : String) (q : Replicas) : Prop :=
  ∀ row ∈ q.store.outbox.rows, q.copies topic row.message ≤ 1

/-- **A fetch returns fresh rows**: not published since they were armed, and about to be published
by no dispatcher. -/
def FetchesFresh (topic : String) (q : Replicas) (a : Action) : Prop :=
  ∀ k batchSize messages, a = .select k batchSize →
    q.store.selectUnpublished q.locked batchSize = .ok messages →
    ∀ m ∈ messages, q.copies topic m = 0 ∧ ∀ k', m ∉ (q.dispatchers k').pending

/-- What a run with fresh fetches keeps: a message about to be published is about to be published
once, and has not been published since its row was armed. -/
structure Sound (topic : String) (q : Replicas) : Prop where
  outbox : q.store.OutboxSound
  armedAt_le : ∀ i, q.armedAt i ≤ q.produced.length
  row : ∀ k, ∀ m ∈ (q.dispatchers k).pending, m ∈ q.store.messages
  nodup : ∀ k, (q.dispatchers k).pending.Nodup
  alone : ∀ k k' m, m ∈ (q.dispatchers k).pending → m ∈ (q.dispatchers k').pending → k = k'
  fresh : ∀ k, ∀ m ∈ (q.dispatchers k).pending, q.copies topic m = 0
  once : ∀ m ∈ q.store.messages, q.copies topic m ≤ 1

/-! ## Steps -/

theorem pending_goto (q : Replicas) (k k' : ℕ) (phase : Phase) :
    ((q.goto k phase).dispatchers k').pending =
      if k' = k then phase.pending else (q.dispatchers k').pending := by
  change (Function.update q.dispatchers k phase k').pending = _
  rw [Function.update_apply]
  split <;> rfl

/-- A dispatcher that goes on to a phase with the same messages. -/
theorem pending_goto_same {k : ℕ} {phase : Phase}
    (h : phase.pending = (q.dispatchers k).pending) (k' : ℕ) :
    ((q.goto k phase).dispatchers k').pending = (q.dispatchers k').pending := by
  rw [pending_goto]
  split
  · rename_i hk
    rw [hk, h]
  · rfl

/-- A step that publishes and fetches nothing, and leaves each row as it was or arms it. -/
theorem Sound.of_kept (hs : Sound topic q) (hout : q'.store.OutboxSound)
    (hle : ∀ i, q'.armedAt i ≤ q'.produced.length) (hgrow : q.store.messages ⊆ q'.store.messages)
    (hcopies : ∀ m ∈ q'.store.messages, q'.copies topic m = 0 ∨
      m ∈ q.store.messages ∧ q'.copies topic m = q.copies topic m)
    (hpending : ∀ k, (q'.dispatchers k).pending = (q.dispatchers k).pending) :
    Sound topic q' := by
  have hrow : ∀ k, ∀ m ∈ (q'.dispatchers k).pending, m ∈ q'.store.messages := fun k m hm =>
    hgrow (hs.row k m (hpending k ▸ hm))
  refine ⟨hout, hle, hrow, fun k => hpending k ▸ hs.nodup k, fun k k' m hm hm' => ?_,
    fun k m hm => ?_, fun m hm => ?_⟩
  · exact hs.alone k k' m (hpending k ▸ hm) (hpending k' ▸ hm')
  · rcases hcopies m (hrow k m hm) with hzero | ⟨-, hsame⟩
    · exact hzero
    · exact hsame.trans (hs.fresh k m (hpending k ▸ hm))
  · rcases hcopies m hm with hzero | ⟨hold, hsame⟩
    · exact hzero ▸ Nat.zero_le 1
    · exact hsame ▸ hs.once m hold

/-- A fetch of fresh rows. -/
theorem Sound.select (hs : Sound topic q) (k : ℕ) {limit : ℤ} {messages : List OutboxMessage}
    (hfetch : q.store.selectUnpublished q.locked limit = .ok messages)
    (hfresh : ∀ m ∈ messages, q.copies topic m = 0 ∧ ∀ k', m ∉ (q.dispatchers k').pending) :
    Sound topic ((q.lock k messages).goto k (.fetching messages)) := by
  have hpending : ∀ k', (((q.lock k messages).goto k (.fetching messages)).dispatchers k').pending =
      if k' = k then messages else (q.dispatchers k').pending := fun k' =>
        pending_goto (q.lock k messages) k k' (.fetching messages)
  have hrow : ∀ m ∈ messages, m ∈ q.store.messages := fun m hm => by
    obtain ⟨row, hrow, -, -, rfl⟩ := PostgresStore.mem_selectUnpublished hfetch hm
    exact List.mem_map_of_mem hrow
  refine ⟨hs.outbox, hs.armedAt_le, fun k' m hm => ?_, fun k' => ?_, fun k₁ k₂ m h₁ h₂ => ?_,
    fun k' m hm => ?_, hs.once⟩
  · rw [hpending] at hm
    split at hm
    · exact hrow m hm
    · exact hs.row k' m hm
  · rw [hpending]
    split
    · exact List.Nodup.of_map _ (PostgresStore.nodup_selectUnpublished hs.outbox hfetch)
    · exact hs.nodup k'
  · rw [hpending] at h₁ h₂
    split at h₁ <;> split at h₂
    · rename_i hk₁ hk₂
      exact hk₁.trans hk₂.symm
    · exact absurd h₂ ((hfresh m h₁).2 k₂)
    · exact absurd h₁ ((hfresh m h₂).2 k₁)
    · exact hs.alone k₁ k₂ m h₁ h₂
  · rw [hpending] at hm
    split at hm
    · exact (hfresh m hm).1
    · exact hs.fresh k' m hm

/-- The copies of a row's message after a publication. -/
theorem copies_publish (hs : Sound topic q) {msg m : OutboxMessage} (hmsg : msg ∈ q.store.messages)
    (hm : m ∈ q.store.messages) (k : ℕ) (phase : Phase) :
    ({ q with produced := q.produced ++ [recordOf topic msg] }.goto k phase).copies topic m =
      q.copies topic m + if m = msg then 1 else 0 := by
  change ((q.produced ++ [recordOf topic msg]).drop (q.armedAt m.jobId)).count _ = _
  rw [List.drop_append_of_le_length (hs.armedAt_le m.jobId), List.count_append,
    List.count_singleton]
  refine congrArg (q.copies topic m + ·) (if_congr ?_ rfl rfl)
  rw [beq_iff_eq]
  constructor
  · exact fun he => (hs.outbox.message_eq hmsg hm (congrArg Record.message he)).symm
  · exact fun he => congrArg (recordOf topic) he.symm

/-- After a publication nobody is about to publish the message: no other dispatcher was, and it is
not fetched twice. -/
theorem Sound.pending_publish (hs : Sound topic q) {k : ℕ} {msg : OutboxMessage}
    {messages : List OutboxMessage} (hk : q.dispatchers k = .loop (msg :: messages)) {k' : ℕ}
    {m : OutboxMessage} (hm : m ∈ (({ q with produced := q.produced ++ [recordOf topic msg] }.goto k
      (.marking msg messages)).dispatchers k').pending) :
    m ∈ (q.dispatchers k').pending ∧ m ≠ msg := by
  have hold : (q.dispatchers k).pending = msg :: messages := by rw [hk]; rfl
  have hnd : (msg :: messages).Nodup := hold ▸ hs.nodup k
  rw [pending_goto] at hm
  split at hm
  · rename_i he
    subst he
    exact ⟨hold ▸ List.mem_cons_of_mem _ hm, fun h => (List.nodup_cons.mp hnd).1 (h ▸ hm)⟩
  · rename_i he
    exact ⟨hm, fun h => he (hs.alone k' k m hm (h ▸ hold ▸ List.mem_cons_self))⟩

theorem Sound.publish (hs : Sound topic q) {k : ℕ} {msg : OutboxMessage}
    {messages : List OutboxMessage} (hk : q.dispatchers k = .loop (msg :: messages)) :
    Sound topic ({ q with produced := q.produced ++ [recordOf topic msg] }.goto k
      (.marking msg messages)) := by
  have hold : (q.dispatchers k).pending = msg :: messages := by rw [hk]; rfl
  have hmsg : msg ∈ (q.dispatchers k).pending := hold ▸ List.mem_cons_self
  refine ⟨hs.outbox, fun i => ?_, fun k' m hm => hs.row k' m (hs.pending_publish hk hm).1,
    fun k' => ?_, fun k₁ k₂ m h₁ h₂ => ?_, fun k' m hm => ?_, fun m hm => ?_⟩
  · change q.armedAt i ≤ (q.produced ++ [_]).length
    rw [List.length_append]
    exact (hs.armedAt_le i).trans (Nat.le_add_right _ _)
  · rw [pending_goto]
    split
    · exact (List.nodup_cons.mp (hold ▸ hs.nodup k)).2
    · exact hs.nodup k'
  · exact hs.alone k₁ k₂ m (hs.pending_publish hk h₁).1 (hs.pending_publish hk h₂).1
  · obtain ⟨hpending, hne⟩ := hs.pending_publish hk hm
    rw [copies_publish hs (hs.row k msg hmsg) (hs.row k' m hpending), if_neg hne]
    exact hs.fresh k' m hpending
  · rw [copies_publish hs (hs.row k msg hmsg) hm]
    split
    · rename_i he
      rw [he, hs.fresh k msg hmsg]
    · exact hs.once m hm

theorem Sound.start (table : Table configSchema) : Sound topic (start table) :=
  ⟨.empty table, fun _ => Nat.zero_le _, nofun, fun _ => List.nodup_nil, nofun, nofun, nofun⟩

section Columns

variable [ColumnTypes]

theorem Sound.perform (hs : Sound topic q) (c : Call) : Sound topic (q.perform c) := by
  have heff := PostgresStore.exec_outbox hs.outbox c
  refine hs.of_kept (heff.sound hs.outbox) (fun i => ?_) heff.messages_subset (fun m hm => ?_)
    fun _ => rfl
  · change (if _ then q.produced.length else q.armedAt i) ≤ q.produced.length
    split
    · exact le_refl _
    · exact hs.armedAt_le i
  · by_cases ha : arms c (q.store.exec c).1 = some m.jobId
    · refine Or.inl ?_
      change (q.produced.drop (if _ then _ else _)).count _ = 0
      rw [if_pos ha, List.drop_length]
      rfl
    · refine Or.inr ⟨(heff.mem_messages hm).resolve_right ha, ?_⟩
      change (q.produced.drop (if _ then _ else _)).count _ = _
      rw [if_neg ha]
      rfl

theorem Sound.of_step (hs : Sound topic q) (hok : FetchesFresh topic q a)
    (h : Step topic q a q') : Sound topic q' := by
  cases h with
  | select hk hfetch => exact hs.select _ hfetch (hok _ _ _ rfl hfetch)
  | commit hk =>
    rename_i k messages
    refine hs.of_kept hs.outbox hs.armedAt_le (List.Subset.refl _)
      (fun m hm => Or.inr ⟨hm, rfl⟩) (pending_goto_same (q := q.release k) ?_)
    change _ = (q.dispatchers k).pending
    rw [hk]
    rfl
  | publish hk => exact hs.publish hk
  | mark hk =>
    rename_i k msg messages now
    have heff := PostgresStore.exec_outbox hs.outbox (.markDispatched msg.id msg.jobId now)
    refine hs.of_kept (heff.sound hs.outbox) hs.armedAt_le heff.messages_subset
      (fun m hm => Or.inr ⟨(heff.mem_messages hm).resolve_right nofun, rfl⟩)
      (pending_goto_same (q := { q with store := q.store.markDispatched msg.id msg.jobId now }) ?_)
    change _ = (q.dispatchers k).pending
    rw [hk]
    rfl
  | call hc => exact hs.perform _

/-- **At most once between two armings**, in every run whose fetches return fresh rows. -/
theorem published_at_most_once (topic : String) {table : Table configSchema} {as : List Action}
    (hrun : Runs.run (step topic) (start table) as = some q)
    (hok : Runs.Along (step topic) (FetchesFresh topic) (start table) as) :
    AtMostOnce topic q := by
  have hs : Sound topic q := Runs.invariant (I := Sound topic)
    (fun q a q' hs hok h => hs.of_step hok (step_cases h)) as (start table) (.start table) hok hrun
  exact fun row hrow => hs.once row.message (List.mem_map_of_mem hrow)

end Columns

/-! ## Two dispatchers -/

attribute [local instance] ColumnTypes.nulFree

/-- Two dispatchers take turns: the second one's first fetch skips the row that the first one has
locked, and the next is made when both rows are marked. -/
def takeTurns : List Action :=
  [.call (.enqueue "a" none none 0 0), .call (.enqueue "b" none none 0 0), .select 0 1,
    .select 1 10, .commit 0, .commit 1, .publish 1, .publish 0, .mark 0 1, .mark 1 2,
    .call (.enqueue "c" none none 3 3), .select 1 10, .commit 1, .publish 1, .mark 1 4]

/-- Three rows, each published once. -/
theorem published_at_most_once_in_turns :
    ∃ q, Runs.run (step "jobs") (start ∅) takeTurns = some q ∧
      q.produced.map (fun r => r.message.jobId) = [2, 1, 3] ∧ AtMostOnce "jobs" q := by
  obtain ⟨q, hq, hproduced⟩ : ∃ q, Runs.run (step "jobs") (start ∅) takeTurns = some q ∧
      q.produced.map (fun r => r.message.jobId) = [2, 1, 3] := ⟨_, rfl, rfl⟩
  refine ⟨q, hq, hproduced, published_at_most_once "jobs" hq ?_⟩
  refine Runs.along_cons nofun rfl (Runs.along_cons nofun rfl (Runs.along_cons ?first rfl
    (Runs.along_cons ?second rfl (Runs.along_cons nofun rfl (Runs.along_cons nofun rfl
    (Runs.along_cons nofun rfl (Runs.along_cons nofun rfl (Runs.along_cons nofun rfl
    (Runs.along_cons nofun rfl (Runs.along_cons nofun rfl (Runs.along_cons ?third rfl
    (Runs.along_cons nofun rfl (Runs.along_cons nofun rfl (Runs.along_cons nofun rfl
      trivial))))))))))))))
  case first =>
    rintro _ _ messages ⟨⟩ hfetch m hm
    obtain rfl := Except.ok.inj hfetch
    obtain rfl := List.mem_singleton.mp hm
    exact ⟨rfl, fun _ => List.not_mem_nil⟩
  case second =>
    rintro _ _ messages ⟨⟩ hfetch m hm
    obtain rfl := Except.ok.inj hfetch
    obtain rfl := List.mem_singleton.mp hm
    refine ⟨rfl, fun k' => ?_⟩
    rcases k' with _ | k'
    · decide
    · exact List.not_mem_nil
  case third =>
    rintro _ _ messages ⟨⟩ hfetch m hm
    obtain rfl := Except.ok.inj hfetch
    obtain rfl := List.mem_singleton.mp hm
    refine ⟨rfl, fun k' => ?_⟩
    rcases k' with _ | _ | k'
    · exact List.not_mem_nil
    · exact List.not_mem_nil
    · exact List.not_mem_nil

/-- The second dispatcher fetches after the first one's commit and before its mark. -/
def bothPublish : List Action :=
  [.call (.enqueue "hello" none none 0 0), .select 0 10, .commit 0, .select 1 10, .commit 1,
    .publish 0, .publish 1]

/-- **Two replicas publish a row twice.** -/
theorem two_replicas_publish_twice :
    ¬ ∀ q, Runs.Reachable (step "jobs") (start ∅) q → AtMostOnce "jobs" q := by
  intro hall
  obtain ⟨q, row, hq, hrow, hcopies⟩ : ∃ q, ∃ row : OutboxRow,
      Runs.run (step "jobs") (start ∅) bothPublish = some q ∧ q.store.outbox.rows = [row] ∧
      q.copies "jobs" row.message = 2 := ⟨_, _, rfl, rfl, rfl⟩
  have honce := hall q ⟨bothPublish, hq⟩ row (by rw [hrow]; exact List.mem_singleton_self row)
  rw [hcopies] at honce
  exact absurd honce (by decide)

end Replicas

end JobWorkflow
