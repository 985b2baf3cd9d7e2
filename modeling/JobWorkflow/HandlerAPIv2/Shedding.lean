import JobWorkflow.HandlerAPIv2.CircuitBreaker
import JobWorkflow.Machinery.Exchange
import JobWorkflow.Machinery.Streak

/-!
# HandlerAPIv2/Shedding — when the circuit opens on a reachable database

The breaker is there for a database that is down, but it counts every exception, so that values
which its columns do not take count as well.  On a database that is reachable throughout it stays
closed exactly as long as there are never too many of these in a row (`undisturbed_iff`).
-/

namespace JobWorkflow

namespace HandlerAPIv2

open Api

/-! ## A database that is reachable -/

section Reachable

variable [ColumnTypes]

/-- Whether the call brings a value that the columns do not take. -/
def StoreCall.rejected : StoreCall → Bool
  | .enqueue jobType payload creator =>
    !PostgresStore.takes jobType (some (.object payload)) (some creator)
  | .getJob _ => false

/-- **The database is reachable**: only a rejected value makes a call raise. -/
theorem raises_eq_rejected (clock : Clock) (d : PostgresStore) :
    StoreCall.raises clock d = StoreCall.rejected := by
  funext call
  cases call with
  | enqueue jobType o creator =>
    have henq : Datastore.enqueue jobType (some (.object o)) (some creator) clock d =
        (d.enqueue jobType (some (.object o)) (some creator) clock.createdAt).map
          (Except.mapError fun _ => .other) id := rfl
    rw [StoreCall.raises, StoreCall.rejected, henq]
    cases h : PostgresStore.takes jobType (some (.object o)) (some creator) with
    | true =>
      rw [PostgresStore.enqueue_of_takes h]
      rfl
    | false =>
      rw [PostgresStore.enqueue_of_not_takes h]
      rfl
  | getJob jobId => rfl

end Reachable

/-! ## Runs that the breaker does not disturb -/

/-- The breaker stays closed, and the requests are answered by the store, as if there were no
breaker. -/
structure Undisturbed {β σ : Type} [Pybreaker β] [Datastore σ] (app : App)
    (s : CircuitBreakerStore β σ) (qs : List (Request × Chance)) : Prop where
  closed : ∀ pre, pre <+: qs → (Exchange.final app.serve s pre).state = .closed
  answered : Exchange.replies app.serve s qs = Exchange.replies app.serve s.inner qs
  stored : (Exchange.final app.serve s qs).inner = Exchange.final app.serve s.inner qs

/-- The failures in a row that open the breaker: a threshold below one is reached at once. -/
def App.tripsAt (app : App) : ℕ := max 1 app.settings.dbCircuitFailureThreshold.toNat

section Runs

variable {β σ : Type} [Pybreaker β] {app : App} {q : Request × Chance}
  {qs : List (Request × Chance)}

section Cons

variable [Datastore σ] {s : CircuitBreakerStore β σ}

/-- A first request that does not disturb. -/
theorem undisturbed_cons {b' : β} (hs : s.state = .closed)
    (hq : app.serve s q = ((app.serve s.inner q).1, ⟨(app.serve s.inner q).2, b'⟩)) :
    Undisturbed app s (q :: qs) ↔
      Undisturbed app (⟨(app.serve s.inner q).2, b'⟩ : CircuitBreakerStore β σ) qs := by
  have hfst : (app.serve s q).1 = (app.serve s.inner q).1 := by rw [hq]
  have hsnd : (app.serve s q).2 = ⟨(app.serve s.inner q).2, b'⟩ := by rw [hq]
  constructor
  · rintro ⟨hclosed, hanswered, hstored⟩
    rw [Exchange.final, Exchange.final, hsnd] at hstored
    rw [Exchange.replies, Exchange.replies, hsnd] at hanswered
    refine ⟨fun pre hpre => ?_, (List.cons.inj hanswered).2, hstored⟩
    have h := hclosed (q :: pre) (List.cons_prefix_cons.mpr ⟨rfl, hpre⟩)
    rwa [Exchange.final, hsnd] at h
  · rintro ⟨hclosed, hanswered, hstored⟩
    refine ⟨fun pre hpre => ?_, ?_, ?_⟩
    · rcases List.prefix_cons_iff.mp hpre with rfl | ⟨t, rfl, ht⟩
      · exact hs
      · rw [Exchange.final, hsnd]
        exact hclosed t ht
    · rw [Exchange.replies, Exchange.replies, hfst, hsnd, hanswered]
    · rw [Exchange.final, Exchange.final, hsnd, hstored]

/-- A first request that opens the breaker disturbs. -/
theorem not_undisturbed_cons (h : (app.serve s q).2.state = .opened) :
    ¬ Undisturbed app s (q :: qs) := by
  intro hu
  have hclosed : (app.serve s q).2.state = .closed := hu.closed [q] (by simp)
  rw [h] at hclosed
  exact BreakerState.noConfusion hclosed

end Cons

variable [LawfulPybreaker β] [ColumnTypes]

/-- **Runs, from any count on.** -/
theorem undisturbed_iff_not_reaches {n : ℕ} {b : β}
    (hb : Counting app.settings.dbCircuitFailureThreshold noneExcluded n b) (hn : n < app.tripsAt)
    (d : PostgresStore) :
    Undisturbed app (⟨d, b⟩ : CircuitBreakerStore β PostgresStore) qs ↔
      ¬ Streak.Reaches app.tripsAt n
        (qs.filterMap fun q => (app.storeCall q.1).map StoreCall.rejected) := by
  induction qs generalizing n b d with
  | nil =>
    refine iff_of_true ⟨fun pre hpre => ?_, rfl, rfl⟩ not_false
    obtain rfl := List.prefix_nil.mp hpre
    exact hb.currentState
  | cons q qs ih =>
    have hs : (⟨d, b⟩ : CircuitBreakerStore β PostgresStore).state = .closed := hb.currentState
    have hstep := guarded_serve app hb d q
    rw [raises_eq_rejected] at hstep
    rw [List.filterMap_cons]
    generalize (app.storeCall q.1).map StoreCall.rejected = called at hstep
    cases hstep with
    | uncalled h => exact (undisturbed_cons hs h).trans (ih hb hn _)
    | returned b' hb' h =>
      exact (undisturbed_cons hs h).trans (ih hb' (by simp [App.tripsAt]) _)
    | counted b' hlt hb' h =>
      have hn' : n + 1 < app.tripsAt := by unfold App.tripsAt; omega
      rw [undisturbed_cons hs h, ih hb' hn', Streak.reaches_cons_true, not_or]
      exact ⟨fun h => ⟨not_le.mpr hn', h⟩, And.right⟩
    | tripped hle h =>
      have hreach : app.tripsAt ≤ n + 1 := by unfold App.tripsAt; omega
      exact iff_of_false (not_undisturbed_cons h) (not_not.mpr (Or.inl hreach))

/-- **When the breaker stays closed** on a reachable database: as long as no
`db_circuit_failure_threshold` requests in a row, of those that call the store, bring a value that
its columns do not take. -/
theorem undisturbed_iff (app : App) {β : Type} [Pybreaker β] [LawfulPybreaker β]
    (d : PostgresStore) (qs : List (Request × Chance)) :
    Undisturbed app (app.guard d : CircuitBreakerStore β PostgresStore) qs ↔
      ¬ List.replicate app.tripsAt true <:+:
        qs.filterMap fun q => (app.storeCall q.1).map StoreCall.rejected := by
  have hpos : 0 < app.tripsAt := by simp [App.tripsAt]
  rw [← Streak.reaches_zero_iff hpos]
  exact undisturbed_iff_not_reaches (LawfulPybreaker.circuitBreaker_counting _ _ _) hpos d

end Runs

/-! ## A machine whose payloads hold a null character -/

attribute [local instance] ColumnTypes.nulFree

namespace Sample

/-- Two machines: one that writes, and another that only reads. -/
def writer : Principal := ⟨"svc", some (.text "svc"), {"jobs.write", "jobs.read"}⟩

def reader : Principal := ⟨"reader", some (.text "reader"), {"jobs.read"}⟩

def app : App where
  settings := {}
  verify token := .ok (if token = "svc's" then writer else reader)
  fw :=
    { parseInt := fun segment => if segment = "1" then .ok 1 else .error .intParsing
      showErrors := fun _ _ => "[]"
      writes := fun _ => true }

def database : PostgresStore := ⟨∅, ∅, ∅, 1, 1⟩

def guarded : CircuitBreakerStore Breaker PostgresStore := app.guard database

def chance : Chance := ⟨"f00d", ⟨0, 0, 0⟩⟩

/-- `POST /v1/jobs` with `{"job_type": "hello", "payload": {"name": "\u0000"}}`. -/
def nullPost : Request × Chance :=
  ({ route := .createJob
     path := "/v1/jobs"
     headers := [("authorization", "Bearer svc's")]
     body := .read (.json (.object (((∅ : Payload).insert "job_type" (.text "hello")).insert
      "payload" (.object [("name", .text "\x00")])))) }, chance)

/-- `GET /v1/jobs/1`. -/
def get : Request × Chance :=
  ({ route := .getJob "1"
     path := "/v1/jobs/1"
     headers := [("authorization", "Bearer reader's")]
     body := .read .absent }, chance)

end Sample

/-- Four rejected payloads in a row, and four more after a lookup, do not open it. -/
theorem undisturbed_iff_four :
    Undisturbed Sample.app Sample.guarded
      (List.replicate 4 Sample.nullPost ++ Sample.get :: List.replicate 4 Sample.nullPost) :=
  (undisturbed_iff Sample.app Sample.database _).mpr (by decide)

/-- Five rejected payloads open the circuit, and another machine is told that the datastore is
unavailable. -/
theorem null_payloads_open_the_circuit :
    ¬ Undisturbed Sample.app Sample.guarded (List.replicate 5 Sample.nullPost ++ [Sample.get]) ∧
      (Exchange.final Sample.app.serve Sample.guarded (List.replicate 5 Sample.nullPost)).state =
        .opened ∧
      (Exchange.replies Sample.app.serve Sample.guarded
        (List.replicate 5 Sample.nullPost ++ [Sample.get])).map Response.statusCode =
          [500, 500, 500, 500, 503, 503] ∧
      (Exchange.replies Sample.app.serve Sample.database
        (List.replicate 5 Sample.nullPost ++ [Sample.get])).map Response.statusCode =
          [500, 500, 500, 500, 500, 404] := by
  have hopen : (Exchange.final Sample.app.serve Sample.guarded
      (List.replicate 5 Sample.nullPost)).state = .opened := by decide
  refine ⟨fun h => ?_, hopen, by decide, by decide⟩
  have hclosed := h.closed (List.replicate 5 Sample.nullPost) (List.prefix_append _ _)
  rw [hopen] at hclosed
  exact BreakerState.noConfusion hclosed

end HandlerAPIv2

end JobWorkflow
