import JobWorkflow.HandlerAPIv2.Service

/-!
# HandlerAPIv2/CircuitBreaker — `CircuitBreakerStore`

`circuit_breaker.py`: the store's two calls go through a `pybreaker` breaker, which raises on its
own account while it is open.  Of `pybreaker` only what its documentation promises of a *closed*
breaker is used (`LawfulPybreaker`): a call that returns clears the count of failures, a call that
raises adds to it, and the failure that reaches `fail_max` opens the breaker.

`guarded_serve` is the step lemma: behind a closed breaker a request is answered as by the store
itself, but for the one that opens the breaker.
-/

namespace JobWorkflow

namespace HandlerAPIv2

open Api

/-! ## `pybreaker` -/

/-- `pybreaker.STATE_CLOSED` and its siblings. -/
inductive BreakerState
  | closed | opened | halfOpen
deriving DecidableEq

/-- `pybreaker.CircuitBreaker`, as far as it is used: its constructor, what it can be asked, and a
call through it.  `exclude` tells the exceptions that are no failures. -/
class Pybreaker (β : Type) where
  circuitBreaker (failMax : ℤ) (resetTimeout : Duration) (exclude : Raised → Bool) : β
  currentState : β → BreakerState
  failMax : β → ℤ
  excluded : β → Raised → Bool
  failCounter : β → ℕ
  call {α σ : Type} (now : Time) (func : σ → Except Raised α × σ) (b : β) (s : σ) :
    Except Raised α × β × σ

/-- A closed breaker, with `n` failures in a row. -/
structure Counting {β : Type} [Pybreaker β] (m : ℤ) (exclude : Raised → Bool) (n : ℕ) (b : β) :
    Prop where
  currentState : Pybreaker.currentState b = .closed
  failMax : Pybreaker.failMax b = m
  excluded : Pybreaker.excluded b = exclude
  failCounter : Pybreaker.failCounter b = n

/-- What `pybreaker` promises of a closed breaker. -/
class LawfulPybreaker (β : Type) [Pybreaker β] : Prop where
  circuitBreaker_counting (m : ℤ) (resetTimeout : Duration) (exclude : Raised → Bool) :
    Counting m exclude 0 (Pybreaker.circuitBreaker m resetTimeout exclude : β)
  call_ok {α σ : Type} {m : ℤ} {exclude : Raised → Bool} {n : ℕ} {b : β}
    {func : σ → Except Raised α × σ} {s s' : σ} {a : α} (now : Time) :
    Counting m exclude n b → func s = (.ok a, s') →
      ∃ b', Pybreaker.call now func b s = (.ok a, b', s') ∧ Counting m exclude 0 b'
  call_error {α σ : Type} {m : ℤ} {exclude : Raised → Bool} {n : ℕ} {b : β}
    {func : σ → Except Raised α × σ} {s s' : σ} {e : Raised} (now : Time) :
    Counting m exclude n b → func s = (.error e, s') → exclude e = false → (n + 1 : ℤ) < m →
      ∃ b', Pybreaker.call now func b s = (.error e, b', s') ∧ Counting m exclude (n + 1) b'
  call_trip {α σ : Type} {m : ℤ} {exclude : Raised → Bool} {n : ℕ} {b : β}
    {func : σ → Except Raised α × σ} {s s' : σ} {e : Raised} (now : Time) :
    Counting m exclude n b → func s = (.error e, s') → exclude e = false → m ≤ n + 1 →
      ∃ b', Pybreaker.call now func b s = (.error .circuitOpen, b', s') ∧
        Pybreaker.currentState b' = .opened

/-! ## `circuit_breaker.py` -/

structure CircuitBreakerStore (β σ : Type) where
  inner : σ
  breaker : β

section Store

variable {β σ : Type} [Pybreaker β]

/-- No exception is excluded. -/
def noneExcluded (_ : Raised) : Bool := false

def buildBreaker (failureThreshold : ℤ) (resetTimeout : Duration) : β :=
  Pybreaker.circuitBreaker failureThreshold resetTimeout noneExcluded

namespace CircuitBreakerStore

def state (s : CircuitBreakerStore β σ) : BreakerState := Pybreaker.currentState s.breaker

/-- `self._breaker.call(…)`. -/
def call {α : Type} (now : Time) (func : σ → Except Raised α × σ) (s : CircuitBreakerStore β σ) :
    Except Raised α × CircuitBreakerStore β σ :=
  let (result, breaker, inner) := Pybreaker.call now func s.breaker s.inner
  (result, ⟨inner, breaker⟩)

instance [Datastore σ] : Datastore (CircuitBreakerStore β σ) where
  enqueue jobType inputPayload creator clock :=
    call clock.now (Datastore.enqueue jobType inputPayload creator clock)
  getJob jobId clock := call clock.now (Datastore.getJob jobId clock)

end CircuitBreakerStore

/-- What the application makes of a `PostgresStore`. -/
def App.guard (app : App) (inner : σ) : CircuitBreakerStore β σ where
  inner := inner
  breaker := buildBreaker app.settings.dbCircuitFailureThreshold app.settings.dbCircuitResetTimeout

end Store

/-! ## What the routes do with the store -/

/-- A call on the store. -/
inductive StoreCall
  | enqueue (jobType : String) (payload : Payload) (creator : Creator)
  | getJob (jobId : JobId)

/-- The call a request makes, once it is past its dependencies and validation. -/
def App.storeCall (app : App) (r : Request) : Option StoreCall :=
  match r.route with
  | .createJob =>
    match prepareCreate app.requireWrite r with
    | .ok (principal, body) =>
      some (.enqueue body.jobType (body.payload.getD ∅) principal.toCreator)
    | .error _ => none
  | .getJob segment =>
    match prepareGet app.fw app.requireRead segment r with
    | .ok (_, jobId) => some (.getJob jobId)
    | .error _ => none
  | .readyz => some (.getJob 0)
  | .healthz => none
  | .unrouted _ _ _ => none

def raises {α : Type} : Except Raised α → Bool
  | .error _ => true
  | .ok _ => false

/-- Whether the call raises. -/
def StoreCall.raises {σ : Type} [Datastore σ] (clock : Clock) (s : σ) : StoreCall → Bool
  | .enqueue jobType payload creator =>
    HandlerAPIv2.raises
      (Datastore.enqueue jobType (some (.object payload)) (some creator) clock s).1
  | .getJob jobId => HandlerAPIv2.raises (Datastore.getJob jobId clock s).1

/-- No call of these requests would raise, if the store were asked itself. -/
def App.Healthy {σ : Type} [Datastore σ] (app : App) : σ → List (Request × Chance) → Prop
  | _, [] => True
  | i, q :: qs => (∀ c ∈ app.storeCall q.1, c.raises q.2.clock i = false) ∧
      app.Healthy (app.serve i q).2 qs

section Routes

variable {σ : Type} [Datastore σ]

/-- `create_job`, once the store has answered. -/
def createJobAnswer (jobType : String) : Except Raised (Option JobId) → Except Raised Response
  | .error e => .error e
  | .ok none => .error (.problem (conflict jobType))
  | .ok (some jobId) => .ok (jobCreated jobId)

/-- `get_job`, once the store has answered. -/
def getJobAnswer (fw : Framework) (jobId : JobId) :
    Except Raised (Option Job) → Except Raised Response
  | .error e => .error e
  | .ok none => .error (.problem (notFound jobId))
  | .ok (some job) => fw.render jobShown (toResponse job)

/-- `readyz`, once the store has answered. -/
def readyzAnswer : Except Raised (Option Job) → Except Raised Response
  | .error _ =>
    .error (.problem ⟨503, "Service Unavailable", some "datastore not reachable", []⟩)
  | .ok _ => .ok ⟨200, jsonMediaType, [], .probe "ready"⟩

theorem createJob_eq (body : CreateJobRequest) (principal : Principal) (clock : Clock) (s : σ) :
    createJob body principal clock s =
      (Datastore.enqueue body.jobType (some (.object (body.payload.getD ∅)))
        (some principal.toCreator) clock s).map (createJobAnswer body.jobType) id := by
  rw [createJob]
  rcases Datastore.enqueue body.jobType (some (.object (body.payload.getD ∅)))
    (some principal.toCreator) clock s with ⟨_ | _ | _, s'⟩ <;> rfl

theorem getJob_eq (fw : Framework) (jobId : JobId) (principal : Principal) (clock : Clock) (s : σ) :
    getJob fw jobId principal clock s =
      (Datastore.getJob jobId clock s).map (getJobAnswer fw jobId) id := by
  rw [getJob]
  rcases Datastore.getJob jobId clock s with ⟨_ | _ | _, s'⟩ <;> rfl

theorem readyz_eq (clock : Clock) (s : σ) :
    readyz clock s = (Datastore.getJob 0 clock s).map readyzAnswer id := by
  rw [readyz]
  rcases Datastore.getJob 0 clock s with ⟨_ | _, s'⟩ <;> rfl

end Routes

/-! ## Behind a closed breaker -/

/-- What a step `x` behind a closed breaker is to the step `y` of the store itself: the same, with
the breaker told of the call, unless this is the failure that opens it. -/
inductive Guarded {β σ α : Type} [Pybreaker β] (m : ℤ) (n : ℕ) (b : β)
    (x : α × CircuitBreakerStore β σ) (y : α × σ) : Option Bool → Prop
  | uncalled (h : x = (y.1, ⟨y.2, b⟩)) : Guarded m n b x y none
  | returned (b' : β) (hb' : Counting m noneExcluded 0 b') (h : x = (y.1, ⟨y.2, b'⟩)) :
      Guarded m n b x y (some false)
  | counted (b' : β) (hlt : (n + 1 : ℤ) < m) (hb' : Counting m noneExcluded (n + 1) b')
      (h : x = (y.1, ⟨y.2, b'⟩)) : Guarded m n b x y (some true)
  | tripped (hle : m ≤ n + 1) (h : x.2.state = .opened) : Guarded m n b x y (some true)

section Step

variable {β σ : Type} [Pybreaker β] {m : ℤ} {n : ℕ} {b : β}

/-- What is made of the result does not matter. -/
theorem Guarded.map {α γ : Type} {x : α × CircuitBreakerStore β σ} {y : α × σ}
    {called : Option Bool} (h : Guarded m n b x y called) (f : α → γ) :
    Guarded m n b (x.map f id) (y.map f id) called := by
  cases h with
  | uncalled h => exact .uncalled (by rw [h]; rfl)
  | returned b' hb' h => exact .returned b' hb' (by rw [h]; rfl)
  | counted b' hlt hb' h => exact .counted b' hlt hb' (by rw [h]; rfl)
  | tripped hle h => exact .tripped hle h

/-- As long as no call raises, the breaker stays closed. -/
theorem Guarded.stays_closed {α : Type} {x : α × CircuitBreakerStore β σ} {y : α × σ}
    {called : Option Bool} (h : Guarded m n b x y called) (hb : Counting m noneExcluded n b)
    (hcalled : called ≠ some true) :
    ∃ n' b', Counting m noneExcluded n' b' ∧ x = (y.1, ⟨y.2, b'⟩) := by
  cases h with
  | uncalled h => exact ⟨n, b, hb, h⟩
  | returned b' hb' h => exact ⟨0, b', hb', h⟩
  | counted b' hlt hb' h => exact absurd rfl hcalled
  | tripped hle h => exact absurd rfl hcalled

variable [LawfulPybreaker β]

theorem guarded_call {α : Type} (hb : Counting m noneExcluded n b) (now : Time)
    (func : σ → Except Raised α × σ) (i : σ) :
    Guarded m n b (CircuitBreakerStore.call now func ⟨i, b⟩) (func i)
      (some (raises (func i).1)) := by
  rcases hf : func i with ⟨e | a, i'⟩
  · by_cases hlt : (n + 1 : ℤ) < m
    · obtain ⟨b', hcall, hb'⟩ := LawfulPybreaker.call_error now hb hf rfl hlt
      exact .counted b' hlt hb' (by rw [CircuitBreakerStore.call, hcall])
    · obtain ⟨b', hcall, hb'⟩ := LawfulPybreaker.call_trip now hb hf rfl (not_lt.mp hlt)
      exact .tripped (not_lt.mp hlt) (by rw [CircuitBreakerStore.call, hcall]; exact hb')
  · obtain ⟨b', hcall, hb'⟩ := LawfulPybreaker.call_ok now hb hf
    exact .returned b' hb' (by rw [CircuitBreakerStore.call, hcall])

variable [Datastore σ]

theorem guarded_endpoint (app : App) (r : Request) (clock : Clock)
    (hb : Counting m noneExcluded n b) (i : σ) :
    Guarded m n b (app.endpoint r clock ⟨i, b⟩) (app.endpoint r clock i)
      ((app.storeCall r).map (StoreCall.raises clock i)) := by
  cases hroute : r.route with
  | createJob =>
    simp only [App.endpoint, App.storeCall, hroute]
    cases hp : prepareCreate app.requireWrite r with
    | error e => exact .uncalled rfl
    | ok pb =>
      simp only [proceed_ok, createJob_eq]
      exact (guarded_call hb clock.now _ i).map _
  | getJob segment =>
    simp only [App.endpoint, App.storeCall, hroute]
    cases hp : prepareGet app.fw app.requireRead segment r with
    | error e => exact .uncalled rfl
    | ok pi =>
      simp only [proceed_ok, getJob_eq]
      exact (guarded_call hb clock.now _ i).map _
  | readyz =>
    simp only [App.endpoint, App.storeCall, hroute, readyz_eq]
    exact (guarded_call hb clock.now _ i).map _
  | healthz =>
    simp only [App.endpoint, App.storeCall, hroute]
    exact .uncalled rfl
  | unrouted st detail headers =>
    simp only [App.endpoint, App.storeCall, hroute]
    exact .uncalled rfl

/-- **One request** behind a closed breaker. -/
theorem guarded_serve (app : App) (hb : Counting m noneExcluded n b) (i : σ)
    (q : Request × Chance) :
    Guarded m n b (app.serve ⟨i, b⟩ q) (app.serve i q)
      ((app.storeCall q.1).map (StoreCall.raises q.2.clock i)) :=
  (guarded_endpoint app q.1 q.2.clock hb i).map _

end Step

/-! ## A breaker -/

namespace Sample

/-- A breaker, with the time at which it was last opened. -/
structure Breaker where
  failMax : ℤ
  resetTimeout : Duration
  excluded : Raised → Bool
  state : BreakerState := .closed
  failCounter : ℕ := 0
  openedAt : Time := 0

namespace Breaker

variable {α σ : Type}

/-- A call whose success closes the breaker, and whose failure opens it from `limit` on. -/
def attempt (now : Time) (limit : ℤ) (func : σ → Except Raised α × σ) (b : Breaker) (s : σ) :
    Except Raised α × Breaker × σ :=
  match func s with
  | (.ok a, s') => (.ok a, { b with state := .closed, failCounter := 0 }, s')
  | (.error e, s') =>
    if b.excluded e then (.error e, { b with state := .closed, failCounter := 0 }, s')
    else if limit ≤ b.failCounter + 1 then
      (.error .circuitOpen,
        { b with state := .opened, failCounter := b.failCounter + 1, openedAt := now }, s')
    else (.error e, { b with failCounter := b.failCounter + 1 }, s')

/-- While it is open a breaker lets nothing through; after the timeout one call is its trial. -/
def call (now : Time) (func : σ → Except Raised α × σ) (b : Breaker) (s : σ) :
    Except Raised α × Breaker × σ :=
  match b.state with
  | .closed => b.attempt now b.failMax func s
  | .opened =>
    if now < b.openedAt + b.resetTimeout then (.error .circuitOpen, b, s)
    else b.attempt now 0 func s
  | .halfOpen => b.attempt now 0 func s

instance : Pybreaker Breaker where
  circuitBreaker failMax resetTimeout exclude :=
    { failMax := failMax, resetTimeout := resetTimeout, excluded := exclude }
  currentState := Breaker.state
  failMax := Breaker.failMax
  excluded := Breaker.excluded
  failCounter := Breaker.failCounter
  call := Breaker.call

instance : LawfulPybreaker Breaker where
  circuitBreaker_counting _ _ _ := ⟨rfl, rfl, rfl, rfl⟩
  call_ok {α σ m exclude n b func s s' a} now hb hf := by
    obtain ⟨hstate, hm, hex, -⟩ := hb
    have hclosed : b.state = .closed := hstate
    refine ⟨{ b with state := .closed, failCounter := 0 }, ?_, rfl, hm, hex, rfl⟩
    simp only [Pybreaker.call, Breaker.call, hclosed, attempt, hf]
  call_error {α σ m exclude n b func s s' e} now hb hf he hlt := by
    obtain ⟨hstate, rfl, rfl, rfl⟩ := hb
    have hclosed : b.state = .closed := hstate
    have hexcluded : b.excluded e = false := he
    have hlimit : ¬ b.failMax ≤ b.failCounter + 1 := not_le.mpr hlt
    refine ⟨{ b with failCounter := b.failCounter + 1 }, ?_, hstate, rfl, rfl, rfl⟩
    simp only [Pybreaker.call, Breaker.call, hclosed, attempt, hf, hexcluded, Bool.false_eq_true,
      if_false, if_neg hlimit]
  call_trip {α σ m exclude n b func s s' e} now hb hf he hle := by
    obtain ⟨hstate, rfl, rfl, rfl⟩ := hb
    have hclosed : b.state = .closed := hstate
    have hexcluded : b.excluded e = false := he
    have hlimit : b.failMax ≤ b.failCounter + 1 := hle
    refine ⟨{ b with state := .opened, failCounter := b.failCounter + 1, openedAt := now }, ?_, rfl⟩
    simp only [Pybreaker.call, Breaker.call, hclosed, attempt, hf, hexcluded, Bool.false_eq_true,
      if_false, if_pos hlimit]

end Breaker

end Sample

end HandlerAPIv2

end JobWorkflow
