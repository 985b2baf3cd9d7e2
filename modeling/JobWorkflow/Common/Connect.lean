import Mathlib.Data.List.Basic

/-!
# Common/Connect — how `PostgresStore` connects

`__init__` makes a pool and `_connect_with_retry` opens it, once for every attempt.  It is the same
pool all along: when the first wait for the database runs out, the pool is closed, and a pool that
was closed does not open again.  So only the first attempt counts (`init_tolerates_iff`).
-/

namespace JobWorkflow

/-- What `open` raises: the wait has run out, or the pool was closed before. -/
structure PoolError where
  text : String

/-- **A `ConnectionPool`**, by what its `open(wait=True, timeout=5)` does.  A pool is not opened yet
at first; `openWait` is told whether the database can be reached during the wait. -/
class ConnectionPool (P : Type) where
  new : P
  openWait : Bool → P → Except PoolError Unit × P
  Unopened : P → Prop
  /-- Opened once, and closed since. -/
  Closed : P → Prop
  new_unopened : Unopened new
  openWait_reachable : ∀ p, Unopened p → (openWait true p).1 = .ok ()
  openWait_timeout : ∀ p, Unopened p →
    (∃ e, (openWait false p).1 = .error e) ∧ Closed (openWait false p).2
  openWait_closed : ∀ reachable p, Closed p →
    (∃ e, (openWait reachable p).1 = .error e) ∧ Closed (openWait reachable p).2

structure RuntimeError where
  text : String

namespace PostgresStore

variable {P : Type} [ConnectionPool P]

/-- The loop of `_connect_with_retry`: the attempt it is at, how many are left, and the last error.
`reachable i` says whether the database can be reached during the attempt `i`. -/
def connectFrom (reachable : ℕ → Bool) : ℕ → ℕ → Option PoolError → P → Except RuntimeError P
  | _, 0, lastErr, _ =>
    .error ⟨"could not connect to Postgres: " ++ (lastErr.map PoolError.text).getD "None"⟩
  | i, left + 1, _, pool =>
    match ConnectionPool.openWait (reachable i) pool with
    | (.ok (), pool) => .ok pool
    | (.error err, pool) => connectFrom reachable (i + 1) left (some err) pool

/-- `_connect_with_retry`. -/
def connectWithRetry (maxRetries : ℕ) (reachable : ℕ → Bool) (pool : P) : Except RuntimeError P :=
  connectFrom reachable 0 maxRetries none pool

/-- `__init__`. -/
def init (maxRetries : ℕ) (reachable : ℕ → Bool) : Except RuntimeError P :=
  connectWithRetry maxRetries reachable ConnectionPool.new

section Attempts

variable {reachable : ℕ → Bool} {i : ℕ} {pool : P}

theorem connectFrom_ok (left : ℕ) (lastErr : Option PoolError)
    (h : (ConnectionPool.openWait (reachable i) pool).1 = .ok ()) :
    connectFrom reachable i (left + 1) lastErr pool =
      .ok (ConnectionPool.openWait (reachable i) pool).2 := by
  rw [connectFrom]
  generalize ConnectionPool.openWait (reachable i) pool = opened at h ⊢
  obtain ⟨result, pool'⟩ := opened
  obtain rfl : result = .ok () := h
  rfl

theorem connectFrom_error (left : ℕ) (lastErr : Option PoolError) {err : PoolError}
    (h : (ConnectionPool.openWait (reachable i) pool).1 = .error err) :
    connectFrom reachable i (left + 1) lastErr pool =
      connectFrom reachable (i + 1) left (some err)
        (ConnectionPool.openWait (reachable i) pool).2 := by
  rw [connectFrom]
  generalize ConnectionPool.openWait (reachable i) pool = opened at h ⊢
  obtain ⟨result, pool'⟩ := opened
  obtain rfl : result = .error err := h
  rfl

/-- **Once the pool is closed, all attempts are in vain.** -/
theorem connectFrom_closed (left : ℕ) (lastErr : Option PoolError)
    (h : ConnectionPool.Closed pool) :
    ∃ e, connectFrom reachable i left lastErr pool = .error e := by
  induction left generalizing i lastErr pool with
  | zero => exact ⟨_, rfl⟩
  | succ left ih =>
    obtain ⟨⟨err, herr⟩, hclosed⟩ := ConnectionPool.openWait_closed (reachable i) pool h
    rw [connectFrom_error left lastErr herr]
    exact ih (some err) hclosed

end Attempts

/-- The first attempt decides. -/
theorem init_succ (maxRetries : ℕ) (reachable : ℕ → Bool) :
    (∃ pool : P, init (maxRetries + 1) reachable = .ok pool) ↔ reachable 0 = true := by
  have hnew := ConnectionPool.new_unopened (P := P)
  rw [init, connectWithRetry]
  cases hreachable : reachable 0 with
  | true =>
    have hok := ConnectionPool.openWait_reachable _ hnew
    rw [← hreachable] at hok
    exact iff_of_true ⟨_, connectFrom_ok maxRetries none hok⟩ rfl
  | false =>
    obtain ⟨⟨err, herr⟩, hclosed⟩ := ConnectionPool.openWait_timeout _ hnew
    rw [← hreachable] at herr hclosed
    rw [connectFrom_error maxRetries none herr]
    obtain ⟨e, he⟩ := connectFrom_closed maxRetries (some err) hclosed
    refine iff_of_false ?_ Bool.false_ne_true
    rintro ⟨pool, hok⟩
    cases he.symm.trans hok

/-- **A late database is tolerated**: the constructor succeeds if the database can be reached at any
attempt, and gives up only if it can be at none. -/
structure Tolerates (P : Type) [ConnectionPool P] (maxRetries : ℕ) (reachable : ℕ → Bool) :
    Prop where
  succeeds : (∃ i < maxRetries, reachable i = true) →
    ∃ pool : P, init maxRetries reachable = .ok pool
  givesUp : (∃ e, (init maxRetries reachable : Except RuntimeError P) = .error e) →
    ∀ i < maxRetries, reachable i = false

/-- **The constructor tolerates a late database exactly if it is not late**: it can be reached at
the first attempt, or at none. -/
theorem init_tolerates_iff (maxRetries : ℕ) (reachable : ℕ → Bool) :
    Tolerates P maxRetries reachable ↔
      reachable 0 = true ∨ ∀ i < maxRetries, reachable i = false := by
  cases maxRetries with
  | zero =>
    refine ⟨fun _ => Or.inr fun i hi => absurd hi (Nat.not_lt_zero i), fun _ => ⟨?_, ?_⟩⟩
    · rintro ⟨i, hi, -⟩
      exact absurd hi (Nat.not_lt_zero i)
    · exact fun _ i hi => absurd hi (Nat.not_lt_zero i)
  | succ n =>
    have hinit := init_succ (P := P) n reachable
    constructor
    · intro h
      by_cases hsome : ∃ i < n + 1, reachable i = true
      · exact Or.inl (hinit.mp (h.succeeds hsome))
      · refine Or.inr fun i hi => Bool.eq_false_iff.mpr fun hreachable => ?_
        exact hsome ⟨i, hi, hreachable⟩
    · rintro (hfirst | hnone)
      · obtain ⟨pool, hpool⟩ := hinit.mpr hfirst
        refine ⟨fun _ => ⟨pool, hpool⟩, ?_⟩
        rintro ⟨e, he⟩
        cases hpool.symm.trans he
      · refine ⟨?_, fun _ => hnone⟩
        rintro ⟨i, hi, hreachable⟩
        cases (hnone i hi).symm.trans hreachable

/-! ## A pool -/

/-- The pool as far as `open` looks at it. -/
inductive Pool
  | unopened
  | opened
  | closed

/-- `open(wait=True, timeout=5)`. -/
def Pool.openWait (reachable : Bool) : Pool → Except PoolError Unit × Pool
  | .closed => (.error ⟨"pool has already been opened/closed and cannot be reused"⟩, .closed)
  | _ =>
    if reachable then (.ok (), .opened)
    else (.error ⟨"pool initialization incomplete after 5 sec"⟩, .closed)

instance : ConnectionPool Pool where
  new := .unopened
  openWait := Pool.openWait
  Unopened p := p = .unopened
  Closed p := p = .closed
  new_unopened := rfl
  openWait_reachable := by
    rintro _ rfl
    rfl
  openWait_timeout := by
    rintro _ rfl
    exact ⟨⟨_, rfl⟩, rfl⟩
  openWait_closed := by
    rintro _ _ rfl
    exact ⟨⟨_, rfl⟩, rfl⟩

/-- A database that is up at the second of 30 attempts is not reached. -/
theorem init_late : ¬ Tolerates Pool 30 fun i => 1 ≤ i := by
  intro h
  obtain ⟨pool, hpool⟩ := h.succeeds ⟨1, by decide, rfl⟩
  cases hpool

end PostgresStore

end JobWorkflow
