import JobWorkflow.HandlerAPIv2.Shedding
import JobWorkflow.Machinery.Breaker

/-!
# HandlerAPIv2/Outage — while the database is down, and when it is back

Of `pybreaker` this uses what it promises of an open breaker as well (`LawfulReopening`): until
`reset_timeout` has passed it raises without a call; then one call is its trial, which closes it or
opens it again.

`met_serve` is the step lemma: each request is one `Breaker.Step`, and is answered as by the store
itself, or `503`.
-/

namespace JobWorkflow

namespace HandlerAPIv2

open Api Breaker

/-! ## `pybreaker` -/

/-- A breaker that can be asked how long it stays open, and when it was opened. -/
class Reopening (β : Type) extends Pybreaker β where
  resetTimeout : β → Duration
  openedAt : β → Time

/-- A breaker that was opened at `t`. -/
structure Opened {β : Type} [Reopening β] (m : ℤ) (exclude : Raised → Bool) (t : Time) (b : β) :
    Prop where
  currentState : Pybreaker.currentState b = .opened
  failMax : Pybreaker.failMax b = m
  excluded : Pybreaker.excluded b = exclude
  openedAt : Reopening.openedAt b = t

/-- What `pybreaker` promises of an open breaker, and of the call that opens it. -/
class LawfulReopening (β : Type) [Reopening β] : Prop extends LawfulPybreaker β where
  circuitBreaker_resetTimeout (m : ℤ) (resetTimeout : Duration) (exclude : Raised → Bool) :
    Reopening.resetTimeout (Pybreaker.circuitBreaker m resetTimeout exclude : β) = resetTimeout
  call_resetTimeout {α σ : Type} (now : Time) (func : σ → Except Raised α × σ) (b : β) (s : σ) :
    Reopening.resetTimeout (Pybreaker.call now func b s).2.1 = Reopening.resetTimeout b
  call_tripped {α σ : Type} {m : ℤ} {exclude : Raised → Bool} {n : ℕ} {b : β}
    {func : σ → Except Raised α × σ} {s s' : σ} {e : Raised} (now : Time) :
    Counting m exclude n b → func s = (.error e, s') → exclude e = false → m ≤ n + 1 →
      ∃ b' t, Pybreaker.call now func b s = (.error .circuitOpen, b', s') ∧ now ≤ t ∧
        Opened m exclude t b'
  call_shed {α σ : Type} {m : ℤ} {exclude : Raised → Bool} {t : Time} {b : β}
    (func : σ → Except Raised α × σ) (s : σ) (now : Time) :
    Opened m exclude t b → now < t + Reopening.resetTimeout b →
      Pybreaker.call now func b s = (.error .circuitOpen, b, s)
  call_trial_ok {α σ : Type} {m : ℤ} {exclude : Raised → Bool} {t : Time} {b : β}
    {func : σ → Except Raised α × σ} {s s' : σ} {a : α} (now : Time) :
    Opened m exclude t b → t + Reopening.resetTimeout b ≤ now → func s = (.ok a, s') →
      ∃ b', Pybreaker.call now func b s = (.ok a, b', s') ∧ Counting m exclude 0 b'
  call_trial_error {α σ : Type} {m : ℤ} {exclude : Raised → Bool} {t : Time} {b : β}
    {func : σ → Except Raised α × σ} {s s' : σ} {e : Raised} (now : Time) :
    Opened m exclude t b → t + Reopening.resetTimeout b ≤ now → func s = (.error e, s') →
      exclude e = false → ∃ b' t', Pybreaker.call now func b s = (.error .circuitOpen, b', s') ∧
        now ≤ t' ∧ Opened m exclude t' b'

/-- **How a breaker stands**, for the machine of `Machinery/Breaker`. -/
inductive Stands {β : Type} [Reopening β] (m : ℤ) (T : Duration) : State → β → Prop
  | closed {n : ℕ} {b : β} (h : Counting m noneExcluded n b)
      (hT : Reopening.resetTimeout b = T) : Stands m T (.closed n) b
  | opened {t : Time} {b : β} (h : Opened m noneExcluded t b)
      (hT : Reopening.resetTimeout b = T) : Stands m T (.opened t) b

/-- An open breaker stands as it says itself. -/
theorem Stands.eq_opened {β : Type} [Reopening β] {m : ℤ} {T : Duration} {st : State} {b : β}
    (h : Stands m T st b) (hb : Pybreaker.currentState b = .opened) :
    st = .opened (Reopening.openedAt b) := by
  cases h with
  | closed h hT => exact BreakerState.noConfusion (h.currentState.symm.trans hb)
  | opened h hT => rw [h.openedAt]

/-- A breaker that is not open lets everything through. -/
theorem Stands.admits {β : Type} [Reopening β] {m : ℤ} {T : Duration} {st : State} {b : β}
    (h : Stands m T st b) (hb : Pybreaker.currentState b ≠ .opened) (now : Time) :
    st.Admits T now := by
  cases h with
  | closed h hT => trivial
  | opened h hT => exact absurd h.currentState hb

/-- The failures in a row that open a breaker. -/
def tripsAt (m : ℤ) : ℕ := max 1 m.toNat

/-! ## One call -/

/-- What a step `x` behind the breaker is to the step `y` of the store itself, where `busy` is what
comes of a breaker that raises. -/
inductive Met {β σ α : Type} [Reopening β] (m : ℤ) (T : Duration) (now : Time) (i : σ)
    (busy : α → Prop) (st : State) (b : β) (x : α × CircuitBreakerStore β σ) (y : α × σ) :
    Option Bool → Option Attempt → State → Prop
  | uncalled (hy : y.2 = i) (h : x = (y.1, ⟨y.2, b⟩)) : Met m T now i busy st b x y none none st
  | shed {failed : Bool} (hno : ¬ st.Admits T now) (hx : busy x.1) (h : x.2 = ⟨i, b⟩) :
      Met m T now i busy st b x y (some failed) none st
  | reached {failed : Bool} {b' : β} {st' : State} (hyes : st.Admits T now)
      (hstep : Step (tripsAt m) T st (some ⟨now, failed⟩) st') (hb' : Stands m T st' b')
      (hx : x.1 = y.1 ∨ failed = true ∧ busy x.1) (h : x.2 = ⟨y.2, b'⟩) :
      Met m T now i busy st b x y (some failed) (some ⟨now, failed⟩) st'

section Step

variable {β σ : Type} [Reopening β] {m : ℤ} {T : Duration} {now : Time} {i : σ} {st st' : State}
  {b : β} {called : Option Bool} {a : Option Attempt}

/-- What is made of the result. -/
theorem Met.map {α γ : Type} {busy : α → Prop} {busy' : γ → Prop}
    {x : α × CircuitBreakerStore β σ} {y : α × σ} (h : Met m T now i busy st b x y called a st')
    {f : α → γ} (hf : ∀ r, busy r → busy' (f r)) :
    Met m T now i busy' st b (x.map f id) (y.map f id) called a st' := by
  cases h with
  | uncalled hy h => exact .uncalled hy (by rw [h]; rfl)
  | shed hno hx h => exact .shed hno (hf _ hx) h
  | reached hyes hstep hb' hx h =>
    exact .reached hyes hstep hb' (hx.imp (congrArg f) (And.imp_right (hf _))) h

variable [LawfulReopening β]

/-- **One call through a breaker**, however it stands. -/
theorem met_call {α : Type} (hb : Stands m T st b) (now : Time) (func : σ → Except Raised α × σ)
    (i : σ) : ∃ a st', Met m T now i (· = .error .circuitOpen) st b
      (CircuitBreakerStore.call now func ⟨i, b⟩) (func i) (some (raises (func i).1)) a st' := by
  have hkeep := LawfulReopening.call_resetTimeout now func b i
  rw [CircuitBreakerStore.call]
  cases hb with
  | @closed n b hn hT =>
    rcases hf : func i with ⟨e | r, i'⟩
    · by_cases hlt : (n + 1 : ℤ) < m
      · obtain ⟨b', hcall, hb'⟩ := LawfulPybreaker.call_error now hn hf rfl hlt
        rw [hcall] at hkeep ⊢
        have hlimit : n + 1 < tripsAt m := by unfold tripsAt; omega
        exact ⟨_, _, .reached trivial (.counted hlimit) (.closed hb' (hkeep.trans hT)) (Or.inl rfl)
          rfl⟩
      · obtain ⟨b', t, hcall, hle, hb'⟩ :=
          LawfulReopening.call_tripped now hn hf rfl (not_lt.mp hlt)
        rw [hcall] at hkeep ⊢
        have hlimit : tripsAt m ≤ n + 1 := by unfold tripsAt; omega
        exact ⟨_, _, .reached trivial (.tripped hlimit hle) (.opened hb' (hkeep.trans hT))
          (Or.inr ⟨rfl, rfl⟩) rfl⟩
    · obtain ⟨b', hcall, hb'⟩ := LawfulPybreaker.call_ok now hn hf
      rw [hcall] at hkeep ⊢
      exact ⟨_, _, .reached trivial (.returned trivial) (.closed hb' (hkeep.trans hT)) (Or.inl rfl)
        rfl⟩
  | @opened t b ht hT =>
    subst hT
    by_cases hnow : now < t + Reopening.resetTimeout b
    · rw [LawfulReopening.call_shed func i now ht hnow]
      exact ⟨none, _, .shed (not_le.mpr hnow) rfl rfl⟩
    · have hyes : t + Reopening.resetTimeout b ≤ now := not_lt.mp hnow
      rcases hf : func i with ⟨e | r, i'⟩
      · obtain ⟨b', t', hcall, hle, hb'⟩ := LawfulReopening.call_trial_error now ht hyes hf rfl
        rw [hcall] at hkeep ⊢
        exact ⟨_, _, .reached hyes (.reopened hyes hle) (.opened hb' hkeep) (Or.inr ⟨rfl, rfl⟩)
          rfl⟩
      · obtain ⟨b', hcall, hb'⟩ := LawfulReopening.call_trial_ok now ht hyes hf
        rw [hcall] at hkeep ⊢
        exact ⟨_, _, .reached hyes (.returned hyes) (.closed hb' hkeep) (Or.inl rfl) rfl⟩

/-! ## One request -/

/-- What is raised is answered `503`. -/
def App.Unavailable (app : App) (r : Request) (result : Except Raised Response) : Prop :=
  ∃ e resp, result = .error e ∧ app.handler r e = some resp ∧ resp.statusCode = 503

theorem unavailable_circuitOpen (app : App) (r : Request) :
    app.Unavailable r (.error .circuitOpen) := ⟨_, _, rfl, rfl, rfl⟩

variable [Datastore σ]

theorem met_endpoint (app : App) (r : Request) (clock : Clock) (hb : Stands m T st b) (i : σ) :
    ∃ a st', Met m T clock.now i (app.Unavailable r) st b (app.endpoint r clock ⟨i, b⟩)
      (app.endpoint r clock i) ((app.storeCall r).map (StoreCall.raises clock i)) a st' := by
  have hopen : ∀ {α : Type} {f : Except Raised α → Except Raised Response},
      app.Unavailable r (f (.error .circuitOpen)) →
      ∀ x, x = .error .circuitOpen → app.Unavailable r (f x) := fun hf _ hx => hx ▸ hf
  cases hroute : r.route with
  | createJob =>
    simp only [App.endpoint, App.storeCall, hroute]
    cases hp : prepareCreate app.requireWrite r with
    | error e => exact ⟨_, _, .uncalled rfl rfl⟩
    | ok pb =>
      simp only [proceed_ok, createJob_eq]
      obtain ⟨a, st', h⟩ := met_call hb clock.now (Datastore.enqueue pb.2.jobType
        (some (.object (pb.2.payload.getD ∅))) (some pb.1.toCreator) clock) i
      exact ⟨a, st', h.map (hopen (unavailable_circuitOpen app r))⟩
  | getJob segment =>
    simp only [App.endpoint, App.storeCall, hroute]
    cases hp : prepareGet app.fw app.requireRead segment r with
    | error e => exact ⟨_, _, .uncalled rfl rfl⟩
    | ok pi =>
      simp only [proceed_ok, getJob_eq]
      obtain ⟨a, st', h⟩ := met_call hb clock.now (Datastore.getJob pi.2 clock) i
      exact ⟨a, st', h.map (hopen (unavailable_circuitOpen app r))⟩
  | readyz =>
    simp only [App.endpoint, App.storeCall, hroute, readyz_eq]
    obtain ⟨a, st', h⟩ := met_call hb clock.now (Datastore.getJob 0 clock) i
    exact ⟨a, st', h.map (hopen ⟨_, _, rfl, rfl, rfl⟩)⟩
  | healthz =>
    simp only [App.endpoint, App.storeCall, hroute]
    exact ⟨_, _, .uncalled rfl rfl⟩
  | unrouted st detail headers =>
    simp only [App.endpoint, App.storeCall, hroute]
    exact ⟨_, _, .uncalled rfl rfl⟩

/-- **One request**, however the breaker stands. -/
theorem met_serve (app : App) (hb : Stands m T st b) (i : σ) (q : Request × Chance) :
    ∃ a st', Met m T q.2.clock.now i (fun resp => resp.statusCode = 503) st b
      (app.serve ⟨i, b⟩ q) (app.serve i q)
      ((app.storeCall q.1).map (StoreCall.raises q.2.clock i)) a st' := by
  obtain ⟨a, st', h⟩ := met_endpoint app q.1 q.2.clock hb i
  refine ⟨a, st', h.map ?_⟩
  rintro _ ⟨e, resp, rfl, hresp, h503⟩
  rw [stack, hresp]
  exact h503

variable {s : CircuitBreakerStore β σ} (app : App) (q : Request × Chance)

/-- A request is answered as by the store itself, or `503`. -/
theorem answered_or_unavailable (hb : Stands m T st s.breaker) :
    (app.serve s q).1 = (app.serve s.inner q).1 ∨ (app.serve s q).1.statusCode = 503 := by
  obtain ⟨a, st', h⟩ := met_serve app hb s.inner q
  generalize (app.storeCall q.1).map (StoreCall.raises q.2.clock s.inner) = called at h
  cases h with
  | uncalled hy h => exact Or.inl (congrArg Prod.fst h)
  | shed hno hx h => exact Or.inr hx
  | reached hyes hstep hb' hx h => exact hx.imp_right And.right

/-- What a breaker does not let through does not get to the store. -/
theorem unavailable_of_not_admits (hb : Stands m T st s.breaker)
    (hno : ¬ st.Admits T q.2.clock.now) (hcall : (app.storeCall q.1).isSome) :
    (app.serve s q).1.statusCode = 503 ∧ (app.serve s q).2 = s := by
  obtain ⟨c, hc⟩ := Option.isSome_iff_exists.mp hcall
  obtain ⟨a, st', h⟩ := met_serve app hb s.inner q
  rw [hc, Option.map_some] at h
  generalize c.raises q.2.clock s.inner = failed at h
  generalize hcalled : some failed = called at h
  cases h with
  | uncalled hy h => cases hcalled
  | shed hno hx h => exact ⟨hx, h⟩
  | reached hyes hstep hb' hx h => exact absurd hyes hno

end Step

/-! ## A database that is watched -/

/-- A store, and the calls that reach it, latest first. -/
structure Tapped (σ : Type) where
  inner : σ
  log : List Attempt

namespace Tapped

variable {σ : Type} [Datastore σ]

/-- The call is noted, and made. -/
def call {α : Type} (now : Time) (func : σ → Except Raised α × σ) (s : Tapped σ) :
    Except Raised α × Tapped σ :=
  ((func s.inner).1, ⟨(func s.inner).2, ⟨now, raises (func s.inner).1⟩ :: s.log⟩)

instance : Datastore (Tapped σ) where
  enqueue jobType inputPayload creator clock :=
    call clock.now (Datastore.enqueue jobType inputPayload creator clock)
  getJob jobId clock := call clock.now (Datastore.getJob jobId clock)

/-- A request notes the call it makes. -/
theorem log_serve (app : App) (s : Tapped σ) (q : Request × Chance) :
    (app.serve s q).2.log = ((app.storeCall q.1).map fun c =>
      ⟨q.2.clock.now, c.raises q.2.clock s⟩).toList ++ s.log := by
  change (app.endpoint q.1 q.2.clock s).2.log = _
  cases hroute : q.1.route with
  | createJob =>
    simp only [App.endpoint, App.storeCall, hroute]
    cases hp : prepareCreate app.requireWrite q.1 with
    | error e => rfl
    | ok pb =>
      simp only [proceed_ok, createJob_eq]
      rfl
  | getJob segment =>
    simp only [App.endpoint, App.storeCall, hroute]
    cases hp : prepareGet app.fw app.requireRead segment q.1 with
    | error e => rfl
    | ok pi =>
      simp only [proceed_ok, getJob_eq]
      rfl
  | readyz =>
    simp only [App.endpoint, App.storeCall, hroute, readyz_eq]
    rfl
  | healthz | unrouted st detail headers =>
    simp only [App.endpoint, App.storeCall, hroute]
    rfl

end Tapped

/-! ## Runs -/

section Runs

variable {β σ : Type} [Reopening β] [LawfulReopening β] [Datastore σ] {app : App}

omit [Datastore σ] in
/-- How the breaker stands at first. -/
theorem stands_guard (i : σ) : Stands app.settings.dbCircuitFailureThreshold
    app.settings.dbCircuitResetTimeout (.closed 0)
    (app.guard i : CircuitBreakerStore β σ).breaker :=
  .closed (LawfulPybreaker.circuitBreaker_counting _ _ _)
    (LawfulReopening.circuitBreaker_resetTimeout _ _ _)

/-- What a guarded store always meets: the log of the calls that reach it explains its breaker. -/
def App.Explained (app : App) (s : CircuitBreakerStore β (Tapped σ)) : Prop :=
  ∃ st, Stands app.settings.dbCircuitFailureThreshold app.settings.dbCircuitResetTimeout st
      s.breaker ∧
    Explains app.tripsAt app.settings.dbCircuitResetTimeout s.inner.log st

theorem explained_serve {s : CircuitBreakerStore β (Tapped σ)} (hs : app.Explained s)
    (q : Request × Chance) : app.Explained (app.serve s q).2 := by
  obtain ⟨st, hb, hlog⟩ := hs
  obtain ⟨a, st', h⟩ := met_serve app hb s.inner q
  generalize hcalled : (app.storeCall q.1).map (StoreCall.raises q.2.clock s.inner) = called at h
  cases h with
  | uncalled hy h =>
    rw [h, hy]
    exact ⟨st, hb, hlog⟩
  | shed hno hx h =>
    rw [h]
    exact ⟨st, hb, hlog⟩
  | reached hyes hstep hb' hx h =>
    obtain ⟨c, hc, rfl⟩ := Option.map_eq_some_iff.mp hcalled
    have hnoted := Tapped.log_serve app s.inner q
    rw [hc] at hnoted
    refine ⟨st', h ▸ hb', ?_⟩
    rw [h, hnoted]
    exact hlog.step hstep (Nat.le_max_left _ _)

theorem explained_final (app : App) (i : σ) (qs : List (Request × Chance)) : app.Explained
    (Exchange.final app.serve (app.guard ⟨i, []⟩ : CircuitBreakerStore β (Tapped σ)) qs) :=
  Exchange.final_invariant (I := app.Explained) (fun _ q hs => explained_serve hs q)
    ⟨_, stands_guard ⟨i, []⟩, .start (Nat.le_max_left _ _)⟩ qs

/-- **An outage is not made worse**: whatever requests come and whatever the database does, a call
that follows `db_circuit_failure_threshold` failures in a row reaches it only when
`db_circuit_reset_timeout` has passed since the last one; so while it is down, it is called no more
often than the threshold, and once for every timeout. -/
theorem outage_bounded (app : App) (i : σ) (qs : List (Request × Chance)) :
    let log := (Exchange.final app.serve
      (app.guard ⟨i, []⟩ : CircuitBreakerStore β (Tapped σ)) qs).inner.log
    Spaced app.tripsAt app.settings.dbCircuitResetTimeout log ∧
      ∀ newer older, log = newer ++ older → (∀ a ∈ newer, a.failed = true) →
        ∀ start stop, start ≤ stop → (∀ a ∈ newer, start ≤ a.time ∧ a.time ≤ stop) →
          ((newer.length - app.tripsAt : ℕ) : ℤ) * app.settings.dbCircuitResetTimeout ≤
            stop - start := by
  intro log
  obtain ⟨st, -, hspaced, -⟩ := explained_final (β := β) app i qs
  refine ⟨hspaced, fun newer older hlog hfail start stop hle hin => ?_⟩
  cases newer with
  | nil =>
    rw [List.length_nil, Nat.zero_sub, Nat.cast_zero, zero_mul]
    exact sub_nonneg.mpr hle
  | cons a newer =>
    have hall : Spaced app.tripsAt app.settings.dbCircuitResetTimeout (a :: newer ++ older) := by
      rw [← hlog]
      exact hspaced
    exact (hall.mul_le hfail (fun b hb => (hin b hb).1) (Nat.le_max_left _ _) a rfl).trans
      (sub_le_sub_right (hin a List.mem_cons_self).2 start)

/-! ## Recovery -/

/-- How the breaker of a guarded store stands, whatever requests it has met. -/
theorem stands_final (app : App) (i : σ) (qs : List (Request × Chance)) : ∃ st,
    Stands app.settings.dbCircuitFailureThreshold app.settings.dbCircuitResetTimeout st
      (Exchange.final app.serve (app.guard i : CircuitBreakerStore β σ) qs).breaker := by
  refine Exchange.final_invariant (I := fun s : CircuitBreakerStore β σ => ∃ st, Stands _ _ st
    s.breaker) (fun s q hs => ?_) ⟨_, stands_guard i⟩ qs
  obtain ⟨st, hb⟩ := hs
  obtain ⟨a, st', h⟩ := met_serve app hb s.inner q
  generalize (app.storeCall q.1).map (StoreCall.raises q.2.clock s.inner) = called at h
  cases h with
  | uncalled hy h => exact ⟨st, h ▸ hb⟩
  | shed hno hx h => exact ⟨st, h ▸ hb⟩
  | reached hyes hstep hb' hx h => exact ⟨st', h ▸ hb'⟩

/-- A breaker that lets all of these requests through lets them through to the end. -/
theorem recovers {m : ℤ} {T : Duration} {st : State} {s : CircuitBreakerStore β σ}
    {rest : List (Request × Chance)} (hb : Stands m T st s.breaker)
    (hcool : ∀ q ∈ rest, st.Admits T q.2.clock.now) (hup : app.Healthy s.inner rest) :
    Exchange.replies app.serve s rest = Exchange.replies app.serve s.inner rest ∧
      (Exchange.final app.serve s rest).inner = Exchange.final app.serve s.inner rest := by
  induction rest generalizing st s with
  | nil => exact ⟨rfl, rfl⟩
  | cons q rest ih =>
    obtain ⟨hnow, hcool⟩ := List.forall_mem_cons.mp hcool
    obtain ⟨hq, hup⟩ := hup
    obtain ⟨a, st', h⟩ := met_serve app hb s.inner q
    generalize hcalled : (app.storeCall q.1).map (StoreCall.raises q.2.clock s.inner) = called at h
    -- once it is known that the request is answered as by the store itself, the rest is
    have hrest : ∀ {b'}, (∃ st', Stands m T st' b' ∧ ∀ q ∈ rest, st'.Admits T q.2.clock.now) →
        (app.serve s q).1 = (app.serve s.inner q).1 →
        (app.serve s q).2 = ⟨(app.serve s.inner q).2, b'⟩ →
        Exchange.replies app.serve s (q :: rest) =
            Exchange.replies app.serve s.inner (q :: rest) ∧
          (Exchange.final app.serve s (q :: rest)).inner =
            Exchange.final app.serve s.inner (q :: rest) := by
      rintro b' ⟨st', hb', hcool⟩ hanswer hleft
      obtain ⟨hreplies, hfinal⟩ := ih (s := ⟨(app.serve s.inner q).2, b'⟩) hb' hcool hup
      rw [Exchange.replies, Exchange.replies, Exchange.final, Exchange.final, hanswer, hleft,
        hreplies, hfinal]
      exact ⟨rfl, rfl⟩
    cases h with
    | uncalled hy h =>
      exact hrest ⟨st, hb, hcool⟩ (congrArg Prod.fst h) (congrArg Prod.snd h)
    | shed hno hx h => exact absurd hnow hno
    | reached hyes hstep hb' hx h =>
      obtain ⟨c, hc, rfl⟩ := Option.map_eq_some_iff.mp hcalled
      rw [hq c hc] at hstep hx
      obtain rfl := hstep.closed
      exact hrest ⟨_, hb', fun _ _ => trivial⟩ (hx.resolve_right fun h => Bool.false_ne_true h.1) h

/-- **Fail fast, and recover**: after whatever requests, the next one is answered as by the database
itself or `503`; while the circuit is open and `db_circuit_reset_timeout` has not passed, a request
that would call the database is answered `503` without a call; and from then on, if the database is
healthy again, all requests are answered as if there were no breaker. -/
theorem circuit_recovers (app : App) (i : σ) (qs : List (Request × Chance)) :
    let s := Exchange.final app.serve (app.guard i : CircuitBreakerStore β σ) qs
    let since := Reopening.openedAt s.breaker
    (∀ q, (app.serve s q).1 = (app.serve s.inner q).1 ∨ (app.serve s q).1.statusCode = 503) ∧
    (s.state = .opened → ∀ q, q.2.clock.now < since + app.settings.dbCircuitResetTimeout →
      (app.storeCall q.1).isSome →
        (app.serve s q).1.statusCode = 503 ∧ (app.serve s q).2 = s) ∧
    ∀ rest, (s.state = .opened →
        ∀ q ∈ rest, since + app.settings.dbCircuitResetTimeout ≤ q.2.clock.now) →
      app.Healthy s.inner rest →
        Exchange.replies app.serve s rest = Exchange.replies app.serve s.inner rest ∧
          (Exchange.final app.serve s rest).inner = Exchange.final app.serve s.inner rest := by
  intro s since
  obtain ⟨st, hb⟩ := stands_final (β := β) app i qs
  refine ⟨fun q => answered_or_unavailable app q hb, fun hopen q hnow hcall => ?_,
    fun rest hcool hup => recovers hb (fun q hq => ?_) hup⟩
  · refine unavailable_of_not_admits app q hb (fun hyes => ?_) hcall
    rw [hb.eq_opened hopen] at hyes
    exact absurd hyes (not_le.mpr hnow)
  · by_cases hopen : s.state = .opened
    · rw [hb.eq_opened hopen]
      exact hcool hopen q hq
    · exact hb.admits hopen q.2.clock.now

end Runs

/-! ## An outage -/

namespace Sample

namespace Breaker

instance : Reopening Breaker where
  resetTimeout := Breaker.resetTimeout
  openedAt := Breaker.openedAt

variable {α σ : Type} {now : Time} {limit : ℤ} {func : σ → Except Raised α × σ} {b : Breaker}
  {s s' : σ}

theorem attempt_resetTimeout :
    (b.attempt now limit func s).2.1.resetTimeout = b.resetTimeout := by
  rw [attempt]
  rcases func s with ⟨e | a, s'⟩
  · dsimp only
    split
    · rfl
    · split
      · rfl
      · rfl
  · rfl

theorem attempt_ok {a : α} (h : func s = (.ok a, s')) : b.attempt now limit func s =
    (.ok a, { b with state := .closed, failCounter := 0 }, s') := by
  rw [attempt, h]

/-- A failure that opens the breaker. -/
theorem attempt_error {e : Raised} (h : func s = (.error e, s')) (he : b.excluded e = false)
    (hlimit : limit ≤ b.failCounter + 1) : b.attempt now limit func s =
      (.error .circuitOpen,
        { b with state := .opened, failCounter := b.failCounter + 1, openedAt := now }, s') := by
  rw [attempt, h]
  simp only [he, Bool.false_eq_true, if_false, if_pos hlimit]

instance : LawfulReopening Breaker where
  circuitBreaker_resetTimeout _ _ _ := rfl
  call_resetTimeout {α σ} now func b s := by
    change (b.call now func s).2.1.resetTimeout = b.resetTimeout
    rw [call]
    cases hst : b.state with
    | closed => exact attempt_resetTimeout
    | opened =>
      dsimp only
      split
      · rfl
      · exact attempt_resetTimeout
    | halfOpen => exact attempt_resetTimeout
  call_tripped {α σ m exclude n b func s s' e} now hb hf he hle := by
    obtain ⟨hst, rfl, rfl, rfl⟩ := hb
    have hclosed : b.state = .closed := hst
    have hcall : b.call now func s = b.attempt now b.failMax func s := by rw [call, hclosed]
    exact ⟨_, now, hcall.trans (attempt_error hf he hle), le_refl now, rfl, rfl, rfl, rfl⟩
  call_shed {α σ m exclude t b} func s now hb hnow := by
    obtain ⟨hst, rfl, rfl, rfl⟩ := hb
    have hopen : b.state = .opened := hst
    change b.call now func s = _
    rw [call, hopen]
    exact if_pos hnow
  call_trial_ok {α σ m exclude t b func s s' a} now hb hnow hf := by
    obtain ⟨hst, rfl, rfl, rfl⟩ := hb
    have hopen : b.state = .opened := hst
    have hcall : b.call now func s = b.attempt now 0 func s := by
      rw [call, hopen]
      exact if_neg (not_lt.mpr hnow)
    exact ⟨_, hcall.trans (attempt_ok hf), rfl, rfl, rfl, rfl⟩
  call_trial_error {α σ m exclude t b func s s' e} now hb hnow hf he := by
    obtain ⟨hst, rfl, rfl, rfl⟩ := hb
    have hopen : b.state = .opened := hst
    have hcall : b.call now func s = b.attempt now 0 func s := by
      rw [call, hopen]
      exact if_neg (not_lt.mpr hnow)
    exact ⟨_, now, hcall.trans (attempt_error hf he (by omega)), le_refl now, rfl, rfl, rfl, rfl⟩

end Breaker

/-- A database that is down until a time, and has no job. -/
structure Restarted where
  upFrom : Time

/-- While it is down, it does not take connections. -/
def Restarted.connected {α : Type} (clock : Clock) (a : α) (s : Restarted) :
    Except Raised α × Restarted :=
  if clock.now < s.upFrom then (.error .other, s) else (.ok a, s)

instance : Datastore Restarted where
  enqueue _ _ _ clock := Restarted.connected clock none
  getJob _ clock := Restarted.connected clock none

/-- `GET /readyz` in that second. -/
def readyzAt (second : ℤ) : Request × Chance :=
  ({ route := .readyz, path := "/readyz", headers := [], body := .read .absent },
    ⟨"f00d", ⟨second * 1000000, 0, 0⟩⟩)

end Sample

/-- A minute in which the database is down: of these probes seven reach it, five before the circuit
opens and one at the end of either timeout. -/
theorem outage_bounded_minute :
    let qs := [0, 1, 2, 3, 4, 5, 33, 34, 35, 63, 64].map Sample.readyzAt
    let log := (Exchange.final Sample.app.serve (Sample.app.guard ⟨⟨1000000000⟩, []⟩ :
      CircuitBreakerStore Sample.Breaker (Tapped Sample.Restarted)) qs).inner.log
    log.map (fun a => a.time / 1000000) = [64, 34, 4, 3, 2, 1, 0] ∧
      Spaced 5 (30 * 1000000) log := by
  intro qs log
  exact ⟨by decide +kernel, (outage_bounded Sample.app (⟨1000000000⟩ : Sample.Restarted) qs).1⟩

/-- Ten seconds of it: the circuit is open for longer. -/
theorem circuit_recovers_restarted :
    let s := Exchange.final Sample.app.serve (Sample.app.guard ⟨10 * 1000000⟩ :
      CircuitBreakerStore Sample.Breaker Sample.Restarted)
        ([0, 1, 2, 3, 4, 5, 9].map Sample.readyzAt)
    s.state = .opened ∧ (Sample.app.serve s (Sample.readyzAt 33)).1.statusCode = 503 ∧
      Exchange.replies Sample.app.serve s [Sample.readyzAt 34, Sample.readyzAt 35] =
        Exchange.replies Sample.app.serve s.inner [Sample.readyzAt 34, Sample.readyzAt 35] := by
  intro s
  have hopen : s.state = .opened := by decide +kernel
  have hsince : Reopening.openedAt s.breaker = 4 * 1000000 := by decide +kernel
  have hinner : s.inner = ⟨10 * 1000000⟩ :=
    congrArg Sample.Restarted.mk (show s.inner.upFrom = _ by decide +kernel)
  obtain ⟨-, hshed, hrest⟩ := circuit_recovers (β := Sample.Breaker) Sample.app
    (⟨10 * 1000000⟩ : Sample.Restarted) ([0, 1, 2, 3, 4, 5, 9].map Sample.readyzAt)
  refine ⟨hopen, (hshed hopen (Sample.readyzAt 33) ?_ rfl).1, (hrest _ (fun _ => ?_) ?_).1⟩
  · change _ < Reopening.openedAt s.breaker + _
    rw [hsince]
    decide
  · change ∀ q ∈ _, Reopening.openedAt s.breaker + _ ≤ _
    rw [hsince]
    decide
  · change App.Healthy _ s.inner _
    rw [hinner]
    refine ⟨fun c hc => ?_, fun c hc => ?_, trivial⟩
    · obtain rfl : StoreCall.getJob 0 = c := Option.some.inj hc
      rfl
    · obtain rfl : StoreCall.getJob 0 = c := Option.some.inj hc
      rfl

end HandlerAPIv2

end JobWorkflow
