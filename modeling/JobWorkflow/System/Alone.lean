import JobWorkflow.System.Machine

/-!
# System/Alone — the machine when nobody interferes

The steps of one worker, taken one after another, are `process`; those of one reaper are
`reap_once`.  So what `process_end_to_end` and `reap_once_end_to_end` say of the functions is said
of the machine between two steps of which nobody else takes one.
-/

namespace JobWorkflow

namespace System

open Runs

variable {s : System} {w : ℕ} {c : Call} {r : Reply} {st : InMemoryStore}

/-! ## A worker alone -/

/-- A store call of worker `w`. -/
theorem worker_call {inv : Invocation} (hw : s.workers w = some inv) (now : Time)
    (hc : inv.call now = some c) (he : exec s.store c = (r, st)) :
    ∃ s', Reachable step s s' ∧ s'.store = st ∧ s'.workers w = inv.reply r := by
  refine ⟨(s.perform (.worker inv.id) c).setWorker w (inv.reply (s.reply c)),
    Reachable.refl.snoc (a := .work w now) ?_, congrArg Prod.snd he, ?_⟩
  · rw [step, hw, Option.bind_some, hc]
    rfl
  · refine (Function.update_self w _ _).trans ?_
    rw [reply, he]

/-- What a returned outcome, or the exception, leaves of the invocation. -/
def afterProcess (n offset : ℕ) (envelope : Envelope) :
    Except TypeError Outcome → Option Invocation
  | .ok outcome => some ⟨n, offset, envelope, .commit outcome⟩
  | .error _ => none

variable {n offset : ℕ} {envelope : Envelope}

/-- Once it has failed, `process` records it and returns. -/
theorem fail_alone {outcome : Outcome}
    (hw : s.workers w = some ⟨n, offset, envelope, .fail outcome⟩) (now : Time) :
    ∃ s', Reachable step s s' ∧ s'.store = (s.store.fail envelope.jobId now).2 ∧
      s'.workers w = afterProcess n offset envelope (.ok outcome) :=
  worker_call hw now rfl rfl

/-- Once its handler has returned, likewise. -/
theorem complete_alone (hw : s.workers w = some ⟨n, offset, envelope, .complete⟩) (now : Time) :
    ∃ s', Reachable step s s' ∧ s'.store = (s.store.complete envelope.jobId now).2 ∧
      s'.workers w = afterProcess n offset envelope (.ok .completed) :=
  worker_call hw now rfl rfl

theorem lookup_step {payload : Document}
    (hw : s.workers w = some ⟨n, offset, envelope, .lookup payload⟩) (found : Bool) :
    ∃ s', Reachable step s s' ∧ s'.store = s.store ∧ s'.workers w =
      some ⟨n, offset, envelope, if found then .handle payload else .fail .failed⟩ := by
  cases found with
  | false =>
    exact ⟨s.setWorker w (some ⟨n, offset, envelope, .fail .failed⟩),
      Reachable.refl.snoc (a := .lookup w false) (by rw [step, hw]; rfl), rfl,
      Function.update_self ..⟩
  | true =>
    exact ⟨{ s with handled := ⟨n, envelope.jobId, payload⟩ :: s.handled }.setWorker w
        (some ⟨n, offset, envelope, .handle payload⟩),
      Reachable.refl.snoc (a := .lookup w true) (by rw [step, hw]; rfl), rfl,
      Function.update_self ..⟩

theorem handled_step {payload : Document}
    (hw : s.workers w = some ⟨n, offset, envelope, .handle payload⟩) (raised : Bool) :
    ∃ s', Reachable step s s' ∧ s'.store = s.store ∧ s'.workers w =
      some ⟨n, offset, envelope, if raised then .fail .failed else .complete⟩ :=
  ⟨s.setWorker w (some ⟨n, offset, envelope, if raised then .fail .failed else .complete⟩),
    Reachable.refl.snoc (a := .handled w raised) (by rw [step, hw]), rfl, Function.update_self ..⟩

/-- `process` from the lookup on. -/
def lookupAndHandle (store : InMemoryStore) (lookup : Lookup) (envelope : Envelope)
    (payload : Document) (endedAt : Time) : Processed InMemoryStore :=
  match lookup envelope.jobType with
  | none => ⟨.ok .failed, [], (store.fail envelope.jobId endedAt).2⟩
  | some handler =>
    match handler payload with
    | .raised => ⟨.ok .failed, [payload], (store.fail envelope.jobId endedAt).2⟩
    | .returned => ⟨.ok .completed, [payload], (store.complete envelope.jobId endedAt).2⟩

theorem lookup_alone {payload : Document}
    (hw : s.workers w = some ⟨n, offset, envelope, .lookup payload⟩) (lookup : Lookup)
    (now : Time) : ∃ s', Reachable step s s' ∧
      s'.store = (lookupAndHandle s.store lookup envelope payload now).store ∧
      s'.workers w = afterProcess n offset envelope
        (lookupAndHandle s.store lookup envelope payload now).result := by
  rw [lookupAndHandle]
  cases lookup envelope.jobType with
  | none =>
    obtain ⟨s₁, h₁, hstore₁, hw₁⟩ := lookup_step hw false
    obtain ⟨s', h', hstore', hw'⟩ := fail_alone hw₁ now
    exact ⟨s', h₁.trans h', by rw [hstore', hstore₁], hw'⟩
  | some handler =>
    obtain ⟨s₁, h₁, hstore₁, hw₁⟩ := lookup_step hw true
    dsimp only
    cases handler payload with
    | raised =>
      obtain ⟨s₂, h₂, hstore₂, hw₂⟩ := handled_step hw₁ true
      obtain ⟨s', h', hstore', hw'⟩ := fail_alone hw₂ now
      exact ⟨s', (h₁.trans h₂).trans h', by rw [hstore', hstore₂, hstore₁], hw'⟩
    | returned =>
      obtain ⟨s₂, h₂, hstore₂, hw₂⟩ := handled_step hw₁ false
      obtain ⟨s', h', hstore', hw'⟩ := complete_alone hw₂ now
      exact ⟨s', (h₁.trans h₂).trans h', by rw [hstore', hstore₂, hstore₁], hw'⟩

/-- **A worker on its own runs `process`.** -/
theorem process_alone (hw : s.workers w = some ⟨n, offset, envelope, .claim⟩) (lookup : Lookup)
    (t₁ t₂ t₃ : Time) : ∃ s', Reachable step s s' ∧
      s'.store = (process s.store lookup envelope t₁ t₂ t₃).store ∧
      s'.workers w =
        afterProcess n offset envelope (process s.store lookup envelope t₁ t₂ t₃).result := by
  rcases hclaim : s.store.claim envelope.jobId t₁ with ⟨won, st₁⟩
  have hcall : exec s.store (.claim envelope.jobId t₁) = (.flag won, st₁) := by
    rw [exec, hclaim]
    rfl
  obtain ⟨s₁, h₁, rfl, hw₁⟩ := worker_call hw t₁ rfl hcall
  rw [process, show Store.claim envelope.jobId t₁ s.store = _ from hclaim]
  cases won with
  | false => exact ⟨s₁, h₁, rfl, hw₁⟩
  | true =>
    have hresolving : s₁.workers w = some ⟨n, offset, envelope, .resolve⟩ := hw₁
    rcases hresolve : s₁.store.resolvePayload envelope.jobId envelope.jobType t₂ with ⟨r, st₂⟩
    have hcall₂ : exec s₁.store (.resolvePayload envelope.jobId envelope.jobType t₂) =
        (.payload r, st₂) := by rw [exec, hresolve]; rfl
    obtain ⟨s₂, h₂, rfl, hw₂⟩ := worker_call hresolving t₂ rfl hcall₂
    dsimp only
    rw [show Store.resolvePayload envelope.jobId envelope.jobType t₂ s₁.store = _ from hresolve]
    rcases r with e | _ | payload
    · exact ⟨s₂, h₁.trans h₂, rfl, hw₂⟩
    · obtain ⟨s', h', hstore', hw'⟩ := fail_alone hw₂ t₃
      exact ⟨s', (h₁.trans h₂).trans h', hstore', hw'⟩
    · obtain ⟨s', h', hs'⟩ := lookup_alone hw₂ lookup t₃
      exact ⟨s', (h₁.trans h₂).trans h', hs'⟩

/-! ## A reaper alone -/

variable {k : ℕ}

/-- A store call of reaper `k`. -/
theorem reaper_call {sweep : Sweep} (hk : s.reapers k = some sweep) (now : Time)
    (hc : sweep.call now = some c) (he : exec s.store c = (r, st)) :
    ∃ s', Reachable step s s' ∧ s'.store = st ∧ s'.reapers k = some (sweep.reply r) := by
  refine ⟨(s.perform (.reaper sweep.id) c).setReaper k (some (sweep.reply (s.reply c))),
    Reachable.refl.snoc (a := .reap k now) ?_, congrArg Prod.snd he, ?_⟩
  · rw [step, hk, Option.bind_some, hc]
    rfl
  · refine (Function.update_self k _ _).trans ?_
    rw [reply, he]

/-- The loop of a sweep, run for run. -/
theorem reapBatch_alone {id : ℕ} (xs : List StuckJob) (clock : ℕ → Time) (stats : ReapStats)
    (s : System) (hk : s.reapers k = some ⟨id, xs, false, stats⟩) : ∃ s', Reachable step s s' ∧
      s'.store = (reapBatch xs clock stats s.store).2 ∧
      s'.reapers k = some ⟨id, [], false, (reapBatch xs clock stats s.store).1⟩ := by
  induction xs generalizing clock stats s with
  | nil => exact ⟨s, .refl, rfl, hk⟩
  | cons x xs ih =>
    -- what is left of the loop after the turn of `x`
    have rest : ∀ (s₁ : System) (stats₁ : ReapStats), Reachable step s s₁ →
        s₁.reapers k = some ⟨id, xs, false, stats₁⟩ → ∃ s', Reachable step s s' ∧
          s'.store = (reapBatch xs (fun n => clock (n + 1)) stats₁ s₁.store).2 ∧
          s'.reapers k =
            some ⟨id, [], false, (reapBatch xs (fun n => clock (n + 1)) stats₁ s₁.store).1⟩ := by
      intro s₁ stats₁ h₁ hk₁
      obtain ⟨s', h', hs'⟩ := ih (fun n => clock (n + 1)) stats₁ s₁ hk₁
      exact ⟨s', h₁.trans h', hs'⟩
    rcases hrequeue : s.store.requeueStuck x.jobId (clock 0) with ⟨requeued, st₁⟩
    have hcall : exec s.store (.requeueStuck x.jobId (clock 0)) = (.flag requeued, st₁) := by
      rw [exec, hrequeue]
      rfl
    obtain ⟨s₁, h₁, rfl, hk₁⟩ := reaper_call hk (clock 0) rfl hcall
    rw [reapBatch, show Store.requeueStuck x.jobId (clock 0) s.store = _ from hrequeue]
    cases requeued with
    | true => exact rest s₁ _ h₁ hk₁
    | false =>
      rcases hdead : s₁.store.deadLetter x.jobId (clock 0) with ⟨dead, st₂⟩
      have hcall₂ : exec s₁.store (.deadLetter x.jobId (clock 0)) = (.flag dead, st₂) := by
        rw [exec, hdead]
        rfl
      obtain ⟨s₂, h₂, rfl, hk₂⟩ := reaper_call hk₁ (clock 0) rfl hcall₂
      dsimp only
      rw [show Store.deadLetter x.jobId (clock 0) s₁.store = _ from hdead]
      cases dead with
      | true => exact rest s₂ _ (h₁.trans h₂) hk₂
      | false => exact rest s₂ _ (h₁.trans h₂) hk₂

/-- **A reaper on its own runs `reap_once`.** -/
theorem reapOnce_alone (hk : s.reapers k = none) (t : Time) (clock : ℕ → Time) :
    ∃ s', Reachable step s s' ∧ s'.store = (reapOnce t clock s.store).2 ∧
      s'.reapers k = some ⟨s.nextSweep, [], false, (reapOnce t clock s.store).1⟩ := by
  let s₁ := { s.perform (.reaper s.nextSweep) (.findStuck t) with
      nextSweep := s.nextSweep + 1 }.setReaper k
    (some ⟨s.nextSweep, s.store.findStuck t, false, ⟨0, 0⟩⟩)
  have h₁ : s.step (.find k t) = some s₁ := by rw [step, hk]
  obtain ⟨s', h', hstore, hk'⟩ := reapBatch_alone (s.store.findStuck t) clock ⟨0, 0⟩ s₁
    (Function.update_self ..)
  exact ⟨s', (Reachable.refl.snoc h₁).trans h', hstore, hk'⟩

end System

end JobWorkflow
