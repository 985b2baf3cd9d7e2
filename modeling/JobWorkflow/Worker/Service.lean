import JobWorkflow.Common.History

/-!
# Worker/Service — `process` run on its own

`worker/service.py` over any store: claim the run, resolve its payload, look the handler up, call it
and record the outcome.  Run without interleaving on an `InMemoryStore`, every exit leaves the job
ended and the rest of the store untouched, so a message delivered again is skipped
(`process_end_to_end`).
-/

namespace JobWorkflow

/-- What `process` returns. -/
inductive Outcome
  | skipped | completed | noConfig | failed
deriving DecidableEq

/-- What calling a handler comes to. -/
inductive HandlerResult
  | returned | raised
deriving DecidableEq

abbrev Handler := Document → HandlerResult

/-- `get_handler`: the handler registered for a job type. -/
abbrev Lookup := String → Option Handler

/-- What a run of `process` comes to: the outcome it returns, or the exception of `resolve_payload`;
the documents it has called a handler with; and the store it leaves. -/
structure Processed (σ : Type) where
  result : Except TypeError Outcome
  handled : List Document
  store : σ

/-- Claim, run, and record one job message; the clock is read at the claim, at the snapshot and at
the end. -/
def process {σ : Type} [Store σ] (store : σ) (lookup : Lookup) (envelope : Envelope)
    (claimedAt resolvedAt endedAt : Time) : Processed σ :=
  match Store.claim envelope.jobId claimedAt store with
  | (false, store) => ⟨.ok .skipped, [], store⟩
  | (true, store) =>
    match Store.resolvePayload envelope.jobId envelope.jobType resolvedAt store with
    | (.error e, store) => ⟨.error e, [], store⟩
    | (.ok none, store) => ⟨.ok .noConfig, [], (Store.fail envelope.jobId endedAt store).2⟩
    | (.ok (some payload), store) =>
      match lookup envelope.jobType with
      | none => ⟨.ok .failed, [], (Store.fail envelope.jobId endedAt store).2⟩
      | some handler =>
        match handler payload with
        | .raised => ⟨.ok .failed, [payload], (Store.fail envelope.jobId endedAt store).2⟩
        | .returned =>
          ⟨.ok .completed, [payload], (Store.complete envelope.jobId endedAt store).2⟩

namespace InMemoryStore

variable {s : InMemoryStore} {i : JobId} {j : Job} {now : Time}

theorem claim_of_waiting (hj : s.getJob i = some j) (hw : j.Waiting) :
    s.claim i now = (true, s.putJob i { j with status := .running, updatedAt := now }) :=
  guardedUpdate_pass hj (decide_eq_true hw)

theorem claim_of_not_waiting (h : ∀ j, s.getJob i = some j → ¬ j.Waiting) :
    s.claim i now = (false, s) :=
  guardedUpdate_refuse fun j hj => decide_eq_false (h j hj)

theorem terminate_of_running {st : JobStatus} (hj : s.getJob i = some j)
    (hrun : j.status = .running) :
    s.terminate i st now = (true, s.putJob i { j with status := st, updatedAt := now }) :=
  guardedUpdate_pass hj (decide_eq_true hrun)

end InMemoryStore

/-! ## The exits of `process` -/

section Exits

variable {s : InMemoryStore} {lookup : Lookup} {envelope : Envelope} {j : Job} {t₁ t₂ t₃ : Time}

open InMemoryStore

theorem process_of_not_waiting (h : ∀ j, s.getJob envelope.jobId = some j → ¬ j.Waiting) :
    process s lookup envelope t₁ t₂ t₃ = ⟨.ok .skipped, [], s⟩ := by
  have hclaim : Store.claim envelope.jobId t₁ s = (false, s) := claim_of_not_waiting h
  rw [process, hclaim]

/-- A waiting job whose type has no config row is failed. -/
theorem process_of_no_config (hj : s.getJob envelope.jobId = some j) (hw : j.Waiting)
    (hcfg : s.typeConfig.get? j.jobType = none) :
    process s lookup envelope t₁ t₂ t₃ = ⟨.ok .noConfig, [],
      s.putJob envelope.jobId { j with status := .failed, updatedAt := t₃ }⟩ := by
  have hclaim : Store.claim envelope.jobId t₁ s = (true, _) := claim_of_waiting hj hw
  have hresolve : Store.resolvePayload envelope.jobId envelope.jobType t₂
      (s.putJob envelope.jobId { j with status := .running, updatedAt := t₁ }) = (.ok none, _) :=
    resolvePayload_of_none (by simp [hcfg])
  have hfail : Store.fail envelope.jobId t₃ (s.putJob envelope.jobId
      { j with status := .running, updatedAt := t₁ }) = (true, _) :=
    terminate_of_running getJob_putJob_self rfl
  simp only [process, hclaim, hresolve, hfail, putJob_putJob]

variable {cfg : TypeConfig} {input : Payload}

/-- A waiting job of a configured type gets the overlay as its payload. -/
theorem process_of_config (hj : s.getJob envelope.jobId = some j) (hw : j.Waiting)
    (hcfg : s.typeConfig.get? j.jobType = some cfg) (hinput : j.inputPayload = .object input) :
    process s lookup envelope t₁ t₂ t₃ =
      match lookup envelope.jobType with
      | none => ⟨.ok .failed, [], s.putJob envelope.jobId
          { j with status := .failed, payload := .object (input ∪ cfg.payload), updatedAt := t₃ }⟩
      | some handler =>
        match handler (.object (input ∪ cfg.payload)) with
        | .raised => ⟨.ok .failed, [.object (input ∪ cfg.payload)], s.putJob envelope.jobId
            { j with status := .failed, payload := .object (input ∪ cfg.payload), updatedAt := t₃ }⟩
        | .returned => ⟨.ok .completed, [.object (input ∪ cfg.payload)],
            s.putJob envelope.jobId { j with
              status := .completed
              payload := .object (input ∪ cfg.payload)
              updatedAt := t₃ }⟩ := by
  have hclaim : Store.claim envelope.jobId t₁ s = (true, _) := claim_of_waiting hj hw
  have hresolve : Store.resolvePayload envelope.jobId envelope.jobType t₂
      (s.putJob envelope.jobId { j with status := .running, updatedAt := t₁ }) =
      (.ok (some (.object (input ∪ cfg.payload))), putJob envelope.jobId _ (s.putJob _ _)) :=
    resolvePayload_of_config getJob_putJob_self rfl hcfg hinput
  have hfail : Store.fail envelope.jobId t₃ (s.putJob envelope.jobId { j with
      status := .running, payload := .object (input ∪ cfg.payload), updatedAt := t₂ }) =
      (true, _) := terminate_of_running getJob_putJob_self rfl
  have hcomplete : Store.complete envelope.jobId t₃ (s.putJob envelope.jobId { j with
      status := .running, payload := .object (input ∪ cfg.payload), updatedAt := t₂ }) =
      (true, _) := terminate_of_running getJob_putJob_self rfl
  simp only [process, hclaim, hresolve, putJob_putJob, hfail, hcomplete]

/-- An input that is no dict leaves `process` with the exception of `resolve_payload`. -/
theorem process_of_type_error (hj : s.getJob envelope.jobId = some j) (hw : j.Waiting)
    (hcfg : s.typeConfig.get? j.jobType = some cfg)
    (hinput : overlay cfg.payload j.inputPayload = .error .notAMapping) :
    process s lookup envelope t₁ t₂ t₃ = ⟨.error .notAMapping, [],
      s.putJob envelope.jobId { j with status := .running, updatedAt := t₁ }⟩ := by
  have hclaim : Store.claim envelope.jobId t₁ s = (true, _) := claim_of_waiting hj hw
  have hresolve : Store.resolvePayload envelope.jobId envelope.jobType t₂
      (s.putJob envelope.jobId { j with status := .running, updatedAt := t₁ }) =
      (.error .notAMapping, s.putJob envelope.jobId _) :=
    resolvePayload_of_error getJob_putJob_self rfl hcfg hinput
  simp only [process, hclaim, hresolve]

/-- However it ends, `process` rewrites the job it has claimed, and nothing else. -/
theorem process_puts (lookup : Lookup) (hj : s.getJob envelope.jobId = some j) (hw : j.Waiting) :
    ∃ result handled j', process s lookup envelope t₁ t₂ t₃ =
      ⟨result, handled, s.putJob envelope.jobId j'⟩ ∧
        j'.status ∈ [JobStatus.running, .completed, .failed] := by
  cases hcfg : s.typeConfig.get? j.jobType with
  | none => exact ⟨_, _, _, process_of_no_config hj hw hcfg, by simp⟩
  | some cfg =>
    cases hinput : j.inputPayload with
    | object input =>
      rw [process_of_config hj hw hcfg hinput]
      split
      · exact ⟨_, _, _, rfl, by simp⟩
      · split
        · exact ⟨_, _, _, rfl, by simp⟩
        · exact ⟨_, _, _, rfl, by simp⟩
    | scalar v => exact ⟨_, _, _, process_of_type_error hj hw hcfg (by rw [hinput]; rfl), by simp⟩
    | array xs => exact ⟨_, _, _, process_of_type_error hj hw hcfg (by rw [hinput]; rfl), by simp⟩

/-- So it does not leave its job waiting. -/
theorem not_waiting_of_process :
    ∀ j', (process s lookup envelope t₁ t₂ t₃).store.getJob envelope.jobId = some j' →
      ¬ j'.Waiting := by
  intro j' hj'
  by_cases h : ∀ j, s.getJob envelope.jobId = some j → ¬ j.Waiting
  · rw [process_of_not_waiting h] at hj'
    exact h j' hj'
  · push Not at h
    obtain ⟨j, hj, hw⟩ := h
    obtain ⟨result, handled, j₁, he, hst⟩ := process_puts lookup hj hw
    rw [he, getJob_putJob_self] at hj'
    obtain rfl := Option.some.inj hj'
    have hno : ∀ st ∈ [JobStatus.running, .completed, .failed],
        st ∉ [JobStatus.queued, .dispatched] := by decide
    exact hno _ hst

end Exits

/-! ## `process` end to end -/

/-- The overlay of an input on a base: the keys of both, the input's values where it has any. -/
structure Overlays (base input payload : Payload) : Prop where
  keys_eq : payload.keys = input.keys ∪ base.keys
  of_mem : ∀ k ∈ input, payload.lookup k = input.lookup k
  of_notMem : ∀ k ∉ input, payload.lookup k = base.lookup k

theorem overlays_union (base input : Payload) : Overlays base input (input ∪ base) where
  keys_eq := Finmap.keys_union
  of_mem _ h := Finmap.lookup_union_left h
  of_notMem _ h := Finmap.lookup_union_right h

/-- **What `process` makes of a waiting job** `j` whose input is `input`. -/
structure Ran (s : InMemoryStore) (lookup : Lookup) (envelope : Envelope) (j : Job)
    (input : Payload) (r : Processed InMemoryStore) : Prop where
  resolved : ∀ cfg, s.typeConfig.get? j.jobType = some cfg →
    ∃ payload, Overlays cfg.payload input payload ∧
      (r.store.getJob envelope.jobId).map Job.payload = some (.object payload) ∧
      r.handled = if (lookup envelope.jobType).isSome then [.object payload] else []
  unresolved : s.typeConfig.get? j.jobType = none →
    (r.store.getJob envelope.jobId).map Job.payload = some j.payload ∧ r.handled = []
  completed_iff : (r.store.getJob envelope.jobId).map Job.status = some .completed ↔
    ∃ cfg payload handler, s.typeConfig.get? j.jobType = some cfg ∧
      Overlays cfg.payload input payload ∧ lookup envelope.jobType = some handler ∧
      handler (.object payload) = .returned
  ended : (r.store.getJob envelope.jobId).map Job.status = some .completed ∨
    (r.store.getJob envelope.jobId).map Job.status = some .failed
  reports_completed : r.result = .ok .completed ↔
    (r.store.getJob envelope.jobId).map Job.status = some .completed
  reports_noConfig : r.result = .ok .noConfig ↔ s.typeConfig.get? j.jobType = none
  reports : r.result = .ok .completed ∨ r.result = .ok .noConfig ∨ r.result = .ok .failed
  others : ∀ k, k ≠ envelope.jobId → r.store.getJob k = s.getJob k
  outbox : r.store.outbox = s.outbox
  published : r.store.published = s.published
  typeConfig : r.store.typeConfig = s.typeConfig
  counters : r.store.nextJobId = s.nextJobId ∧ r.store.nextOutboxId = s.nextOutboxId

theorem Overlays.eq_union {base input payload : Payload} (h : Overlays base input payload) :
    payload = input ∪ base := by
  refine Finmap.ext_lookup fun k => ?_
  by_cases hk : k ∈ input
  · rw [h.of_mem k hk, Finmap.lookup_union_left hk]
  · rw [h.of_notMem k hk, Finmap.lookup_union_right hk]

section EndToEnd

open InMemoryStore

variable {s : InMemoryStore} {lookup : Lookup} {envelope : Envelope} {j : Job} {input : Payload}
  {t₁ t₂ t₃ : Time}

/-- A run that rewrites the job and nothing else. -/
theorem ran_of_putJob {result : Except TypeError Outcome} {handled : List Document} {j' : Job}
    (hresolved : ∀ cfg, s.typeConfig.get? j.jobType = some cfg →
      j'.payload = .object (input ∪ cfg.payload) ∧ handled =
        if (lookup envelope.jobType).isSome then [.object (input ∪ cfg.payload)] else [])
    (hunresolved : s.typeConfig.get? j.jobType = none → j'.payload = j.payload ∧ handled = [])
    (hcompleted : j'.status = .completed ↔ ∃ cfg payload handler,
      s.typeConfig.get? j.jobType = some cfg ∧ Overlays cfg.payload input payload ∧
        lookup envelope.jobType = some handler ∧ handler (.object payload) = .returned)
    (hended : j'.status = .completed ∨ j'.status = .failed)
    (hresult : result = .ok .completed ↔ j'.status = .completed)
    (hnoConfig : result = .ok .noConfig ↔ s.typeConfig.get? j.jobType = none)
    (hreports : result = .ok .completed ∨ result = .ok .noConfig ∨ result = .ok .failed) :
    Ran s lookup envelope j input ⟨result, handled, s.putJob envelope.jobId j'⟩ where
  resolved cfg hcfg := by
    obtain ⟨hp, hhandled⟩ := hresolved cfg hcfg
    refine ⟨_, overlays_union cfg.payload input, ?_, hhandled⟩
    rw [getJob_putJob_self, Option.map_some, hp]
  unresolved hcfg := by
    obtain ⟨hp, hhandled⟩ := hunresolved hcfg
    refine ⟨?_, hhandled⟩
    rw [getJob_putJob_self, Option.map_some, hp]
  completed_iff := by simpa using hcompleted
  ended := by simpa using hended
  reports_completed := by simpa using hresult
  reports_noConfig := hnoConfig
  reports := hreports
  others _ hk := getJob_putJob_of_ne hk
  outbox := rfl
  published := rfl
  typeConfig := rfl
  counters := ⟨rfl, rfl⟩

section Handled

variable {cfg : TypeConfig} {handler : Handler}

/-- There is one overlay and one handler, so all depends on what the one makes of the other. -/
theorem returned_iff (hcfg : s.typeConfig.get? j.jobType = some cfg)
    (hlookup : lookup envelope.jobType = some handler) :
    (∃ cfg' payload handler', s.typeConfig.get? j.jobType = some cfg' ∧
      Overlays cfg'.payload input payload ∧ lookup envelope.jobType = some handler' ∧
        handler' (.object payload) = .returned) ↔
      handler (.object (input ∪ cfg.payload)) = .returned := by
  constructor
  · rintro ⟨cfg', payload, handler', hcfg', hp, hl, hr⟩
    obtain rfl := Option.some.inj (hcfg.symm.trans hcfg')
    obtain rfl := Option.some.inj (hlookup.symm.trans hl)
    rwa [hp.eq_union] at hr
  · exact fun hr => ⟨cfg, _, handler, hcfg, overlays_union cfg.payload input, hlookup, hr⟩

end Handled

theorem ran_of_process (hj : s.getJob envelope.jobId = some j) (hw : j.Waiting)
    (hinput : j.inputPayload = .object input) :
    Ran s lookup envelope j input (process s lookup envelope t₁ t₂ t₃) := by
  cases hcfg : s.typeConfig.get? j.jobType with
  | none =>
    rw [process_of_no_config hj hw hcfg]
    exact ran_of_putJob (by simp [hcfg]) (by simp) (by simp [hcfg]) (by simp) (by simp)
      (by simp [hcfg]) (by simp)
  | some cfg =>
    rw [process_of_config hj hw hcfg hinput]
    cases hlookup : lookup envelope.jobType with
    | none =>
      exact ran_of_putJob (by simp [hcfg, hlookup]) (by simp [hcfg]) (by simp [hlookup]) (by simp)
        (by simp) (by simp [hcfg]) (by simp)
    | some handler =>
      dsimp only
      cases hresult : handler (.object (input ∪ cfg.payload)) with
      | raised =>
        refine ran_of_putJob (by simp [hcfg, hlookup]) (by simp [hcfg]) ?_ (by simp) (by simp)
          (by simp [hcfg]) (by simp)
        rw [returned_iff hcfg hlookup, hresult]
        simp
      | returned =>
        refine ran_of_putJob (by simp [hcfg, hlookup]) (by simp [hcfg]) ?_ (by simp) (by simp)
          (by simp [hcfg]) (by simp)
        rw [returned_iff hcfg hlookup, hresult]
        simp

end EndToEnd

/-- **`process` end to end.**  A message of a job that is not there or not waiting is skipped and
changes nothing; a waiting job is run as `Ran` says; and whatever it did, `process` skips the same
message the next time. -/
theorem process_end_to_end (s : InMemoryStore) (lookup : Lookup) (envelope : Envelope)
    (t₁ t₂ t₃ : Time) :
    ((∀ j, s.getJob envelope.jobId = some j → ¬ j.Waiting) →
      process s lookup envelope t₁ t₂ t₃ = ⟨.ok .skipped, [], s⟩) ∧
    (∀ j input, s.getJob envelope.jobId = some j → j.Waiting → j.inputPayload = .object input →
      Ran s lookup envelope j input (process s lookup envelope t₁ t₂ t₃)) ∧
    ∀ lookup' t₁' t₂' t₃',
      process (process s lookup envelope t₁ t₂ t₃).store lookup' envelope t₁' t₂' t₃' =
        ⟨.ok .skipped, [], (process s lookup envelope t₁ t₂ t₃).store⟩ :=
  ⟨process_of_not_waiting, fun _ _ => ran_of_process,
    fun _ _ _ _ => process_of_not_waiting not_waiting_of_process⟩

/-- The input says who is greeted, and the config how: the handler gets the input's name. -/
theorem process_end_to_end_hello :
    let base : Payload := (Finmap.singleton "name" (.scalar (.str "Ada"))).insert "greeting"
      (.scalar (.str "hi"))
    let input : Payload := Finmap.singleton "name" (.scalar (.str "Bob"))
    let s := ((InMemoryStore.empty.setTypeConfig "hello" defaultRunTimeout defaultMaxAttempts
      (some base)).enqueue "hello" (some (.object input)) none 0 0).2
    let r := process s (fun _ => some fun _ => .returned) ⟨1, "hello"⟩ 1 2 3
    (r.store.getJob 1).map Job.status = some .completed ∧ ∃ payload : Payload,
      r.handled = [.object payload] ∧
      (r.store.getJob 1).map Job.payload = some (.object payload) ∧
      payload.lookup "name" = some (.scalar (.str "Bob")) ∧
      payload.lookup "greeting" = some (.scalar (.str "hi")) := by
  intro base input s r
  obtain ⟨j, hj, hw, hinput, hcfg⟩ : ∃ j, s.getJob 1 = some j ∧ j.Waiting ∧
      j.inputPayload = .object input ∧ s.typeConfig.get? j.jobType = some
        ⟨defaultRunTimeout, defaultMaxAttempts, base⟩ :=
    ⟨_, rfl, by decide, orEmpty_object input, rfl⟩
  have hran := (process_end_to_end s (fun _ => some fun _ => .returned) ⟨1, "hello"⟩ 1 2 3).2.1
    j input hj hw hinput
  obtain ⟨payload, hover, hstored, hhandled⟩ := hran.resolved _ hcfg
  refine ⟨hran.completed_iff.mpr ⟨_, payload, _, hcfg, hover, rfl, rfl⟩, payload, hhandled,
    hstored, ?_, ?_⟩
  · rw [hover.of_mem "name" (by decide)]
    rfl
  · rw [hover.of_notMem "greeting" (by decide)]
    rfl

end JobWorkflow
