import JobWorkflow.Common.Ledger

/-!
# Common/Lifecycle — one active job per type, and the permanent run history

Two results about every sequence of calls on an `InMemoryStore`, with arbitrary arguments.

* `one_active_job_per_type` — the dedup rule is checked at `enqueue` alone, so it rests on no call
  ever making a terminal job active again (`Move.active_of_active`).
* `jobs_are_the_history` — the transition graph, the frame, and the immutability of finished runs,
  each read off `Move`.
-/

namespace JobWorkflow

open InMemoryStore

variable {ι : Type} {s s' : InMemoryStore} {c : Call} {r : Reply}

/-! ## Dedup -/

/-- No two jobs of one type are active. -/
def OneActivePerType (s : InMemoryStore) : Prop :=
  ∀ i₁ i₂ j₁ j₂, s.getJob i₁ = some j₁ → s.getJob i₂ = some j₂ → j₁.jobType = j₂.jobType →
    j₁.status ∈ JobStatus.active → j₂.status ∈ JobStatus.active → i₁ = i₂

/-- An active job was active before the call, or was just enqueued where none was active. -/
theorem Effect.active_job (h : Effect s c r s') (hs : WellKeyed s) {i : JobId} {j' : Job}
    (hj' : s'.getJob i = some j') (ha : j'.status ∈ JobStatus.active) :
    (∃ j, s.getJob i = some j ∧ j.jobType = j'.jobType ∧ j.status ∈ JobStatus.active) ∨
      (r = .jobId (some i) ∧ s.active j'.jobType = false) := by
  cases hj : s.getJob i with
  | none =>
    obtain ⟨t, p, cr, ca, ua, -, rfl, -, hact, rfl⟩ := h.new_job hj hj'
    exact Or.inr ⟨rfl, hact⟩
  | some j =>
    obtain ⟨k, hk, hm⟩ := h.job hs hj
    obtain rfl : j' = k := Option.some.inj (hj'.symm.trans hk)
    exact Or.inl ⟨j, rfl, hm.jobType_eq.symm, hm.active_of_active ha⟩

theorem oneActivePerType_of_effect (h : Effect s c r s') (hs : WellKeyed s)
    (ho : OneActivePerType s) : OneActivePerType s' := by
  intro i₁ i₂ j₁ j₂ h₁ h₂ ht ha₁ ha₂
  have noOther : ∀ {t i j}, s.active t = false → s.getJob i = some j → j.jobType = t →
      j.status ∈ JobStatus.active → False := fun hf hj hjt hja => by
    rw [active_iff.mpr ⟨_, _, hj, hjt, hja⟩] at hf
    exact Bool.false_ne_true hf.symm
  rcases h.active_job hs h₁ ha₁, h.active_job hs h₂ ha₂ with
    ⟨⟨k₁, hk₁, ht₁, hb₁⟩ | ⟨hr₁, hf₁⟩, ⟨k₂, hk₂, ht₂, hb₂⟩ | ⟨hr₂, hf₂⟩⟩
  · exact ho i₁ i₂ k₁ k₂ hk₁ hk₂ (ht₁.trans (ht.trans ht₂.symm)) hb₁ hb₂
  · exact (noOther hf₂ hk₁ (ht₁.trans ht) hb₁).elim
  · exact (noOther hf₁ hk₂ (ht₂.trans ht.symm) hb₂).elim
  · exact Option.some.inj (Reply.jobId.inj (hr₁.symm.trans hr₂))

/-- Every id the journal records as returned is below the counter. -/
def ReturnedIdsBelow (l : Ledger ι) : Prop :=
  ∀ e ∈ l.journal, ∀ i, e.reply = .jobId (some i) → i < l.store.nextJobId

/-- A returned id is the counter's value, and moves the counter past it. -/
theorem Effect.returned_id (h : Effect s c r s') {i : JobId} (hr : r = .jobId (some i)) :
    i = s.nextJobId ∧ i < s'.nextJobId := by
  cases h with
  | unchanged hf =>
    subst hr
    exact nomatch hf
  | enqueued ha =>
    obtain rfl := Option.some.inj (Reply.jobId.inj hr)
    exact ⟨rfl, Int.lt_succ _⟩
  | rewritten hk ht hm hne =>
    subst hr
    cases hm with
    | stay hn => exact absurd ht hn
  | published h => exact nomatch hr
  | dispatched hk hq => exact nomatch hr
  | requeued hk hq hcap => exact nomatch hr
  | configured => exact nomatch hr

theorem dedup_invariant {cfg : Dict String TypeConfig} {l : Ledger ι}
    (h : Runs.Reachable Ledger.step (Ledger.start cfg) l) :
    WellKeyed l.store ∧ OneActivePerType l.store ∧ ReturnedIdsBelow l := by
  refine Ledger.induction (I := fun l => OneActivePerType l.store ∧ ReturnedIdsBelow l)
    ⟨fun _ _ _ _ hj => (nomatch hj), fun _ he => (nomatch he)⟩ ?_ h
  intro l actor c hs hl
  have heff := exec_effect c l.store
  refine ⟨oneActivePerType_of_effect heff hs hl.1, fun e he i hi => ?_⟩
  rcases List.mem_cons.mp he with rfl | he
  · exact (heff.returned_id hi).2
  · exact (hl.2 e he i hi).trans_le heff.nextJobId_le

/-- **At most one job of each type is active**, `enqueue` refuses exactly when one is, changes
nothing when it refuses, and otherwise returns an id above every id returned before. -/
theorem one_active_job_per_type {l : Ledger ι}
    (h : Runs.Reachable Ledger.step (Ledger.start ∅) l) :
    (∀ i₁ i₂ j₁ j₂, l.store.getJob i₁ = some j₁ → l.store.getJob i₂ = some j₂ →
      j₁.jobType = j₂.jobType → j₁.status ∈ JobStatus.active → j₂.status ∈ JobStatus.active →
        i₁ = i₂) ∧
    ∀ t p cr ca ua,
      ((l.store.enqueue t p cr ca ua).1 = none ↔
        ∃ i j, l.store.getJob i = some j ∧ j.jobType = t ∧ j.status ∈ JobStatus.active) ∧
      ((l.store.enqueue t p cr ca ua).1 = none → (l.store.enqueue t p cr ca ua).2 = l.store) ∧
      ∀ i, (l.store.enqueue t p cr ca ua).1 = some i →
        ∀ e ∈ l.journal, ∀ i', e.reply = .jobId (some i') → i' < i := by
  obtain ⟨-, hone, hbelow⟩ := dedup_invariant h
  refine ⟨hone, fun t p cr ca ua => ?_⟩
  rw [← active_iff]
  cases ha : l.store.active t with
  | true =>
    have he : l.store.enqueue t p cr ca ua = (none, l.store) := if_pos ha
    rw [he]
    exact ⟨⟨fun _ => rfl, fun _ => rfl⟩, fun _ => rfl,
      fun i hi => absurd hi.symm (Option.some_ne_none i)⟩
  | false =>
    have he : (l.store.enqueue t p cr ca ua).1 = some l.store.nextJobId := by
      rw [enqueue, if_neg (by rw [ha]; exact Bool.false_ne_true)]
    rw [he]
    refine ⟨⟨fun hn => absurd hn (Option.some_ne_none _), fun hf => absurd hf Bool.false_ne_true⟩,
      fun hn => absurd hn (Option.some_ne_none _), fun i hi e hmem i' hi' => ?_⟩
    obtain rfl := Option.some.inj hi
    exact hbelow e hmem i' hi'

/-- Two enqueues with a finished run in between: the id grows and the dedup slot is free again. -/
theorem one_active_job_per_type_two_runs :
    let l : Ledger Unit :=
      ((((Ledger.start ∅).perform () (.enqueue "hello" none none 0 0)).perform ()
        (.claim 1 1)).perform () (.complete 1 2))
    (l.store.enqueue "hello" none none 3 3).1 = some 2 ∧
      ∀ e ∈ l.journal, ∀ i', e.reply = .jobId (some i') → i' < 2 := by
  intro l
  have h : Runs.Reachable Ledger.step (Ledger.start ∅) l :=
    ⟨[((), .enqueue "hello" none none 0 0), ((), .claim 1 1), ((), .complete 1 2)], rfl⟩
  exact ⟨rfl, ((one_active_job_per_type h).2 "hello" none none 3 3).2.2 2 rfl⟩

/-! ## The transition graph -/

/-- The edges of the lifecycle. -/
inductive Edge : JobStatus → JobStatus → Prop
  | dispatch : Edge .queued .dispatched
  | claimQueued : Edge .queued .running
  | claimDispatched : Edge .dispatched .running
  | complete : Edge .running .completed
  | fail : Edge .running .failed
  | requeue : Edge .running .queued

namespace Move

variable {cap : String → ℤ} {i : JobId} {j j' : Job}

theorem edge (h : Move cap i c r j j') : j'.status = j.status ∨ Edge j.status j'.status := by
  cases h with
  | stay h => exact Or.inl rfl
  | dispatch h => rw [h]; exact Or.inr .dispatch
  | claim h =>
    rcases List.mem_pair.mp h with h | h
    · rw [h]; exact Or.inr .claimQueued
    · rw [h]; exact Or.inr .claimDispatched
  | resolve h => exact Or.inl rfl
  | complete h => rw [h]; exact Or.inr .complete
  | fail h => rw [h]; exact Or.inr .fail
  | requeue h hcap => rw [h]; exact Or.inr .requeue
  | deadLetter h => rw [h]; exact Or.inr .fail

/-- `attempts` counts the re-queues. -/
theorem attempts_eq (h : Move cap i c r j j') : j'.attempts =
    if j.status = .running ∧ j'.status = .queued then j.attempts + 1 else j.attempts := by
  cases h with
  | stay h => rw [if_neg fun hs => nomatch hs.1.symm.trans hs.2]
  | resolve h => rw [if_neg fun hs => nomatch hs.1.symm.trans hs.2]
  | requeue h hcap => rw [if_pos ⟨h, rfl⟩]
  | _ => exact (if_neg fun hs => nomatch hs.2).symm

/-- A finished run is not touched again. -/
theorem eq_of_terminal (h : Move cap i c r j j') (ht : j.status ∈ JobStatus.terminal) :
    j' = j := by
  cases h with
  | stay h => rfl
  | dispatch h => rw [h] at ht; exact absurd ht (by decide)
  | claim h =>
    rcases List.mem_pair.mp h with h | h
    · rw [h] at ht; exact absurd ht (by decide)
    · rw [h] at ht; exact absurd ht (by decide)
  | resolve h => rw [h] at ht; exact absurd ht (by decide)
  | complete h => rw [h] at ht; exact absurd ht (by decide)
  | fail h => rw [h] at ht; exact absurd ht (by decide)
  | requeue h hcap => rw [h] at ht; exact absurd ht (by decide)
  | deadLetter h => rw [h] at ht; exact absurd ht (by decide)

end Move

/-- What the rest of a job's row never changes in. -/
structure SameRun (j j' : Job) : Prop where
  id : j'.id = j.id
  jobType : j'.jobType = j.jobType
  inputPayload : j'.inputPayload = j.inputPayload
  createdAt : j'.createdAt = j.createdAt
  createdBy : j'.createdBy = j.createdBy

theorem SameRun.refl (j : Job) : SameRun j j := ⟨rfl, rfl, rfl, rfl, rfl⟩

theorem SameRun.trans {j j' j'' : Job} (h : SameRun j j') (h' : SameRun j' j'') : SameRun j j'' :=
  ⟨h'.id.trans h.id, h'.jobType.trans h.jobType, h'.inputPayload.trans h.inputPayload,
    h'.createdAt.trans h.createdAt, h'.createdBy.trans h.createdBy⟩

theorem Move.sameRun {cap : String → ℤ} {i : JobId} {j j' : Job} (h : Move cap i c r j j') :
    SameRun j j' := by
  cases h <;> exact ⟨rfl, rfl, rfl, rfl, rfl⟩

/-- What a run of calls leaves of a job: the same run, and the same row once it is terminal. -/
theorem job_persists {l l' : Ledger ι} (hl : WellKeyed l.store)
    (h : Runs.Reachable Ledger.step l l') {i : JobId} {j : Job} (hj : l.store.getJob i = some j) :
    ∃ j', l'.store.getJob i = some j' ∧ SameRun j j' ∧
      (j.status ∈ JobStatus.terminal → j' = j) := by
  refine (h.invariant (I := fun l' => WellKeyed l'.store ∧ ∃ j', l'.store.getJob i = some j' ∧
    SameRun j j' ∧ (j.status ∈ JobStatus.terminal → j' = j))
    ⟨hl, j, hj, .refl j, fun _ => rfl⟩ ?_).2
  rintro l₁ a l₂ ⟨hs, j₁, hj₁, hsame, hfix⟩ ha
  obtain rfl : l₁.perform a.1 a.2 = l₂ := Option.some.inj ha
  have heff := exec_effect a.2 l₁.store
  obtain ⟨j₂, hj₂, hm⟩ := heff.job hs hj₁
  refine ⟨wellKeyed_of_effect heff hs, j₂, hj₂, hsame.trans hm.sameRun, fun ht => ?_⟩
  obtain rfl := hfix ht
  exact hm.eq_of_terminal ht

/-- **The jobs are the history.**  In every reachable state each call moves a job along an edge of
the lifecycle and counts its re-queues in `attempts`, a new job starts queued with no attempts, and
over any further calls no job is removed, its identifying fields never change, and a terminal job
keeps every field. -/
theorem jobs_are_the_history {l : Ledger ι}
    (h : Runs.Reachable Ledger.step (Ledger.start ∅) l) :
    (∀ c i j, l.store.getJob i = some j → ∃ j', (exec l.store c).2.getJob i = some j' ∧
      (j'.status = j.status ∨ Edge j.status j'.status) ∧
      j'.attempts =
        if j.status = .running ∧ j'.status = .queued then j.attempts + 1 else j.attempts) ∧
    (∀ c i j', l.store.getJob i = none → (exec l.store c).2.getJob i = some j' →
      j'.status = .queued ∧ j'.attempts = 0) ∧
    ∀ l', Runs.Reachable Ledger.step l l' → ∀ i j, l.store.getJob i = some j →
      ∃ j', l'.store.getJob i = some j' ∧ j'.id = j.id ∧ j'.jobType = j.jobType ∧
        j'.inputPayload = j.inputPayload ∧ j'.createdAt = j.createdAt ∧
        j'.createdBy = j.createdBy ∧ (j.status ∈ JobStatus.terminal → j' = j) := by
  have hs : WellKeyed l.store := (dedup_invariant h).1
  refine ⟨fun c i j hj => ?_, fun c i j' hn hj' => ?_, fun l' hl' i j hj => ?_⟩
  · obtain ⟨j', hj', hm⟩ := (exec_effect c l.store).job hs hj
    exact ⟨j', hj', hm.edge, hm.attempts_eq⟩
  · obtain ⟨t, p, cr, ca, ua, -, -, -, -, rfl⟩ := (exec_effect c l.store).new_job hn hj'
    exact ⟨rfl, rfl⟩
  · obtain ⟨j', hj', hsame, hfix⟩ := job_persists hs hl' hj
    exact ⟨j', hj', hsame.id, hsame.jobType, hsame.inputPayload, hsame.createdAt,
      hsame.createdBy, hfix⟩

/-- A run that failed keeps its row under a late `resolve_payload` and a late claim. -/
theorem jobs_are_the_history_failed_run :
    let l : Ledger Unit :=
      ((((Ledger.start ∅).perform () (.enqueue "boom" none none 0 0)).perform ()
        (.claim 1 1)).perform () (.fail 1 2))
    let l' := (l.perform () (.resolvePayload 1 "boom" 3)).perform () (.claim 1 4)
    ∃ j', l'.store.getJob 1 = some j' ∧ j'.status = .failed ∧ j'.updatedAt = 2 := by
  intro l l'
  have h : Runs.Reachable Ledger.step (Ledger.start ∅) l :=
    ⟨[((), .enqueue "boom" none none 0 0), ((), .claim 1 1), ((), .fail 1 2)], rfl⟩
  have h' : Runs.Reachable Ledger.step l l' :=
    ⟨[((), .resolvePayload 1 "boom" 3), ((), .claim 1 4)], rfl⟩
  obtain ⟨j', hj', -, -, -, -, -, hfix⟩ := (jobs_are_the_history h).2.2 l' h' 1 _ rfl
  exact ⟨j', hj', by rw [hfix (by decide)], by rw [hfix (by decide)]⟩

end JobWorkflow
