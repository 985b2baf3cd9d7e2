import JobWorkflow.Common.Ledger

/-!
# Common/Correspondence — jobs and outbox rows

Each job has one outbox row, the row holds the job's envelope, and its published flag agrees with
the job's status (`Corresponds`).  Every call keeps this, as long as a `mark_dispatched` is given a
row of the outbox with its job, however late (`corresponds_of_effect`).
-/

namespace JobWorkflow

open InMemoryStore

variable {s s' : InMemoryStore} {c : Call} {r : Reply}

/-- A row after `enqueue` is the new one, or an old one of an old job. -/
theorem enqueue_row_cases {t : String} {o : OutboxId} {m : OutboxMessage} (hw : WellKeyed s)
    (hjob : ∀ o m, s.outbox.get? o = some m → ∃ j, s.getJob m.jobId = some j)
    (h : (s.outbox.set s.nextOutboxId
      ⟨s.nextOutboxId, s.nextJobId, buildEnvelope s.nextJobId t⟩).get? o = some m) :
    (o = s.nextOutboxId ∧ m = ⟨s.nextOutboxId, s.nextJobId, buildEnvelope s.nextJobId t⟩) ∨
      (s.outbox.get? o = some m ∧ m.jobId ≠ s.nextJobId) := by
  rw [Dict.get?_set] at h
  split at h
  · rename_i ho
    exact Or.inl ⟨ho, (Option.some.inj h).symm⟩
  · obtain ⟨j, hj⟩ := hjob o m h
    exact Or.inr ⟨h, (hw.lt_next _ j hj).ne⟩

/-! ## The correspondence -/

/-- **Jobs and outbox rows correspond.** -/
structure Corresponds (s : InMemoryStore) : Prop where
  row_id : ∀ o m, s.outbox.get? o = some m → m.id = o
  row_lt : ∀ o m, s.outbox.get? o = some m → o < s.nextOutboxId
  published_lt : ∀ o ∈ s.published, o < s.nextOutboxId
  row_job : ∀ o m, s.outbox.get? o = some m →
    ∃ j, s.getJob m.jobId = some j ∧ m.payload = buildEnvelope m.jobId j.jobType
  job_row : ∀ i j, s.getJob i = some j → ∃ o m, s.outbox.get? o = some m ∧ m.jobId = i
  row_unique : ∀ o o' m m', s.outbox.get? o = some m → s.outbox.get? o' = some m' →
    m.jobId = m'.jobId → o = o'
  queued_unpublished : ∀ o m j, s.outbox.get? o = some m → s.getJob m.jobId = some j →
    j.status = .queued → o ∉ s.published
  dispatched_published : ∀ o m j, s.outbox.get? o = some m → s.getJob m.jobId = some j →
    j.status = .dispatched → o ∈ s.published

namespace Corresponds

theorem empty (cfg : Dict String TypeConfig) :
    Corresponds { InMemoryStore.empty with typeConfig := cfg } where
  row_id _ _ h := nomatch h
  row_lt _ _ h := nomatch h
  published_lt _ h := nomatch h
  row_job _ _ h := nomatch h
  job_row _ _ h := nomatch h
  row_unique _ _ _ _ h := nomatch h
  queued_unpublished _ _ _ h := nomatch h
  dispatched_published _ _ _ h := nomatch h

/-- Rewriting job `k`, and the flags of its row with it, keeps the correspondence. -/
theorem rewrite {k : JobId} {j j' : Job} (hs : Corresponds s)
    (hj : s.getJob k = some j) (hj' : s'.getJob k = some j') (ht : j'.jobType = j.jobType)
    (hjobs : ∀ i, i ≠ k → s'.getJob i = s.getJob i) (hout : s'.outbox = s.outbox)
    (hnext : s'.nextOutboxId = s.nextOutboxId)
    (hlt : ∀ o ∈ s'.published, o < s.nextOutboxId)
    (hother : ∀ o m, s.outbox.get? o = some m → m.jobId ≠ k →
      (o ∈ s'.published ↔ o ∈ s.published))
    (hqueued : ∀ o m, s.outbox.get? o = some m → m.jobId = k → j'.status = .queued →
      o ∉ s'.published)
    (hdispatched : ∀ o m, s.outbox.get? o = some m → m.jobId = k → j'.status = .dispatched →
      o ∈ s'.published) : Corresponds s' where
  row_id o m h := hs.row_id o m (hout ▸ h)
  row_lt o m h := hnext ▸ hs.row_lt o m (hout ▸ h)
  published_lt o h := hnext ▸ hlt o h
  row_job o m h := by
    obtain ⟨jm, hjm, hp⟩ := hs.row_job o m (hout ▸ h)
    by_cases hk : m.jobId = k
    · obtain rfl : j = jm := Option.some.inj (hj.symm.trans (hk ▸ hjm))
      exact ⟨j', hk ▸ hj', ht ▸ hp⟩
    · exact ⟨jm, (hjobs _ hk).trans hjm, hp⟩
  job_row i ji h := by
    rw [hout]
    by_cases hk : i = k
    · exact hs.job_row i j (hk ▸ hj)
    · exact hs.job_row i ji ((hjobs i hk).symm.trans h)
  row_unique o o' m m' h h' := hs.row_unique o o' m m' (hout ▸ h) (hout ▸ h')
  queued_unpublished o m jm h hjm hq := by
    by_cases hk : m.jobId = k
    · obtain rfl : j' = jm := Option.some.inj (hj'.symm.trans (hk ▸ hjm))
      exact hqueued o m (hout ▸ h) hk hq
    · rw [hother o m (hout ▸ h) hk]
      exact hs.queued_unpublished o m jm (hout ▸ h) ((hjobs _ hk).symm.trans hjm) hq
  dispatched_published o m jm h hjm hd := by
    by_cases hk : m.jobId = k
    · obtain rfl : j' = jm := Option.some.inj (hj'.symm.trans (hk ▸ hjm))
      exact hdispatched o m (hout ▸ h) hk hd
    · rw [hother o m (hout ▸ h) hk]
      exact hs.dispatched_published o m jm (hout ▸ h) ((hjobs _ hk).symm.trans hjm) hd

/-- Marking a row published, and its job dispatched or not, keeps the correspondence, unless the job
is left queued. -/
theorem mark {o : OutboxId} {m : OutboxMessage} {j j' : Job} (hs : Corresponds s)
    (hm : s.outbox.get? o = some m) (hj : s.getJob m.jobId = some j)
    (hj' : s'.getJob m.jobId = some j') (ht : j'.jobType = j.jobType)
    (hjobs : ∀ i, i ≠ m.jobId → s'.getJob i = s.getJob i) (hout : s'.outbox = s.outbox)
    (hnext : s'.nextOutboxId = s.nextOutboxId) (hpub : s'.published = insert o s.published)
    (hq : j'.status ≠ .queued) : Corresponds s' := by
  refine hs.rewrite hj hj' ht hjobs hout hnext ?_ ?_ (fun _ _ _ _ hq' => absurd hq' hq) ?_
  · intro o' ho'
    rw [hpub, Finset.mem_insert] at ho'
    rcases ho' with rfl | ho'
    · exact hs.row_lt o' m hm
    · exact hs.published_lt o' ho'
  · intro o' m' hm' hne
    rw [hpub, Finset.mem_insert]
    refine or_iff_right fun he => hne ?_
    rw [Option.some.inj (hm'.symm.trans (he ▸ hm))]
  · intro o' m' hm' he _
    rw [hpub, hs.row_unique o' o m' m hm' hm he]
    exact Finset.mem_insert_self _ _

/-- The row and the job `enqueue` adds correspond. -/
theorem enqueue (hs : Corresponds s) (hw : WellKeyed s) {t : String} {p : Option Document}
    {cr : Option Creator} {ca ua : Time} : Corresponds
      { s with
        jobs := s.jobs.set s.nextJobId (newJob s.nextJobId t p cr ca ua)
        outbox := s.outbox.set s.nextOutboxId
          ⟨s.nextOutboxId, s.nextJobId, buildEnvelope s.nextJobId t⟩
        nextJobId := s.nextJobId + 1
        nextOutboxId := s.nextOutboxId + 1 } := by
  have row : ∀ {o m}, (s.outbox.set s.nextOutboxId
      ⟨s.nextOutboxId, s.nextJobId, buildEnvelope s.nextJobId t⟩).get? o = some m → _ :=
    enqueue_row_cases hw fun o m hm => (hs.row_job o m hm).imp fun _ => And.left
  have oldJob : ∀ {i}, i ≠ s.nextJobId →
      (s.jobs.set s.nextJobId (newJob s.nextJobId t p cr ca ua)).get? i = s.getJob i :=
    fun h => Dict.get?_set_of_ne s.jobs _ h
  have newJob' := Dict.get?_set_self s.jobs s.nextJobId (newJob s.nextJobId t p cr ca ua)
  have hlt : ∀ {o}, o < s.nextOutboxId → o < s.nextOutboxId + 1 :=
    fun h => h.trans (Int.lt_succ _)
  refine
    { row_id := fun o m h => ?row_id
      row_lt := fun o m h => ?row_lt
      published_lt := fun o h => hlt (hs.published_lt o h)
      row_job := fun o m h => ?row_job
      job_row := fun i j h => ?job_row
      row_unique := fun o o' m m' h h' he => ?row_unique
      queued_unpublished := fun o m j h hj hq => ?queued_unpublished
      dispatched_published := fun o m j h hj hd => ?dispatched_published }
  case row_id =>
    rcases row h with ⟨rfl, rfl⟩ | ⟨h, -⟩
    · rfl
    · exact hs.row_id o m h
  case row_lt =>
    rcases row h with ⟨rfl, -⟩ | ⟨h, -⟩
    · exact Int.lt_succ _
    · exact hlt (hs.row_lt o m h)
  case row_job =>
    rcases row h with ⟨rfl, rfl⟩ | ⟨h, hne⟩
    · exact ⟨_, newJob', rfl⟩
    · obtain ⟨j, hj, hp⟩ := hs.row_job o m h
      exact ⟨j, (oldJob hne).trans hj, hp⟩
  case job_row =>
    by_cases hi : i = s.nextJobId
    · exact ⟨s.nextOutboxId, _, Dict.get?_set_self s.outbox _ _, hi.symm⟩
    · obtain ⟨o, m, hm, hmi⟩ := hs.job_row i j ((oldJob hi).symm.trans h)
      exact ⟨o, m, (Dict.get?_set_of_ne s.outbox _ (hs.row_lt o m hm).ne).trans hm, hmi⟩
  case row_unique =>
    rcases row h, row h' with ⟨⟨rfl, rfl⟩ | ⟨h, hne⟩, ⟨rfl, rfl⟩ | ⟨h', hne'⟩⟩
    · rfl
    · exact absurd he.symm hne'
    · exact absurd he hne
    · exact hs.row_unique o o' m m' h h' he
  case queued_unpublished =>
    rcases row h with ⟨rfl, rfl⟩ | ⟨h, hne⟩
    · exact fun hmem => (hs.published_lt _ hmem).ne rfl
    · exact hs.queued_unpublished o m j h ((oldJob hne).symm.trans hj) hq
  case dispatched_published =>
    rcases row h with ⟨rfl, rfl⟩ | ⟨h, hne⟩
    · obtain rfl : newJob s.nextJobId t p cr ca ua = j := Option.some.inj (newJob'.symm.trans hj)
      exact absurd hd (by decide : JobStatus.queued ≠ .dispatched)
    · exact hs.dispatched_published o m j h ((oldJob hne).symm.trans hj) hd

end Corresponds

/-- A call that takes effect on a job other than a re-queue leaves it past its message. -/
theorem Move.not_waiting {cap : String → ℤ} {i : JobId} {j j' : Job} (h : Move cap i c r j j')
    (ht : Touches i c r) (hne : ∀ now, c ≠ .requeueStuck i now) :
    j'.status ≠ .queued ∧ j'.status ≠ .dispatched := by
  cases h with
  | stay h => exact absurd ht h
  | dispatch h => exact nomatch ht.1
  | requeue h hcap => exact absurd rfl (hne _)
  | resolve h => exact ⟨fun he => (nomatch h.symm.trans he), fun he => (nomatch h.symm.trans he)⟩
  | _ => exact ⟨nofun, nofun⟩

/-- **Every call keeps the correspondence**, if a `mark_dispatched` is given a row of the outbox. -/
theorem corresponds_of_effect (h : Effect s c r s') (hw : WellKeyed s) (hs : Corresponds s)
    (hmark : ∀ o i now, c = .markDispatched o i now →
      ∃ m, s.outbox.get? o = some m ∧ m.jobId = i) : Corresponds s' := by
  have set_self := fun (i : JobId) (j : Job) => Dict.get?_set_self s.jobs i j
  have set_ne := fun (k : JobId) (j : Job) (i : JobId) (h : i ≠ k) =>
    Dict.get?_set_of_ne s.jobs j h
  cases h with
  | unchanged hr => exact hs
  | enqueued ha => exact hs.enqueue hw
  | published h =>
    rename_i o i now
    obtain ⟨m, hm, rfl⟩ := hmark o i now rfl
    obtain ⟨j, hj, -⟩ := hs.row_job o m hm
    exact hs.mark hm hj hj rfl (fun _ _ => rfl) rfl rfl rfl (h j hj)
  | dispatched hj hq =>
    rename_i o i now j
    obtain ⟨m, hm, rfl⟩ := hmark o i now rfl
    exact hs.mark hm hj (set_self _ _) rfl (set_ne _ _) rfl rfl rfl (nomatch ·)
  | requeued hj hr hcap =>
    refine hs.rewrite hj (set_self _ _) rfl (set_ne _ _) rfl rfl ?_ ?_ ?_ ?_
    · exact fun o ho => hs.published_lt o (mem_rearm.mp ho).1
    · intro o m hm hne
      refine mem_rearm.trans (and_iff_left fun m' hm' => ?_)
      obtain rfl := Option.some.inj (hm.symm.trans hm')
      exact hne
    · exact fun o m hm he _ ho => (mem_rearm.mp ho).2 m hm he
    · exact fun _ _ _ _ hd => nomatch hd
  | rewritten hj ht hm hne =>
    obtain ⟨hnq, hnd⟩ := hm.not_waiting ht (fun now => hne now)
    exact hs.rewrite hj (set_self _ _) hm.jobType_eq (set_ne _ _) rfl rfl hs.published_lt
      (fun _ _ _ _ => Iff.rfl) (fun _ _ _ _ hq => absurd hq hnq)
      (fun _ _ _ _ hd => absurd hd hnd)
  | configured =>
    exact ⟨hs.row_id, hs.row_lt, hs.published_lt, hs.row_job, hs.job_row, hs.row_unique,
      hs.queued_unpublished, hs.dispatched_published⟩

/-- A row stays in the outbox. -/
theorem Effect.row (h : Effect s c r s') (hs : Corresponds s) {o : OutboxId} {m : OutboxMessage}
    (hm : s.outbox.get? o = some m) : s'.outbox.get? o = some m := by
  cases h with
  | enqueued ha => exact (Dict.get?_set_of_ne s.outbox _ (hs.row_lt o m hm).ne).trans hm
  | _ => exact hm

end JobWorkflow
