import JobWorkflow.Common.Store
import JobWorkflow.Machinery.Runs

/-!
# Common/Ledger — the store as a machine, with a journal of its calls

A `Call` names a method of `InMemoryStore` and its arguments, clock readings included; `exec` runs
it.  `Effect` says once everything a call can do to the store and `Move` everything it can do to one
job: every invariant of the store is read off these two.

A `Ledger` is a store together with the journal of the calls made on it, newest first.  No call
reads the journal; it is what statements about the past speak of.
-/

namespace JobWorkflow

open InMemoryStore

/-! ## Calls -/

inductive Call
  | enqueue (jobType : String) (inputPayload : Option Document) (creator : Option Creator)
      (createdAt updatedAt : Time)
  | fetchUnpublished (limit : ℤ)
  | markDispatched (outboxId : OutboxId) (jobId : JobId) (now : Time)
  | claim (jobId : JobId) (now : Time)
  | resolvePayload (jobId : JobId) (jobType : String) (now : Time)
  | complete (jobId : JobId) (now : Time)
  | fail (jobId : JobId) (now : Time)
  | findStuck (now : Time)
  | requeueStuck (jobId : JobId) (now : Time)
  | deadLetter (jobId : JobId) (now : Time)
  | getJob (jobId : JobId)
  | setTypeConfig (jobType : String) (runTimeout : Duration) (maxAttempts : ℤ)
      (payload : Option Payload)

/-- What a call returns; an exception is a reply too. -/
inductive Reply
  | jobId (r : Option JobId)
  | rows (r : List OutboxMessage)
  | unit
  | flag (b : Bool)
  | payload (r : Except TypeError (Option Document))
  | stuck (r : List StuckJob)
  | job (r : Option Job)
  | raised (e : StoreError)

/-- Run one call. -/
def exec (s : InMemoryStore) : Call → Reply × InMemoryStore
  | .enqueue t p cr ca ua => ((s.enqueue t p cr ca ua).map .jobId id)
  | .fetchUnpublished limit => (.rows (s.fetchUnpublished limit), s)
  | .markDispatched o i now => (.unit, s.markDispatched o i now)
  | .claim i now => (s.claim i now).map .flag id
  | .resolvePayload i t now => (s.resolvePayload i t now).map .payload id
  | .complete i now => (s.complete i now).map .flag id
  | .fail i now => (s.fail i now).map .flag id
  | .findStuck now => (.stuck (s.findStuck now), s)
  | .requeueStuck i now => (s.requeueStuck i now).map .flag id
  | .deadLetter i now => (s.deadLetter i now).map .flag id
  | .getJob i => (.job (s.getJob i), s)
  | .setTypeConfig t timeout cap p => (.unit, s.setTypeConfig t timeout cap p)

/-- The job a call is about, for the calls that change at most that job's fields. -/
def Call.target : Call → Option JobId
  | .claim i _ | .resolvePayload i _ _ | .complete i _ | .fail i _ | .requeueStuck i _
  | .deadLetter i _ => some i
  | _ => none

/-- Whether the caller is told that the call took effect. -/
def Reply.effective : Reply → Bool
  | .jobId r => r.isSome
  | .flag b => b
  | .payload (.ok (some _)) => true
  | _ => false

/-- The call took effect on job `i`. -/
def Touches (i : JobId) (c : Call) (r : Reply) : Prop := c.target = some i ∧ r.effective = true

/-! ## What one call can do -/

/-- **What one call can do to job `i`**, where `cap` gives the churn cap of a type. -/
inductive Move (cap : String → ℤ) (i : JobId) : Call → Reply → Job → Job → Prop
  | stay {c r j} (h : ¬ Touches i c r) : Move cap i c r j j
  | dispatch {o now j} (h : j.status = .queued) :
      Move cap i (.markDispatched o i now) .unit j
        { j with status := .dispatched, updatedAt := now }
  | claim {now j} (h : j.status ∈ [JobStatus.queued, JobStatus.dispatched]) :
      Move cap i (.claim i now) (.flag true) j { j with status := .running, updatedAt := now }
  | resolve {t now j p} (h : j.status = .running) :
      Move cap i (.resolvePayload i t now) (.payload (.ok (some p))) j
        { j with payload := p, updatedAt := now }
  | complete {now j} (h : j.status = .running) :
      Move cap i (.complete i now) (.flag true) j { j with status := .completed, updatedAt := now }
  | fail {now j} (h : j.status = .running) :
      Move cap i (.fail i now) (.flag true) j { j with status := .failed, updatedAt := now }
  | requeue {now j} (h : j.status = .running) (hcap : j.attempts < cap j.jobType) :
      Move cap i (.requeueStuck i now) (.flag true) j
        { j with status := .queued, attempts := j.attempts + 1, updatedAt := now }
  | deadLetter {now j} (h : j.status = .running) :
      Move cap i (.deadLetter i now) (.flag true) j { j with status := .failed, updatedAt := now }

/-- **What one call can do to the store.** -/
inductive Effect (s : InMemoryStore) : Call → Reply → InMemoryStore → Prop
  | unchanged {c r} (hr : r.effective = false) : Effect s c r s
  | enqueued {t p cr ca ua} (h : s.active t = false) :
      Effect s (.enqueue t p cr ca ua) (.jobId (some s.nextJobId))
        { s with
          jobs := s.jobs.set s.nextJobId (newJob s.nextJobId t p cr ca ua)
          outbox := s.outbox.set s.nextOutboxId
            ⟨s.nextOutboxId, s.nextJobId, buildEnvelope s.nextJobId t⟩
          nextJobId := s.nextJobId + 1
          nextOutboxId := s.nextOutboxId + 1 }
  | published {o i now} (h : ∀ j, s.getJob i = some j → j.status ≠ .queued) :
      Effect s (.markDispatched o i now) .unit { s with published := insert o s.published }
  | dispatched {o i now j} (hj : s.getJob i = some j) (h : j.status = .queued) :
      Effect s (.markDispatched o i now) .unit
        { s with
          published := insert o s.published
          jobs := s.jobs.set i { j with status := .dispatched, updatedAt := now } }
  | requeued {i now j} (hj : s.getJob i = some j) (h : j.status = .running)
      (hcap : j.attempts < s.maxAttempts j.jobType) :
      Effect s (.requeueStuck i now) (.flag true)
        { s with
          jobs := s.jobs.set i
            { j with status := .queued, attempts := j.attempts + 1, updatedAt := now }
          published := s.rearm i }
  | rewritten {c r i j j'} (hj : s.getJob i = some j) (ht : Touches i c r)
      (hm : Move s.maxAttempts i c r j j') (hne : ∀ now, c ≠ .requeueStuck i now) :
      Effect s c r { s with jobs := s.jobs.set i j' }
  | configured {t timeout cap p} :
      Effect s (.setTypeConfig t timeout cap p) .unit (s.setTypeConfig t timeout cap p)

/-- The shape the claim, the two outcomes and the dead letter share. -/
theorem guardedUpdate_effect {c : Call} {guard : Job → Bool} {update : Job → Job} {i : JobId}
    (s : InMemoryStore) (hc : c.target = some i) (hne : ∀ now, c ≠ .requeueStuck i now)
    (hm : ∀ j, guard j = true → Move s.maxAttempts i c (.flag true) j (update j)) :
    Effect s c (.flag (guardedUpdate guard update i s).1) (guardedUpdate guard update i s).2 := by
  rcases guardedUpdate_cases guard update i s with ⟨j, hj, hg, he⟩ | ⟨-, he⟩
  · rw [he]
    exact .rewritten hj ⟨hc, rfl⟩ (hm j hg) hne
  · rw [he]
    exact .unchanged rfl

/-- **Every call has one of these effects.** -/
theorem exec_effect (c : Call) (s : InMemoryStore) : Effect s c (exec s c).1 (exec s c).2 := by
  cases c with
  | enqueue t p cr ca ua =>
    cases h : s.active t with
    | true =>
      have he : s.enqueue t p cr ca ua = (none, s) := if_pos h
      rw [exec, he]
      exact .unchanged rfl
    | false =>
      rw [exec, enqueue, if_neg (by rw [h]; exact Bool.false_ne_true)]
      exact .enqueued h
  | fetchUnpublished limit => exact .unchanged rfl
  | markDispatched o i now =>
    rw [exec, markDispatched]
    rcases guardedUpdate_cases (fun job => job.status = .queued)
      (fun job => { job with status := .dispatched, updatedAt := now }) i
      { s with published := insert o s.published } with ⟨j, hj, hg, he⟩ | ⟨hno, he⟩
    · rw [he]
      exact .dispatched hj (of_decide_eq_true hg)
    · rw [he]
      exact .published fun j hj => of_decide_eq_false (hno j hj)
  | claim i now =>
    exact guardedUpdate_effect s rfl nofun fun j hg => .claim (of_decide_eq_true hg)
  | resolvePayload i t now =>
    rw [exec]
    rcases resolvePayload_cases i t now s with ⟨j, -, p, hj, hr, -, -, he⟩ | ⟨hs, he | ⟨e, he⟩⟩
    · rw [he]
      exact .rewritten hj ⟨rfl, rfl⟩ (.resolve hr) nofun
    · rw [Prod.map, he, hs]
      exact .unchanged rfl
    · rw [Prod.map, he, hs]
      exact .unchanged rfl
  | complete i now =>
    exact guardedUpdate_effect s rfl nofun fun j hg => .complete (of_decide_eq_true hg)
  | fail i now =>
    exact guardedUpdate_effect s rfl nofun fun j hg => .fail (of_decide_eq_true hg)
  | findStuck now => exact .unchanged rfl
  | requeueStuck i now =>
    rw [exec]
    rcases requeueStuck_cases i now s with ⟨j, hj, hr, hcap, he⟩ | ⟨-, he⟩
    · rw [he]
      exact .requeued hj hr hcap
    · rw [he]
      exact .unchanged rfl
  | deadLetter i now =>
    exact guardedUpdate_effect s rfl nofun fun j hg => .deadLetter (of_decide_eq_true hg)
  | getJob i => exact .unchanged rfl
  | setTypeConfig t timeout cap p => exact .configured

/-- Jobs are stored under their ids, and the id counter is past all of them. -/
structure WellKeyed (s : InMemoryStore) : Prop where
  id_eq : ∀ i j, s.getJob i = some j → j.id = i
  lt_next : ∀ i j, s.getJob i = some j → i < s.nextJobId

theorem WellKeyed.next_free {s : InMemoryStore} (hs : WellKeyed s) :
    s.getJob s.nextJobId = none := by
  cases h : s.getJob s.nextJobId with
  | none => rfl
  | some j => exact absurd (hs.lt_next _ j h) (lt_irrefl _)

namespace Effect

variable {s s' : InMemoryStore} {c : Call} {r : Reply} {i : JobId} {j j' : Job}

/-- Rewriting job `k` moves no other job. -/
private theorem job_set {k : JobId} {jk jk' : Job} (hj : s.getJob i = some j)
    (hk : s.getJob k = some jk) (hm : Move s.maxAttempts k c r jk jk')
    (hstay : i ≠ k → ¬ Touches i c r) :
    ∃ j', (s.jobs.set k jk').get? i = some j' ∧ Move s.maxAttempts i c r j j' := by
  by_cases hik : i = k
  · subst hik
    obtain rfl : jk = j := Option.some.inj (hk.symm.trans hj)
    exact ⟨jk', Dict.get?_set_self s.jobs i jk', hm⟩
  · exact ⟨j, (Dict.get?_set_of_ne s.jobs jk' hik).trans hj, .stay (hstay hik)⟩

private theorem not_touches_of_ne {k : JobId} (ht : Touches k c r) (h : i ≠ k) :
    ¬ Touches i c r := fun ht' => h (Option.some.inj (ht'.1.symm.trans ht.1))

/-- **A job that is there stays there, and makes a `Move`.** -/
theorem job (h : Effect s c r s') (hs : WellKeyed s) (hj : s.getJob i = some j) :
    ∃ j', s'.getJob i = some j' ∧ Move s.maxAttempts i c r j j' := by
  cases h with
  | unchanged hr => exact ⟨j, hj, .stay fun ht => Bool.false_ne_true (hr.symm.trans ht.2)⟩
  | enqueued ha =>
    have hne : i ≠ s.nextJobId := (hs.lt_next i j hj).ne
    exact ⟨j, (Dict.get?_set_of_ne s.jobs _ hne).trans hj, .stay fun ht => nomatch ht.1⟩
  | published h => exact ⟨j, hj, .stay fun ht => nomatch ht.1⟩
  | dispatched hk hq => exact job_set hj hk (.dispatch hq) fun _ ht => nomatch ht.1
  | requeued hk hr hcap =>
    exact job_set hj hk (.requeue hr hcap) (not_touches_of_ne ⟨rfl, rfl⟩)
  | rewritten hk ht hm hne => exact job_set hj hk hm (not_touches_of_ne ht)
  | configured => exact ⟨j, hj, .stay fun ht => nomatch ht.1⟩

/-- **A job that appears was just enqueued.** -/
theorem new_job (h : Effect s c r s') (hn : s.getJob i = none) (hj : s'.getJob i = some j) :
    ∃ t p cr ca ua, c = .enqueue t p cr ca ua ∧ r = .jobId (some i) ∧ i = s.nextJobId ∧
      s.active t = false ∧ j = newJob i t p cr ca ua := by
  have hset : ∀ {k jk jk'}, s.getJob k = some jk → (s.jobs.set k jk').get? i = some j → False := by
    intro k jk jk' hk hi
    by_cases hik : i = k
    · rw [hik, hk] at hn
      exact nomatch hn
    · rw [Dict.get?_set_of_ne s.jobs jk' hik] at hi
      exact nomatch hn.symm.trans hi
  cases h with
  | unchanged hr => exact nomatch hn.symm.trans hj
  | enqueued ha =>
    rename_i t p cr ca ua
    have hi : (s.jobs.set s.nextJobId (newJob s.nextJobId t p cr ca ua)).get? i = some j := hj
    rw [Dict.get?_set] at hi
    split at hi
    · rename_i hik
      subst hik
      exact ⟨t, p, cr, ca, ua, rfl, rfl, rfl, ha, (Option.some.inj hi).symm⟩
    · exact nomatch hn.symm.trans hi
  | published h => exact nomatch hn.symm.trans hj
  | dispatched hk hq => exact (hset hk hj).elim
  | requeued hk hr hcap => exact (hset hk hj).elim
  | rewritten hk ht hm hne => exact (hset hk hj).elim
  | configured => exact nomatch hn.symm.trans hj

/-- A call that takes effect on a job finds it there. -/
theorem exists_of_touches (h : Effect s c r s') (ht : Touches i c r) :
    ∃ j, s.getJob i = some j := by
  cases h with
  | unchanged hr => exact absurd (hr.symm.trans ht.2) Bool.false_ne_true
  | enqueued ha => exact nomatch ht.1
  | published h => exact nomatch ht.1
  | dispatched hk hq => exact nomatch ht.1
  | requeued hk hr hcap =>
    obtain rfl := Option.some.inj ht.1
    exact ⟨_, hk⟩
  | rewritten hk ht' hm hne =>
    obtain rfl := Option.some.inj (ht'.1.symm.trans ht.1)
    exact ⟨_, hk⟩
  | configured => exact nomatch ht.1

/-- Only `set_type_config` changes the configuration. -/
theorem typeConfig (h : Effect s c r s')
    (hc : ∀ t timeout cap p, c ≠ .setTypeConfig t timeout cap p) :
    s'.typeConfig = s.typeConfig := by
  cases h with
  | configured => exact absurd rfl (hc _ _ _ _)
  | _ => rfl

theorem nextJobId_le (h : Effect s c r s') : s.nextJobId ≤ s'.nextJobId := by
  cases h with
  | enqueued ha => exact (Int.lt_succ s.nextJobId).le
  | _ => exact le_refl _

end Effect

namespace Move

variable {cap : String → ℤ} {i : JobId} {c : Call} {r : Reply} {j j' : Job}

theorem id_eq (h : Move cap i c r j j') : j'.id = j.id := by cases h <;> rfl

theorem jobType_eq (h : Move cap i c r j j') : j'.jobType = j.jobType := by cases h <;> rfl

/-- No call makes a terminal job active again. -/
theorem active_of_active (h : Move cap i c r j j') (ha : j'.status ∈ JobStatus.active) :
    j.status ∈ JobStatus.active := by
  cases h with
  | stay h => exact ha
  | dispatch h => rw [h]; decide
  | claim h =>
    exact (show [JobStatus.queued, JobStatus.dispatched] ⊆ JobStatus.active by decide) h
  | resolve h => exact ha
  | complete h => rw [h]; decide
  | fail h => rw [h]; decide
  | requeue h hcap => rw [h]; decide
  | deadLetter h => rw [h]; decide

end Move

theorem wellKeyed_of_effect {s s' : InMemoryStore} {c : Call} {r : Reply} (h : Effect s c r s')
    (hs : WellKeyed s) : WellKeyed s' := by
  have key : ∀ i j', s'.getJob i = some j' → j'.id = i ∧ i < s'.nextJobId := by
    intro i j' hj'
    cases hj : s.getJob i with
    | none =>
      obtain ⟨t, p, cr, ca, ua, rfl, rfl, rfl, -, rfl⟩ := h.new_job hj hj'
      refine ⟨rfl, ?_⟩
      cases h with
      | unchanged hr => exact nomatch hr
      | enqueued ha => exact Int.lt_succ s.nextJobId
      | rewritten hk ht hm hne => exact nomatch ht.1
    | some j =>
      obtain ⟨k, hk, hm⟩ := h.job hs hj
      obtain rfl : j' = k := Option.some.inj (hj'.symm.trans hk)
      exact ⟨hm.id_eq.trans (hs.id_eq i j hj), (hs.lt_next i j hj).trans_le h.nextJobId_le⟩
  exact ⟨fun i j hj => (key i j hj).1, fun i j hj => (key i j hj).2⟩

/-! ## The ledger -/

/-- A call, who made it, and what it returned. -/
structure Entry (ι : Type) where
  actor : ι
  call : Call
  reply : Reply

/-- A store with the journal of the calls made on it, newest first. -/
structure Ledger (ι : Type) where
  store : InMemoryStore
  journal : List (Entry ι)

namespace Ledger

variable {ι : Type}

/-- A store nothing has been called on yet, with the given type configuration. -/
def start (cfg : Dict String TypeConfig) : Ledger ι :=
  ⟨{ InMemoryStore.empty with typeConfig := cfg }, []⟩

def perform (l : Ledger ι) (actor : ι) (c : Call) : Ledger ι :=
  ⟨(exec l.store c).2, ⟨actor, c, (exec l.store c).1⟩ :: l.journal⟩

/-- Any call, by anyone, with any arguments, is a step. -/
def step (l : Ledger ι) (a : ι × Call) : Option (Ledger ι) := some (l.perform a.1 a.2)

theorem wellKeyed_start (cfg : Dict String TypeConfig) : WellKeyed (start (ι := ι) cfg).store :=
  ⟨fun _ _ h => (nomatch h), fun _ _ h => (nomatch h)⟩

/-- **Induction over the calls made**, at well-keyed stores. -/
theorem induction {cfg : Dict String TypeConfig} {I : Ledger ι → Prop} (h₀ : I (start cfg))
    (hI : ∀ (l : Ledger ι) (actor : ι) (c : Call), WellKeyed l.store → I l →
      I (l.perform actor c)) {l : Ledger ι} (h : Runs.Reachable step (start cfg) l) :
    WellKeyed l.store ∧ I l :=
  h.invariant (I := fun l => WellKeyed l.store ∧ I l) ⟨wellKeyed_start cfg, h₀⟩
    fun l a l' hl ha => by
      obtain rfl : l.perform a.1 a.2 = l' := Option.some.inj ha
      exact ⟨wellKeyed_of_effect (exec_effect a.2 l.store) hl.1, hI l a.1 a.2 hl.1 hl.2⟩

theorem wellKeyed_of_reachable {cfg : Dict String TypeConfig} {l : Ledger ι}
    (h : Runs.Reachable step (start cfg) l) : WellKeyed l.store :=
  (induction (I := fun _ => True) trivial (fun _ _ _ _ _ => trivial) h).1

end Ledger

end JobWorkflow
