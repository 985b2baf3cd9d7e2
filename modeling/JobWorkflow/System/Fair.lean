import JobWorkflow.Machinery.Fairness
import JobWorkflow.System.Churn
import JobWorkflow.System.Exclusion
import JobWorkflow.System.Recovery
import Mathlib.Data.Set.Card
import Mathlib.Tactic.IntervalCases

/-!
# System/Fair — in a fair run every job ends

A run without end is fair if, over and over, `dispatch_once` and `reap_once` are run to their ends,
the latter at ever later times, and every message is tried again until it is committed.  The
components may otherwise stop at any point, and new jobs may come in all the time.

A status that is not terminal cannot stay: the row of a queued job is marked by the next dispatcher
that gets to it, the message of a dispatched job is tried, and a running job grows old and is
listed.  Each change lowers what is left of the job (`Job.left`).

* `fair_rows_published` — every outbox row comes to be published for good.
* `fair_jobs_end` — every job comes to an end.
-/

namespace JobWorkflow

/-- What a job may still go through: three changes of status for each attempt. -/
def Job.left (cap : String → ℤ) (j : Job) : ℕ :=
  3 * (cap j.jobType - j.attempts).toNat + (3 - j.status.rank)

/-- A status change leaves less, and nothing leaves more. -/
theorem Move.left_le {cap : String → ℤ} {i : JobId} {c : Call} {r : Reply} {j j' : Job}
    (h : Move cap i c r j j') :
    j'.left cap + (if j'.status ≠ j.status then 1 else 0) ≤ j.left cap := by
  cases h with
  | stay h => rw [if_neg (not_not.mpr rfl)]; exact le_refl _
  | dispatch h => simp [Job.left, JobStatus.rank, h]
  | claim h =>
    rcases List.mem_pair.mp h with h | h
    · simp [Job.left, JobStatus.rank, h]
    · simp [Job.left, JobStatus.rank, h]
  | resolve h => simp [Job.left]
  | complete h => simp [Job.left, JobStatus.rank, h]
  | fail h => simp [Job.left, JobStatus.rank, h]
  | requeue h hcap => simp [Job.left, JobStatus.rank, h]; omega
  | deadLetter h => simp [Job.left, JobStatus.rank, h]

/-- A row that is published stays so, unless its job is re-queued. -/
theorem Effect.keeps_published {s s' : InMemoryStore} {c : Call} {r : Reply} (h : Effect s c r s')
    {o : OutboxId} {m : OutboxMessage} (hm : s.outbox.get? o = some m) (ho : o ∈ s.published) :
    o ∈ s'.published ∨ s.getJob m.jobId ≠ s'.getJob m.jobId := by
  cases h with
  | published h => exact Or.inl (Finset.mem_insert_of_mem ho)
  | dispatched hj h => exact Or.inl (Finset.mem_insert_of_mem ho)
  | requeued hj h hcap =>
    rename_i i now j
    by_cases hi : m.jobId = i
    · subst hi
      right
      rw [hj, InMemoryStore.getJob, Dict.get?_set_self]
      intro he
      have hst : JobStatus.running = .queued :=
        h.symm.trans (congrArg Job.status (Option.some.inj he))
      exact absurd hst (by decide)
    · refine Or.inl (InMemoryStore.mem_rearm.mpr ⟨ho, fun m' hm' => ?_⟩)
      obtain rfl := Option.some.inj (hm.symm.trans hm')
      exact hi
  | _ => exact Or.inl ho

/-- Rows are numbered from 1. -/
theorem Effect.numbers {s s' : InMemoryStore} {c : Call} {r : Reply} (h : Effect s c r s')
    (hnext : 0 < s.nextOutboxId) (hrow : ∀ o m, s.outbox.get? o = some m → 0 < o) :
    0 < s'.nextOutboxId ∧ ∀ o m, s'.outbox.get? o = some m → 0 < o := by
  cases h with
  | enqueued ha =>
    refine ⟨hnext.trans (Int.lt_succ _), fun o m hm => ?_⟩
    rw [Dict.get?_set] at hm
    split at hm
    · rename_i he
      exact he ▸ hnext
    · exact hrow o m hm
  | _ => exact ⟨hnext, hrow⟩

/-- A sweep keeps a job that the call does not touch, unless it dead-letters it. -/
theorem Sweep.keeps {sweep : Sweep} {now : Time} {c : Call} {r : Reply} {i : JobId}
    (hc : sweep.call now = some c) (hi : i ∈ sweep.stuck.map StuckJob.jobId)
    (hr : ¬ Touches i c r) (hdead : c ≠ .deadLetter i now) :
    i ∈ (sweep.reply r).stuck.map StuckJob.jobId := by
  obtain ⟨x, stuck, hstuck, ⟨href, rfl⟩ | ⟨href, rfl⟩⟩ := Sweep.call_cases hc
  · simp only [Sweep.reply, hstuck, href]
    rw [hstuck] at hi
    split
    · rename_i heff
      exact (List.mem_cons.mp hi).resolve_left fun he => hr ⟨congrArg some he.symm, heff⟩
    · exact hi
  · have htail : i ∈ stuck.map StuckJob.jobId := by
      rw [hstuck] at hi
      exact (List.mem_cons.mp hi).resolve_left fun he => hdead (he ▸ rfl)
    simp only [Sweep.reply, hstuck, href]
    split
    · exact htail
    · exact htail

namespace System

open Runs Filter

variable {s s' : System} {a : Action} {cfg : Dict String TypeConfig} {i : JobId} {j j' : Job}

/-! ## What a step does to a job -/

/-- A step makes a move of the job, or leaves it alone. -/
theorem Step.job (h : Step s a s') (hs : WellKeyed s.store) (hj : s.store.getJob i = some j) :
    ∃ j', s'.store.getJob i = some j' ∧ (j' = j ∨ ∃ actor c, Makes s a actor c ∧
      s'.store = (exec s.store c).2 ∧ Move s.store.maxAttempts i c (s.reply c) j j') := by
  rcases h.ledger_cases with ⟨he, -⟩ | ⟨actor, c, hc, he, -⟩
  · exact ⟨j, he ▸ hj, Or.inl rfl⟩
  · obtain ⟨j', hj', hm⟩ := (exec_effect c s.store).job hs hj
    exact ⟨j', he ▸ hj', Or.inr ⟨actor, c, hc, he, hm⟩⟩

theorem Step.left_le (h : Step s a s') (hs : WellKeyed s.store) (hj : s.store.getJob i = some j)
    (hj' : s'.store.getJob i = some j') :
    j'.left s.store.maxAttempts + (if j'.status ≠ j.status then 1 else 0) ≤
      j.left s.store.maxAttempts := by
  obtain ⟨k, hk, rfl | ⟨actor, c, -, -, hm⟩⟩ := h.job hs hj
  · obtain rfl := Option.some.inj (hj'.symm.trans hk)
    rw [if_neg (not_not.mpr rfl)]
    exact Nat.le_refl _
  · obtain rfl := Option.some.inj (hj'.symm.trans hk)
    exact hm.left_le

/-- A job that has ended stays as it is. -/
theorem Step.ended_stays (h : Step s a s') (hs : WellKeyed s.store)
    (hj : s.store.getJob i = some j) (ht : j.status ∈ JobStatus.terminal) :
    s'.store.getJob i = some j := by
  obtain ⟨k, hk, rfl | ⟨actor, c, -, -, hm⟩⟩ := h.job hs hj
  · exact hk
  · exact hm.eq_of_terminal ht ▸ hk

/-- A row of the outbox stays there. -/
theorem Step.row (h : Step s a s') (hs : Sane s) {o : OutboxId} {m : OutboxMessage}
    (hm : s.store.outbox.get? o = some m) : s'.store.outbox.get? o = some m := by
  rcases h.ledger_cases with ⟨he, -⟩ | ⟨actor, c, hc, he, -⟩
  · exact he ▸ hm
  · exact he ▸ (exec_effect c s.store).row hs.sound.corresponds hm

theorem Step.typeConfig_eq (h : Step s a s') (ha : ¬ a.Configures) :
    s'.store.typeConfig = s.store.typeConfig := by
  rcases h.store_cases ha with he | ⟨c, hc, he⟩
  · rw [he]
  · rw [he]
    exact (exec_effect c s.store).typeConfig hc

/-! ## A dispatcher -/

/-- A dispatcher that is not stopped keeps a row until it marks it. -/
theorem Step.pending_cases (h : Step s a s') {d : ℕ} {msg : OutboxMessage}
    (hmsg : msg ∈ (s.dispatchers d).messages) (ha : a ≠ .stopDispatcher d) :
    msg ∈ (s'.dispatchers d).messages ∨
      ∃ now, s'.store = s.store.markDispatched msg.id msg.jobId now := by
  have update : ∀ {d' : ℕ} {v : Dispatcher}, (d = d' → msg ∈ v.messages) →
      msg ∈ (Function.update s.dispatchers d' v d).messages := by
    intro d' v hv
    rw [Function.update_apply]
    split
    · rename_i he
      exact hv he
    · exact hmsg
  cases h with
  | dispatch hc =>
    rename_i d' n now c
    by_cases hd : d = d'
    · subst hd
      rcases Dispatcher.call_cases hc with ⟨hd, rfl⟩ | ⟨m, messages, hd, rfl⟩
      · rw [hd] at hmsg
        exact nomatch hmsg
      · rw [hd] at hmsg
        rcases List.mem_cons.mp hmsg with rfl | hmsg
        · exact Or.inr ⟨now, rfl⟩
        · left
          rw [dispatchers_setDispatcher, Dispatcher.reply, hd]
          exact hmsg
    · exact Or.inl (update fun he => absurd he hd)
  | publish hd =>
    refine Or.inl (update fun he => ?_)
    subst he
    rw [hd] at hmsg
    exact hmsg
  | stopDispatcher => exact Or.inl (update fun he => absurd (congrArg _ he.symm) ha)
  | _ => exact Or.inl hmsg

/-- An idle dispatcher fetches. -/
theorem Step.fetches {d : ℕ} {limit : ℤ} {now : Time} (h : Step s (.dispatch d limit now) s')
    (hd : (s.dispatchers d).messages = []) :
    (s'.dispatchers d).messages = s.store.fetchUnpublished limit := by
  cases h with
  | dispatch hc =>
    rcases Dispatcher.call_cases hc with ⟨-, rfl⟩ | ⟨m, messages, hd', -⟩
    · rw [dispatchers_setDispatcher, Dispatcher.reply, hd]
      rfl
    · rw [hd'] at hd
      exact absurd hd (List.cons_ne_nil m messages)

/-- A row that is published stays so while its job stays as it is. -/
theorem Step.keeps_published (h : Step s a s') {o : OutboxId} {m : OutboxMessage}
    (hm : s.store.outbox.get? o = some m) (ho : o ∈ s.store.published) :
    o ∈ s'.store.published ∨ s.store.getJob m.jobId ≠ s'.store.getJob m.jobId := by
  rcases h.ledger_cases with ⟨he, -⟩ | ⟨actor, c, hc, he, -⟩
  · exact Or.inl (he ▸ ho)
  · rw [he]
    exact (exec_effect c s.store).keeps_published hm ho

/-- All rows before row `o` are published. -/
def Clear (o : OutboxId) (s : System) : Prop :=
  ∀ o' < o, ∀ m, s.store.outbox.get? o' = some m → o' ∈ s.store.published

/-- The first unpublished row is fetched. -/
theorem Clear.mem_fetched {o : OutboxId} (hc : Clear o s) {m : OutboxMessage}
    (hm : s.store.outbox.get? o = some m) (ho : o ∉ s.store.published) {limit : ℤ}
    (hl : 0 < limit) : m ∈ s.store.fetchUnpublished limit := by
  obtain ⟨es, hes, hmem, hsorted⟩ := InMemoryStore.unpublished_items s.store
  have hin : (o, m) ∈ es := (hmem (o, m)).mpr ⟨hm, ho⟩
  rw [InMemoryStore.fetchUnpublished_of_nonneg hl.le, hes]
  cases es with
  | nil => exact nomatch hin
  | cons e es =>
    have he : e = (o, m) := by
      refine ((List.mem_cons.mp hin).resolve_right fun htail => ?_).symm
      obtain ⟨hget, hunp⟩ := (hmem e).mp List.mem_cons_self
      exact hunp (hc e.1 (List.rel_of_pairwise_cons hsorted htail) e.2 hget)
    obtain ⟨n, hn⟩ : ∃ n, limit.toNat = n + 1 := ⟨limit.toNat - 1, by omega⟩
    rw [he, hn, List.map_cons, List.take_succ_cons]
    exact List.mem_cons_self

/-! ## Workers that resolve -/

/-- The workers about to resolve the payload of job `i`. -/
def resolvers (s : System) (i : JobId) : Set ℕ :=
  { w | ∃ inv, s.workers w = some inv ∧ inv.stage = .resolve ∧ inv.envelope.jobId = i }

/-- A worker comes to resolve a job by claiming it, which ends its wait. -/
theorem Step.resolvers_subset (h : Step s a s') (hs : WellKeyed s.store)
    (hj : s.store.getJob i = some j) (hwait : ¬ j.Waiting) : s'.resolvers i ⊆ s.resolvers i := by
  rintro w ⟨inv', hw', hst', hi⟩
  have hstep := h.worker w
  rw [hw'] at hstep
  cases hstep with
  | stay hw => exact ⟨inv', hw, hst', hi⟩
  | poll hw hrec hc hnext => exact nomatch hst'
  | work hw hc hv hrelay =>
    cases Invocation.advance hc hv with
    | claimed hst hr =>
      subst hi
      obtain ⟨k, -, hm⟩ := (exec_effect (.claim _ _) s.store).job hs hj
      exact absurd (hm.claimed hr).1 hwait
    | skipped => exact nomatch hst'
    | resolved => exact nomatch hst'
    | unresolved => exact nomatch hst'
    | failed => exact nomatch hst'
    | completed => exact nomatch hst'
  | «local» hw hst hrelay => cases hst <;> exact nomatch hst'

/-- What changes in a job that goes on running, a worker has resolved. -/
theorem Step.resolver_of_ne (h : Step s a s') (hs : WellKeyed s.store)
    (hj : s.store.getJob i = some j) (hj' : s'.store.getJob i = some j') (hst : j.status = .running)
    (hst' : j'.status = .running) (hne : j' ≠ j) : ∃ w ∈ s.resolvers i, w ∉ s'.resolvers i := by
  obtain ⟨k, hk, rfl | ⟨actor, c, hc, -, hm⟩⟩ := h.job hs hj
  · exact absurd (Option.some.inj (hj'.symm.trans hk)) hne
  · obtain rfl := Option.some.inj (hj'.symm.trans hk)
    generalize hr : s.reply c = r at hm
    cases hm with
    | stay hn => exact absurd rfl hne
    | claim hw => exact absurd hw (Job.not_waiting_of_running hst)
    | resolve =>
      obtain ⟨w, now, inv, rfl, hw, hst, hi, -⟩ :=
        hc.of_resolves (i := i) (by rw [hr]; exact decide_eq_true ⟨rfl, rfl⟩)
      refine ⟨w, ⟨inv, hw, hst, hi⟩, ?_⟩
      rintro ⟨inv', hw', hst', -⟩
      cases h with
      | work hw₁ hc₁ =>
      obtain rfl := Option.some.inj (hw.symm.trans hw₁)
      rw [workers_setWorker] at hw'
      cases Invocation.advance hc₁ hw' with
      | claimed hclaim => exact nomatch hst.symm.trans hclaim
      | skipped => exact nomatch hst'
      | resolved => exact nomatch hst'
      | unresolved => exact nomatch hst'
      | failed => exact nomatch hst'
      | completed => exact nomatch hst'
    | _ => exact nomatch hst'

/-- Only finitely many workers are at work. -/
def FewWorkers (s : System) : Prop := { w | s.workers w ≠ none }.Finite

theorem FewWorkers.start (cfg : Dict String TypeConfig) : FewWorkers (start cfg) := by
  refine Set.Finite.subset Set.finite_empty fun w hw => ?_
  exact absurd rfl hw

theorem FewWorkers.of_step (hs : FewWorkers s) (h : Step s a s') : FewWorkers s' := by
  -- one worker more at most
  have update : ∀ {w' : ℕ} {v : Option Invocation},
      { w | Function.update s.workers w' v w ≠ none }.Finite := by
    intro w' v
    refine (Set.Finite.insert w' hs).subset fun w hw => ?_
    by_cases he : w = w'
    · exact Or.inl he
    · refine Or.inr ?_
      rwa [Set.mem_ofPred_eq, Function.update_of_ne he] at hw
  cases h with
  | poll => exact update
  | work => exact update
  | found => exact update
  | unknown => exact update
  | handled => exact update
  | commit => exact update
  | stopWorker => exact update
  | _ => exact hs

/-- What holds in the states of a path besides: few workers, and rows numbered from 1. -/
structure Regular (s : System) : Prop extends Sane s where
  few : FewWorkers s
  next_pos : 0 < s.store.nextOutboxId
  row_pos : ∀ o m, s.store.outbox.get? o = some m → 0 < o

theorem Regular.start (cfg : Dict String TypeConfig) : Regular (start cfg) where
  toSane := .start cfg
  few := .start cfg
  next_pos := Int.one_pos
  row_pos _ _ h := nomatch h

theorem Regular.of_step (hs : Regular s) (h : Step s a s') (hok : MarksLive s a) : Regular s' := by
  have hnumbers : 0 < s'.store.nextOutboxId ∧
      ∀ o m, s'.store.outbox.get? o = some m → 0 < o := by
    rcases h.ledger_cases with ⟨he, -⟩ | ⟨actor, c, hc, he, -⟩
    · rw [he]
      exact ⟨hs.next_pos, hs.row_pos⟩
    · rw [he]
      exact (exec_effect c s.store).numbers hs.next_pos hs.row_pos
  exact ⟨hs.toSane.of_step h hok, hs.few.of_step h, hnumbers.1, hnumbers.2⟩

/-- After an attempt to claim it, a job does not wait. -/
theorem Step.not_waiting (h : Step s a s') (ht : s.Tries a i) (hj' : s'.store.getJob i = some j') :
    ¬ j'.Waiting := by
  obtain ⟨w, now, inv, rfl, hw, hst, rfl⟩ := ht
  cases h with
  | work hw' hc =>
    obtain rfl := Option.some.inj (hw.symm.trans hw')
    rw [Invocation.call, hst] at hc
    obtain rfl := Option.some.inj hc
    exact not_waiting_of_claim hj'

/-! ## A sweep -/

/-- Reaper `k` has job `i` still to do. -/
def Awaits (s : System) (k : ℕ) (i : JobId) : Prop :=
  ∃ sweep, s.reapers k = some sweep ∧ i ∈ sweep.stuck.map StuckJob.jobId

/-- A `reap_once` starts with a listing. -/
theorem Step.lists {k : ℕ} {now : Time} (h : Step s (.find k now) s') :
    ∃ sweep, s'.reapers k = some sweep ∧ sweep.stuck = s.store.findStuck now := by
  cases h with
  | find hk => exact ⟨_, reapers_setReaper .., rfl⟩

/-- A sweep that is not stopped keeps a running job until it has ended its run. -/
theorem Step.awaits (h : Step s a s') (hs : WellKeyed s.store) {k : ℕ} (hk : s.Awaits k i)
    (ha : a ≠ .stopReaper k) (hrun : s.status i = some .running)
    (hrun' : s'.status i = some .running) : s'.Awaits k i := by
  obtain ⟨sweep, hk, hmem⟩ := hk
  have update : ∀ {k' : ℕ} {v : Option Sweep},
      (k = k' → ∃ sweep', v = some sweep' ∧ i ∈ sweep'.stuck.map StuckJob.jobId) →
      ∃ sweep', Function.update s.reapers k' v k = some sweep' ∧
        i ∈ sweep'.stuck.map StuckJob.jobId := by
    intro k' v hv
    rw [Function.update_apply]
    split
    · rename_i he
      exact hv he
    · exact ⟨sweep, hk, hmem⟩
  cases h with
  | find hk' =>
    refine update fun he => ?_
    subst he
    exact nomatch hk.symm.trans hk'
  | reap hk' hc =>
    refine update fun he => ⟨_, rfl, ?_⟩
    subst he
    obtain rfl := Option.some.inj (hk.symm.trans hk')
    have hspared := fun ht => not_running_of_reap hs hc ht hrun'
    refine Sweep.keeps hc hmem hspared ?_
    -- a running job would be dead-lettered
    rintro rfl
    obtain ⟨j, hj, hst⟩ := Option.map_eq_some_iff.mp hrun
    refine hspared ⟨rfl, ?_⟩
    rw [reply, exec, InMemoryStore.deadLetter,
      InMemoryStore.guardedUpdate_pass hj (decide_eq_true hst)]
    rfl
  | stopReaper => exact update fun he => absurd (congrArg _ he.symm) ha
  | _ => exact ⟨sweep, hk, hmem⟩

/-! ## Fair runs -/

/-- At time `n` some dispatcher starts a `dispatch_once` with room in its batch, and it is not
stopped before it has gone through the batch. -/
def Dispatches (p : Path step) (n : ℕ) : Prop := ∃ d limit now m, 0 < limit ∧
  p.act n = .dispatch d limit now ∧ ((p.state n).dispatchers d).messages = [] ∧ n < m ∧
  ((p.state m).dispatchers d).messages = [] ∧ ∀ k, n < k → k < m → p.act k ≠ .stopDispatcher d

/-- At time `n`, and past time `t` of its clock, some reaper starts a `reap_once`, and it is not
stopped before it has gone through its listing. -/
def Reaps (p : Path step) (t : Time) (n : ℕ) : Prop := ∃ r now m, t < now ∧
  p.act n = .find r now ∧ n < m ∧ (∃ sweep, (p.state m).reapers r = some sweep ∧ sweep.stuck = []) ∧
  ∀ k, n < k → k < m → p.act k ≠ .stopReaper r

/-- A worker makes its claim with the message at the offset. -/
def TriesAt (s : System) (a : Action) (offset : ℕ) : Prop := ∃ w now inv, a = .work w now ∧
  s.workers w = some inv ∧ inv.stage = .claim ∧ inv.offset = offset

/-- **A fair run**: from some time on nobody configures, the dispatchers and the reapers come to the
ends of their rounds over and over, and every message is tried until it is committed. -/
structure Fair (p : Path step) : Prop where
  fixed : ∀ᶠ n in atTop, ¬ (p.act n).Configures
  dispatches : ∃ᶠ n in atTop, Dispatches p n
  delivers : ∀ n, ∀ offset < (p.state n).produced.length, ∃ m ≥ n,
    offset ∈ (p.state m).committed ∨ TriesAt (p.state m) (p.act m) offset
  reaps : ∀ t, ∃ᶠ n in atTop, Reaps p t n

section Path

variable {p : Path step} (hs : ∀ n, Regular (p.state n)) (hfair : Fair p) {o : OutboxId}
  {m : OutboxMessage} {n : ℕ}

/-- No message is taken back. -/
theorem produced_length_mono (p : Path step) : Monotone fun n => (p.state n).produced.length :=
  monotone_nat_of_le_succ fun n => (step_cases (p.next n)).produced_length_le

theorem typeConfig_stays (hfixed : ∀ k ≥ n, ¬ (p.act k).Configures) :
    ∀ k ≥ n, (p.state k).store.typeConfig = (p.state n).store.typeConfig :=
  fun _ => Nat.le_induction rfl
    (fun k hk h => ((step_cases (p.next k)).typeConfig_eq (hfixed k hk)).trans h) _

include hs

/-- A row stays in the outbox. -/
theorem row_stays (hm : (p.state n).store.outbox.get? o = some m) :
    ∀ k ≥ n, (p.state k).store.outbox.get? o = some m :=
  fun _ => Nat.le_induction hm (fun k _ => (step_cases (p.next k)).row (hs k).toSane) _

/-- A job that has ended stays as it is. -/
theorem ended_stays (hj : (p.state n).store.getJob i = some j)
    (ht : j.status ∈ JobStatus.terminal) : ∀ k ≥ n, (p.state k).store.getJob i = some j :=
  fun _ => Nat.le_induction hj
    (fun k _ h => (step_cases (p.next k)).ended_stays (hs k).sound.wellKeyed h ht) _

theorem job_stays (hj : (p.state n).store.getJob i = some j) :
    ∀ k ≥ n, ∃ j', (p.state k).store.getJob i = some j' := by
  intro k hk
  induction k, hk using Nat.le_induction with
  | base => exact ⟨j, hj⟩
  | succ k hk ih =>
    obtain ⟨jk, hjk⟩ := ih
    obtain ⟨j', hj', -⟩ := (step_cases (p.next k)).job (hs k).sound.wellKeyed hjk
    exact ⟨j', hj'⟩

/-- **The status of a job settles.** -/
theorem status_settles (hfixed : ∀ k ≥ n, ¬ (p.act k).Configures)
    (hj : (p.state n).store.getJob i = some j) :
    ∃ m ≥ n, ∃ st, ∀ k ≥ m, (p.state k).status i = some st := by
  -- with the configuration, the caps are fixed
  let cap := (p.state n).store.maxAttempts
  have hcap : ∀ k ≥ n, (p.state k).store.maxAttempts = cap := by
    intro k hk
    funext t
    rw [InMemoryStore.maxAttempts, typeConfig_stays hfixed k hk]
    rfl
  have hthere := job_stays hs hj
  let left (k : ℕ) : ℕ := (((p.state k).store.getJob i).map fun j => j.left cap).getD 0
  have hleft : ∀ k ≥ n, left (k + 1) ≤ left k ∧
      (left (k + 1) = left k → (p.state (k + 1)).status i = (p.state k).status i) := by
    intro k hk
    obtain ⟨jk, hjk⟩ := hthere k hk
    obtain ⟨jk', hjk'⟩ := hthere (k + 1) (Nat.le_succ_of_le hk)
    have hle := (step_cases (p.next k)).left_le (hs k).sound.wellKeyed hjk hjk'
    rw [hcap k hk] at hle
    simp only [left, status, hjk, hjk', Option.map_some, Option.getD_some]
    refine ⟨Nat.le_of_add_right_le hle, fun heq => congrArg some ?_⟩
    by_contra hne
    rw [if_pos hne] at hle
    omega
  obtain ⟨m, hm, hsame⟩ := settles fun k hk => (hleft k hk).1
  obtain ⟨jm, hjm⟩ := hthere m hm
  refine ⟨m, hm, jm.status, fun k hk => ?_⟩
  induction k, hk using Nat.le_induction with
  | base => rw [status, hjm, Option.map_some]
  | succ k hk ih =>
    rw [(hleft k (Nat.le_trans hm hk)).2 ((hsame _ (Nat.le_succ_of_le hk)).trans (hsame k hk).symm)]
    exact ih

/-- **The record of a job that goes on running settles.** -/
theorem record_settles (hrun : ∀ k ≥ n, (p.state k).status i = some .running) :
    ∃ m ≥ n, ∃ j, j.status = .running ∧ ∀ k ≥ m, (p.state k).store.getJob i = some j := by
  have hjob : ∀ k ≥ n, ∃ j, (p.state k).store.getJob i = some j ∧ j.status = .running :=
    fun k hk => Option.map_eq_some_iff.mp (hrun k hk)
  have hsub : ∀ k ≥ n, (p.state (k + 1)).resolvers i ⊆ (p.state k).resolvers i := by
    intro k hk
    obtain ⟨j, hj, hst⟩ := hjob k hk
    exact (step_cases (p.next k)).resolvers_subset (hs k).sound.wellKeyed hj
      (Job.not_waiting_of_running hst)
  have hfin : ∀ k, ((p.state k).resolvers i).Finite := by
    refine fun k => (hs k).few.subset fun w hw => ?_
    obtain ⟨inv, hw, -⟩ := hw
    exact Option.ne_none_iff_exists'.mpr ⟨inv, hw⟩
  -- from time `m` on nobody resolves
  obtain ⟨m, hm, hsame⟩ := settles (f := fun k => ((p.state k).resolvers i).ncard) fun k hk =>
    Set.ncard_le_ncard (hsub k hk) (hfin k)
  obtain ⟨j, hj, hst⟩ := hjob m hm
  refine ⟨m, hm, j, hst, fun k hk => ?_⟩
  induction k, hk using Nat.le_induction with
  | base => exact hj
  | succ k hk ih =>
    obtain ⟨j', hj', hst'⟩ := hjob (k + 1) (Nat.le_succ_of_le (Nat.le_trans hm hk))
    by_cases hne : j' = j
    · exact hne ▸ hj'
    · obtain ⟨w, hw, hw'⟩ :=
        (step_cases (p.next k)).resolver_of_ne (hs k).sound.wellKeyed ih hj' hst hst' hne
      refine absurd ((hsame (k + 1) (Nat.le_succ_of_le hk)).trans (hsame k hk).symm) ?_
      exact (Set.ncard_lt_ncard ⟨hsub k (Nat.le_trans hm hk), fun hle => hw' (hle hw)⟩
        (hfin k)).ne

include hfair

/-- **The first unpublished row is marked in the end.** -/
theorem row_marked (hclear : ∀ k ≥ n, Clear o (p.state k))
    (hm : (p.state n).store.outbox.get? o = some m) :
    ∃ k ≥ n, o ∈ (p.state k).store.published := by
  by_contra hno
  have hunp : ∀ k ≥ n, o ∉ (p.state k).store.published := fun k hk ho => hno ⟨k, hk, ho⟩
  have hrow := row_stays hs hm
  obtain ⟨k, hk, d, limit, now, l, hl, hact, hidle, hkl, hdone, hstop⟩ :=
    frequently_atTop.mp hfair.dispatches n
  -- it is fetched at time `k`, and the batch is gone through at time `l`
  have hstart : m ∈ ((p.state (k + 1)).dispatchers d).messages := by
    have h := step_cases (p.next k)
    rw [hact] at h
    rw [h.fetches hidle]
    exact (hclear k hk).mem_fetched (hrow k hk) (hunp k hk) hl
  obtain ⟨x, hx, hxl, now', hmark⟩ := comes_to
    (P := fun x => m ∈ ((p.state x).dispatchers d).messages)
    (Q := fun x => ∃ now, (p.state (x + 1)).store =
      (p.state x).store.markDispatched m.id m.jobId now) hkl hstart
    (fun x hx hxl hmsg => (step_cases (p.next x)).pending_cases hmsg (hstop x hx hxl))
    (by rw [hdone]; exact List.not_mem_nil)
  obtain rfl := (hs n).sound.corresponds.row_id o m hm
  have hp := (InMemoryStore.markDispatched_spec m now' (p.state x).store).2.1
  refine hunp (x + 1) (by omega) ?_
  rw [hmark, hp]
  exact Finset.mem_insert_self _ _

/-- A job is not queued for ever, once its row is the first. -/
theorem not_queued (hclear : ∀ k ≥ n, Clear o (p.state k))
    (hm : (p.state n).store.outbox.get? o = some m)
    (hst : ∀ k ≥ n, (p.state k).status m.jobId = some .queued) : False := by
  obtain ⟨k, hk, ho⟩ := row_marked hs hfair hclear hm
  obtain ⟨j, hj, hq⟩ := Option.map_eq_some_iff.mp (hst k hk)
  exact (hs k).sound.corresponds.queued_unpublished o m j
    (row_stays hs hm k hk) hj hq ho

/-- A job is not dispatched for ever: its message is tried. -/
theorem not_dispatched (hst : ∀ k ≥ n, (p.state k).status i = some .dispatched) : False := by
  have hjob : ∀ k ≥ n, ∃ j, (p.state k).store.getJob i = some j ∧ j.status = .dispatched :=
    fun k hk => Option.map_eq_some_iff.mp (hst k hk)
  have hnot : ∀ k ≥ n, ¬ (p.state k).Tries (p.act k) i := by
    intro k hk htries
    obtain ⟨j, hj, hq⟩ := hjob (k + 1) (Nat.le_succ_of_le hk)
    refine (step_cases (p.next k)).not_waiting htries hj ?_
    rw [Job.Waiting, hq]
    decide
  -- its message is live as long as that
  obtain ⟨j, hj, hq⟩ := hjob n (Nat.le_refl n)
  obtain ⟨offset, hlive⟩ := (hs n).dispatchedLive i j hj hq
  have hlive : ∀ k ≥ n, (p.state k).LiveAt i offset := by
    intro k hk
    induction k, hk using Nat.le_induction with
    | base => exact hlive
    | succ k hk ih =>
      exact (ih.of_step (hs k).delivered (step_cases (p.next k))).resolve_right (hnot k hk)
  obtain ⟨rec, hrec, hi⟩ := (hlive n (Nat.le_refl n)).1.message
  obtain ⟨k, hk, hc | ⟨w, now, inv, hact, hw, hclaim, rfl⟩⟩ :=
    hfair.delivers n offset (List.getElem?_eq_some_iff.mp hrec).1
  · exact (hlive k hk).1.uncommitted hc
  · obtain ⟨rec, hrec, hi⟩ := (hlive k hk).1.message
    obtain ⟨rec', hrec', hmsg⟩ := (hs k).delivered w inv hw
    obtain rfl := Option.some.inj (hrec.symm.trans hrec')
    exact hnot k hk ⟨w, now, inv, hact, hw, hclaim, by rw [← hmsg]; exact hi⟩

/-- A job is not running for ever: it grows old, and is listed. -/
theorem not_running (hfixed : ∀ k ≥ n, ¬ (p.act k).Configures)
    (hst : ∀ k ≥ n, (p.state k).status i = some .running) : False := by
  obtain ⟨m, hm, j, hrun, hjob⟩ := record_settles hs hst
  obtain ⟨k, hk, r, now, l, hlate, hact, hkl, ⟨sweep, hsweep, hdone⟩, hstop⟩ :=
    frequently_atTop.mp (hfair.reaps (j.updatedAt + (p.state n).store.timeout j.jobType)) m
  have hlisted : i ∈ ((p.state k).store.findStuck now).map StuckJob.jobId := by
    refine List.mem_map.mpr ⟨⟨j.id, j.jobType, j.attempts⟩, ?_,
      (hs k).sound.wellKeyed.id_eq i j (hjob k hk)⟩
    refine InMemoryStore.mem_findStuck.mpr ⟨i, j, hjob k hk, hrun, ?_, rfl⟩
    rw [InMemoryStore.timeout, typeConfig_stays hfixed k (Nat.le_trans hm hk)]
    exact lt_sub_iff_add_lt'.mpr hlate
  have hstart : (p.state (k + 1)).Awaits r i := by
    have h := step_cases (p.next k)
    rw [hact] at h
    obtain ⟨sweep, hr, hstuck⟩ := h.lists
    exact ⟨sweep, hr, hstuck ▸ hlisted⟩
  obtain ⟨_, _, _, hfalse⟩ := comes_to (P := fun x => (p.state x).Awaits r i)
    (Q := fun _ => False) hkl hstart
    (fun x hx hxl hawait => Or.inl ((step_cases (p.next x)).awaits (hs x).sound.wellKeyed hawait
      (hstop x hx hxl) (hst x (by omega)) (hst (x + 1) (by omega)))) (by
        rintro ⟨sweep', hr, hi⟩
        obtain rfl := Option.some.inj (hsweep.symm.trans hr)
        rw [hdone] at hi
        exact List.not_mem_nil hi)
  exact hfalse

/-- **A job ends, once the rows before its own are published for good.** -/
theorem job_ends (hclear : ∀ᶠ k in atTop, Clear o (p.state k))
    (hm : (p.state n).store.outbox.get? o = some m) :
    ∃ j, j.status ∈ JobStatus.terminal ∧
      ∀ᶠ k in atTop, (p.state k).store.getJob m.jobId = some j := by
  obtain ⟨N, hN⟩ := eventually_atTop.mp (hclear.and (hfair.fixed.and (eventually_ge_atTop n)))
  have hrow := row_stays hs hm
  obtain ⟨j, hj, -⟩ := (hs N).sound.corresponds.row_job o m (hrow N (hN N le_rfl).2.2)
  obtain ⟨M, hM, st, hst⟩ := status_settles hs (fun k hk => (hN k hk).2.1) hj
  have hterminal : st ∈ JobStatus.terminal := by
    cases st with
    | queued =>
      exact (not_queued hs hfair (fun k hk => (hN k (hM.le.trans hk)).1)
        (hrow M (hN M hM).2.2) hst).elim
    | dispatched => exact (not_dispatched hs hfair hst).elim
    | running =>
      exact (not_running hs hfair (fun k hk => (hN k (hM.le.trans hk)).2.1) hst).elim
    | completed => decide
    | failed => decide
  obtain ⟨j', hj', rfl⟩ := Option.map_eq_some_iff.mp (hst M le_rfl)
  exact ⟨j', hterminal, eventually_atTop.mpr ⟨M, ended_stays hs hj' hterminal⟩⟩

/-- A row comes to be published for good, once the rows before it are. -/
theorem row_published (hclear : ∀ᶠ k in atTop, Clear o (p.state k)) :
    ∀ᶠ k in atTop, ∀ m, (p.state k).store.outbox.get? o = some m →
      o ∈ (p.state k).store.published := by
  by_cases hrow : ∃ n m, (p.state n).store.outbox.get? o = some m
  · obtain ⟨n, m, hm⟩ := hrow
    have hrow := row_stays hs hm
    obtain ⟨j, -, hend⟩ := job_ends hs hfair hclear hm
    obtain ⟨N, hN⟩ := eventually_atTop.mp (hclear.and (hend.and (eventually_ge_atTop n)))
    obtain ⟨M, hM, hp⟩ := row_marked hs hfair (fun k hk => (hN k hk).1) (hrow N (hN N le_rfl).2.2)
    refine eventually_atTop.mpr ⟨M, fun k hk m' hm' => ?_⟩
    clear hm'
    induction k, hk using Nat.le_induction with
    | base => exact hp
    | succ k hk ih =>
      have hkN : k ≥ N := le_trans hM hk
      refine ((step_cases (p.next k)).keeps_published (hrow k (hN k hkN).2.2) ih).resolve_right ?_
      exact fun hne => hne ((hN k hkN).2.1.trans (hN (k + 1) (Nat.le_succ_of_le hkN)).2.1.symm)
  · exact Eventually.of_forall fun k m hm => absurd ⟨k, m, hm⟩ hrow

/-- Every row comes to be the first. -/
theorem clear (o : OutboxId) : ∀ᶠ k in atTop, Clear o (p.state k) := by
  have upto : ∀ x : ℕ, ∀ᶠ k in atTop, Clear (x + 1) (p.state k) := by
    intro x
    induction x with
    | zero =>
      refine Eventually.of_forall fun k o' ho m hm => ?_
      exact absurd (Int.lt_add_one_iff.mp ho) ((hs k).row_pos o' m hm).not_ge
    | succ x ih =>
      filter_upwards [ih, row_published hs hfair ih] with k hclear hrow o' ho m hm
      by_cases heq : o' = x + 1
      · exact heq ▸ hrow m (heq ▸ hm)
      · have hle : o' ≤ x + 1 := (Int.lt_add_one_iff.mp ho).trans_eq (Nat.cast_succ x)
        exact hclear o' (lt_of_le_of_ne hle heq) m hm
  filter_upwards [upto o.toNat] with k hclear o' ho m hm
  exact hclear o' (ho.trans (Int.lt_add_one_iff.mpr (Int.self_le_toNat o))) m hm

end Path

/-! ## A fair run -/

/-- A dispatcher sends the job off, and a worker takes it to its end. -/
def served : List Action :=
  [.dispatch 0 10 1, .publish 0, .dispatch 0 10 1, .poll 0 0, .work 0 2, .work 0 3,
    .lookup 0 true, .handled 0 false, .work 0 4, .commit 0]

/-- After that a dispatcher and the reapers go on, a fresh reaper each time. -/
def vigil (n : ℕ) : Action :=
  served[n]?.getD (if n % 2 = 0 then .dispatch 0 1 0 else .find n n)

/-- The job is enqueued. -/
def enqueuedHello : System :=
  (start helloConfig).perform .producer (.enqueue "hello" none none 0 0)

/-- There is nothing to do, and the reapers from `n` on are fresh. -/
structure Quiet (s : System) (n : ℕ) : Prop where
  idle : s.dispatchers 0 = .idle
  fresh : ∀ k ≥ n, s.reapers k = none
  published : s.store.fetchUnpublished 1 = []
  stuck : ∀ t, s.store.findStuck t = []
  committed : ∀ offset < s.produced.length, offset ∈ s.committed

theorem vigil_eq {n : ℕ} (h : 10 ≤ n) :
    vigil n = if n % 2 = 0 then .dispatch 0 1 0 else .find n n := by
  rw [vigil, List.getElem?_eq_none h]
  rfl

theorem Quiet.of_same {n : ℕ} (hs : Quiet s n) (hrelay : s'.store = s.store)
    (hproduced : s'.produced = s.produced) (hcommitted : s'.committed = s.committed)
    (hidle : s'.dispatchers 0 = .idle) (hfresh : ∀ k ≥ n + 1, s'.reapers k = none) :
    Quiet s' (n + 1) := by
  refine ⟨hidle, hfresh, ?_, ?_, ?_⟩
  · rw [hrelay]
    exact hs.published
  · rw [hrelay]
    exact hs.stuck
  · rw [hproduced, hcommitted]
    exact hs.committed

theorem Quiet.dispatch {n : ℕ} (hs : Quiet s n) : ∃ s', s.step (.dispatch 0 1 0) = some s' ∧
    Quiet s' (n + 1) := by
  refine ⟨(s.perform (.dispatcher 0) (.fetchUnpublished 1)).setDispatcher 0
    (Dispatcher.idle.reply (s.reply (.fetchUnpublished 1))), ?_, hs.of_same rfl rfl rfl ?_
    fun k hk => hs.fresh k (Nat.le_of_succ_le hk)⟩
  · rw [System.step, hs.idle]
    rfl
  · rw [dispatchers_setDispatcher]
    exact congrArg (fun messages => (⟨messages, false⟩ : Dispatcher)) hs.published

theorem Quiet.find {n : ℕ} (hs : Quiet s n) : ∃ s', s.step (.find n n) = some s' ∧
    Quiet s' (n + 1) := by
  refine ⟨{ s.perform (.reaper s.nextSweep) (.findStuck n) with
      nextSweep := s.nextSweep + 1 }.setReaper n
    (some ⟨s.nextSweep, s.store.findStuck n, false, ⟨0, 0⟩⟩), ?_,
    hs.of_same rfl rfl rfl hs.idle fun k hk => ?_⟩
  · rw [System.step, hs.fresh n (Nat.le_refl n)]
  · exact (Function.update_of_ne (Nat.ne_of_gt hk) _ _).trans (hs.fresh k (Nat.le_of_succ_le hk))

theorem Quiet.step {n : ℕ} (hs : Quiet s n) (h : 10 ≤ n) :
    ∃ s', s.step (vigil n) = some s' ∧ Quiet s' (n + 1) := by
  rw [vigil_eq h]
  split
  · exact hs.dispatch
  · exact hs.find

/-- The states of the vigil. -/
def vigilState : ℕ → System := trace step enqueuedHello vigil

theorem quiet_served : Quiet (vigilState 10) 10 where
  idle := rfl
  fresh _ _ := rfl
  published := rfl
  stuck _ := rfl
  committed := by decide

theorem quiet_vigil : ∀ n ≥ 10, Quiet (vigilState n) n := by
  intro n hn
  induction n, hn using Nat.le_induction with
  | base => exact quiet_served
  | succ n hn ih =>
    obtain ⟨s', hs', hq⟩ := ih.step hn
    have he : vigilState (n + 1) = s' := by
      rw [vigilState, trace]
      exact congrArg (Option.getD · _) hs'
    exact he ▸ hq

theorem vigil_enabled (n : ℕ) : (step (vigilState n) (vigil n)).isSome := by
  by_cases hn : 10 ≤ n
  · obtain ⟨s', hs', -⟩ := (quiet_vigil n hn).step hn
    rw [hs']
    rfl
  · interval_cases n <;> rfl

/-- The job is served, and the components go on. -/
def vigilPath : Path step := .follow step enqueuedHello vigil vigil_enabled

theorem vigil_marksLive (n : ℕ) : MarksLive (vigilPath.state n) (vigilPath.act n) := by
  rintro d n' now msg messages hact hd -
  change vigil n = _ at hact
  by_cases hn : 10 ≤ n
  · rw [vigil_eq hn] at hact
    split at hact
    · obtain ⟨rfl, -, -⟩ := Action.dispatch.inj hact
      exact nomatch (quiet_vigil n hn).idle.symm.trans hd
    · exact nomatch hact
  · interval_cases n
    · obtain ⟨rfl, -, -⟩ := Action.dispatch.inj hact
      exact nomatch congrArg Dispatcher.messages hd
    · exact nomatch hact
    · -- the message is at offset 0, and nobody has it
      obtain ⟨rfl, -, -⟩ := Action.dispatch.inj hact
      obtain ⟨rfl, -⟩ := List.cons.inj (congrArg Dispatcher.messages hd)
      exact ⟨0, ⟨⟨_, rfl, rfl⟩, by decide⟩, fun _ _ (hw : none = some _) => nomatch hw⟩
    all_goals exact nomatch hact

theorem fair_vigil : Fair vigilPath where
  fixed := by
    refine eventually_atTop.mpr ⟨10, fun n hn => ?_⟩
    change ¬ (vigil n).Configures
    rw [vigil_eq hn]
    split
    · exact not_false
    · exact not_false
  dispatches := by
    refine frequently_atTop.mpr fun n => ⟨2 * (n + 5), by omega, 0, 1, 0, 2 * (n + 5) + 1, ?_⟩
    have hidle : ∀ m ≥ 10, ((vigilPath.state m).dispatchers 0).messages = [] := fun m hm =>
      congrArg Dispatcher.messages (quiet_vigil m hm).idle
    refine ⟨Int.one_pos, ?_, hidle _ (by omega), Nat.lt_succ_self _, hidle _ (by omega),
      fun k hk hk' => absurd hk (by omega)⟩
    have hact : vigil (2 * (n + 5)) = _ := vigil_eq (by omega)
    exact hact.trans (if_pos (by omega))
  delivers n offset ho := by
    refine ⟨max n 10, le_max_left n 10, Or.inl ?_⟩
    refine (quiet_vigil _ (le_max_right n 10)).committed offset (ho.trans_le ?_)
    exact produced_length_mono vigilPath (le_max_left n 10)
  reaps t := by
    refine frequently_atTop.mpr fun n => ⟨2 * (n + t.toNat + 5) + 1, by omega, ?_⟩
    generalize hk : 2 * (n + t.toNat + 5) + 1 = k
    have hact : vigil k = .find k k := (vigil_eq (by omega)).trans (if_neg (by omega))
    have hstep := vigilPath.next k
    rw [show vigilPath.act k = .find k k from hact] at hstep
    obtain ⟨sweep, hsweep, hstuck⟩ := (step_cases hstep).lists
    refine ⟨k, k, k + 1, ?_, hact, Nat.lt_succ_self k, ⟨sweep, hsweep, ?_⟩,
      fun l hl hl' => absurd hl (by omega)⟩
    · have hlt : ∀ t : ℤ, 2 * (n + t.toNat + 5) + 1 = k → t < k := fun _ _ => by omega
      exact hlt t hk
    · exact hstuck.trans ((quiet_vigil k (by omega)).stuck k)

theorem enqueuedHello_marksLive :
    Along step MarksLive (start helloConfig) [.enqueue "hello" none none 0 0] :=
  ⟨marksLive_of_ne (by simp), fun _ _ => trivial⟩

/-! ## Every job ends -/

section Main

variable {p : Path step} {as : List Action} {n : ℕ}

/-- What holds along a path whose marks find live messages. -/
theorem regular (hrun : run step (start cfg) as = some (p.state 0))
    (hok : Along step MarksLive (start cfg) as) (hmarks : ∀ n, MarksLive (p.state n) (p.act n)) :
    ∀ n, Regular (p.state n) :=
  Path.always (Runs.invariant (I := Regular) (fun _ _ _ hs ha h => hs.of_step (step_cases h) ha) as
    (start cfg) (.start cfg) hok hrun) (fun _ _ _ hs ha h => hs.of_step (step_cases h) ha) hmarks

/-- **No row starves**: in a fair run whose marks of queued jobs find a live message, every outbox
row comes to be published for good, whatever is enqueued in the meantime. -/
theorem fair_rows_published (hrun : run step (start cfg) as = some (p.state 0))
    (hok : Along step MarksLive (start cfg) as) (hmarks : ∀ n, MarksLive (p.state n) (p.act n))
    (hfair : Fair p) {o : OutboxId} {m : OutboxMessage}
    (hm : (p.state n).store.outbox.get? o = some m) :
    ∀ᶠ k in atTop, o ∈ (p.state k).store.published := by
  have hs := regular hrun hok hmarks
  filter_upwards [row_published hs hfair (clear hs hfair o), eventually_ge_atTop n] with k hp hk
  exact hp m (row_stays hs hm k hk)

/-- Its row is unpublished at first. -/
theorem fair_rows_published_vigil : 1 ∉ (vigilPath.state 0).store.published ∧
    ∀ᶠ k in atTop, 1 ∈ (vigilPath.state k).store.published := by
  obtain ⟨m, hm⟩ : ∃ m, (vigilPath.state 0).store.outbox.get? 1 = some m := ⟨_, rfl⟩
  have hrun : run step (start helloConfig) [.enqueue "hello" none none 0 0] =
      some (vigilPath.state 0) := rfl
  exact ⟨by decide,
    fair_rows_published hrun enqueuedHello_marksLive vigil_marksLive fair_vigil hm⟩

/-- **Every job ends**: in a fair run whose marks of queued jobs find a live message, every job
comes to a terminal status and stays as it is then. -/
theorem fair_jobs_end (hrun : run step (start cfg) as = some (p.state 0))
    (hok : Along step MarksLive (start cfg) as) (hmarks : ∀ n, MarksLive (p.state n) (p.act n))
    (hfair : Fair p) (hj : (p.state n).store.getJob i = some j) :
    ∃ j', j'.status ∈ JobStatus.terminal ∧
      ∀ᶠ k in atTop, (p.state k).store.getJob i = some j' := by
  have hs := regular hrun hok hmarks
  obtain ⟨o, m, hm, rfl⟩ := (hs n).sound.corresponds.job_row i j hj
  exact job_ends hs hfair (clear hs hfair o) hm

/-- The job is queued at first. -/
theorem fair_jobs_end_vigil : (vigilPath.state 0).status 1 = some .queued ∧
    ∃ j, j.status ∈ JobStatus.terminal ∧
      ∀ᶠ k in atTop, (vigilPath.state k).store.getJob 1 = some j := by
  obtain ⟨j, hj⟩ : ∃ j, (vigilPath.state 0).store.getJob 1 = some j := ⟨_, rfl⟩
  have hrun : run step (start helloConfig) [.enqueue "hello" none none 0 0] =
      some (vigilPath.state 0) := rfl
  exact ⟨rfl, fair_jobs_end hrun enqueuedHello_marksLive vigil_marksLive fair_vigil hj⟩

end Main

end System

end JobWorkflow
