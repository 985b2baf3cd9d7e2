import JobWorkflow.Dispatcher.Draining
import JobWorkflow.System.Stranding
import JobWorkflow.System.Sweeps

/-!
# System/Recovery — the components can always finish

In a run whose marks of queued jobs find a live message, no reachable state is a dead end: however
the components were delayed or stopped, one fresh dispatcher, one fresh worker and one fresh reaper
can still bring every job to its end, with nobody else taking a step and from any reading of the
clock on, which does not run backwards.

* `waiting_completes` — a queued or dispatched job of a configured type can be completed, on the
  overlay of its input on the configuration as it stands.
* `all_jobs_end` — all jobs together can be brought to a terminal status.
-/

namespace JobWorkflow

/-- A call on another job leaves the job alone. -/
theorem Move.eq_of_target {cap : String → ℤ} {i k : JobId} {c : Call} {r : Reply} {j j' : Job}
    (h : Move cap i c r j j') (hk : c.target = some k) (hne : k ≠ i) : j' = j := by
  cases h with
  | stay => rfl
  | dispatch => exact nomatch hk
  | _ => exact absurd (Option.some.inj hk).symm hne

namespace System

open Runs

variable {s s' s'' : System} {a : Action} {t t' t'' : Time} {cfg : Dict String TypeConfig}
  {i : JobId} {j : Job}

@[simp] theorem workers_setWorker (s : System) (w : ℕ) (v : Option Invocation) :
    (s.setWorker w v).workers w = v := by simp [setWorker]

@[simp] theorem dispatchers_setDispatcher (s : System) (d : ℕ) (v : Dispatcher) :
    (s.setDispatcher d v).dispatchers d = v := by simp [setDispatcher]

@[simp] theorem reapers_setReaper (s : System) (k : ℕ) (v : Option Sweep) :
    (s.setReaper k v).reapers k = v := by simp [setReaper]

/-! ## Driving the machine -/

/-- The action is a component's: it brings in no new run and no new configuration, and its limit is
not negative. -/
def Action.OfComponents : Action → Prop
  | .enqueue _ _ _ _ _ | .configure _ _ _ _ => False
  | .dispatch _ batchSize _ => 0 ≤ batchSize
  | _ => True

/-- A clock that never goes back is read from `t` on, and is at `t'` in the end. -/
structure Clocked (t t' : Time) (as : List Action) : Prop where
  le : t ≤ t'
  timely : Timely as
  between : ∀ u ∈ as.flatMap Action.readings, t ≤ u ∧ u ≤ t'

theorem Clocked.append {as bs : List Action} (h : Clocked t t' as) (h' : Clocked t' t'' bs) :
    Clocked t t'' (as ++ bs) := by
  refine ⟨h.le.trans h'.le, ?_, fun u hu => ?_⟩
  · rw [Timely, List.flatMap_append]
    exact List.pairwise_append.mpr ⟨h.timely, h'.timely, fun u hu v hv =>
      (h.between u hu).2.trans (h'.between v hv).1⟩
  · rw [List.flatMap_append] at hu
    exact (List.mem_append.mp hu).elim
      (fun hu => (h.between u hu).imp_right fun hle => hle.trans h'.le)
      (fun hu => (h'.between u hu).imp_left fun hle => h.le.trans hle)

/-- Only a dispatcher marks. -/
theorem marksLive_of_ne (h : ∀ d n now, a ≠ .dispatch d n now) : MarksLive s a :=
  fun d n now _ _ he => absurd he (h d n now)

/-- The components can take the machine from `s` to `s'`, marking queued jobs only where a message
is live, while the clock goes from `t` to `t'`. -/
def Drives (t t' : Time) (s s' : System) : Prop := ∃ as : List Action,
  (∀ a ∈ as, a.OfComponents) ∧ Clocked t t' as ∧ run step s as = some s' ∧ Along step MarksLive s as

namespace Drives

theorem wait (h : t ≤ t') (s : System) : Drives t t' s s :=
  ⟨[], fun _ h => (nomatch h), ⟨h, .nil, fun _ h => nomatch h⟩, rfl, trivial⟩

theorem refl (t : Time) (s : System) : Drives t t s s := .wait (le_refl t) s

theorem trans (h : Drives t t' s s') (h' : Drives t' t'' s' s'') : Drives t t'' s s'' := by
  obtain ⟨as, has, hclock, hrun, hok⟩ := h
  obtain ⟨bs, hbs, hclock', hrun', hok'⟩ := h'
  refine ⟨as ++ bs, fun a ha => ?_, hclock.append hclock', by rw [run_append, hrun]; exact hrun',
    along_append hok hrun hok'⟩
  exact (List.mem_append.mp ha).elim (has a) (hbs a)

theorem single (ha : a.OfComponents) (ht : a.readings ⊆ [t]) (hok : MarksLive s a)
    (h : step s a = some s') : Drives t t s s' := by
  have hread : ∀ u ∈ [a].flatMap Action.readings, u = t := fun u hu => by
    rw [List.flatMap_singleton] at hu
    exact List.mem_singleton.mp (ht hu)
  refine ⟨[a], List.forall_mem_singleton.mpr ha, ⟨le_refl t, ?_, fun u hu => ?_⟩,
    by rw [run, h]; rfl, along_cons hok h trivial⟩
  · exact List.pairwise_of_forall_mem_list fun u hu v hv =>
      ((hread u hu).trans (hread v hv).symm).le
  · exact ⟨(hread u hu).ge, (hread u hu).le⟩

/-- An action that reads no clock, and so marks nothing. -/
theorem still (ha : a.OfComponents) (hread : a.readings = []) (h : step s a = some s') :
    Drives t t s s' := by
  refine single ha (by rw [hread]; exact List.nil_subset _) (marksLive_of_ne fun d n now he => ?_) h
  rw [he] at hread
  exact nomatch hread

end Drives

/-! ## What driving keeps -/

/-- What holds in every state of a run whose marks of queued jobs find a live message. -/
structure Sane (s : System) : Prop where
  sound : Relay.Sound s.relay
  fetched : Fetched s
  delivered : Delivered s
  dispatchedLive : DispatchedLive s
  committed_lt : ∀ offset ∈ s.committed, offset < s.produced.length

theorem Sane.start (cfg : Dict String TypeConfig) : Sane (start cfg) :=
  ⟨.start cfg, .start cfg, .start cfg, .start cfg, fun _ h => nomatch h⟩

theorem Step.produced_length_le (h : Step s a s') : s.produced.length ≤ s'.produced.length := by
  rcases h.relay_cases with he | ⟨actor, c, -, he⟩ | ⟨d, msg, messages, -, he⟩
  · rw [produced, produced, he]
  · rw [produced, produced, he]
    exact Nat.le_refl _
  · rw [produced, produced, he, Relay.publish, List.length_append]
    exact Nat.le_add_right _ _

theorem Sane.of_step (hs : Sane s) (h : Step s a s') (hok : MarksLive s a) : Sane s' := by
  refine ⟨?_, hs.fetched.of_step h, hs.delivered.of_step h,
    hs.dispatchedLive.of_step hs.sound hs.delivered hok h, fun offset ho => ?_⟩
  · rcases hs.fetched.relay_step h with he | ⟨b, hb⟩
    · rw [he]
      exact hs.sound
    · exact hs.sound.of_step hb
  · refine lt_of_lt_of_le ?_ h.produced_length_le
    rcases h.committed_cases with he | ⟨w, inv, outcome, hw, -, he⟩
    · exact hs.committed_lt offset (he ▸ ho)
    · rw [he] at ho
      rcases Finset.mem_insert.mp ho with rfl | ho
      · obtain ⟨rec, hrec, -⟩ := hs.delivered w inv hw
        exact (List.getElem?_eq_some_iff.mp hrec).1
      · exact hs.committed_lt offset ho

theorem sane {as : List Action} (hrun : run step (start cfg) as = some s)
    (hok : Along step MarksLive (start cfg) as) : Sane s :=
  Runs.invariant (I := Sane) (fun _ _ _ hs ha h => hs.of_step (step_cases h) ha) as (start cfg)
    (Sane.start cfg) hok hrun

/-- No job is gone, new, or another; a job that has ended stays as it is. -/
structure Kept (s s' : System) : Prop where
  job : ∀ i j, s.store.getJob i = some j → ∃ j', s'.store.getJob i = some j' ∧ SameRun j j' ∧
    (j.status ∈ JobStatus.terminal → j' = j)
  none : ∀ i, s.store.getJob i = none → s'.store.getJob i = none
  typeConfig : s'.store.typeConfig = s.store.typeConfig

theorem Kept.refl (s : System) : Kept s s :=
  ⟨fun _ j hj => ⟨j, hj, .refl j, fun _ => rfl⟩, fun _ h => h, rfl⟩

theorem Kept.trans (h : Kept s s') (h' : Kept s' s'') : Kept s s'' := by
  refine ⟨fun i j hj => ?_, fun i hi => h'.none i (h.none i hi),
    h'.typeConfig.trans h.typeConfig⟩
  obtain ⟨j₁, hj₁, hsame₁, hfix₁⟩ := h.job i j hj
  obtain ⟨j₂, hj₂, hsame₂, hfix₂⟩ := h'.job i j₁ hj₁
  refine ⟨j₂, hj₂, hsame₁.trans hsame₂, fun ht => ?_⟩
  obtain rfl := hfix₁ ht
  exact hfix₂ ht

theorem Makes.of_enqueue {actor : Actor} {t : String} {p : Option Document} {cr : Option Creator}
    {ca ua : Time} (h : Makes s a actor (.enqueue t p cr ca ua)) : a = .enqueue t p cr ca ua := by
  cases h with
  | enqueue => rfl
  | dispatch hc =>
    rcases Dispatcher.call_cases hc with ⟨-, he⟩ | ⟨msg, messages, hd, he⟩ <;> exact nomatch he
  | work hw hc =>
    rcases Invocation.call_cases hc with ⟨-, he⟩ | ⟨-, he⟩ | ⟨_, -, he⟩ | ⟨-, he⟩ <;>
      exact nomatch he
  | reap hk hc =>
    obtain ⟨x, stuck, -, ⟨-, he⟩ | ⟨-, he⟩⟩ := Sweep.call_cases hc <;> exact nomatch he

theorem Kept.of_step (hs : WellKeyed s.store) (h : Step s a s') (ha : a.OfComponents) :
    Kept s s' := by
  rcases h.ledger_cases with ⟨hstore, -⟩ | ⟨actor, c, hc, hstore, -⟩
  · exact ⟨fun _ j hj => ⟨j, hstore ▸ hj, .refl j, fun _ => rfl⟩, fun _ hi => hstore ▸ hi,
      congrArg InMemoryStore.typeConfig hstore⟩
  · have heff := exec_effect c s.store
    refine ⟨fun i j hj => ?_, fun i hi => ?_, ?_⟩
    · obtain ⟨j', hj', hm⟩ := heff.job hs hj
      exact ⟨j', hstore ▸ hj', hm.sameRun, hm.eq_of_terminal⟩
    · rw [hstore]
      by_contra hne
      obtain ⟨j', hj'⟩ := Option.ne_none_iff_exists'.mp hne
      obtain ⟨t, p, cr, ca, ua, rfl, -⟩ := heff.new_job hi hj'
      rw [hc.of_enqueue] at ha
      exact ha
    · rw [hstore]
      refine heff.typeConfig fun t timeout cap p he => ?_
      subst he
      rw [hc.of_configure] at ha
      exact ha

theorem Drives.keeps (h : Drives t t' s s') (hs : Sane s) : Sane s' ∧ Kept s s' := by
  obtain ⟨as, has, -, hrun, hok⟩ := h
  have hboth := hok.and (along_of_forall as s has)
  refine Runs.invariant (I := fun s' => Sane s' ∧ Kept s s') (fun s₁ a s₂ h₁ ha h₂ => ?_) as s
    ⟨hs, .refl s⟩ hboth hrun
  have h := step_cases h₂
  exact ⟨h₁.1.of_step h ha.1, h₁.2.trans (.of_step h₁.1.sound.wellKeyed h ha.2)⟩

/-! ## A worker takes a message -/

/-- Worker 0 makes its next store call. -/
theorem drive_call {inv : Invocation} {c : Call} {r : Reply} {st : InMemoryStore}
    (hw : s.workers 0 = some inv) (hc : inv.call t = some c) (he : exec s.store c = (r, st)) :
    ∃ s', Drives t t s s' ∧ s'.store = st ∧ s'.workers 0 = inv.reply r ∧
      s'.handled = s.handled := by
  refine ⟨(s.perform (.worker inv.id) c).setWorker 0 (inv.reply (s.reply c)),
    .single (a := .work 0 t) trivial (List.Subset.refl _) (marksLive_of_ne (by simp)) ?_,
    congrArg Prod.snd he, ?_, rfl⟩
  · rw [step, hw, Option.bind_some, hc]
    rfl
  · rw [workers_setWorker, reply, he]

/-- A fresh worker claims a waiting job with its message. -/
theorem drive_claim (t : Time) (hs : Sane s) (hj : s.store.getJob i = some j) (hwait : j.Waiting)
    {offset : ℕ} (hm : s.Holds i offset) : ∃ s' n, Drives t t s s' ∧
      s'.workers 0 = some ⟨n, offset, ⟨i, j.jobType⟩, .resolve⟩ ∧
      s'.store = s.store.putJob i { j with status := .running, updatedAt := t } := by
  obtain ⟨⟨rec, hrec, rfl⟩, hunc⟩ := hm
  have hmsg : rec.message = ⟨rec.message.jobId, j.jobType⟩ := by
    obtain ⟨k, hk, he, -⟩ := hs.sound.produced_job rec (List.mem_of_getElem? hrec)
    obtain rfl := Option.some.inj (hj.symm.trans hk)
    rw [he, buildEnvelope, hs.sound.wellKeyed.id_eq _ j hj]
  -- an idle worker
  let s₁ := s.setWorker 0 none
  have h₁ : Drives t t s s₁ := .still (a := .stopWorker 0) trivial rfl rfl
  -- with the message
  let inv : Invocation := ⟨s.nextInvocation, offset, rec.message, .claim⟩
  let s₂ := { s₁ with nextInvocation := s₁.nextInvocation + 1 }.setWorker 0 (some inv)
  have h₂ : Drives t t s₁ s₂ := by
    refine .still (a := .poll 0 offset) trivial rfl ?_
    have hidle : s₁.workers 0 = none := workers_setWorker s 0 none
    have hrec₁ : s₁.produced[offset]? = some rec := hrec
    rw [step, hidle, hrec₁]
    exact if_neg hunc
  -- past the claim
  have hcall : exec s₂.store (.claim rec.message.jobId t) = (.flag true,
      s.store.putJob rec.message.jobId { j with status := .running, updatedAt := t }) := by
    rw [exec, show s₂.store = s.store from rfl, InMemoryStore.claim_of_waiting hj hwait]
    rfl
  obtain ⟨s₃, h₃, hstore₃, hw₃, -⟩ :=
    drive_call (s := s₂) (workers_setWorker _ 0 (some inv)) rfl hcall
  refine ⟨s₃, s.nextInvocation, (h₁.trans h₂).trans h₃, hw₃.trans ?_, hstore₃⟩
  rw [← hmsg]
  rfl

/-- From its resolve on, a worker with a configured job completes it. -/
theorem drive_complete (t : Time) {n offset : ℕ} {jobType : String} {c : TypeConfig}
    {o : Payload}
    (hw : s.workers 0 = some ⟨n, offset, ⟨i, jobType⟩, .resolve⟩) (hj : s.store.getJob i = some j)
    (hrun : j.status = .running) (hcfg : s.store.typeConfig.get? j.jobType = some c)
    (ho : j.inputPayload = .object o) : ∃ s', Drives t t s s' ∧
      s'.store.getJob i = some { j with
        status := .completed, payload := .object (o ∪ c.payload), updatedAt := t } ∧
      ⟨n, i, .object (o ∪ c.payload)⟩ ∈ s'.handled := by
  -- the payload is resolved
  let resolved : Job := { j with payload := .object (o ∪ c.payload), updatedAt := t }
  have hresolve : exec s.store (.resolvePayload i jobType t) =
      (.payload (.ok (some (.object (o ∪ c.payload)))), s.store.putJob i resolved) := by
    rw [exec, InMemoryStore.resolvePayload_of_config hj hrun hcfg ho]
    rfl
  obtain ⟨s₁, h₁, hstore₁, hw₁, -⟩ := drive_call hw rfl hresolve
  -- the handler is found and returns
  let found : Invocation := ⟨n, offset, ⟨i, jobType⟩, .handle (.object (o ∪ c.payload))⟩
  let s₂ := { s₁ with handled := ⟨n, i, .object (o ∪ c.payload)⟩ :: s₁.handled }.setWorker 0
    (some found)
  have h₂ : Drives t t s₁ s₂ := by
    refine .still (a := .lookup 0 true) trivial rfl ?_
    rw [step, hw₁]
    rfl
  let s₃ := s₂.setWorker 0 (some ⟨n, offset, ⟨i, jobType⟩, .complete⟩)
  have h₃ : Drives t t s₂ s₃ := by
    refine .still (a := .handled 0 false) trivial rfl ?_
    have hw₂ : s₂.workers 0 = some found := workers_setWorker _ 0 _
    rw [step, hw₂]
    rfl
  -- the completion
  have hcomplete : exec s₃.store (.complete i t) = (.flag true, s.store.putJob i
      { j with status := .completed, payload := .object (o ∪ c.payload), updatedAt := t }) := by
    rw [exec, show s₃.store = s₁.store from rfl, hstore₁, InMemoryStore.complete,
      InMemoryStore.terminate_of_running (j := resolved) InMemoryStore.getJob_putJob_self hrun]
    exact congrArg (Prod.mk _) InMemoryStore.putJob_putJob
  obtain ⟨s₄, h₄, hstore₄, -, hhandled⟩ :=
    drive_call (s := s₃) (workers_setWorker ..) rfl hcomplete
  refine ⟨s₄, ((h₁.trans h₂).trans h₃).trans h₄, ?_, ?_⟩
  · rw [hstore₄]
    exact InMemoryStore.getJob_putJob_self
  · rw [hhandled]
    exact List.mem_cons_self

/-! ## A dispatcher publishes a row -/

/-- A mark of another job's row leaves the job as it is. -/
theorem getJob_mark_of_ne {st : InMemoryStore} (hs : WellKeyed st) {o : OutboxId} {k : JobId}
    {now : Time} (hj : st.getJob i = some j) (hne : k ≠ i) :
    (exec st (.markDispatched o k now)).2.getJob i = some j := by
  obtain ⟨j', hj', hm⟩ := (exec_effect (.markDispatched o k now) st).job hs hj
  cases hm with
  | stay => exact hj'
  | dispatch => exact absurd rfl hne

/-- What is published is held by Kafka at an offset that nobody has. -/
theorem Sane.holds_of_publish (hs : Sane s) {d : ℕ} {msg : OutboxMessage}
    {messages : List OutboxMessage} (hd : s.dispatchers d = ⟨msg :: messages, false⟩) :
    Holds { s with relay := s.relay.publish kafkaTopic msg } msg.jobId s.produced.length ∧
      ∀ w inv, s.workers w = some inv → inv.offset ≠ s.produced.length := by
  have hrow := hs.sound.fetched_row msg (hs.fetched d msg (by rw [hd]; exact List.mem_cons_self))
  obtain ⟨j, -, hp⟩ := hs.sound.corresponds.row_job _ _ hrow
  refine ⟨⟨⟨recordOf kafkaTopic msg, List.getElem?_concat_length, ?_⟩,
    fun ho => (hs.committed_lt _ ho).false⟩, fun w inv hw => ?_⟩
  · rw [recordOf, hp]
    rfl
  · obtain ⟨rec, hrec, -⟩ := hs.delivered w inv hw
    exact (List.getElem?_eq_some_iff.mp hrec).1.ne

/-- Dispatcher 0 works through the rows it has until that of the job is published. -/
theorem drive_publish (t : Time) {m : OutboxMessage} (messages : List OutboxMessage) (hs : Sane s)
    (hd : s.dispatchers 0 = ⟨messages, false⟩) (hm : m ∈ messages)
    (hj : s.store.getJob m.jobId = some j) : ∃ s' offset, Drives t t s s' ∧
      s'.Holds m.jobId offset ∧ s'.store.getJob m.jobId = some j := by
  induction messages generalizing s with
  | nil => exact nomatch hm
  | cons msg messages ih =>
    let s₁ := { s with relay := s.relay.publish kafkaTopic msg }.setDispatcher 0
      ⟨msg :: messages, true⟩
    have h₁ : Drives t t s s₁ := by
      refine .still (a := .publish 0) trivial rfl ?_
      rw [step, hd]
    obtain ⟨hholds, hfree⟩ := hs.holds_of_publish hd
    by_cases hsame : msg.jobId = m.jobId
    · exact ⟨s₁, _, h₁, ⟨hsame ▸ hholds.message, hholds.uncommitted⟩, hj⟩
    · -- another job's row: it is marked, its message being live
      have hd₁ : s₁.dispatchers 0 = ⟨msg :: messages, true⟩ := dispatchers_setDispatcher ..
      let s₂ := (s₁.perform (.dispatcher 0) (.markDispatched msg.id msg.jobId t)).setDispatcher 0
        ⟨messages, false⟩
      have h₂ : Drives t t s₁ s₂ := by
        refine .single (a := .dispatch 0 0 t) (Int.le_refl 0) (List.Subset.refl _) ?_ ?_
        · rintro d n now msg' messages' ⟨⟩ hd' -
          obtain ⟨rfl, -⟩ := List.cons.inj (congrArg Dispatcher.messages (hd₁.symm.trans hd'))
          exact ⟨_, ⟨hholds.message, hholds.uncommitted⟩,
            fun w inv hw ho => absurd ho (hfree w inv hw)⟩
        · rw [step, hd₁]
          rfl
      have hj₂ : s₂.store.getJob m.jobId = some j :=
        getJob_mark_of_ne hs.sound.wellKeyed hj hsame
      obtain ⟨s', offset, h', hholds', hj'⟩ := ih ((h₁.trans h₂).keeps hs).1
        (dispatchers_setDispatcher ..) ((List.mem_cons.mp hm).resolve_left fun he =>
          hsame (he ▸ rfl)) hj₂
      exact ⟨s', offset, (h₁.trans h₂).trans h', hholds', hj'⟩

/-- A waiting job's message is held by Kafka, or can be. -/
theorem drive_message (t : Time) (hs : Sane s) (hj : s.store.getJob i = some j)
    (hwait : j.Waiting) : ∃ s' offset, Drives t t s s' ∧ s'.Holds i offset ∧
      s'.store.getJob i = some j := by
  rcases List.mem_pair.mp hwait with hst | hst
  · -- its row is unpublished, and a fresh dispatcher fetches all such rows
    obtain ⟨o, m, hm, rfl⟩ := hs.sound.corresponds.job_row i j hj
    have hunp := hs.sound.corresponds.queued_unpublished o m j hm hj hst
    have hmem : m ∈ s.store.fetchUnpublished s.store.unpublished.length := by
      rw [InMemoryStore.fetchUnpublished_of_nonneg (Int.natCast_nonneg _), Int.toNat_natCast,
        List.take_length]
      obtain ⟨es, hes, hiff, -⟩ := InMemoryStore.unpublished_items s.store
      rw [hes]
      exact List.mem_map.mpr ⟨(o, m), (hiff _).mpr ⟨hm, hunp⟩, rfl⟩
    let s₁ := s.setDispatcher 0 .idle
    have h₁ : Drives t t s s₁ := .still (a := .stopDispatcher 0) trivial rfl rfl
    let s₂ := (s₁.perform (.dispatcher 0)
      (.fetchUnpublished s.store.unpublished.length)).setDispatcher 0
        ⟨s.store.fetchUnpublished s.store.unpublished.length, false⟩
    have hd₁ : s₁.dispatchers 0 = .idle := dispatchers_setDispatcher ..
    have h₂ : Drives t t s₁ s₂ := by
      refine .single (a := .dispatch 0 s.store.unpublished.length t) (Int.natCast_nonneg _)
        (List.Subset.refl _) ?_ ?_
      · rintro d n now msg messages ⟨⟩ hd'
        exact nomatch congrArg Dispatcher.messages (hd₁.symm.trans hd')
      · rw [step, hd₁]
        rfl
    obtain ⟨s', offset, h', hholds, hj'⟩ := drive_publish t _ ((h₁.trans h₂).keeps hs).1
      (dispatchers_setDispatcher ..) hmem hj
    exact ⟨s', offset, (h₁.trans h₂).trans h', hholds, hj'⟩
  · obtain ⟨offset, hholds, -⟩ := hs.dispatchedLive i j hj hst
    exact ⟨s, offset, .refl t s, hholds, hj⟩

/-! ## A reaper recovers a run -/

/-- Reaper 0 makes its next store call. -/
theorem drive_reap {sweep : Sweep} {c : Call} {r : Reply} {st : InMemoryStore}
    (hk : s.reapers 0 = some sweep) (hc : sweep.call t = some c) (he : exec s.store c = (r, st)) :
    ∃ s', Drives t t s s' ∧ s'.store = st ∧ s'.reapers 0 = some (sweep.reply r) := by
  refine ⟨(s.perform (.reaper sweep.id) c).setReaper 0 (some (sweep.reply (s.reply c))),
    .single (a := .reap 0 t) trivial (List.Subset.refl _) (marksLive_of_ne (by simp)) ?_,
    congrArg Prod.snd he, ?_⟩
  · rw [step, hk, Option.bind_some, hc]
    rfl
  · rw [reapers_setReaper, reply, he]

/-- What the turn of job `i` in a sweep makes of its run. -/
def RecoveredFrom (s : System) (j j' : Job) : Prop := j'.status = .failed ∨
  j'.status = .queued ∧ j'.attempts = j.attempts + 1 ∧ j.attempts < s.store.maxAttempts j.jobType

/-- The turn of one listed run: it is re-queued, or else dead-lettered. -/
theorem drive_turn (t : Time) {n : ℕ} {x : StuckJob} {xs : List StuckJob} {stats : ReapStats}
    (hs : WellKeyed s.store) (hk : s.reapers 0 = some ⟨n, x :: xs, false, stats⟩)
    (hj : s.store.getJob i = some j) : ∃ s' stats', Drives t t s s' ∧
      s'.reapers 0 = some ⟨n, xs, false, stats'⟩ ∧
      (x.jobId ≠ i → s'.store.getJob i = some j) ∧
      (x.jobId = i → j.status = .running →
        ∃ j', s'.store.getJob i = some j' ∧ s.RecoveredFrom j j') := by
  -- what is done to another job
  have untouched : ∀ {st : InMemoryStore} {c : Call}, WellKeyed st → st.getJob i = some j →
      c.target = some x.jobId → x.jobId ≠ i → (exec st c).2.getJob i = some j := by
    intro st c hst hj hc hne
    obtain ⟨j', hj', hm⟩ := (exec_effect c st).job hst hj
    rw [hj', hm.eq_of_target hc hne]
  rcases hrequeue : s.store.requeueStuck x.jobId t with ⟨requeued, st⟩
  have hcall : exec s.store (.requeueStuck x.jobId t) = (.flag requeued, st) := by
    rw [exec, hrequeue]
    rfl
  obtain ⟨s₁, h₁, hstore₁, hk₁⟩ := drive_reap hk rfl hcall
  have hj₁ : x.jobId ≠ i → s₁.store.getJob i = some j := fun hne => by
    have h := untouched (c := .requeueStuck x.jobId t) hs hj rfl hne
    rw [hcall] at h
    rw [hstore₁]
    exact h
  rcases InMemoryStore.requeueStuck_cases x.jobId t s.store with
    ⟨job, hjob, -, hcap, he⟩ | ⟨hrefused, he⟩
  · obtain ⟨rfl, rfl⟩ := Prod.mk.inj (hrequeue.symm.trans he)
    refine ⟨s₁, _, h₁, hk₁, hj₁, ?_⟩
    rintro rfl -
    obtain rfl := Option.some.inj (hj.symm.trans hjob)
    exact ⟨_, by rw [hstore₁]; exact Dict.get?_set_self .., Or.inr ⟨rfl, rfl, hcap⟩⟩
  · obtain ⟨rfl, rfl⟩ := Prod.mk.inj (hrequeue.symm.trans he)
    rcases hdead : s₁.store.deadLetter x.jobId t with ⟨dead, st⟩
    have hcall₂ : exec s₁.store (.deadLetter x.jobId t) = (.flag dead, st) := by
      rw [exec, hdead]
      rfl
    obtain ⟨s', h', hstore', hk'⟩ := drive_reap hk₁ rfl hcall₂
    have hnext : ∃ stats', s'.reapers 0 = some ⟨n, xs, false, stats'⟩ := by
      cases dead with
      | true => exact ⟨_, hk'⟩
      | false => exact ⟨_, hk'⟩
    obtain ⟨stats', hnext⟩ := hnext
    refine ⟨s', stats', h₁.trans h', hnext, fun hne => ?_, ?_⟩
    · have h := untouched (c := .deadLetter x.jobId t) (hstore₁ ▸ hs) (hj₁ hne) rfl hne
      rw [hcall₂] at h
      rw [hstore']
      exact h
    · rintro rfl hrun
      rw [hstore₁, InMemoryStore.deadLetter,
        InMemoryStore.guardedUpdate_pass hj (decide_eq_true hrun)] at hdead
      refine ⟨{ j with status := .failed, updatedAt := t }, ?_, Or.inl rfl⟩
      rw [hstore', ← (Prod.mk.inj hdead).2]
      exact InMemoryStore.getJob_putJob_self

/-- A sweep comes to the turn of each run it has listed. -/
theorem drive_sweep (t : Time) {n : ℕ} (xs : List StuckJob) (stats : ReapStats) (hs : Sane s)
    (hk : s.reapers 0 = some ⟨n, xs, false, stats⟩) (hmem : i ∈ xs.map StuckJob.jobId)
    (hj : s.store.getJob i = some j) (hrun : j.status = .running) :
    ∃ s' j', Drives t t s s' ∧ s'.store.getJob i = some j' ∧ s.RecoveredFrom j j' := by
  induction xs generalizing s stats with
  | nil => exact nomatch hmem
  | cons x xs ih =>
    obtain ⟨s₁, stats₁, h₁, hk₁, hother, hturn⟩ := drive_turn t hs.sound.wellKeyed hk hj
    by_cases hx : x.jobId = i
    · obtain ⟨j', hj', hrec⟩ := hturn hx hrun
      exact ⟨s₁, j', h₁, hj', hrec⟩
    · obtain ⟨hs₁, hkept⟩ := h₁.keeps hs
      have hmem' : i ∈ xs.map StuckJob.jobId :=
        (List.mem_cons.mp hmem).resolve_left fun he => hx he.symm
      obtain ⟨s', j', h', hj', hrec⟩ := ih stats₁ hs₁ hk₁ hmem' (hother hx)
      refine ⟨s', j', h₁.trans h', hj', hrec.imp id fun h => ⟨h.1, h.2.1, ?_⟩⟩
      rw [InMemoryStore.maxAttempts, ← hkept.typeConfig]
      exact h.2.2

/-- A fresh reaper recovers a running job, once it is old enough. -/
theorem drive_recover (t : Time) (hs : Sane s) (hj : s.store.getJob i = some j)
    (hrun : j.status = .running) : ∃ t' s' j', Drives t t' s s' ∧
      s'.store.getJob i = some j' ∧ s.RecoveredFrom j j' := by
  let now : Time := max t (j.updatedAt + s.store.timeout j.jobType + 1)
  have hlisted : i ∈ (s.store.findStuck now).map StuckJob.jobId := by
    refine List.mem_map.mpr ⟨⟨j.id, j.jobType, j.attempts⟩, ?_, hs.sound.wellKeyed.id_eq i j hj⟩
    refine InMemoryStore.mem_findStuck.mpr ⟨i, j, hj, hrun, ?_, rfl⟩
    have past : ∀ t updatedAt timeout : ℤ,
        timeout < max t (updatedAt + timeout + 1) - updatedAt := fun _ _ _ => by omega
    exact past _ _ _
  let s₁ := s.setReaper 0 none
  have h₁ : Drives now now s s₁ := .still (a := .stopReaper 0) trivial rfl rfl
  let s₂ := { s₁.perform (.reaper s₁.nextSweep) (.findStuck now) with
      nextSweep := s₁.nextSweep + 1 }.setReaper 0
    (some ⟨s₁.nextSweep, s₁.store.findStuck now, false, ⟨0, 0⟩⟩)
  have h₂ : Drives now now s₁ s₂ := by
    refine .single (a := .find 0 now) trivial (List.Subset.refl _) (marksLive_of_ne (by simp)) ?_
    have hidle : s₁.reapers 0 = none := reapers_setReaper ..
    rw [step, hidle]
  obtain ⟨s', j', h', hj', hrec⟩ := drive_sweep now _ _ ((h₁.trans h₂).keeps hs).1
    (reapers_setReaper ..) hlisted hj hrun
  exact ⟨now, s', j', (Drives.wait (le_max_left t _) s).trans ((h₁.trans h₂).trans h'), hj', hrec⟩

/-! ## Every job can be brought to its end -/

/-- The attempts a re-queue may still add. -/
def attemptsLeft (s : System) (j : Job) : ℕ :=
  (s.store.maxAttempts j.jobType - j.attempts).toNat

/-- A waiting job can be claimed. -/
theorem drive_running (t : Time) (hs : Sane s) (hj : s.store.getJob i = some j)
    (hwait : j.Waiting) : ∃ s' j', Drives t t s s' ∧ s'.store.getJob i = some j' ∧
      j'.status = .running ∧ j'.attempts = j.attempts := by
  obtain ⟨s₁, offset, h₁, hholds, hj₁⟩ := drive_message t hs hj hwait
  obtain ⟨s', n, h', -, hstore⟩ := drive_claim t (h₁.keeps hs).1 hj₁ hwait hholds
  refine ⟨s', { j with status := .running, updatedAt := t }, h₁.trans h', ?_, rfl, rfl⟩
  rw [hstore]
  exact InMemoryStore.getJob_putJob_self

/-- Claimed and recovered over and over, a run ends: each recovery but the last takes an attempt. -/
theorem drive_to_end (t : Time) (n : ℕ) (hs : Sane s) (hj : s.store.getJob i = some j)
    (hrun : j.status = .running) (hleft : s.attemptsLeft j ≤ n) :
    ∃ t' s' j', Drives t t' s s' ∧ s'.store.getJob i = some j' ∧
      j'.status ∈ JobStatus.terminal := by
  induction n generalizing t s j with
  | zero =>
    obtain ⟨t₁, s₁, j₁, h₁, hj₁, hst | ⟨-, -, hcap⟩⟩ := drive_recover t hs hj hrun
    · exact ⟨t₁, s₁, j₁, h₁, hj₁, by rw [hst]; decide⟩
    · rw [attemptsLeft] at hleft
      omega
  | succ n ih =>
    obtain ⟨t₁, s₁, j₁, h₁, hj₁, hst | ⟨hst, hattempts, hcap⟩⟩ := drive_recover t hs hj hrun
    · exact ⟨t₁, s₁, j₁, h₁, hj₁, by rw [hst]; decide⟩
    · obtain ⟨hs₁, hkept₁⟩ := h₁.keeps hs
      obtain ⟨s₂, j₂, h₂, hj₂, hrun₂, hattempts₂⟩ :=
        drive_running t₁ hs₁ hj₁ (by rw [Job.Waiting, hst]; decide)
      obtain ⟨hs₂, hkept₂⟩ := (h₁.trans h₂).keeps hs
      obtain ⟨k, hk, hsame, -⟩ := hkept₂.job i j hj
      obtain rfl := Option.some.inj (hj₂.symm.trans hk)
      have hleft₂ : s₂.attemptsLeft j₂ ≤ n := by
        rw [attemptsLeft, InMemoryStore.maxAttempts, hkept₂.typeConfig, hsame.jobType,
          ← InMemoryStore.maxAttempts, hattempts₂, hattempts]
        rw [attemptsLeft] at hleft
        omega
      obtain ⟨t', s', j', h', hj', hend⟩ := ih t₁ hs₂ hj₂ hrun₂ hleft₂
      exact ⟨t', s', j', (h₁.trans h₂).trans h', hj', hend⟩

/-- A job can be brought to its end. -/
theorem drive_job (t : Time) (hs : Sane s) (hj : s.store.getJob i = some j) :
    ∃ t' s' j', Drives t t' s s' ∧ s'.store.getJob i = some j' ∧
      j'.status ∈ JobStatus.terminal := by
  by_cases hend : j.status ∈ JobStatus.terminal
  · exact ⟨t, s, j, .refl t s, hj, hend⟩
  · by_cases hrun : j.status = .running
    · exact drive_to_end t _ hs hj hrun (Nat.le_refl _)
    · have hwait : j.Waiting := by
        revert hend hrun
        rw [Job.Waiting]
        cases j.status <;> decide
      obtain ⟨s₁, j₁, h₁, hj₁, hrun₁, -⟩ := drive_running t hs hj hwait
      obtain ⟨t', s', j', h', hj', hend'⟩ :=
        drive_to_end t _ (h₁.keeps hs).1 hj₁ hrun₁ (Nat.le_refl _)
      exact ⟨t', s', j', h₁.trans h', hj', hend'⟩

/-- A waiting job of a configured type can be completed, on the overlay its handler is given. -/
theorem drive_waiting (t : Time) (hs : Sane s) (hj : s.store.getJob i = some j) (hwait : j.Waiting)
    {c : TypeConfig} (hc : s.store.typeConfig.get? j.jobType = some c) {o : Payload}
    (ho : j.inputPayload = .object o) : ∃ s' n, Drives t t s s' ∧
      s'.store.getJob i = some { j with
        status := .completed, payload := .object (o ∪ c.payload), updatedAt := t } ∧
      ⟨n, i, .object (o ∪ c.payload)⟩ ∈ s'.handled := by
  obtain ⟨s₁, offset, h₁, hholds, hj₁⟩ := drive_message t hs hj hwait
  obtain ⟨hs₁, hkept₁⟩ := h₁.keeps hs
  obtain ⟨s₂, n, h₂, hw₂, hstore₂⟩ := drive_claim t hs₁ hj₁ hwait hholds
  have hj₂ : s₂.store.getJob i = some { j with status := .running, updatedAt := t } := by
    rw [hstore₂]
    exact InMemoryStore.getJob_putJob_self
  have hc₂ : s₂.store.typeConfig.get? j.jobType = some c := by
    rw [hstore₂, InMemoryStore.putJob_typeConfig, hkept₁.typeConfig]
    exact hc
  obtain ⟨s', h', hj', hhandled⟩ := drive_complete t hw₂ hj₂ rfl hc₂ ho
  exact ⟨s', n, (h₁.trans h₂).trans h', hj', hhandled⟩

/-- **A waiting job can be completed**: from every state of a run whose marks of queued jobs find a
live message, and from any reading of the clock on, the components alone can complete each queued or
dispatched job whose type is configured, on the overlay of its input on that configuration, which
its handler is given. -/
theorem waiting_completes {as : List Action} (hrun : run step (start cfg) as = some s)
    (hok : Along step MarksLive (start cfg) as) (hj : s.store.getJob i = some j)
    (hwait : j.Waiting) {c : TypeConfig} (hc : s.store.typeConfig.get? j.jobType = some c)
    {o : Payload} (ho : j.inputPayload = .object o) (t : Time) : ∃ t' s' j' n, Drives t t' s s' ∧
      s'.store.getJob i = some j' ∧ j'.status = .completed ∧
      j'.payload = .object (o ∪ c.payload) ∧ ⟨n, i, j'.payload⟩ ∈ s'.handled := by
  obtain ⟨s', n, h, hj', hhandled⟩ := drive_waiting t (sane hrun hok) hj hwait hc ho
  exact ⟨t, s', _, n, h, hj', rfl, rfl, hhandled⟩

/-- A job that was just enqueued. -/
theorem waiting_completes_enqueued : ∃ s t' s' j', run step (start helloConfig)
    [.enqueue "hello" none none 0 0] = some s ∧ Drives 5 t' s s' ∧ s'.store.getJob 1 = some j' ∧
      j'.status = .completed ∧ j'.payload = .object (∅ ∪ ∅) := by
  obtain ⟨s, j, hs, hj, hst, hc, ho⟩ : ∃ s j,
      run step (start helloConfig) [.enqueue "hello" none none 0 0] = some s ∧
      s.store.getJob 1 = some j ∧ j.status = .queued ∧
      s.store.typeConfig.get? j.jobType = some ⟨defaultRunTimeout, defaultMaxAttempts, ∅⟩ ∧
      j.inputPayload = .object ∅ := ⟨_, _, rfl, rfl, rfl, rfl, rfl⟩
  obtain ⟨t', s', j', -, h, hj', hend, hp, -⟩ := waiting_completes hs
    ⟨marksLive_of_ne (by simp), fun _ _ => trivial⟩ hj (by rw [Job.Waiting, hst]; decide) hc ho 5
  exact ⟨s, t', s', j', hs, h, hj', hend, hp⟩

/-- All jobs can be brought to their ends. -/
theorem drive_all (t : Time) (hs : Sane s) : ∃ t' s', Drives t t' s s' ∧
    ∀ i j, s'.store.getJob i = some j → j.status ∈ JobStatus.terminal := by
  -- the jobs one after another; those that have ended stay so
  have each : ∀ ids : List JobId, ∃ t' s', Drives t t' s s' ∧
      ∀ i ∈ ids, ∀ j, s'.store.getJob i = some j → j.status ∈ JobStatus.terminal := by
    intro ids
    induction ids with
    | nil => exact ⟨t, s, .refl t s, fun _ h => nomatch h⟩
    | cons i ids ih =>
      obtain ⟨t₁, s₁, h₁, hids⟩ := ih
      obtain ⟨hs₁, -⟩ := h₁.keeps hs
      cases hj : s₁.store.getJob i with
      | none =>
        refine ⟨t₁, s₁, h₁, List.forall_mem_cons.mpr ⟨fun j hj' => ?_, hids⟩⟩
        exact nomatch hj.symm.trans hj'
      | some j =>
        obtain ⟨t', s', j', h', hj', hend⟩ := drive_job t₁ hs₁ hj
        refine ⟨t', s', h₁.trans h',
          List.forall_mem_cons.mpr ⟨fun k hk => ?_, fun i' hi' k hk => ?_⟩⟩
        · exact Option.some.inj (hj'.symm.trans hk) ▸ hend
        · obtain ⟨-, hkept⟩ := h'.keeps hs₁
          cases hk₁ : s₁.store.getJob i' with
          | none => exact nomatch (hkept.none i' hk₁).symm.trans hk
          | some k₁ =>
            obtain ⟨k', hk', -, hfix⟩ := hkept.job i' k₁ hk₁
            obtain rfl := Option.some.inj (hk.symm.trans hk')
            exact hfix (hids i' hi' k₁ hk₁) ▸ hids i' hi' k₁ hk₁
  obtain ⟨t', s', h', hends⟩ := each s.store.jobs.keys
  refine ⟨t', s', h', fun i j hj => hends i ?_ j hj⟩
  by_contra hi
  exact nomatch ((h'.keeps hs).2.none i (Dict.get?_eq_none.mpr hi)).symm.trans hj

/-- **No reachable state is a dead end**: from every state of a run whose marks of queued jobs find
a live message, and from any reading of the clock on, the components alone can bring all jobs to
their ends, whatever has been delayed or stopped. -/
theorem all_jobs_end {as : List Action} (hrun : run step (start cfg) as = some s)
    (hok : Along step MarksLive (start cfg) as) (t : Time) : ∃ t' s', Drives t t' s s' ∧
      ∀ i j, s'.store.getJob i = some j → j.status ∈ JobStatus.terminal :=
  drive_all t (sane hrun hok)

/-- The worker that claimed the job stops, and commits nothing. -/
def abandoned : List Action :=
  [.enqueue "hello" none none 0 0, .dispatch 0 10 1, .publish 0, .poll 0 0, .work 0 2,
    .stopWorker 0]

theorem all_jobs_end_abandoned : ∃ s t' s', run step (start helloConfig) abandoned = some s ∧
    s.status 1 = some .running ∧ Drives 2 t' s s' ∧
    ∀ i j, s'.store.getJob i = some j → j.status ∈ JobStatus.terminal := by
  obtain ⟨s, hs, hst⟩ : ∃ s, run step (start helloConfig) abandoned = some s ∧
      s.status 1 = some .running := ⟨_, rfl, rfl⟩
  have hok : Along step MarksLive (start helloConfig) abandoned := by
    have others : ∀ (as : List Action) s, (∀ a ∈ as, ∀ d n now, a ≠ .dispatch d n now) →
        Along step MarksLive s as := fun as s has =>
      (along_of_forall as s has).imp fun _ _ hne => marksLive_of_ne hne
    refine along_cons (marksLive_of_ne (by simp)) rfl (along_cons ?_ rfl (others _ _ (by simp)))
    rintro d n now msg messages ⟨⟩ hd
    exact nomatch congrArg Dispatcher.messages hd
  obtain ⟨t', s', h, hend⟩ := all_jobs_end hs hok 2
  exact ⟨s, t', s', hs, hst, h, hend⟩

end System

end JobWorkflow
