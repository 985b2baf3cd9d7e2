import JobWorkflow.System.Ownership

/-!
# System/Stranding — who can still run a waiting job

A queued job's row is unpublished, so some dispatcher will publish it; a dispatched job depends on a
message in Kafka that no worker has tried yet (`Live`).  The one step that makes a job dispatched is
`mark_dispatched` on a queued job, and it tests neither that the dispatcher's own message is still
there nor that the row was not re-armed since.

* `late_mark_strands` — a schedule on which the re-armed row is marked with the message of the
  previous run, and nothing is left to run the job.
* `no_job_stranded` — no job is ever stranded in a run whose marks of queued jobs find a live
  message.
-/

namespace JobWorkflow

/-- What becomes dispatched is queued and being marked. -/
theorem Move.dispatched_cases {cap : String → ℤ} {i : JobId} {c : Call} {r : Reply} {j j' : Job}
    (h : Move cap i c r j j') (hst : j'.status = .dispatched) :
    j.status = .dispatched ∨ j.status = .queued ∧ ∃ o now, c = .markDispatched o i now := by
  cases h with
  | stay h => exact Or.inl hst
  | dispatch h => exact Or.inr ⟨h, _, _, rfl⟩
  | resolve h => exact Or.inl hst
  | _ => exact nomatch hst

namespace System

variable {s s' : System} {a : Action} {cfg : Dict String TypeConfig} {i : JobId}

/-- The outbox row of job `i` is unpublished. -/
def RowUnpublished (s : System) (i : JobId) : Prop :=
  ∃ o m, s.store.outbox.get? o = some m ∧ m.jobId = i ∧ o ∉ s.store.published

/-- Kafka holds an uncommitted message for job `i` at the offset. -/
structure Holds (s : System) (i : JobId) (offset : ℕ) : Prop where
  message : ∃ rec, s.produced[offset]? = some rec ∧ rec.message.jobId = i
  uncommitted : offset ∉ s.committed

/-- Every queued or dispatched job has its row unpublished or an uncommitted message. -/
def NoneStranded (s : System) : Prop := ∀ i j, s.store.getJob i = some j → j.Waiting →
  s.RowUnpublished i ∨ ∃ offset, s.Holds i offset

/-- Kafka holds a message for job `i` that no worker is past the claim with. -/
def Live (s : System) (i : JobId) : Prop :=
  ∃ offset, s.Holds i offset ∧
    ∀ w inv, s.workers w = some inv → inv.offset = offset → inv.stage = .claim

/-- If the action marks a row whose job is queued, the job has a live message. -/
def MarksLive (s : System) (a : Action) : Prop :=
  ∀ d n now msg messages, a = .dispatch d n now → s.dispatchers d = ⟨msg :: messages, true⟩ →
    s.status msg.jobId = some .queued → s.Live msg.jobId

/-! ## Messages and their holders -/

/-- A worker's envelope is the message at its offset. -/
def Delivered (s : System) : Prop := ∀ w inv, s.workers w = some inv →
  ∃ rec, s.produced[inv.offset]? = some rec ∧ rec.message = inv.envelope

theorem Delivered.start (cfg : Dict String TypeConfig) : Delivered (start cfg) :=
  fun _ _ (h : none = some _) => nomatch h

/-- A message keeps its offset. -/
theorem Step.produced_get? (h : Step s a s') {offset : ℕ} {rec : Record}
    (hrec : s.produced[offset]? = some rec) : s'.produced[offset]? = some rec := by
  rcases h.relay_cases with he | ⟨actor, c, -, he⟩ | ⟨d, msg, messages, -, he⟩
  · rw [produced, he]
    exact hrec
  · rw [produced, he]
    exact hrec
  · rw [produced, he]
    exact (List.getElem?_append_left (List.getElem?_eq_some_iff.mp hrec).1).trans hrec

theorem Delivered.of_step (hs : Delivered s) (h : Step s a s') : Delivered s' := by
  intro w inv' hw'
  have old : ∀ {inv}, s.workers w = some inv → ∃ rec,
      s'.produced[inv.offset]? = some rec ∧ rec.message = inv.envelope := by
    intro inv hw
    obtain ⟨rec, hrec, hm⟩ := hs w inv hw
    exact ⟨rec, h.produced_get? hrec, hm⟩
  have hstep := h.worker w
  rw [hw'] at hstep
  cases hstep with
  | stay hw => exact old hw
  | poll hw hrec hc hnext => exact ⟨_, h.produced_get? hrec, rfl⟩
  | work hw hc hv hrelay =>
    obtain ⟨-, hoffset, henv⟩ := Invocation.reply_same hv
    rw [hoffset, henv]
    exact old hw
  | «local» hw hst hrelay =>
    have hmessage := old hw
    exact hmessage

/-- The job a worker's message names has the type the message says. -/
theorem Delivered.job (hd : Delivered s) (hs : Relay.Sound s.relay) {w : ℕ}
    {inv : Invocation} (hw : s.workers w = some inv) :
    ∃ j, s.store.getJob inv.envelope.jobId = some j ∧ j.jobType = inv.envelope.jobType := by
  obtain ⟨rec, hrec, hm⟩ := hd w inv hw
  obtain ⟨j, hj, hmsg, -⟩ := hs.produced_job rec (List.mem_of_getElem? hrec)
  rw [hm] at hj hmsg
  exact ⟨j, hj, (congrArg Envelope.jobType hmsg).symm⟩

theorem delivered (h : Runs.Reachable step (start cfg) s) : Delivered s :=
  h.invariant (Delivered.start cfg) fun _ _ _ hs ha => hs.of_step (step_cases ha)

/-- A commit is of the offset of a worker that is done with it. -/
theorem Step.committed_cases (h : Step s a s') : s'.committed = s.committed ∨
    ∃ w inv outcome, s.workers w = some inv ∧ inv.stage = .commit outcome ∧
      s'.committed = insert inv.offset s.committed := by
  cases h with
  | commit hw => exact Or.inr ⟨_, _, _, hw, rfl, rfl⟩
  | _ => exact Or.inl rfl

/-- Kafka holds a message for job `i` at the offset that no worker is past the claim with. -/
def LiveAt (s : System) (i : JobId) (offset : ℕ) : Prop :=
  s.Holds i offset ∧ ∀ w inv, s.workers w = some inv → inv.offset = offset → inv.stage = .claim

/-- Worker `w` is about to claim job `i`. -/
def Tries (s : System) (a : Action) (i : JobId) : Prop := ∃ w now inv, a = .work w now ∧
  s.workers w = some inv ∧ inv.stage = .claim ∧ inv.envelope.jobId = i

/-- A live message keeps its offset. -/
theorem LiveAt.of_step {offset : ℕ} (hl : s.LiveAt i offset) (hd : Delivered s) (h : Step s a s') :
    s'.LiveAt i offset ∨ s.Tries a i := by
  obtain ⟨⟨⟨rec, hrec, hi⟩, hunc⟩, hholders⟩ := hl
  by_cases hclaim : s.Tries a i
  · exact Or.inr hclaim
  · refine Or.inl ⟨⟨⟨rec, h.produced_get? hrec, hi⟩, ?_⟩, fun w inv' hw' ho => ?_⟩
    · rcases h.committed_cases with he | ⟨w, inv, outcome, hw, hst, he⟩
      · rw [he]
        exact hunc
      · rw [he, Finset.mem_insert, not_or]
        refine ⟨fun ho => ?_, hunc⟩
        have hst' := hholders w inv hw ho.symm
        exact nomatch hst.symm.trans hst'
    · have hstep := h.worker w
      rw [hw'] at hstep
      cases hstep with
      | stay hw => exact hholders w inv' hw ho
      | poll hw hrec' hc hnext => rfl
      | work hw hc hv hrelay =>
        rename_i now inv c
        obtain ⟨-, hoffset, henv⟩ := Invocation.reply_same hv
        have hst := hholders w inv hw (hoffset.symm.trans ho)
        obtain ⟨rec', hrec', hm⟩ := hd w inv hw
        rw [hoffset.symm.trans ho] at hrec'
        obtain rfl := Option.some.inj (hrec.symm.trans hrec')
        exact absurd ⟨w, now, inv, rfl, hw, hst, by rw [← hm]; exact hi⟩ hclaim
      | «local» hw hst hrelay =>
        have hclaimed := hholders w _ hw ho
        cases hst <;> exact nomatch hclaimed

/-- **A live message stays live until a worker tries to claim with it.** -/
theorem Live.of_step (hl : s.Live i) (hd : Delivered s) (h : Step s a s') :
    s'.Live i ∨ ∃ w now inv, a = .work w now ∧ s.workers w = some inv ∧ inv.stage = .claim ∧
      inv.envelope.jobId = i := by
  obtain ⟨offset, hl⟩ := hl
  exact (LiveAt.of_step hl hd h).imp_left fun hl' => ⟨offset, hl'⟩

/-! ## Dispatched jobs -/

/-- A dispatched job has a live message. -/
def DispatchedLive (s : System) : Prop :=
  ∀ i j, s.store.getJob i = some j → j.status = .dispatched → s.Live i

/-- After an attempt to claim it, a job is not waiting. -/
theorem not_waiting_of_claim {t : InMemoryStore} {now : Time} {j' : Job}
    (hj' : (t.claim i now).2.getJob i = some j') : ¬ j'.Waiting := by
  rw [InMemoryStore.claim] at hj'
  rcases InMemoryStore.guardedUpdate_cases
      (fun job => job.status ∈ [JobStatus.queued, JobStatus.dispatched])
      (fun job => { job with status := .running, updatedAt := now }) i t with
    ⟨j, -, -, he⟩ | ⟨hno, he⟩
  · rw [he, InMemoryStore.getJob, Dict.get?_set_self] at hj'
    obtain rfl := Option.some.inj hj'
    exact Job.not_waiting_of_running rfl
  · rw [he] at hj'
    exact of_decide_eq_false (hno j' hj')

theorem DispatchedLive.of_step (hs : DispatchedLive s) (hsound : Relay.Sound s.relay)
    (hd : Delivered s) (hok : s.MarksLive a) (h : Step s a s') : DispatchedLive s' := by
  intro i j' hj' hst'
  have hwaiting : j'.Waiting := by rw [Job.Waiting, hst']; decide
  -- the job was live, or is marked now
  have hlive : s.Live i := by
    rcases h.relay_cases with he | ⟨actor, c, hc, he⟩ | ⟨d, msg, messages, -, he⟩
    · rw [store, he] at hj'
      exact hs i j' hj' hst'
    · rw [store, he] at hj'
      cases hj : s.store.getJob i with
      | none =>
        obtain ⟨t, p, cr, ca, ua, -, -, -, -, rfl⟩ := (exec_effect c s.store).new_job hj hj'
        exact absurd hst' (by decide : JobStatus.queued ≠ .dispatched)
      | some j =>
        obtain ⟨k, hk, hm⟩ := (exec_effect c s.store).job hsound.wellKeyed hj
        obtain rfl : j' = k := Option.some.inj (hj'.symm.trans hk)
        rcases hm.dispatched_cases hst' with hst | ⟨hst, o, now, rfl⟩
        · exact hs i j hj hst
        · obtain ⟨d, n, msg, messages, rfl, hd', -, rfl⟩ := hc.of_mark
          exact hok d n _ msg messages rfl hd' (by rw [status, hj, Option.map_some, hst])
    · rw [store, he] at hj'
      exact hs i j' hj' hst'
  rcases hlive.of_step hd h with hlive' | ⟨w, now, inv, rfl, hw, hst, rfl⟩
  · exact hlive'
  · cases h with
    | work hw' hc =>
      obtain rfl := Option.some.inj (hw.symm.trans hw')
      rw [Invocation.call, hst] at hc
      obtain rfl := Option.some.inj hc
      exact absurd hwaiting (not_waiting_of_claim hj')

theorem DispatchedLive.start (cfg : Dict String TypeConfig) : DispatchedLive (start cfg) :=
  fun _ _ (h : none = some _) => nomatch h

theorem dispatchedLive {as : List Action} (hrun : Runs.run step (start cfg) as = some s)
    (hok : Runs.Along step MarksLive (start cfg) as) : DispatchedLive s := by
  refine (Runs.invariant (I := fun s => Relay.Sound s.relay ∧ Fetched s ∧ Delivered s ∧
    DispatchedLive s) ?_ as (start cfg)
    ⟨.start cfg, .start cfg, .start cfg, .start cfg⟩ hok hrun).2.2.2
  rintro s a s' ⟨hsound, hfetched, hdelivered, hlive⟩ ha hstep
  have h := step_cases hstep
  refine ⟨?_, hfetched.of_step h, hdelivered.of_step h, hlive.of_step hsound hdelivered ha h⟩
  rcases hfetched.relay_step h with he | ⟨b, hb⟩
  · rw [he]
    exact hsound
  · exact hsound.of_step hb

/-! ## No job is stranded -/

/-- **No job is ever stranded** in a run whose marks of queued jobs find a live message. -/
theorem no_job_stranded {as : List Action} (hrun : Runs.run step (start cfg) as = some s)
    (hok : Runs.Along step MarksLive (start cfg) as) : NoneStranded s := by
  have hcorr := (sound ⟨as, hrun⟩).corresponds
  intro i j hj hwaiting
  rcases List.mem_pair.mp hwaiting with hst | hst
  · obtain ⟨o, m, hm, rfl⟩ := hcorr.job_row i j hj
    exact Or.inl ⟨o, m, hm, rfl, hcorr.queued_unpublished o m j hm hj hst⟩
  · obtain ⟨offset, hholds, -⟩ := dispatchedLive hrun hok i j hj hst
    exact Or.inr ⟨offset, hholds⟩

/-- A dispatcher works undisturbed. -/
def marked : List Action :=
  [.enqueue "hello" none none 0 0, .dispatch 0 10 1, .publish 0, .dispatch 0 10 1]

/-- A mark that follows its publication at once: the message is at offset 0 and nobody has it. -/
theorem no_job_stranded_marked :
    ∃ s, Runs.run step (start ∅) marked = some s ∧ NoneStranded s := by
  obtain ⟨s, hs⟩ : ∃ s, Runs.run step (start ∅) marked = some s := ⟨_, rfl⟩
  refine ⟨s, hs, no_job_stranded hs ?_⟩
  refine Runs.along_cons nofun rfl (Runs.along_cons ?_ rfl (Runs.along_cons nofun rfl
    (Runs.along_cons ?_ rfl trivial)))
  · rintro d n now msg messages ⟨⟩ hd
    exact nomatch congrArg Dispatcher.messages hd
  · rintro d n now msg messages ⟨⟩ hd
    obtain ⟨rfl, -⟩ := List.cons.inj (congrArg Dispatcher.messages hd)
    exact fun _ => ⟨0, ⟨⟨_, rfl, rfl⟩, by decide⟩, fun _ _ (hw : none = some _) => nomatch hw⟩

/-- The run of the message is re-queued before its dispatcher marks the row; the mark then takes the
re-armed row out of the outbox, and the worker commits the only message. -/
def lateMark : List Action :=
  [.enqueue "hello" none none 0 0, .dispatch 0 10 1, .publish 0,
    .poll 0 0, .work 0 2, .work 0 3, .lookup 0 true,
    .find 0 (defaultRunTimeout + 4), .reap 0 (defaultRunTimeout + 5),
    .dispatch 0 10 (defaultRunTimeout + 6),
    .handled 0 false, .work 0 (defaultRunTimeout + 7), .commit 0]

/-- **A late mark strands a job.** -/
theorem late_mark_strands :
    ¬ ∀ cfg s, Runs.Reachable step (start cfg) s → NoneStranded s := by
  intro hall
  obtain ⟨s, j, hs, hj, hst, hrows, hproduced, hcommitted⟩ : ∃ s j,
      Runs.run step (start helloConfig) lateMark = some s ∧ s.store.getJob 1 = some j ∧
      j.status = .dispatched ∧
      (∀ e ∈ s.store.outbox.items, e.1 ∈ s.store.published) ∧ s.produced.length = 1 ∧
      0 ∈ s.committed :=
    ⟨_, _, rfl, rfl, rfl, by decide, rfl, by decide⟩
  rcases hall helloConfig s ⟨lateMark, hs⟩ 1 j hj (by rw [Job.Waiting, hst]; decide) with
    ⟨o, m, hm, -, hp⟩ | ⟨offset, ⟨⟨rec, hrec, -⟩, hunc⟩⟩
  · exact hp (hrows _ (Dict.get?_eq_some.mp hm))
  · have hlt : offset < 1 := hproduced ▸ (List.getElem?_eq_some_iff.mp hrec).1
    obtain rfl : offset = 0 := Nat.lt_one_iff.mp hlt
    exact hunc hcommitted

end System

end JobWorkflow
