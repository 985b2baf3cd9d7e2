import JobWorkflow.System.Ownership

/-!
# System/Outcomes — whether `process` reports what happened to the run

`process` drops what `complete` and `fail` return, and takes a `None` of `resolve_payload` for a
missing config although a run that is no longer running gives `None` too.  So a worker that has been
overtaken reports `completed`, `failed` or `no_config` of a run it did not end
(`overtaken_worker_reports`).  `outcomes_truthful` is the exact condition.  Sweeps that leave the
jobs of engaged workers alone are enough for it (`System/Exclusion`).
-/

namespace JobWorkflow

namespace InMemoryStore

/-- `complete` and `fail` end a running job. -/
theorem status_terminate {s : InMemoryStore} {i : JobId} (st : JobStatus) (now : Time)
    (hrun : (s.getJob i).map Job.status = some .running) :
    ((s.terminate i st now).2.getJob i).map Job.status = some st := by
  obtain ⟨j, hj, hrun⟩ := Option.map_eq_some_iff.mp hrun
  rw [terminate, guardedUpdate_pass hj (decide_eq_true hrun)]
  change ((s.jobs.set i _).get? i).map Job.status = some st
  rw [Dict.get?_set_self]
  rfl

end InMemoryStore

namespace System

variable {s s' : System} {a : Action} {cfg : Dict String TypeConfig}

/-! ## Reports -/

/-- The call `c` takes job `i` from running to `st`. -/
structure Moves (s s' : System) (i : JobId) (st : JobStatus) : Prop where
  before : s.status i = some .running
  after : s'.status i = some st

/-- A `resolve_payload` of the invocation was answered `None` by a store where its job meets `p`. -/
def ResolvedNone (cfg : Dict String TypeConfig) (s : System) (inv : Invocation)
    (p : InMemoryStore → Job → Prop) : Prop :=
  ∃ newer t now older j, s.journal = newer ++
      ⟨.worker inv.id, .resolvePayload inv.envelope.jobId t now, .payload (.ok none)⟩ :: older ∧
    (Ledger.replay cfg older).getJob inv.envelope.jobId = some j ∧ p (Ledger.replay cfg older) j

/-- The type of the job has no config row. -/
def Unconfigured (st : InMemoryStore) (j : Job) : Prop := st.typeConfig.get? j.jobType = none

/-- What `process`, by its last store call, did to the run, in the sense of the outcome
it returns. -/
def Reported (cfg : Dict String TypeConfig) (s s' : System) (inv : Invocation) (now : Time) :
    Outcome → Prop
  | .skipped => True
  | .completed => inv.call now = some (.complete inv.envelope.jobId now) ∧
      Moves s s' inv.envelope.jobId .completed
  | .failed => inv.call now = some (.fail inv.envelope.jobId now) ∧
      Moves s s' inv.envelope.jobId .failed
  | .noConfig => inv.call now = some (.fail inv.envelope.jobId now) ∧
      Moves s s' inv.envelope.jobId .failed ∧ s.ResolvedNone cfg inv Unconfigured

/-- A step in which `process` returns returns an outcome that is true of the run. -/
def Truthful (cfg : Dict String TypeConfig) (s : System) (a : Action) : Prop :=
  ∀ w now s' inv inv' outcome, a = .work w now → s.step a = some s' → s.workers w = some inv →
    s'.workers w = some inv' → inv'.stage = .commit outcome → s.Reported cfg s' inv now outcome

/-- The `complete` and `fail` calls of the workers find their jobs running, and a `resolve_payload`
whose `None` is about to be reported found its job running or its type without a config. -/
def FindsRunning (cfg : Dict String TypeConfig) (s : System) (a : Action) : Prop :=
  ∀ w now inv, a = .work w now → s.workers w = some inv →
    ((inv.stage = .complete ∨ ∃ outcome, inv.stage = .fail outcome) →
      s.status inv.envelope.jobId = some .running) ∧
    (inv.stage = .fail .noConfig →
      s.ResolvedNone cfg inv fun st j => j.status = .running ∨ Unconfigured st j)

/-! ## The last call of `process` -/

/-- `process` reports nothing but a failure after a `fail`. -/
def FailStages (s : System) : Prop := ∀ w inv outcome, s.workers w = some inv →
  inv.stage = .fail outcome → outcome = .failed ∨ outcome = .noConfig

theorem FailStages.start (cfg : Dict String TypeConfig) : FailStages (start cfg) :=
  fun _ _ _ (h : none = some _) => nomatch h

theorem FailStages.of_step (hs : FailStages s) (h : Step s a s') : FailStages s' := by
  intro w inv' outcome hw' hst'
  have hstep := h.worker w
  rw [hw'] at hstep
  cases hstep with
  | stay hw => exact hs w inv' outcome hw hst'
  | poll hw hrec hc hnext => simp at hst'
  | work hw hc hv hrelay =>
    rename_i now inv c
    cases Invocation.advance hc hv with
    | unresolved hst => exact Or.inr (Stage.fail.inj hst').symm
    | _ => exact nomatch hst'
  | «local» hw hst hrelay =>
    cases hst with
    | found => simp at hst'
    | unknown => exact Or.inl (Stage.fail.inj hst').symm
    | raised => exact Or.inl (Stage.fail.inj hst').symm
    | returned => simp at hst'

/-- `complete` is the last call of `process`. -/
theorem step_complete {w : ℕ} {now : Time} {inv : Invocation} (hw : s.workers w = some inv)
    (hst : inv.stage = .complete) : s.step (.work w now) =
      some ((s.perform (.worker inv.id) (.complete inv.envelope.jobId now)).setWorker w
        (some { inv with stage := .commit .completed })) := by
  rw [step, hw, Option.bind_some, Invocation.call, hst, Option.map_some]
  simp only [Invocation.reply, hst]

/-- `fail` is the last call of `process`. -/
theorem step_fail {w : ℕ} {now : Time} {inv : Invocation} {outcome : Outcome}
    (hw : s.workers w = some inv) (hst : inv.stage = .fail outcome) : s.step (.work w now) =
      some ((s.perform (.worker inv.id) (.fail inv.envelope.jobId now)).setWorker w
        (some { inv with stage := .commit outcome })) := by
  rw [step, hw, Option.bind_some, Invocation.call, hst, Option.map_some]
  simp only [Invocation.reply, hst]

theorem ResolvedNone.imp {inv : Invocation} {p q : InMemoryStore → Job → Prop}
    (h : s.ResolvedNone cfg inv p) (hpq : ∀ st j, p st j → q st j) : s.ResolvedNone cfg inv q := by
  obtain ⟨newer, t, now, older, j, hsplit, hj, hp⟩ := h
  exact ⟨newer, t, now, older, j, hsplit, hj, hpq _ _ hp⟩

/-- A `None` for a running job says that its type has no config. -/
theorem ResolvedNone.unconfigured (hreach : Runs.Reachable step (start cfg) s) {inv : Invocation}
    (h : s.ResolvedNone cfg inv fun st j => j.status = .running ∨ Unconfigured st j) :
    s.ResolvedNone cfg inv Unconfigured := by
  obtain ⟨newer, t, now, older, j, hsplit, hj, hrun | hcfg⟩ := h
  · refine ⟨newer, t, now, older, j, hsplit, hj, ?_⟩
    have hreply := (Ledger.reply_eq (ledger_reachable hreach)).2 newer _ older hsplit
    exact (InMemoryStore.resolvePayload_eq_none (t := t)).mp (Reply.payload.inj hreply).symm
      j hj hrun
  · exact ⟨newer, t, now, older, j, hsplit, hj, hcfg⟩

/-- What is reported truly was found running. -/
theorem Truthful.findsRunning (ht : Truthful cfg s a) (hs : FailStages s) :
    FindsRunning cfg s a := by
  rintro w now inv rfl hw
  have completed : ∀ _ : inv.stage = .complete, s.Reported cfg _ inv now .completed := fun hst =>
    ht w now _ inv _ _ rfl (step_complete hw hst) hw (Function.update_self w _ _) rfl
  have failed : ∀ outcome, ∀ _ : inv.stage = .fail outcome, s.Reported cfg _ inv now outcome :=
    fun outcome hst =>
      ht w now _ inv _ _ rfl (step_fail hw hst) hw (Function.update_self w _ _) rfl
  refine ⟨fun hst => ?_, fun hst => ?_⟩
  · rcases hst with hst | ⟨outcome, hst⟩
    · exact (completed hst).2.before
    · rcases hs w inv outcome hw hst with rfl | rfl
      · exact (failed _ hst).2.before
      · exact (failed _ hst).2.1.before
  · exact (failed _ hst).2.2.imp fun st j => Or.inr

/-- What is found running is reported truly. -/
theorem FindsRunning.truthful (hok : FindsRunning cfg s a)
    (hreach : Runs.Reachable step (start cfg) s) (hs : FailStages s) : Truthful cfg s a := by
  rintro w now s' inv inv' outcome rfl hstep hw hw' hst'
  obtain ⟨hrunning, hresolved⟩ := hok w now inv rfl hw
  cases step_cases hstep with
  | work hw₀ hc =>
  rename_i inv₀ c
  obtain rfl : inv₀ = inv := Option.some.inj (hw₀.symm.trans hw)
  have hreply : inv₀.reply (s.reply c) = some inv' := (Function.update_self w _ _).symm.trans hw'
  cases Invocation.advance hc hreply with
  | claimed => exact nomatch hst'
  | skipped =>
    obtain rfl := Stage.commit.inj hst'
    trivial
  | resolved => exact nomatch hst'
  | unresolved => exact nomatch hst'
  | failed hst =>
    obtain rfl := Stage.commit.inj hst'
    have hrun := hrunning (Or.inr ⟨_, hst⟩)
    have hfailed := InMemoryStore.status_terminate .failed now hrun
    rcases hs w inv₀ _ hw hst with rfl | rfl
    · exact ⟨hc, hrun, hfailed⟩
    · exact ⟨hc, ⟨hrun, hfailed⟩, (hresolved hst).unconfigured hreach⟩
  | completed hst =>
    obtain rfl := Stage.commit.inj hst'
    have hrun := hrunning (Or.inl hst)
    exact ⟨hc, hrun, InMemoryStore.status_terminate .completed now hrun⟩

/-- **Outcomes are truthful** in exactly the runs where the workers' last calls find their jobs
running, and a `None` that is reported was given for a missing config. -/
theorem outcomes_truthful (cfg : Dict String TypeConfig) (as : List Action) :
    Runs.Along step (Truthful cfg) (start cfg) as ↔
      Runs.Along step (FindsRunning cfg) (start cfg) as :=
  Runs.along_congr (I := fun s => Runs.Reachable step (start cfg) s ∧ FailStages s)
    (fun _ _ _ hs h => ⟨hs.1.snoc h, hs.2.of_step (step_cases h)⟩)
    (fun _ _ hs => ⟨fun ht => ht.findsRunning hs.2, fun hok => hok.truthful hs.1 hs.2⟩) as
    (start cfg) ⟨.refl, .start cfg⟩

/-! ## A worker that is overtaken -/

/-- The reaper re-queues the run of a slow handler, which then returns. -/
def reapedInHandler : List Action :=
  [.enqueue "hello" none none 0 0, .dispatch 0 10 1, .publish 0, .dispatch 0 10 1,
    .poll 0 0, .work 0 2, .work 0 3, .lookup 0 true,
    .find 0 (defaultRunTimeout + 4), .reap 0 (defaultRunTimeout + 5), .handled 0 false]

/-- **An overtaken worker reports** `completed` of a run that is back in its queue. -/
theorem overtaken_worker_reports :
    ¬ ∀ cfg s a, Runs.Reachable step (start cfg) s → Truthful cfg s a := by
  intro hall
  obtain ⟨s, s', inv, inv', hs, hstep, hw, hw', hst, hjob, hqueued⟩ : ∃ s s' inv inv',
      Runs.run step (start helloConfig) reapedInHandler = some s ∧
      s.step (.work 0 (defaultRunTimeout + 6)) = some s' ∧ s.workers 0 = some inv ∧
      s'.workers 0 = some inv' ∧ inv'.stage = .commit .completed ∧ inv.envelope.jobId = 1 ∧
      s.status 1 = some .queued :=
    ⟨_, _, _, _, rfl, rfl, rfl, rfl, rfl, rfl, rfl⟩
  obtain ⟨-, hmoves⟩ :=
    hall helloConfig s _ ⟨reapedInHandler, hs⟩ 0 _ s' inv inv' _ rfl hstep hw hw' hst
  rw [hjob] at hmoves
  exact absurd (hqueued.symm.trans hmoves.before) (by decide)

end System

end JobWorkflow
