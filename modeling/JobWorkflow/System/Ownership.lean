import JobWorkflow.Common.History
import JobWorkflow.System.Machine

/-!
# System/Ownership — whose outcome a run records

`complete` and `fail` test the status alone, so a worker decides the outcome of any run that it
claimed and that is running: its own, or, once the reaper has re-queued the job, the run of a later
claim.  `stale_worker_decides` is such a schedule, and `outcome_by_claimant` what holds of all.
-/

namespace JobWorkflow

/-- Past a claim that succeeded. -/
def Stage.Claimed : Stage → Prop
  | .claim | .commit .skipped => False
  | _ => True

namespace System

variable {s s' : System} {a : Action} {cfg : Dict String TypeConfig}

/-- The status of job `i`, if it is there. -/
def status (s : System) (i : JobId) : Option JobStatus := (s.store.getJob i).map Job.status

/-- The most recent successful claim of job `i`. -/
def latestClaim (s : System) (i : JobId) : Option (Entry Actor) := s.journal.find? (Entry.claims i)

/-- The `complete` or `fail` call of worker `w`, on invocation `inv`, changes the status of `i`. -/
structure Decides (s s' : System) (w : ℕ) (inv : Invocation) (i : JobId) : Prop where
  worker : s.workers w = some inv
  stage : inv.stage = .complete ∨ ∃ outcome, inv.stage = .fail outcome
  step : ∃ now, s.step (.work w now) = some s'
  changes : s'.status i ≠ s.status i

/-! ## The claims behind the stages -/

/-- A worker past its claim has the claim in the journal. -/
def Claimed (s : System) : Prop := ∀ w inv, s.workers w = some inv → inv.stage.Claimed →
  ∃ e ∈ s.journal, e.actor = .worker inv.id ∧ e.claims inv.envelope.jobId = true

theorem Claimed.start (cfg : Dict String TypeConfig) : Claimed (start cfg) :=
  fun _ inv (hw : none = some inv) => nomatch hw

theorem Claimed.of_step (hs : Claimed s) (h : Step s a s') : Claimed s' := by
  intro w inv' hw' hst'
  have old : ∀ {inv}, s.workers w = some inv → inv.stage.Claimed →
      ∃ e ∈ s'.journal, e.actor = .worker inv.id ∧ e.claims inv.envelope.jobId = true := by
    intro inv hw hst
    obtain ⟨e, he, hae, hce⟩ := hs w inv hw hst
    exact ⟨e, h.mem_journal he, hae, hce⟩
  have hstep := h.worker w
  rw [hw'] at hstep
  cases hstep with
  | stay hw => exact old hw hst'
  | poll hw hrec hc hrelay => exact hst'.elim
  | work hw hc hv hrelay =>
    rename_i now inv c
    obtain ⟨hid, -, henv⟩ := Invocation.reply_same hv
    rw [hid, henv]
    cases Invocation.advance hc hv with
    | claimed hst hr =>
      refine ⟨⟨.worker inv.id, .claim inv.envelope.jobId now, _⟩, ?_, rfl,
        decide_eq_true ⟨rfl, hr⟩⟩
      rw [journal, hrelay]
      exact List.mem_cons_self
    | skipped => exact hst'.elim
    | resolved hst => exact old hw (by rw [hst]; trivial)
    | unresolved hst => exact old hw (by rw [hst]; trivial)
    | failed hst => exact old hw (by rw [hst]; trivial)
    | completed hst => exact old hw (by rw [hst]; trivial)
  | «local» hw hst hrelay =>
    have hclaimed := old hw
    cases hst with
    | found => exact hclaimed trivial
    | unknown => exact hclaimed trivial
    | raised => exact hclaimed trivial
    | returned => exact hclaimed trivial

theorem claimed (h : Runs.Reachable step (start cfg) s) : Claimed s :=
  h.invariant (Claimed.start cfg) fun _ _ _ hs ha => hs.of_step (step_cases ha)

/-! ## Who decides -/

/-- A call that ends runs and changes the status of a job is about that job, and finds
it running. -/
theorem running_of_status_ne {c : Call} {s s' : InMemoryStore} {r : Reply} {i k : JobId}
    {now : Time} (hc : c = .complete k now ∨ c = .fail k now) (h : Effect s c r s')
    (hw : WellKeyed s)
    (hne : (s'.getJob i).map Job.status ≠ (s.getJob i).map Job.status) :
    k = i ∧ ∃ j, s.getJob i = some j ∧ j.status = .running := by
  cases hj : s.getJob i with
  | none =>
    cases hj' : s'.getJob i with
    | none => exact absurd (by rw [hj, hj']) hne
    | some j' =>
      obtain ⟨t, p, cr, ca, ua, rfl, -⟩ := h.new_job hj hj'
      exact nomatch hc
  | some j =>
    obtain ⟨j', hj', hm⟩ := h.job hw hj
    rw [hj, hj'] at hne
    rcases hc with rfl | rfl
    · cases hm with
      | stay hn => exact absurd rfl hne
      | complete hr => exact ⟨rfl, j, rfl, hr⟩
    · cases hm with
      | stay hn => exact absurd rfl hne
      | fail hr => exact ⟨rfl, j, rfl, hr⟩

/-- **An outcome is decided by a claimant of the running job**, and by the latest one unless the
reaper has re-queued the job since. -/
theorem outcome_by_claimant (h : Runs.Reachable step (start cfg) s) {w : ℕ} {inv : Invocation}
    {i : JobId} (hd : Decides s s' w inv i) :
    inv.envelope.jobId = i ∧ s.status i = some .running ∧
    ∃ newer e older, s.journal = newer ++ e :: older ∧ e.actor = .worker inv.id ∧
      e.claims i = true ∧ ((∃ x ∈ newer, x.requeues i = true) ∨ s.latestClaim i = some e) := by
  obtain ⟨hw, hst, ⟨now, hstep⟩, hne⟩ := hd
  cases step_cases hstep with
  | work hw' hc =>
  rename_i inv' c
  obtain rfl : inv' = inv := Option.some.inj (hw'.symm.trans hw)
  have hends : c = .complete inv'.envelope.jobId now ∨ c = .fail inv'.envelope.jobId now := by
    rcases Invocation.call_cases hc with ⟨hs, -⟩ | ⟨hs, -⟩ | ⟨o, -, rfl⟩ | ⟨-, rfl⟩
    · rw [hs] at hst
      exact nomatch hst
    · rw [hs] at hst
      exact nomatch hst
    · exact Or.inr rfl
    · exact Or.inl rfl
  obtain ⟨rfl, j, hj, hr⟩ :=
    running_of_status_ne hends (exec_effect c s.store) (sound h).wellKeyed hne
  refine ⟨rfl, by rw [status, hj, Option.map_some, hr], ?_⟩
  have hclaimed : inv'.stage.Claimed := by
    rcases hst with hst | ⟨o, hst⟩
    · rw [hst]; trivial
    · rw [hst]; trivial
  obtain ⟨e, he, hactor, hclaims⟩ := claimed h w inv' hw hclaimed
  obtain ⟨newer, older, hsplit⟩ := List.append_of_mem he
  refine ⟨newer, e, older, hsplit, hactor, hclaims, ?_⟩
  rcases Ledger.claim_is_latest (ledger_reachable h) _ newer e older hsplit hclaims with
    hre | ⟨hnone, -⟩
  · exact Or.inl hre
  · refine Or.inr (List.find?_eq_some_iff_append.mpr ⟨hclaims, newer, older, hsplit, ?_⟩)
    exact fun x hx => by rw [hnone x hx]; rfl

/-! ## A stale worker -/

/-- `hello` is configured as the migrations seed it. -/
def helloConfig : Dict String TypeConfig :=
  (∅ : Dict String TypeConfig).set "hello" ⟨defaultRunTimeout, defaultMaxAttempts, ∅⟩

/-- Worker 0 runs the handler past the timeout; the job is re-queued, dispatched and claimed by
worker 1. -/
def overtaken : List Action :=
  [.enqueue "hello" none none 0 0,
    .dispatch 0 10 1, .publish 0, .dispatch 0 10 1,
    .poll 0 0, .work 0 2, .work 0 3, .lookup 0 true, .handled 0 false,
    .find 0 (defaultRunTimeout + 4), .reap 0 (defaultRunTimeout + 5),
    .dispatch 0 10 (defaultRunTimeout + 6), .publish 0, .dispatch 0 10 (defaultRunTimeout + 6),
    .poll 1 1, .work 1 (defaultRunTimeout + 7)]

theorem overtaken_decides : ∃ s s', Runs.Reachable step (start helloConfig) s ∧
    Decides s s' 0 ⟨0, 0, ⟨1, "hello"⟩, .complete⟩ 1 ∧
    (s.latestClaim 1).map Entry.actor = some (.worker 1) := by
  obtain ⟨s, s', hs, hstep, hw, hbefore, hafter, hlatest⟩ : ∃ s s',
      Runs.run step (start helloConfig) overtaken = some s ∧
      s.step (.work 0 (defaultRunTimeout + 8)) = some s' ∧
      s.workers 0 = some ⟨0, 0, ⟨1, "hello"⟩, .complete⟩ ∧
      s.status 1 = some .running ∧ s'.status 1 = some .completed ∧
      (s.latestClaim 1).map Entry.actor = some (.worker 1) :=
    ⟨_, _, rfl, rfl, rfl, rfl, rfl, rfl⟩
  exact ⟨s, s', ⟨overtaken, hs⟩,
    ⟨hw, Or.inl rfl, ⟨_, hstep⟩, by rw [hbefore, hafter]; decide⟩, hlatest⟩

/-- **A stale worker decides**: worker 0 completes the run that worker 1 claimed last. -/
theorem stale_worker_decides :
    ¬ ∀ cfg s, Runs.Reachable step (start cfg) s → ∀ s' w inv i, Decides s s' w inv i →
      ∃ e, s.latestClaim i = some e ∧ e.actor = .worker inv.id := by
  intro hall
  obtain ⟨s, s', hs, hd, hlatest⟩ := overtaken_decides
  obtain ⟨e, he, hactor⟩ := hall helloConfig s hs s' 0 _ 1 hd
  rw [he, Option.map_some, hactor] at hlatest
  exact absurd hlatest (by decide)

/-- The stale worker had claimed the job, and the reaper had re-queued it since. -/
theorem outcome_by_claimant_overtaken : ∃ s, Runs.Reachable step (start helloConfig) s ∧
    ∃ newer e older, s.journal = newer ++ e :: older ∧ e.actor = .worker 0 ∧
      e.claims 1 = true ∧ ∃ x ∈ newer, x.requeues 1 = true := by
  obtain ⟨s, s', hs, hd, hlatest⟩ := overtaken_decides
  obtain ⟨-, -, newer, e, older, hsplit, hactor, hclaims, hre | hlast⟩ := outcome_by_claimant hs hd
  · exact ⟨s, hs, newer, e, older, hsplit, hactor, hclaims, hre⟩
  · rw [hlast, Option.map_some, hactor] at hlatest
    exact absurd hlatest (by decide)

end System

end JobWorkflow
