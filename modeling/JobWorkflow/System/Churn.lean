import JobWorkflow.System.Ownership

/-!
# System/Churn — how often a job can be started

With a fixed configuration a job is re-queued at most `max_attempts` times, each start is a claim,
and each handler run has a claim of its own.  The number of status changes is bounded by a potential
that every change raises: three for each attempt, and the rank of the status.
-/

namespace JobWorkflow

/-! ## The potential of a job -/

/-- How far a run has come. -/
def JobStatus.rank : JobStatus → ℕ
  | .queued => 0
  | .dispatched => 1
  | .running => 2
  | .completed | .failed => 3

def Job.potential (j : Job) : ℕ := 3 * j.attempts + j.status.rank

theorem Job.potential_le (j : Job) : j.potential ≤ 3 * j.attempts + 3 := by
  have h : j.status.rank ≤ 3 := by cases j.status <;> decide
  exact Nat.add_le_add_left h _

/-- Up to the lookup, no handler has been called. -/
def Stage.BeforeHandler : Stage → Prop
  | .claim | .resolve | .lookup _ => True
  | _ => False

namespace Move

variable {cap : String → ℤ} {i : JobId} {c : Call} {r : Reply} {j j' : Job}

/-- A status change raises the potential, and nothing lowers it. -/
theorem potential_le (h : Move cap i c r j j') :
    j.potential + (if j'.status ≠ j.status then 1 else 0) ≤ j'.potential := by
  cases h with
  | stay h => rw [if_neg (not_not.mpr rfl)]; exact le_refl _
  | dispatch h => simp [Job.potential, JobStatus.rank, h]
  | claim h =>
    rcases List.mem_pair.mp h with h | h
    · simp [Job.potential, JobStatus.rank, h]
    · simp [Job.potential, JobStatus.rank, h]
  | resolve h => simp [Job.potential]
  | complete h => simp [Job.potential, JobStatus.rank, h]
  | fail h => simp [Job.potential, JobStatus.rank, h]
  | requeue h hcap => simp [Job.potential, JobStatus.rank, h]; omega
  | deadLetter h => simp [Job.potential, JobStatus.rank, h]

/-- A re-queue stays within the cap. -/
theorem attempts_le (h : Move cap i c r j j') (hj : (j.attempts : ℤ) ≤ max 0 (cap j.jobType)) :
    (j'.attempts : ℤ) ≤ max 0 (cap j'.jobType) := by
  cases h with
  | requeue h hcap =>
    refine le_max_of_le_right ?_
    push_cast
    exact hcap
  | _ => exact hj

end Move

namespace System

variable {s s' : System} {a : Action} {cfg : Dict String TypeConfig}

/-! ## A fixed configuration -/

/-- The action changes the type configuration. -/
def Action.Configures : Action → Prop
  | .configure _ _ _ _ => True
  | _ => False

/-- The store is configured by `cfg` and no job is past the cap of its type. -/
structure WithinCap (cfg : Dict String TypeConfig) (s : System) : Prop where
  typeConfig : s.store.typeConfig = cfg
  wellKeyed : WellKeyed s.store
  attempts_le : ∀ i j, s.store.getJob i = some j →
    (j.attempts : ℤ) ≤ max 0 (s.store.maxAttempts j.jobType)

theorem WithinCap.start (cfg : Dict String TypeConfig) : WithinCap cfg (start cfg) :=
  ⟨rfl, Ledger.wellKeyed_start (ι := Actor) cfg, fun _ _ (h : none = some _) => nomatch h⟩

/-- The store after a step, where the configuration is left alone: the same, or one call later. -/
theorem Step.store_cases (h : Step s a s') (ha : ¬ a.Configures) :
    s'.store = s.store ∨ ∃ c, (∀ t timeout cap p, c ≠ .setTypeConfig t timeout cap p) ∧
      s'.store = (exec s.store c).2 := by
  rcases h.ledger_cases with ⟨he, -⟩ | ⟨actor, c, hc, he, -⟩
  · exact Or.inl he
  · refine Or.inr ⟨c, fun t timeout cap p hcc => ha ?_, he⟩
    subst hcc
    rw [hc.of_configure]
    trivial

theorem WithinCap.of_step (hs : WithinCap cfg s) (h : Step s a s') (ha : ¬ a.Configures) :
    WithinCap cfg s' := by
  rcases h.store_cases ha with he | ⟨c, hc, he⟩
  · exact ⟨by rw [he]; exact hs.typeConfig, by rw [he]; exact hs.wellKeyed,
      by rw [he]; exact hs.attempts_le⟩
  · have heff := exec_effect c s.store
    have hcfg := heff.typeConfig hc
    have hcap : (exec s.store c).2.maxAttempts = s.store.maxAttempts := by
      funext t
      rw [InMemoryStore.maxAttempts, InMemoryStore.maxAttempts, hcfg]
    refine ⟨by rw [he, hcfg]; exact hs.typeConfig,
      by rw [he]; exact wellKeyed_of_effect heff hs.wellKeyed, fun i j' hj' => ?_⟩
    rw [he] at hj' ⊢
    rw [hcap]
    cases hj : s.store.getJob i with
    | none =>
      obtain ⟨t, p, cr, ca, ua, -, -, -, -, rfl⟩ := heff.new_job hj hj'
      exact le_max_left _ _
    | some j =>
      obtain ⟨k, hk, hm⟩ := heff.job hs.wellKeyed hj
      obtain rfl : j' = k := Option.some.inj (hj'.symm.trans hk)
      exact hm.attempts_le (hs.attempts_le i j hj)

/-! ## Status changes -/

/-- The step changes the status of job `i`. -/
def statusChanges (i : JobId) (s s' : System) : Bool :=
  match s.status i, s'.status i with
  | some st, some st' => st' ≠ st
  | _, _ => false

def potential (i : JobId) (s : System) : ℕ :=
  match s.store.getJob i with
  | some j => j.potential
  | none => 0

theorem WithinCap.potential_le (hs : WithinCap cfg s) (h : Step s a s') (ha : ¬ a.Configures)
    (i : JobId) :
    s.potential i + (if statusChanges i s s' then 1 else 0) ≤ s'.potential i := by
  rcases h.store_cases ha with he | ⟨c, -, he⟩
  · have hsame : statusChanges i s s' = false := by
      rw [statusChanges, status, status, he]
      cases s.store.getJob i with
      | none => rfl
      | some j => exact decide_eq_false (not_not.mpr rfl)
    rw [hsame, potential, potential, he]
    exact le_refl _
  · cases hj : s.store.getJob i with
    | none =>
      have hnone : statusChanges i s s' = false := by rw [statusChanges, status, hj]; rfl
      rw [hnone, potential, hj]
      exact Nat.zero_le _
    | some j =>
      obtain ⟨j', hj', hm⟩ := (exec_effect c s.store).job hs.wellKeyed hj
      rw [← he] at hj'
      have hst : statusChanges i s s' = decide (j'.status ≠ j.status) := by
        rw [statusChanges, status, status, hj, hj']
        rfl
      have hle := hm.potential_le
      rw [hst, potential, potential, hj, hj']
      simpa only [decide_eq_true_eq] using hle

/-! ## Handler runs -/

/-- Invocations are numbered apart, and each one past its lookup has run its handler once. -/
structure Numbered (s : System) : Prop where
  worker_lt : ∀ w inv, s.workers w = some inv → inv.id < s.nextInvocation
  worker_inj : ∀ w w' inv inv', s.workers w = some inv → s.workers w' = some inv' →
    inv.id = inv'.id → w = w'
  handled_lt : ∀ h ∈ s.handled, h.invocation < s.nextInvocation
  handled_nodup : (s.handled.map HandlerRun.invocation).Nodup
  handled_fresh : ∀ w inv, s.workers w = some inv → inv.stage.BeforeHandler →
    ∀ h ∈ s.handled, h.invocation ≠ inv.id

theorem Numbered.start (cfg : Dict String TypeConfig) : Numbered (start cfg) where
  worker_lt _ _ (h : none = some _) := nomatch h
  worker_inj _ _ _ _ (h : none = some _) := nomatch h
  handled_lt _ h := nomatch h
  handled_nodup := List.nodup_nil
  handled_fresh _ _ (h : none = some _) := nomatch h

/-- A worker's invocation after a step is the one before, no earlier in `process`, or a new one. -/
theorem Step.invocation_cases (h : Step s a s') {w : ℕ} {inv' : Invocation}
    (hw' : s'.workers w = some inv') :
    (∃ inv, s.workers w = some inv ∧ inv'.id = inv.id ∧
      (inv'.stage.BeforeHandler → inv.stage.BeforeHandler)) ∨
    (∃ offset, a = .poll w offset) ∧ inv'.id = s.nextInvocation ∧
      s'.nextInvocation = s.nextInvocation + 1 := by
  have hstep := h.worker w
  rw [hw'] at hstep
  cases hstep with
  | stay hw => exact Or.inl ⟨inv', hw, rfl, id⟩
  | poll hw hrec hc hnext => exact Or.inr ⟨⟨_, rfl⟩, rfl, hnext⟩
  | work hw hc hv hrelay =>
    rename_i now inv c
    refine Or.inl ⟨inv, hw, (Invocation.reply_same hv).1, fun hb => ?_⟩
    cases Invocation.advance hc hv with
    | claimed hst => rw [hst]; trivial
    | skipped hst => rw [hst]; trivial
    | resolved hst => rw [hst]; trivial
    | unresolved hst => rw [hst]; trivial
    | failed hst => exact hb.elim
    | completed hst => exact hb.elim
  | «local» hw hst hrelay =>
    refine Or.inl ⟨_, hw, rfl, fun hb => ?_⟩
    cases hst with
    | found => trivial
    | unknown => trivial
    | raised => exact hb.elim
    | returned => exact hb.elim

theorem Step.nextInvocation_le (h : Step s a s') : s.nextInvocation ≤ s'.nextInvocation := by
  cases h with
  | poll hw hrec hc => exact Nat.le_succ _
  | _ => exact le_refl _

/-- Only a lookup that finds a handler starts one. -/
theorem Step.handled_cases (h : Step s a s') : s'.handled = s.handled ∨
    ∃ w n offset envelope payload, s.workers w = some ⟨n, offset, envelope, .lookup payload⟩ ∧
      s'.workers w = some ⟨n, offset, envelope, .handle payload⟩ ∧
      s'.handled = ⟨n, envelope.jobId, payload⟩ :: s.handled := by
  cases h with
  | found hw => exact Or.inr ⟨_, _, _, _, _, hw, Function.update_self _ _ _, rfl⟩
  | _ => exact Or.inl rfl

section Steps

variable {w w' : ℕ} {inv inv' : Invocation}

theorem Numbered.worker_lt' (hs : Numbered s) (h : Step s a s')
    (hw : s'.workers w = some inv) : inv.id < s'.nextInvocation := by
  rcases h.invocation_cases hw with ⟨inv₀, hw₀, hid, -⟩ | ⟨-, hid, hnext⟩
  · rw [hid]
    exact (hs.worker_lt w inv₀ hw₀).trans_le h.nextInvocation_le
  · rw [hid, hnext]
    exact Nat.lt_succ_self _

theorem Numbered.worker_inj' (hs : Numbered s) (h : Step s a s')
    (hw : s'.workers w = some inv) (hw' : s'.workers w' = some inv') (he : inv.id = inv'.id) :
    w = w' := by
  rcases h.invocation_cases hw, h.invocation_cases hw' with
    ⟨⟨k, hk, hid, -⟩ | ⟨⟨o, ha⟩, hid, -⟩, ⟨k', hk', hid', -⟩ | ⟨⟨o', ha'⟩, hid', -⟩⟩
  · exact hs.worker_inj w w' k k' hk hk' (hid.symm.trans (he.trans hid'))
  · have hlt := hs.worker_lt w k hk
    omega
  · have hlt := hs.worker_lt w' k' hk'
    omega
  · exact (Action.poll.inj (ha.symm.trans ha')).1

/-- No handler run on record is one of an invocation that has yet to start its own. -/
theorem Numbered.fresh_of_step (hs : Numbered s) (h : Step s a s')
    (hw : s'.workers w = some inv) (hb : inv.stage.BeforeHandler) {r : HandlerRun}
    (hr : r ∈ s.handled) : r.invocation ≠ inv.id := by
  rcases h.invocation_cases hw with ⟨inv₀, hw₀, hid, hback⟩ | ⟨-, hid, -⟩
  · rw [hid]
    exact hs.handled_fresh w inv₀ hw₀ (hback hb) r hr
  · rw [hid]
    exact (hs.handled_lt r hr).ne

theorem Numbered.of_step (hs : Numbered s) (h : Step s a s') : Numbered s' := by
  have hlt : ∀ r ∈ s.handled, r.invocation < s'.nextInvocation := fun r hr =>
    (hs.handled_lt r hr).trans_le h.nextInvocation_le
  have hworkers : ∀ w inv, s'.workers w = some inv → inv.id < s'.nextInvocation :=
    fun w inv hw => hs.worker_lt' h hw
  have hinj : ∀ w w' inv inv', s'.workers w = some inv → s'.workers w' = some inv' →
      inv.id = inv'.id → w = w' := fun w w' inv inv' hw hw' he => hs.worker_inj' h hw hw' he
  rcases h.handled_cases with he | ⟨w, n, offset, envelope, payload, hw, hw', he⟩
  · refine ⟨hworkers, hinj, by rw [he]; exact hlt, by rw [he]; exact hs.handled_nodup, ?_⟩
    rw [he]
    exact fun w inv hw hb r hr => hs.fresh_of_step h hw hb hr
  · refine ⟨hworkers, hinj, ?_, ?_, ?_⟩
    · rw [he]
      exact List.forall_mem_cons.mpr ⟨hworkers w _ hw', hlt⟩
    · rw [he, List.map_cons, List.nodup_cons]
      refine ⟨fun hmem => ?_, hs.handled_nodup⟩
      obtain ⟨r, hr, hid⟩ := List.mem_map.mp hmem
      exact hs.handled_fresh w _ hw trivial r hr hid
    · rw [he]
      intro w₁ inv₁ hw₁ hb
      refine List.forall_mem_cons.mpr ⟨fun hid => ?_, fun r hr => hs.fresh_of_step h hw₁ hb hr⟩
      obtain rfl := hinj w w₁ _ inv₁ hw' hw₁ hid
      obtain rfl := Option.some.inj (hw'.symm.trans hw₁)
      exact hb.elim

end Steps

theorem numbered (h : Runs.Reachable step (start cfg) s) : Numbered s :=
  h.invariant (Numbered.start cfg) fun _ _ _ hs ha => hs.of_step (step_cases ha)

/-- Each handler run has a claim by its own invocation. -/
def HandledClaimed (s : System) : Prop := ∀ h ∈ s.handled,
  ∃ e ∈ s.journal, e.actor = .worker h.invocation ∧ e.claims h.jobId = true

theorem handledClaimed (h : Runs.Reachable step (start cfg) s) : HandledClaimed s := by
  refine (h.invariant (I := fun s => Claimed s ∧ HandledClaimed s)
    ⟨Claimed.start cfg, fun _ h => (nomatch h)⟩ fun s a s' hs ha => ?_).2
  have hstep := step_cases ha
  refine ⟨hs.1.of_step hstep, fun hr hmem => ?_⟩
  have old : ∀ {n i}, (∃ e ∈ s.journal, e.actor = .worker n ∧ e.claims i = true) →
      ∃ e ∈ s'.journal, e.actor = .worker n ∧ e.claims i = true := by
    rintro n i ⟨e, he, hactor, hclaims⟩
    exact ⟨e, hstep.mem_journal he, hactor, hclaims⟩
  rcases hstep.handled_cases with he | ⟨w, n, offset, envelope, payload, hw, -, he⟩
  · exact old (hs.2 hr (he ▸ hmem))
  · rw [he] at hmem
    rcases List.mem_cons.mp hmem with rfl | hmem
    · exact old (hs.1 w _ hw trivial)
    · exact old (hs.2 hr hmem)

/-- How many handler runs job `i` has had. -/
def handlerRuns (s : System) (i : JobId) : ℕ := s.handled.countP fun h => h.jobId = i

/-- How many successful claims job `i` has had. -/
def claims (s : System) (i : JobId) : ℕ := s.journal.countP (Entry.claims i)

/-- **Each handler run has a claim of its own.** -/
theorem handlerRuns_le_claims (h : Runs.Reachable step (start cfg) s) (i : JobId) :
    s.handlerRuns i ≤ s.claims i := by
  have hnodup : ((s.handled.filter fun h => h.jobId = i).map
      fun h => Actor.worker h.invocation).Nodup := by
    have hsub := (List.filter_sublist (p := fun h : HandlerRun => h.jobId = i) (l := s.handled)).map
      HandlerRun.invocation
    have hids := ((numbered h).handled_nodup.sublist hsub).map (f := Actor.worker)
      fun _ _ he => Actor.worker.inj he
    rwa [List.map_map] at hids
  have hsubset : ((s.handled.filter fun h => h.jobId = i).map fun h => Actor.worker h.invocation) ⊆
      (s.journal.filter (Entry.claims i)).map Entry.actor := by
    intro actor hactor
    obtain ⟨hr, hmem, rfl⟩ := List.mem_map.mp hactor
    obtain ⟨hmem, hi⟩ := List.mem_filter.mp hmem
    obtain ⟨e, he, hactor, hclaims⟩ := handledClaimed h hr hmem
    rw [of_decide_eq_true hi] at hclaims
    exact List.mem_map.mpr ⟨e, List.mem_filter.mpr ⟨he, hclaims⟩, hactor⟩
  have hlen := (hnodup.subperm hsubset).length_le
  rw [List.length_map, List.length_map] at hlen
  rw [handlerRuns, claims, List.countP_eq_length_filter, List.countP_eq_length_filter]
  exact hlen

/-! ## The bound -/

/-- **Bounded churn.** In every run that leaves the configuration alone, a job's handler runs are at
most its claims, these at most its attempts plus one, the attempts within the cap of its type, and
the status changes at most three for each attempt the cap allows and three more. -/
theorem bounded_churn {as : List Action} (hrun : Runs.run step (start cfg) as = some s)
    (hfix : ∀ a ∈ as, ¬ a.Configures) {i : JobId} {j : Job} (hj : s.store.getJob i = some j) :
    s.handlerRuns i ≤ s.claims i ∧ s.claims i ≤ j.attempts + 1 ∧
    (j.attempts : ℤ) ≤ max 0 ((start cfg).store.maxAttempts j.jobType) ∧
    (s.claims i : ℤ) ≤ max 0 ((start cfg).store.maxAttempts j.jobType) + 1 ∧
    (Runs.count step (statusChanges i) (start cfg) as : ℤ) ≤
      3 * max 0 ((start cfg).store.maxAttempts j.jobType) + 3 := by
  have hreach : Runs.Reachable step (start cfg) s := ⟨as, hrun⟩
  have hok : Runs.Along step (fun _ a => ¬ a.Configures) (start cfg) as :=
    Runs.along_of_forall as (start cfg) hfix
  have hcap : WithinCap cfg s := Runs.invariant
    (fun _ _ _ hs ha h => hs.of_step (step_cases h) ha) as _ (WithinCap.start cfg) hok hrun
  have hclaims : s.claims i ≤ j.attempts + 1 := by
    rw [claims, journal, (Ledger.claims_eq_started (ledger_reachable hreach) i).2 j hj]
    exact j.started_le
  have hattempts : (j.attempts : ℤ) ≤ max 0 ((start cfg).store.maxAttempts j.jobType) := by
    have h := hcap.attempts_le i j hj
    rwa [InMemoryStore.maxAttempts, hcap.typeConfig] at h
  have hcount : (start cfg).potential i + Runs.count step (statusChanges i) (start cfg) as ≤
      s.potential i := Runs.count_le_potential (potential i)
    (fun _ _ _ hs ha h => hs.of_step (step_cases h) ha)
    (fun _ _ _ hs ha h => hs.potential_le (step_cases h) ha i) as _ (WithinCap.start cfg) hok hrun
  have hpotential : s.potential i ≤ 3 * j.attempts + 3 := by
    rw [potential, hj]
    exact j.potential_le
  exact ⟨handlerRuns_le_claims hreach i, hclaims, hattempts, by omega, by omega⟩

/-- One run of `hello`, claimed, re-queued and claimed again. -/
theorem bounded_churn_overtaken : ∃ s, Runs.run step (start helloConfig) overtaken = some s ∧
    s.claims 1 = 2 ∧ s.handlerRuns 1 ≤ 2 ∧
    (Runs.count step (statusChanges 1) (start helloConfig) overtaken : ℤ) ≤ 12 := by
  obtain ⟨s, j, hrun, hj, ht, hclaims⟩ : ∃ s j,
      Runs.run step (start helloConfig) overtaken = some s ∧ s.store.getJob 1 = some j ∧
      j.jobType = "hello" ∧ s.claims 1 = 2 := ⟨_, _, rfl, rfl, rfl, rfl⟩
  have hfix : ∀ a ∈ overtaken, ¬ a.Configures := by
    simp [overtaken, Action.Configures]
  obtain ⟨hruns, -, -, -, hcount⟩ := bounded_churn hrun hfix hj
  rw [ht] at hcount
  exact ⟨s, hrun, hclaims, hclaims ▸ hruns, hcount⟩

end System

end JobWorkflow
