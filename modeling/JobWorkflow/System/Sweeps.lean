import JobWorkflow.System.Ownership

/-!
# System/Sweeps — what a reaper knows of the runs it recovers

A sweep acts on a snapshot: `requeue_stuck` and `dead_letter` test the status again, and the cap,
but not the age.  A run that was claimed or resolved after the sweep listed it is recovered all the
same (`refreshed_run_recovered`); `recovered_was_listed` is what the guards leave.
-/

namespace JobWorkflow

namespace System

variable {s s' : System} {a : Action} {cfg : Dict String TypeConfig}

/-- The condition of `find_stuck` on job `i`, at a clock reading. -/
def StuckAt (s : System) (i : JobId) (now : Time) : Prop :=
  ∃ j, s.store.getJob i = some j ∧ j.status = .running ∧
    s.store.timeout j.jobType < now - j.updatedAt

/-- The `requeue_stuck` or `dead_letter` call that sweep makes at `now` changes job `i`. -/
structure Recovers (s s' : System) (k : ℕ) (sweep : Sweep) (now : Time) (i : JobId) : Prop where
  reaper : s.reapers k = some sweep
  step : s.step (.reap k now) = some s'
  changes : s'.store.getJob i ≠ s.store.getJob i

/-! ## What is left of a listing -/

/-- Each sweep works through a listing of its own that is in the journal. -/
def Listed (s : System) : Prop := ∀ k sweep, s.reapers k = some sweep →
  ∃ newer t xs older, s.journal = newer ++ ⟨.reaper sweep.id, .findStuck t, .stuck xs⟩ :: older ∧
    sweep.stuck ⊆ xs

theorem Listed.start (cfg : Dict String TypeConfig) : Listed (start cfg) :=
  fun _ _ (h : none = some _) => nomatch h

theorem Step.journal_suffix (h : Step s a s') : ∃ newer, s'.journal = newer ++ s.journal := by
  rcases h.journal_cases with he | ⟨actor, c, -, he⟩
  · exact ⟨[], he⟩
  · exact ⟨[_], he⟩

/-- A reaper's sweep after a step is the one before with no more to do, or has just listed. -/
theorem Step.sweep_cases (h : Step s a s') {k : ℕ} {sweep' : Sweep}
    (hk' : s'.reapers k = some sweep') :
    (∃ sweep, s.reapers k = some sweep ∧ sweep'.id = sweep.id ∧ sweep'.stuck ⊆ sweep.stuck) ∨
    ∃ now, s'.journal = ⟨.reaper sweep'.id, .findStuck now, .stuck sweep'.stuck⟩ :: s.journal := by
  have same : s.reapers k = some sweep' →
      ∃ sweep, s.reapers k = some sweep ∧ sweep'.id = sweep.id ∧ sweep'.stuck ⊆ sweep.stuck :=
    fun hk => ⟨sweep', hk, rfl, List.Subset.refl _⟩
  cases h with
  | find hk =>
    rcases update_cases hk' with hk | ⟨rfl, hv⟩
    · exact Or.inl (same hk)
    · obtain rfl := Option.some.inj hv
      exact Or.inr ⟨_, rfl⟩
  | reap hk hc =>
    rename_i k' now sweep c
    rcases update_cases hk' with hk | ⟨rfl, hv⟩
    · exact Or.inl (same hk)
    · obtain rfl := Option.some.inj hv
      exact Or.inl ⟨sweep, hk, sweep.reply_same _⟩
  | stopReaper =>
    rcases update_cases hk' with hk | ⟨rfl, hv⟩
    · exact Or.inl (same hk)
    · exact nomatch hv
  | _ => exact Or.inl (same hk')

theorem Listed.of_step (hs : Listed s) (h : Step s a s') : Listed s' := by
  intro k sweep' hk'
  rcases h.sweep_cases hk' with ⟨sweep, hk, hid, hsub⟩ | ⟨now, he⟩
  · obtain ⟨newer, t, xs, older, hsplit, hxs⟩ := hs k sweep hk
    obtain ⟨newest, he⟩ := h.journal_suffix
    refine ⟨newest ++ newer, t, xs, older, ?_, List.Subset.trans hsub hxs⟩
    rw [he, hsplit, hid, List.append_assoc]
  · exact ⟨[], now, sweep'.stuck, s.journal, he, List.Subset.refl _⟩

theorem listed (h : Runs.Reachable step (start cfg) s) : Listed s :=
  h.invariant (Listed.start cfg) fun _ _ _ hs ha => hs.of_step (step_cases ha)

/-! ## What a sweep recovers -/

/-- A recovery call that changes a job is about that job, and finds it running. -/
theorem running_of_recovered {c : Call} {s s' : InMemoryStore} {r : Reply} {i k : JobId}
    {now : Time} (hc : c = .requeueStuck k now ∨ c = .deadLetter k now) (h : Effect s c r s')
    (hw : WellKeyed s) (hne : s'.getJob i ≠ s.getJob i) :
    k = i ∧ ∃ j, s.getJob i = some j ∧ j.status = .running := by
  cases hj : s.getJob i with
  | none =>
    cases hj' : s'.getJob i with
    | none => exact absurd (hj'.trans hj.symm) hne
    | some j' =>
      obtain ⟨t, p, cr, ca, ua, rfl, -⟩ := h.new_job hj hj'
      exact nomatch hc
  | some j =>
    obtain ⟨j', hj', hm⟩ := h.job hw hj
    rw [hj, hj'] at hne
    rcases hc with rfl | rfl
    · cases hm with
      | stay hn => exact absurd rfl hne
      | requeue hr hcap => exact ⟨rfl, j, rfl, hr⟩
    · cases hm with
      | stay hn => exact absurd rfl hne
      | deadLetter hr => exact ⟨rfl, j, rfl, hr⟩

/-- **A recovered run was listed by the sweep and is running**, and, unless it was claimed or
resolved since the listing, it is stuck at that very moment. -/
theorem recovered_was_listed (h : Runs.Reachable step (start cfg) s) {k : ℕ} {sweep : Sweep}
    {now : Time} {i : JobId} (hr : Recovers s s' k sweep now i) :
    s.status i = some .running ∧ ∃ newer t xs older x,
      s.journal = newer ++ ⟨.reaper sweep.id, .findStuck t, .stuck xs⟩ :: older ∧
      x ∈ xs ∧ x.jobId = i ∧ (Ledger.Untouched i newer → t ≤ now → s.StuckAt i now) := by
  obtain ⟨hk, hstep, hne⟩ := hr
  cases step_cases hstep with
  | reap hk' hc =>
  rename_i sweep' c
  obtain rfl : sweep' = sweep := Option.some.inj (hk'.symm.trans hk)
  obtain ⟨x, stuck, hstuck, hcall⟩ := Sweep.call_cases hc
  have hrecovery : c = .requeueStuck x.jobId now ∨ c = .deadLetter x.jobId now :=
    hcall.imp And.right And.right
  obtain ⟨rfl, j, hj, hrun⟩ :=
    running_of_recovered hrecovery (exec_effect c s.store) (sound h).wellKeyed hne
  obtain ⟨newer, t, xs, older, hsplit, hsub⟩ := listed h k sweep' hk
  have hx : x ∈ xs := hsub (by rw [hstuck]; exact List.mem_cons_self)
  refine ⟨by rw [status, hj, Option.map_some, hrun], newer, t, xs, older, x, hsplit, hx, rfl,
    fun huntouched hle => ⟨j, hj, hrun, ?_⟩⟩
  have hold := Ledger.still_stuck (ledger_reachable h) newer _ t xs older x hsplit hx huntouched
    j hj hrun
  exact hold.trans_le (Int.sub_le_sub_right hle _)

/-! ## A refreshed run -/

/-- The clock readings of an action. -/
def Action.readings : Action → List Time
  | .enqueue _ _ _ createdAt updatedAt => [createdAt, updatedAt]
  | .dispatch _ _ now | .work _ now | .find _ now | .reap _ now => [now]
  | _ => []

/-- The clock never goes back. -/
def Timely (as : List Action) : Prop := (as.flatMap Action.readings).Pairwise (· ≤ ·)

/-- The reaper lists the run of a slow worker, which then resolves its payload. -/
def refreshed : List Action :=
  [.enqueue "hello" none none 0 0,
    .dispatch 0 10 1, .publish 0, .dispatch 0 10 1,
    .poll 0 0, .work 0 2, .find 0 (defaultRunTimeout + 3), .work 0 (defaultRunTimeout + 4)]

theorem refreshed_recovers : ∃ s s' sweep, Runs.run step (start helloConfig) refreshed = some s ∧
    Recovers s s' 0 sweep (defaultRunTimeout + 5) 1 ∧
    (s.store.getJob 1).map Job.updatedAt = some (defaultRunTimeout + 4) ∧
    s.store.timeout = (start helloConfig).store.timeout ∧
    (s.store.getJob 1).map Job.jobType = some "hello" := by
  obtain ⟨s, s', sweep, hs, hstep, hk, hbefore, hafter, hrest⟩ : ∃ s s' sweep,
      Runs.run step (start helloConfig) refreshed = some s ∧
      s.step (.reap 0 (defaultRunTimeout + 5)) = some s' ∧ s.reapers 0 = some sweep ∧
      s.status 1 = some .running ∧ s'.status 1 = some .queued ∧
      (s.store.getJob 1).map Job.updatedAt = some (defaultRunTimeout + 4) ∧
      s.store.timeout = (start helloConfig).store.timeout ∧
      (s.store.getJob 1).map Job.jobType = some "hello" :=
    ⟨_, _, _, rfl, rfl, rfl, rfl, rfl, rfl, rfl, rfl⟩
  refine ⟨s, s', sweep, hs, ⟨hk, hstep, fun he => ?_⟩, hrest⟩
  rw [status, he] at hafter
  exact absurd (hbefore.symm.trans hafter) (by decide)

/-- **A run that was just refreshed is recovered**, with a clock that never goes back. -/
theorem refreshed_run_recovered :
    ¬ ∀ cfg as s, Timely as → Runs.run step (start cfg) as = some s →
      ∀ s' k sweep now i, (∀ t ∈ as.flatMap Action.readings, t ≤ now) →
        Recovers s s' k sweep now i → s.StuckAt i now := by
  intro hall
  obtain ⟨s, s', sweep, hs, hr, hupdated, htimeout, htype⟩ := refreshed_recovers
  have htimely : Timely refreshed := by
    rw [Timely, refreshed]
    decide
  have hlater : ∀ t ∈ refreshed.flatMap Action.readings, t ≤ defaultRunTimeout + 5 := by
    rw [refreshed]
    decide
  obtain ⟨j, hj, -, hold⟩ := hall helloConfig refreshed s htimely hs s' 0 sweep _ 1 hlater hr
  rw [hj, Option.map_some] at hupdated htype
  rw [htimeout, Option.some.inj hupdated, Option.some.inj htype] at hold
  exact absurd hold (by decide)

/-- The refreshed run was listed by the sweep that recovers it. -/
theorem recovered_was_listed_refreshed : ∃ s sweep,
    Runs.run step (start helloConfig) refreshed = some s ∧ s.status 1 = some .running ∧
    ∃ newer t xs older x,
      s.journal = newer ++ ⟨.reaper sweep, .findStuck t, .stuck xs⟩ :: older ∧ x ∈ xs ∧
      x.jobId = 1 ∧ (Ledger.Untouched 1 newer → t ≤ defaultRunTimeout + 5 →
        s.StuckAt 1 (defaultRunTimeout + 5)) := by
  obtain ⟨s, s', sweep, hs, hr, -⟩ := refreshed_recovers
  exact ⟨s, sweep.id, hs, recovered_was_listed ⟨refreshed, hs⟩ hr⟩

end System

end JobWorkflow
