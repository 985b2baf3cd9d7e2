import JobWorkflow.System.Deployed
import JobWorkflow.System.Exclusion
import JobWorkflow.System.Recovery

/-!
# System/Transport — what is deployed keeps what is proved

What holds of the machine over `InMemoryStore` holds of the one over `PostgresStore`, whose runs are
the same (`System/Deployed`).

* `deployed_exclusive` — its workers exclude each other exactly when its sweeps spare them.
* `deployed_jobs_end` — its components can bring every row of `jobs` to a terminal status.
-/

namespace JobWorkflow

variable {ρ : Renaming} {table : Table configSchema}

/-! ## Every table has its dictionary -/

/-- The configured defaults are objects. -/
def Configured (table : Table configSchema) : Prop :=
  ∀ row ∈ table.rows, ∃ o, row.payload = .object o

/-- The configuration of a row, for `InMemoryStore`. -/
def ConfigRow.typeConfig (row : ConfigRow) : TypeConfig where
  runTimeout := row.runTimeout
  maxAttempts := row.maxAttempts
  payload :=
    match row.payload with
    | .object o => o
    | _ => ∅

theorem exists_sameConfig (h : Configured table) : ∃ cfg, SameConfig cfg table := by
  refine ⟨⟨table.rows.map fun row => (row.jobType, row.typeConfig), ?_⟩, fun t => ?_⟩
  · rw [List.map_map]
    exact table.nodup_key
  · rw [Dict.get?, List.find?_map, Option.map_map]
    change Option.Rel ConfigRel ((table.find? t).map _) (table.find? t)
    cases hrow : table.find? t with
    | none => exact .none
    | some row =>
      obtain ⟨o, ho⟩ := h row (List.mem_of_find?_eq_some hrow)
      refine .some ⟨rfl, rfl, ho.trans ?_⟩
      rw [Function.comp_apply, ConfigRow.typeConfig, ho]

/-! ## One worker at a time -/

namespace Deployed

open JobWorkflow.System (Action)

def status (d : Deployed) (i : JobId) : Option JobStatus := (d.store.getJob i).map Job.status

/-- Worker `w` is in the midst of a run. -/
structure Engaged (d : Deployed) (w : ℕ) (inv : Invocation) : Prop where
  worker : d.workers w = some inv
  stage : inv.stage.Engaged

/-- Workers exclude each other. -/
structure Exclusive (d : Deployed) : Prop where
  running : ∀ w inv, d.Engaged w inv → d.status inv.envelope.jobId = some .running
  one_per_type : ∀ w w' inv inv', d.Engaged w inv → d.Engaged w' inv' →
    inv.envelope.jobType = inv'.envelope.jobType → w = w'

/-- A `requeue_stuck` or `dead_letter` that takes effect is not on the job of an engaged worker. -/
def SparesEngaged [ColumnTypes] (d : Deployed) (a : Action) : Prop := ∀ k now sweep c,
  a = .reap k now → d.reapers k = some sweep → sweep.call now = some c →
    ∀ w inv, d.Engaged w inv → ¬ Touches inv.envelope.jobId c (d.reply c)

end Deployed

namespace Matches

variable {s : System} {d : Deployed}

theorem status (h : Matches ρ s d) {i i' : JobId} (hi : ρ.Corr i i') :
    s.status i = d.status i' := by
  rw [System.status, Deployed.status]
  rcases (h.stores.mirrors.getJob hi).eq_cases with ⟨hj, hj'⟩ | ⟨j, j', hj, hj', hrel⟩
  · rw [hj, hj', Option.map_none]
  · rw [hj, hj', Option.map_some, Option.map_some, hrel.status]

theorem engaged (h : Matches ρ s d) (w : ℕ) :
    (∀ inv, s.Engaged w inv → ∃ inv', d.Engaged w inv' ∧ InvocationRel ρ inv inv') ∧
      ∀ inv', d.Engaged w inv' → ∃ inv, s.Engaged w inv ∧ InvocationRel ρ inv inv' := by
  rcases (h.workers w).eq_cases with ⟨hw, hw'⟩ | ⟨x, x', hw, hw', hx⟩
  · exact ⟨fun inv he => (nomatch hw.symm.trans he.worker),
      fun inv' he => (nomatch hw'.symm.trans he.worker)⟩
  · refine ⟨fun inv he => ?_, fun inv' he => ?_⟩
    · obtain rfl := Option.some.inj (hw.symm.trans he.worker)
      exact ⟨x', ⟨hw', hx.stage ▸ he.stage⟩, hx⟩
    · obtain rfl := Option.some.inj (hw'.symm.trans he.worker)
      exact ⟨x, ⟨hw, hx.stage.symm ▸ he.stage⟩, hx⟩

theorem exclusive_congr (h : Matches ρ s d) : System.Exclusive s ↔ Deployed.Exclusive d := by
  have hcorr : ∀ {x x' : Invocation}, InvocationRel ρ x x' →
      ρ.Corr x.envelope.jobId x'.envelope.jobId := fun hx => h.stores.mirrors.monotone.corr hx.jobId
  constructor
  · refine fun hs => ⟨fun w inv' he => ?_, fun w w' x x' he he' ht => ?_⟩
    · obtain ⟨inv, hinv, hrel⟩ := (h.engaged w).2 inv' he
      exact (h.status (hcorr hrel)).symm.trans (hs.running w inv hinv)
    · obtain ⟨y, hy, hrel⟩ := (h.engaged w).2 x he
      obtain ⟨y', hy', hrel'⟩ := (h.engaged w').2 x' he'
      exact hs.one_per_type w w' y y' hy hy' (hrel.jobType.trans (ht.trans hrel'.jobType.symm))
  · refine fun hd => ⟨fun w inv he => ?_, fun w w' x x' he he' ht => ?_⟩
    · obtain ⟨inv', hinv', hrel⟩ := (h.engaged w).1 inv he
      exact (h.status (hcorr hrel)).trans (hd.running w inv' hinv')
    · obtain ⟨y, hy, hrel⟩ := (h.engaged w).1 x he
      obtain ⟨y', hy', hrel'⟩ := (h.engaged w').1 x' he'
      exact hd.one_per_type w w' y y' hy hy' (hrel.jobType.symm.trans (ht.trans hrel'.jobType))

/-- Corresponding calls take effect on corresponding jobs. -/
theorem touches_iff [ColumnTypes] (h : Matches ρ s d) {i i' : JobId} (hi : (i, i') ∈ ρ)
    {c c' : Call} (hc : Same ρ s.store c c') :
    Touches i c (s.reply c) ↔ Touches i' c' (d.reply c') := by
  have htarget : c.target = some i ↔ c'.target = some i' := by
    have heq : ∀ {k k' : JobId}, ρ.Corr k k' → (some k = some i ↔ some k' = some i') := by
      intro k k' hk
      rw [Option.some_inj, Option.some_inj, eq_comm, hk _ hi, eq_comm]
    cases hc.1 with
    | claim hk => exact heq hk
    | resolvePayload hk => exact heq hk
    | complete hk => exact heq hk
    | fail hk => exact heq hk
    | requeueStuck hk => exact heq hk
    | deadLetter hk => exact heq hk
    | _ => exact ⟨nofun, nofun⟩
  obtain ⟨ρ', -, hreply, -⟩ := h.performed hc .producer
  exact and_congr htarget (hreply.effective ▸ Iff.rfl)

theorem spares_iff [ColumnTypes] (h : Matches ρ s d) (a : System.Action) :
    System.SparesEngaged s a.oneClock ↔ Deployed.SparesEngaged d a := by
  constructor
  · rintro hs k now sweep' c' rfl hk' hc' w inv' he ht
    obtain ⟨inv, hinv, hrel⟩ := (h.engaged w).2 inv' he
    rcases (h.reapers k).eq_cases with ⟨-, hno⟩ | ⟨sweep, _, hk, hk'', hsweep⟩
    · exact nomatch hno.symm.trans hk'
    · obtain rfl := Option.some.inj (hk''.symm.trans hk')
      rcases (hsweep.call h.stores.mirrors).eq_cases with
        ⟨-, hno⟩ | ⟨c, _, hc, hc'', hcall⟩
      · exact nomatch hno.symm.trans hc'
      · obtain rfl := Option.some.inj (hc''.symm.trans hc')
        exact hs k now sweep c rfl hk hc w inv hinv ((h.touches_iff hrel.jobId hcall).mpr ht)
  · rintro hd k now sweep c ha hk hc w inv he ht
    obtain rfl : a = .reap k now := by
      cases a with
      | enqueue => exact nomatch ha
      | _ => exact ha
    obtain ⟨inv', hinv', hrel⟩ := (h.engaged w).1 inv he
    rcases (h.reapers k).eq_cases with ⟨hno, -⟩ | ⟨_, sweep', hk'', hk', hsweep⟩
    · exact nomatch hno.symm.trans hk
    · obtain rfl := Option.some.inj (hk''.symm.trans hk)
      rcases (hsweep.call h.stores.mirrors).eq_cases with
        ⟨hno, -⟩ | ⟨_, c', hc'', hc', hcall⟩
      · exact nomatch hno.symm.trans hc
      · obtain rfl := Option.some.inj (hc''.symm.trans hc)
        exact hd k now sweep' c' rfl hk' hc' w inv' hinv' ((h.touches_iff hrel.jobId hcall).mp ht)

end Matches

/-- **Workers over `PostgresStore` exclude each other**, in every state of a run, in exactly the
runs whose sweeps recover no engaged worker's job. -/
theorem deployed_exclusive [ColumnTypes] (ht : Configured table) (as : List System.Action)
    (hty : ∀ a ∈ as, a.Typed) :
    (∀ bs, bs <+: as → ∀ d ∈ Runs.run Deployed.step (Deployed.start table) bs, d.Exclusive) ↔
      Runs.Along Deployed.step Deployed.SparesEngaged (Deployed.start table) as := by
  obtain ⟨cfg, hcfg⟩ := exists_sameConfig ht
  -- each step is one of the machine over `InMemoryStore`, between matching states
  have hstep : ∀ d a d', (∃ s, Mirrored cfg s d) → System.Action.Typed a →
      Deployed.step d a = some d' → ∃ s s', Mirrored cfg s d ∧ Mirrored cfg s' d' ∧
        System.step s a.oneClock = some s' := by
    rintro d a d' ⟨s, hs⟩ ha hd
    rcases (mirrored_step s d a hs ⟨ha, Deployed.taken_of_step hd⟩).eq_cases with
      ⟨-, hno⟩ | ⟨s', _, hs', hd', hm⟩
    · cases hno.symm.trans hd
    · obtain rfl := Option.some.inj (hd'.symm.trans hd)
      exact ⟨s, s', hs, hm, hs'⟩
  refine Runs.prefixes_iff_along_of (I := fun d => ∃ s, Mirrored cfg s d)
    (F := System.Action.Typed) (fun d a d' hd ha h => ?_) (fun d a d' hd ha hp h => ?_)
    (fun d a hnone => ?_) as hty _ ⟨_, mirrored_start hcfg⟩
    ⟨fun _ _ h => (nomatch h.worker), fun _ _ _ _ h => (nomatch h.worker)⟩
  · obtain ⟨-, s', -, hs', -⟩ := hstep d a d' hd ha h
    exact ⟨s', hs'⟩
  · obtain ⟨s, s', ⟨hreach, ρ, hm⟩, ⟨-, ρ', hm'⟩, hs⟩ := hstep d a d' hd ha h
    rw [← hm'.exclusive_congr, ← hm.spares_iff a]
    exact (hm.exclusive_congr.mpr hp).iff_spares hreach (System.step_cases hs)
  · rintro k now sweep c rfl hk hc
    rw [Deployed.step, hk, Option.bind_some, hc] at hnone
    cases hnone

attribute [local instance] ColumnTypes.nulFree in
/-- No sweep, and so nobody to spare: the worker that has claimed the job is alone on it. -/
theorem deployed_exclusive_claimed : ∃ d, Runs.run Deployed.step (Deployed.start ∅)
    [.enqueue "hello" none none 0 0, .dispatch 0 10 1, .publish 0, .poll 0 0, .work 0 2] = some d ∧
      d.status 1 = some .running ∧ d.Exclusive := by
  obtain ⟨d, hd, hst⟩ : ∃ d, Runs.run Deployed.step (Deployed.start ∅)
      [.enqueue "hello" none none 0 0, .dispatch 0 10 1, .publish 0, .poll 0 0, .work 0 2] =
        some d ∧ d.status 1 = some .running := ⟨_, rfl, rfl⟩
  refine ⟨d, hd, hst, (deployed_exclusive (fun _ h => nomatch h : Configured ∅) _ ?_).mpr ?_ _
    (List.prefix_refl _) d hd⟩
  · simp [System.Action.Typed, hasTextClient]
  · refine (Runs.along_of_forall (p := fun a => ∀ k now, a ≠ .reap k now) _ _ (by simp)).imp ?_
    exact fun d a ha k now _ _ he => absurd he (ha k now)

/-! ## No dead end -/

namespace Deployed

open JobWorkflow.System (Action)

/-- Kafka holds a message for job `i` that no worker is past the claim with. -/
def Live (d : Deployed) (i : JobId) : Prop := ∃ offset rec, d.produced[offset]? = some rec ∧
  rec.message.jobId = i ∧ offset ∉ d.committed ∧
    ∀ w inv, d.workers w = some inv → inv.offset = offset → inv.stage = .claim

/-- If the action marks a row whose job is queued, the job has a live message. -/
def MarksLive (d : Deployed) (a : Action) : Prop :=
  ∀ n batchSize now msg messages, a = .dispatch n batchSize now →
    d.dispatchers n = ⟨msg :: messages, true⟩ → d.status msg.jobId = some .queued →
      d.Live msg.jobId

end Deployed

namespace Matches

variable {s : System} {d : Deployed}

theorem live_iff (h : Matches ρ s d) {i i' : JobId} (hi : ρ.Corr i i') :
    s.Live i ↔ d.Live i' := by
  constructor
  · rintro ⟨offset, ⟨⟨rec, hrec, rfl⟩, hun⟩, hlive⟩
    rcases (h.produced.getElem? offset).eq_cases with ⟨hno, -⟩ | ⟨_, rec', hr, hr', hrel⟩
    · exact nomatch hno.symm.trans hrec
    · obtain rfl := Option.some.inj (hr.symm.trans hrec)
      refine ⟨offset, rec', hr', (hi _ hrel.jobId).mp rfl, h.committed ▸ hun,
        fun w inv' hw' ho => ?_⟩
      rcases (h.workers w).eq_cases with ⟨-, hno⟩ | ⟨inv, _, hw, hw'', hinv⟩
      · exact nomatch hno.symm.trans hw'
      · obtain rfl := Option.some.inj (hw''.symm.trans hw')
        exact hinv.stage ▸ hlive w inv hw (hinv.offset.trans ho)
  · rintro ⟨offset, rec', hrec', rfl, hun, hlive⟩
    rcases (h.produced.getElem? offset).eq_cases with ⟨-, hno⟩ | ⟨rec, _, hr, hr', hrel⟩
    · exact nomatch hno.symm.trans hrec'
    · obtain rfl := Option.some.inj (hr'.symm.trans hrec')
      refine ⟨offset, ⟨⟨rec, hr, (hi _ hrel.jobId).mpr rfl⟩, h.committed ▸ hun⟩,
        fun w inv hw ho => ?_⟩
      rcases (h.workers w).eq_cases with ⟨hno, -⟩ | ⟨_, inv', hw'', hw', hinv⟩
      · exact nomatch hno.symm.trans hw
      · obtain rfl := Option.some.inj (hw''.symm.trans hw)
        exact hinv.stage ▸ hlive w inv' hw' (hinv.offset ▸ ho)

theorem marksLive_iff (h : Matches ρ s d) (a : System.Action) :
    System.MarksLive s a.oneClock ↔ Deployed.MarksLive d a := by
  have hdisp : ∀ {n batchSize now}, a.oneClock = .dispatch n batchSize now ↔
      a = .dispatch n batchSize now := by
    intro n batchSize now
    cases a with
    | enqueue => exact ⟨nofun, nofun⟩
    | _ => exact Iff.rfl
  constructor
  · intro hs n batchSize now msg' messages' ha hd' hq
    obtain ⟨hmessages, hsent⟩ := h.dispatchers n
    rcases hx : s.dispatchers n with ⟨messages, sent⟩
    rw [hx, hd'] at hmessages hsent
    cases hmessages with
    | @cons msg _ messages _ hm hrest =>
      have hcorr := h.stores.mirrors.monotone.corr hm.jobId
      obtain rfl : sent = true := hsent
      exact (h.live_iff hcorr).mp (hs n batchSize now msg messages (hdisp.mpr ha) hx
        ((h.status hcorr).trans hq))
  · intro hd n batchSize now msg messages ha hd' hq
    obtain ⟨hmessages, hsent⟩ := h.dispatchers n
    rcases hx : d.dispatchers n with ⟨messages', sent⟩
    rw [hx, hd'] at hmessages hsent
    cases hmessages with
    | @cons _ msg' _ messages' hm hrest =>
      have hcorr := h.stores.mirrors.monotone.corr hm.jobId
      obtain rfl : true = sent := hsent
      exact (h.live_iff hcorr).mpr (hd n batchSize now msg' messages' (hdisp.mp ha) hx
        ((h.status hcorr).symm.trans hq))

/-- Each row of `jobs` is a job of the other store, in the same status. -/
theorem job_of_row (h : Matches ρ s d) {i' : JobId} {j' : Job} (hj' : d.store.getJob i' = some j') :
    ∃ i j, (i, i') ∈ ρ ∧ s.store.getJob i = some j ∧ j.status = j'.status := by
  rw [PostgresStore.getJob] at hj'
  obtain ⟨row, hrow, rfl⟩ := Option.map_eq_some_iff.mp hj'
  obtain ⟨hmem, rfl⟩ := Table.find?_eq_some.mp hrow
  obtain ⟨e, he, hrel⟩ := h.stores.mirrors.jobs.exists_left hmem
  exact ⟨e.1, e.2, hrel.ids, Dict.get?_eq_some.mpr he, hrel.status⟩

end Matches

theorem System.Action.OfComponents.typed {a : System.Action} (h : a.OfComponents) :
    a.Typed ∧ a.oneClock = a := by
  cases a with
  | enqueue => exact h.elim
  | dispatch => exact ⟨h, rfl⟩
  | _ => exact ⟨trivial, rfl⟩

theorem System.Action.OfComponents.taken [ColumnTypes] {a : System.Action} (h : a.OfComponents) :
    a.Taken := by
  cases a with
  | enqueue | configure => exact h.elim
  | _ => trivial

/-- **What is deployed has no dead end**: from every state of a run whose marks of queued jobs find
a live message, and from any reading of the clock on, the components alone can bring every row of
`jobs` to a terminal status. -/
theorem deployed_jobs_end [ColumnTypes] (ht : Configured table) {as : List System.Action}
    (hty : ∀ a ∈ as, a.Typed) {d : Deployed}
    (hrun : Runs.run Deployed.step (Deployed.start table) as = some d)
    (hok : Runs.Along Deployed.step Deployed.MarksLive (Deployed.start table) as) (t : Time) :
    ∃ bs t' d', (∀ b ∈ bs, b.OfComponents) ∧ System.Clocked t t' bs ∧
      Runs.run Deployed.step d bs = some d' ∧
      ∀ i j, d'.store.getJob i = some j → j.status ∈ JobStatus.terminal := by
  obtain ⟨cfg, hcfg⟩ := exists_sameConfig ht
  have hstart := mirrored_start hcfg
  have has : ∀ a ∈ as, a.Typed ∧ a.Taken := fun a ha =>
    ⟨hty a ha, Deployed.taken_of_run hrun a ha⟩
  rcases (Runs.lockstep System.Action.oneClock mirrored_step as has hstart).eq_cases with
    ⟨-, hno⟩ | ⟨s, _, hs, hd, hm⟩
  · exact nomatch hno.symm.trans hrun
  obtain rfl := Option.some.inj (hd.symm.trans hrun)
  have hlive := (Runs.along_iff_of_lockstep System.Action.oneClock mirrored_step
    (fun s d a h _ => h.agree.elim fun _ h => h.marksLive_iff a) as has hstart).mpr hok
  obtain ⟨t', s', ⟨bs, hbs, hclock, hrun', -⟩, hend⟩ :=
    System.drive_all t (System.sane hs hlive)
  have hmap : bs.map System.Action.oneClock = bs :=
    (List.map_congr_left fun b hb => (hbs b hb).typed.2).trans (List.map_id bs)
  rcases (Runs.lockstep System.Action.oneClock mirrored_step bs
    (fun b hb => ⟨(hbs b hb).typed.1, (hbs b hb).taken⟩) hm).eq_cases with
    ⟨hno, -⟩ | ⟨_, d', hs', hd', -, ρ, hm'⟩
  · rw [hmap] at hno
    exact nomatch hno.symm.trans hrun'
  rw [hmap] at hs'
  obtain rfl := Option.some.inj (hs'.symm.trans hrun')
  refine ⟨bs, t', d', hbs, hclock, hd', fun i' j' hj' => ?_⟩
  obtain ⟨i, j, -, hj, hst⟩ := hm'.job_of_row hj'
  exact hst ▸ hend i j hj

attribute [local instance] ColumnTypes.nulFree in
/-- The worker that claimed the job stops, and commits nothing. -/
theorem deployed_jobs_end_abandoned : ∃ d, Runs.run Deployed.step (Deployed.start ∅)
    [.enqueue "hello" none none 0 0, .dispatch 0 10 1, .publish 0, .poll 0 0, .work 0 2,
      .stopWorker 0] = some d ∧ d.status 1 = some .running ∧
    ∃ bs t' d', System.Clocked 2 t' bs ∧ Runs.run Deployed.step d bs = some d' ∧
      ∀ i j, d'.store.getJob i = some j → j.status ∈ JobStatus.terminal := by
  obtain ⟨d, hrun, hst⟩ : ∃ d, Runs.run Deployed.step (Deployed.start ∅)
      [.enqueue "hello" none none 0 0, .dispatch 0 10 1, .publish 0, .poll 0 0, .work 0 2,
        .stopWorker 0] = some d ∧ d.status 1 = some .running := ⟨_, rfl, rfl⟩
  have others : ∀ (as : List System.Action) d, (∀ a ∈ as, ∀ n b now, a ≠ .dispatch n b now) →
      Runs.Along Deployed.step Deployed.MarksLive d as := fun as d has =>
    (Runs.along_of_forall as d has).imp fun _ _ hne n b now _ _ he => absurd he (hne n b now)
  have hok : Runs.Along Deployed.step Deployed.MarksLive (Deployed.start ∅)
      [.enqueue "hello" none none 0 0, .dispatch 0 10 1, .publish 0, .poll 0 0, .work 0 2,
        .stopWorker 0] := by
    refine Runs.along_cons (fun _ _ _ _ _ he => nomatch he) rfl
      (Runs.along_cons ?_ rfl (others _ _ (by simp)))
    rintro n b now msg messages ⟨⟩ hd
    exact nomatch congrArg Dispatcher.messages hd
  obtain ⟨bs, t', d', -, hclock, hrun', hend⟩ :=
    deployed_jobs_end (fun _ h => nomatch h : Configured ∅)
      (by simp [System.Action.Typed, hasTextClient]) hrun hok 2
  exact ⟨d, hrun, hst, bs, t', d', hclock, hrun', hend⟩

end JobWorkflow
