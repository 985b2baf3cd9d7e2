import JobWorkflow.System.Churn
import JobWorkflow.System.Sweeps

/-!
# System/Exhaustion — whether a dead-lettered run has used up its attempts

`requeue_stuck` refuses a run at its cap, and also one that is not running; `reap_once` takes either
refusal for the cap, and `dead_letter` tests the status alone.  So a job that another sweep has
re-queued in between, and that a worker has claimed again, is failed with attempts left
(`restarted_run_killed`).  `dead_letters_exhausted` is the exact condition.
-/

namespace JobWorkflow

/-- A job that ends up running, and that the call did not claim, ran before on the same attempt. -/
theorem Move.same_attempt {cap : String → ℤ} {i : JobId} {c : Call} {r : Reply} {j j' : Job}
    {ι : Type} {actor : ι} (h : Move cap i c r j j') (hrun : j'.status = .running)
    (hc : (⟨actor, c, r⟩ : Entry ι).claims i = false) :
    j.status = .running ∧ j'.attempts = j.attempts := by
  cases h with
  | stay h => exact ⟨hrun, rfl⟩
  | claim h =>
    rename_i now
    have hclaims : (⟨actor, .claim i now, .flag true⟩ : Entry ι).claims i = true :=
      decide_eq_true ⟨rfl, rfl⟩
    exact absurd (hc.symm.trans hclaims) Bool.false_ne_true
  | resolve h => exact ⟨h, rfl⟩
  | _ => exact nomatch hrun

/-- A re-queue fails no job. -/
theorem Move.failed_of_requeue {cap : String → ℤ} {i k : JobId} {now : Time} {r : Reply}
    {j j' : Job} (h : Move cap i (.requeueStuck k now) r j j') (hf : j'.status = .failed) :
    j.status = .failed := by
  cases h with
  | stay h => exact hf
  | requeue h hcap => exact nomatch hf

namespace System

variable {s s' : System} {a : Action} {cfg : Dict String TypeConfig}

/-! ## Refusals -/

/-- The sweep is about to dead-letter job `i`. -/
def Refused (sweep : Sweep) (i : JobId) : Prop :=
  ∃ x stuck, sweep.stuck = x :: stuck ∧ sweep.refused = true ∧ x.jobId = i

/-- The refusal of a `requeue_stuck` that sweep `id` made of job `i`. -/
def refusal (id : ℕ) (i : JobId) (now : Time) : Entry Actor :=
  ⟨.reaper id, .requeueStuck i now, .flag false⟩

/-- A sweep about to dead-letter a job was before, or has just been refused the re-queue. -/
theorem Step.refused_cases (h : Step s a s') {k : ℕ} {sweep' : Sweep} {i : JobId}
    (hk' : s'.reapers k = some sweep') (hr : Refused sweep' i) :
    s.reapers k = some sweep' ∨
    ∃ now, s'.journal = refusal sweep'.id i now :: s.journal ∧
      (s.store.requeueStuck i now).1 = false := by
  obtain ⟨y, stuck', hstuck', hrefused, rfl⟩ := hr
  cases h with
  | find hk =>
    refine (update_cases hk').imp_right fun ⟨_, hv⟩ => ?_
    obtain rfl := Option.some.inj hv
    exact absurd hrefused Bool.false_ne_true
  | reap hk hc =>
    rename_i k' now sweep c
    refine (update_cases hk').imp_right fun ⟨_, hv⟩ => ?_
    obtain rfl := Option.some.inj hv
    obtain ⟨x, stuck, hstuck, ⟨href, rfl⟩ | ⟨href, rfl⟩⟩ := Sweep.call_cases hc
    · cases hf : (s.store.requeueStuck x.jobId now).1 with
      | true =>
        simp [Sweep.reply, hstuck, href, System.reply, exec, Reply.effective, hf] at hrefused
      | false =>
        simp only [Sweep.reply, hstuck, href, System.reply, exec, Prod.map_fst, Reply.effective, hf]
          at hstuck'
        obtain ⟨rfl, -⟩ := List.cons.inj hstuck'
        have hreply : s.reply (.requeueStuck x.jobId now) = .flag false := congrArg Reply.flag hf
        refine ⟨now, ?_, hf⟩
        rw [(sweep.reply_same _).1, refusal, ← hreply]
        rfl
    · simp only [Sweep.reply, hstuck, href] at hrefused
      split at hrefused
      · exact absurd hrefused Bool.false_ne_true
      · exact absurd hrefused Bool.false_ne_true
  | stopReaper =>
    obtain hk | ⟨-, hv⟩ := update_cases hk'
    · exact Or.inl hk
    · cases hv
  | _ => exact Or.inl hk'

/-- Unless the job was claimed since, a run that a sweep was refused has used up its attempts. -/
def RefusalsSpent (s : System) : Prop := ∀ k sweep i, s.reapers k = some sweep → Refused sweep i →
  ∃ newer now older, s.journal = newer ++ refusal sweep.id i now :: older ∧
    ((∀ e ∈ newer, e.claims i = false) → ∀ j, s.store.getJob i = some j → j.status = .running →
      s.store.maxAttempts j.jobType ≤ j.attempts)

theorem RefusalsSpent.start (cfg : Dict String TypeConfig) : RefusalsSpent (start cfg) :=
  fun _ _ _ (h : none = some _) => nomatch h

theorem RefusalsSpent.of_step (hs : RefusalsSpent s) (hw : WellKeyed s.store)
    (ha : ¬ a.Configures) (h : Step s a s') : RefusalsSpent s' := by
  intro k sweep' i hk' hr
  rcases h.refused_cases hk' hr with hk | ⟨now, hjournal, hf⟩
  · obtain ⟨newer, now, older, hsplit, hspent⟩ := hs k sweep' i hk hr
    rcases h.ledger_cases with ⟨hstore, hjournal⟩ | ⟨actor, c, hc, hstore, hjournal⟩
    · exact ⟨newer, now, older, hjournal.trans hsplit, by rw [hstore]; exact hspent⟩
    · refine ⟨_ :: newer, now, older, by rw [hjournal, hsplit]; rfl, fun hno j' hj' hrun => ?_⟩
      have heff := exec_effect c s.store
      rw [hstore] at hj' ⊢
      cases hj : s.store.getJob i with
      | none =>
        obtain ⟨t, p, cr, ca, ua, -, -, -, -, rfl⟩ := heff.new_job hj hj'
        simp [InMemoryStore.newJob] at hrun
      | some j =>
        obtain ⟨j'', hj'', hm⟩ := heff.job hw hj
        obtain rfl : j' = j'' := Option.some.inj (hj'.symm.trans hj'')
        obtain ⟨hrun₀, hattempts⟩ := hm.same_attempt hrun (hno _ List.mem_cons_self)
        have hcfg : (exec s.store c).2.typeConfig = s.store.typeConfig :=
          heff.typeConfig fun t timeout cap p hcc => ha (by
            subst hcc
            rw [hc.of_configure]
            trivial)
        rw [InMemoryStore.maxAttempts, hcfg, hm.jobType_eq, hattempts]
        exact hspent (fun e he => hno e (List.mem_cons_of_mem _ he)) j hj hrun₀
  · refine ⟨[], now, s.journal, hjournal, fun _ j hj hrun => ?_⟩
    rcases s.store.requeueStuck_cases i now with ⟨j₀, -, -, -, he⟩ | ⟨hcap, he⟩
    · rw [he] at hf
      simp at hf
    · rcases h.ledger_cases with ⟨-, hsame⟩ | ⟨actor, c, -, hstore, hcons⟩
      · exact absurd (congrArg List.length (hjournal.symm.trans hsame)) (by simp)
      · obtain ⟨hentry, -⟩ := List.cons.inj (hjournal.symm.trans hcons)
        obtain ⟨-, rfl, -⟩ := Entry.mk.inj hentry
        rw [exec, he] at hstore
        rw [hstore] at hj ⊢
        exact hcap j hj hrun

/-! ## Dead letters -/

/-- A reap step that makes job `i` fail is a dead letter that finds it running. -/
theorem killed_cases {k : ℕ} {now : Time} {i : JobId} (h : Step s (.reap k now) s')
    (hw : WellKeyed s.store) (hne : s.status i ≠ some .failed)
    (hfailed : s'.status i = some .failed) :
    ∃ sweep j, s.reapers k = some sweep ∧ Refused sweep i ∧ s.store.getJob i = some j ∧
      j.status = .running := by
  cases h with
  | reap hk hc =>
  rename_i sweep c
  have hchanges : (exec s.store c).2.getJob i ≠ s.store.getJob i := fun he =>
    hne (by rw [status, ← he]; exact hfailed)
  obtain ⟨x, stuck, hstuck, hcall⟩ := Sweep.call_cases hc
  obtain ⟨rfl, j, hj, hrun⟩ := running_of_recovered (hcall.imp And.right And.right)
    (exec_effect c s.store) hw hchanges
  refine ⟨sweep, j, hk, ⟨x, stuck, hstuck, ?_, rfl⟩, hj, hrun⟩
  rcases hcall with ⟨-, rfl⟩ | ⟨href, -⟩
  · obtain ⟨j', hj', hm⟩ := (exec_effect _ s.store).job hw hj
    have hst : j'.status = .failed := by
      have he : (some j').map Job.status = some .failed := by rw [← hj']; exact hfailed
      exact Option.some.inj he
    exact absurd (hrun.symm.trans (hm.failed_of_requeue hst)) (by decide)
  · exact href

/-- A sweep that is about to dead-letter a running job makes it fail. -/
theorem dead_letter_kills {k : ℕ} {sweep : Sweep} {i : JobId} (now : Time)
    (hk : s.reapers k = some sweep) (hr : Refused sweep i) {j : Job}
    (hj : s.store.getJob i = some j) (hrun : j.status = .running) :
    ∃ s', s.step (.reap k now) = some s' ∧ s'.status i = some .failed := by
  obtain ⟨x, stuck, hstuck, href, rfl⟩ := hr
  have hcall : sweep.call now = some (.deadLetter x.jobId now) := by
    rw [Sweep.call, hstuck, href]
  refine ⟨_, by rw [step, hk, Option.bind_some, hcall]; rfl, ?_⟩
  change ((s.store.deadLetter x.jobId now).2.getJob x.jobId).map Job.status = some .failed
  rw [InMemoryStore.deadLetter, InMemoryStore.guardedUpdate_pass hj (decide_eq_true hrun)]
  change ((s.store.jobs.set _ _).get? _).map Job.status = _
  rw [Dict.get?_set_self]
  rfl

/-- The reap step fails no job with attempts left. -/
def Exhausted (s : System) (a : Action) : Prop := ∀ k now s' i, a = .reap k now →
  s.step a = some s' → s.status i ≠ some .failed → s'.status i = some .failed →
  ∃ j, s.store.getJob i = some j ∧ s.store.maxAttempts j.jobType ≤ j.attempts

/-- Job `i` runs an attempt below its cap that was claimed after sweep `id` had been refused the
re-queue of it. -/
def Restarted (s : System) (id : ℕ) (i : JobId) : Prop :=
  ∃ j newer e older now, s.store.getJob i = some j ∧ j.status = .running ∧
    s.journal = newer ++ e :: older ∧ e.claims i = true ∧ (∀ x ∈ newer, x.claims i = false) ∧
    refusal id i now ∈ older ∧
    (older.countP (Entry.requeues i) : ℤ) < s.store.maxAttempts j.jobType

/-- No sweep dead-letters a run that was restarted below its cap since the sweep was refused it. -/
def FirstHand (s : System) (a : Action) : Prop := ∀ k now sweep i, a = .reap k now →
  s.reapers k = some sweep → Refused sweep i → ¬ s.Restarted sweep.id i

theorem exhausted_iff_firstHand (h : Runs.Reachable step (start cfg) s) (hs : RefusalsSpent s) :
    Exhausted s a ↔ FirstHand s a := by
  constructor
  · rintro hex k now sweep i rfl hk hr ⟨j, newer, e, older, t, hj, hrun, hsplit, hc, hlast, -, hlt⟩
    obtain ⟨s', hstep, hfailed⟩ := dead_letter_kills now hk hr hj hrun
    have hne : s.status i ≠ some .failed := by
      rw [status, hj, Option.map_some, hrun]
      decide
    obtain ⟨j', hj', hcap⟩ := hex k now s' i rfl hstep hne hfailed
    obtain rfl := Option.some.inj (hj.symm.trans hj')
    rw [Ledger.attempts_of_latest_claim (ledger_reachable h) hj hrun hsplit hc hlast] at hcap
    exact absurd hlt (not_lt.mpr hcap)
  · rintro hfirst k now s' i rfl hstep hne hfailed
    obtain ⟨sweep, j, hk, hr, hj, hrun⟩ :=
      killed_cases (step_cases hstep) (sound h).wellKeyed hne hfailed
    obtain ⟨newer, t, older, hsplit, hspent⟩ := hs k sweep i hk hr
    refine ⟨j, hj, ?_⟩
    -- the run is the one the sweep was refused, or a later claim started it
    cases hfind : newer.find? (Entry.claims i) with
    | none =>
      refine hspent (fun e he => ?_) j hj hrun
      exact Bool.eq_false_iff.mpr (List.find?_eq_none.mp hfind e he)
    | some e =>
      obtain ⟨hc, n₁, n₂, rfl, hlast⟩ := List.find?_eq_some_iff_append.mp hfind
      rw [List.append_assoc, List.cons_append] at hsplit
      have hunclaimed : ∀ x ∈ n₁, x.claims i = false := fun x hx => by simpa using hlast x hx
      rw [Ledger.attempts_of_latest_claim (ledger_reachable h) hj hrun hsplit hc hunclaimed]
      refine not_lt.mp fun hlt => hfirst k now sweep i rfl hk hr ?_
      exact ⟨j, n₁, e, _, t, hj, hrun, hsplit, hc, hunclaimed,
        List.mem_append_right _ List.mem_cons_self, hlt⟩

/-- **Dead letters are exhausted** in exactly the runs where no sweep dead-letters a run that was
restarted below its cap since the sweep was refused it. -/
theorem dead_letters_exhausted {as : List Action} (hfix : ∀ a ∈ as, ¬ a.Configures) :
    Runs.Along step Exhausted (start cfg) as ↔ Runs.Along step FirstHand (start cfg) as := by
  refine Runs.along_congr_of (F := fun _ a => ¬ a.Configures)
    (I := fun s => Runs.Reachable step (start cfg) s ∧ RefusalsSpent s)
    (fun s a s' hs ha hstep => ?_) (fun s a hs _ => exhausted_iff_firstHand hs.1 hs.2)
    as (start cfg) ⟨.refl, .start cfg⟩ (Runs.along_of_forall as _ hfix)
  exact ⟨hs.1.snoc hstep, hs.2.of_step (sound hs.1).wellKeyed ha (step_cases hstep)⟩

/-- `hello` is never to be re-queued. -/
def oneShotConfig : Dict String TypeConfig :=
  (∅ : Dict String TypeConfig).set "hello" ⟨defaultRunTimeout, 0, ∅⟩

/-- A stuck run at its cap: the re-queue is refused and the dead letter follows. -/
def givenUp : List Action :=
  [.enqueue "hello" none none 0 0, .dispatch 0 10 1, .publish 0, .poll 0 0, .work 0 2,
    .find 0 (defaultRunTimeout + 3), .reap 0 (defaultRunTimeout + 4),
    .reap 0 (defaultRunTimeout + 5)]

theorem dead_letters_exhausted_givenUp :
    (∃ s, Runs.run step (start oneShotConfig) givenUp = some s ∧ s.status 1 = some .failed) ∧
    Runs.Along step Exhausted (start oneShotConfig) givenUp := by
  refine ⟨⟨_, rfl, rfl⟩, (dead_letters_exhausted (by simp [givenUp, Action.Configures])).mpr ?_⟩
  have other : ∀ {s a}, (∀ k now, a ≠ .reap k now) → FirstHand s a :=
    fun h k now _ _ ha => absurd ha (h k now)
  refine Runs.along_cons (other (by simp)) rfl (Runs.along_cons (other (by simp)) rfl
    (Runs.along_cons (other (by simp)) rfl (Runs.along_cons (other (by simp)) rfl
    (Runs.along_cons (other (by simp)) rfl (Runs.along_cons (other (by simp)) rfl
    (Runs.along_cons ?_ rfl (Runs.along_cons ?_ rfl trivial)))))))
  · rintro k now sweep i ⟨⟩ hk ⟨x, stuck, -, href, -⟩
    obtain rfl := Option.some.inj hk
    exact absurd href Bool.false_ne_true
  · rintro k now sweep i ⟨⟩ hk ⟨x, stuck, hstuck, -, rfl⟩
      ⟨j, newer, e, older, t, hj, -, -, -, -, -, hlt⟩
    obtain rfl := Option.some.inj hk
    obtain ⟨rfl, -⟩ := List.cons.inj hstuck
    obtain rfl := Option.some.inj hj
    exact absurd hlt (not_lt.mpr (Int.natCast_nonneg _))

/-! ## A restarted run -/

/-- Sweeps 0 and 1 list the same stuck run; sweep 1 re-queues it, sweep 0 is refused, and the job is
dispatched and claimed again. -/
def restarted : List Action :=
  [.enqueue "hello" none none 0 0, .dispatch 0 10 1, .publish 0, .dispatch 0 10 1,
    .poll 0 0, .work 0 2,
    .find 0 (defaultRunTimeout + 3), .find 1 (defaultRunTimeout + 3),
    .reap 1 (defaultRunTimeout + 4), .reap 0 (defaultRunTimeout + 5),
    .dispatch 0 10 (defaultRunTimeout + 6), .publish 0, .dispatch 0 10 (defaultRunTimeout + 6),
    .poll 1 1, .work 1 (defaultRunTimeout + 7)]

theorem restarted_killed : ∃ s s' j, Runs.run step (start helloConfig) restarted = some s ∧
    s.step (.reap 0 (defaultRunTimeout + 8)) = some s' ∧ s.store.getJob 1 = some j ∧
    j.status = .running ∧ j.attempts = 1 ∧ s.store.maxAttempts j.jobType = 3 ∧
    s'.status 1 = some .failed :=
  ⟨_, _, _, rfl, rfl, rfl, rfl, rfl, rfl, rfl⟩

/-- **A restarted run is killed**, with two attempts left. -/
theorem restarted_run_killed :
    ¬ ∀ cfg as s, (∀ a ∈ as, ¬ a.Configures) → Runs.run step (start cfg) as = some s →
      ∀ k now, Exhausted s (.reap k now) := by
  intro hall
  obtain ⟨s, s', j, hrun, hstep, hj, hst, hattempts, hcap, hfailed⟩ := restarted_killed
  have hfix : ∀ a ∈ restarted, ¬ a.Configures := by
    simp [restarted, Action.Configures]
  have hne : s.status 1 ≠ some .failed := by
    rw [status, hj, Option.map_some, hst]
    decide
  obtain ⟨j', hj', hle⟩ := hall helloConfig restarted s hfix hrun 0 _ 0 _ s' 1 rfl hstep hne hfailed
  obtain rfl := Option.some.inj (hj.symm.trans hj')
  rw [hcap, hattempts] at hle
  exact absurd hle (by decide)

end System

end JobWorkflow
