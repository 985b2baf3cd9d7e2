import JobWorkflow.System.Outcomes
import JobWorkflow.System.Snapshot
import JobWorkflow.System.Stranding

/-!
# System/Exclusion — one worker at a time on each type

The claim guard admits one worker to a run, and the dedup rule one run to a type; what lets a second
worker in is a sweep that recovers the run under the first.

* `Exclusive` — the job of each engaged worker is running, and no two engaged workers are on jobs of
  one type.
* `exclusive_iff` — a run passes through exclusive states alone exactly when no sweep recovers the
  job of an engaged worker.
* `spared_promises` — and in such a run the outcomes are those of the latest claimants, `process`
  reports them truly, and the completed jobs record what their handlers were given.
-/

namespace JobWorkflow

/-- Between a successful claim and the last store call. -/
def Stage.Engaged : Stage → Prop
  | .claim | .commit _ => False
  | _ => True

theorem Stage.Engaged.of_inHandler {st : Stage} (h : st.InHandler) : st.Engaged := by
  cases st with
  | claim => exact h.elim
  | commit => exact h.elim
  | _ => trivial

namespace Move

variable {cap : String → ℤ} {i k : JobId} {now : Time} {c : Call} {r : Reply} {j j' : Job}

/-- What a sweep recovers is not running any more. -/
theorem recovered (h : Move cap i c r j j') (ht : Touches i c r)
    (hc : c = .requeueStuck k now ∨ c = .deadLetter k now) : j'.status ≠ .running := by
  cases h with
  | stay hn => exact absurd ht hn
  | requeue hr hcap => exact nofun
  | deadLetter hr => exact nofun
  | _ => rcases hc with hc | hc <;> exact nomatch hc

/-- A claim that takes effect finds the job waiting and leaves it running. -/
theorem claimed (h : Move cap i (.claim i now) r j j') (hr : r.effective = true) :
    j.Waiting ∧ j'.status = .running := by
  cases h with
  | stay hn => exact absurd ⟨rfl, hr⟩ hn
  | claim hw => exact ⟨hw, rfl⟩

/-- A run is ended by its worker or recovered by a sweep. -/
theorem ended (h : Move cap i c r j j') (hr : j.status = .running) (hn : j'.status ≠ .running) :
    Touches i c r ∧ ∃ now, (c = .complete i now ∨ c = .fail i now) ∨
      c = .requeueStuck i now ∨ c = .deadLetter i now := by
  cases h with
  | stay h => exact absurd hr hn
  | dispatch h => exact nomatch hr.symm.trans h
  | claim h => exact absurd rfl hn
  | resolve h => exact absurd hr hn
  | complete h => exact ⟨⟨rfl, rfl⟩, _, Or.inl (Or.inl rfl)⟩
  | fail h => exact ⟨⟨rfl, rfl⟩, _, Or.inl (Or.inr rfl)⟩
  | requeue h hcap => exact ⟨⟨rfl, rfl⟩, _, Or.inr (Or.inl rfl)⟩
  | deadLetter h => exact ⟨⟨rfl, rfl⟩, _, Or.inr (Or.inr rfl)⟩

end Move

/-- What was resolved last, after one more call. -/
theorem Ledger.lastResolved_perform {ι : Type} (l : Ledger ι) (actor : ι) (c : Call) (i : JobId) :
    (l.perform actor c).lastResolved i =
      if (⟨actor, c, (exec l.store c).1⟩ : Entry ι).resolves i then
        (⟨actor, c, (exec l.store c).1⟩ : Entry ι).document else l.lastResolved i := by
  rw [lastResolved, perform, List.find?_cons]
  cases (⟨actor, c, (exec l.store c).1⟩ : Entry ι).resolves i with
  | true => rfl
  | false => rfl

namespace System

variable {s s' : System} {a : Action} {cfg : Dict String TypeConfig} {w : ℕ} {inv : Invocation}

/-- Worker `w` is in the midst of a run. -/
structure Engaged (s : System) (w : ℕ) (inv : Invocation) : Prop where
  worker : s.workers w = some inv
  stage : inv.stage.Engaged

/-- **Workers exclude each other.** -/
structure Exclusive (s : System) : Prop where
  running : ∀ w inv, s.Engaged w inv → s.status inv.envelope.jobId = some .running
  one_per_type : ∀ w w' inv inv', s.Engaged w inv → s.Engaged w' inv' →
    inv.envelope.jobType = inv'.envelope.jobType → w = w'

/-- A `requeue_stuck` or `dead_letter` that takes effect is not on the job of an engaged worker. -/
def SparesEngaged (s : System) (a : Action) : Prop := ∀ k now sweep c, a = .reap k now →
  s.reapers k = some sweep → sweep.call now = some c → ∀ w inv, s.Engaged w inv →
    ¬ Touches inv.envelope.jobId c (s.reply c)

theorem Exclusive.start (cfg : Dict String TypeConfig) : Exclusive (start cfg) :=
  ⟨fun _ _ h => (nomatch h.worker), fun _ _ _ _ h => (nomatch h.worker)⟩

/-! ## The job of an envelope -/

/-- Two active jobs named by messages of one type are the same. -/
theorem same_job (h : Runs.Reachable step (start cfg) s) {w' : ℕ}
    {inv' : Invocation} (hw : s.workers w = some inv) (hw' : s.workers w' = some inv')
    (ht : inv.envelope.jobType = inv'.envelope.jobType) {j j' : Job}
    (hj : s.store.getJob inv.envelope.jobId = some j) (ha : j.status ∈ JobStatus.active)
    (hj' : s.store.getJob inv'.envelope.jobId = some j') (ha' : j'.status ∈ JobStatus.active) :
    inv.envelope.jobId = inv'.envelope.jobId := by
  obtain ⟨k, hk, hkt⟩ := (delivered h).job (sound h) hw
  obtain ⟨k', hk', hkt'⟩ := (delivered h).job (sound h) hw'
  obtain rfl := Option.some.inj (hj.symm.trans hk)
  obtain rfl := Option.some.inj (hj'.symm.trans hk')
  exact (dedup_invariant (ledger_reachable h)).2.1 _ _ j j' hj hj'
    (hkt.trans (ht.trans hkt'.symm)) ha ha'

/-! ## What ends a run -/

/-- A recovery that takes effect on a job ends its run. -/
theorem not_running_of_reap {now : Time} {sweep : Sweep} {c : Call} {i : JobId}
    (hs : WellKeyed s.store) (hc : sweep.call now = some c) (ht : Touches i c (s.reply c)) :
    ((exec s.store c).2.getJob i).map Job.status ≠ some .running := by
  have heff := exec_effect c s.store
  obtain ⟨j, hj⟩ := heff.exists_of_touches ht
  obtain ⟨j', hj', hm⟩ := heff.job hs hj
  rw [hj', Option.map_some]
  obtain ⟨x, stuck, -, hcall⟩ := Sweep.call_cases hc
  exact fun he => hm.recovered ht (hcall.imp And.right And.right) (Option.some.inj he)

/-- **A run is ended by a worker at its last call, or by a sweep.** -/
theorem Step.ends_run (h : Step s a s') (hs : WellKeyed s.store) {i : JobId}
    (hi : s.status i = some .running) (hn : s'.status i ≠ some .running) :
    (∃ k now sweep c, a = .reap k now ∧ s.reapers k = some sweep ∧ sweep.call now = some c ∧
      Touches i c (s.reply c)) ∨
    ∃ w now inv, a = .work w now ∧ s.workers w = some inv ∧ inv.envelope.jobId = i ∧
      (inv.stage = .complete ∨ ∃ outcome, inv.stage = .fail outcome) := by
  rcases h.ledger_cases with ⟨hstore, -⟩ | ⟨actor, c, hc, hstore, -⟩
  · exact absurd (by rw [status, hstore]; exact hi) hn
  · obtain ⟨j, hj, hrun⟩ := Option.map_eq_some_iff.mp hi
    obtain ⟨j', hj', hm⟩ := (exec_effect c s.store).job hs hj
    rw [status, hstore, hj', Option.map_some] at hn
    obtain ⟨ht, now, hcall⟩ := hm.ended hrun fun he => hn (congrArg some he)
    cases hc with
    | dispatch hd =>
      rcases Dispatcher.call_cases hd with ⟨-, rfl⟩ | ⟨msg, messages, -, rfl⟩
      · cases ht.1
      · cases ht.1
    | work hw hc =>
      refine Or.inr ⟨_, _, _, rfl, hw, ?_⟩
      rcases Invocation.call_cases hc with ⟨-, rfl⟩ | ⟨-, rfl⟩ | ⟨o, hst, rfl⟩ | ⟨hst, rfl⟩
      · simp at hcall
      · simp at hcall
      · exact ⟨Option.some.inj ht.1, Or.inr ⟨o, hst⟩⟩
      · exact ⟨Option.some.inj ht.1, Or.inl hst⟩
    | reap hk hc => exact Or.inl ⟨_, _, _, _, rfl, hk, hc, ht⟩
    | _ => cases ht.1

/-- An engaged worker was engaged before, or has just claimed its job. -/
theorem Step.engaged_cases (h : Step s a s') {inv' : Invocation} (he : s'.Engaged w inv') :
    (∃ inv, s.Engaged w inv ∧ inv'.id = inv.id ∧ inv'.envelope = inv.envelope ∧
      ∀ now, a = .work w now → inv.stage = .resolve) ∨
    ∃ now inv, a = .work w now ∧ s.workers w = some inv ∧ inv'.id = inv.id ∧
      inv'.envelope = inv.envelope ∧ inv'.stage = .resolve ∧
      (s.reply (.claim inv.envelope.jobId now)).effective = true ∧
      s'.relay = s.relay.perform (.worker inv.id) (.claim inv.envelope.jobId now) := by
  obtain ⟨hw', hst'⟩ := he
  by_cases hwork : ∃ now, a = .work w now
  · obtain ⟨now, rfl⟩ := hwork
    cases h with
    | work hw hc =>
    rename_i inv c
    have hv : inv.reply (s.reply c) = some inv' := (Function.update_self w _ _).symm.trans hw'
    obtain ⟨hid, -, henv⟩ := Invocation.reply_same hv
    cases Invocation.advance hc hv with
    | claimed hst hr => exact Or.inr ⟨now, inv, rfl, hw, rfl, rfl, rfl, hr, rfl⟩
    | skipped => exact hst'.elim
    | resolved hst => exact Or.inl ⟨inv, ⟨hw, by rw [hst]; trivial⟩, rfl, rfl, fun _ _ => hst⟩
    | unresolved hst => exact Or.inl ⟨inv, ⟨hw, by rw [hst]; trivial⟩, rfl, rfl, fun _ _ => hst⟩
    | failed => exact hst'.elim
    | completed => exact hst'.elim
  · have hstep := h.worker w
    rw [hw'] at hstep
    left
    cases hstep with
    | stay hw => exact ⟨inv', ⟨hw, hst'⟩, rfl, rfl, fun now hn => absurd ⟨now, hn⟩ hwork⟩
    | poll => exact hst'.elim
    | work => exact absurd ⟨_, rfl⟩ hwork
    | «local» hw hst hrelay =>
      refine ⟨_, ⟨hw, ?_⟩, rfl, rfl, fun now hn => absurd ⟨now, hn⟩ hwork⟩
      cases hst <;> trivial

/-! ## Exclusion -/

/-- A claim that takes effect finds an active job that is not running. -/
theorem claimed_job (hs : WellKeyed s.store) {i : JobId} {now : Time}
    (hr : (s.reply (.claim i now)).effective = true) : ∃ j j', s.store.getJob i = some j ∧
      (exec s.store (.claim i now)).2.getJob i = some j' ∧
      j.status ≠ .running ∧ j.status ∈ JobStatus.active ∧ j'.status = .running := by
  have heff := exec_effect (.claim i now) s.store
  obtain ⟨j, hj⟩ := heff.exists_of_touches ⟨rfl, hr⟩
  obtain ⟨j', hj', hm⟩ := heff.job hs hj
  obtain ⟨hwait, hrun⟩ := hm.claimed hr
  refine ⟨j, j', hj, hj', fun he => Job.not_waiting_of_running he hwait, ?_, hrun⟩
  exact (show [JobStatus.queued, JobStatus.dispatched] ⊆ JobStatus.active by decide) hwait

/-- The job of an engaged worker stays running. -/
theorem Exclusive.running_of_step (hs : Exclusive s)
    (hreach : Runs.Reachable step (System.start cfg) s)
    (h : Step s a s') (hok : SparesEngaged s a) {inv' : Invocation} (he : s'.Engaged w inv') :
    s'.status inv'.envelope.jobId = some .running := by
  have hw := (sound hreach).wellKeyed
  rcases h.engaged_cases he with ⟨inv, hinv, -, henv, hres⟩ |
      ⟨now, inv, rfl, -, -, henv, -, hr, hrelay⟩
  · rw [henv]
    by_contra hn
    rcases h.ends_run hw (hs.running w inv hinv) hn with
      ⟨k, now, sweep, c, rfl, hk, hc, ht⟩ | ⟨w₁, now, inv₁, rfl, hw₁, hjob, hst⟩
    · exact hok k now sweep c rfl hk hc w inv hinv ht
    · -- the worker that ends the run is on the same job, so it is `w`
      have hinv₁ : s.Engaged w₁ inv₁ := by
        rcases hst with hst | ⟨o, hst⟩
        · exact ⟨hw₁, by rw [hst]; trivial⟩
        · exact ⟨hw₁, by rw [hst]; trivial⟩
      obtain ⟨j, hj, ht⟩ := (delivered hreach).job (sound hreach) hinv.worker
      obtain ⟨j₁, hj₁, ht₁⟩ := (delivered hreach).job (sound hreach) hw₁
      rw [hjob] at hj₁
      obtain rfl := Option.some.inj (hj.symm.trans hj₁)
      obtain rfl := hs.one_per_type w w₁ inv inv₁ hinv hinv₁ (ht.symm.trans ht₁)
      obtain rfl := Option.some.inj (hinv.worker.symm.trans hw₁)
      have hresolve := hres now rfl
      rcases hst with hst | ⟨o, hst⟩
      · exact nomatch hresolve.symm.trans hst
      · exact nomatch hresolve.symm.trans hst
  · obtain ⟨j, j', -, hj', -, -, hrun⟩ := claimed_job hw hr
    rw [henv, status, store, hrelay]
    exact (congrArg (Option.map Job.status) hj').trans (congrArg some hrun)

/-- A worker that has just claimed is on no engaged worker's type. -/
theorem Exclusive.not_engaged_of_claim (hs : Exclusive s)
    (hreach : Runs.Reachable step (System.start cfg) s) (hw : s.workers w = some inv) {now : Time}
    (hr : (s.reply (.claim inv.envelope.jobId now)).effective = true) {w' : ℕ} {inv' : Invocation}
    (he : s.Engaged w' inv') : inv.envelope.jobType ≠ inv'.envelope.jobType := by
  intro ht
  obtain ⟨j, -, hj, -, hn, ha, -⟩ := claimed_job (sound hreach).wellKeyed hr
  obtain ⟨j', hj', hrun⟩ := Option.map_eq_some_iff.mp (hs.running w' inv' he)
  have hsame := same_job hreach hw he.worker ht hj ha hj' (by rw [hrun]; decide)
  rw [hsame] at hj
  obtain rfl := Option.some.inj (hj.symm.trans hj')
  exact hn hrun

/-- **A step keeps exclusion if no sweep recovers an engaged worker's job.** -/
theorem Exclusive.of_step (hs : Exclusive s) (hreach : Runs.Reachable step (System.start cfg) s)
    (h : Step s a s') (hok : SparesEngaged s a) : Exclusive s' := by
  refine ⟨fun w inv he => hs.running_of_step hreach h hok he, fun w w' inv inv' he he' ht => ?_⟩
  rcases h.engaged_cases he, h.engaged_cases he' with
    ⟨⟨k, hk, -, henv, -⟩ | ⟨now, k, rfl, hk, -, henv, -, hr, -⟩,
      ⟨k', hk', -, henv', -⟩ | ⟨now', k', ha', hk', -, henv', -, hr', -⟩⟩
  · exact hs.one_per_type w w' k k' hk hk' (by rw [← henv, ← henv', ht])
  · exact absurd (by rw [← henv, ← henv', ht]) (hs.not_engaged_of_claim hreach hk' hr' hk)
  · exact absurd (by rw [← henv, ← henv', ht]) (hs.not_engaged_of_claim hreach hk hr hk')
  · exact (Action.work.inj ha').1

/-- **…and only then.** -/
theorem Exclusive.spares (hs' : Exclusive s') (hreach : Runs.Reachable step (System.start cfg) s)
    (h : Step s a s') : SparesEngaged s a := by
  rintro k now sweep c rfl hk hc w inv ⟨hw, hst⟩ ht
  cases h with
  | reap hk' hc' =>
  obtain rfl := Option.some.inj (hk.symm.trans hk')
  obtain rfl := Option.some.inj (hc.symm.trans hc')
  exact not_running_of_reap (sound hreach).wellKeyed hc ht (hs'.running w inv ⟨hw, hst⟩)

/-- The next state is exclusive exactly when the step spares the engaged workers. -/
theorem Exclusive.iff_spares (hs : Exclusive s)
    (hreach : Runs.Reachable step (System.start cfg) s) (h : Step s a s') :
    Exclusive s' ↔ SparesEngaged s a :=
  ⟨fun hs' => hs'.spares hreach h, hs.of_step hreach h⟩

/-- **Workers exclude each other**, in every state of a run, in exactly the runs whose sweeps
recover no engaged worker's job. -/
theorem exclusive_iff (cfg : Dict String TypeConfig) (as : List Action) :
    (∀ bs, bs <+: as → ∀ s ∈ Runs.run step (start cfg) bs, Exclusive s) ↔
      Runs.Along step SparesEngaged (start cfg) as := by
  refine Runs.prefixes_iff_along (I := Runs.Reachable step (start cfg))
    (fun s a s' hs h => hs.snoc h)
    (fun s a s' hs hp h => hp.iff_spares hs (step_cases h))
    (fun s a hnone => ?_) as (start cfg) .refl (Exclusive.start cfg)
  rintro k now sweep c rfl hk hc
  rw [step, hk, Option.bind_some, hc] at hnone
  cases hnone

/-! ## What an engaged worker knows -/

/-- Two engaged workers are on two jobs. -/
theorem Exclusive.one_per_job (hs : Exclusive s) (hreach : Runs.Reachable step (System.start cfg) s)
    {w' : ℕ} {inv' : Invocation} (he : s.Engaged w inv) (he' : s.Engaged w' inv')
    (hjob : inv.envelope.jobId = inv'.envelope.jobId) : w = w' := by
  obtain ⟨j, hj, ht⟩ := (delivered hreach).job (sound hreach) he.worker
  obtain ⟨j', hj', ht'⟩ := (delivered hreach).job (sound hreach) he'.worker
  rw [← hjob] at hj'
  obtain rfl := Option.some.inj (hj.symm.trans hj')
  exact hs.one_per_type w w' inv inv' he he' (ht.symm.trans ht')

/-- A running job is not claimed. -/
theorem Step.latestClaim_eq (h : Step s a s') (hs : WellKeyed s.store) {i : JobId}
    (hi : s.status i = some .running) : s'.latestClaim i = s.latestClaim i := by
  rcases h.journal_cases with he | ⟨actor, c, -, he⟩
  · rw [latestClaim, he]
    rfl
  · rw [latestClaim, he, List.find?_cons_of_neg]
    · rfl
    · intro hc
      obtain ⟨j, hj, hrun⟩ := Option.map_eq_some_iff.mp hi
      obtain ⟨j', -, hm⟩ := (exec_effect c s.store).job hs hj
      exact Job.not_waiting_of_running hrun (hm.of_claims hc).1

/-- A `resolve_payload` that took effect returned a payload. -/
theorem resolved_of_effective {i : JobId} {t : String} {now : Time}
    (h : (s.reply (.resolvePayload i t now)).effective = true) :
    ∃ payload, s.reply (.resolvePayload i t now) = .payload (.ok (some payload)) := by
  change Reply.effective (.payload (s.store.resolvePayload i t now).1) = true at h
  change ∃ payload, Reply.payload (s.store.resolvePayload i t now).1 = _
  rcases hr : (s.store.resolvePayload i t now).1 with e | _ | payload
  · rw [hr] at h
    exact nomatch h
  · rw [hr] at h
    exact nomatch h
  · exact ⟨payload, rfl⟩

/-- Only the worker that resolves the payload of a job changes what was resolved last for it, and it
goes on with the payload. -/
theorem Step.lastResolved_cases (h : Step s a s') (i : JobId) :
    s'.relay.ledger.lastResolved i = s.relay.ledger.lastResolved i ∨
    ∃ w inv payload, s.Engaged w inv ∧ inv.envelope.jobId = i ∧
      s'.workers w = some { inv with stage := .lookup payload } ∧
      s'.relay.ledger.lastResolved i = payload := by
  rcases h.relay_cases with he | ⟨actor, c, hc, he⟩ | ⟨d, msg, messages, -, he⟩
  · exact Or.inl (by rw [he])
  · have hlast := Ledger.lastResolved_perform s.relay.ledger actor c i
    by_cases hr : (⟨actor, c, s.reply c⟩ : Entry Actor).resolves i = true
    · obtain ⟨w, now, inv, rfl, hw, hst, hjob, -, rfl⟩ := hc.of_resolves hr
      cases h with
      | work hw' hc' =>
      obtain rfl := Option.some.inj (hw.symm.trans hw')
      rw [Invocation.call, hst] at hc'
      obtain rfl := Option.some.inj hc'
      obtain ⟨payload, hp⟩ := resolved_of_effective (Entry.touches_of_resolves hr).2
      refine Or.inr ⟨w, inv, payload, ⟨hw, by rw [hst]; trivial⟩, hjob, ?_, ?_⟩
      · refine (Function.update_self w _ _).trans ?_
        simp only [Invocation.reply, hst, hp]
      · rw [he]
        refine hlast.trans ((if_pos hr).trans ?_)
        change (⟨_, _, s.reply _⟩ : Entry Actor).document = _
        rw [hp]
        rfl
    · left
      rw [he]
      exact hlast.trans (if_neg hr)
  · exact Or.inl (by rw [he, Relay.publish])

/-- In an exclusive state nobody else resolves the payload of an engaged worker's job. -/
theorem Exclusive.lastResolved_cases (hs : Exclusive s)
    (hreach : Runs.Reachable step (System.start cfg) s) (h : Step s a s') (he : s.Engaged w inv) :
    s'.relay.ledger.lastResolved inv.envelope.jobId =
        s.relay.ledger.lastResolved inv.envelope.jobId ∨
      ∃ payload, s'.workers w = some { inv with stage := .lookup payload } ∧
        s'.relay.ledger.lastResolved inv.envelope.jobId = payload := by
  rcases h.lastResolved_cases inv.envelope.jobId with
    hsame | ⟨w', inv', payload, he', hjob, hw', hlast⟩
  · exact Or.inl hsame
  · obtain rfl := hs.one_per_job hreach he he' hjob.symm
    obtain rfl := Option.some.inj (he.worker.symm.trans he'.worker)
    exact Or.inr ⟨payload, hw', hlast⟩

/-- A handler run of an invocation was there before, or starts now from its lookup. -/
theorem Step.handled_by (h : Step s a s') (hn : Numbered s) (hw : s.workers w = some inv)
    {r : HandlerRun} (hr : r ∈ s'.handled) (hid : r.invocation = inv.id) :
    r ∈ s.handled ∨ inv.stage = .lookup r.payload := by
  rcases h.handled_cases with he | ⟨w₁, n, offset, envelope, payload, hw₁, -, he⟩
  · exact Or.inl (he ▸ hr)
  · rw [he] at hr
    refine (List.mem_cons.mp hr).symm.imp id ?_
    rintro rfl
    obtain rfl := hn.worker_inj w w₁ inv _ hw hw₁ hid.symm
    rw [Option.some.inj (hw.symm.trans hw₁)]

/-- **What an engaged worker goes by is current**: its claim is the latest, the payload it has is
the one resolved last, and a missing config was missing while its job was running. -/
structure Current (cfg : Dict String TypeConfig) (s : System) : Prop where
  claim : ∀ w inv, s.Engaged w inv →
    ∃ e, s.latestClaim inv.envelope.jobId = some e ∧ e.actor = .worker inv.id
  lookup : ∀ w inv payload, s.workers w = some inv → inv.stage = .lookup payload →
    s.relay.ledger.lastResolved inv.envelope.jobId = payload
  handler : ∀ w inv, s.workers w = some inv → inv.stage.InHandler → ∀ r ∈ s.handled,
    r.invocation = inv.id → s.relay.ledger.lastResolved inv.envelope.jobId = r.payload
  noConfig : ∀ w inv, s.workers w = some inv → inv.stage = .fail .noConfig →
    s.ResolvedNone cfg inv fun st j => j.status = .running ∨ Unconfigured st j

theorem ResolvedNone.of_step {p : InMemoryStore → Job → Prop} (hn : s.ResolvedNone cfg inv p)
    (h : Step s a s') : s'.ResolvedNone cfg inv p := by
  obtain ⟨newer, t, now, older, j, hsplit, hj, hp⟩ := hn
  rcases h.journal_cases with he | ⟨actor, c, -, he⟩
  · exact ⟨newer, t, now, older, j, he.trans hsplit, hj, hp⟩
  · exact ⟨_ :: newer, t, now, older, j, by rw [he, hsplit]; rfl, hj, hp⟩

/-- What sends an invocation on to report a missing config is the reply `None`. -/
theorem none_of_unresolved {now : Time} (hst : inv.stage = .resolve) (hv : inv.reply
      (s.reply (.resolvePayload inv.envelope.jobId inv.envelope.jobType now)) =
      some { inv with stage := .fail .noConfig }) :
    s.reply (.resolvePayload inv.envelope.jobId inv.envelope.jobType now) =
      .payload (.ok none) := by
  change Reply.payload (s.store.resolvePayload inv.envelope.jobId inv.envelope.jobType now).1 = _
  change inv.reply
    (.payload (s.store.resolvePayload inv.envelope.jobId inv.envelope.jobType now).1) = _ at hv
  rcases hr : (s.store.resolvePayload inv.envelope.jobId inv.envelope.jobType now).1 with
    e | _ | payload
  · rw [hr] at hv
    simp only [Invocation.reply, hst] at hv
    cases hv
  · rfl
  · rw [hr] at hv
    simp only [Invocation.reply, hst] at hv
    cases congrArg Invocation.stage (Option.some.inj hv)

namespace Current

theorem start (cfg : Dict String TypeConfig) : Current cfg (start cfg) :=
  ⟨fun _ _ h => (nomatch h.worker), fun _ _ _ (h : none = some _) => (nomatch h),
    fun _ _ (h : none = some _) => (nomatch h), fun _ _ (h : none = some _) => (nomatch h)⟩

variable (hc : Current cfg s) (hs : Exclusive s)
  (hreach : Runs.Reachable step (System.start cfg) s) (h : Step s a s')

include hc hs hreach h

theorem claim_of_step {inv' : Invocation} (he : s'.Engaged w inv') :
    ∃ e, s'.latestClaim inv'.envelope.jobId = some e ∧ e.actor = .worker inv'.id := by
  rcases h.engaged_cases he with ⟨inv, hinv, hid, henv, -⟩ |
    ⟨now, inv, rfl, hw, hid, henv, -, hr, hrelay⟩
  · rw [hid, henv, h.latestClaim_eq (sound hreach).wellKeyed (hs.running w inv hinv)]
    exact hc.claim w inv hinv
  · refine ⟨⟨.worker inv.id, .claim inv.envelope.jobId now,
      s.reply (.claim inv.envelope.jobId now)⟩, ?_, by rw [hid]⟩
    rw [latestClaim, journal, hrelay, henv]
    exact List.find?_cons_of_pos (decide_eq_true ⟨rfl, hr⟩)

theorem lookup_of_step {inv' : Invocation} {payload : Document} (hw' : s'.workers w = some inv')
    (hst' : inv'.stage = .lookup payload) :
    s'.relay.ledger.lastResolved inv'.envelope.jobId = payload := by
  rcases h.lookup_cases hw' hst' with hw | ⟨e, hjournal, hby, hdoc⟩
  · rcases hs.lastResolved_cases hreach h ⟨hw, by rw [hst']; trivial⟩ with
      hsame | ⟨p, hw₁, hlast⟩
    · rw [hsame]
      exact hc.lookup w inv' payload hw hst'
    · rw [hlast, ← Stage.lookup.inj (hst'.symm.trans
        (congrArg Invocation.stage (Option.some.inj (hw'.symm.trans hw₁))))]
  · rw [Ledger.lastResolved, hjournal, List.find?_cons_of_pos (of_decide_eq_true hby).2]
    exact hdoc

theorem handler_of_step {inv' : Invocation} (hw' : s'.workers w = some inv')
    (hst' : inv'.stage.InHandler) {r : HandlerRun} (hr : r ∈ s'.handled)
    (hid : r.invocation = inv'.id) :
    s'.relay.ledger.lastResolved inv'.envelope.jobId = r.payload := by
  have hnumbered := numbered hreach
  have hstep := h.worker w
  rw [hw'] at hstep
  cases hstep with
  | stay hw =>
    rcases hs.lastResolved_cases hreach h ⟨hw, .of_inHandler hst'⟩ with hsame | ⟨p, hw₁, -⟩
    · rcases h.handled_by hnumbered hw hr hid with hr₀ | hst
      · rw [hsame]
        exact hc.handler w inv' hw hst' r hr₀ hid
      · rw [hst] at hst'
        exact hst'.elim
    · rw [Option.some.inj (hw'.symm.trans hw₁)] at hst'
      exact hst'.elim
  | poll => exact hst'.elim
  | work hw hcall hv hrelay => exact absurd hst' (Invocation.not_inHandler_of_reply hcall hv)
  | «local» hw hst hrelay =>
    rw [hrelay]
    have hby := h.handled_by hnumbered hw hr hid
    cases hst with
    | found =>
      rcases hby with hr₀ | hst
      · exact absurd hid (hnumbered.handled_fresh w _ hw trivial r hr₀)
      · have hlookup := hc.lookup w _ _ hw hst
        exact hlookup
    | unknown => exact hst'.elim
    | raised => exact hst'.elim
    | returned =>
      rcases hby with hr₀ | hst
      · exact hc.handler w _ hw trivial r hr₀ hid
      · exact nomatch hst

theorem noConfig_of_step {inv' : Invocation} (hw' : s'.workers w = some inv')
    (hst' : inv'.stage = .fail .noConfig) :
    s'.ResolvedNone cfg inv' fun st j => j.status = .running ∨ Unconfigured st j := by
  have hstep := h.worker w
  rw [hw'] at hstep
  cases hstep with
  | stay hw => exact (hc.noConfig w inv' hw hst').of_step h
  | poll => cases hst'
  | work hw hcall hv hrelay =>
    rename_i now inv c
    cases Invocation.advance hcall hv with
    | unresolved hst =>
      obtain ⟨j, hj, hrun⟩ :=
        Option.map_eq_some_iff.mp (hs.running w inv ⟨hw, by rw [hst]; trivial⟩)
      have hstore : s.store = Ledger.replay cfg s.journal :=
        (Ledger.reply_eq (ledger_reachable hreach)).1
      refine ⟨[], inv.envelope.jobType, now, s.journal, j, ?_, hstore ▸ hj, Or.inl hrun⟩
      rw [journal, hrelay, List.nil_append]
      refine congrArg (fun r => (⟨.worker inv.id, _, r⟩ : Entry Actor) :: s.journal) ?_
      exact none_of_unresolved hst hv
    | failed => cases hst'
    | _ => cases hst'
  | «local» hw hst hrelay =>
    cases hst with
    | _ => simp at hst'

theorem of_step : Current cfg s' :=
  ⟨fun _ _ he => hc.claim_of_step hs hreach h he,
    fun _ _ _ hw hst => hc.lookup_of_step hs hreach h hw hst,
    fun _ _ hw hst _ hr hid => hc.handler_of_step hs hreach h hw hst hr hid,
    fun _ _ hw hst => hc.noConfig_of_step hs hreach h hw hst⟩

end Current

/-! ## The promises of a spared run -/

/-- A completion in an exclusive state records what its handler was given. -/
theorem Current.resolvedLast (hc : Current cfg s) : ResolvedLast s a := by
  rintro w now inv rfl hcompleting r hr hid
  exact hc.handler w inv hcompleting.worker (by rw [hcompleting.stage]; trivial) r hr hid

/-- The last calls of engaged workers find their jobs running. -/
theorem Current.findsRunning (hc : Current cfg s) (hs : Exclusive s) : FindsRunning cfg s a := by
  rintro w now inv rfl hw
  refine ⟨fun hst => hs.running w inv ⟨hw, ?_⟩, hc.noConfig w inv hw⟩
  rcases hst with hst | ⟨outcome, hst⟩
  · rw [hst]; trivial
  · rw [hst]; trivial

/-- A worker decides the outcome of its own job. -/
theorem Decides.job {i : JobId} (hd : Decides s s' w inv i) (hs : WellKeyed s.store) :
    inv.envelope.jobId = i := by
  obtain ⟨hw, hst, ⟨now, hstep⟩, hne⟩ := hd
  cases step_cases hstep with
  | work hw' hc =>
  obtain rfl := Option.some.inj (hw.symm.trans hw')
  have heff := exec_effect
  rcases hst with hst | ⟨outcome, hst⟩
  · rw [Invocation.call, hst] at hc
    obtain rfl := Option.some.inj hc
    exact (running_of_status_ne (Or.inl rfl) (heff _ s.store) hs hne).1
  · rw [Invocation.call, hst] at hc
    obtain rfl := Option.some.inj hc
    exact (running_of_status_ne (Or.inr rfl) (heff _ s.store) hs hne).1

/-- What a spared run has in all its states. -/
structure Spared (cfg : Dict String TypeConfig) (s : System) : Prop where
  reachable : Runs.Reachable step (start cfg) s
  exclusive : Exclusive s
  current : Current cfg s
  failStages : FailStages s
  snapshotted : Snapshotted s

theorem spared {as : List Action} (hrun : Runs.run step (start cfg) as = some s)
    (hok : Runs.Along step SparesEngaged (start cfg) as) : Spared cfg s := by
  refine Runs.invariant (I := Spared cfg) (fun s a s' hs ha hstep => ?_) as (start cfg)
    ⟨.refl, .start cfg, .start cfg, .start cfg, .start cfg⟩ hok hrun
  have h := step_cases hstep
  exact ⟨hs.reachable.snoc hstep, hs.exclusive.of_step hs.reachable h ha,
    hs.current.of_step hs.exclusive hs.reachable h, hs.failStages.of_step h,
    hs.snapshotted.of_step hs.reachable h hs.current.resolvedLast⟩

/-- **What a spared run promises**: where no sweep has recovered the job of an engaged worker, an
outcome is decided by the latest claimant, `process` reports what happened to the run, and each
completed job records the payload its handler was given. -/
theorem spared_promises {as : List Action} (hrun : Runs.run step (start cfg) as = some s)
    (hok : Runs.Along step SparesEngaged (start cfg) as) :
    (∀ s' w inv i, Decides s s' w inv i →
      ∃ e, s.latestClaim i = some e ∧ e.actor = .worker inv.id) ∧
    (∀ a, Truthful cfg s a) ∧ Snapshotted s := by
  have h := spared hrun hok
  refine ⟨fun s' w inv i hd => ?_, fun a => ?_, h.snapshotted⟩
  · have hstage : inv.stage.Engaged := by
      rcases hd.stage with hst | ⟨outcome, hst⟩
      · rw [hst]; trivial
      · rw [hst]; trivial
    obtain rfl := hd.job (sound h.reachable).wellKeyed
    exact h.current.claim w inv ⟨hd.worker, hstage⟩
  · exact (h.current.findsRunning h.exclusive).truthful h.reachable h.failStages

/-- Worker 0 claims the job and stops; the sweep finds nobody on it. -/
def stopped : List Action :=
  [.enqueue "hello" none none 0 0, .dispatch 0 10 1, .publish 0, .poll 0 0, .work 0 2,
    .stopWorker 0, .find 0 (defaultRunTimeout + 4)]

/-- After the sweep, worker 1 completes the job. -/
def recovered : List Action :=
  [.poll 1 0, .work 1 (defaultRunTimeout + 6), .work 1 (defaultRunTimeout + 7), .lookup 1 true,
    .handled 1 false, .work 1 (defaultRunTimeout + 8)]

theorem spared_promises_recovered : ∃ s, Runs.run step (start helloConfig)
    (stopped ++ .reap 0 (defaultRunTimeout + 5) :: recovered) = some s ∧
    s.status 1 = some .completed ∧ Snapshotted s := by
  obtain ⟨s₁, hs₁⟩ : ∃ s₁, Runs.run step (start helloConfig) stopped = some s₁ := ⟨_, rfl⟩
  obtain ⟨s, hs, hst⟩ : ∃ s, Runs.run step (start helloConfig)
      (stopped ++ .reap 0 (defaultRunTimeout + 5) :: recovered) = some s ∧
      s.status 1 = some .completed := ⟨_, rfl, rfl⟩
  -- a step that is not a sweep's spares everybody
  have others : ∀ (as : List Action) s, (∀ a ∈ as, ∀ k now, a ≠ .reap k now) →
      Runs.Along step SparesEngaged s as := fun as s has =>
    (Runs.along_of_forall as s has).imp fun _ _ hne k now _ _ he => absurd he (hne k now)
  refine ⟨s, hs, hst, (spared_promises hs ?_).2.2⟩
  refine Runs.along_append (others stopped _ (by simp [stopped])) hs₁
    ⟨fun k now sweep c _ _ _ w inv he => ?_, fun s' _ => others recovered s' (by simp [recovered])⟩
  obtain rfl := Option.some.inj hs₁
  rcases update_cases he.worker with h | ⟨-, h⟩
  · rcases update_cases h with h | ⟨rfl, -⟩
    · rcases update_cases h with h | ⟨rfl, -⟩
      · exact nomatch h
      · exact nomatch he.worker
    · exact nomatch he.worker
  · exact nomatch h

end System

end JobWorkflow
