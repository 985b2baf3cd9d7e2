import JobWorkflow.System.Churn
import JobWorkflow.System.Stranding

/-!
# System/Snapshot — whether a completed job keeps the payload its handler was given

`resolve_payload` overwrites `jobs.payload` each time it finds the job running, for whichever
invocation calls it, and `complete` does not look at the payload.  So a stale invocation can
complete a job whose payload a later one has resolved anew, from a configuration that has changed in
between (`other_payload_recorded`).  In a run where that does not happen the snapshots are right
(`snapshots_recorded`).
-/

namespace JobWorkflow

/-- From the start of the handler to the completion. -/
def Stage.InHandler : Stage → Prop
  | .handle _ | .complete => True
  | _ => False

/-- No reply of the store starts a handler. -/
theorem Invocation.not_inHandler_of_reply {inv inv' : Invocation} {now : Time} {c : Call}
    {r : Reply} (hc : inv.call now = some c) (h : inv.reply r = some inv') :
    ¬ inv'.stage.InHandler := by
  cases Invocation.advance hc h with
  | _ => exact not_false

namespace System

variable {s s' : System} {a : Action} {cfg : Dict String TypeConfig}

/-- The job `h` was run for was completed by the invocation that ran it. -/
def CompletedBy (s : System) (h : HandlerRun) : Prop :=
  ∃ now, ⟨.worker h.invocation, .complete h.jobId now, .flag true⟩ ∈ s.journal

/-- **The snapshot of each completed job** is the payload handed to the handler by the invocation
that completed it. -/
def Snapshotted (s : System) : Prop := ∀ i j, s.store.getJob i = some j → j.status = .completed →
  ∃ h ∈ s.handled, h.jobId = i ∧ s.CompletedBy h ∧ j.payload = h.payload

theorem Snapshotted.start (cfg : Dict String TypeConfig) : Snapshotted (start cfg) :=
  fun _ _ (h : none = some _) => nomatch h

/-- Worker `w` is about to complete the job of invocation `inv`, and it is running. -/
structure Completing (s : System) (w : ℕ) (inv : Invocation) : Prop where
  worker : s.workers w = some inv
  stage : inv.stage = .complete
  running : s.status inv.envelope.jobId = some .running

/-- The last `resolve_payload` of the job returned what the completing invocation has given to its
handler. -/
def ResolvedLast (s : System) (a : Action) : Prop := ∀ w now inv, a = .work w now →
  s.Completing w inv → ∀ h ∈ s.handled, h.invocation = inv.id →
    s.relay.ledger.lastResolved inv.envelope.jobId = h.payload

/-- A successful `resolve_payload` of job `i` by invocation `n`. -/
def resolvedBy (n : ℕ) (i : JobId) (e : Entry Actor) : Bool :=
  e.actor = .worker n ∧ e.resolves i = true

/-- The calls since invocation `n` resolved the payload of job `i`, newest first. -/
def sinceResolved (s : System) (n : ℕ) (i : JobId) : List (Entry Actor) :=
  s.journal.takeWhile fun e => !resolvedBy n i e

/-- **A completion that takes effect is undisturbed**: since its invocation resolved the payload,
nobody has resolved the payload of the job after a change of its type's configuration. -/
def Undisturbed (s : System) (a : Action) : Prop := ∀ w now inv, a = .work w now →
  s.Completing w inv → ∀ newer e older,
    s.sinceResolved inv.id inv.envelope.jobId = newer ++ e :: older →
    e.resolves inv.envelope.jobId = true → ∀ x ∈ older, ¬ x.configuresType inv.envelope.jobType

/-! ## The run behind a completion -/

/-- The record of handler runs only grows. -/
theorem Step.mem_handled (h : Step s a s') {r : HandlerRun} (hr : r ∈ s.handled) :
    r ∈ s'.handled := by
  rcases h.handled_cases with he | ⟨w, n, offset, envelope, payload, -, -, he⟩
  · exact he ▸ hr
  · exact he ▸ List.mem_cons_of_mem _ hr

/-- An invocation between its handler's start and its completion was there before, or has just
started its handler. -/
theorem Step.inHandler_cases (h : Step s a s') {w : ℕ} {inv' : Invocation}
    (hw' : s'.workers w = some inv') (hst' : inv'.stage.InHandler) :
    (∃ inv, s.workers w = some inv ∧ inv.stage.InHandler ∧ inv'.id = inv.id ∧
      inv'.envelope = inv.envelope) ∨
    ∃ payload, ⟨inv'.id, inv'.envelope.jobId, payload⟩ ∈ s'.handled := by
  by_cases hsame : s.workers w = some inv'
  · exact Or.inl ⟨inv', hsame, hst', rfl, rfl⟩
  -- so `w` is the worker that moves
  have moved : ∀ {w₀ : ℕ} {v : Option Invocation}, Function.update s.workers w₀ v w = some inv' →
      w = w₀ ∧ v = some inv' := fun h => (update_cases h).resolve_left hsame
  cases h with
  | poll hw hrec hc =>
    obtain ⟨rfl, hv⟩ := moved hw'
    obtain rfl := Option.some.inj hv
    exact hst'.elim
  | work hw hc =>
    obtain ⟨rfl, hv⟩ := moved hw'
    exact absurd hst' (Invocation.not_inHandler_of_reply hc hv)
  | found hw =>
    obtain ⟨rfl, hv⟩ := moved hw'
    obtain rfl := Option.some.inj hv
    exact Or.inr ⟨_, List.mem_cons_self⟩
  | unknown hw =>
    obtain ⟨rfl, hv⟩ := moved hw'
    obtain rfl := Option.some.inj hv
    exact hst'.elim
  | handled hw =>
    obtain ⟨rfl, hv⟩ := moved hw'
    obtain rfl := Option.some.inj hv
    exact Or.inl ⟨_, hw, trivial, rfl, rfl⟩
  | commit hw => exact nomatch (moved hw').2
  | stopWorker => exact nomatch (moved hw').2
  | _ => exact absurd hw' hsame

/-- From its handler to its completion, an invocation has its handler run on record. -/
def Handling (s : System) : Prop := ∀ w inv, s.workers w = some inv → inv.stage.InHandler →
  ∃ h ∈ s.handled, h.invocation = inv.id ∧ h.jobId = inv.envelope.jobId

theorem Handling.start (cfg : Dict String TypeConfig) : Handling (start cfg) :=
  fun _ _ (h : none = some _) => nomatch h

theorem Handling.of_step (hs : Handling s) (h : Step s a s') : Handling s' := by
  intro w inv' hw' hst'
  rcases h.inHandler_cases hw' hst' with ⟨inv, hw, hst, hid, henv⟩ | ⟨payload, hr⟩
  · obtain ⟨r, hr, hrid, hrjob⟩ := hs w inv hw hst
    exact ⟨r, h.mem_handled hr, hrid.trans hid.symm, by rw [hrjob, henv]⟩
  · exact ⟨_, hr, rfl, rfl⟩

theorem handling (h : Runs.Reachable step (start cfg) s) : Handling s :=
  h.invariant (Handling.start cfg) fun _ _ _ hs ha => hs.of_step (step_cases ha)

/-! ## What a completion records -/

/-- A job is completed by a worker that completes it now, or was completed before. -/
theorem Step.completed_cases (h : Step s a s') (hw : WellKeyed s.store) {i : JobId} {j' : Job}
    (hj' : s'.store.getJob i = some j') (hst : j'.status = .completed) :
    s.store.getJob i = some j' ∨
    ∃ w now inv j, a = .work w now ∧ s.Completing w inv ∧ inv.envelope.jobId = i ∧
      s.store.getJob i = some j ∧ j'.payload = j.payload ∧ s'.handled = s.handled ∧
      s'.journal = ⟨.worker inv.id, .complete i now, .flag true⟩ :: s.journal := by
  rcases h.ledger_cases with ⟨hstore, -⟩ | ⟨actor, c, hc, hstore, hjournal⟩
  · exact Or.inl (hstore ▸ hj')
  · have heff := exec_effect c s.store
    rw [hstore] at hj'
    cases hj : s.store.getJob i with
    | none =>
      obtain ⟨t, p, cr, ca, ua, -, -, -, -, rfl⟩ := heff.new_job hj hj'
      exact nomatch hst
    | some j =>
      obtain ⟨k, hk, hm⟩ := heff.job hw hj
      obtain rfl : j' = k := Option.some.inj (hj'.symm.trans hk)
      rcases hm.completed_cases hst with rfl | ⟨hrun, hpayload, now, rfl, hr⟩
      · exact Or.inl rfl
      · obtain ⟨w, inv, rfl, rfl, hwk, hstage, rfl⟩ := hc.of_complete
        refine Or.inr ⟨w, now, inv, j, rfl, ⟨hwk, hstage, ?_⟩, rfl, rfl, hpayload, ?_, ?_⟩
        · rw [status, hj, Option.map_some, hrun]
        · cases h with
          | work hw hc => rfl
        · rw [hjournal, reply, hr]

/-- A step after which each completion records what was resolved last keeps the snapshots right. -/
theorem Snapshotted.of_step (hs : Snapshotted s)
    (hreach : Runs.Reachable step (System.start cfg) s)
    (h : Step s a s') (hok : ResolvedLast s a) : Snapshotted s' := by
  intro i j' hj' hst'
  rcases h.completed_cases (sound hreach).wellKeyed hj' hst' with
    hj | ⟨w, now, inv, j, rfl, hc, rfl, hj, hpayload, hhandled, hjournal⟩
  · obtain ⟨r, hr, hjob, ⟨t, ht⟩, hp⟩ := hs i j' hj hst'
    exact ⟨r, h.mem_handled hr, hjob, ⟨t, h.mem_journal ht⟩, hp⟩
  · obtain ⟨r, hr, hid, hjob⟩ :=
      handling hreach w inv hc.worker (by rw [hc.stage]; trivial)
    refine ⟨r, hhandled ▸ hr, hjob, ⟨now, ?_⟩, ?_⟩
    · rw [hjournal, hid, hjob]
      exact List.mem_cons_self
    · rw [hpayload, Ledger.payload_eq_lastResolved (ledger_reachable hreach) hj]
      exact hok w now inv rfl hc r hr hid

/-! ## What the handler was given -/

/-- Only a worker resolves, and it resolves the payload of its own job. -/
theorem Makes.of_resolves {actor : Actor} {c : Call} {i : JobId} (h : Makes s a actor c)
    (hr : (⟨actor, c, s.reply c⟩ : Entry Actor).resolves i = true) :
    ∃ w now inv, a = .work w now ∧ s.workers w = some inv ∧ inv.stage = .resolve ∧
      inv.envelope.jobId = i ∧ actor = .worker inv.id ∧
      c = .resolvePayload inv.envelope.jobId inv.envelope.jobType now := by
  have ht := Entry.touches_of_resolves hr
  cases h with
  | dispatch hc =>
    rcases Dispatcher.call_cases hc with ⟨-, rfl⟩ | ⟨msg, messages, hd, rfl⟩
    · exact nomatch ht.1
    · exact nomatch ht.1
  | work hw hc =>
    rcases Invocation.call_cases hc with ⟨-, rfl⟩ | ⟨hst, rfl⟩ | ⟨_, -, rfl⟩ | ⟨-, rfl⟩
    · exact nomatch hr
    · exact ⟨_, _, _, rfl, hw, hst, Option.some.inj ht.1, rfl, rfl⟩
    · exact nomatch hr
    · exact nomatch hr
  | reap hk hc =>
    obtain ⟨x, stuck, -, ⟨-, rfl⟩ | ⟨-, rfl⟩⟩ := Sweep.call_cases hc
    · exact nomatch hr
    · exact nomatch hr
  | _ => exact nomatch ht.1

/-- A worker at its lookup was there before, or has just resolved the payload it has. -/
theorem Step.lookup_cases (h : Step s a s') {w : ℕ} {inv' : Invocation} {payload : Document}
    (hw' : s'.workers w = some inv') (hst' : inv'.stage = .lookup payload) :
    s.workers w = some inv' ∨ ∃ e, s'.relay.ledger.journal = e :: s.relay.ledger.journal ∧
      resolvedBy inv'.id inv'.envelope.jobId e ∧ e.document = payload := by
  have hstep := h.worker w
  rw [hw'] at hstep
  cases hstep with
  | stay hw => exact Or.inl hw
  | poll => exact nomatch hst'
  | work hw hc hv hrelay =>
    rename_i now inv c
    cases Invocation.advance hc hv with
    | resolved hst hr =>
      obtain rfl := Stage.lookup.inj hst'
      refine Or.inr ⟨_, by rw [hrelay]; rfl, ?_, ?_⟩
      · exact decide_eq_true ⟨rfl, decide_eq_true ⟨rfl, congrArg Reply.effective hr⟩⟩
      · exact congrArg (fun r => Entry.document ⟨Actor.worker inv.id,
          .resolvePayload inv.envelope.jobId inv.envelope.jobType now, r⟩) hr
    | _ => exact nomatch hst'
  | «local» hw hst hrelay => cases hst <;> exact nomatch hst'

/-- The document that invocation `n` resolved the payload of job `i` to. -/
def resolution (s : System) (n : ℕ) (i : JobId) : Option Document :=
  (s.journal.find? (resolvedBy n i)).map Entry.document

/-- **Handlers are given what their own invocations resolved.** -/
structure Given (s : System) : Prop where
  lookup : ∀ w inv payload, s.workers w = some inv → inv.stage = .lookup payload →
    s.resolution inv.id inv.envelope.jobId = some payload
  handled : ∀ r ∈ s.handled, s.resolution r.invocation r.jobId = some r.payload

theorem Given.start (cfg : Dict String TypeConfig) : Given (start cfg) where
  lookup _ _ _ (h : none = some _) := nomatch h
  handled _ h := nomatch h

/-- An invocation resolves before it looks its handler up. -/
theorem Step.resolution_eq (h : Step s a s') {n : ℕ} {i : JobId}
    (hn : ∀ w inv, s.workers w = some inv → inv.stage = .resolve → inv.id ≠ n) :
    s'.resolution n i = s.resolution n i := by
  rcases h.journal_cases with he | ⟨actor, c, hc, he⟩
  · rw [resolution, he, resolution]
  · rw [resolution, he, List.find?_cons_of_neg, resolution]
    intro hby
    obtain ⟨hactor, hr⟩ := of_decide_eq_true hby
    obtain ⟨w, now, inv, -, hw, hst, -, rfl, -⟩ := hc.of_resolves hr
    exact hn w inv hw hst (Actor.worker.inj hactor)

theorem Given.of_step (hs : Given s) (hn : Numbered s) (h : Step s a s') : Given s' where
  lookup w inv' payload hw' hst' := by
    rcases h.lookup_cases hw' hst' with hw | ⟨e, hjournal, hby, hdoc⟩
    · rw [h.resolution_eq, hs.lookup w inv' payload hw hst']
      intro w₁ inv₁ hw₁ hst₁ hid
      obtain rfl := hn.worker_inj w₁ w inv₁ inv' hw₁ hw hid
      obtain rfl := Option.some.inj (hw.symm.trans hw₁)
      exact nomatch hst₁.symm.trans hst'
    · rw [resolution, show s'.journal = e :: s.journal from hjournal,
        List.find?_cons_of_pos hby, Option.map_some, hdoc]
  handled := by
    have old : ∀ r ∈ s.handled, s'.resolution r.invocation r.jobId = some r.payload := by
      intro r hr
      rw [h.resolution_eq, hs.handled r hr]
      exact fun w inv hw hst hid => hn.handled_fresh w inv hw (by rw [hst]; trivial) r hr hid.symm
    rcases h.handled_cases with he | ⟨w, n, offset, envelope, payload, hw, hw', he⟩
    · rw [he]
      exact old
    · rw [he]
      refine List.forall_mem_cons.mpr ⟨?_, old⟩
      rw [h.resolution_eq]
      · exact hs.lookup w _ payload hw rfl
      · intro w₁ inv₁ hw₁ hst₁ hid
        obtain rfl := hn.worker_inj w₁ w inv₁ _ hw₁ hw hid
        obtain rfl := Option.some.inj (hw.symm.trans hw₁)
        exact nomatch hst₁

theorem given (h : Runs.Reachable step (start cfg) s) : Given s :=
  (h.invariant (I := fun s => Numbered s ∧ Given s) ⟨.start cfg, .start cfg⟩
    fun _ _ _ hs ha => ⟨hs.1.of_step (step_cases ha), hs.2.of_step hs.1 (step_cases ha)⟩).2

/-! ## Undisturbed completions -/

/-- An undisturbed completion records what its handler was given. -/
theorem Undisturbed.resolvedLast (hreach : Runs.Reachable step (start cfg) s)
    (hok : Undisturbed s a) : ResolvedLast s a := by
  rintro w now inv rfl hc r hr hid
  obtain ⟨j, hj, ht⟩ := (delivered hreach).job (sound hreach) hc.worker
  -- the invocation has run its handler once, on its own job
  obtain ⟨r', hr', hid', hjob⟩ := handling hreach w inv hc.worker (by rw [hc.stage]; trivial)
  obtain rfl := List.inj_on_of_nodup_map (numbered hreach).handled_nodup hr hr'
    (hid.trans hid'.symm)
  have hgiven := (given hreach).handled r hr
  rw [hid, hjob] at hgiven
  obtain ⟨e₀, hfind, hdoc⟩ := Option.map_eq_some_iff.mp hgiven
  obtain ⟨hby, since, older, hsplit, hsince⟩ := List.find?_eq_some_iff_append.mp hfind
  have he₀ : e₀.resolves inv.envelope.jobId = true := (of_decide_eq_true hby).2
  have htake : s.sinceResolved inv.id inv.envelope.jobId = since := by
    rw [sinceResolved, hsplit, List.takeWhile_append_of_pos hsince,
      List.takeWhile_cons_of_neg (by simp [hby]), List.append_nil]
  change (s.journal.find? (Entry.resolves inv.envelope.jobId)).elim _ Entry.document = _
  rw [hsplit, List.find?_append, ← hdoc]
  cases hlast : since.find? (Entry.resolves inv.envelope.jobId) with
  | none => rw [Option.none_or, List.find?_cons_of_pos he₀]; rfl
  | some e =>
    obtain ⟨he, newer, between, rfl, -⟩ := List.find?_eq_some_iff_append.mp hlast
    have hjournal : s.journal = newer ++ e :: (between ++ e₀ :: older) := by
      rw [hsplit, List.append_assoc, List.cons_append]
    rw [Option.some_or]
    refine Ledger.resolved_alike (ledger_reachable hreach) hj hjournal he he₀ fun x hx => ?_
    rw [ht]
    exact Bool.eq_false_iff.mpr (hok w now inv rfl hc newer e between htake he x hx)

/-- **Snapshots record what the completed runs used**, in every state of a run whose completions are
undisturbed. -/
theorem snapshots_recorded {as : List Action} (hrun : Runs.run step (start cfg) as = some s)
    (hok : Runs.Along step Undisturbed (start cfg) as) : Snapshotted s := by
  refine (Runs.invariant (I := fun s => Runs.Reachable step (start cfg) s ∧ Snapshotted s)
    (fun s a s' hs ha hstep => ?_) as (start cfg) ⟨.refl, .start cfg⟩ hok hrun).2
  exact ⟨hs.1.snoc hstep, hs.2.of_step hs.1 (step_cases hstep) (ha.resolvedLast hs.1)⟩

/-- Where nobody changes the configuration, every completion is undisturbed. -/
theorem along_undisturbed {as : List Action} (hfix : ∀ a ∈ as, ¬ a.Configures) :
    Runs.Along step Undisturbed (start cfg) as := by
  refine (Runs.along_congr_of (I := fun s => ∀ e ∈ s.journal, e.configures = false)
    (fun s a s' hs ha hstep => ?_) (fun s a hs _ => iff_of_true ?_ trivial) as (start cfg)
    (fun _ h => nomatch h) (Runs.along_of_forall as _ hfix)).mpr (Runs.along_true as _)
  · rcases (step_cases hstep).journal_cases with he | ⟨actor, c, hc, he⟩
    · exact he ▸ hs
    · refine he ▸ List.forall_mem_cons.mpr ⟨?_, hs⟩
      cases c with
      | setTypeConfig t timeout cap p =>
        rw [hc.of_configure] at ha
        exact absurd trivial ha
      | _ => rfl
  · intro w now inv _ _ newer e older hsince _ x hx hconf
    have hmem : x ∈ s.sinceResolved inv.id inv.envelope.jobId := by
      rw [hsince]
      exact List.mem_append_right _ (List.mem_cons_of_mem _ hx)
    have hno := hs x (List.takeWhile_subset _ hmem)
    rw [Entry.configures_of_configuresType hconf] at hno
    exact nomatch hno

/-- Worker 0 is overtaken, worker 1 resolves the payload again, and worker 0 completes the job. -/
theorem snapshots_recorded_overtaken : ∃ s, Runs.run step (start helloConfig) (overtaken ++
      [.work 1 (defaultRunTimeout + 8), .work 0 (defaultRunTimeout + 9)]) = some s ∧
    s.status 1 = some .completed ∧ Snapshotted s := by
  obtain ⟨s, hs, hst⟩ : ∃ s, Runs.run step (start helloConfig) (overtaken ++
      [.work 1 (defaultRunTimeout + 8), .work 0 (defaultRunTimeout + 9)]) = some s ∧
      s.status 1 = some .completed := ⟨_, rfl, rfl⟩
  exact ⟨s, hs, hst, snapshots_recorded hs
    (along_undisturbed (by simp [overtaken, Action.Configures]))⟩

/-! ## A job that records another run's payload -/

/-- Worker 0 is overtaken in its handler; the configuration changes, worker 1 claims the job and
resolves its payload, and worker 0 completes it. -/
def reconfigured : List Action :=
  [.enqueue "hello" none none 0 0, .dispatch 0 10 1, .publish 0, .dispatch 0 10 1,
    .poll 0 0, .work 0 2, .work 0 3, .lookup 0 true,
    .find 0 (defaultRunTimeout + 4), .reap 0 (defaultRunTimeout + 5),
    .configure "hello" defaultRunTimeout defaultMaxAttempts
      (some (Finmap.singleton "greeting" (.scalar (.str "hi")))),
    .dispatch 0 10 (defaultRunTimeout + 6), .publish 0, .dispatch 0 10 (defaultRunTimeout + 6),
    .poll 1 1, .work 1 (defaultRunTimeout + 7), .work 1 (defaultRunTimeout + 8),
    .handled 0 false, .work 0 (defaultRunTimeout + 9)]

/-- **Another run's payload is recorded.** -/
theorem other_payload_recorded :
    ¬ ∀ cfg s, Runs.Reachable step (start cfg) s → Snapshotted s := by
  intro hall
  obtain ⟨s, j, hrun, hj, hst, hpayload, hhandled⟩ : ∃ s j,
      Runs.run step (start helloConfig) reconfigured = some s ∧ s.store.getJob 1 = some j ∧
      j.status = .completed ∧
      j.payload = .object (∅ ∪ Finmap.singleton "greeting" (.scalar (.str "hi"))) ∧
      s.handled = [⟨0, 1, .object (∅ ∪ ∅)⟩] := ⟨_, _, rfl, rfl, rfl, rfl, rfl⟩
  obtain ⟨h, hmem, -, -, hp⟩ := hall helloConfig s ⟨reconfigured, hrun⟩ 1 j hj hst
  rw [hhandled, List.mem_singleton] at hmem
  rw [hpayload, hmem, Finmap.empty_union, Finmap.empty_union] at hp
  have hkey := congrArg (Finmap.lookup "greeting") (Document.object.inj hp)
  rw [Finmap.lookup_singleton_eq, Finmap.lookup_empty] at hkey
  exact nomatch hkey

end System

end JobWorkflow
