import JobWorkflow.Common.Lifecycle

/-!
# Common/History — what the journal says about a job

Facts about every journal, read off `Move`.

* `claims_eq_started` — the successful claims of a job are as many as its attempts, plus one once it
  has left its queue; `requeues_eq_attempts` — its re-queues are its attempts.
* `claim_is_latest` — after a successful claim, the job was re-queued, or it has not been claimed
  again and has left its queue; `requeued_waits` — after a re-queue it was claimed, or still waits.
* `still_stuck` — a run that `find_stuck` listed, and that was neither claimed nor resolved since,
  is still as old as it was.
-/

namespace JobWorkflow

open InMemoryStore

variable {ι : Type}

namespace Entry

/-- A successful claim of job `i`. -/
def claims (i : JobId) (e : Entry ι) : Bool :=
  match e.call with
  | .claim k _ => k = i ∧ e.reply.effective = true
  | _ => false

/-- A successful `resolve_payload` of job `i`. -/
def resolves (i : JobId) (e : Entry ι) : Bool :=
  match e.call with
  | .resolvePayload k _ _ => k = i ∧ e.reply.effective = true
  | _ => false

/-- A successful re-queue of job `i`. -/
def requeues (i : JobId) (e : Entry ι) : Bool :=
  match e.call with
  | .requeueStuck k _ => k = i ∧ e.reply.effective = true
  | _ => false

/-- The document that a `resolve_payload` returned. -/
def document (e : Entry ι) : Document :=
  match e.reply with
  | .payload (.ok (some p)) => p
  | _ => .object ∅

/-- A change of the type configuration. -/
def configures (e : Entry ι) : Bool :=
  match e.call with
  | .setTypeConfig _ _ _ _ => true
  | _ => false

/-- A change of the configuration of type `t`. -/
def configuresType (t : String) (e : Entry ι) : Bool :=
  match e.call with
  | .setTypeConfig k _ _ _ => k = t
  | _ => false

theorem configures_of_configuresType {t : String} {e : Entry ι} (h : e.configuresType t = true) :
    e.configures = true := by
  obtain ⟨actor, c, r⟩ := e
  cases c with
  | setTypeConfig => rfl
  | _ => exact nomatch h

variable {i : JobId} {actor : ι} {c : Call} {r : Reply}

theorem touches_of_claims (h : (⟨actor, c, r⟩ : Entry ι).claims i = true) : Touches i c r := by
  cases c with
  | claim k now =>
    obtain ⟨rfl, hr⟩ := of_decide_eq_true h
    exact ⟨rfl, hr⟩
  | _ => exact nomatch h

theorem touches_of_resolves (h : (⟨actor, c, r⟩ : Entry ι).resolves i = true) :
    Touches i c r := by
  cases c with
  | resolvePayload k t now =>
    obtain ⟨rfl, hr⟩ := of_decide_eq_true h
    exact ⟨rfl, hr⟩
  | _ => exact nomatch h

theorem not_configuresType_of_resolves {e : Entry ι} {t : String} (h : e.resolves i = true) :
    e.configuresType t = false := by
  obtain ⟨actor, c, r⟩ := e
  cases c with
  | resolvePayload k t' now => rfl
  | _ => exact nomatch h

theorem not_requeues_of_claims {e : Entry ι} (h : e.claims i = true) : e.requeues i = false := by
  obtain ⟨actor, c, r⟩ := e
  cases c with
  | claim k now => rfl
  | _ => exact nomatch h

theorem touches_of_requeues (h : (⟨actor, c, r⟩ : Entry ι).requeues i = true) :
    Touches i c r := by
  cases c with
  | requeueStuck k now =>
    obtain ⟨rfl, hr⟩ := of_decide_eq_true h
    exact ⟨rfl, hr⟩
  | _ => exact nomatch h

end Entry

/-! ## Counting claims -/

/-- Waiting for a worker. -/
def Job.Waiting (j : Job) : Prop := j.status ∈ [JobStatus.queued, JobStatus.dispatched]

instance (j : Job) : Decidable j.Waiting := inferInstanceAs (Decidable (_ ∈ _))

/-- How often a job was started. -/
def Job.started (j : Job) : ℕ := j.attempts + if j.Waiting then 0 else 1

theorem Job.started_of_waiting {j : Job} (h : j.Waiting) : j.started = j.attempts := by
  rw [started, if_pos h, Nat.add_zero]

theorem Job.started_of_not_waiting {j : Job} (h : ¬ j.Waiting) : j.started = j.attempts + 1 := by
  rw [started, if_neg h]

theorem Job.started_le (j : Job) : j.started ≤ j.attempts + 1 := by
  unfold started
  split <;> omega

theorem Job.not_waiting_of_running {j : Job} (h : j.status = .running) : ¬ j.Waiting := by
  rw [Waiting, h]
  decide

namespace Move

variable {cap : String → ℤ} {i : JobId} {c : Call} {r : Reply} {j j' : Job}

/-- A job is started by its claims and by nothing else. -/
theorem started_eq (h : Move cap i c r j j') (actor : ι) :
    j'.started = j.started + if (⟨actor, c, r⟩ : Entry ι).claims i then 1 else 0 := by
  cases h with
  | stay h => rw [if_neg fun hc => h (Entry.touches_of_claims hc)]; rfl
  | dispatch h =>
    have hj : j.Waiting := by rw [Job.Waiting, h]; decide
    rw [Job.started_of_waiting hj]
    rfl
  | claim h =>
    rename_i now
    have hc : (⟨actor, .claim i now, .flag true⟩ : Entry ι).claims i = true :=
      decide_eq_true ⟨rfl, rfl⟩
    rw [Job.started_of_waiting h, hc]
    rfl
  | resolve h => rfl
  | complete h => rw [Job.started_of_not_waiting (Job.not_waiting_of_running h)]; rfl
  | fail h => rw [Job.started_of_not_waiting (Job.not_waiting_of_running h)]; rfl
  | requeue h hcap => rw [Job.started_of_not_waiting (Job.not_waiting_of_running h)]; rfl
  | deadLetter h => rw [Job.started_of_not_waiting (Job.not_waiting_of_running h)]; rfl

/-- The attempts of a job count its re-queues and nothing else. -/
theorem attempts_requeues (h : Move cap i c r j j') (actor : ι) :
    j'.attempts = j.attempts + if (⟨actor, c, r⟩ : Entry ι).requeues i then 1 else 0 := by
  cases h with
  | stay h => rw [if_neg fun hc => h (Entry.touches_of_requeues hc)]; rfl
  | requeue h hcap =>
    rename_i now
    have hc : (⟨actor, .requeueStuck i now, .flag true⟩ : Entry ι).requeues i = true :=
      decide_eq_true ⟨rfl, rfl⟩
    rw [if_pos hc]
  | _ => rfl

/-- A claim finds the job waiting and starts it. -/
theorem of_claims (h : Move cap i c r j j') {actor : ι}
    (hc : (⟨actor, c, r⟩ : Entry ι).claims i = true) :
    j.Waiting ∧ ¬ j'.Waiting := by
  cases h with
  | stay h => exact absurd (Entry.touches_of_claims hc) h
  | claim h => exact ⟨h, Job.not_waiting_of_running rfl⟩
  | _ => exact nomatch hc

/-- Only a re-queue puts a started job back to waiting. -/
theorem waiting_cases (h : Move cap i c r j j') (hj : ¬ j.Waiting) (actor : ι) :
    ¬ j'.Waiting ∨ (⟨actor, c, r⟩ : Entry ι).requeues i = true := by
  cases h with
  | stay h => exact Or.inl hj
  | dispatch h => exact absurd (by rw [Job.Waiting, h]; decide) hj
  | claim h => exact absurd h hj
  | resolve h => exact Or.inl hj
  | requeue h hcap => exact Or.inr (decide_eq_true ⟨rfl, rfl⟩)
  | complete h => exact Or.inl (show JobStatus.completed ∉ _ by decide)
  | fail h => exact Or.inl (show JobStatus.failed ∉ _ by decide)
  | deadLetter h => exact Or.inl (show JobStatus.failed ∉ _ by decide)

/-- A re-queue leaves the job waiting. -/
theorem of_requeues (h : Move cap i c r j j') {actor : ι}
    (hc : (⟨actor, c, r⟩ : Entry ι).requeues i = true) : j'.Waiting := by
  cases h with
  | stay h => exact absurd (Entry.touches_of_requeues hc) h
  | requeue h hcap => exact show JobStatus.queued ∈ _ by decide
  | _ => exact nomatch hc

/-- A waiting job waits until it is claimed. -/
theorem waiting_or_claims (h : Move cap i c r j j') (hj : j.Waiting) (actor : ι) :
    j'.Waiting ∨ (⟨actor, c, r⟩ : Entry ι).claims i = true := by
  cases h with
  | stay h => exact Or.inl hj
  | dispatch h => exact Or.inl (show JobStatus.dispatched ∈ _ by decide)
  | claim h => exact Or.inr (decide_eq_true ⟨rfl, rfl⟩)
  | resolve h => exact absurd hj (Job.not_waiting_of_running h)
  | complete h => exact absurd hj (Job.not_waiting_of_running h)
  | fail h => exact absurd hj (Job.not_waiting_of_running h)
  | requeue h hcap => exact absurd hj (Job.not_waiting_of_running h)
  | deadLetter h => exact absurd hj (Job.not_waiting_of_running h)

/-- Only `resolve_payload` writes the payload, and it writes what it returns. -/
theorem payload_eq (h : Move cap i c r j j') (actor : ι) :
    j'.payload = if (⟨actor, c, r⟩ : Entry ι).resolves i then (⟨actor, c, r⟩ : Entry ι).document
      else j.payload := by
  cases h with
  | stay h => rw [if_neg fun hr => h (Entry.touches_of_resolves hr)]
  | resolve h =>
    rename_i t now p
    have hr : (⟨actor, .resolvePayload i t now, .payload (.ok (some p))⟩ : Entry ι).resolves i =
        true := decide_eq_true ⟨rfl, rfl⟩
    rw [if_pos hr]
    rfl
  | _ => rfl

/-- A job that a call leaves completed was so before, or this is its completion. -/
theorem completed_cases (h : Move cap i c r j j') (hj : j'.status = .completed) :
    j' = j ∨ j.status = .running ∧ j'.payload = j.payload ∧
      ∃ now, c = .complete i now ∧ r = .flag true := by
  cases h with
  | stay h => exact Or.inl rfl
  | resolve h => exact nomatch h.symm.trans hj
  | complete h => exact Or.inr ⟨h, rfl, _, rfl, rfl⟩
  | _ => exact nomatch hj

/-- A job that ends up running was claimed or resolved by the call, or left alone. -/
theorem running_cases (h : Move cap i c r j j') (hj : j'.status = .running) (actor : ι) :
    j' = j ∨ (⟨actor, c, r⟩ : Entry ι).claims i = true ∨
      (⟨actor, c, r⟩ : Entry ι).resolves i = true := by
  cases h with
  | stay h => exact Or.inl rfl
  | claim h => exact Or.inr (Or.inl (decide_eq_true ⟨rfl, rfl⟩))
  | resolve h => exact Or.inr (Or.inr (decide_eq_true ⟨rfl, rfl⟩))
  | _ => exact nomatch hj

end Move

namespace Ledger

variable {cfg : Dict String TypeConfig} {l : Ledger ι}

/-- The successful claims of a job that is not there yet are none, and those of a job that is are
its starts. -/
def ClaimsCounted (l : Ledger ι) : Prop := ∀ i,
  (l.store.getJob i = none → l.journal.countP (Entry.claims i) = 0) ∧
  ∀ j, l.store.getJob i = some j → l.journal.countP (Entry.claims i) = j.started

/-- **A counter of the job that each marked call raises** counts the marked calls. -/
theorem counted {p : JobId → Entry ι → Bool} {f : Job → ℕ}
    (htouch : ∀ i actor c r, p i ⟨actor, c, r⟩ = true → Touches i c r)
    (hnew : ∀ i t q cr ca ua, f (newJob i t q cr ca ua) = 0)
    (hmove : ∀ cap i c r j j' actor, Move cap i c r j j' →
      f j' = f j + if p i ⟨actor, c, r⟩ then 1 else 0)
    (h : Runs.Reachable step (start cfg) l) (i : JobId) :
    (l.store.getJob i = none → l.journal.countP (p i) = 0) ∧
      ∀ j, l.store.getJob i = some j → l.journal.countP (p i) = f j := by
  refine (induction (I := fun l => (l.store.getJob i = none → l.journal.countP (p i) = 0) ∧
      ∀ j, l.store.getJob i = some j → l.journal.countP (p i) = f j)
    ⟨fun _ => rfl, fun _ hj => (nomatch hj)⟩ (fun l actor c hw hl => ?_) h).2
  have heff := exec_effect c l.store
  have hcount : (l.perform actor c).journal.countP (p i) =
      l.journal.countP (p i) + if p i ⟨actor, c, (exec l.store c).1⟩ then 1 else 0 :=
    List.countP_cons
  rw [hcount]
  cases hj : l.store.getJob i with
  | none =>
    -- no call is made on a job that is not there
    have hno : p i ⟨actor, c, (exec l.store c).1⟩ = false := by
      refine Bool.eq_false_iff.mpr fun hp => ?_
      obtain ⟨j, hj'⟩ := heff.exists_of_touches (htouch i _ _ _ hp)
      exact nomatch hj.symm.trans hj'
    rw [hno, hl.1 hj]
    refine ⟨fun _ => rfl, fun j' hj' => ?_⟩
    obtain ⟨t, q, cr, ca, ua, -, -, -, -, rfl⟩ := heff.new_job hj hj'
    exact (hnew i t q cr ca ua).symm
  | some j =>
    obtain ⟨j', hj', hm⟩ := heff.job hw hj
    refine ⟨fun hn => (nomatch hn.symm.trans hj'), fun k hk => ?_⟩
    obtain rfl : j' = k := Option.some.inj (hj'.symm.trans hk)
    rw [hl.2 j hj, hmove _ i c _ j j' actor hm]

/-- **The claims of a job are its starts.** -/
theorem claims_eq_started (h : Runs.Reachable step (start cfg) l) : ClaimsCounted l :=
  counted (fun _ _ _ _ => Entry.touches_of_claims) (fun _ _ _ _ _ _ => rfl)
    (fun _ _ _ _ _ _ actor hm => hm.started_eq actor) h

/-- **The re-queues of a job are its attempts.** -/
theorem requeues_eq_attempts (h : Runs.Reachable step (start cfg) l) {i : JobId} {j : Job}
    (hj : l.store.getJob i = some j) : l.journal.countP (Entry.requeues i) = j.attempts :=
  (counted (fun _ _ _ _ => Entry.touches_of_requeues) (fun _ _ _ _ _ _ => rfl)
    (fun _ _ _ _ _ _ actor hm => hm.attempts_requeues actor) h i).2 j hj

/-! ## Overlapping claims -/

/-- After each successful claim the job was re-queued, or is past its queue and not
claimed again. -/
def ClaimsLast (l : Ledger ι) : Prop := ∀ i newer e older, l.journal = newer ++ e :: older →
  e.claims i = true → (∃ x ∈ newer, x.requeues i = true) ∨
    ((∀ x ∈ newer, x.claims i = false) ∧ ∃ j, l.store.getJob i = some j ∧ ¬ j.Waiting)

theorem ClaimsLast.perform (hw : WellKeyed l.store) (hl : ClaimsLast l) (actor : ι) (c : Call) :
    ClaimsLast (l.perform actor c) := by
  have heff := exec_effect c l.store
  intro i newer e older hsplit he
  rcases List.cons_eq_append_iff.mp hsplit with ⟨rfl, hcons⟩ | ⟨newer', rfl, hsplit'⟩
  · obtain ⟨rfl, rfl⟩ := List.cons.inj hcons
    obtain ⟨j, hj⟩ := heff.exists_of_touches (Entry.touches_of_claims he)
    obtain ⟨j', hj', hm⟩ := heff.job hw hj
    exact Or.inr ⟨fun _ hx => (nomatch hx), j', hj', (hm.of_claims he).2⟩
  · rcases hl i newer' e older hsplit' he with ⟨x, hx, hr⟩ | ⟨hnone, j, hj, hnw⟩
    · exact Or.inl ⟨x, List.mem_cons_of_mem _ hx, hr⟩
    · obtain ⟨j', hj', hm⟩ := heff.job hw hj
      rcases hm.waiting_cases hnw actor with hnw' | hr
      · refine Or.inr ⟨fun x hx => ?_, j', hj', hnw'⟩
        rcases List.mem_cons.mp hx with rfl | hx
        · exact Bool.eq_false_iff.mpr fun hc => hnw (hm.of_claims hc).1
        · exact hnone x hx
      · exact Or.inl ⟨_, List.mem_cons_self, hr⟩

/-- **A claim is the latest until the job is re-queued.** -/
theorem claim_is_latest (h : Runs.Reachable step (start cfg) l) : ClaimsLast l :=
  (induction (I := ClaimsLast) (fun _ _ _ _ hsplit => by simp [start] at hsplit)
    (fun _ actor c hw hl => hl.perform hw actor c) h).2

/-- After each re-queue the job was claimed, or still waits. -/
def RequeuesWait (l : Ledger ι) : Prop := ∀ i newer e older, l.journal = newer ++ e :: older →
  e.requeues i = true → (∃ x ∈ newer, x.claims i = true) ∨
    ∃ j, l.store.getJob i = some j ∧ j.Waiting

theorem RequeuesWait.perform (hw : WellKeyed l.store) (hl : RequeuesWait l) (actor : ι) (c : Call) :
    RequeuesWait (l.perform actor c) := by
  have heff := exec_effect c l.store
  intro i newer e older hsplit he
  rcases List.cons_eq_append_iff.mp hsplit with ⟨rfl, hcons⟩ | ⟨newer', rfl, hsplit'⟩
  · obtain ⟨rfl, rfl⟩ := List.cons.inj hcons
    obtain ⟨j, hj⟩ := heff.exists_of_touches (Entry.touches_of_requeues he)
    obtain ⟨j', hj', hm⟩ := heff.job hw hj
    exact Or.inr ⟨j', hj', hm.of_requeues he⟩
  · rcases hl i newer' e older hsplit' he with ⟨x, hx, hc⟩ | ⟨j, hj, hwait⟩
    · exact Or.inl ⟨x, List.mem_cons_of_mem _ hx, hc⟩
    · obtain ⟨j', hj', hm⟩ := heff.job hw hj
      rcases hm.waiting_or_claims hwait actor with hwait' | hc
      · exact Or.inr ⟨j', hj', hwait'⟩
      · exact Or.inl ⟨_, List.mem_cons_self, hc⟩

/-- **A re-queued job waits until it is claimed.** -/
theorem requeued_waits (h : Runs.Reachable step (start cfg) l) : RequeuesWait l :=
  (induction (I := RequeuesWait) (fun _ _ _ _ hsplit => by simp [start] at hsplit)
    (fun _ actor c hw hl => hl.perform hw actor c) h).2

/-- A running job is on the attempt that its latest claim started. -/
theorem attempts_of_latest_claim (h : Runs.Reachable step (start cfg) l) {i : JobId} {j : Job}
    (hj : l.store.getJob i = some j) (hrun : j.status = .running) {newer older : List (Entry ι)}
    {e : Entry ι} (hsplit : l.journal = newer ++ e :: older) (he : e.claims i = true)
    (hlast : ∀ x ∈ newer, x.claims i = false) : j.attempts = older.countP (Entry.requeues i) := by
  have hnewer : newer.countP (Entry.requeues i) = 0 := by
    refine List.countP_eq_zero.mpr fun x hx hre => ?_
    obtain ⟨n₁, n₂, rfl⟩ := List.append_of_mem hx
    rw [List.append_assoc, List.cons_append] at hsplit
    rcases requeued_waits h i n₁ x _ hsplit hre with ⟨y, hy, hc⟩ | ⟨j', hj', hwait⟩
    · exact Bool.false_ne_true ((hlast y (List.mem_append_left _ hy)).symm.trans hc)
    · obtain rfl := Option.some.inj (hj.symm.trans hj')
      exact Job.not_waiting_of_running hrun hwait
  rw [← requeues_eq_attempts h hj, hsplit, List.countP_append, hnewer, List.countP_cons,
    Entry.not_requeues_of_claims he]
  exact Nat.zero_add _

/-! ## The journal replayed -/

/-- The store that the calls of a journal lead to. -/
def replay (cfg : Dict String TypeConfig) (journal : List (Entry ι)) : InMemoryStore :=
  journal.foldr (fun e s => (exec s e.call).2) { InMemoryStore.empty with typeConfig := cfg }

/-- **Each call was answered by the store that the calls before it lead to.** -/
theorem reply_eq (h : Runs.Reachable step (start cfg) l) : l.store = replay cfg l.journal ∧
    ∀ newer e older, l.journal = newer ++ e :: older →
      e.reply = (exec (replay cfg older) e.call).1 := by
  refine (induction (I := fun l => l.store = replay cfg l.journal ∧
    ∀ newer e older, l.journal = newer ++ e :: older →
      e.reply = (exec (replay cfg older) e.call).1)
    ⟨rfl, fun _ _ _ hsplit => by simp [start] at hsplit⟩ (fun l actor c _ hl => ?_) h).2
  refine ⟨congrArg (fun s => (exec s c).2) hl.1, fun newer e older hsplit => ?_⟩
  rcases List.cons_eq_append_iff.mp hsplit with ⟨rfl, hcons⟩ | ⟨newer', rfl, hsplit'⟩
  · obtain ⟨rfl, rfl⟩ := List.cons.inj hcons
    exact congrArg (fun s => (exec s c).1) hl.1
  · exact hl.2 newer' e older hsplit'

/-! ## Snapshots -/

/-- The document that the last successful `resolve_payload` of job `i` returned, `{}` if
none did. -/
def lastResolved (l : Ledger ι) (i : JobId) : Document :=
  (l.journal.find? (Entry.resolves i)).elim (.object ∅) Entry.document

/-- **The stored payload is what was resolved last.** -/
theorem payload_eq_lastResolved (h : Runs.Reachable step (start cfg) l) {i : JobId} {j : Job}
    (hj : l.store.getJob i = some j) : j.payload = l.lastResolved i := by
  refine (induction (I := fun l => (l.store.getJob i = none → l.lastResolved i = .object ∅) ∧
      ∀ j, l.store.getJob i = some j → j.payload = l.lastResolved i)
    ⟨fun _ => rfl, fun _ hj => (nomatch hj)⟩ (fun l actor c hw hl => ?_) h).2.2 j hj
  have heff := exec_effect c l.store
  have hlast : (l.perform actor c).lastResolved i =
      if (⟨actor, c, (exec l.store c).1⟩ : Entry ι).resolves i then
        (⟨actor, c, (exec l.store c).1⟩ : Entry ι).document else l.lastResolved i := by
    rw [lastResolved, perform, List.find?_cons]
    cases (⟨actor, c, (exec l.store c).1⟩ : Entry ι).resolves i with
    | true => rfl
    | false => rfl
  rw [hlast]
  cases hj : l.store.getJob i with
  | none =>
    -- no call is made on a job that is not there
    have hno : ¬ (⟨actor, c, (exec l.store c).1⟩ : Entry ι).resolves i = true := fun hr => by
      obtain ⟨j, hj'⟩ := heff.exists_of_touches (Entry.touches_of_resolves hr)
      exact nomatch hj.symm.trans hj'
    rw [if_neg hno, hl.1 hj]
    refine ⟨fun _ => rfl, fun j' hj' => ?_⟩
    obtain ⟨t, q, cr, ca, ua, -, -, -, -, rfl⟩ := heff.new_job hj hj'
    rfl
  | some j =>
    obtain ⟨j', hj', hm⟩ := heff.job hw hj
    refine ⟨fun hn => (nomatch hn.symm.trans hj'), fun k hk => ?_⟩
    obtain rfl : j' = k := Option.some.inj (hj'.symm.trans hk)
    rw [hm.payload_eq actor, hl.2 j hj]

/-- The configuration of a type is changed by calls that set it. -/
theorem typeConfig_get? {actor : ι} {c : Call} {t : String} {s : InMemoryStore}
    (h : (⟨actor, c, (exec s c).1⟩ : Entry ι).configuresType t = false) :
    (exec s c).2.typeConfig.get? t = s.typeConfig.get? t := by
  by_cases hc : ∃ t' timeout cap p, c = .setTypeConfig t' timeout cap p
  · obtain ⟨t', timeout, cap, p, rfl⟩ := hc
    exact Dict.get?_set_of_ne s.typeConfig _ (Ne.symm (of_decide_eq_false h))
  · rw [(exec_effect c s).typeConfig fun t' timeout cap p he => hc ⟨t', timeout, cap, p, he⟩]

/-- A job is resolved to the overlay of its type's config. -/
theorem overlay_of_resolves {actor : ι} {c : Call} {s : InMemoryStore} {i : JobId} {j : Job}
    (h : (⟨actor, c, (exec s c).1⟩ : Entry ι).resolves i = true) (hj : s.getJob i = some j) :
    ∃ cfg p, s.typeConfig.get? j.jobType = some cfg ∧
      overlay cfg.payload j.inputPayload = .ok p ∧
      (⟨actor, c, (exec s c).1⟩ : Entry ι).document = .object p := by
  cases c with
  | resolvePayload k t now =>
    obtain ⟨rfl, hr⟩ := of_decide_eq_true h
    change Reply.effective (.payload (s.resolvePayload k t now).1) = true at hr
    change ∃ cfg p, _ ∧ _ ∧
      (⟨actor, _, .payload (s.resolvePayload k t now).1⟩ : Entry ι).document = _
    rcases resolvePayload_cases k t now s with
      ⟨job, cfg, p, hk, -, hcfg, ho, he⟩ | ⟨-, hnone | ⟨e, he⟩⟩
    · obtain rfl := Option.some.inj (hj.symm.trans hk)
      refine ⟨cfg, p, hcfg, ho, ?_⟩
      rw [he]
      rfl
    · rw [hnone] at hr
      exact nomatch hr
    · rw [he] at hr
      exact nomatch hr
  | _ => exact nomatch h

/-- What a job was resolved to, it would still be, if the configuration of its type has not
changed since. -/
def StillResolved (l : Ledger ι) : Prop := ∀ i newer e older, l.journal = newer ++ e :: older →
  e.resolves i = true → ∃ j, l.store.getJob i = some j ∧
    ((∀ x ∈ newer, x.configuresType j.jobType = false) →
      ∃ cfg p, l.store.typeConfig.get? j.jobType = some cfg ∧
        overlay cfg.payload j.inputPayload = .ok p ∧ e.document = .object p)

theorem StillResolved.perform (hw : WellKeyed l.store) (hl : StillResolved l) (actor : ι)
    (c : Call) : StillResolved (l.perform actor c) := by
  have heff := exec_effect c l.store
  intro i newer e older hsplit he
  rcases List.cons_eq_append_iff.mp hsplit with ⟨rfl, hcons⟩ | ⟨newer', rfl, hsplit'⟩
  · obtain ⟨rfl, rfl⟩ := List.cons.inj hcons
    obtain ⟨j, hj⟩ := heff.exists_of_touches (Entry.touches_of_resolves he)
    obtain ⟨j', hj', hm⟩ := heff.job hw hj
    obtain ⟨cfg, p, hcfg, ho, hdoc⟩ := overlay_of_resolves he hj
    refine ⟨j', hj', fun _ => ⟨cfg, p, ?_, ?_, hdoc⟩⟩
    · rw [hm.sameRun.jobType, ← hcfg]
      exact typeConfig_get? (Entry.not_configuresType_of_resolves he)
    · rw [hm.sameRun.inputPayload, ho]
  · obtain ⟨j, hj, hkeep⟩ := hl i newer' e older hsplit' he
    obtain ⟨j', hj', hm⟩ := heff.job hw hj
    refine ⟨j', hj', fun hno => ?_⟩
    rw [hm.sameRun.jobType] at hno ⊢
    obtain ⟨hno, hnewer⟩ := List.forall_mem_cons.mp hno
    obtain ⟨cfg, p, hcfg, ho, hdoc⟩ := hkeep hnewer
    exact ⟨cfg, p, (typeConfig_get? hno).trans hcfg, hm.sameRun.inputPayload ▸ ho, hdoc⟩

/-- **A job is resolved alike**, unless the configuration of its type changes in between. -/
theorem resolved_alike (h : Runs.Reachable step (start cfg) l) {i : JobId} {j : Job}
    (hj : l.store.getJob i = some j) {newer between older : List (Entry ι)} {e e₀ : Entry ι}
    (hsplit : l.journal = newer ++ e :: (between ++ e₀ :: older)) (he : e.resolves i = true)
    (he₀ : e₀.resolves i = true) (hno : ∀ x ∈ between, x.configuresType j.jobType = false) :
    e.document = e₀.document := by
  refine (induction (I := fun l => StillResolved l ∧ ∀ j newer e between e₀ older,
      l.store.getJob i = some j → l.journal = newer ++ e :: (between ++ e₀ :: older) →
      e.resolves i = true → e₀.resolves i = true →
      (∀ x ∈ between, x.configuresType j.jobType = false) → e.document = e₀.document)
    ⟨fun _ _ _ _ hsplit => ?_, fun _ _ _ _ _ _ _ hsplit => ?_⟩ (fun l actor c hw hl => ?_)
    h).2.2 j newer e between e₀ older hj hsplit he he₀ hno
  · simp [start] at hsplit
  · simp [start] at hsplit
  · refine ⟨hl.1.perform hw actor c, fun j' newer e between e₀ older hj' hsplit he he₀ hno => ?_⟩
    have heff := exec_effect c l.store
    have same : ∀ {j}, l.store.getJob i = some j → j'.jobType = j.jobType := by
      intro j hj
      obtain ⟨k, hk, hm⟩ := heff.job hw hj
      obtain rfl := Option.some.inj (hj'.symm.trans hk)
      exact hm.sameRun.jobType
    rcases List.cons_eq_append_iff.mp hsplit with ⟨rfl, hcons⟩ | ⟨newer', rfl, hsplit'⟩
    · obtain ⟨rfl, hjournal⟩ := List.cons.inj hcons
      obtain ⟨j, hj, hkeep⟩ := hl.1 i between e₀ older hjournal.symm he₀
      obtain ⟨cfg, p, hcfg, ho, hdoc⟩ := overlay_of_resolves he hj
      obtain ⟨cfg', p', hcfg', ho', hdoc'⟩ := hkeep (same hj ▸ hno)
      obtain rfl := Option.some.inj (hcfg.symm.trans hcfg')
      obtain rfl := Except.ok.inj (ho.symm.trans ho')
      exact hdoc.trans hdoc'.symm
    · obtain ⟨j, hj, -⟩ := hl.1 i (newer' ++ e :: between) e₀ older (by simpa using hsplit') he₀
      exact hl.2 j newer' e between e₀ older hj hsplit' he he₀ (same hj ▸ hno)

/-! ## Ageing -/

/-- Nothing since the listing claimed or resolved job `i` or changed the configuration. -/
def Untouched (i : JobId) (newer : List (Entry ι)) : Prop :=
  ∀ x ∈ newer, x.claims i = false ∧ x.resolves i = false ∧ x.configures = false

/-- A listed run that is untouched and still running is as old as when it was listed. -/
def ListedStuck (l : Ledger ι) : Prop := ∀ newer actor t xs older (x : StuckJob),
  l.journal = newer ++ ⟨actor, .findStuck t, .stuck xs⟩ :: older → x ∈ xs →
    Untouched x.jobId newer → ∀ j, l.store.getJob x.jobId = some j → j.status = .running →
      l.store.timeout j.jobType < t - j.updatedAt

theorem ListedStuck.perform (hw : WellKeyed l.store) (hl : ListedStuck l) (actor : ι) (c : Call) :
    ListedStuck (l.perform actor c) := by
  have heff := exec_effect c l.store
  intro newer actor' t xs older x hsplit hx hnone j' hj' hrun
  rcases List.cons_eq_append_iff.mp hsplit with ⟨rfl, hcons⟩ | ⟨newer', rfl, hsplit'⟩
  · obtain ⟨hhead, rfl⟩ := List.cons.inj hcons
    obtain ⟨rfl, rfl, hxs⟩ := Entry.mk.inj hhead
    obtain rfl : xs = l.store.findStuck t := Reply.stuck.inj hxs
    obtain ⟨i, j, hj, hr, hold, rfl⟩ := mem_findStuck.mp hx
    rw [hw.id_eq i j hj] at hj'
    obtain rfl : j = j' := Option.some.inj (hj.symm.trans hj')
    exact hold
  · obtain ⟨hclaim, hresolve, hconf⟩ := hnone _ List.mem_cons_self
    have htimeout : (exec l.store c).2.timeout = l.store.timeout := by
      have hcfg := heff.typeConfig fun t timeout cap p hc => by
        subst hc
        exact nomatch hconf
      funext t
      rw [timeout, timeout, hcfg]
    cases hj : l.store.getJob x.jobId with
    | none =>
      obtain ⟨t, p, cr, ca, ua, -, -, -, -, rfl⟩ := heff.new_job hj hj'
      exact nomatch hrun
    | some j =>
      obtain ⟨k, hk, hm⟩ := heff.job hw hj
      obtain rfl : j' = k := Option.some.inj (hj'.symm.trans hk)
      rcases hm.running_cases hrun actor with rfl | hc | hr
      · change (exec l.store c).2.timeout j'.jobType < t - j'.updatedAt
        rw [htimeout]
        exact hl newer' actor' t xs older x hsplit' hx
          (fun y hy => hnone y (List.mem_cons_of_mem _ hy)) j' hj hrun
      · exact nomatch hc.symm.trans hclaim
      · exact nomatch hr.symm.trans hresolve

/-- **A listed run ages until it is claimed or resolved.** -/
theorem still_stuck (h : Runs.Reachable step (start cfg) l) : ListedStuck l :=
  (induction (I := ListedStuck) (fun _ _ _ _ _ _ hsplit => by simp [start] at hsplit)
    (fun _ actor c hw hl => hl.perform hw actor c) h).2

end Ledger

end JobWorkflow
