import JobWorkflow.Common.History
import JobWorkflow.Reaper.Service

/-!
# Reaper/RunningSince — what `find_stuck` measures

Eight calls write `updated_at`, for reasons of their own.  On a running job it has one meaning: the
time of the latest successful claim or `resolve_payload` (`UpdatedByLatest`).  The others find the
job not running, or leave it so.  Hence `find_stuck` lists a run only when it has been running for
longer than its timeout (`listed_since_started`).
-/

namespace JobWorkflow

open InMemoryStore

variable {ι : Type}

/-- What a call reads from the clock, latest first. -/
def Call.readings : Call → List Time
  | .enqueue _ _ _ createdAt updatedAt => [updatedAt, createdAt]
  | .markDispatched _ _ now | .claim _ now | .resolvePayload _ _ now | .complete _ now
  | .fail _ now | .findStuck now | .requeueStuck _ now | .deadLetter _ now => [now]
  | .fetchUnpublished _ | .getJob _ | .setTypeConfig _ _ _ _ => []

namespace Entry

/-- A successful claim or `resolve_payload` of job `i`. -/
def restarts (i : JobId) (e : Entry ι) : Bool := e.claims i || e.resolves i

/-- A call that ends a run of job `i`. -/
def ends (i : JobId) (e : Entry ι) : Bool :=
  match e.call with
  | .complete k _ | .fail k _ | .requeueStuck k _ | .deadLetter k _ =>
    k = i ∧ e.reply.effective = true
  | _ => false

/-- A call that starts or ends a run of job `i`. -/
def delimits (i : JobId) (e : Entry ι) : Bool := e.claims i || e.ends i

variable {i : JobId} {actor : ι} {c : Call} {r : Reply}

theorem touches_of_restarts (h : (⟨actor, c, r⟩ : Entry ι).restarts i = true) : Touches i c r :=
  (Bool.or_eq_true_iff.mp h).elim touches_of_claims touches_of_resolves

theorem touches_of_ends (h : (⟨actor, c, r⟩ : Entry ι).ends i = true) : Touches i c r := by
  cases c with
  | complete k now | fail k now | requeueStuck k now | deadLetter k now =>
    obtain ⟨rfl, hr⟩ := of_decide_eq_true h
    exact ⟨rfl, hr⟩
  | _ => exact nomatch h

theorem readings_of_claims {e : Entry ι} (h : e.claims i = true) :
    ∃ now, e.call.readings = [now] := by
  obtain ⟨actor, c, r⟩ := e
  cases c with
  | claim k now => exact ⟨now, rfl⟩
  | _ => exact nomatch h

theorem touches_of_delimits (h : (⟨actor, c, r⟩ : Entry ι).delimits i = true) : Touches i c r :=
  (Bool.or_eq_true_iff.mp h).elim touches_of_claims touches_of_ends

end Entry

namespace Move

variable {cap : String → ℤ} {i : JobId} {c : Call} {r : Reply} {j j' : Job}

/-- A job that ends up running was left alone, or restarted at the time that was read. -/
theorem restart_cases (h : Move cap i c r j j') (hj : j'.status = .running) (actor : ι) :
    j' = j ∧ (⟨actor, c, r⟩ : Entry ι).restarts i = false ∨
      (⟨actor, c, r⟩ : Entry ι).restarts i = true ∧ c.readings = [j'.updatedAt] := by
  cases h with
  | stay h => exact Or.inl ⟨rfl, Bool.eq_false_iff.mpr fun hr => h (Entry.touches_of_restarts hr)⟩
  | claim h =>
    exact Or.inr ⟨Bool.or_eq_true_iff.mpr (Or.inl (decide_eq_true ⟨rfl, rfl⟩)), rfl⟩
  | resolve h =>
    exact Or.inr ⟨Bool.or_eq_true_iff.mpr (Or.inr (decide_eq_true ⟨rfl, rfl⟩)), rfl⟩
  | _ => exact nomatch hj

/-- A job that ends up running was running before and goes on, or is claimed. -/
theorem delimit_cases (h : Move cap i c r j j') (hj : j'.status = .running) (actor : ι) :
    j.status = .running ∧ (⟨actor, c, r⟩ : Entry ι).delimits i = false ∨
      (⟨actor, c, r⟩ : Entry ι).delimits i = true ∧ (⟨actor, c, r⟩ : Entry ι).claims i = true := by
  cases h with
  | stay h => exact Or.inl ⟨hj, Bool.eq_false_iff.mpr fun hd => h (Entry.touches_of_delimits hd)⟩
  | claim h =>
    rename_i now
    have hclaim : (⟨actor, .claim i now, .flag true⟩ : Entry ι).claims i = true :=
      decide_eq_true ⟨rfl, rfl⟩
    exact Or.inr ⟨Bool.or_eq_true_iff.mpr (Or.inl hclaim), hclaim⟩
  | resolve h => exact Or.inl ⟨h, rfl⟩
  | _ => exact nomatch hj

end Move

namespace Ledger

variable {cfg : Dict String TypeConfig} {l : Ledger ι}

/-! ## The latest call of a kind -/

/-- **The rule of the latest call**: if every call that leaves a job running is marked and meets
`Q`, or is not and keeps `Q`, then the latest marked call on a running job meets `Q`. -/
theorem latest {p : JobId → Entry ι → Bool} {Q : JobId → Job → Entry ι → Prop}
    (hmove : ∀ cap i c r j j' actor, Move cap i c r j j' → j'.status = .running →
      (j.status = .running ∧ p i ⟨actor, c, r⟩ = false ∧ ∀ e, Q i j e → Q i j' e) ∨
      (p i ⟨actor, c, r⟩ = true ∧ Q i j' ⟨actor, c, r⟩))
    (h : Runs.Reachable step (start cfg) l) : ∀ i j, l.store.getJob i = some j →
      j.status = .running → ∃ e, l.journal.find? (p i) = some e ∧ Q i j e := by
  refine (induction (I := fun l => ∀ i j, l.store.getJob i = some j → j.status = .running →
    ∃ e, l.journal.find? (p i) = some e ∧ Q i j e) (fun _ _ hj => nomatch hj)
    (fun l actor c hw hl i j' hj' hrun => ?_) h).2
  have heff := exec_effect c l.store
  cases hj : l.store.getJob i with
  | none =>
    obtain ⟨t, q, cr, ca, ua, -, -, -, -, rfl⟩ := heff.new_job hj hj'
    exact nomatch hrun
  | some j =>
    obtain ⟨k, hk, hm⟩ := heff.job hw hj
    obtain rfl : j' = k := Option.some.inj (hj'.symm.trans hk)
    rcases hmove _ i c _ j j' actor hm hrun with ⟨hrun, hno, hkeep⟩ | ⟨hyes, hq⟩
    · obtain ⟨e, he, hq⟩ := hl i j hj hrun
      exact ⟨e, (List.find?_cons_of_neg (Bool.eq_false_iff.mp hno)).trans he, hkeep e hq⟩
    · exact ⟨_, List.find?_cons_of_pos hyes, hq⟩

/-- **`updated_at` of a running job is the time of its latest claim or resolve.** -/
theorem updated_by_latest (h : Runs.Reachable step (start cfg) l) {i : JobId} {j : Job}
    (hj : l.store.getJob i = some j) (hrun : j.status = .running) :
    ∃ e, l.journal.find? (Entry.restarts i) = some e ∧ e.call.readings = [j.updatedAt] := by
  refine latest (Q := fun _ j e => e.call.readings = [j.updatedAt])
    (fun cap i c r j j' actor hm hrun => ?_) h i j hj hrun
  rcases hm.restart_cases hrun actor with ⟨rfl, hno⟩ | hyes
  · exact Or.inl ⟨hrun, hno, fun _ he => he⟩
  · exact Or.inr hyes

/-- **Of the calls that start or end a run of a running job, the latest is a claim.** -/
theorem running_since_claim (h : Runs.Reachable step (start cfg) l) {i : JobId} {j : Job}
    (hj : l.store.getJob i = some j) (hrun : j.status = .running) :
    ∃ e, l.journal.find? (Entry.delimits i) = some e ∧ e.claims i = true := by
  refine latest (Q := fun i _ e => e.claims i = true)
    (fun cap i c r j j' actor hm hrun => ?_) h i j hj hrun
  rcases hm.delimit_cases hrun actor with ⟨hrun, hno⟩ | hyes
  · exact Or.inl ⟨hrun, hno, fun _ he => he⟩
  · exact Or.inr hyes

/-! ## With a clock that does not run backwards -/

/-- No reading is before an earlier one, and none is after `t`. -/
def Nondecreasing (l : Ledger ι) (t : Time) : Prop :=
  (t :: l.journal.flatMap fun e => e.call.readings).Pairwise fun later earlier => earlier ≤ later

instance (l : Ledger ι) (t : Time) : Decidable (l.Nondecreasing t) :=
  inferInstanceAs (Decidable (List.Pairwise _ _))

/-- What the latest call of a kind read is no earlier than what any call of the kind read. -/
theorem Nondecreasing.le_latest {t : Time} (h : l.Nondecreasing t) {p : Entry ι → Bool}
    {e e' : Entry ι} (he : l.journal.find? p = some e) (hmem : e' ∈ l.journal) (hp : p e' = true)
    {x x' : Time} (hx : e.call.readings = [x]) (hx' : x' ∈ e'.call.readings) : x' ≤ x := by
  obtain ⟨-, newer, older, hsplit, hnone⟩ := List.find?_eq_some_iff_append.mp he
  have hclock := (List.pairwise_cons.mp h).2
  rw [hsplit] at hmem
  rcases List.mem_append.mp hmem with hmem | hmem
  · exact absurd hp (by simpa using hnone e' hmem)
  · rcases List.mem_cons.mp hmem with rfl | hmem
    · rw [hx, List.mem_singleton] at hx'
      exact hx'.le
    · rw [hsplit, List.flatMap_append, List.flatMap_cons, hx] at hclock
      exact List.rel_of_pairwise_cons (List.pairwise_append.mp hclock).2.1
        (List.mem_flatMap.mpr ⟨e', hmem, hx'⟩)

/-- A job is listed under its own id. -/
theorem listed_iff (h : Runs.Reachable step (start cfg) l) {t : Time} {x : StuckJob} :
    x ∈ l.store.findStuck t ↔ ∃ j, l.store.getJob x.jobId = some j ∧
      j.status = .running ∧ x = ⟨x.jobId, j.jobType, j.attempts⟩ ∧
      l.store.timeout j.jobType < t - j.updatedAt := by
  have hw := wellKeyed_of_reachable h
  rw [mem_findStuck]
  constructor
  · rintro ⟨i, j, hj, hrun, hold, rfl⟩
    rw [hw.id_eq i j hj]
    exact ⟨j, hj, hrun, rfl, hold⟩
  · rintro ⟨j, hj, hrun, hx, hold⟩
    exact ⟨x.jobId, j, hj, hrun, hold, by rw [hw.id_eq _ j hj]; exact hx⟩

/-- The time that a running job is measured from is what its latest claim or resolve has read. -/
theorem listed_iff_restarted (h : Runs.Reachable step (start cfg) l) {t : Time} {x : StuckJob} :
    x ∈ l.store.findStuck t ↔ ∃ j e since, l.store.getJob x.jobId = some j ∧
      j.status = .running ∧ x = ⟨x.jobId, j.jobType, j.attempts⟩ ∧
      l.journal.find? (Entry.restarts x.jobId) = some e ∧ e.call.readings = [since] ∧
      l.store.timeout j.jobType < t - since := by
  rw [listed_iff h]
  constructor
  · rintro ⟨j, hj, hrun, hx, hold⟩
    obtain ⟨e, he, htime⟩ := updated_by_latest h hj hrun
    exact ⟨j, e, j.updatedAt, hj, hrun, hx, he, htime, hold⟩
  · rintro ⟨j, e, since, hj, hrun, hx, he, htime, hold⟩
    obtain ⟨e', he', htime'⟩ := updated_by_latest h hj hrun
    obtain rfl := Option.some.inj (he'.symm.trans he)
    obtain rfl : j.updatedAt = since := List.singleton_inj.mp (htime'.symm.trans htime)
    exact ⟨j, hj, hrun, hx, hold⟩

/-- A job that is listed was claimed longer ago than its timeout. -/
theorem claimed_of_listed (h : Runs.Reachable step (start cfg) l) {t : Time}
    (hclock : l.Nondecreasing t) {x : StuckJob} (hx : x ∈ l.store.findStuck t) :
    ∃ e since, l.journal.find? (Entry.delimits x.jobId) = some e ∧ e.claims x.jobId = true ∧
      e.call.readings = [since] ∧ l.store.timeout x.jobType < t - since := by
  obtain ⟨j, hj, hrun, hx, hold⟩ := (listed_iff h).mp hx
  obtain ⟨e, he, hclaim⟩ := running_since_claim h hj hrun
  obtain ⟨last, hlast, htime⟩ := updated_by_latest h hj hrun
  obtain ⟨since, hsince⟩ := Entry.readings_of_claims hclaim
  -- the claim is one of the calls among which `last` is the latest
  have hle : since ≤ j.updatedAt := hclock.le_latest hlast (List.mem_of_find?_eq_some he)
    (Bool.or_eq_true_iff.mpr (Or.inl hclaim)) htime (hsince ▸ List.mem_singleton_self since)
  have htype : x.jobType = j.jobType := congrArg StuckJob.jobType hx
  refine ⟨e, since, he, hclaim, hsince, ?_⟩
  rw [htype]
  exact hold.trans_le (Int.sub_le_sub_left hle t)

/-- **Stuck detection measures from the latest claim or resolve.** -/
theorem stuck_since_restart (h : Runs.Reachable step (start cfg) l) :
    (∀ i j, l.store.getJob i = some j → j.status = .running →
      ∃ e, l.journal.find? (Entry.restarts i) = some e ∧ e.call.readings = [j.updatedAt]) ∧
    ∀ t, ((l.store.findStuck t).map StuckJob.jobId).Nodup ∧
      (∀ x, x ∈ l.store.findStuck t ↔ ∃ j e since, l.store.getJob x.jobId = some j ∧
        j.status = .running ∧ x = ⟨x.jobId, j.jobType, j.attempts⟩ ∧
        l.journal.find? (Entry.restarts x.jobId) = some e ∧ e.call.readings = [since] ∧
        l.store.timeout j.jobType < t - since) ∧
      (l.Nondecreasing t → ∀ x ∈ l.store.findStuck t, ∃ e since,
        l.journal.find? (Entry.delimits x.jobId) = some e ∧ e.claims x.jobId = true ∧
        e.call.readings = [since] ∧ l.store.timeout x.jobType < t - since) :=
  ⟨fun _ _ => updated_by_latest h, fun _ => ⟨nodup_listed (wellKeyed_of_reachable h),
    fun _ => listed_iff_restarted h, fun hclock _ => claimed_of_listed h hclock⟩⟩

/-- A run that was re-queued and claimed again is listed for its second claim. -/
theorem stuck_since_restart_reclaimed :
    let calls : List (Unit × Call) := [((), .enqueue "hello" none none 0 0), ((), .claim 1 1),
      ((), .requeueStuck 1 5), ((), .markDispatched 1 1 6), ((), .claim 1 7)]
    let l := calls.foldl (fun l a => l.perform a.1 a.2) (start ∅)
    let t := defaultRunTimeout + 8
    l.store.findStuck (defaultRunTimeout + 7) = [] ∧ l.store.findStuck t = [⟨1, "hello", 1⟩] ∧
      ∃ e since, l.journal.find? (Entry.delimits 1) = some e ∧ e.claims 1 = true ∧
        e.call.readings = [since] ∧ defaultRunTimeout < t - since := by
  intro calls l t
  obtain ⟨-, hlisted⟩ := stuck_since_restart (l := l) ⟨calls, rfl⟩
  have hstuck : l.store.findStuck t = [⟨1, "hello", 1⟩] := by decide
  refine ⟨by decide, hstuck, (hlisted t).2.2 (by decide) ⟨1, "hello", 1⟩ ?_⟩
  rw [hstuck]
  exact List.mem_singleton_self _

end Ledger

end JobWorkflow
