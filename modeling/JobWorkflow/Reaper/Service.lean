import JobWorkflow.Common.Correspondence

/-!
# Reaper/Service — `reap_once` run on its own

The loop of `reaper/service.py` over any store: what `find_stuck` lists is re-queued, and what
cannot be re-queued is dead-lettered.  Run without interleaving on an `InMemoryStore`, a sweep
re-queues the stuck runs below their cap, fails the others and touches nothing else
(`reap_once_end_to_end`).

The loop works through a snapshot while it changes the store the snapshot was taken of; `sweep_spec`
is its invariant, stated for any list of distinct running jobs.
-/

namespace JobWorkflow

/-- `ReapStats`. -/
structure ReapStats where
  requeued : ℕ
  deadLettered : ℕ
deriving DecidableEq

section Loop

variable {σ : Type} [Store σ]

/-- The loop over the listed runs; `clock k` is what the calls for the `k`-th of them read. -/
def reapBatch : List StuckJob → (ℕ → Time) → ReapStats → σ → ReapStats × σ
  | [], _, stats, store => (stats, store)
  | stuck :: rest, clock, stats, store =>
    match Store.requeueStuck stuck.jobId (clock 0) store with
    | (true, store) =>
      reapBatch rest (fun k => clock (k + 1)) { stats with requeued := stats.requeued + 1 } store
    | (false, store) =>
      match Store.deadLetter stuck.jobId (clock 0) store with
      | (true, store) =>
        reapBatch rest (fun k => clock (k + 1))
          { stats with deadLettered := stats.deadLettered + 1 } store
      | (false, store) => reapBatch rest (fun k => clock (k + 1)) stats store

/-- Recover every stuck run found this sweep; `t` is what `find_stuck` reads. -/
def reapOnce (t : Time) (clock : ℕ → Time) (store : σ) : ReapStats × σ :=
  reapBatch (Store.findStuck t store) clock ⟨0, 0⟩ store

end Loop

/-! ## What a sweep makes of a stuck run -/

/-- The counts after a run that was re-queued, or failed. -/
def ReapStats.count (stats : ReapStats) (requeued : Bool) : ReapStats :=
  if requeued then { stats with requeued := stats.requeued + 1 }
  else { stats with deadLettered := stats.deadLettered + 1 }

namespace InMemoryStore

variable {s s₁ : InMemoryStore} {i : JobId} {j : Job} {now t : Time}

/-- The condition of `find_stuck`. -/
def Stuck (s : InMemoryStore) (t : Time) (j : Job) : Prop :=
  j.status = .running ∧ s.timeout j.jobType < t - j.updatedAt

instance (s : InMemoryStore) (t : Time) (j : Job) : Decidable (s.Stuck t j) :=
  inferInstanceAs (Decidable (_ ∧ _))

/-- Below the churn cap of its type. -/
def UnderCap (s : InMemoryStore) (j : Job) : Prop := j.attempts < s.maxAttempts j.jobType

instance (s : InMemoryStore) (j : Job) : Decidable (s.UnderCap j) :=
  inferInstanceAs (Decidable (_ < _))

/-- What a stuck run becomes. -/
def recovered (s : InMemoryStore) (now : Time) (j : Job) : Job :=
  if s.UnderCap j then
    { j with status := .queued, attempts := j.attempts + 1, updatedAt := now }
  else { j with status := .failed, updatedAt := now }

theorem recovered_not_running : (s.recovered now j).status ≠ .running := by
  rw [recovered]
  split <;> simp

/-- Whether job `i` is below its cap. -/
def requeuable (s : InMemoryStore) (i : JobId) : Bool :=
  (s.getJob i).any fun j => s.UnderCap j

theorem requeuable_of_getJob (hj : s.getJob i = some j) :
    s.requeuable i = decide (s.UnderCap j) := by
  rw [requeuable, hj, Option.any_some]

/-- **What a sweep does** that works through the runs of the jobs `ids`. -/
structure Swept (s : InMemoryStore) (ids : List JobId) (s' : InMemoryStore) : Prop where
  job : ∀ i ∈ ids, ∀ j, s.getJob i = some j → ∃ now, s'.getJob i = some (s.recovered now j)
  others : ∀ k, k ∉ ids → s'.getJob k = s.getJob k
  published : ∀ o, o ∈ s'.published ↔ o ∈ s.published ∧
    ∀ m, s.outbox.get? o = some m → m.jobId ∈ ids → s.requeuable m.jobId = false
  outbox : s'.outbox = s.outbox
  typeConfig : s'.typeConfig = s.typeConfig
  counters : s'.nextJobId = s.nextJobId ∧ s'.nextOutboxId = s.nextOutboxId

theorem Swept.nil : Swept s [] s where
  job _ h := by simp at h
  others _ _ := rfl
  published _ := by simp
  outbox := rfl
  typeConfig := rfl
  counters := ⟨rfl, rfl⟩

theorem Swept.underCap_iff {ids : List JobId} (h : Swept s ids s₁) :
    s₁.UnderCap j ↔ s.UnderCap j := by
  rw [UnderCap, UnderCap, maxAttempts, maxAttempts, h.typeConfig]

theorem Swept.stuck_iff {ids : List JobId} (h : Swept s ids s₁) : s₁.Stuck t j ↔ s.Stuck t j := by
  rw [Stuck, Stuck, timeout, timeout, h.typeConfig]

theorem Swept.recovered_eq {ids : List JobId} (h : Swept s ids s₁) :
    s₁.recovered now j = s.recovered now j :=
  if_congr h.underCap_iff rfl rfl

theorem Swept.requeuable_eq {ids : List JobId} (h : Swept s ids s₁) (hi : i ∉ ids) :
    s₁.requeuable i = s.requeuable i := by
  rw [requeuable, requeuable, h.others i hi]
  congr 1
  funext j
  exact decide_eq_decide.mpr h.underCap_iff

/-- One run, and then the others. -/
theorem Swept.cons {s' : InMemoryStore} {ids : List JobId} (h : Swept s [i] s₁)
    (hrest : Swept s₁ ids s') (hi : i ∉ ids) : Swept s (i :: ids) s' where
  job k hk jk hjk := by
    rcases List.mem_cons.mp hk with rfl | hk
    · obtain ⟨now, hnow⟩ := h.job k (List.mem_singleton_self k) jk hjk
      exact ⟨now, (hrest.others k hi).trans hnow⟩
    · have hne : k ∉ [i] := fun hmem => hi (List.mem_singleton.mp hmem ▸ hk)
      obtain ⟨now, hnow⟩ := hrest.job k hk jk ((h.others k hne).trans hjk)
      exact ⟨now, by rw [hnow, h.recovered_eq]⟩
  others k hk := by
    rw [List.mem_cons, not_or] at hk
    exact (hrest.others k hk.2).trans (h.others k (by simpa using hk.1))
  published o := by
    rw [hrest.published, h.published, h.outbox]
    constructor
    · rintro ⟨⟨ho, hfirst⟩, hlater⟩
      refine ⟨ho, fun m hm hmem => ?_⟩
      rcases List.mem_cons.mp hmem with he | hmem
      · exact hfirst m hm (List.mem_singleton.mpr he)
      · have hne : m.jobId ∉ [i] := fun he => hi (List.mem_singleton.mp he ▸ hmem)
        rw [← h.requeuable_eq hne]
        exact hlater m hm hmem
    · rintro ⟨ho, hall⟩
      refine ⟨⟨ho, fun m hm he => ?_⟩, fun m hm hmem => ?_⟩
      · exact hall m hm (List.mem_cons.mpr (Or.inl (List.mem_singleton.mp he)))
      · have hne : m.jobId ∉ [i] := fun he => hi (List.mem_singleton.mp he ▸ hmem)
        rw [h.requeuable_eq hne]
        exact hall m hm (List.mem_cons_of_mem i hmem)
  outbox := hrest.outbox.trans h.outbox
  typeConfig := hrest.typeConfig.trans h.typeConfig
  counters := ⟨hrest.counters.1.trans h.counters.1, hrest.counters.2.trans h.counters.2⟩

/-- Below the cap the run is re-queued. -/
theorem swept_requeue (now : Time) (hj : s.getJob i = some j) (hrun : j.status = .running)
    (hcap : s.UnderCap j) :
    ∃ s₁, s.requeueStuck i now = (true, s₁) ∧ Swept s [i] s₁ := by
  rcases s.requeueStuck_cases i now with ⟨j₀, hj₀, -, -, he⟩ | ⟨hno, -⟩
  · obtain rfl := Option.some.inj (hj.symm.trans hj₀)
    refine ⟨_, he, fun k hk j' hj' => ⟨now, ?_⟩, fun k hk => ?_, fun o => ?_, rfl, rfl, rfl, rfl⟩
    · obtain rfl := List.mem_singleton.mp hk
      obtain rfl := Option.some.inj (hj.symm.trans hj')
      rw [recovered, if_pos hcap]
      exact Dict.get?_set_self s.jobs k _
    · exact Dict.get?_set_of_ne s.jobs _ (by simpa using hk)
    · have hrequeuable : s.requeuable i = true := by
        rw [requeuable_of_getJob hj, decide_eq_true hcap]
      rw [mem_rearm]
      refine and_congr_right fun _ => forall₂_congr fun m _ =>
        ⟨fun hne hmem => ?_, fun hall hm => ?_⟩
      · exact absurd (List.mem_singleton.mp hmem) hne
      · have hfalse := hall (List.mem_singleton.mpr hm)
        rw [hm, hrequeuable] at hfalse
        simp at hfalse
  · exact absurd hcap (not_lt.mpr (hno j hj hrun))

/-- At the cap the run is failed. -/
theorem swept_deadLetter (now : Time) (hj : s.getJob i = some j) (hrun : j.status = .running)
    (hcap : ¬ s.UnderCap j) : s.requeueStuck i now = (false, s) ∧
      ∃ s₁, s.deadLetter i now = (true, s₁) ∧ Swept s [i] s₁ := by
  have hrefused : s.requeueStuck i now = (false, s) := by
    rcases s.requeueStuck_cases i now with ⟨j₀, hj₀, -, hlt, -⟩ | ⟨-, he⟩
    · obtain rfl := Option.some.inj (hj.symm.trans hj₀)
      exact absurd hlt hcap
    · exact he
  have hdead : s.deadLetter i now =
      (true, s.putJob i { j with status := .failed, updatedAt := now }) :=
    guardedUpdate_pass hj (decide_eq_true hrun)
  refine ⟨hrefused, _, hdead, fun k hk j' hj' => ⟨now, ?_⟩, fun k hk => ?_, fun o => ?_, rfl, rfl,
    rfl, rfl⟩
  · obtain rfl := List.mem_singleton.mp hk
    obtain rfl := Option.some.inj (hj.symm.trans hj')
    rw [recovered, if_neg hcap, getJob_putJob_self]
  · exact getJob_putJob_of_ne (by simpa using hk)
  · refine (and_iff_left fun m _ hmem => ?_).symm
    rw [List.mem_singleton.mp hmem, requeuable_of_getJob hj, decide_eq_false hcap]

/-- **One turn of the loop** on a running job recovers and counts it. -/
theorem reapBatch_cons (x : StuckJob) (clock : ℕ → Time) (hj : s.getJob x.jobId = some j)
    (hrun : j.status = .running) :
    ∃ s₁, Swept s [x.jobId] s₁ ∧ ∀ xs stats, reapBatch (x :: xs) clock stats s =
      reapBatch xs (fun k => clock (k + 1)) (stats.count (s.requeuable x.jobId)) s₁ := by
  rw [requeuable_of_getJob hj]
  by_cases hcap : s.UnderCap j
  · obtain ⟨s₁, he, hturn⟩ := swept_requeue (clock 0) hj hrun hcap
    have hstore : Store.requeueStuck x.jobId (clock 0) s = (true, s₁) := he
    refine ⟨s₁, hturn, fun xs stats => ?_⟩
    rw [reapBatch, hstore, decide_eq_true hcap]
    rfl
  · obtain ⟨hrefused, s₁, he, hturn⟩ := swept_deadLetter (clock 0) hj hrun hcap
    have hrequeue : Store.requeueStuck x.jobId (clock 0) s = (false, s) := hrefused
    have hdead : Store.deadLetter x.jobId (clock 0) s = (true, s₁) := he
    refine ⟨s₁, hturn, fun xs stats => ?_⟩
    rw [reapBatch, hrequeue, decide_eq_false hcap]
    dsimp only
    rw [hdead]
    rfl

/-- What a turn does not change of the counts of the others. -/
theorem Swept.countP_eq (h : Swept s [i] s₁) {xs : List StuckJob}
    (hi : i ∉ xs.map StuckJob.jobId) (f : Bool → Bool) :
    xs.countP (fun y => f (s₁.requeuable y.jobId)) =
      xs.countP fun y => f (s.requeuable y.jobId) := by
  refine List.countP_congr fun y hy => ?_
  have hne : y.jobId ∉ [i] := fun he => hi (List.mem_singleton.mp he ▸ List.mem_map_of_mem hy)
  rw [h.requeuable_eq hne]

/-- **The loop**, over any list of distinct running jobs: each run is recovered and counted. -/
theorem sweep_spec (xs : List StuckJob) (clock : ℕ → Time) (stats : ReapStats)
    (s : InMemoryStore) (hnodup : (xs.map StuckJob.jobId).Nodup)
    (hrunning : ∀ x ∈ xs, ∃ j, s.getJob x.jobId = some j ∧ j.status = .running) :
    ∃ s', reapBatch xs clock stats s =
        (⟨stats.requeued + xs.countP fun x => s.requeuable x.jobId,
          stats.deadLettered + xs.countP fun x => !s.requeuable x.jobId⟩, s') ∧
      Swept s (xs.map StuckJob.jobId) s' := by
  induction xs generalizing clock stats s with
  | nil => exact ⟨s, rfl, .nil⟩
  | cons x xs ih =>
    rw [List.map_cons, List.nodup_cons] at hnodup
    obtain ⟨j, hj, hrun⟩ := hrunning x List.mem_cons_self
    obtain ⟨s₁, hturn, hbatch⟩ := reapBatch_cons x clock hj hrun
    have hrest : ∀ y ∈ xs, ∃ j, s₁.getJob y.jobId = some j ∧ j.status = .running := by
      intro y hy
      have hne : y.jobId ∉ [x.jobId] := fun he =>
        hnodup.1 (List.mem_singleton.mp he ▸ List.mem_map_of_mem hy)
      rw [hturn.others _ hne]
      exact hrunning y (List.mem_cons_of_mem x hy)
    obtain ⟨s', hs', hswept⟩ := ih (fun k => clock (k + 1))
      (stats.count (s.requeuable x.jobId)) s₁ hnodup.2 hrest
    refine ⟨s', ?_, hturn.cons hswept hnodup.1⟩
    have hunder : xs.countP (fun y => s₁.requeuable y.jobId) =
        xs.countP fun y => s.requeuable y.jobId := hturn.countP_eq hnodup.1 id
    have hover : xs.countP (fun y => !s₁.requeuable y.jobId) =
        xs.countP fun y => !s.requeuable y.jobId := hturn.countP_eq hnodup.1 not
    rw [hbatch, hs', hunder, hover]
    cases hx : s.requeuable x.jobId with
    | true =>
      simp [ReapStats.count, hx]
      omega
    | false =>
      simp [ReapStats.count, hx]
      omega

/-! ## `reap_once` end to end -/

/-- **What a sweep at time `t` makes of a store.** -/
structure Reaped (s : InMemoryStore) (t : Time) (stats : ReapStats) (s' : InMemoryStore) :
    Prop where
  requeued : ∀ i j, s.getJob i = some j → s.Stuck t j → s.UnderCap j →
    (∃ now, s'.getJob i =
      some { j with status := .queued, attempts := j.attempts + 1, updatedAt := now }) ∧
    (∃ o m, s.outbox.get? o = some m ∧ m.jobId = i) ∧
    ∀ o m, s.outbox.get? o = some m → m.jobId = i → o ∉ s'.published
  failed : ∀ i j, s.getJob i = some j → s.Stuck t j → ¬ s.UnderCap j →
    ∃ now, s'.getJob i = some { j with status := .failed, updatedAt := now }
  others : ∀ i, (∀ j, s.getJob i = some j → ¬ s.Stuck t j) → s'.getJob i = s.getJob i
  published : ∀ o, (∀ m j, s.outbox.get? o = some m → s.getJob m.jobId = some j →
    ¬ (s.Stuck t j ∧ s.UnderCap j)) → (o ∈ s'.published ↔ o ∈ s.published)
  outbox : s'.outbox = s.outbox
  typeConfig : s'.typeConfig = s.typeConfig
  stats_requeued : stats.requeued = s.jobs.values.countP fun j => s.Stuck t j ∧ s.UnderCap j
  stats_deadLettered :
    stats.deadLettered = s.jobs.values.countP fun j => s.Stuck t j ∧ ¬ s.UnderCap j
  none_stuck : ∀ i j, s'.getJob i = some j → ¬ s'.Stuck t j
  slot_free : ∀ i j, s.getJob i = some j → s.Stuck t j → ¬ s.UnderCap j →
    ∀ j', s'.getJob i = some j' → j'.status ∉ JobStatus.active
  again : ∀ clock, reapOnce t clock s' = (⟨0, 0⟩, s')

/-- The jobs a sweep lists are the stuck ones. -/
theorem mem_listed (hw : WellKeyed s) : i ∈ (s.findStuck t).map StuckJob.jobId ↔
    ∃ j, s.getJob i = some j ∧ s.Stuck t j := by
  simp only [List.mem_map, mem_findStuck]
  constructor
  · rintro ⟨x, ⟨k, j, hj, hrun, hold, rfl⟩, rfl⟩
    rw [hw.id_eq k j hj]
    exact ⟨j, hj, hrun, hold⟩
  · rintro ⟨j, hj, hrun, hold⟩
    exact ⟨_, ⟨i, j, hj, hrun, hold, rfl⟩, hw.id_eq i j hj⟩

/-- A sweep lists no job twice. -/
theorem nodup_listed (hw : WellKeyed s) : ((s.findStuck t).map StuckJob.jobId).Nodup := by
  have hkeys : (s.findStuck t).map StuckJob.jobId =
      (s.jobs.items.filter fun e => s.Stuck t e.2).map Prod.fst := by
    rw [findStuck, List.map_map, Dict.values, List.filter_map, List.map_map]
    refine List.map_congr_left fun e he => ?_
    exact hw.id_eq e.1 e.2 (Dict.get?_eq_some.mpr (List.mem_of_mem_filter he))
  rw [hkeys]
  exact s.jobs.nodup_keys.sublist (List.filter_sublist.map Prod.fst)

/-- Counting listed runs is counting stuck jobs. -/
theorem countP_listed (hw : WellKeyed s) {p : Job → Prop} [DecidablePred p] {q : JobId → Bool}
    (hq : ∀ i j, s.getJob i = some j → q i = decide (p j)) :
    (s.findStuck t).countP (fun x => q x.jobId) =
      s.jobs.values.countP fun j => s.Stuck t j ∧ p j := by
  rw [findStuck, List.countP_map, List.countP_filter]
  refine List.countP_congr fun j hj => ?_
  obtain ⟨i, hi⟩ := Dict.mem_values.mp hj
  simp only [Function.comp, hw.id_eq i j hi, hq i j hi, Bool.and_eq_true, decide_eq_true_eq,
    Stuck, and_comm]

section Listed

variable {s' : InMemoryStore} (hw : WellKeyed s)
  (h : Swept s ((s.findStuck t).map StuckJob.jobId) s')

include hw h

/-- A stuck run is recovered. -/
theorem Swept.recovers (hj : s.getJob i = some j) (hstuck : s.Stuck t j) :
    ∃ now, s'.getJob i = some (s.recovered now j) :=
  h.job i ((mem_listed hw).mpr ⟨j, hj, hstuck⟩) j hj

/-- Any other job is left alone. -/
theorem Swept.leaves (hi : ∀ j, s.getJob i = some j → ¬ s.Stuck t j) :
    s'.getJob i = s.getJob i := by
  refine h.others i fun hmem => ?_
  obtain ⟨j, hj, hstuck⟩ := (mem_listed hw).mp hmem
  exact hi j hj hstuck

theorem Swept.requeues (hj : s.getJob i = some j) (hstuck : s.Stuck t j) (hcap : s.UnderCap j) :
    ∃ now, s'.getJob i =
      some { j with status := .queued, attempts := j.attempts + 1, updatedAt := now } := by
  obtain ⟨now, he⟩ := h.recovers hw hj hstuck
  exact ⟨now, by rw [he, recovered, if_pos hcap]⟩

theorem Swept.fails (hj : s.getJob i = some j) (hstuck : s.Stuck t j) (hcap : ¬ s.UnderCap j) :
    ∃ now, s'.getJob i = some { j with status := .failed, updatedAt := now } := by
  obtain ⟨now, he⟩ := h.recovers hw hj hstuck
  exact ⟨now, by rw [he, recovered, if_neg hcap]⟩

theorem Swept.none_stuck {j' : Job} (hj' : s'.getJob i = some j') : ¬ s'.Stuck t j' := by
  rw [h.stuck_iff]
  intro hstuck'
  by_cases hlisted : ∃ j, s.getJob i = some j ∧ s.Stuck t j
  · obtain ⟨j, hj, hstuck⟩ := hlisted
    obtain ⟨now, he⟩ := h.recovers hw hj hstuck
    obtain rfl := Option.some.inj (he.symm.trans hj')
    exact recovered_not_running hstuck'.1
  · rw [h.leaves hw fun j hj hstuck => hlisted ⟨j, hj, hstuck⟩] at hj'
    exact hlisted ⟨j', hj', hstuck'⟩

/-- The rows of what is re-queued are to be published again. -/
theorem Swept.unpublishes (hj : s.getJob i = some j) (hstuck : s.Stuck t j) (hcap : s.UnderCap j)
    {o : OutboxId} {m : OutboxMessage} (hm : s.outbox.get? o = some m) (hi : m.jobId = i) :
    o ∉ s'.published := by
  intro ho
  subst hi
  have hfalse := ((h.published o).mp ho).2 m hm ((mem_listed hw).mpr ⟨j, hj, hstuck⟩)
  rw [requeuable_of_getJob hj, decide_eq_true hcap] at hfalse
  exact Bool.noConfusion hfalse

/-- The flags of the other rows are as they were. -/
theorem Swept.keeps_published {o : OutboxId}
    (hno : ∀ m j, s.outbox.get? o = some m → s.getJob m.jobId = some j →
      ¬ (s.Stuck t j ∧ s.UnderCap j)) : o ∈ s'.published ↔ o ∈ s.published := by
  refine (h.published o).trans (and_iff_left fun m hm hmem => ?_)
  obtain ⟨j, hj, hstuck⟩ := (mem_listed hw).mp hmem
  rw [requeuable_of_getJob hj]
  exact decide_eq_false fun hcap => hno m j hm hj ⟨hstuck, hcap⟩

/-- A second sweep finds nothing. -/
theorem Swept.again (clock : ℕ → Time) : reapOnce t clock s' = (⟨0, 0⟩, s') := by
  have hnil : Store.findStuck t s' = [] := by
    refine List.eq_nil_iff_forall_not_mem.mpr fun x hx => ?_
    obtain ⟨i, j, hj, hrun, hold, -⟩ := mem_findStuck.mp hx
    exact h.none_stuck hw hj ⟨hrun, hold⟩
  rw [reapOnce, hnil, reapBatch]

end Listed

/-- **`reap_once` end to end**, on a store that keeps the invariants of reachable stores. -/
theorem reap_once_end_to_end (hw : WellKeyed s) (hc : Corresponds s) (t : Time)
    (clock : ℕ → Time) : ∃ stats s', reapOnce t clock s = (stats, s') ∧ Reaped s t stats s' := by
  have hrunning : ∀ x ∈ s.findStuck t, ∃ j, s.getJob x.jobId = some j ∧ j.status = .running := by
    intro x hx
    obtain ⟨j, hj, hstuck⟩ := (mem_listed hw).mp (List.mem_map_of_mem hx)
    exact ⟨j, hj, hstuck.1⟩
  obtain ⟨s', hs', h⟩ := sweep_spec (s.findStuck t) clock ⟨0, 0⟩ s (nodup_listed hw) hrunning
  have hunder := countP_listed (t := t) hw (q := s.requeuable) fun i j hj => requeuable_of_getJob hj
  have hover := countP_listed (t := t) hw (p := fun j => ¬ s.UnderCap j)
    (q := fun i => !s.requeuable i) fun i j hj => by
      rw [requeuable_of_getJob hj]
      exact (decide_not).symm
  refine ⟨_, s', hs', ?_⟩
  exact
    { requeued := fun i j hj hstuck hcap => ⟨h.requeues hw hj hstuck hcap, hc.job_row i j hj,
        fun o m hm hi => h.unpublishes hw hj hstuck hcap hm hi⟩
      failed := fun i j hj hstuck hcap => h.fails hw hj hstuck hcap
      others := fun i hi => h.leaves hw hi
      published := fun o hno => h.keeps_published hw hno
      outbox := h.outbox
      typeConfig := h.typeConfig
      stats_requeued := by rw [← hunder]; exact Nat.zero_add _
      stats_deadLettered := by rw [← hover]; exact Nat.zero_add _
      none_stuck := fun i j hj => h.none_stuck hw hj
      slot_free := fun i j hj hstuck hcap j' hj' => by
        obtain ⟨now, he⟩ := h.fails hw hj hstuck hcap
        obtain rfl := Option.some.inj (he.symm.trans hj')
        exact show JobStatus.failed ∉ JobStatus.active by decide
      again := h.again hw }

/-- The store after calls that mark no row. -/
theorem sound_after (cs : List Call) (hno : ∀ c ∈ cs, ∀ o i now, c ≠ .markDispatched o i now)
    (h : WellKeyed s ∧ Corresponds s) :
    WellKeyed (cs.foldl (fun s c => (exec s c).2) s) ∧
      Corresponds (cs.foldl (fun s c => (exec s c).2) s) := by
  induction cs generalizing s with
  | nil => exact h
  | cons c cs ih =>
    have heff := exec_effect c s
    refine ih (fun c' hc' => hno c' (List.mem_cons_of_mem _ hc'))
      ⟨wellKeyed_of_effect heff h.1, corresponds_of_effect heff h.1 h.2 fun o i now he => ?_⟩
    exact absurd he (hno c List.mem_cons_self o i now)

/-- Calls that leave one run stuck below its cap, one stuck at its cap, and one that is not
stuck. -/
def crowded : List Call :=
  [.setTypeConfig "boom" defaultRunTimeout 1 none,
    .enqueue "hello" none none 0 0, .enqueue "boom" none none 0 0, .enqueue "slow" none none 0 0,
    .claim 1 1, .claim 2 1, .requeueStuck 2 2, .claim 2 3, .claim 3 (defaultRunTimeout + 3)]

/-- The first run is re-queued, the second fails, and the third is left alone. -/
theorem reap_once_end_to_end_crowded :
    let s := crowded.foldl (fun s c => (exec s c).2) InMemoryStore.empty
    ∃ stats s', reapOnce (defaultRunTimeout + 4) (fun k => defaultRunTimeout + 5 + k) s =
        (stats, s') ∧
      stats.requeued = 1 ∧ stats.deadLettered = 1 ∧
      (∃ j, s'.getJob 1 = some j ∧ j.status = .queued ∧ j.attempts = 1) ∧
      (∃ j, s'.getJob 2 = some j ∧ j.status = .failed ∧ j.attempts = 1) ∧
      s'.getJob 3 = s.getJob 3 ∧
      ∀ i j, s'.getJob i = some j → ¬ s'.Stuck (defaultRunTimeout + 4) j := by
  intro s
  obtain ⟨hw, hc⟩ := sound_after (s := InMemoryStore.empty) crowded (by simp [crowded])
    ⟨Ledger.wellKeyed_start (ι := Unit) ∅, .empty ∅⟩
  obtain ⟨stats, s', hs', h⟩ := reap_once_end_to_end hw hc (defaultRunTimeout + 4)
    (fun k => defaultRunTimeout + 5 + k)
  obtain ⟨j₁, hj₁, hstuck₁, hcap₁, hn₁⟩ : ∃ j, s.getJob 1 = some j ∧
      s.Stuck (defaultRunTimeout + 4) j ∧ s.UnderCap j ∧ j.attempts = 0 :=
    ⟨_, rfl, by decide, by decide, rfl⟩
  obtain ⟨j₂, hj₂, hstuck₂, hcap₂, hn₂⟩ : ∃ j, s.getJob 2 = some j ∧
      s.Stuck (defaultRunTimeout + 4) j ∧ ¬ s.UnderCap j ∧ j.attempts = 1 :=
    ⟨_, rfl, by decide, by decide, rfl⟩
  obtain ⟨j₃, hj₃, hfresh₃⟩ : ∃ j, s.getJob 3 = some j ∧ ¬ s.Stuck (defaultRunTimeout + 4) j :=
    ⟨_, rfl, by decide⟩
  obtain ⟨⟨now₁, hj₁'⟩, -⟩ := h.requeued 1 j₁ hj₁ hstuck₁ hcap₁
  obtain ⟨now₂, hj₂'⟩ := h.failed 2 j₂ hj₂ hstuck₂ hcap₂
  refine ⟨stats, s', hs', h.stats_requeued.trans rfl, h.stats_deadLettered.trans rfl,
    ⟨_, hj₁', rfl, by rw [hn₁]⟩, ⟨_, hj₂', rfl, hn₂⟩, h.others 3 fun j hj => ?_, h.none_stuck⟩
  exact Option.some.inj (hj₃.symm.trans hj) ▸ hfresh₃

end InMemoryStore

end JobWorkflow
