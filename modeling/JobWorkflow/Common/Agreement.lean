import JobWorkflow.Common.Mirror
import Mathlib.Algebra.Order.Group.Int
import Mathlib.Algebra.Order.Group.Unbundled.Basic

/-!
# Common/Agreement — `PostgresStore` and `InMemoryStore` in step

One lemma for each method: on stores that mirror each other it gives the same answer and leaves
stores that mirror each other.  A guarded `UPDATE` on one side is a test and an assignment on the
other (`Mirrors.guarded`); the unique index on one side is the `_active` check on the other
(`Mirrors.fits_iff`).

* `stores_agree` — after any calls made in step that the columns take, the stores mirror each other,
  and a further call is answered alike exactly if the columns take it.
-/

namespace JobWorkflow

open InMemoryStore

variable {ρ : Renaming} {s : InMemoryStore} {d : PostgresStore} {i i' : JobId} {now : Time}

namespace PostgresStore

/-! ## The snapshot, on the Postgres side -/

/-- The assignment of `resolve_payload`. -/
def snapshot (d : PostgresStore) (i' : JobId) (t : String) (now : Time) (j : JobRow) :
    Option JobRow :=
  if j.id = i' ∧ j.status = .running then
    (d.jobTypeConfig.find? t).map fun c =>
      { j with payload := c.payload.concat j.inputPayload, updatedAt := now }
  else none

theorem snapshot_sound : Table.Sound jobsSchema (d.snapshot i' t now) := by
  intro r r' hr
  obtain ⟨-, hr⟩ := Option.ite_none_right_eq_some.mp hr
  obtain ⟨c, -, rfl⟩ := Option.map_eq_some_iff.mp hr
  exact keeps_of_active rfl rfl id

theorem resolvePayload_eq (d : PostgresStore) (i' : JobId) (t : String) (now : Time) :
    d.resolvePayload i' t now =
      ((d.jobs.returning (d.snapshot i' t now)).head?.map JobRow.payload,
        { d with jobs := d.jobs.update (d.snapshot i' t now) snapshot_sound }) := by
  have hassign : (fun j : JobRow =>
      (d.jobTypeConfig.rows.find? fun c => j.id = i' ∧ c.jobType = t ∧ j.status = .running).map
        fun c => { j with payload := c.payload.concat j.inputPayload, updatedAt := now }) =
      d.snapshot i' t now := by
    funext j
    rw [snapshot]
    split
    · rename_i hj
      simp only [hj, true_and, and_true]
      rfl
    · rename_i hj
      refine Option.map_eq_none_iff.mpr (List.find?_eq_none.mpr fun c _ hc => hj ?_)
      obtain ⟨hid, -, hst⟩ := of_decide_eq_true hc
      exact ⟨hid, hst⟩
  simp only [resolvePayload, hassign]

/-- Where no row is selected, nothing happens on the Postgres side. -/
theorem resolvePayload_none {t : String} (h : ∀ r ∈ d.jobs.rows, d.snapshot i' t now r = none) :
    d.resolvePayload i' t now = (none, d) := by
  obtain ⟨hupdate, hreturning⟩ := Table.update_none snapshot_sound h
  rw [resolvePayload_eq, hupdate, hreturning]
  rfl

end PostgresStore

namespace Mirrors

/-! ## Guarded updates -/

/-- Items and rows rewritten under conditions that agree stay related. -/
theorem rewrite (h : Mirrors ρ s d) {g : Job → Bool} {u : Job → Job} {p : JobRow → Bool}
    {f : JobRow → JobRow}
    (hp : ∀ e r, JobRel ρ e r → ((e.1 = i ∧ g e.2 = true) ↔ p r = true))
    (hf : ∀ e r, JobRel ρ e r → p r = true → JobRel ρ (e.1, u e.2) (f r)) :
    List.Forall₂ (JobRel ρ)
      (s.jobs.items.map fun e => if e.1 = i ∧ g e.2 = true then (e.1, u e.2) else e)
      (d.jobs.rows.map (Table.after (Table.setWhere p f))) := by
  rw [List.forall₂_map_left_iff, List.forall₂_map_right_iff]
  refine h.jobs.imp fun e r hr => ?_
  rw [Table.after_setWhere]
  by_cases hpr : p r = true
  · rw [if_pos ((hp e r hr).mpr hpr), if_pos hpr]
    exact hf e r hr hpr
  · rw [if_neg (mt (hp e r hr).mp hpr), if_neg hpr]
    exact hr

/-- **A guarded update** finds the same job and leaves it the same. -/
theorem guarded (h : Mirrors ρ s d) (hi : ρ.Corr i i') {g : Job → Bool} {u : Job → Job}
    {p : JobRow → Bool} {f : JobRow → JobRow} (hid : ∀ r, (f r).id = r.id)
    (ht : ∀ r, (f r).jobType = r.jobType) (ha : ∀ r, p r = true → r.status ∈ JobStatus.active)
    (hp : ∀ e r, JobRel ρ e r → (g e.2 = true ∧ r.id = i' ↔ p r = true))
    (hf : ∀ e r, JobRel ρ e r → p r = true → JobRel ρ (e.1, u e.2) (f r)) :
    (guardedUpdate g u i s).1 = decide (d.rowcount p = 1) ∧
      Mirrors ρ (guardedUpdate g u i s).2 (d.updateJobs p f hid ht ha) := by
  have hp' : ∀ e r, JobRel ρ e r → ((e.1 = i ∧ g e.2 = true) ↔ p r = true) := fun e r hr =>
    (and_comm.trans (and_congr_right fun _ => hi _ hr.ids)).trans (hp e r hr)
  constructor
  · rw [guardedUpdate_flag]
    have hcount := h.jobs.countP_eq (p := fun e => e.1 = i ∧ g e.2 = true) (q := p)
      fun e r hr => Bool.eq_iff_iff.mpr (decide_eq_true_iff.trans (hp' e r hr))
    rw [hcount]
    rfl
  · rw [guardedUpdate_frame]
    refine h.withJobs ?_
    rw [guardedUpdate_items]
    exact h.rewrite hp' hf

/-- A change of status alone. -/
theorem guardedStatus (h : Mirrors ρ s d) (hi : ρ.Corr i i') {g : Job → Bool}
    {statuses : List JobStatus} (hs : statuses ⊆ JobStatus.active) (st : JobStatus)
    (hg : ∀ j, g j = true ↔ j.status ∈ statuses) :
    (guardedUpdate g (fun j => { j with status := st, updatedAt := now }) i s).1 =
        (d.guardedUpdate statuses hs (fun r => { r with status := st, updatedAt := now })
          (fun _ => rfl) (fun _ => rfl) i').1 ∧
      Mirrors ρ (guardedUpdate g (fun j => { j with status := st, updatedAt := now }) i s).2
        (d.guardedUpdate statuses hs (fun r => { r with status := st, updatedAt := now })
          (fun _ => rfl) (fun _ => rfl) i').2 := by
  refine h.guarded (p := fun r => r.id = i' ∧ r.status ∈ statuses)
    (f := fun r => { r with status := st, updatedAt := now }) hi (fun _ => rfl) (fun _ => rfl)
    (fun _ hr => hs (of_decide_eq_true hr).2) (fun e r hr => ?_) fun e r hr _ => ?_
  · rw [hg, hr.status, and_comm, decide_eq_true_iff]
  · exact ⟨hr.ids, hr.id_eq, hr.jobType, rfl, hr.object, hr.inputPayload, hr.payload, hr.attempts,
      hr.createdAt, rfl, hr.creator⟩

/-! ## Configuration -/

theorem timeout_eq (h : Mirrors ρ s d) (t : String) : s.timeout t =
    ((d.jobTypeConfig.find? t).map ConfigRow.runTimeout).getD defaultRunTimeout := by
  rw [InMemoryStore.timeout]
  rcases h.config.cases t with ⟨hc, hr⟩ | ⟨c, row, hc, hr, hrel⟩
  · rw [hc, hr]
    rfl
  · rw [hc, hr]
    exact hrel.runTimeout

theorem maxAttempts_eq (h : Mirrors ρ s d) (t : String) : s.maxAttempts t = d.maxAttempts t := by
  rw [InMemoryStore.maxAttempts, PostgresStore.maxAttempts,
    show (d.jobTypeConfig.rows.find? fun c => c.jobType = t) = d.jobTypeConfig.find? t from rfl]
  rcases h.config.cases t with ⟨hc, hr⟩ | ⟨c, row, hc, hr, hrel⟩
  · rw [hc, hr]
    rfl
  · rw [hc, hr]
    exact hrel.maxAttempts

theorem setTypeConfig (h : Mirrors ρ s d) (t : String) (timeout : Duration) (cap : ℤ)
    (p : Option Payload) :
    Mirrors ρ (s.setTypeConfig t timeout cap p) (d.setTypeConfig t timeout cap p) := by
  refine ⟨h.monotone, h.below, h.jobs, h.outbox, h.outbox_sorted, h.outbox_below, h.nextOutboxId,
    fun t' => ?_⟩
  change Option.Rel ConfigRel ((s.typeConfig.set t _).get? t')
    ((d.jobTypeConfig.upsert ⟨t, timeout, cap, .object (p.getD ∅)⟩
      (configSchema_index _)).find? t')
  rw [Dict.get?_set, Table.find?_upsert]
  change Option.Rel ConfigRel _ (if t' = t then _ else _)
  split
  · exact .some ⟨rfl, rfl, rfl⟩
  · exact h.config t'

/-! ## Reads -/

theorem findStuck (h : Mirrors ρ s d) (now : Time) :
    List.Forall₂ (StuckRel ρ) (s.findStuck now) (d.findStuck now) := by
  rw [InMemoryStore.findStuck, PostgresStore.findStuck, Dict.values]
  rw [show (fun (j : JobRow) (c : ConfigRow) => decide (j.jobType = c.jobType)) =
      fun j c => decide (j.jobType = configSchema.key c) from rfl]
  rw [Table.leftJoin_key, List.filter_map, List.filter_map, List.map_map, List.map_map,
    List.forall₂_map_left_iff, List.forall₂_map_right_iff]
  have hsel : ∀ {e : JobId × Job} {r : JobRow}, JobRel ρ e r →
      ((e.2.status = .running ∧ s.timeout e.2.jobType < now - e.2.updatedAt) ↔
        (r.status = .running ∧
          r.updatedAt < now - ((d.jobTypeConfig.find? r.jobType).map ConfigRow.runTimeout).getD
            defaultRunTimeout)) := by
    intro e r hr
    rw [hr.status, hr.updatedAt, hr.jobType, h.timeout_eq]
    exact and_congr_right fun _ => lt_sub_comm
  refine (List.rel_filter (fun e r hr => ?_) h.jobs).imp fun e r hr => ?_
  · simpa using hsel hr
  · exact ⟨by rw [Function.comp_apply, hr.id_eq]; exact hr.ids, hr.jobType, hr.attempts⟩

theorem getJob (h : Mirrors ρ s d) (hi : ρ.Corr i i') :
    Option.Rel (SameJob ρ) (s.getJob i) (d.getJob i') := by
  rw [PostgresStore.getJob]
  rcases h.getJob_cases hi with ⟨hj, hr⟩ | ⟨j, r, hj, hr, hrel⟩
  · rw [hj, hr]
    exact .none
  · rw [hj, hr]
    refine .some ⟨?_, hrel.jobType, hrel.status, hrel.inputPayload, hrel.payload, hrel.attempts,
      hrel.createdAt, hrel.updatedAt, hrel.creator⟩
    have hid : j.id = i := hrel.id_eq
    rw [hid]
    exact hrel.ids

/-- Both stores keep their outbox sorted by id. -/
theorem outbox_rows_sorted (h : Mirrors ρ s d) :
    d.outbox.rows.Pairwise fun r r' => r.id ≤ r'.id := by
  have hkeys : d.outbox.rows.map OutboxRow.id = s.outbox.items.map Prod.fst := by
    refine List.forall₂_eq_eq_eq ▸ ?_
    rw [List.forall₂_map_left_iff, List.forall₂_map_right_iff]
    exact h.outbox.flip.imp fun r e hr => hr.key.symm
  have hsorted : (s.outbox.items.map Prod.fst).Pairwise (· < ·) :=
    List.pairwise_map.mpr h.outbox_sorted
  rw [← hkeys] at hsorted
  exact (List.pairwise_map.mp hsorted).imp fun hlt => hlt.le

theorem fetchUnpublished (h : Mirrors ρ s d) {limit : ℤ} (hl : 0 ≤ limit) :
    ∃ rows, d.fetchUnpublished limit = .ok rows ∧
      List.Forall₂ (MessageRel ρ) (s.fetchUnpublished limit) rows := by
  refine ⟨_, if_neg (not_lt.mpr hl), ?_⟩
  rw [InMemoryStore.fetchUnpublished, InMemoryStore.sliceTo, if_pos hl]
  rw [(h.outbox_sorted.imp fun hlt => hlt.le :
      s.outbox.items.Pairwise fun a b => a.1 ≤ b.1).insertionSort_eq,
    (h.outbox_rows_sorted.sublist List.filter_sublist).insertionSort_eq, ← List.map_take,
    List.forall₂_map_left_iff, List.forall₂_map_right_iff]
  have hsel : ∀ {e : OutboxId × OutboxMessage} {r : OutboxRow}, OutboxRel ρ s.published e r →
      (e.1 ∉ s.published ↔ r.publishedAt.isNone = true) := by
    intro e r hr
    rw [hr.published, Bool.not_eq_true, Option.isSome_eq_false_iff]
  refine (List.forall₂_take _ (List.rel_filter (fun e r hr => ?_) h.outbox)).imp fun e r hr => ?_
  · simpa using hsel hr
  · refine ⟨hr.id_eq.trans hr.key, hr.ids, ?_, hr.jobType⟩
    change (e.2.payload.jobId, r.payload.jobId) ∈ ρ
    rw [hr.message, hr.envelope]
    exact hr.ids

/-! ## Published flags -/

/-- The flags may change on both sides, if they stay related. -/
theorem withFlags (h : Mirrors ρ s d) {published : Finset OutboxId} {p : OutboxRow → Bool}
    {publishedAt : Option Time}
    (hflag : ∀ e ∈ s.outbox.items, ∀ r, OutboxRel ρ s.published e r →
      (e.1 ∈ published ↔ (if p r then publishedAt else r.publishedAt).isSome = true)) :
    Mirrors ρ { s with published := published } (d.setPublishedAt p publishedAt) := by
  refine ⟨h.monotone, h.below, h.jobs, ?_, h.outbox_sorted, h.outbox_below, h.nextOutboxId,
    h.config⟩
  change List.Forall₂ (OutboxRel ρ published) s.outbox.items
    (d.outbox.rows.map (Table.after (Table.setWhere p _)))
  rw [List.forall₂_map_right_iff]
  refine h.outbox.imp_mem fun e he r _ hr => ?_
  have hflag' := hflag e he r hr
  rw [Table.after_setWhere]
  split at hflag'
  · rename_i hp
    rw [if_pos hp]
    exact ⟨hr.key, hr.id_eq, hr.ids, hr.message, hr.envelope, hr.jobType, hflag'⟩
  · rename_i hp
    rw [if_neg hp]
    exact ⟨hr.key, hr.id_eq, hr.ids, hr.message, hr.envelope, hr.jobType, hflag'⟩

theorem markDispatched (h : Mirrors ρ s d) (hi : ρ.Corr i i') (o : OutboxId) (now : Time) :
    Mirrors ρ (s.markDispatched o i now) (d.markDispatched o i' now) := by
  have hflags : Mirrors ρ { s with published := insert o s.published }
      (d.setPublishedAt (fun r => r.id = o) (some now)) := by
    refine h.withFlags fun e _ r hr => ?_
    rw [Finset.mem_insert, hr.published, hr.key]
    by_cases hk : r.id = o
    · simp [hk]
    · simp [hk]
  refine (hflags.guarded (f := fun r => { r with status := .dispatched, updatedAt := now }) hi
    (fun _ => rfl) (fun _ => rfl) _ (fun e r hr => ?_) fun e r hr _ => ?_).2
  · rw [decide_eq_true_iff, hr.status, and_comm, decide_eq_true_iff]
  · exact ⟨hr.ids, hr.id_eq, hr.jobType, rfl, hr.object, hr.inputPayload, hr.payload, hr.attempts,
      hr.createdAt, rfl, hr.creator⟩

/-- A re-queue is a guarded update, and a re-arm if it takes effect. -/
theorem requeueStuck_eq (i : JobId) (now : Time) (s : InMemoryStore) :
    let u := InMemoryStore.guardedUpdate
      (fun job => job.status = .running ∧ (job.attempts : ℤ) < s.maxAttempts job.jobType)
      (fun job => { job with
        status := .queued, attempts := job.attempts + 1, updatedAt := now }) i s
    s.requeueStuck i now =
      if u.1 then (true, { u.2 with published := s.rearm i }) else (false, u.2) := by
  intro u
  rcases guardedUpdate_cases
      (fun job => job.status = .running ∧ (job.attempts : ℤ) < s.maxAttempts job.jobType)
      (fun job => { job with
        status := .queued, attempts := job.attempts + 1, updatedAt := now }) i s,
    requeueStuck_cases i now s with
    ⟨⟨j, hj, hg, he⟩ | ⟨hno, he⟩, ⟨j', hj', hr, hcap, he'⟩ | ⟨hno', he'⟩⟩
  · obtain rfl := Option.some.inj (hj.symm.trans hj')
    rw [he', show u = _ from he]
    rfl
  · obtain ⟨hr, hcap⟩ := of_decide_eq_true hg
    exact absurd (hno' j hj hr) (not_le.mpr hcap)
  · exact absurd ⟨hr, hcap⟩ (of_decide_eq_false (hno j' hj'))
  · rw [he', show u = _ from he]
    rfl

theorem requeueStuck (h : Mirrors ρ s d) (hi : ρ.Corr i i') (now : Time) :
    (s.requeueStuck i now).1 = (d.requeueStuck i' now).1 ∧
      Mirrors ρ (s.requeueStuck i now).2 (d.requeueStuck i' now).2 := by
  obtain ⟨hflag, hjobs⟩ := h.guarded
    (g := fun job => job.status = .running ∧ (job.attempts : ℤ) < s.maxAttempts job.jobType)
    (u := fun job => { job with status := .queued, attempts := job.attempts + 1, updatedAt := now })
    (p := fun r => r.id = i' ∧ r.status = .running ∧ (r.attempts : ℤ) < d.maxAttempts r.jobType)
    (f := fun r => { r with status := .queued, attempts := r.attempts + 1, updatedAt := now }) hi
    (fun _ => rfl) (fun _ => rfl)
    (fun _ hr => by rw [(of_decide_eq_true hr).2.1]; decide)
    (fun e r hr => by
      rw [decide_eq_true_iff, decide_eq_true_iff, hr.status, hr.attempts, hr.jobType,
        h.maxAttempts_eq, and_comm])
    (fun e r hr _ => ⟨hr.ids, hr.id_eq, hr.jobType, rfl, hr.object, hr.inputPayload, hr.payload,
      congrArg (· + 1) hr.attempts, hr.createdAt, rfl, hr.creator⟩)
  rw [requeueStuck_eq]
  rw [guardedUpdate_frame] at hjobs ⊢
  generalize (InMemoryStore.guardedUpdate _ _ i s).1 = b at hflag ⊢
  generalize (InMemoryStore.guardedUpdate _ _ i s).2.jobs = jobs at hjobs ⊢
  cases b with
  | false =>
    rw [PostgresStore.requeueStuck, if_pos (of_decide_eq_false hflag.symm)]
    exact ⟨rfl, hjobs⟩
  | true =>
    rw [PostgresStore.requeueStuck, if_neg (not_not.mpr (of_decide_eq_true hflag.symm))]
    refine ⟨rfl, hjobs.withFlags fun e he r hr => ?_⟩
    have hget : s.outbox.get? e.1 = some e.2 := Dict.get?_eq_some.mpr he
    have hcorr : e.2.jobId = i ↔ r.jobId = i' := hi _ hr.ids
    change e.1 ∈ s.rearm i ↔ _
    rw [mem_rearm]
    by_cases hk : r.jobId = i'
    · rw [decide_eq_true hk]
      exact iff_of_false (fun hm => hm.2 e.2 hget (hcorr.mpr hk)) Bool.false_ne_true
    · rw [decide_eq_false hk]
      refine (and_iff_left fun m hm => ?_).trans hr.published
      obtain rfl := Option.some.inj (hget.symm.trans hm)
      exact mt hcorr.mp hk

/-! ## The snapshot -/

/-- A message of the outbox names the type of its job. -/
theorem message_type {t : String} {j : Job} (hc : Corresponds s) (hj : s.getJob i = some j)
    (hm : ∃ o m, s.outbox.get? o = some m ∧ m.payload = ⟨i, t⟩) : t = j.jobType := by
  obtain ⟨o, m, hget, hp⟩ := hm
  obtain ⟨jm, hjm, hpayload⟩ := hc.row_job o m hget
  obtain ⟨hi, ht⟩ := Envelope.mk.inj (hp.symm.trans hpayload)
  rw [← hi] at hjm
  obtain rfl := Option.some.inj (hj.symm.trans hjm)
  exact ht

/-- Nothing is selected on either side. -/
theorem resolvePayload_neither {t : String} (h : Mirrors ρ s d)
    (hmem : ∀ j, s.getJob i = some j → j.status = .running → s.typeConfig.get? j.jobType = none)
    (hrows : ∀ x ∈ d.jobs.rows, d.snapshot i' t now x = none) :
    (s.resolvePayload i t now).1 = .ok (d.resolvePayload i' t now).1 ∧
      Mirrors ρ (s.resolvePayload i t now).2 (d.resolvePayload i' t now).2 := by
  rw [InMemoryStore.resolvePayload_of_none hmem, PostgresStore.resolvePayload_none hrows]
  exact ⟨rfl, h⟩

/-- The run is resolved to the same document on both sides. -/
theorem resolvePayload_both {j : Job} {r : JobRow} {cfg : TypeConfig} {row : ConfigRow}
    (h : Mirrors ρ s d) (hi : ρ.Corr i i') (hj : s.getJob i = some j)
    (hr : d.jobs.find? i' = some r) (hrel : JobRel ρ (i, j) r) (hrun : j.status = .running)
    (hcfg : s.typeConfig.get? j.jobType = some cfg)
    (hcrow : d.jobTypeConfig.find? j.jobType = some row) (hconf : ConfigRel cfg row) :
    (s.resolvePayload i j.jobType now).1 = .ok (d.resolvePayload i' j.jobType now).1 ∧
      Mirrors ρ (s.resolvePayload i j.jobType now).2 (d.resolvePayload i' j.jobType now).2 := by
  obtain ⟨o, ho⟩ := hrel.object
  obtain ⟨-, hid⟩ := Table.find?_eq_some.mp hr
  have hsnap : d.snapshot i' j.jobType now r =
      some { r with payload := .object (o ∪ cfg.payload), updatedAt := now } := by
    rw [PostgresStore.snapshot, if_pos ⟨hid, hrel.status.symm.trans hrun⟩, hcrow,
      Option.map_some, hconf.payload, ho]
    rfl
  have hother : ∀ x, x.id ≠ i' → d.snapshot i' j.jobType now x = none := fun x hx =>
    if_neg fun hsel => hx hsel.1
  rw [InMemoryStore.resolvePayload_of_config hj hrun hcfg (hrel.inputPayload.trans ho),
    PostgresStore.resolvePayload_eq, Table.returning_key hr hother, hsnap]
  refine ⟨rfl, h.withJobs ?_⟩
  rw [Dict.items_set_map (fun _ => _) hj]
  change List.Forall₂ _ _ (d.jobs.rows.map (Table.after _))
  rw [List.forall₂_map_left_iff, List.forall₂_map_right_iff]
  refine h.jobs.imp_mem fun e he x hx hex => ?_
  by_cases hk : e.1 = i
  · have hxr : d.jobs.find? i' = some x := Table.find?_eq_some.mpr ⟨hx, (hi _ hex.ids).mp hk⟩
    obtain rfl := Option.some.inj (hr.symm.trans hxr)
    rw [if_pos hk, Table.after, hsnap]
    exact ⟨hex.ids, hk ▸ hrel.id_eq, hrel.jobType, hrel.status, hrel.object, hrel.inputPayload,
      rfl, hrel.attempts, hrel.createdAt, rfl, hrel.creator⟩
  · rw [if_neg hk, Table.after_of_none (hother x (mt (hi _ hex.ids).mpr hk))]
    exact hex

theorem resolvePayload (h : Mirrors ρ s d) (hc : Corresponds s) (hi : ρ.Corr i i') {t : String}
    (hm : ∃ o m, s.outbox.get? o = some m ∧ m.payload = ⟨i, t⟩) (now : Time) :
    (s.resolvePayload i t now).1 = .ok (d.resolvePayload i' t now).1 ∧
      Mirrors ρ (s.resolvePayload i t now).2 (d.resolvePayload i' t now).2 := by
  -- the one row an update may select
  have hfound : ∀ x ∈ d.jobs.rows, x.id = i' → d.jobs.find? i' = some x := fun x hx hid =>
    Table.find?_eq_some.mpr ⟨hx, hid⟩
  rcases h.getJob_cases hi with ⟨hj, hr⟩ | ⟨j, r, hj, hr, hrel⟩
  · refine h.resolvePayload_neither (fun j hj' => ?_) fun x hx => if_neg fun hsel => ?_
    · exact absurd (hj.symm.trans hj') (Option.some_ne_none j).symm
    · exact Option.some_ne_none x ((hfound x hx hsel.1).symm.trans hr)
  · by_cases hrun : j.status = .running
    · obtain rfl := message_type hc hj hm
      rcases h.config.cases j.jobType with ⟨hcfg, hcrow⟩ | ⟨cfg, row, hcfg, hcrow, hconf⟩
      · refine h.resolvePayload_neither (fun j' hj' _ => ?_) fun x _ => ?_
        · obtain rfl := Option.some.inj (hj.symm.trans hj')
          exact hcfg
        · rw [PostgresStore.snapshot, hcrow]
          exact ite_self _
      · exact h.resolvePayload_both hi hj hr hrel hrun hcfg hcrow hconf
    · refine h.resolvePayload_neither (fun j' hj' hrun' => ?_) fun x hx => if_neg fun hsel => ?_
      · obtain rfl := Option.some.inj (hj.symm.trans hj')
        exact absurd hrun' hrun
      · obtain rfl := Option.some.inj (hr.symm.trans (hfound x hx hsel.1))
        exact hrun (hrel.status.trans hsel.2)

/-! ## Enqueue -/

/-- The unique index has a row for the type exactly when `_active` finds a job. -/
theorem index_iff (h : Mirrors ρ s d) (t : String) :
    t ∈ d.jobs.rows.filterMap jobsSchema.index ↔ s.active t = true := by
  rw [active_iff, List.mem_filterMap]
  constructor
  · rintro ⟨r, hr, hindex⟩
    obtain ⟨hst, he⟩ := Option.ite_none_right_eq_some.mp hindex
    obtain ⟨e, hmem, hrel⟩ := h.jobs.exists_left hr
    exact ⟨e.1, e.2, Dict.get?_eq_some.mpr hmem, hrel.jobType.trans (Option.some.inj he),
      hrel.status ▸ hst⟩
  · rintro ⟨i, j, hj, rfl, hst⟩
    obtain ⟨r, hr, hrel⟩ := h.jobs.exists_right (Dict.get?_eq_some.mp hj)
    have hst' : j.status = r.status := hrel.status
    have htype : j.jobType = r.jobType := hrel.jobType
    exact ⟨r, hr, (if_pos (hst' ▸ hst)).trans (congrArg some htype.symm)⟩

/-- A row with the next identity conflicts exactly when the type has an active job. -/
theorem fits_iff (h : Mirrors ρ s d) {row : JobRow} (hid : row.id = d.jobIdentity)
    (hst : row.status = .queued) : d.jobs.Fits row ↔ s.active row.jobType = false := by
  have hindex : jobsSchema.index row = some row.jobType := if_pos (by rw [hst]; decide)
  have hkey : jobsSchema.key row ∉ d.jobs.rows.map jobsSchema.key := by
    intro hmem
    obtain ⟨r, hr, he⟩ := List.mem_map.mp hmem
    obtain ⟨e, -, hrel⟩ := h.jobs.exists_left hr
    have hlt : r.id < d.jobIdentity := (h.below _ hrel.ids).2
    exact hlt.ne ((show r.id = row.id from he).trans hid)
  rw [← Bool.not_eq_true, ← h.index_iff, Table.Fits, hindex]
  constructor
  · exact fun hf => hf.2 _ rfl
  · exact fun hn => ⟨hkey, fun v hv => Option.some.inj hv ▸ hn⟩

theorem mono_jobs {ρ' : Renaming} (hρ : ρ ⊆ ρ') {e : JobId × Job} {r : JobRow}
    (h : JobRel ρ e r) : JobRel ρ' e r :=
  { h with ids := hρ h.ids }

theorem mono_outbox {ρ' : Renaming} (hρ : ρ ⊆ ρ') {published : Finset OutboxId}
    {e : OutboxId × OutboxMessage} {r : OutboxRow} (h : OutboxRel ρ published e r) :
    OutboxRel ρ' published e r :=
  { h with ids := hρ h.ids }

/-- A pair of ids past all others extends the renaming. -/
theorem monotone_append (h : Mirrors ρ s d) :
    Renaming.Monotone (ρ ++ [(s.nextJobId, d.jobIdentity)]) := by
  intro p hp q hq
  rcases List.mem_append.mp hp, List.mem_append.mp hq with ⟨hp | hp, hq | hq⟩
  · exact h.monotone p hp q hq
  · obtain rfl := List.mem_singleton.mp hq
    exact iff_of_true (h.below p hp).1 (h.below p hp).2
  · obtain rfl := List.mem_singleton.mp hp
    exact iff_of_false (h.below q hq).1.asymm (h.below q hq).2.asymm
  · obtain rfl := List.mem_singleton.mp hp
    obtain rfl := List.mem_singleton.mp hq
    exact iff_of_false (lt_irrefl _) (lt_irrefl _)

/-- A conflict consumes an id of Postgres and changes nothing else. -/
theorem enqueue_conflict (h : Mirrors ρ s d) :
    Mirrors ρ s { d with jobIdentity := d.jobIdentity + 1 } := by
  refine ⟨h.monotone, fun q hq => ?_, h.jobs, h.outbox, h.outbox_sorted, h.outbox_below,
    h.nextOutboxId, h.config⟩
  exact ⟨(h.below q hq).1, (h.below q hq).2.trans (Int.lt_succ _)⟩

theorem outbox_lt (h : Mirrors ρ s d) : ∀ r ∈ d.outbox.rows, r.id < d.outboxIdentity := by
  intro r hr
  obtain ⟨e, he, hrel⟩ := h.outbox.exists_left hr
  exact hrel.key ▸ h.nextOutboxId ▸ h.outbox_below e he

/-- The items of the outbox after a message is added. -/
theorem outbox_items_set (h : Mirrors ρ s d) (m : OutboxMessage) :
    (s.outbox.set s.nextOutboxId m).items = s.outbox.items ++ [(s.nextOutboxId, m)] := by
  refine Dict.items_set_of_get?_none _ (Dict.get?_eq_none.mpr fun hmem => ?_)
  obtain ⟨e, he, hkey⟩ := List.mem_map.mp hmem
  exact (h.outbox_below e he).ne hkey

/-- The new job, and its row. -/
theorem jobRel_new [ColumnTypes] (hpair : (s.nextJobId, d.jobIdentity) ∈ ρ) {t : String}
    {p : Option Payload} {cr : Option Creator}
    (ht : PostgresStore.takes t (p.map .object) cr = true) (hc : hasTextClient cr = true)
    (now : Time) :
    JobRel ρ (s.nextJobId, newJob s.nextJobId t (p.map .object) cr now now)
      (PostgresStore.newRow d.jobIdentity t (p.map .object) (cr.getD .anonymous) now) := by
  refine ⟨hpair, rfl, rfl, rfl, ?_, rfl, rfl, rfl, rfl, rfl, ?_⟩
  · cases p with
    | none => exact ⟨∅, rfl⟩
    | some o => exact ⟨o, orEmpty_object o⟩
  · exact Creator.mk.injEq .. ▸ ⟨rfl, rfl, (clientId_read_back ht hc).symm⟩

/-- A new run has the next id on each side. -/
theorem enqueue_fresh [ColumnTypes] (h : Mirrors ρ s d) (hw : WellKeyed s) (hc : Corresponds s)
    {t : String} {p : Option Payload} {cr : Option Creator} {now : Time}
    (ht : PostgresStore.takes t (p.map .object) cr = true) (hclient : hasTextClient cr = true)
    (hfree : s.active t = false) (hfit : d.jobs.Fits
      (PostgresStore.newRow d.jobIdentity t (p.map .object) (cr.getD .anonymous) now)) :
    (s.enqueue t (p.map .object) cr now now).1 = some s.nextJobId ∧
      (d.insertJob t (p.map .object) cr now).1 = some d.jobIdentity ∧
      Mirrors (ρ ++ [(s.nextJobId, d.jobIdentity)]) (s.enqueue t (p.map .object) cr now now).2
        (d.insertJob t (p.map .object) cr now).2 := by
  obtain ⟨hofit, hrows⟩ := PostgresStore.insertJob_of_fits hfit h.outbox_lt
  have hpair : (s.nextJobId, d.jobIdentity) ∈ ρ ++ [(s.nextJobId, d.jobIdentity)] :=
    List.mem_append_right _ (List.mem_singleton_self _)
  have hsub : ρ ⊆ ρ ++ [(s.nextJobId, d.jobIdentity)] := List.subset_append_left _ _
  have hitems := h.outbox_items_set ⟨s.nextOutboxId, s.nextJobId, buildEnvelope s.nextJobId t⟩
  rw [hrows, InMemoryStore.enqueue, if_neg (by rw [hfree]; exact Bool.false_ne_true)]
  refine ⟨rfl, rfl,
    { monotone := h.monotone_append
      below := fun q hq => ?below
      jobs := ?jobs
      outbox := ?outbox
      outbox_sorted := ?outbox_sorted
      outbox_below := fun e he => ?outbox_below
      nextOutboxId := congrArg (· + 1) h.nextOutboxId
      config := h.config }⟩
  case below =>
    rcases List.mem_append.mp hq with hq | hq
    · exact ⟨(h.below q hq).1.trans (Int.lt_succ _), (h.below q hq).2.trans (Int.lt_succ _)⟩
    · obtain rfl := List.mem_singleton.mp hq
      exact ⟨Int.lt_succ _, Int.lt_succ _⟩
  case jobs =>
    rw [Dict.items_set_of_get?_none _ hw.next_free]
    exact List.rel_append (h.jobs.imp fun _ _ => mono_jobs hsub)
      (.cons (jobRel_new hpair ht hclient now) .nil)
  case outbox =>
    change List.Forall₂ _ (s.outbox.set _ _).items (d.outbox.rows ++ [_])
    rw [hitems]
    refine List.rel_append (h.outbox.imp fun _ _ => mono_outbox hsub) (.cons ?_ .nil)
    refine ⟨h.nextOutboxId, rfl, hpair, rfl, rfl, rfl, iff_of_false (fun hmem => ?_)
      Bool.false_ne_true⟩
    exact (hc.published_lt _ hmem).ne rfl
  case outbox_sorted =>
    change (s.outbox.set _ _).items.Pairwise _
    rw [hitems]
    refine List.pairwise_append.mpr ⟨h.outbox_sorted, List.pairwise_singleton _ _, ?_⟩
    intro e he e' he'
    obtain rfl := List.mem_singleton.mp he'
    exact h.outbox_below e he
  case outbox_below =>
    change e ∈ (s.outbox.set _ _).items at he
    rw [hitems] at he
    rcases List.mem_append.mp he with he | he
    · exact (h.outbox_below e he).trans (Int.lt_succ _)
    · obtain rfl := List.mem_singleton.mp he
      exact Int.lt_succ _

/-- An enqueue that the columns take. -/
theorem enqueue [ColumnTypes] (h : Mirrors ρ s d) (hw : WellKeyed s) (hc : Corresponds s)
    {t : String} {p : Option Payload} {cr : Option Creator}
    (ht : PostgresStore.takes t (p.map .object) cr = true)
    (hclient : hasTextClient cr = true ∨ s.active t = true) (now : Time) :
    let r := s.enqueue t (p.map .object) cr now now
    let r' := d.insertJob t (p.map .object) cr now
    (r.1 = none ∧ r'.1 = none ∧ Mirrors ρ r.2 r'.2) ∨
      ∃ i i', r.1 = some i ∧ r'.1 = some i' ∧ Mirrors (ρ ++ [(i, i')]) r.2 r'.2 := by
  intro r r'
  have hfits : d.jobs.Fits
      (PostgresStore.newRow d.jobIdentity t (p.map .object) (cr.getD .anonymous) now) ↔
        s.active t = false := h.fits_iff rfl rfl
  cases ha : s.active t with
  | true =>
    have hr : r = (none, s) := if_pos ha
    have hconflict := mt hfits.mp (by rw [ha]; decide)
    rw [hr, show r' = _ from PostgresStore.insertJob_of_not_fits hconflict]
    exact Or.inl ⟨rfl, rfl, h.enqueue_conflict⟩
  | false =>
    have htext := hclient.resolve_right (by rw [ha]; exact Bool.false_ne_true)
    exact Or.inr ⟨_, _, h.enqueue_fresh hw hc ht htext ha (hfits.mpr ha)⟩

/-- **The calls on a row that both stores returned** are the same calls: the dispatcher's mark, and
the claim and the resolve of the worker that reads its envelope. -/
theorem calls_on_row (h : Mirrors ρ s d) {m m' : OutboxMessage}
    (hm : s.outbox.get? m.id = some m) (hr : MessageRel ρ m m') (now : Time) :
    CallRel ρ s (.markDispatched m.id m.jobId now) (.markDispatched m'.id m'.jobId now) ∧
    CallRel ρ s (.claim m.payload.jobId now) (.claim m'.payload.jobId now) ∧
    CallRel ρ s (.resolvePayload m.payload.jobId m.payload.jobType now)
      (.resolvePayload m'.payload.jobId m'.payload.jobType now) := by
  have henvelope : ρ.Corr m.payload.jobId m'.payload.jobId := h.monotone.corr hr.payload
  refine ⟨?_, .claim henvelope, ?_⟩
  · rw [← hr.id]
    exact .markDispatched (h.monotone.corr hr.jobId) ⟨m, hm, rfl⟩
  · rw [← hr.jobType]
    exact .resolvePayload henvelope ⟨m.id, m, hm, rfl⟩

end Mirrors

/-! ## In step -/

/-- The renaming after two answers: two ids returned together name the same run. -/
def Renaming.extend (ρ : Renaming) : Reply → Reply → Renaming
  | .jobId (some i), .jobId (some i') => ρ ++ [(i, i')]
  | _, _ => ρ

/-- **One call** that the columns take is answered alike and leaves stores that mirror each
other. -/
theorem Mirrors.exec [ColumnTypes] (h : Mirrors ρ s d) (hw : WellKeyed s) (hcorr : Corresponds s)
    {c c' : Call} (hc : CallRel ρ s c c') (ht : c.Taken s) :
    ReplyRel (ρ.extend (exec s c).1 (d.exec c').1) (exec s c).1 (d.exec c').1 ∧
      Mirrors (ρ.extend (exec s c).1 (d.exec c').1) (exec s c).2 (d.exec c').2 := by
  -- a call answered by a flag
  have flag : ∀ {b b' : Bool} {s' : InMemoryStore} {d' : PostgresStore},
      (b = b' ∧ Mirrors ρ s' d') → ReplyRel ρ (.flag b) (.flag b') ∧ Mirrors ρ s' d' := by
    rintro b _ s' d' ⟨rfl, hm⟩
    exact ⟨.flag, hm⟩
  -- a call answered by an id
  have jobId : ∀ {r : Option JobId × InMemoryStore} {r' : Option JobId × PostgresStore},
      ((r.1 = none ∧ r'.1 = none ∧ Mirrors ρ r.2 r'.2) ∨
        ∃ i i', r.1 = some i ∧ r'.1 = some i' ∧ Mirrors (ρ ++ [(i, i')]) r.2 r'.2) →
      ReplyRel (ρ.extend (.jobId r.1) (.jobId r'.1)) (.jobId r.1) (.jobId r'.1) ∧
        Mirrors (ρ.extend (.jobId r.1) (.jobId r'.1)) r.2 r'.2 := by
    rintro ⟨_, s'⟩ ⟨_, d'⟩ (⟨rfl, rfl, hm⟩ | ⟨i, i', rfl, rfl, hm⟩)
    · exact ⟨.jobId .none, hm⟩
    · exact ⟨.jobId (.some (List.mem_append_right _ (List.mem_singleton_self _))), hm⟩
  cases hc with
  | @enqueue t cr now p =>
    rcases d.exec_enqueue t (p.map .object) cr now now with ⟨hno, -⟩ | ⟨-, he⟩
    · exact absurd (hno.symm.trans ht.1) Bool.false_ne_true
    · rw [he]
      exact jobId (h.enqueue hw hcorr ht.1 ht.2 now)
  | fetchUnpublished hl =>
    obtain ⟨rows, hrows, hrel⟩ := h.fetchUnpublished hl
    simp only [JobWorkflow.exec, PostgresStore.exec, hrows]
    exact ⟨.rows hrel, h⟩
  | markDispatched hi hm => exact ⟨.unit, h.markDispatched hi _ _⟩
  | claim hi =>
    exact flag (h.guardedStatus hi (by decide) .running fun j => decide_eq_true_iff)
  | @resolvePayload i i' t now hi hm =>
    obtain ⟨hreply, hmirrors⟩ := h.resolvePayload hcorr hi hm now
    change ReplyRel ρ (.payload (s.resolvePayload i t now).1) _ ∧ _
    rw [hreply]
    exact ⟨.payload, hmirrors⟩
  | complete hi =>
    exact flag (h.guardedStatus hi (by decide) .completed fun j => by simp)
  | fail hi =>
    exact flag (h.guardedStatus hi (by decide) .failed fun j => by simp)
  | @findStuck now =>
    have hrel := h.findStuck now
    exact ⟨.stuck (fun _ hx => hrel.exists_right hx) fun _ hx => hrel.exists_left hx, h⟩
  | requeueStuck hi => exact flag (h.requeueStuck hi _)
  | deadLetter hi =>
    exact flag (h.guardedStatus hi (by decide) .failed fun j => by simp)
  | getJob hi => exact ⟨.job (h.getJob hi), h⟩
  | @setTypeConfig t timeout cap p =>
    rcases d.exec_setTypeConfig t timeout cap p with ⟨hno, -⟩ | ⟨-, he⟩
    · exact absurd (hno.symm.trans ht) Bool.false_ne_true
    · rw [he]
      exact ⟨.unit, h.setTypeConfig _ _ _ _⟩

/-- **A call that the columns do not take is not answered alike**, or leaves a job with a creator
whom no row names. -/
theorem Mirrors.taken_of_agree [ColumnTypes] {ρ' : Renaming} {c c' : Call} (hc : CallRel ρ s c c')
    (hreply : ReplyRel ρ' (JobWorkflow.exec s c).1 (d.exec c').1)
    (hafter : Mirrors ρ' (JobWorkflow.exec s c).2 (d.exec c').2) : c.Taken s := by
  cases hc with
  | @enqueue t cr now p =>
    rcases d.exec_enqueue t (p.map .object) cr now now with ⟨-, he⟩ | ⟨ht, -⟩
    · rw [he] at hreply
      cases hreply
    · refine ⟨ht, ?_⟩
      cases ha : s.active t with
      | true => exact Or.inr rfl
      | false =>
        refine Or.inl (hasTextClient_iff.mpr ?_)
        have henq : (JobWorkflow.exec s (.enqueue t (p.map .object) cr now now)).2.jobs =
            s.jobs.set s.nextJobId (newJob s.nextJobId t (p.map .object) cr now now) := by
          change (s.enqueue t (p.map .object) cr now now).2.jobs = _
          rw [InMemoryStore.enqueue, if_neg (by rw [ha]; exact Bool.false_ne_true)]
        have hnew := Dict.get?_set_self s.jobs s.nextJobId
          (newJob s.nextJobId t (p.map .object) cr now now)
        obtain ⟨r, -, hrel⟩ := hafter.jobs.exists_right (henq ▸ Dict.get?_eq_some.mp hnew)
        exact ⟨_, congrArg Creator.clientId hrel.creator⟩
  | @setTypeConfig t timeout cap p =>
    rcases d.exec_setTypeConfig t timeout cap p with ⟨-, he⟩ | ⟨ht, -⟩
    · rw [he] at hreply
      cases hreply
    · exact ht
  | _ => trivial

/-- The two stores, and the ids they have given to the same runs. -/
structure Lockstep where
  memory : InMemoryStore
  postgres : PostgresStore
  ids : Renaming

namespace Lockstep

/-- Two fresh stores with one configuration. -/
def start (cfg : Dict String TypeConfig) (table : Table configSchema) : Lockstep :=
  ⟨{ InMemoryStore.empty with typeConfig := cfg }, ⟨∅, ∅, table, 1, 1⟩, []⟩

/-- The stores mirror each other, and the in-memory one is sound. -/
structure Agree (q : Lockstep) : Prop where
  mirrors : Mirrors q.ids q.memory q.postgres
  wellKeyed : WellKeyed q.memory
  corresponds : Corresponds q.memory

theorem agree_start {cfg : Dict String TypeConfig} {table : Table configSchema}
    (h : SameConfig cfg table) : Agree (start cfg table) :=
  ⟨⟨nofun, nofun, .nil, .nil, .nil, nofun, rfl, h⟩, Ledger.wellKeyed_start (ι := Unit) cfg,
    .empty cfg⟩

variable [ColumnTypes]

/-- Make a call on each store. -/
def after (q : Lockstep) (c c' : Call) : Lockstep :=
  ⟨(JobWorkflow.exec q.memory c).2, (q.postgres.exec c').2,
    q.ids.extend (JobWorkflow.exec q.memory c).1 (q.postgres.exec c').1⟩

/-- The same call is made on both stores, and the columns take it. -/
inductive Step : Lockstep → Lockstep → Prop
  | call {q : Lockstep} {c c' : Call} (h : CallRel q.ids q.memory c c') (ht : c.Taken q.memory) :
    Step q (q.after c c')

variable {q q' : Lockstep} {c c' : Call}

theorem Agree.exec (h : Agree q) (hc : CallRel q.ids q.memory c c') (ht : c.Taken q.memory) :
    ReplyRel (q.after c c').ids (JobWorkflow.exec q.memory c).1 (q.postgres.exec c').1 ∧
      Agree (q.after c c') := by
  obtain ⟨hreply, hmirrors⟩ := h.mirrors.exec h.wellKeyed h.corresponds hc ht
  have heffect := exec_effect c q.memory
  refine ⟨hreply, hmirrors, wellKeyed_of_effect heffect h.wellKeyed, ?_⟩
  refine corresponds_of_effect heffect h.wellKeyed h.corresponds fun o i now he => ?_
  cases hc with
  | markDispatched _ hm =>
    obtain ⟨rfl, rfl, rfl⟩ := Call.markDispatched.inj he
    exact hm
  | _ => exact nomatch he

theorem agree_of_steps (h : Agree q) (hq : Relation.ReflTransGen Step q q') : Agree q' := by
  induction hq with
  | refl => exact h
  | tail _ hstep ih =>
    cases hstep with
    | call hc ht => exact (ih.exec hc ht).2

end Lockstep

/-- **When the stores agree**: after the same calls, all of which the columns take, they are related
by an order-preserving renaming of job ids; and they answer the next call alike and stay related
exactly if the columns take that one too. -/
theorem stores_agree [ColumnTypes] {cfg : Dict String TypeConfig} {table : Table configSchema}
    (hcfg : SameConfig cfg table) {q : Lockstep}
    (hq : Relation.ReflTransGen Lockstep.Step (Lockstep.start cfg table) q) :
    q.ids.Monotone ∧ Mirrors q.ids q.memory q.postgres ∧
      ∀ c c', CallRel q.ids q.memory c c' →
        ((ReplyRel (q.after c c').ids (JobWorkflow.exec q.memory c).1 (q.postgres.exec c').1 ∧
          Mirrors (q.after c c').ids (q.after c c').memory (q.after c c').postgres) ↔
        c.Taken q.memory) := by
  have h := Lockstep.agree_of_steps (Lockstep.agree_start hcfg) hq
  refine ⟨h.mirrors.monotone, h.mirrors, fun c c' hc => ⟨fun hagree => ?_, fun ht => ?_⟩⟩
  · exact Mirrors.taken_of_agree hc hagree.1 hagree.2
  · exact ⟨(h.exec hc ht).1, (h.exec hc ht).2.mirrors⟩

attribute [local instance] ColumnTypes.nulFree

/-- An enqueue that conflicts consumes an identity value: the next run has other ids. -/
theorem stores_agree_gap :
    let hello : Call := .enqueue "hello" none none 0 0
    let q := ((((((Lockstep.start ∅ ∅).after hello hello).after hello hello).after
      (.claim 1 1) (.claim 1 1)).after (.complete 1 2) (.complete 1 2)).after hello hello)
    q.ids = [(1, 1), (2, 3)] ∧
      ReplyRel q.ids (JobWorkflow.exec q.memory (.getJob 2)).1 (q.postgres.exec (.getJob 3)).1 := by
  intro hello q
  have henqueue : ∀ q : Lockstep, CallRel q.ids q.memory hello hello := fun q =>
    .enqueue (p := none)
  have htaken : ∀ s, hello.Taken s := fun s => ⟨by decide, Or.inl rfl⟩
  have hfirst : Renaming.Corr [(1, 1)] 1 1 := by
    unfold Renaming.Corr
    decide
  have hq : Relation.ReflTransGen Lockstep.Step (Lockstep.start ∅ ∅) q :=
    ((((Relation.ReflTransGen.single (.call (henqueue _) (htaken _))).tail
      (.call (henqueue _) (htaken _))).tail (.call (.claim hfirst) trivial)).tail
        (.call (.complete hfirst) trivial)).tail (.call (henqueue _) (htaken _))
  have hids : q.ids = [(1, 1), (2, 3)] := by decide +kernel
  have hagree := stores_agree (fun _ => .none) hq
  have hcall : CallRel q.ids q.memory (.getJob 2) (.getJob 3) :=
    .getJob (hagree.1.corr (by rw [hids]; decide))
  have hreply := ((hagree.2.2 _ _ hcall).mpr trivial).1
  have hsame : ∀ q : Lockstep, (q.after (.getJob 2) (.getJob 3)).ids = q.ids := fun _ => rfl
  exact ⟨hids, hsame q ▸ hreply⟩

/-- **A payload with a NUL in it** is stored by one of the stores, and is a data error of the
other. -/
theorem nul_payload_disagrees :
    let q := Lockstep.start ∅ ∅
    let post : Call :=
      .enqueue "hello" (some (.object ((∅ : Payload).insert "name" (.text "\x00")))) none 0 0
    CallRel q.ids q.memory post post ∧
      (JobWorkflow.exec q.memory post).1 = .jobId (some 1) ∧
      (q.postgres.exec post).1 = .raised .dataError ∧
      ∀ ρ, ¬ ReplyRel ρ (JobWorkflow.exec q.memory post).1 (q.postgres.exec post).1 := by
  intro q post
  have hmemory : (JobWorkflow.exec q.memory post).1 = .jobId (some 1) := rfl
  have hpostgres : (q.postgres.exec post).1 = .raised .dataError := rfl
  refine ⟨.enqueue (p := some _), hmemory, hpostgres, fun ρ h => ?_⟩
  rw [hmemory, hpostgres] at h
  exact nomatch h

end JobWorkflow
