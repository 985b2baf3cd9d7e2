import JobWorkflow.Common.Agreement
import JobWorkflow.Common.Lifecycle

/-!
# Common/Resolution — whose config a run is resolved with

A run is to be resolved with the base config of its own type, the type of its `jobs` row
(`ownOverlay`).  `InMemoryStore` looks that type up.  `PostgresStore` joins the config on the type
the caller names, which is the message's: the two are the same unless the message names another
type with another config (`resolves_own_iff`).
-/

namespace JobWorkflow

open InMemoryStore

/-! ## The rows of `jobs`, as jobs -/

/-- `Job(…)`, from a row. -/
def JobRow.job (r : JobRow) : Job where
  id := r.id
  jobType := r.jobType
  status := r.status
  inputPayload := r.inputPayload
  payload := r.payload
  attempts := r.attempts
  createdAt := r.createdAt
  updatedAt := r.updatedAt
  createdBy := some ⟨r.createdBySub, r.createdByType, r.createdByClient.map .text⟩

namespace PostgresStore

variable {d d' : PostgresStore} {i k : JobId} {t : String} {now : Time}

theorem getJob_eq (d : PostgresStore) (i : JobId) :
    d.getJob i = (d.jobs.find? i).map JobRow.job := rfl

theorem getJob_eq_some {j : Job} :
    d.getJob i = some j ↔ ∃ r, d.jobs.find? i = some r ∧ r.job = j :=
  Option.map_eq_some_iff

/-- Rows that are rewritten without a change to what identifies the run. -/
theorem sameRun_of_map {f : JobRow → JobRow} (h : d'.jobs.rows = d.jobs.rows.map f)
    (hf : ∀ r, SameRun r.job (f r).job) {j : Job} (hj : d.getJob i = some j) :
    ∃ j', d'.getJob i = some j' ∧ SameRun j j' := by
  obtain ⟨r, hr, rfl⟩ := getJob_eq_some.mp hj
  have hfind := Table.find?_of_map h (fun r => (hf r).id) i
  rw [hr] at hfind
  exact ⟨(f r).job, getJob_eq_some.mpr ⟨f r, hfind, rfl⟩, hf r⟩

theorem sameRun_of_setWhere {p : JobRow → Bool} {f : JobRow → JobRow}
    (h : d'.jobs.rows = d.jobs.rows.map (Table.after (Table.setWhere p f)))
    (hf : ∀ r, SameRun r.job (f r).job) {j : Job} (hj : d.getJob i = some j) :
    ∃ j', d'.getJob i = some j' ∧ SameRun j j' := by
  refine sameRun_of_map h (fun r => ?_) hj
  rw [Table.after_setWhere]
  split
  · exact hf r
  · exact .refl r.job

/-- **A job that is there stays there, and stays the same run.** -/
theorem keeps_run [ColumnTypes] (c : Call) {j : Job} (hj : d.getJob i = some j) :
    ∃ j', (d.exec c).2.getJob i = some j' ∧ SameRun j j' := by
  have hstatus : ∀ (st : JobStatus) (now : Time) (r : JobRow),
      SameRun r.job { r with status := st, updatedAt := now }.job :=
    fun _ _ _ => ⟨rfl, rfl, rfl, rfl, rfl⟩
  cases c with
  | enqueue t p cr now _ =>
    rcases d.exec_enqueue t p cr now now with ⟨-, he⟩ | ⟨-, he⟩
    · exact ⟨j, congrArg (fun r => r.2.getJob i) he ▸ hj, .refl j⟩
    · obtain ⟨r, hr, rfl⟩ := getJob_eq_some.mp hj
      have hjobs : (d.exec (.enqueue t p cr now now)).2.jobs =
          (d.jobs.insert (newRow d.jobIdentity t p (cr.getD .anonymous) now)).2 := by
        rw [he]
        simp only [Prod.map, insertJob]
        split <;> rfl
      refine ⟨r.job, getJob_eq_some.mpr ⟨r, ?_, rfl⟩, .refl r.job⟩
      exact (congrArg (Table.find? · i) hjobs).trans (Table.find?_insert_of_some hr _)
  | markDispatched _ _ _ | claim _ _ | complete _ _ | fail _ _ | deadLetter _ _ =>
    exact sameRun_of_setWhere rfl (hstatus _ _) hj
  | fetchUnpublished limit =>
    rw [exec_fetchUnpublished]
    exact ⟨j, hj, .refl j⟩
  | resolvePayload i' t now =>
    have hrows : (d.exec (.resolvePayload i' t now)).2.jobs.rows =
        d.jobs.rows.map (Table.after (d.snapshot i' t now)) := by
      rw [exec, resolvePayload_eq]
      rfl
    refine sameRun_of_map hrows (fun r => ?_) hj
    rw [Table.after, snapshot]
    split
    · cases d.jobTypeConfig.find? t with
      | none => exact .refl r.job
      | some c => exact ⟨rfl, rfl, rfl, rfl, rfl⟩
    · exact .refl r.job
  | findStuck now => exact ⟨j, hj, .refl j⟩
  | requeueStuck i' now =>
    exact sameRun_of_setWhere (d.requeueStuck_rows i' now) (fun _ => ⟨rfl, rfl, rfl, rfl, rfl⟩) hj
  | getJob i' => exact ⟨j, hj, .refl j⟩
  | setTypeConfig t timeout cap p =>
    rcases d.exec_setTypeConfig t timeout cap p with ⟨-, he⟩ | ⟨-, he⟩
    · exact ⟨j, by rwa [he], .refl j⟩
    · exact ⟨j, by rwa [he], .refl j⟩

section Snapshot

variable {i : JobId} {t : String} {now : Time} {d : PostgresStore}

/-- A running job of a type with a row gets the overlay for a snapshot. -/
theorem snapshot_of_running {r : JobRow} {c : ConfigRow} (hr : d.jobs.find? i = some r)
    (hrun : r.status = .running) (hc : d.jobTypeConfig.find? t = some c) :
    d.snapshot i t now r =
      some { r with payload := c.payload.concat r.inputPayload, updatedAt := now } := by
  obtain ⟨-, hid⟩ := Table.find?_eq_some.mp hr
  rw [snapshot, if_pos ⟨hid, hrun⟩, hc]
  rfl

theorem snapshot_of_id_ne {x : JobRow} (hx : x.id ≠ i) : d.snapshot i t now x = none :=
  if_neg fun hsel => hx hsel.1

/-- After the update, the job has its snapshot, and the others are as they were. -/
theorem find?_update_snapshot {r r' : JobRow} (hr : d.jobs.find? i = some r)
    (hsnap : d.snapshot i t now r = some r') (k : JobId) :
    (d.jobs.update (d.snapshot i t now) snapshot_sound).find? k =
      if k = i then some r' else d.jobs.find? k := by
  rw [Table.find?_of_map (t := d.jobs) rfl (fun x => (Table.keeps_after snapshot_sound x).key)]
  split
  · rename_i hk
    rw [hk, hr, Option.map_some, Table.after, hsnap]
    rfl
  · rename_i hk
    cases hx : d.jobs.find? k with
    | none => rfl
    | some x =>
      obtain ⟨-, rfl⟩ := Table.find?_eq_some.mp hx
      rw [Option.map_some, Table.after_of_none (snapshot_of_id_ne hk)]

/-- Without a row for the type of a running job, no job gets a snapshot. -/
theorem snapshot_eq_none
    (h : ∀ r, d.jobs.find? i = some r → r.status = .running → d.jobTypeConfig.find? t = none)
    {x : JobRow} (hx : x ∈ d.jobs.rows) : d.snapshot i t now x = none := by
  rw [snapshot]
  split
  · rename_i hsel
    rw [h x (Table.find?_eq_some.mpr ⟨hx, hsel.1⟩) hsel.2]
    rfl
  · rfl

end Snapshot

/-- **What `resolve_payload` does on the Postgres side.** -/
theorem resolvePayload_cases (i : JobId) (t : String) (now : Time) (d : PostgresStore) :
    (∃ r c, d.jobs.find? i = some r ∧ r.status = .running ∧ d.jobTypeConfig.find? t = some c ∧
      d.resolvePayload i t now = (some (c.payload.concat r.inputPayload),
        { d with jobs := d.jobs.update (d.snapshot i t now) snapshot_sound }) ∧
      ∀ k, (d.jobs.update (d.snapshot i t now) snapshot_sound).find? k = if k = i then
        some { r with payload := c.payload.concat r.inputPayload, updatedAt := now }
        else d.jobs.find? k) ∨
    ((∀ r, d.jobs.find? i = some r → r.status = .running → d.jobTypeConfig.find? t = none) ∧
      d.resolvePayload i t now = (none, d)) := by
  by_cases h : ∃ r c, d.jobs.find? i = some r ∧ r.status = .running ∧
      d.jobTypeConfig.find? t = some c
  · obtain ⟨r, c, hr, hrun, hc⟩ := h
    have hsnap : d.snapshot i t now r = _ := snapshot_of_running hr hrun hc
    refine Or.inl ⟨r, c, hr, hrun, hc, ?_, find?_update_snapshot hr hsnap⟩
    rw [resolvePayload_eq, Table.returning_key hr fun _ hx => snapshot_of_id_ne hx, hsnap]
    rfl
  · have hno : ∀ r, d.jobs.find? i = some r → r.status = .running →
        d.jobTypeConfig.find? t = none := fun r hr hrun =>
      Option.eq_none_iff_forall_ne_some.mpr fun c hc => h ⟨r, c, hr, hrun, hc⟩
    exact Or.inr ⟨hno, resolvePayload_none fun _ hx => snapshot_eq_none hno hx⟩

end PostgresStore

/-! ## The run's own config -/

/-- A store with the base config it has for each type. -/
class ConfiguredStore (σ : Type) extends Store σ where
  baseConfig : String → σ → Option Document

open ConfiguredStore

instance : ConfiguredStore InMemoryStore where
  baseConfig t s := (s.typeConfig.get? t).map fun cfg => .object cfg.payload

instance [ColumnTypes] : ConfiguredStore PostgresStore where
  baseConfig t d := (d.jobTypeConfig.find? t).map ConfigRow.payload

section Spec

variable {σ : Type} [ConfiguredStore σ]

/-- **What a run is to be resolved to**: the base config of its own type, overlaid with its input;
nothing unless it is running and its type has a config. -/
def ownOverlay (i : JobId) (s : σ) : Option Document :=
  match Store.getJob i s with
  | none => none
  | some job =>
    if job.status ≠ .running then none
    else
      match baseConfig job.jobType s, job.inputPayload with
      | some (.object base), .object input => some (.object (input ∪ base))
      | _, _ => none

/-- **A call of `resolve_payload` resolves the run with its own type's config**: it returns the
overlay and stores it, and does nothing else. -/
structure ResolvesOwn (i : JobId) (t : String) (now : Time) (s : σ) : Prop where
  returned : (Store.resolvePayload i t now s).1 = .ok (ownOverlay i s)
  stored : ∀ p, ownOverlay i s = some p → ∀ k,
    Store.getJob k (Store.resolvePayload i t now s).2 =
      if k = i then (Store.getJob i s).map fun job => { job with payload := p, updatedAt := now }
      else Store.getJob k s
  unchanged : ownOverlay i s = none → (Store.resolvePayload i t now s).2 = s
  config : ∀ t', baseConfig t' (Store.resolvePayload i t now s).2 = baseConfig t' s
  rows : ∀ limit, Store.fetchUnpublished limit (Store.resolvePayload i t now s).2 =
    Store.fetchUnpublished limit s

/-- Every input and every base config is a JSON object. -/
structure ObjectPayloads (s : σ) : Prop where
  input : ∀ i job, Store.getJob i s = some job → ∃ o, job.inputPayload = .object o
  base : ∀ t p, baseConfig t s = some p → ∃ o, p = .object o

variable {i : JobId} {s : σ} {job : Job} {base input : Payload}

theorem ownOverlay_of_base (hj : Store.getJob i s = some job) (hrun : job.status = .running)
    (hbase : baseConfig job.jobType s = some (.object base))
    (hin : job.inputPayload = .object input) :
    ownOverlay i s = some (.object (input ∪ base)) := by
  simp only [ownOverlay, hj, hrun, hbase, hin, ne_eq, not_true, if_false]

theorem ownOverlay_of_none
    (h : ∀ job, Store.getJob i s = some job → job.status = .running →
      baseConfig job.jobType s = none) : ownOverlay i s = none := by
  rw [ownOverlay]
  cases hj : Store.getJob i s with
  | none => rfl
  | some job =>
    by_cases hrun : job.status = .running
    · simp only [hrun, h job hj hrun, ne_eq, not_true, if_false]
    · exact if_pos hrun

/-- A call that finds nothing to do, where there is nothing to do. -/
theorem resolvesOwn_of_none {t : String} {now : Time}
    (h : Store.resolvePayload i t now s = (.ok none, s))
    (hown : ownOverlay i s = none) : ResolvesOwn i t now s where
  returned := by rw [h, hown]
  stored p hp := nomatch hown.symm.trans hp
  unchanged _ := by rw [h]
  config _ := by rw [h]
  rows _ := by rw [h]

/-- A call that stores the overlay. -/
theorem resolvesOwn_of_some {t : String} {now : Time} {s' : σ} {p : Document}
    (h : Store.resolvePayload i t now s = (.ok (some p), s')) (hown : ownOverlay i s = some p)
    (hjobs : ∀ k, Store.getJob k s' =
      if k = i then (Store.getJob i s).map fun job => { job with payload := p, updatedAt := now }
      else Store.getJob k s)
    (hconfig : ∀ t', baseConfig t' s' = baseConfig t' s)
    (hrows : ∀ limit, Store.fetchUnpublished limit s' = Store.fetchUnpublished limit s) :
    ResolvesOwn i t now s where
  returned := by rw [h, hown]
  stored p' hp' := by
    obtain rfl := Option.some.inj (hown.symm.trans hp')
    rw [h]
    exact hjobs
  unchanged hno := nomatch hno.symm.trans hown
  config := by rw [h]; exact hconfig
  rows := by rw [h]; exact hrows

end Spec

/-- `InMemoryStore` looks the run's own type up. -/
theorem InMemoryStore.resolvesOwn {s : InMemoryStore} (hs : ObjectPayloads s) (i : JobId)
    (t : String) (now : Time) : ResolvesOwn i t now s := by
  by_cases h : ∃ job cfg, s.getJob i = some job ∧ job.status = .running ∧
      s.typeConfig.get? job.jobType = some cfg
  · obtain ⟨job, cfg, hj, hrun, hcfg⟩ := h
    obtain ⟨input, hin⟩ := hs.input i job hj
    have hbase : baseConfig job.jobType s = some (.object cfg.payload) :=
      congrArg (Option.map fun cfg : TypeConfig => Document.object cfg.payload) hcfg
    have hown : ownOverlay i s = some (.object (input ∪ cfg.payload)) :=
      ownOverlay_of_base hj hrun hbase hin
    have hcall : Store.resolvePayload i t now s = (.ok (some (.object (input ∪ cfg.payload))),
        s.putJob i { job with payload := .object (input ∪ cfg.payload), updatedAt := now }) :=
      resolvePayload_of_config hj hrun hcfg hin
    refine resolvesOwn_of_some hcall hown (fun k => ?_) (fun _ => rfl) fun _ => rfl
    split
    · rename_i hk
      rw [hk, show Store.getJob i s = some job from hj]
      exact getJob_putJob_self
    · rename_i hk
      exact getJob_putJob_of_ne hk
  · have hnone : ∀ job, s.getJob i = some job → job.status = .running →
        s.typeConfig.get? job.jobType = none := fun job hj hrun =>
      Option.eq_none_iff_forall_ne_some.mpr fun cfg hcfg => h ⟨job, cfg, hj, hrun, hcfg⟩
    refine resolvesOwn_of_none (resolvePayload_of_none hnone) (ownOverlay_of_none ?_)
    exact fun job hj hrun => congrArg (Option.map _) (hnone job hj hrun)

/-! ## The config of the message's type -/

/-- **The config of the type that is named overlays the run as the config of its own type does**:
the run is not running, or neither type has a config, or both have one and they agree wherever the
run's input gives no value. -/
def SameOverlay [ColumnTypes] (i : JobId) (t : String) (d : PostgresStore) : Prop :=
  ∀ job, d.getJob i = some job → job.status = .running →
    (baseConfig t d = none ∧ baseConfig job.jobType d = none) ∨
    ∃ named own input, baseConfig t d = some (.object named) ∧
      baseConfig job.jobType d = some (.object own) ∧ job.inputPayload = .object input ∧
      ∀ k, k ∉ input → named.lookup k = own.lookup k

/-- Two overlays with one input are the same where the bases agree off its keys. -/
theorem union_eq_union_iff {input base base' : Payload} :
    input ∪ base = input ∪ base' ↔ ∀ k, k ∉ input → base.lookup k = base'.lookup k := by
  constructor
  · intro h k hk
    rw [← Finmap.lookup_union_right hk, h, Finmap.lookup_union_right hk]
  · intro h
    refine Finmap.ext_lookup fun k => ?_
    by_cases hk : k ∈ input
    · rw [Finmap.lookup_union_left hk, Finmap.lookup_union_left hk]
    · rw [Finmap.lookup_union_right hk, Finmap.lookup_union_right hk, h k hk]

/-- The overlay of a running job is there exactly if its type has a config. -/
theorem ownOverlay_cases {σ : Type} [ConfiguredStore σ] {s : σ} (hs : ObjectPayloads s)
    {i : JobId} {job : Job} (hj : Store.getJob i s = some job) (hrun : job.status = .running) :
    (baseConfig job.jobType s = none ∧ ownOverlay i s = none) ∨
      ∃ own input, baseConfig job.jobType s = some (.object own) ∧
        job.inputPayload = .object input ∧ ownOverlay i s = some (.object (input ∪ own)) := by
  obtain ⟨input, hin⟩ := hs.input i job hj
  cases hown : baseConfig job.jobType s with
  | none =>
    refine Or.inl ⟨rfl, ownOverlay_of_none fun job' hj' _ => ?_⟩
    obtain rfl := Option.some.inj (hj.symm.trans hj')
    exact hown
  | some p =>
    obtain ⟨own, rfl⟩ := hs.base _ _ hown
    exact Or.inr ⟨own, input, rfl, hin, ownOverlay_of_base hj hrun hown hin⟩

namespace PostgresStore

variable [ColumnTypes] {d : PostgresStore} {i : JobId} {t : String} {now : Time}

/-- Where nothing is selected, that is right if the own type has no config either. -/
theorem resolvesOwn_iff_of_none (hd : ObjectPayloads d)
    (hnone : ∀ job, Store.getJob i d = some job → job.status = .running → baseConfig t d = none)
    (hcall : Store.resolvePayload i t now d = (.ok none, d)) :
    ResolvesOwn i t now d ↔ SameOverlay i t d := by
  constructor
  · intro h job hj hrun
    have hret := h.returned
    rw [hcall] at hret
    rcases ownOverlay_cases hd hj hrun with ⟨hno, -⟩ | ⟨_, _, -, -, hown⟩
    · exact Or.inl ⟨hnone job hj hrun, hno⟩
    · cases (Except.ok.inj hret).trans hown
  · intro h
    refine resolvesOwn_of_none hcall (ownOverlay_of_none fun job hj hrun => ?_)
    rcases h job hj hrun with ⟨-, hno⟩ | ⟨_, _, _, hn, -⟩
    · exact hno
    · cases (hnone job hj hrun).symm.trans hn

/-- Where the row is selected, that is right if the own type's config overlays it alike. -/
theorem resolvesOwn_iff_of_some (hd : ObjectPayloads d) {d' : PostgresStore} {j : Job}
    {named input : Payload} (hj : Store.getJob i d = some j) (hrun : j.status = .running)
    (hnamed : baseConfig t d = some (.object named)) (hin : j.inputPayload = .object input)
    (hcall : Store.resolvePayload i t now d = (.ok (some (.object (input ∪ named))), d'))
    (hjobs : ∀ k, Store.getJob k d' = if k = i then
      some { j with payload := .object (input ∪ named), updatedAt := now }
      else Store.getJob k d)
    (hconfig : d'.jobTypeConfig = d.jobTypeConfig) (hrows : d'.outbox = d.outbox) :
    ResolvesOwn i t now d ↔ SameOverlay i t d := by
  constructor
  · intro h job hj' _
    obtain rfl := Option.some.inj (hj.symm.trans hj')
    have hret := h.returned
    rw [hcall] at hret
    rcases ownOverlay_cases hd hj hrun with ⟨-, hown⟩ | ⟨own, input', hbase, hin', hown⟩
    · cases (Except.ok.inj hret).trans hown
    · obtain rfl := Document.object.inj (hin.symm.trans hin')
      have hunion : input ∪ named = input ∪ own :=
        Document.object.inj (Option.some.inj ((Except.ok.inj hret).trans hown))
      exact Or.inr ⟨named, own, input, hnamed, hbase, hin, union_eq_union_iff.mp hunion⟩
  · intro h
    rcases h j hj hrun with ⟨hn, -⟩ | ⟨named', own, input', hn, hbase, hin', hagree⟩
    · cases hnamed.symm.trans hn
    · obtain rfl := Document.object.inj (Option.some.inj (hnamed.symm.trans hn))
      obtain rfl := Document.object.inj (hin.symm.trans hin')
      have hown : ownOverlay i d = some (.object (input ∪ named)) := by
        rw [ownOverlay_of_base hj hrun hbase hin, union_eq_union_iff.mpr hagree]
      refine resolvesOwn_of_some hcall hown (fun k => ?_) (fun t' => ?_) fun limit => ?_
      · rw [hjobs, hj]
        rfl
      · exact congrArg (fun table : Table configSchema =>
          (table.find? t').map ConfigRow.payload) hconfig
      · show d'.fetchUnpublished limit = d.fetchUnpublished limit
        rw [fetchUnpublished, selectUnpublished, selectUnpublished, hrows]

/-- **`PostgresStore` resolves a run with its own type's config exactly where the config of the
type that is named overlays it alike.** -/
theorem resolvesOwn_iff (hd : ObjectPayloads d) (i : JobId) (t : String) (now : Time) :
    ResolvesOwn i t now d ↔ SameOverlay i t d := by
  rcases resolvePayload_cases i t now d with ⟨r, c, hr, hrun, hc, hcall, hjobs⟩ | ⟨hnone, hcall⟩
  · have hnamed : baseConfig t d = some c.payload := congrArg (Option.map ConfigRow.payload) hc
    have hj : Store.getJob i d = some r.job := getJob_eq_some.mpr ⟨r, hr, rfl⟩
    obtain ⟨named, hobj⟩ := hd.base t c.payload hnamed
    obtain ⟨input, hin⟩ := hd.input i r.job hj
    have hconcat : c.payload.concat r.inputPayload = .object (input ∪ named) := by
      rw [hobj, show r.inputPayload = .object input from hin]
      rfl
    rw [hconcat] at hcall hjobs
    refine resolvesOwn_iff_of_some hd hj hrun (hobj ▸ hnamed) hin
      (congrArg (Prod.map Except.ok id) hcall) (fun k => ?_) rfl rfl
    refine (congrArg (Option.map JobRow.job) (hjobs k)).trans ?_
    split <;> rfl
  · refine resolvesOwn_iff_of_none hd (fun job hj hrun => ?_)
      (congrArg (Prod.map Except.ok id) hcall)
    obtain ⟨r, hr, rfl⟩ := getJob_eq_some.mp hj
    exact congrArg (Option.map ConfigRow.payload) (hnone r hr hrun)

end PostgresStore

/-- **Each store resolves a run with its own type's config, whatever type is named**, and so they
answer alike: exactly where, on the Postgres side, the config that is named overlays it alike. -/
theorem resolves_own_iff [ColumnTypes] {s : InMemoryStore} {d : PostgresStore}
    (hs : ObjectPayloads s) (hd : ObjectPayloads d) (i i' : JobId) (t : String) (now : Time) :
    (ResolvesOwn i t now s ∧ ResolvesOwn i' t now d ∧
      (ownOverlay i s = ownOverlay i' d →
        (Store.resolvePayload i t now s).1 = (Store.resolvePayload i' t now d).1)) ↔
    SameOverlay i' t d := by
  have hmem := InMemoryStore.resolvesOwn hs i t now
  rw [← PostgresStore.resolvesOwn_iff hd i' t now]
  constructor
  · rintro ⟨-, hpg, -⟩
    exact hpg
  · intro hpg
    refine ⟨hmem, hpg, fun hown => ?_⟩
    rw [hmem.returned, hpg.returned, hown]

/-! ### A run of type `hello` -/

attribute [local instance] ColumnTypes.nulFree

def helloBase : Payload :=
  ((∅ : Payload).insert "name" (.text "Ada")).insert "greeting" (.text "hi")

def helloInput : Payload := (∅ : Payload).insert "name" (.text "Eve")

/-- One config, one job whose input overrides a key of it, claimed. -/
def helloCalls : List Call :=
  [.setTypeConfig "hello" defaultRunTimeout 3 (some helloBase),
    .enqueue "hello" (some (.object helloInput)) none 1 1, .claim 1 2]

def helloInMemory : InMemoryStore := helloCalls.foldl (fun s c => (exec s c).2) .empty

def helloPostgres : PostgresStore := helloCalls.foldl (fun d c => (d.exec c).2) ⟨∅, ∅, ∅, 1, 1⟩

theorem objectPayloads_helloInMemory : ObjectPayloads helloInMemory where
  input i job hj := by
    obtain ⟨_, rfl⟩ := Prod.mk.inj (List.mem_singleton.mp (Dict.get?_eq_some.mp hj))
    exact ⟨helloInput, rfl⟩
  base t p hp := by
    obtain ⟨c, -, rfl⟩ := Option.map_eq_some_iff.mp hp
    exact ⟨c.payload, rfl⟩

theorem objectPayloads_helloPostgres : ObjectPayloads helloPostgres where
  input i job hj := by
    obtain ⟨r, hr, rfl⟩ := PostgresStore.getJob_eq_some.mp hj
    obtain ⟨hmem, -⟩ := Table.find?_eq_some.mp hr
    obtain rfl := List.mem_singleton.mp hmem
    exact ⟨helloInput, rfl⟩
  base t p hp := by
    obtain ⟨c, hc, rfl⟩ := Option.map_eq_some_iff.mp hp
    obtain ⟨hmem, -⟩ := Table.find?_eq_some.mp hc
    obtain rfl := List.mem_singleton.mp hmem
    exact ⟨helloBase, rfl⟩

/-- A message that names a type without a config: one store returns the overlay, the other
nothing. -/
theorem resolves_own_other :
    ObjectPayloads helloInMemory ∧ ObjectPayloads helloPostgres ∧
      (Store.resolvePayload 1 "other" 3 helloInMemory).1 =
        .ok (some (.object (helloInput ∪ helloBase))) ∧
      (Store.resolvePayload 1 "other" 3 helloPostgres).1 = .ok none ∧
      ¬ ResolvesOwn 1 "other" 3 helloPostgres := by
  refine ⟨objectPayloads_helloInMemory, objectPayloads_helloPostgres, rfl, rfl, fun h => ?_⟩
  have hret : (Except.ok none : Except TypeError (Option Document)) =
      .ok (some (.object (helloInput ∪ helloBase))) := h.returned
  exact nomatch hret

/-- The message that was published for the run: the name is the input's, the greeting the
config's. -/
theorem resolves_own_hello :
    ResolvesOwn 1 "hello" 3 helloInMemory ∧ ResolvesOwn 1 "hello" 3 helloPostgres ∧
      (Store.resolvePayload 1 "hello" 3 helloPostgres).1 =
        .ok (some (.object (helloBase.insert "name" (.text "Eve")))) := by
  have hsame : SameOverlay 1 "hello" helloPostgres := by
    rintro job hj -
    obtain ⟨r, hr, rfl⟩ := PostgresStore.getJob_eq_some.mp hj
    obtain ⟨hmem, -⟩ := Table.find?_eq_some.mp hr
    obtain rfl := List.mem_singleton.mp hmem
    exact Or.inr ⟨helloBase, helloBase, helloInput, rfl, rfl, rfl, fun _ _ => rfl⟩
  obtain ⟨hmem, hpg, -⟩ := (resolves_own_iff objectPayloads_helloInMemory
    objectPayloads_helloPostgres 1 1 "hello" 3).mpr hsame
  exact ⟨hmem, hpg, by decide⟩

end JobWorkflow
