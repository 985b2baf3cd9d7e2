import JobWorkflow.Common.Outbox
import JobWorkflow.Common.Resolution

/-!
# Common/Rows — every sequence of calls on `PostgresStore`, row by row

The results of `Common/Lifecycle` and `Common/Correspondence` for the SQL: calls come in any order
with arbitrary arguments, ids that no row has and types that no row names included, and the tables
start empty but for the configuration.

* `postgres_one_active_per_type` — the partial unique index is the dedup rule, and ids only grow.
* `postgres_history` — each statement moves a row along an edge of the lifecycle, and the rows are
  the history.
* `postgres_outbox` — each job has one outbox row, which points to it, whatever is marked.
-/

namespace JobWorkflow

/-! ## What one call can do to a row -/

/-- **What one call can do to a row of `jobs`.** -/
inductive RowMove : Call → JobRow → JobRow → Prop
  | stay {c r} : RowMove c r r
  | dispatch {r : JobRow} {o now} (h : r.status = .queued) :
      RowMove (.markDispatched o r.id now) r { r with status := .dispatched, updatedAt := now }
  | claim {r : JobRow} {now} (h : r.status ∈ [JobStatus.queued, .dispatched]) :
      RowMove (.claim r.id now) r { r with status := .running, updatedAt := now }
  | resolve {r : JobRow} {t p now} (h : r.status = .running) :
      RowMove (.resolvePayload r.id t now) r { r with payload := p, updatedAt := now }
  | complete {r : JobRow} {now} (h : r.status = .running) :
      RowMove (.complete r.id now) r { r with status := .completed, updatedAt := now }
  | fail {r : JobRow} {now} (h : r.status = .running) :
      RowMove (.fail r.id now) r { r with status := .failed, updatedAt := now }
  | requeue {r : JobRow} {now} (h : r.status = .running) :
      RowMove (.requeueStuck r.id now) r
        { r with status := .queued, attempts := r.attempts + 1, updatedAt := now }
  | deadLetter {r : JobRow} {now} (h : r.status = .running) :
      RowMove (.deadLetter r.id now) r { r with status := .failed, updatedAt := now }

namespace RowMove

variable {c : Call} {r r' : JobRow}

theorem id_eq (h : RowMove c r r') : r'.id = r.id := by
  cases h <;> rfl

theorem jobType_eq (h : RowMove c r r') : r'.jobType = r.jobType := by
  cases h <;> rfl

theorem sameRun (h : RowMove c r r') : SameRun r.job r'.job := by
  cases h <;> exact ⟨rfl, rfl, rfl, rfl, rfl⟩

theorem edge (h : RowMove c r r') : r'.status = r.status ∨ Edge r.status r'.status := by
  cases h with
  | stay => exact Or.inl rfl
  | dispatch h => rw [h]; exact Or.inr .dispatch
  | claim h =>
    rcases List.mem_pair.mp h with h | h
    · rw [h]; exact Or.inr .claimQueued
    · rw [h]; exact Or.inr .claimDispatched
  | resolve h => exact Or.inl rfl
  | complete h => rw [h]; exact Or.inr .complete
  | fail h | deadLetter h => rw [h]; exact Or.inr .fail
  | requeue h => rw [h]; exact Or.inr .requeue

theorem attempts_eq (h : RowMove c r r') : r'.attempts =
    if r.status = .running ∧ r'.status = .queued then r.attempts + 1 else r.attempts := by
  cases h with
  | stay => rw [if_neg fun hs => nomatch hs.1.symm.trans hs.2]
  | resolve h => rw [if_neg fun hs => nomatch hs.1.symm.trans hs.2]
  | requeue h => rw [if_pos ⟨h, rfl⟩]
  | _ => exact (if_neg fun hs => nomatch hs.2).symm

/-- A finished run is not touched again. -/
theorem eq_of_terminal (h : RowMove c r r') (ht : r.status ∈ JobStatus.terminal) : r' = r := by
  cases h with
  | stay => rfl
  | claim h =>
    rcases List.mem_pair.mp h with h | h
    · rw [h] at ht; exact absurd ht (by decide)
    · rw [h] at ht; exact absurd ht (by decide)
  | dispatch h | resolve h | complete h | fail h | requeue h | deadLetter h =>
    rw [h] at ht; exact absurd ht (by decide)

/-- Rows that an `UPDATE` selects move, and the others stay. -/
theorem of_setWhere {p : JobRow → Bool} {f : JobRow → JobRow}
    (h : ∀ r, p r = true → RowMove c r (f r)) (r : JobRow) :
    RowMove c r (Table.after (Table.setWhere p f) r) := by
  rw [Table.after_setWhere]
  split
  · exact h r ‹_›
  · exact .stay

end RowMove

namespace PostgresStore

section Columns

variable [ColumnTypes] {d d' : PostgresStore} {c : Call} {i : JobId}

/-- What a call can do to `jobs`: each row moves where it stands, or one is inserted. -/
inductive JobsEffect (d : PostgresStore) (c : Call) (d' : PostgresStore) : Prop
  | moved (g : JobRow → JobRow) (hrows : d'.jobs.rows = d.jobs.rows.map g)
      (hmove : ∀ r, RowMove c r (g r)) (hid : d.jobIdentity ≤ d'.jobIdentity)
  | inserted {t : String} {p : Option Document} {cr : Option Creator} {ca ua : Time}
      (hc : c = .enqueue t p cr ca ua)
      (hrows : d'.jobs.rows =
        d.jobs.rows ++ [newRow d.jobIdentity t p (cr.getD .anonymous) ca])

/-- No row moves. -/
theorem jobsEffect_of_eq (h : d'.jobs = d.jobs) (hid : d.jobIdentity ≤ d'.jobIdentity) :
    JobsEffect d c d' :=
  .moved id (by rw [h, List.map_id]) (fun _ => .stay) hid

/-- **Every call has one of these effects.** -/
theorem exec_jobs (c : Call) (d : PostgresStore) : JobsEffect d c (d.exec c).2 := by
  cases c with
  | enqueue t p cr ca ua =>
    rcases d.exec_enqueue t p cr ca ua with ⟨-, he⟩ | ⟨-, he⟩
    · rw [he]
      exact jobsEffect_of_eq rfl (le_refl _)
    · rw [he, insertJob]
      dsimp only
      by_cases hfit : d.jobs.Fits (newRow d.jobIdentity t p (cr.getD .anonymous) ca)
      · rw [Table.insert_of_fits hfit]
        exact .inserted rfl rfl
      · rw [Table.insert_of_not_fits hfit]
        exact jobsEffect_of_eq rfl (Int.lt_succ _).le
  | fetchUnpublished limit =>
    rw [exec_fetchUnpublished]
    exact jobsEffect_of_eq rfl (le_refl _)
  | markDispatched o i now =>
    refine .moved _ rfl (.of_setWhere fun r hr => ?_) (le_refl _)
    obtain ⟨rfl, hq⟩ := of_decide_eq_true hr
    exact .dispatch hq
  | claim i now =>
    refine .moved _ rfl (.of_setWhere fun r hr => ?_) (le_refl _)
    obtain ⟨rfl, hw⟩ := of_decide_eq_true hr
    exact .claim hw
  | resolvePayload i t now =>
    refine .moved _ rfl (fun r => ?_) (le_refl _)
    rw [Table.after]
    cases hc : d.jobTypeConfig.rows.find? fun c =>
        r.id = i ∧ c.jobType = t ∧ r.status = .running with
    | none => exact .stay
    | some c =>
      have hsel : r.id = i ∧ c.jobType = t ∧ r.status = .running := by
        simpa using List.find?_some hc
      obtain ⟨rfl, -, hrun⟩ := hsel
      exact .resolve hrun
  | complete i now =>
    refine .moved _ rfl (.of_setWhere fun r hr => ?_) (le_refl _)
    obtain ⟨rfl, hrun⟩ := of_decide_eq_true hr
    exact .complete (List.mem_singleton.mp hrun)
  | fail i now =>
    refine .moved _ rfl (.of_setWhere fun r hr => ?_) (le_refl _)
    obtain ⟨rfl, hrun⟩ := of_decide_eq_true hr
    exact .fail (List.mem_singleton.mp hrun)
  | deadLetter i now =>
    refine .moved _ rfl (.of_setWhere fun r hr => ?_) (le_refl _)
    obtain ⟨rfl, hrun⟩ := of_decide_eq_true hr
    exact .deadLetter (List.mem_singleton.mp hrun)
  | findStuck now | getJob i => exact jobsEffect_of_eq rfl (le_refl _)
  | setTypeConfig t timeout cap p =>
    rcases d.exec_setTypeConfig t timeout cap p with ⟨-, he⟩ | ⟨-, he⟩
    · rw [he]
      exact jobsEffect_of_eq rfl (le_refl _)
    · rw [he]
      exact jobsEffect_of_eq rfl (le_refl _)
  | requeueStuck i now =>
    refine .moved _ (d.requeueStuck_rows i now) (.of_setWhere fun r hr => ?_)
      (d.requeueStuck_jobIdentity i now).ge
    obtain ⟨rfl, hrun, -⟩ := of_decide_eq_true hr
    exact .requeue hrun

/-- What becomes of a row. -/
theorem JobsEffect.row (h : JobsEffect d c d') {r : JobRow} (hr : d.jobs.find? i = some r) :
    ∃ r', d'.jobs.find? i = some r' ∧ RowMove c r r' := by
  obtain ⟨hmem, hkey⟩ := Table.find?_eq_some.mp hr
  cases h with
  | moved g hrows hmove hid =>
    refine ⟨g r, Table.find?_eq_some.mpr ⟨?_, (hmove r).id_eq.trans hkey⟩, hmove r⟩
    rw [hrows]
    exact List.mem_map_of_mem hmem
  | inserted hc hrows =>
    refine ⟨r, Table.find?_eq_some.mpr ⟨?_, hkey⟩, .stay⟩
    rw [hrows]
    exact List.mem_append_left _ hmem

/-- A row that was not there is queued, and was never tried. -/
theorem JobsEffect.new_row (h : JobsEffect d c d') (hn : d.jobs.find? i = none) {r' : JobRow}
    (hr' : d'.jobs.find? i = some r') : r'.status = .queued ∧ r'.attempts = 0 := by
  obtain ⟨hmem, hkey⟩ := Table.find?_eq_some.mp hr'
  cases h with
  | moved g hrows hmove hid =>
    rw [hrows] at hmem
    obtain ⟨r, hr, rfl⟩ := List.mem_map.mp hmem
    have hfind : d.jobs.find? i = some r :=
      Table.find?_eq_some.mpr ⟨hr, (hmove r).id_eq.symm.trans hkey⟩
    exact nomatch hn.symm.trans hfind
  | inserted hc hrows =>
    rw [hrows] at hmem
    rcases List.mem_append.mp hmem with hold | hnew
    · exact nomatch hn.symm.trans (Table.find?_eq_some.mpr ⟨hold, hkey⟩)
    · obtain rfl := List.mem_singleton.mp hnew
      exact ⟨rfl, rfl⟩

/-! ## What holds of the tables after any calls -/

def step (d : PostgresStore) (c : Call) : Option PostgresStore := some (d.exec c).2

/-- The tables as the migrations leave them, with any configuration. -/
def migrated (config : Table configSchema) : PostgresStore := ⟨∅, ∅, config, 1, 1⟩

/-- **Jobs and outbox rows belong to each other**, and no identity value is used twice. -/
structure Paired (d : PostgresStore) : Prop where
  outbox : OutboxSound d
  id_lt : ∀ r ∈ d.jobs.rows, r.id < d.jobIdentity
  row_job : ∀ m ∈ d.messages, ∃ r ∈ d.jobs.rows, r.id = m.jobId ∧
    m.payload = buildEnvelope r.id r.jobType
  job_row : ∀ r ∈ d.jobs.rows, ∃ m ∈ d.messages, m.jobId = r.id

omit [ColumnTypes] in
theorem Paired.migrated (config : Table configSchema) : Paired (migrated config) :=
  ⟨.empty config, fun _ h => (nomatch h), fun _ h => (nomatch h), fun _ h => (nomatch h)⟩

/-- Only an enqueue adds to the outbox. -/
theorem messages_exec (hc : ∀ t p cr ca ua, c ≠ .enqueue t p cr ca ua) (d : PostgresStore) :
    (d.exec c).2.messages = d.messages := by
  cases c with
  | enqueue t p cr ca ua => exact absurd rfl (hc t p cr ca ua)
  | fetchUnpublished limit => rw [exec_fetchUnpublished]
  | markDispatched o i now =>
    exact messages_of_rows (reflag_message _ _) (d.markDispatched_rows o i now)
  | requeueStuck i now =>
    rw [exec, requeueStuck]
    dsimp only
    split
    · rfl
    · refine messages_of_rows (f := Table.after (Table.setWhere (fun r => r.jobId = i)
        fun r => { r with publishedAt := none })) (fun row => ?_) rfl
      rw [Table.after_setWhere]
      split <;> rfl
  | setTypeConfig t timeout cap p =>
    rw [exec]
    split <;> rfl
  | _ => rfl

theorem Paired.enqueue (h : Paired d) (t : String) (p : Option Document) (cr : Option Creator)
    (ca ua : Time) : Paired (d.exec (.enqueue t p cr ca ua)).2 := by
  have hout := (exec_outbox h.outbox (.enqueue t p cr ca ua)).sound h.outbox
  rcases d.exec_enqueue t p cr ca ua with ⟨-, hexec⟩ | ⟨-, hexec⟩
  · rw [hexec]
    exact h
  rw [hexec] at hout ⊢
  by_cases hfit : d.jobs.Fits (newRow d.jobIdentity t p (cr.getD .anonymous) ca)
  · obtain ⟨hofit, he⟩ := insertJob_of_fits hfit fun row hrow =>
      h.outbox.id_lt row.message (List.mem_map_of_mem hrow)
    rw [he] at hout ⊢
    -- one row more in each table, for one job
    have hmessages : ∀ {m : OutboxMessage}, m ∈ (d.outbox.append _ hofit).rows.map
        OutboxRow.message ↔ m ∈ d.messages ∨
          m = ⟨d.outboxIdentity, d.jobIdentity, buildEnvelope d.jobIdentity t⟩ := by
      intro m
      rw [Table.append, List.map_append, List.mem_append]
      exact or_congr_right List.mem_singleton
    have hjobs : ∀ {r : JobRow}, r ∈ (d.jobs.append _ hfit).rows ↔ r ∈ d.jobs.rows ∨
        r = newRow d.jobIdentity t p (cr.getD .anonymous) ca := by
      intro r
      rw [Table.append, List.mem_append]
      exact or_congr_right List.mem_singleton
    refine ⟨hout, fun r hr => ?_, fun m hm => ?_, fun r hr => ?_⟩
    · rcases hjobs.mp hr with hr | rfl
      · exact (h.id_lt r hr).trans (Int.lt_succ _)
      · exact Int.lt_succ _
    · rcases hmessages.mp hm with hm | rfl
      · obtain ⟨r, hr, hid⟩ := h.row_job m hm
        exact ⟨r, hjobs.mpr (Or.inl hr), hid⟩
      · exact ⟨_, hjobs.mpr (Or.inr rfl), rfl, rfl⟩
    · rcases hjobs.mp hr with hr | rfl
      · obtain ⟨m, hm, hid⟩ := h.job_row r hr
        exact ⟨m, hmessages.mpr (Or.inl hm), hid⟩
      · exact ⟨_, hmessages.mpr (Or.inr rfl), rfl⟩
  · rw [insertJob_of_not_fits hfit] at hout ⊢
    exact ⟨hout, fun r hr => (h.id_lt r hr).trans (Int.lt_succ _), h.row_job, h.job_row⟩

theorem Paired.exec (h : Paired d) (c : Call) : Paired (d.exec c).2 := by
  by_cases hc : ∃ t p cr ca ua, c = .enqueue t p cr ca ua
  · obtain ⟨t, p, cr, ca, ua, rfl⟩ := hc
    exact h.enqueue t p cr ca ua
  · have hne : ∀ t p cr ca ua, c ≠ .enqueue t p cr ca ua := fun t p cr ca ua he =>
      hc ⟨t, p, cr, ca, ua, he⟩
    have hmessages := messages_exec hne d
    have hout := (exec_outbox h.outbox c).sound h.outbox
    cases exec_jobs c d with
    | moved g hrows hmove hid =>
      refine ⟨hout, fun r hr => ?_, fun m hm => ?_, fun r hr => ?_⟩
      · obtain ⟨r₀, hr₀, rfl⟩ := List.mem_map.mp (hrows ▸ hr)
        rw [(hmove r₀).id_eq]
        exact (h.id_lt r₀ hr₀).trans_le hid
      · obtain ⟨r, hr, hjob, hp⟩ := h.row_job m (hmessages ▸ hm)
        refine ⟨g r, hrows ▸ List.mem_map_of_mem hr, (hmove r).id_eq.trans hjob, ?_⟩
        rw [(hmove r).id_eq, (hmove r).jobType_eq, hp]
      · obtain ⟨r₀, hr₀, rfl⟩ := List.mem_map.mp (hrows ▸ hr)
        rw [(hmove r₀).id_eq, hmessages]
        exact h.job_row r₀ hr₀
    | inserted hc _ => exact (hne _ _ _ _ _ hc).elim

theorem paired {config : Table configSchema} (h : Runs.Reachable step (migrated config) d) :
    Paired d :=
  h.invariant (.migrated config) fun _ c _ hd hc => Option.some.inj hc ▸ hd.exec c

/-! ## The dedup rule -/

/-- The new row fits unless a row of the type is active. -/
theorem fits_iff (h : Paired d) {t : String} {p : Option Document} {cr : Creator} {now : Time} :
    d.jobs.Fits (newRow d.jobIdentity t p cr now) ↔
      ∀ r ∈ d.jobs.rows, r.jobType = t → r.status ∉ JobStatus.active := by
  have hkey : d.jobIdentity ∉ d.jobs.rows.map JobRow.id := fun hmem => by
    obtain ⟨r, hr, hid⟩ := List.mem_map.mp hmem
    exact (h.id_lt r hr).ne hid
  have hindex : ∀ r : JobRow, jobsSchema.index r = some t ↔
      r.status ∈ JobStatus.active ∧ r.jobType = t := fun r =>
    Option.ite_none_right_eq_some.trans (and_congr_right fun _ => Option.some_inj)
  constructor
  · rintro ⟨-, hfit⟩ r hr rfl ha
    exact hfit r.jobType ((hindex _).mpr ⟨List.mem_cons_self, rfl⟩)
      (List.mem_filterMap.mpr ⟨r, hr, (hindex r).mpr ⟨ha, rfl⟩⟩)
  · refine fun hno => ⟨hkey, fun v hv hmem => ?_⟩
    obtain ⟨r, hr, hi⟩ := List.mem_filterMap.mp hmem
    obtain rfl : t = v := Option.some.inj hv
    obtain ⟨ha, ht⟩ := (hindex r).mp hi
    exact hno r hr ht ha

/-- **At most one row of each type is active**.  An `enqueue` whose values the columns do not take
raises and changes nothing; any other refuses exactly when a row of its type is active, and then
only consumes an identity value, and otherwise its row is queued under an id above every id in
use. -/
theorem postgres_one_active_per_type {config : Table configSchema}
    (h : Runs.Reachable step (migrated config) d) :
    (∀ r₁ ∈ d.jobs.rows, ∀ r₂ ∈ d.jobs.rows, r₁.jobType = r₂.jobType →
      r₁.status ∈ JobStatus.active → r₂.status ∈ JobStatus.active → r₁ = r₂) ∧
    ∀ t p cr now,
      (takes t p cr = false → d.enqueue t p cr now = (.error .dataError, d)) ∧
      (takes t p cr = true →
        ((d.enqueue t p cr now).1 = .ok none ↔
          ∃ r ∈ d.jobs.rows, r.jobType = t ∧ r.status ∈ JobStatus.active) ∧
        ((d.enqueue t p cr now).1 = .ok none →
          (d.enqueue t p cr now).2 = { d with jobIdentity := d.jobIdentity + 1 }) ∧
        ((d.enqueue t p cr now).1 ≠ .ok none → ∃ i, (d.enqueue t p cr now).1 = .ok (some i) ∧
          (∀ r ∈ d.jobs.rows, r.id < i) ∧ (d.enqueue t p cr now).2.jobs.rows =
            d.jobs.rows ++ [newRow i t p (cr.getD .anonymous) now])) := by
  have hs := paired h
  refine ⟨fun r₁ h₁ r₂ h₂ ht ha₁ ha₂ => ?_, fun t p cr now => ⟨enqueue_of_not_takes, fun hk => ?_⟩⟩
  · have hindex : ∀ {r : JobRow}, r.status ∈ JobStatus.active →
        jobsSchema.index r = some r.jobType := fun ha => if_pos ha
    exact Table.eq_of_index h₁ h₂ (hindex ha₁) (ht ▸ hindex ha₂)
  · rw [enqueue_of_takes hk]
    by_cases hfit : d.jobs.Fits (newRow d.jobIdentity t p (cr.getD .anonymous) now)
    · obtain ⟨hofit, he⟩ := insertJob_of_fits hfit fun row hrow =>
        hs.outbox.id_lt row.message (List.mem_map_of_mem hrow)
      rw [he]
      refine ⟨⟨fun hn => (nomatch hn), ?_⟩, fun hn => (nomatch hn), fun _ => ?_⟩
      · rintro ⟨r, hr, ht, ha⟩
        exact absurd ha ((fits_iff hs).mp hfit r hr ht)
      · exact ⟨d.jobIdentity, rfl, hs.id_lt, rfl⟩
    · rw [insertJob_of_not_fits hfit]
      refine ⟨⟨fun _ => ?_, fun _ => rfl⟩, fun _ => rfl, fun hi => absurd rfl hi⟩
      by_contra hno
      refine hfit ((fits_iff hs).mpr fun r hr ht ha => hno ⟨r, hr, ht, ha⟩)

/-- The tables after the calls. -/
def afterCalls (d : PostgresStore) (calls : List Call) : PostgresStore :=
  calls.foldl (fun d c => (d.exec c).2) d

theorem reachable_afterCalls (d : PostgresStore) (calls : List Call) :
    Runs.Reachable step d (d.afterCalls calls) := by
  refine ⟨calls, ?_⟩
  induction calls generalizing d with
  | nil => rfl
  | cons c calls ih => exact ih (d.exec c).2

end Columns

section Samples

attribute [local instance] ColumnTypes.nulFree

/-- The refused enqueue leaves a gap in the ids, and one with a NUL in its type does not. -/
theorem postgres_one_active_per_type_gap :
    let d := (migrated ∅).afterCalls [.enqueue "hello" none none 0 0,
      .enqueue "hello" none none 1 1, .enqueue "\x00" none none 1 1, .claim 1 2, .complete 1 3]
    (d.enqueue "hello" none none 4).1 = .ok (some 3) ∧ ∀ r ∈ d.jobs.rows, r.id < 3 := by
  intro d
  have he : (d.enqueue "hello" none none 4).1 = .ok (some 3) := rfl
  have h := postgres_one_active_per_type (reachable_afterCalls (migrated ∅)
    [.enqueue "hello" none none 0 0, .enqueue "hello" none none 1 1,
      .enqueue "\x00" none none 1 1, .claim 1 2, .complete 1 3])
  obtain ⟨-, -, hnew⟩ := (h.2 "hello" none none 4).2 (by decide)
  obtain ⟨i, hi, hlt, -⟩ := hnew (by rw [he]; simp)
  obtain rfl : 3 = i := Option.some.inj (Except.ok.inj (he.symm.trans hi))
  exact ⟨he, hlt⟩

end Samples

/-! ## The history -/

section Columns

variable [ColumnTypes] {d : PostgresStore}

/-- **The rows are the history**: each call moves a row along an edge of the lifecycle and counts
its re-queues in `attempts`, a new row starts queued with no attempts, and over any further calls no
row is removed, what identifies it never changes, and a terminal row keeps every field. -/
theorem postgres_history (d : PostgresStore) :
    (∀ c i r, d.jobs.find? i = some r → ∃ r', (d.exec c).2.jobs.find? i = some r' ∧
      (r'.status = r.status ∨ Edge r.status r'.status) ∧
      r'.attempts =
        if r.status = .running ∧ r'.status = .queued then r.attempts + 1 else r.attempts) ∧
    (∀ c i r', d.jobs.find? i = none → (d.exec c).2.jobs.find? i = some r' →
      r'.status = .queued ∧ r'.attempts = 0) ∧
    ∀ d', Runs.Reachable step d d' → ∀ i r, d.jobs.find? i = some r →
      ∃ r', d'.jobs.find? i = some r' ∧ SameRun r.job r'.job ∧
        (r.status ∈ JobStatus.terminal → r' = r) := by
  refine ⟨fun c i r hr => ?_, fun c i r' hn hr' => (exec_jobs c d).new_row hn hr',
    fun d' hd' i r hr => ?_⟩
  · obtain ⟨r', hr', hm⟩ := (exec_jobs c d).row hr
    exact ⟨r', hr', hm.edge, hm.attempts_eq⟩
  · refine hd'.invariant (I := fun d' => ∃ r', d'.jobs.find? i = some r' ∧ SameRun r.job r'.job ∧
      (r.status ∈ JobStatus.terminal → r' = r)) ⟨r, hr, .refl r.job, fun _ => rfl⟩ ?_
    rintro d₁ c d₂ ⟨r₁, hr₁, hsame, hfix⟩ hc
    obtain rfl := Option.some.inj hc
    obtain ⟨r₂, hr₂, hm⟩ := (exec_jobs c d₁).row hr₁
    refine ⟨r₂, hr₂, hsame.trans hm.sameRun, fun ht => ?_⟩
    obtain rfl := hfix ht
    exact hm.eq_of_terminal ht

end Columns

section Samples

attribute [local instance] ColumnTypes.nulFree

/-- A run that failed keeps its row under a late `resolve_payload` and a late claim. -/
theorem postgres_history_failed_run :
    let d := (migrated ∅).afterCalls [.enqueue "boom" none none 0 0, .claim 1 1, .fail 1 2]
    ∃ r, d.jobs.find? 1 = some r ∧ r.status = .failed ∧
      (d.afterCalls [.resolvePayload 1 "boom" 3, .claim 1 4]).jobs.find? 1 = some r := by
  intro d
  obtain ⟨r, hr, hst⟩ : ∃ r, d.jobs.find? 1 = some r ∧ r.status = .failed := ⟨_, rfl, rfl⟩
  obtain ⟨r', hr', -, hfix⟩ := (postgres_history d).2.2 _
    (reachable_afterCalls d [.resolvePayload 1 "boom" 3, .claim 1 4]) 1 r hr
  exact ⟨r, hr, hst, hfix (by rw [hst]; decide) ▸ hr'⟩

end Samples

/-! ## The outbox -/

section Columns

variable [ColumnTypes] {d : PostgresStore}

/-- **Jobs and outbox rows correspond**: each job has exactly one row, each row is of a job, whose
id and type are its envelope, and so is whatever a fetch returns, no job twice. -/
theorem postgres_outbox {config : Table configSchema}
    (h : Runs.Reachable step (migrated config) d) :
    (∀ r ∈ d.jobs.rows, ∃! row, row ∈ d.outbox.rows ∧ row.jobId = r.id) ∧
    (∀ row ∈ d.outbox.rows, ∃ r, d.jobs.find? row.jobId = some r ∧
      row.payload = buildEnvelope r.id r.jobType) ∧
    ∀ locked limit ms, d.selectUnpublished locked limit = .ok ms →
      (ms.map OutboxMessage.jobId).Nodup ∧ ∀ m ∈ ms, ∃ r, d.jobs.find? m.jobId = some r ∧
        m.payload = buildEnvelope r.id r.jobType := by
  have hs := paired h
  have hrow : ∀ row ∈ d.outbox.rows, ∃ r, d.jobs.find? row.jobId = some r ∧
      row.payload = buildEnvelope r.id r.jobType := by
    intro row hrow
    obtain ⟨r, hr, hid, hp⟩ := hs.row_job row.message (List.mem_map_of_mem hrow)
    exact ⟨r, Table.find?_eq_some.mpr ⟨hr, hid⟩, hp⟩
  refine ⟨fun r hr => ?_, hrow, fun locked limit ms hms =>
    ⟨nodup_selectUnpublished hs.outbox hms, fun m hm => ?_⟩⟩
  · obtain ⟨m, hm, hid⟩ := hs.job_row r hr
    obtain ⟨row, hmem, rfl⟩ := List.mem_map.mp hm
    exact ⟨row, ⟨hmem, hid⟩, fun row' hrow' =>
      hs.outbox.row_eq hrow'.1 hmem (hrow'.2.trans hid.symm)⟩
  · obtain ⟨row, hmem, -, -, rfl⟩ := mem_selectUnpublished hms hm
    exact hrow row hmem

end Columns

attribute [local instance] ColumnTypes.nulFree

/-- A mark of one row that names the job of another. -/
theorem postgres_outbox_mismarked :
    ∃! row, row ∈ ((migrated ∅).afterCalls [.enqueue "a" none none 0 0, .enqueue "b" none none 1 1,
      .markDispatched 1 2 2]).outbox.rows ∧ row.jobId = 2 := by
  have h := (postgres_outbox (reachable_afterCalls (migrated ∅) [.enqueue "a" none none 0 0,
    .enqueue "b" none none 1 1, .markDispatched 1 2 2])).1
  exact h _ (List.mem_cons_of_mem _ List.mem_cons_self)

end PostgresStore

end JobWorkflow
