import JobWorkflow.Common.Db

/-!
# Common/Outbox — what each call does to the `outbox` table

A row is armed when `enqueue` inserts it and when `requeue_stuck` clears its `published_at`; only
`mark_dispatched` sets it.  Nothing else about a row ever changes, so for everybody but the
dispatcher there are two cases (`PostgresStore.row_cases`): an armed row is unpublished, and any
other row is the row it was.
-/

namespace JobWorkflow

/-- The job whose outbox row the call has armed. -/
def arms : Call → Reply → Option JobId
  | .enqueue .., .jobId r => r
  | .requeueStuck i _, .flag true => some i
  | _, _ => none

/-- What the call has made of a row that was there. -/
def reflag (c : Call) (r : Reply) (row : OutboxRow) : OutboxRow :=
  match c with
  | .markDispatched o _ now => if row.id = o then { row with publishedAt := some now } else row
  | _ => if arms c r = some row.jobId then { row with publishedAt := none } else row

theorem reflag_message (c : Call) (r : Reply) (row : OutboxRow) :
    (reflag c r row).message = row.message := by
  unfold reflag
  split <;> split <;> rfl

/-- A call that is not a mark clears the flags of the rows it arms. -/
theorem reflag_of_ne {c : Call} (hc : ∀ o i now, c ≠ .markDispatched o i now) (r : Reply)
    (row : OutboxRow) : reflag c r row =
      if arms c r = some row.jobId then { row with publishedAt := none } else row := by
  cases c with
  | markDispatched o i now => exact absurd rfl (hc o i now)
  | _ => rfl

namespace PostgresStore

variable {d d' : PostgresStore} {c : Call} {r : Reply}

/-- The rows without their flags. -/
def messages (d : PostgresStore) : List OutboxMessage := d.outbox.rows.map OutboxRow.message

/-- **Each row belongs to a job of its own**, which its envelope names, and no identity value is
used twice. -/
structure OutboxSound (d : PostgresStore) : Prop where
  id_lt : ∀ m ∈ d.messages, m.id < d.outboxIdentity
  jobId_lt : ∀ m ∈ d.messages, m.jobId < d.jobIdentity
  envelope : ∀ m ∈ d.messages, m.payload.jobId = m.jobId
  unique : (d.messages.map OutboxMessage.jobId).Nodup

/-- What a call can do to the outbox. -/
inductive OutboxEffect (d : PostgresStore) (c : Call) (r : Reply) (d' : PostgresStore) : Prop
  | kept (hrows : d'.outbox.rows = d.outbox.rows.map (reflag c r))
      (hid : d'.outboxIdentity = d.outboxIdentity) (hjob : d.jobIdentity ≤ d'.jobIdentity)
  | inserted (t : String) (h : arms c r = some d.jobIdentity)
      (hrows : d'.outbox.rows = d.outbox.rows ++
        [⟨d.outboxIdentity, d.jobIdentity, buildEnvelope d.jobIdentity t, none⟩])
      (hid : d'.outboxIdentity = d.outboxIdentity + 1) (hjob : d'.jobIdentity = d.jobIdentity + 1)

/-- A call that neither arms nor marks leaves the table alone. -/
theorem effect_of_same (ha : arms c r = none) (hm : ∀ o i now, c ≠ .markDispatched o i now)
    (hrows : d'.outbox = d.outbox) (hid : d'.outboxIdentity = d.outboxIdentity)
    (hjob : d.jobIdentity ≤ d'.jobIdentity) : OutboxEffect d c r d' := by
  refine .kept ?_ hid hjob
  rw [hrows]
  refine (List.map_id' _).symm.trans (List.map_congr_left fun row _ => ?_)
  rw [reflag_of_ne hm, ha]
  exact (if_neg nofun).symm

theorem markDispatched_rows (d : PostgresStore) (o : OutboxId) (i : JobId) (now : Time) :
    (d.markDispatched o i now).outbox.rows =
      d.outbox.rows.map (reflag (.markDispatched o i now) .unit) :=
  List.map_congr_left fun row _ => by
    rw [Table.after_setWhere, reflag]
    simp only [decide_eq_true_eq]

/-- **Every call has one of these effects.** -/
theorem exec_outbox [ColumnTypes] (h : OutboxSound d) (c : Call) :
    OutboxEffect d c (d.exec c).1 (d.exec c).2 := by
  cases c with
  | enqueue t p cr ca ua =>
    rcases d.exec_enqueue t p cr ca ua with ⟨-, hexec⟩ | ⟨-, hexec⟩
    · rw [hexec]
      exact effect_of_same rfl (by simp) rfl rfl (le_refl _)
    · rw [hexec]
      by_cases hfit : d.jobs.Fits (newRow d.jobIdentity t p (cr.getD .anonymous) ca)
      · obtain ⟨hofit, he⟩ := insertJob_of_fits hfit fun row hrow =>
          h.id_lt row.message (List.mem_map_of_mem hrow)
        rw [he]
        exact .inserted t rfl rfl rfl rfl
      · rw [insertJob_of_not_fits hfit]
        exact effect_of_same rfl (by simp) rfl rfl (Int.lt_succ _).le
  | markDispatched o i now =>
    exact .kept (d.markDispatched_rows o i now) rfl (le_refl _)
  | requeueStuck i now =>
    rw [exec, requeueStuck]
    dsimp only
    split
    · exact effect_of_same rfl (by simp) rfl rfl (le_refl _)
    · refine .kept ?_ rfl (le_refl _)
      refine List.map_congr_left fun row _ => ?_
      rw [Table.after_setWhere, reflag_of_ne (c := .requeueStuck i now) (by simp)]
      simp only [arms, Prod.map, Option.some.injEq, decide_eq_true_eq, eq_comm (a := i)]
  | fetchUnpublished limit =>
    rw [exec_fetchUnpublished]
    exact effect_of_same rfl (by simp) rfl rfl (le_refl _)
  | setTypeConfig t timeout cap p =>
    rcases d.exec_setTypeConfig t timeout cap p with ⟨-, he⟩ | ⟨-, he⟩
    · rw [he]
      exact effect_of_same rfl (by simp) rfl rfl (le_refl _)
    · rw [he]
      exact effect_of_same rfl (by simp) rfl rfl (le_refl _)
  | _ => exact effect_of_same rfl (by simp) rfl rfl (le_refl _)

/-- The rows that were there keep everything but the flag. -/
theorem messages_of_rows {f : OutboxRow → OutboxRow} (hf : ∀ row, (f row).message = row.message)
    (hrows : d'.outbox.rows = d.outbox.rows.map f) : d'.messages = d.messages := by
  rw [messages, hrows, List.map_map]
  exact List.map_congr_left fun row _ => hf row

theorem OutboxEffect.sound (he : OutboxEffect d c r d') (h : OutboxSound d) : OutboxSound d' := by
  cases he with
  | kept hrows hid hjob =>
    have hm := messages_of_rows (reflag_message c r) hrows
    refine ⟨fun m hmem => ?_, fun m hmem => ?_, fun m hmem => ?_, hm ▸ h.unique⟩
    · exact hid ▸ h.id_lt m (hm ▸ hmem)
    · exact (h.jobId_lt m (hm ▸ hmem)).trans_le hjob
    · exact h.envelope m (hm ▸ hmem)
  | inserted t ha hrows hid hjob =>
    have hm : d'.messages = d.messages ++
        [⟨d.outboxIdentity, d.jobIdentity, buildEnvelope d.jobIdentity t⟩] := by
      rw [messages, hrows, List.map_append]
      rfl
    have hmem : ∀ m ∈ d'.messages, m ∈ d.messages ∨
        m = ⟨d.outboxIdentity, d.jobIdentity, buildEnvelope d.jobIdentity t⟩ := fun m hm' =>
      (List.mem_append.mp (hm ▸ hm')).imp_right List.mem_singleton.mp
    refine ⟨fun m hm' => ?_, fun m hm' => ?_, fun m hm' => ?_, ?_⟩
    · rw [hid]
      rcases hmem m hm' with hold | rfl
      · exact (h.id_lt m hold).trans (Int.lt_succ _)
      · exact Int.lt_succ _
    · rw [hjob]
      rcases hmem m hm' with hold | rfl
      · exact (h.jobId_lt m hold).trans (Int.lt_succ _)
      · exact Int.lt_succ _
    · rcases hmem m hm' with hold | rfl
      · exact h.envelope m hold
      · rfl
    · rw [hm, List.map_append, List.nodup_append_comm]
      refine List.nodup_cons.mpr ⟨fun hin => ?_, h.unique⟩
      obtain ⟨m, hm', he⟩ := List.mem_map.mp hin
      exact (h.jobId_lt m hm').ne he

/-- No row is ever deleted. -/
theorem OutboxEffect.messages_subset (he : OutboxEffect d c r d') : d.messages ⊆ d'.messages := by
  cases he with
  | kept hrows hid hjob =>
    exact (messages_of_rows (reflag_message c r) hrows).symm ▸ List.Subset.refl _
  | inserted t ha hrows hid hjob =>
    rw [messages, messages, hrows, List.map_append]
    exact List.subset_append_left _ _

/-- A row that appears is armed. -/
theorem OutboxEffect.mem_messages (he : OutboxEffect d c r d') {m : OutboxMessage}
    (hm : m ∈ d'.messages) : m ∈ d.messages ∨ arms c r = some m.jobId := by
  cases he with
  | kept hrows hid hjob => exact Or.inl (messages_of_rows (reflag_message c r) hrows ▸ hm)
  | inserted t ha hrows hid hjob =>
    rw [messages, hrows, List.map_append] at hm
    rcases List.mem_append.mp hm with hm | hm
    · exact Or.inl hm
    · obtain rfl := List.mem_singleton.mp hm
      exact Or.inr ha

theorem OutboxSound.empty (table : Table configSchema) : OutboxSound ⟨∅, ∅, table, 1, 1⟩ :=
  ⟨nofun, nofun, nofun, List.nodup_nil⟩

/-- **For everybody but the dispatcher**: an armed row is unpublished, and any other is the row it
was. -/
theorem OutboxEffect.row_cases (he : OutboxEffect d c r d') (h : OutboxSound d)
    (hc : ∀ o i now, c ≠ .markDispatched o i now) {row' : OutboxRow}
    (hrow' : row' ∈ d'.outbox.rows) :
    (arms c r = some row'.jobId ∧ row'.publishedAt = none) ∨
      (arms c r ≠ some row'.jobId ∧ row' ∈ d.outbox.rows) := by
  cases he with
  | kept hrows hid hjob =>
    rw [hrows] at hrow'
    obtain ⟨row, hrow, rfl⟩ := List.mem_map.mp hrow'
    rw [reflag_of_ne hc]
    split
    · rename_i ha
      exact Or.inl ⟨ha, rfl⟩
    · rename_i ha
      exact Or.inr ⟨ha, hrow⟩
  | inserted t ha hrows hid hjob =>
    rw [hrows] at hrow'
    rw [ha]
    rcases List.mem_append.mp hrow' with hrow | hrow
    · have hlt : row'.jobId < d.jobIdentity := h.jobId_lt row'.message (List.mem_map_of_mem hrow)
      exact Or.inr ⟨fun he => hlt.ne' (Option.some.inj he), hrow⟩
    · obtain rfl := List.mem_singleton.mp hrow
      exact Or.inl ⟨rfl, rfl⟩

/-- Two rows with one envelope are one. -/
theorem OutboxSound.message_eq (h : OutboxSound d) {m m' : OutboxMessage} (hm : m ∈ d.messages)
    (hm' : m' ∈ d.messages) (he : m.payload = m'.payload) : m = m' := by
  refine List.inj_on_of_nodup_map h.unique hm hm' ?_
  rw [← h.envelope m hm, ← h.envelope m' hm', he]

/-- Two rows of one job are one row. -/
theorem OutboxSound.row_eq (h : OutboxSound d) {row row' : OutboxRow} (hrow : row ∈ d.outbox.rows)
    (hrow' : row' ∈ d.outbox.rows) (he : row.jobId = row'.jobId) : row = row' := by
  have hnd := h.unique
  rw [messages, List.map_map] at hnd
  exact List.inj_on_of_nodup_map hnd hrow hrow' he

/-! ## Fetching and marking -/

variable {locked : OutboxId → Bool} {limit : ℤ} {ms : List OutboxMessage}

/-- A fetch returns unpublished rows that nobody else has locked. -/
theorem mem_selectUnpublished (hms : d.selectUnpublished locked limit = .ok ms)
    {m : OutboxMessage} (hm : m ∈ ms) :
    ∃ row ∈ d.outbox.rows, row.publishedAt = none ∧ locked row.id = false ∧ row.message = m := by
  rw [selectUnpublished] at hms
  split at hms
  · exact nomatch hms
  · obtain rfl := Except.ok.inj hms
    obtain ⟨row, hrow, rfl⟩ := List.mem_map.mp hm
    have hsel := (List.mem_insertionSort _).mp (List.mem_of_mem_take hrow)
    obtain ⟨hmem, hflags⟩ := List.mem_filter.mp hsel
    obtain ⟨hnone, hfree⟩ := Bool.and_eq_true_iff.mp hflags
    exact ⟨row, hmem, Option.isNone_iff_eq_none.mp hnone, by simpa using hfree, rfl⟩

/-- A row with the id of a fetched message was fetched. -/
theorem message_mem_of_id (hms : d.selectUnpublished locked limit = .ok ms) {row : OutboxRow}
    (hrow : row ∈ d.outbox.rows) (hid : row.id ∈ ms.map OutboxMessage.id) : row.message ∈ ms := by
  obtain ⟨m, hm, he⟩ := List.mem_map.mp hid
  obtain ⟨row₀, hrow₀, -, -, rfl⟩ := mem_selectUnpublished hms hm
  rwa [← List.inj_on_of_nodup_map d.outbox.nodup_key hrow₀ hrow he]

/-- No two of the rows it returns belong to one job. -/
theorem nodup_selectUnpublished (h : OutboxSound d)
    (hms : d.selectUnpublished locked limit = .ok ms) : (ms.map OutboxMessage.jobId).Nodup := by
  rw [selectUnpublished] at hms
  split at hms
  · exact nomatch hms
  · obtain rfl := Except.ok.inj hms
    have hnd : (d.outbox.rows.map OutboxRow.jobId).Nodup := by
      have hunique := h.unique
      rwa [messages, List.map_map] at hunique
    rw [List.map_map]
    refine ((List.take_sublist _ _).map _).nodup ?_
    refine ((List.perm_insertionSort _ _).map _).nodup_iff.mpr ?_
    exact (List.filter_sublist.map OutboxRow.jobId).nodup hnd

/-- The same row, published if it was or if it is one of those marked. -/
structure MarkedRow (marked : List OutboxId) (row row' : OutboxRow) : Prop where
  message : row'.message = row.message
  published : row'.publishedAt.isSome = true ↔ row.publishedAt.isSome = true ∨ row.id ∈ marked

theorem MarkedRow.jobId {marked : List OutboxId} {row row' : OutboxRow}
    (h : MarkedRow marked row row') : row'.jobId = row.jobId :=
  congrArg OutboxMessage.jobId h.message

theorem markedRow_reflag (o : OutboxId) (i : JobId) (now : Time) (row : OutboxRow) :
    MarkedRow [o] row (reflag (.markDispatched o i now) .unit row) := by
  refine ⟨reflag_message _ _ row, ?_⟩
  rw [reflag, List.mem_singleton]
  split
  · rename_i ho
    exact iff_of_true rfl (Or.inr ho)
  · rename_i ho
    exact (or_iff_left ho).symm

end PostgresStore

end JobWorkflow
