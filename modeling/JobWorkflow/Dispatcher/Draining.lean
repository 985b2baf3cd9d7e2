import JobWorkflow.Common.Correspondence
import JobWorkflow.Dispatcher.Delivery
import JobWorkflow.Machinery.Exchange

/-!
# Dispatcher/Draining — `dispatch_once` called again and again, with a producer that may raise

With nothing interleaved, the calls work through one list, the unpublished rows in the order of
their ids: each call publishes and marks a first part of it and leaves the rest, wherever `publish`
raises (`dispatchOnce_called`).  So a sequence of calls loses and repeats nothing, and the loop of
`dispatcher/__main__.py`, left alone with a producer that does not raise, empties the list
(`dispatch_drains`).
-/

namespace JobWorkflow

namespace InMemoryStore

variable {s s' s'' : InMemoryStore} {m : OutboxMessage} {rows : List OutboxMessage}

/-! ## The rows that wait -/

/-- The unpublished rows, in the order of their ids. -/
def unpublished (s : InMemoryStore) : List OutboxMessage :=
  ((s.outbox.items.insertionSort fun a b => a.1 ≤ b.1).filter
    fun e => e.1 ∉ s.published).map Prod.snd

theorem fetchUnpublished_of_nonneg {limit : ℤ} (h : 0 ≤ limit) (s : InMemoryStore) :
    s.fetchUnpublished limit = s.unpublished.take limit.toNat :=
  if_pos h

/-- **Each outbox row belongs to a job of its own**, which its envelope names, and the id counters
are past all of them. -/
structure RowsKeyed (s : InMemoryStore) : Prop where
  id_eq : ∀ o m, s.outbox.get? o = some m → m.id = o
  lt_next : ∀ o m, s.outbox.get? o = some m → o < s.nextOutboxId
  job : ∀ o m, s.outbox.get? o = some m →
    ∃ j, s.getJob m.jobId = some j ∧ m.payload = buildEnvelope m.jobId j.jobType
  unique : ∀ o o' m m', s.outbox.get? o = some m → s.outbox.get? o' = some m' →
    m.jobId = m'.jobId → o = o'

theorem rowsKeyed_start (cfg : Dict String TypeConfig) :
    RowsKeyed { InMemoryStore.empty with typeConfig := cfg } where
  id_eq _ _ h := nomatch h
  lt_next _ _ h := nomatch h
  job _ _ h := nomatch h
  unique _ _ _ _ h := nomatch h

/-- A call that adds no row. -/
theorem RowsKeyed.of_outbox_eq (hs : RowsKeyed s) (hout : s'.outbox = s.outbox)
    (hnext : s'.nextOutboxId = s.nextOutboxId)
    (hjob : ∀ i j, s.getJob i = some j → ∃ j', s'.getJob i = some j' ∧ j'.jobType = j.jobType) :
    RowsKeyed s' where
  id_eq o m h := hs.id_eq o m (hout ▸ h)
  lt_next o m h := hnext ▸ hs.lt_next o m (hout ▸ h)
  job o m h := by
    obtain ⟨j, hj, hp⟩ := hs.job o m (hout ▸ h)
    obtain ⟨j', hj', ht⟩ := hjob _ j hj
    exact ⟨j', hj', ht ▸ hp⟩
  unique o o' m m' h h' := hs.unique o o' m m' (hout ▸ h) (hout ▸ h')

theorem rowsKeyed_of_effect {c : Call} {r : Reply} (h : Effect s c r s') (hw : WellKeyed s)
    (hs : RowsKeyed s) : RowsKeyed s' := by
  have kept : s'.outbox = s.outbox → s'.nextOutboxId = s.nextOutboxId → RowsKeyed s' :=
    fun hout hnext => hs.of_outbox_eq hout hnext fun i j hj => by
      obtain ⟨j', hj', hm⟩ := h.job hw hj
      exact ⟨j', hj', hm.jobType_eq⟩
  cases h with
  | enqueued ha =>
    rename_i t p cr ca ua
    have row : ∀ {o m}, (s.outbox.set s.nextOutboxId
        ⟨s.nextOutboxId, s.nextJobId, buildEnvelope s.nextJobId t⟩).get? o = some m → _ :=
      enqueue_row_cases hw fun o m hm => (hs.job o m hm).imp fun _ => And.left
    have oldJob : ∀ {i j}, s.getJob i = some j →
        (s.jobs.set s.nextJobId (newJob s.nextJobId t p cr ca ua)).get? i = some j :=
      fun {i j} hj => (Dict.get?_set_of_ne s.jobs _ (hw.lt_next i j hj).ne).trans hj
    refine ⟨fun o m h => ?_, fun o m h => ?_, fun o m h => ?_, fun o o' m m' h h' he => ?_⟩
    · rcases row h with ⟨rfl, rfl⟩ | ⟨h, -⟩
      · rfl
      · exact hs.id_eq o m h
    · rcases row h with ⟨rfl, -⟩ | ⟨h, -⟩
      · exact Int.lt_succ _
      · exact (hs.lt_next o m h).trans (Int.lt_succ _)
    · rcases row h with ⟨rfl, rfl⟩ | ⟨h, -⟩
      · exact ⟨_, Dict.get?_set_self s.jobs _ _, rfl⟩
      · obtain ⟨j, hj, hp⟩ := hs.job o m h
        exact ⟨j, oldJob hj, hp⟩
    · rcases row h, row h' with ⟨⟨rfl, rfl⟩ | ⟨h, hne⟩, ⟨rfl, rfl⟩ | ⟨h', hne'⟩⟩
      · rfl
      · exact absurd he.symm hne'
      · exact absurd he hne
      · exact hs.unique o o' m m' h h' he
  | _ => exact kept rfl rfl

theorem rowsKeyed_of_reachable {ι : Type} {cfg : Dict String TypeConfig} {l : Ledger ι}
    (h : Runs.Reachable Ledger.step (Ledger.start cfg) l) : RowsKeyed l.store :=
  (Ledger.induction (I := fun l => RowsKeyed l.store) (rowsKeyed_start cfg)
    (fun l _ c hw hl => rowsKeyed_of_effect (exec_effect c l.store) hw hl) h).2

/-! ## Marking them -/

/-- What `mark_dispatched` makes of a job. -/
def marked (now : Time) (j : Job) : Job :=
  if j.status = .queued then { j with status := .dispatched, updatedAt := now } else j

theorem jobType_marked (now : Time) (j : Job) : (marked now j).jobType = j.jobType := by
  unfold marked
  split <;> rfl

/-- Marking a row flags it, and dispatches its job if that is queued. -/
theorem markDispatched_spec (m : OutboxMessage) (now : Time) (s : InMemoryStore) :
    (s.markDispatched m.id m.jobId now).outbox = s.outbox ∧
    (s.markDispatched m.id m.jobId now).published = insert m.id s.published ∧
    (s.markDispatched m.id m.jobId now).typeConfig = s.typeConfig ∧
    (s.markDispatched m.id m.jobId now).nextJobId = s.nextJobId ∧
    (s.markDispatched m.id m.jobId now).nextOutboxId = s.nextOutboxId ∧
    (∀ j, s.getJob m.jobId = some j →
      (s.markDispatched m.id m.jobId now).getJob m.jobId = some (marked now j)) ∧
    ∀ i, i ≠ m.jobId → (s.markDispatched m.id m.jobId now).getJob i = s.getJob i := by
  rw [markDispatched]
  rcases guardedUpdate_cases (fun job => job.status = .queued)
      (fun job => { job with status := .dispatched, updatedAt := now }) m.jobId
      { s with published := insert m.id s.published } with ⟨j, hj, hg, he⟩ | ⟨hno, he⟩
  · rw [he]
    refine ⟨rfl, rfl, rfl, rfl, rfl, fun j' hj' => ?_, fun i hi => Dict.get?_set_of_ne s.jobs _ hi⟩
    obtain rfl : j = j' := Option.some.inj (hj.symm.trans hj')
    rw [marked, if_pos (of_decide_eq_true hg)]
    exact Dict.get?_set_self s.jobs _ _
  · rw [he]
    refine ⟨rfl, rfl, rfl, rfl, rfl, fun j hj => ?_, fun _ _ => rfl⟩
    rw [marked, if_neg (of_decide_eq_false (hno j hj))]
    exact hj

/-- The waiting rows with their keys: an item each, no key twice, in order. -/
theorem unpublished_items (s : InMemoryStore) :
    ∃ es : List (OutboxId × OutboxMessage), s.unpublished = es.map Prod.snd ∧
      (∀ e, e ∈ es ↔ s.outbox.get? e.1 = some e.2 ∧ e.1 ∉ s.published) ∧
      es.Pairwise fun a b => a.1 < b.1 := by
  refine ⟨_, rfl, fun e => ?_, ?_⟩
  · rw [List.mem_filter, List.mem_insertionSort, decide_eq_true_eq, ← Dict.get?_eq_some]
  · have hsorted := List.pairwise_insertionSort (fun a b : OutboxId × OutboxMessage => a.1 ≤ b.1)
      s.outbox.items
    have hnd : (s.outbox.items.insertionSort fun a b => a.1 ≤ b.1).Pairwise
        fun a b => a.1 ≠ b.1 :=
      List.pairwise_map.mp
        (((List.perm_insertionSort _ _).map Prod.fst).nodup_iff.mpr s.outbox.nodup_keys)
    exact (hsorted.and hnd).imp (fun h => lt_of_le_of_ne h.1 h.2) |>.filter _

/-- The waiting rows are rows of the outbox that are not published. -/
theorem mem_unpublished (hs : RowsKeyed s) :
    m ∈ s.unpublished ↔ s.outbox.get? m.id = some m ∧ m.id ∉ s.published := by
  obtain ⟨es, hes, hmem, -⟩ := unpublished_items s
  rw [hes, List.mem_map]
  constructor
  · rintro ⟨e, he, rfl⟩
    obtain ⟨hget, hp⟩ := (hmem e).mp he
    rw [hs.id_eq _ _ hget]
    exact ⟨hget, hp⟩
  · exact fun h => ⟨(m.id, m), (hmem _).mpr h, rfl⟩

/-- They wait in ascending order. -/
theorem unpublished_sorted (hs : RowsKeyed s) :
    s.unpublished.Pairwise fun a b => a.id < b.id := by
  obtain ⟨es, hes, hmem, hsorted⟩ := unpublished_items s
  rw [hes, List.pairwise_map]
  refine hsorted.imp_of_mem fun ha hb hlt => ?_
  rwa [hs.id_eq _ _ ((hmem _).mp ha).1, hs.id_eq _ _ ((hmem _).mp hb).1]

/-- Two ascending lists of the same rows are one list. -/
theorem eq_of_sorted_rows {xs ys : List OutboxMessage} (hx : xs.Pairwise fun a b => a.id < b.id)
    (hy : ys.Pairwise fun a b => a.id < b.id) (h : ∀ m, m ∈ xs ↔ m ∈ ys) : xs = ys := by
  have hnd : ∀ {zs : List OutboxMessage}, zs.Pairwise (fun a b => a.id < b.id) → zs.Nodup :=
    fun hz => hz.imp fun hlt he => absurd (congrArg OutboxMessage.id he) hlt.ne
  exact List.Perm.eq_of_pairwise (fun a b _ _ hab hba => absurd hab hba.not_gt) hx hy
    ((List.perm_ext_iff_of_nodup (hnd hx) (hnd hy)).mpr h)

theorem RowsKeyed.markDispatched (hs : RowsKeyed s) (m : OutboxMessage) (now : Time) :
    RowsKeyed (s.markDispatched m.id m.jobId now) := by
  obtain ⟨hout, -, -, -, hnext, hjob, hother⟩ := markDispatched_spec m now s
  refine hs.of_outbox_eq hout hnext fun i j hj => ?_
  by_cases hi : i = m.jobId
  · subst hi
    exact ⟨_, hjob j hj, jobType_marked now j⟩
  · exact ⟨j, (hother i hi).trans hj, rfl⟩

/-- The head of the waiting rows is marked, and the rest waits. -/
theorem unpublished_markDispatched (hs : RowsKeyed s) (h : s.unpublished = m :: rows) (now : Time) :
    (s.markDispatched m.id m.jobId now).unpublished = rows := by
  have hs' := hs.markDispatched m now
  obtain ⟨hout, hpub, -⟩ := markDispatched_spec m now s
  have hsorted := h ▸ unpublished_sorted hs
  refine eq_of_sorted_rows (unpublished_sorted hs') hsorted.of_cons fun x => ?_
  rw [mem_unpublished hs', hout, hpub, Finset.mem_insert, not_or, and_left_comm,
    ← mem_unpublished hs, h, List.mem_cons]
  constructor
  · rintro ⟨hne, rfl | hx⟩
    · exact absurd rfl hne
    · exact hx
  · exact fun hx => ⟨(List.rel_of_pairwise_cons hsorted hx).ne', Or.inr hx⟩

/-- **The rows are marked**, and nothing else has changed: each row's job is dispatched if it was
queued. -/
structure Marked (s : InMemoryStore) (rows : List OutboxMessage) (s' : InMemoryStore) : Prop where
  outbox : s'.outbox = s.outbox
  published : ∀ o, o ∈ s'.published ↔ o ∈ s.published ∨ ∃ m ∈ rows, m.id = o
  job : ∀ m ∈ rows, ∀ j, s.getJob m.jobId = some j →
    ∃ now, s'.getJob m.jobId = some (marked now j)
  others : ∀ i, (∀ m ∈ rows, m.jobId ≠ i) → s'.getJob i = s.getJob i
  typeConfig : s'.typeConfig = s.typeConfig
  nextJobId : s'.nextJobId = s.nextJobId
  nextOutboxId : s'.nextOutboxId = s.nextOutboxId

theorem Marked.nil (s : InMemoryStore) : Marked s [] s where
  outbox := rfl
  published _ := by simp
  job _ hm := nomatch hm
  others _ _ := rfl
  typeConfig := rfl
  nextJobId := rfl
  nextOutboxId := rfl

/-- Rows of other jobs are marked before. -/
theorem Marked.append {xs ys : List OutboxMessage} (h : Marked s xs s') (h' : Marked s' ys s'')
    (hne : ∀ a ∈ xs, ∀ b ∈ ys, a.jobId ≠ b.jobId) : Marked s (xs ++ ys) s'' where
  outbox := h'.outbox.trans h.outbox
  published o := by
    rw [h'.published, h.published, or_assoc]
    simp only [List.mem_append, or_and_right, exists_or]
  job m hm j hj := by
    rcases List.mem_append.mp hm with hm | hm
    · obtain ⟨now, hj'⟩ := h.job m hm j hj
      exact ⟨now, (h'.others _ fun b hb => (hne m hm b hb).symm).trans hj'⟩
    · exact h'.job m hm j ((h.others _ fun a ha => hne a ha m hm).trans hj)
  others i hi := by
    rw [h'.others i fun m hm => hi m (List.mem_append_right _ hm),
      h.others i fun m hm => hi m (List.mem_append_left _ hm)]
  typeConfig := h'.typeConfig.trans h.typeConfig
  nextJobId := h'.nextJobId.trans h.nextJobId
  nextOutboxId := h'.nextOutboxId.trans h.nextOutboxId

theorem marked_one (m : OutboxMessage) (now : Time) (s : InMemoryStore) :
    Marked s [m] (s.markDispatched m.id m.jobId now) := by
  obtain ⟨hout, hpub, hcfg, hnextJob, hnextRow, hjob, hother⟩ := markDispatched_spec m now s
  refine ⟨hout, fun o => ?_, fun x hx j hj => ?_, fun i hi => ?_, hcfg, hnextJob, hnextRow⟩
  · rw [hpub, Finset.mem_insert, or_comm]
    simp [eq_comm]
  · obtain rfl := List.mem_singleton.mp hx
    exact ⟨now, hjob j hj⟩
  · exact hother i (hi m (List.mem_singleton_self m)).symm

/-- The jobs of the waiting rows are pairwise distinct. -/
theorem unpublished_jobs (hs : RowsKeyed s) :
    s.unpublished.Pairwise fun a b => a.jobId ≠ b.jobId := by
  refine (unpublished_sorted hs).imp_of_mem fun ha hb hlt he => hlt.ne ?_
  exact hs.unique _ _ _ _ ((mem_unpublished hs).mp ha).1 ((mem_unpublished hs).mp hb).1 he

/-- **A first part of the waiting rows is marked**: the rest waits. -/
theorem markAll_unpublished (hs : RowsKeyed s) {xs ys : List OutboxMessage}
    (h : s.unpublished = xs ++ ys) (clock : ℕ → Time) :
    Marked s xs (markAll xs clock s) ∧ RowsKeyed (markAll xs clock s) ∧
      (markAll xs clock s).unpublished = ys := by
  induction xs generalizing s clock with
  | nil => exact ⟨.nil s, hs, h⟩
  | cons m xs ih =>
    have hne := h ▸ unpublished_jobs hs
    obtain ⟨hmarked, hkeyed, hrest⟩ := ih (hs.markDispatched m (clock 0))
      (unpublished_markDispatched hs h (clock 0)) fun k => clock (k + 1)
    refine ⟨(marked_one m (clock 0) s).append hmarked fun a ha b hb => ?_, hkeyed, hrest⟩
    obtain rfl := List.mem_singleton.mp ha
    exact List.rel_of_pairwise_cons hne (List.mem_append_left _ hb)

end InMemoryStore

/-! ## Sending them -/

/-- A producer of any behaviour, with the records whose `publish` has returned, oldest first. -/
structure Recording (π : Type) where
  inner : π
  published : List Record

variable {π : Type} {topic : String}

namespace Draining

open InMemoryStore

abbrev Relay (π : Type) := InMemoryStore × Recording π

variable {sp sp' sp'' : Relay π} {sent more : List OutboxMessage}

/-- **A first part of the waiting rows is sent**: published, then marked, one after the other.  The
rest waits as before. -/
structure Sent (topic : String) (sp sp' : Relay π) (sent : List OutboxMessage) : Prop where
  keyed : RowsKeyed sp'.1
  waiting : sp.1.unpublished = sent ++ sp'.1.unpublished
  published : sp'.2.published = sp.2.published ++ sent.map (recordOf topic)
  marked : Marked sp.1 sent sp'.1
  later : ∀ m ∈ sp'.1.unpublished, sp'.1.getJob m.jobId = sp.1.getJob m.jobId

theorem Sent.nil (hs : RowsKeyed sp.1) : Sent topic sp sp [] where
  keyed := hs
  waiting := rfl
  published := (List.append_nil _).symm
  marked := .nil sp.1
  later _ _ := rfl

theorem Sent.trans (hs : RowsKeyed sp.1) (h : Sent topic sp sp' sent)
    (h' : Sent topic sp' sp'' more) : Sent topic sp sp'' (sent ++ more) where
  keyed := h'.keyed
  waiting := by rw [h.waiting, h'.waiting, List.append_assoc]
  published := by rw [h'.published, h.published, List.map_append, List.append_assoc]
  marked := by
    have hne := unpublished_jobs hs
    rw [h.waiting, h'.waiting] at hne
    exact h.marked.append h'.marked fun a ha b hb =>
      (List.pairwise_append.mp hne).2.2 a ha b (List.mem_append_left _ hb)
  later m hm := (h'.later m hm).trans (h.later m (h'.waiting ▸ List.mem_append_right _ hm))

/-- The rows are marked and their messages are published. -/
theorem sent_markAll (topic : String) (hs : RowsKeyed sp.1) {rest : List OutboxMessage}
    (h : sp.1.unpublished = sent ++ rest) (clock : ℕ → Time) (inner : π) :
    Sent topic sp
      (markAll sent clock sp.1, ⟨inner, sp.2.published ++ sent.map (recordOf topic)⟩) sent := by
  obtain ⟨hmarked, hkeyed, hrest⟩ := markAll_unpublished hs h clock
  refine ⟨hkeyed, h.trans (congrArg _ hrest.symm), rfl, hmarked, fun m hm => ?_⟩
  have hne := unpublished_jobs hs
  rw [h] at hne
  exact hmarked.others _ fun x hx =>
    (List.pairwise_append.mp hne).2.2 x hx m (hrest ▸ hm)

end Draining

/-! ## Producers that may raise -/

variable [Producer π]

namespace Recording

def publish (r : Record) (p : Recording π) : Except PublishError Unit × Recording π :=
  match Producer.publish r p.inner with
  | (.ok (), inner) => (.ok (), ⟨inner, p.published ++ [r]⟩)
  | (.error e, inner) => (.error e, ⟨inner, p.published⟩)

instance : Producer (Recording π) := ⟨publish⟩

variable {r : Record} {p p' : π}

theorem publish_ok (h : Producer.publish r p = (.ok (), p')) (published : List Record) :
    Producer.publish r (mk p published) = (.ok (), mk p' (published ++ [r])) := by
  show publish r (mk p published) = _
  simp only [publish, h]

theorem publish_error {e : PublishError} (h : Producer.publish r p = (.error e, p'))
    (published : List Record) :
    Producer.publish r (mk p published) = (.error e, mk p' published) := by
  show publish r (mk p published) = _
  simp only [publish, h]

end Recording

/-- Publish the records one after the other; `none` if one of them raises. -/
def publishEach : List Record → π → Option π
  | [], p => some p
  | r :: rs, p =>
    match Producer.publish r p with
    | (.ok (), p) => publishEach rs p
    | (.error _, _) => none

theorem publishEach_append (rs rs' : List Record) (p : π) :
    publishEach (rs ++ rs') p = (publishEach rs p).bind (publishEach rs') := by
  induction rs generalizing p with
  | nil => rfl
  | cons r rs ih =>
    rw [List.cons_append, publishEach, publishEach]
    split
    · exact ih _
    · rfl

/-- Whatever is published from here on, nothing is raised. -/
def Reliable (p : π) : Prop := ∀ rs : List Record, (publishEach rs p).isSome

/-- So it is still after some of it. -/
theorem Reliable.of_publishEach {p q : π} {rs : List Record} (h : Reliable p)
    (hq : publishEach rs p = some q) : Reliable q := by
  intro rs'
  have happ := h (rs ++ rs')
  rwa [publishEach_append, hq] at happ

theorem Reliable.not_raises {p q : π} {r : Record} {e : PublishError} (h : Reliable p)
    (hq : Producer.publish r p = (.error e, q)) : False := by
  have hr := h [r]
  rw [publishEach, hq] at hr
  exact absurd hr Bool.false_ne_true

/-! ## One batch -/

variable {σ : Type} [Store σ]

/-- **The batch is published and marked, or it is up to a row whose `publish` raises.** -/
theorem dispatchBatch_recording (topic : String) (messages : List OutboxMessage)
    (clock : ℕ → Time) (s : σ) (p : Recording π) :
    (∃ inner, publishEach (messages.map (recordOf topic)) p.inner = some inner ∧
      dispatchBatch topic messages clock (s, p) = (.ok (), markAll messages clock s,
        ⟨inner, p.published ++ messages.map (recordOf topic)⟩)) ∨
    ∃ sent msg rest e before inner, messages = sent ++ msg :: rest ∧
      publishEach (sent.map (recordOf topic)) p.inner = some before ∧
      Producer.publish (recordOf topic msg) before = (.error e, inner) ∧
      dispatchBatch topic messages clock (s, p) = (.error e, markAll sent clock s,
        ⟨inner, p.published ++ sent.map (recordOf topic)⟩) := by
  induction messages generalizing clock s p with
  | nil => exact Or.inl ⟨p.inner, rfl, by rw [List.map_nil, List.append_nil]; rfl⟩
  | cons msg messages ih =>
    obtain ⟨before, published⟩ := p
    rcases hpub : Producer.publish (recordOf topic msg) before with ⟨e | _, after⟩
    · refine Or.inr ⟨[], msg, messages, e, before, after, rfl, rfl, hpub, ?_⟩
      rw [dispatchBatch, Recording.publish_error hpub, List.map_nil, List.append_nil]
      rfl
    · have hstep : dispatchBatch topic (msg :: messages) clock (s, Recording.mk before published) =
          dispatchBatch topic messages (fun k => clock (k + 1))
            (Store.markDispatched msg.id msg.jobId (clock 0) s,
              ⟨after, published ++ [recordOf topic msg]⟩) := by
        rw [dispatchBatch, Recording.publish_ok hpub]
      have hall : ∀ rs, publishEach (recordOf topic msg :: rs) before = publishEach rs after := by
        intro rs
        rw [publishEach, hpub]
      rw [hstep]
      rcases ih (fun k => clock (k + 1)) (Store.markDispatched msg.id msg.jobId (clock 0) s)
          ⟨after, published ++ [recordOf topic msg]⟩ with
        ⟨inner, hsome, he⟩ | ⟨sent, x, rest, e, mid, inner, rfl, hsome, hraise, he⟩
      · refine Or.inl ⟨inner, (hall _).trans hsome, ?_⟩
        rw [he, List.append_assoc]
        rfl
      · refine Or.inr ⟨msg :: sent, x, rest, e, mid, inner, rfl, (hall _).trans hsome, hraise, ?_⟩
        rw [he, List.append_assoc]
        rfl

/-! ## One call -/

namespace Draining

open InMemoryStore

variable {sp : Relay π}

/-- How a call ends, having sent `sent`.  Each of these rows is published once, in their order, and
none raises; then every row the call fetched is sent, or `publish` raises on the next of them, and
the call with it. -/
def Ends (topic : String) (batchSize : ℤ) (sp sp' : Relay π) (sent : List OutboxMessage)
    (result : Except (StoreError ⊕ PublishError) ℕ) : Prop :=
  ∃ after, publishEach (sent.map (recordOf topic)) sp.2.inner = some after ∧
    ((sent = sp.1.unpublished.take batchSize.toNat ∧ sp'.2.inner = after ∧
      result = .ok sent.length) ∨
    ∃ msg rest e, sp'.1.unpublished = msg :: rest ∧ sent.length < batchSize ∧
      Producer.publish (recordOf topic msg) after = (.error e, sp'.2.inner) ∧
      result = .error (.inr e))

/-- **One `dispatch_once`.** -/
theorem dispatchOnce_called (topic : String) (hs : RowsKeyed sp.1) {batchSize : ℤ}
    (hb : 1 ≤ batchSize) (clock : ℕ → Time) :
    ∃ sent, Sent topic sp (dispatchOnce topic batchSize clock sp).2 sent ∧
      Ends topic batchSize sp (dispatchOnce topic batchSize clock sp).2 sent
        (dispatchOnce topic batchSize clock sp).1 := by
  obtain ⟨s, p⟩ := sp
  have hfetch : Store.fetchUnpublished batchSize s =
      Except.ok (s.unpublished.take batchSize.toNat) :=
    congrArg Except.ok (fetchUnpublished_of_nonneg (by omega) s)
  have hsplit := (List.take_append_drop batchSize.toNat s.unpublished).symm
  simp only [dispatchOnce, hfetch]
  rcases dispatchBatch_recording topic (s.unpublished.take batchSize.toNat) clock s p with
    ⟨inner, hall, he⟩ | ⟨sent, msg, rest, e, before, inner, hrows, hall, hraise, he⟩
  · rw [he]
    exact ⟨_, sent_markAll topic hs hsplit clock inner, inner, hall, Or.inl ⟨rfl, rfl, rfl⟩⟩
  · have hlt : sent.length < batchSize.toNat := by
      have hlen := congrArg List.length hrows
      rw [List.length_take, List.length_append, List.length_cons] at hlen
      omega
    rw [hrows, List.append_assoc] at hsplit
    have hsent : Sent topic (s, p)
        (markAll sent clock s, ⟨inner, p.published ++ sent.map (recordOf topic)⟩) sent :=
      sent_markAll topic hs hsplit clock inner
    rw [he]
    exact ⟨sent, hsent, before, hall, Or.inr ⟨msg, _, e,
      List.append_cancel_left (hsent.waiting.symm.trans hsplit), by omega, hraise, rfl⟩⟩

/-! ## Calls in a row -/

/-- The state that calls in a row leave, each with its batch size and its clock readings. -/
def runCalls (topic : String) (sp : Relay π) (calls : List (ℤ × (ℕ → Time))) : Relay π :=
  Exchange.final (fun sp call => dispatchOnce topic call.1 call.2 sp) sp calls

/-- However the calls end, a first part of the waiting rows is sent. -/
theorem runCalls_sent (topic : String) (hs : RowsKeyed sp.1) {calls : List (ℤ × (ℕ → Time))}
    (hcalls : ∀ call ∈ calls, 1 ≤ call.1) :
    ∃ sent, Sent topic sp (runCalls topic sp calls) sent := by
  induction calls generalizing sp with
  | nil => exact ⟨[], .nil hs⟩
  | cons call calls ih =>
    rw [List.forall_mem_cons] at hcalls
    obtain ⟨sent, hsent, -⟩ := dispatchOnce_called topic hs hcalls.1 call.2
    obtain ⟨more, hmore⟩ := ih hsent.keyed hcalls.2
    exact ⟨sent ++ more, hsent.trans hs hmore⟩

/-- The loop of `dispatcher/__main__.py` up to the first call that returns 0 or raises; `none` if
that is not among the first `fuel` calls. -/
def drain (topic : String) (batchSize : ℤ) : ℕ → (ℕ → ℕ → Time) → Relay π →
    Option (Except (StoreError ⊕ PublishError) Unit × Relay π)
  | 0, _, _ => none
  | fuel + 1, clock, sp =>
    match dispatchOnce topic batchSize (clock 0) sp with
    | (.error e, sp) => some (.error e, sp)
    | (.ok 0, sp) => some (.ok (), sp)
    | (.ok (_ + 1), sp) => drain topic batchSize fuel (fun k => clock (k + 1)) sp

/-- **The loop ends**: with every waiting row sent, each published once and in order, or by an
exception of `publish`. -/
theorem drain_spec (topic : String) (hs : RowsKeyed sp.1) {batchSize : ℤ} (hb : 1 ≤ batchSize)
    {fuel : ℕ} (hfuel : sp.1.unpublished.length < fuel) (clock : ℕ → ℕ → Time) :
    ∃ result sp' sent, drain topic batchSize fuel clock sp = some (result, sp') ∧
      Sent topic sp sp' sent ∧
      (result = .ok () → sent = sp.1.unpublished ∧
        publishEach (sent.map (recordOf topic)) sp.2.inner = some sp'.2.inner) ∧
      (Reliable sp.2.inner → result = .ok ()) := by
  induction fuel generalizing sp clock with
  | zero => exact absurd hfuel (Nat.not_lt_zero _)
  | succ fuel ih =>
    obtain ⟨sent, hsent, after, hall, hends⟩ := dispatchOnce_called topic hs hb (clock 0)
    rcases hcall : dispatchOnce topic batchSize (clock 0) sp with ⟨r, sp'⟩
    rw [hcall] at hsent hends
    rcases hends with ⟨htake, rfl, rfl⟩ | ⟨msg, rest, e, -, -, hraise, rfl⟩
    · cases hlen : sent.length with
      | zero =>
        obtain rfl := List.eq_nil_of_length_eq_zero hlen
        refine ⟨.ok (), sp', [], by rw [drain, hcall]; rfl, hsent, fun _ => ⟨?_, hall⟩,
          fun _ => rfl⟩
        rcases List.take_eq_nil_iff.mp htake.symm with h | h
        · omega
        · exact h.symm
      | succ n =>
        have hless : sp'.1.unpublished.length < fuel := by
          have hsplit : sp.1.unpublished.length = sent.length + sp'.1.unpublished.length :=
            (congrArg List.length hsent.waiting).trans List.length_append
          omega
        obtain ⟨result, sp'', more, hdrain, hmore, hdone, hok⟩ :=
          ih hsent.keyed hless fun k => clock (k + 1)
        refine ⟨result, sp'', sent ++ more, ?_, hsent.trans hs hmore, fun h => ?_, fun h =>
          hok (h.of_publishEach hall)⟩
        · rw [drain, hcall, hlen]
          exact hdrain
        · obtain ⟨hrest, hmoreAll⟩ := hdone h
          rw [List.map_append, publishEach_append, hall, hrest, ← hsent.waiting]
          exact ⟨rfl, hrest ▸ hmoreAll⟩
    · exact ⟨.error (.inr e), sp', sent, by rw [drain, hcall], hsent, nofun, fun h =>
        ((h.of_publishEach hall).not_raises hraise).elim⟩

/-- **Draining with failures.**  From any reachable state, with a producer that raises wherever it
likes, the calls work through the waiting rows in the order of their ids: what they have sent is a
first part of them, the next call publishes the next part, each row once, and stops at the first row
whose `publish` raises, and the loop ends.  Where nothing raises, it ends with every row sent. -/
theorem dispatch_drains {ι : Type} {cfg : Dict String TypeConfig} {l : Ledger ι}
    (h : Runs.Reachable Ledger.step (Ledger.start cfg) l) (topic : String) (p : Recording π)
    (calls : List (ℤ × (ℕ → Time))) (hcalls : ∀ call ∈ calls, 1 ≤ call.1) (batchSize : ℤ)
    (hb : 1 ≤ batchSize) (clock : ℕ → ℕ → Time) :
    let start : Relay π := (l.store, p)
    let sp := runCalls topic start calls
    let next := dispatchOnce topic batchSize (clock 0) sp
    l.store.unpublished.Pairwise (fun a b => a.id < b.id) ∧
    (∀ m, m ∈ l.store.unpublished ↔
      l.store.outbox.get? m.id = some m ∧ m.id ∉ l.store.published) ∧
    (∀ m ∈ l.store.unpublished, ∃ j, l.store.getJob m.jobId = some j ∧
      m.payload = buildEnvelope m.jobId j.jobType) ∧
    (∃ sent, Sent topic start sp sent) ∧
    (∃ sent, Sent topic sp next.2 sent ∧ Ends topic batchSize sp next.2 sent next.1) ∧
    ∀ fuel, sp.1.unpublished.length < fuel → ∃ result sp' sent,
      drain topic batchSize fuel clock sp = some (result, sp') ∧ Sent topic sp sp' sent ∧
      (result = .ok () → sp'.1.unpublished = [] ∧ sent = sp.1.unpublished ∧
        publishEach (sent.map (recordOf topic)) sp.2.inner = some sp'.2.inner) ∧
      (Reliable sp.2.inner → result = .ok ()) := by
  intro start sp next
  have hs : RowsKeyed l.store := rowsKeyed_of_reachable h
  obtain ⟨sent, hsent⟩ : ∃ sent, Sent topic start sp sent := runCalls_sent topic hs hcalls
  refine ⟨unpublished_sorted hs, fun m => mem_unpublished hs, fun m hm => ?_, ⟨sent, hsent⟩,
    dispatchOnce_called topic hsent.keyed hb (clock 0), fun fuel hfuel => ?_⟩
  · exact hs.job m.id m ((mem_unpublished hs).mp hm).1
  · obtain ⟨result, sp', more, hdrain, hmore, hdone, hok⟩ :=
      drain_spec topic hsent.keyed hb hfuel clock
    refine ⟨result, sp', more, hdrain, hmore, fun hresult => ⟨?_, hdone hresult⟩, hok⟩
    have hwait := hmore.waiting
    rw [(hdone hresult).1] at hwait
    exact List.append_cancel_left (hwait.symm.trans (List.append_nil _).symm)

/-- A producer that raises on the calls it has been told to, in order, and on none after them. -/
structure Flaky where
  raises : List Bool

instance : Producer Flaky where
  publish _ p :=
    match p.raises with
    | true :: raises => (.error .raised, ⟨raises⟩)
    | _ :: raises => (.ok (), ⟨raises⟩)
    | [] => (.ok (), p)

theorem Flaky.reliable : Reliable (Flaky.mk []) := by
  intro rs
  induction rs with
  | nil => rfl
  | cons r rs ih => exact ih

/-- Three rows, and a `publish` that raises on the second: the first call sends one row and raises,
and the loop then sends the two others. -/
theorem dispatch_drains_flaky :
    let l : Ledger Unit := (((Ledger.start ∅).perform () (.enqueue "a" none none 0 0)).perform ()
      (.enqueue "b" none none 0 0)).perform () (.enqueue "c" none none 0 0)
    let start := (l.store, Recording.mk (Flaky.mk [false, true]) [])
    let sp := runCalls "jobs" start [(5, fun _ => 1)]
    (dispatchOnce "jobs" 5 (fun _ => 1) start).1 = .error (.inr .raised) ∧
    sp.1.unpublished.length = 2 ∧ ∃ sp' sent,
      drain "jobs" 1 3 (fun _ _ => 2) sp = some (.ok (), sp') ∧ Sent "jobs" sp sp' sent ∧
      sp'.1.unpublished = [] := by
  intro l start sp
  have hl : Runs.Reachable Ledger.step (Ledger.start ∅) l :=
    ⟨[((), .enqueue "a" none none 0 0), ((), .enqueue "b" none none 0 0),
      ((), .enqueue "c" none none 0 0)], rfl⟩
  obtain ⟨-, -, -, -, -, hdrain⟩ := dispatch_drains hl "jobs" start.2 [(5, fun _ => 1)] (by decide)
    1 (le_refl 1) fun _ _ => 2
  obtain ⟨result, sp', sent, he, hsent, hdone, hok⟩ := hdrain 3 (by decide)
  obtain rfl := hok Flaky.reliable
  exact ⟨rfl, by decide, sp', sent, he, hsent, (hdone rfl).1⟩

end Draining

end JobWorkflow
