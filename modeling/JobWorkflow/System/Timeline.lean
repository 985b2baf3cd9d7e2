import JobWorkflow.Common.Rows
import JobWorkflow.Reaper.RunningSince

/-!
# System/Timeline — the runs of one type follow each other in time

A job takes the time from its `created_at` to its `updated_at`.  Where the clock does not run
backwards from call to call, no two jobs of one type overlap: whatever the calls and their
arguments, a job is over, and was last updated, before the next one of its type is created
(`inMemory_runs_apart`, `postgres_runs_apart`).

The argument is one for both stores: a `Change` stamps only jobs that are not over, and adds a job
only when those of its type are.
-/

namespace JobWorkflow

/-! ## Lists of jobs -/

/-- **The jobs in the order of their ids**, when `clock` has been read, latest first: of two jobs of
one type the earlier is over, and was not updated after the later was created. -/
structure Successive (js : List Job) (clock : List Time) : Prop where
  updated_mem : ∀ j ∈ js, j.updatedAt ∈ clock
  created_le : ∀ j ∈ js, j.createdAt ≤ j.updatedAt
  apart : js.Pairwise fun j k => j.id < k.id ∧
    (j.jobType = k.jobType → j.status ∈ JobStatus.terminal ∧ j.updatedAt ≤ k.createdAt)

/-- A job is left alone, or it is not over and is stamped with the one time that was read. -/
def Stamped (times : List Time) (j j' : Job) : Prop :=
  j' = j ∨ SameRun j j' ∧ j.status ∉ JobStatus.terminal ∧ times = [j'.updatedAt]

/-- What a call that reads `times` from the clock, latest first, does to the jobs. -/
inductive Change (times : List Time) (js js' : List Job) : Prop
  | written (g : Job → Job) (h : js' = js.map g) (hg : ∀ j ∈ js, Stamped times j (g j))
  | added (j : Job) (h : js' = js ++ [j]) (hid : ∀ k ∈ js, k.id < j.id)
      (hover : ∀ k ∈ js, k.jobType = j.jobType → k.status ∈ JobStatus.terminal)
      (hcreated : j.createdAt ∈ times) (hupdated : j.updatedAt ∈ times)
      (hle : times.Pairwise (fun later earlier => earlier ≤ later) → j.createdAt ≤ j.updatedAt)

variable {js js' : List Job} {times past : List Time}

/-- Nothing is done to the jobs. -/
theorem Change.of_eq (h : js' = js) : Change times js js' :=
  .written id (by rw [h, List.map_id]) fun _ _ => Or.inl rfl

/-- **Every change keeps the runs of a type apart**, if what it reads is no earlier than what was
read before. -/
theorem Successive.change (h : Successive js past) (hc : Change times js js')
    (hord : (times ++ past).Pairwise fun later earlier => earlier ≤ later) :
    Successive js' (times ++ past) := by
  obtain ⟨htimes, -, hpast⟩ := List.pairwise_append.mp hord
  cases hc with
  | written g hjs hg =>
    subst hjs
    have hmem : ∀ j ∈ js, (g j).updatedAt ∈ times ++ past := fun j hj => by
      rcases hg j hj with he | ⟨-, -, ht⟩
      · rw [he]
        exact List.mem_append_right _ (h.updated_mem j hj)
      · rw [ht]
        exact List.mem_append_left _ (List.mem_singleton_self _)
    have hcreated : ∀ j ∈ js, (g j).createdAt = j.createdAt ∧ (g j).id = j.id ∧
        (g j).jobType = j.jobType := fun j hj => by
      rcases hg j hj with he | ⟨hsame, -, -⟩
      · rw [he]
        exact ⟨rfl, rfl, rfl⟩
      · exact ⟨hsame.createdAt, hsame.id, hsame.jobType⟩
    refine ⟨List.forall_mem_map.mpr hmem, List.forall_mem_map.mpr fun j hj => ?_, ?_⟩
    · rcases hg j hj with he | ⟨hsame, -, ht⟩
      · rw [he]
        exact h.created_le j hj
      · have hlate : j.updatedAt ≤ (g j).updatedAt :=
          hpast _ (ht ▸ List.mem_singleton_self _) _ (h.updated_mem j hj)
        rw [hsame.createdAt]
        exact (h.created_le j hj).trans hlate
    · refine List.pairwise_map.mpr (h.apart.imp_of_mem fun {j k} hj hk hjk => ?_)
      obtain ⟨-, hjid, hjtype⟩ := hcreated j hj
      obtain ⟨hkcreated, hkid, hktype⟩ := hcreated k hk
      rw [hjid, hkid, hjtype, hktype, hkcreated]
      refine ⟨hjk.1, fun htype => ?_⟩
      obtain ⟨hover, hle⟩ := hjk.2 htype
      -- what is over is not written
      rcases hg j hj with he | ⟨-, hlive, -⟩
      · rw [he]
        exact ⟨hover, hle⟩
      · exact absurd hover hlive
  | added j hjs hid hover hcreated hupdated hle =>
    subst hjs
    refine ⟨fun k hk => ?_, fun k hk => ?_, List.pairwise_append.mpr
      ⟨h.apart, List.pairwise_singleton _ _, fun k hk k' hk' => ?_⟩⟩
    · rcases List.mem_append.mp hk with hk | hk
      · exact List.mem_append_right _ (h.updated_mem k hk)
      · rw [List.mem_singleton.mp hk]
        exact List.mem_append_left _ hupdated
    · rcases List.mem_append.mp hk with hk | hk
      · exact h.created_le k hk
      · rw [List.mem_singleton.mp hk]
        exact hle htimes
    · rw [List.mem_singleton.mp hk']
      exact ⟨hid k hk, fun htype =>
        ⟨hover k hk htype, hpast _ hcreated _ (h.updated_mem k hk)⟩⟩

/-- What it comes to for a pair of jobs. -/
theorem Successive.of_lt (h : Successive js past) {j k : Job} (hj : j ∈ js) (hk : k ∈ js)
    (hlt : j.id < k.id) (htype : j.jobType = k.jobType) :
    j.status ∈ JobStatus.terminal ∧ j.updatedAt ≤ k.createdAt := by
  have hall := List.Pairwise.forall_of_forall_of_flip
    (R := fun j k : Job => j.id < k.id → j.jobType = k.jobType →
      j.status ∈ JobStatus.terminal ∧ j.updatedAt ≤ k.createdAt)
    (fun j _ hlt => absurd hlt (lt_irrefl _)) (h.apart.imp fun hjk _ => hjk.2)
    (h.apart.imp fun hjk hkj => absurd hkj hjk.1.not_gt)
  exact hall hj hk hlt htype

/-- What it comes to for what a store shows. -/
theorem Successive.runs_apart (h : Successive js past) {getJob : JobId → Option Job}
    (hmem : ∀ i j, getJob i = some j → j ∈ js ∧ j.id = i) {i : JobId} {j : Job}
    (hj : getJob i = some j) : j.createdAt ≤ j.updatedAt ∧
      ∀ i' j', getJob i' = some j' → i < i' → j.jobType = j'.jobType →
        j.status ∈ JobStatus.terminal ∧ j.updatedAt ≤ j'.createdAt := by
  obtain ⟨hjs, rfl⟩ := hmem i j hj
  refine ⟨h.created_le j hjs, fun i' j' hj' hlt htype => ?_⟩
  obtain ⟨hjs', rfl⟩ := hmem i' j' hj'
  exact h.of_lt hjs hjs' hlt htype

/-! ## `InMemoryStore` -/

/-- A job that is moved is stamped with what the call has read. -/
theorem Move.stamped {cap : String → ℤ} {i : JobId} {c : Call} {r : Reply} {j j' : Job}
    (h : Move cap i c r j j') : Stamped c.readings j j' := by
  have hsame := h.sameRun
  cases h with
  | stay h => exact Or.inl rfl
  | claim h =>
    refine Or.inr ⟨hsame, fun ht => ?_, rfl⟩
    rcases List.mem_pair.mp h with h | h
    · rw [h] at ht
      exact absurd ht (by decide)
    · rw [h] at ht
      exact absurd ht (by decide)
  | dispatch h | resolve h | complete h | fail h | requeue h | deadLetter h =>
    refine Or.inr ⟨hsame, fun ht => ?_, rfl⟩
    rw [h] at ht
    exact absurd ht (by decide)

namespace InMemoryStore

variable {s : InMemoryStore} {i : JobId} {j j' : Job}

theorem getJob_of_mem (hw : WellKeyed s) (hj : j ∈ s.jobs.values) : s.getJob j.id = some j := by
  obtain ⟨i, hi⟩ := Dict.mem_values.mp hj
  rw [hw.id_eq i j hi]
  exact hi

/-- One job is written where it stands. -/
theorem change_set (hw : WellKeyed s) (hj : s.getJob i = some j) (h : Stamped times j j') :
    Change times s.jobs.values (s.jobs.set i j').values := by
  refine .written (fun k => if k.id = i then j' else k) ?_ fun k hk => ?_
  · rw [Dict.values, Dict.items_set_of_get?_some j' hj, Dict.values, List.map_map, List.map_map]
    refine List.map_congr_left fun e he => ?_
    have hid : e.2.id = e.1 := hw.id_eq _ _ (Dict.get?_eq_some.mpr he)
    rw [Function.comp_apply, Function.comp_apply, hid]
    split
    · rfl
    · rfl
  · split
    · rename_i hid
      obtain rfl : k = j := Option.some.inj ((getJob_of_mem hw hk).symm.trans (hid ▸ hj))
      exact h
    · exact Or.inl rfl

/-- **Every effect is such a change.** -/
theorem change_of_effect {s' : InMemoryStore} {c : Call} {r : Reply} (hw : WellKeyed s)
    (h : Effect s c r s') : Change c.readings s.jobs.values s'.jobs.values := by
  cases h with
  | unchanged hr => exact .of_eq rfl
  | enqueued ha =>
    rename_i t p cr ca ua
    refine .added (newJob s.nextJobId t p cr ca ua) ?_ (fun k hk => ?_) (fun k hk ht => ?_)
      (List.mem_cons_of_mem _ (List.mem_singleton_self ca)) List.mem_cons_self
      fun h => (List.pairwise_cons.mp h).1 _ (List.mem_singleton_self ca)
    · rw [Dict.values, Dict.items_set_of_get?_none _ hw.next_free, List.map_append]
      rfl
    · exact hw.lt_next _ k (getJob_of_mem hw hk)
    · by_contra hover
      have hactive : s.active t = true := active_iff.mpr
        ⟨k.id, k, getJob_of_mem hw hk, ht, (JobStatus.mem_active_iff _).mpr hover⟩
      exact Bool.false_ne_true (ha.symm.trans hactive)
  | published h => exact .of_eq rfl
  | @dispatched o i now j hj h =>
    have hm : Move s.maxAttempts i (.markDispatched o i now) .unit j
      { j with status := .dispatched, updatedAt := now } := .dispatch h
    exact change_set hw hj hm.stamped
  | requeued hj h hcap => exact change_set hw hj (Move.requeue h hcap).stamped
  | rewritten hj ht hm hne => exact change_set hw hj hm.stamped
  | configured => exact .of_eq rfl

end InMemoryStore

namespace Ledger

variable {ι : Type} {cfg : Dict String TypeConfig} {l : Ledger ι}

/-- All that the journal says has been read, latest first. -/
def readings (l : Ledger ι) : List Time := l.journal.flatMap fun e => e.call.readings

theorem successive (h : Runs.Reachable step (start cfg) l)
    (hclock : l.readings.Pairwise fun later earlier => earlier ≤ later) :
    Successive l.store.jobs.values l.readings := by
  have hall := induction (I := fun l => l.readings.Pairwise (fun later earlier => earlier ≤ later) →
    Successive l.store.jobs.values l.readings) (fun _ => ⟨fun _ hj => absurd hj List.not_mem_nil,
      fun _ hj => absurd hj List.not_mem_nil, .nil⟩) (fun l actor c hw hl hclock => by
    have hbefore : l.readings.Pairwise fun later earlier => earlier ≤ later :=
      (List.pairwise_append.mp hclock).2.1
    exact (hl hbefore).change (InMemoryStore.change_of_effect hw (exec_effect c l.store)) hclock) h
  exact hall.2 hclock

/-- **The runs of a type do not overlap**: after any calls, by a clock that does not run backwards,
a job is over and was last updated before the next job of its type is created. -/
theorem inMemory_runs_apart (h : Runs.Reachable step (start cfg) l)
    (hclock : l.readings.Pairwise fun later earlier => earlier ≤ later) {i : JobId} {j : Job}
    (hj : l.store.getJob i = some j) : j.createdAt ≤ j.updatedAt ∧
      ∀ i' j', l.store.getJob i' = some j' → i < i' → j.jobType = j'.jobType →
        j.status ∈ JobStatus.terminal ∧ j.updatedAt ≤ j'.createdAt :=
  (successive h hclock).runs_apart (fun i _ hj =>
    ⟨Dict.mem_values.mpr ⟨i, hj⟩, (wellKeyed_of_reachable h).id_eq i _ hj⟩) hj

/-- A run that is given up, and a worker that would complete it while the next one waits. -/
theorem inMemory_runs_apart_given_up :
    let calls : List (Unit × Call) := [((), .enqueue "hello" none none 0 1), ((), .claim 1 2),
      ((), .requeueStuck 1 5), ((), .claim 1 6), ((), .deadLetter 1 9),
      ((), .enqueue "hello" none none 10 11), ((), .complete 1 12)]
    let l := calls.foldl (fun l a => l.perform a.1 a.2) (start ∅)
    ∃ j j', l.store.getJob 1 = some j ∧ l.store.getJob 2 = some j' ∧
      j.updatedAt ≤ j'.createdAt := by
  intro calls l
  obtain ⟨j, hj, htype⟩ : ∃ j, l.store.getJob 1 = some j ∧ j.jobType = "hello" := ⟨_, rfl, rfl⟩
  obtain ⟨j', hj', htype'⟩ : ∃ j', l.store.getJob 2 = some j' ∧ j'.jobType = "hello" :=
    ⟨_, rfl, rfl⟩
  have h := inMemory_runs_apart (l := l) ⟨calls, rfl⟩ (by decide) hj
  exact ⟨j, j', hj, hj', (h.2 2 j' hj' (by decide) (htype.trans htype'.symm)).2⟩

end Ledger

/-! ## `PostgresStore` -/

namespace PostgresStore

/-- What a call reads from the clock: an `INSERT` stamps its row once. -/
def readings : Call → List Time
  | .enqueue _ _ _ createdAt _ => [createdAt]
  | c => c.readings

/-- A row that is moved is stamped with what the call has read. -/
theorem stamped {c : Call} {r r' : JobRow} (h : RowMove c r r') :
    Stamped (readings c) r.job r'.job := by
  have hsame := h.sameRun
  cases h with
  | stay => exact Or.inl rfl
  | claim h =>
    refine Or.inr ⟨hsame, fun ht => ?_, rfl⟩
    change r.status ∈ _ at ht
    rcases List.mem_pair.mp h with h | h
    · rw [h] at ht
      exact absurd ht (by decide)
    · rw [h] at ht
      exact absurd ht (by decide)
  | dispatch h | resolve h | complete h | fail h | requeue h | deadLetter h =>
    refine Or.inr ⟨hsame, fun ht => ?_, rfl⟩
    change r.status ∈ _ at ht
    rw [h] at ht
    exact absurd ht (by decide)

variable {d : PostgresStore} {config : Table configSchema}

/-- The rows of `jobs`. -/
def history (d : PostgresStore) : List Job := d.jobs.rows.map JobRow.job

section Columns

variable [ColumnTypes]

/-- A row is inserted only when those of its type are over. -/
theorem over_of_inserted {t : String} {p : Option Document} {cr : Option Creator} {ca ua : Time}
    (hd : Paired d) (hrows : (d.exec (.enqueue t p cr ca ua)).2.jobs.rows =
      d.jobs.rows ++ [newRow d.jobIdentity t p (cr.getD .anonymous) ca]) :
    ∀ r ∈ d.jobs.rows, r.jobType = t → r.status ∈ JobStatus.terminal := by
  intro r hr ht
  by_contra hover
  have hnot : ¬ d.jobs.Fits (newRow d.jobIdentity t p (cr.getD .anonymous) ca) := fun hfit =>
    (fits_iff hd).mp hfit r hr ht ((JobStatus.mem_active_iff _).mpr hover)
  have hsame : (d.exec (.enqueue t p cr ca ua)).2.jobs.rows = d.jobs.rows := by
    rcases exec_enqueue d t p cr ca ua with ⟨-, he⟩ | ⟨-, he⟩
    · rw [he]
    · rw [he, insertJob_of_not_fits hnot]
      rfl
  exact List.cons_ne_nil _ _ (List.append_right_eq_self.mp (hrows.symm.trans hsame))

theorem change_exec (hd : Paired d) (c : Call) :
    Change (readings c) d.history (d.exec c).2.history := by
  have heff := exec_jobs c d
  cases heff with
  | moved g hrows hmove hid =>
    have hfind : ∀ r ∈ d.jobs.rows, (d.exec c).2.jobs.find? r.id = some (g r) := fun r hr =>
      Table.find?_eq_some.mpr ⟨hrows ▸ List.mem_map_of_mem hr, (hmove r).id_eq⟩
    -- a job is what has become of the row with its id
    let after (k : Job) : Job := (((d.exec c).2.jobs.find? k.id).map JobRow.job).getD k
    have hafter : ∀ r ∈ d.jobs.rows, after r.job = (g r).job := fun r hr =>
      congrArg (fun row => (row.map JobRow.job).getD r.job) (hfind r hr)
    refine .written after ?_ (List.forall_mem_map.mpr fun r hr => ?_)
    · rw [history, hrows, history, List.map_map, List.map_map]
      exact List.map_congr_left fun r hr => (hafter r hr).symm
    · rw [hafter r hr]
      exact stamped (hmove r)
  | inserted hc hrows =>
    subst hc
    rename_i t p cr ca ua
    refine .added (newRow d.jobIdentity t p (cr.getD .anonymous) ca).job ?_
      (List.forall_mem_map.mpr hd.id_lt)
      (List.forall_mem_map.mpr (over_of_inserted hd hrows))
      (List.mem_singleton_self ca) (List.mem_singleton_self ca) fun _ => le_refl _
    rw [history, hrows, List.map_append]
    rfl

omit [ColumnTypes] in
theorem reverse_readings (c : Call) : (readings c).reverse = readings c := by
  cases c <;> rfl

theorem successive (calls : List Call) (hclock : (calls.flatMap readings).Pairwise (· ≤ ·)) :
    Paired ((migrated config).afterCalls calls) ∧
      Successive ((migrated config).afterCalls calls).history (calls.flatMap readings).reverse := by
  induction calls using List.reverseRecOn with
  | nil => exact ⟨.migrated config, fun _ hj => absurd hj List.not_mem_nil,
      fun _ hj => absurd hj List.not_mem_nil, .nil⟩
  | append_singleton calls c ih =>
    have hbefore : (calls.flatMap readings).Pairwise (· ≤ ·) := by
      rw [List.flatMap_append] at hclock
      exact (List.pairwise_append.mp hclock).1
    obtain ⟨hd, ht⟩ := ih hbefore
    have hlast : (migrated config).afterCalls (calls ++ [c]) =
        (((migrated config).afterCalls calls).exec c).2 := by
      rw [afterCalls, List.foldl_append]
      rfl
    have hreadings : ((calls ++ [c]).flatMap readings).reverse =
        readings c ++ (calls.flatMap readings).reverse := by
      rw [List.flatMap_append, List.flatMap_singleton, List.reverse_append, reverse_readings]
    rw [hlast, hreadings]
    refine ⟨hd.exec c, ht.change (change_exec hd c) ?_⟩
    rw [← hreadings]
    exact List.pairwise_reverse.mpr hclock

/-- **The runs of a type do not overlap in the table**: after any calls, by a clock that does not
run backwards, a row is over and was last updated before the next row of its type is created. -/
theorem postgres_runs_apart (config : Table configSchema) (calls : List Call)
    (hclock : (calls.flatMap readings).Pairwise (· ≤ ·)) {i : JobId} {j : Job}
    (hj : ((migrated config).afterCalls calls).getJob i = some j) : j.createdAt ≤ j.updatedAt ∧
      ∀ i' j', ((migrated config).afterCalls calls).getJob i' = some j' → i < i' →
        j.jobType = j'.jobType →
        j.status ∈ JobStatus.terminal ∧ j.updatedAt ≤ j'.createdAt :=
  (successive calls hclock).2.runs_apart (fun i j hj => by
    obtain ⟨r, hr, rfl⟩ := getJob_eq_some.mp hj
    obtain ⟨hmem, hid⟩ := Table.find?_eq_some.mp hr
    exact ⟨List.mem_map_of_mem hmem, hid⟩) hj

end Columns

attribute [local instance] ColumnTypes.nulFree in
/-- A refused `INSERT` while the run is retried, and one when it has failed. -/
theorem postgres_runs_apart_refused :
    let d := (migrated ∅).afterCalls [.enqueue "hello" none none 0 0, .claim 1 2,
      .enqueue "hello" none none 3 3, .requeueStuck 1 5, .claim 1 6, .fail 1 9,
      .enqueue "hello" none none 10 10]
    ∃ j j', d.getJob 1 = some j ∧ d.getJob 3 = some j' ∧ j.updatedAt ≤ j'.createdAt := by
  intro d
  obtain ⟨j, hj, htype⟩ : ∃ j, d.getJob 1 = some j ∧ j.jobType = "hello" := ⟨_, rfl, rfl⟩
  obtain ⟨j', hj', htype'⟩ : ∃ j', d.getJob 3 = some j' ∧ j'.jobType = "hello" := ⟨_, rfl, rfl⟩
  have h := postgres_runs_apart ∅ [.enqueue "hello" none none 0 0, .claim 1 2,
    .enqueue "hello" none none 3 3, .requeueStuck 1 5, .claim 1 6, .fail 1 9,
    .enqueue "hello" none none 10 10] (by decide) hj
  exact ⟨j, j', hj, hj', (h.2 3 j' hj' (by decide) (htype.trans htype'.symm)).2⟩

end PostgresStore

end JobWorkflow
