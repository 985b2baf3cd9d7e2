import JobWorkflow.Common.Rows
import JobWorkflow.Machinery.Serial

/-!
# Common/Scheduling — both stores are serial schedulers

What the store is for, without its tables: it takes the runs of each job type one after another,
hands each out when it is claimed, and lets the reaper retry it as often as the type's cap allows.
`queued` and `dispatched` are one phase, and payloads, times, creators and the outbox do not matter.

Under any sequence of calls with arbitrary arguments, `InMemoryStore` (`inMemory_schedules`) and
`PostgresStore` (`postgres_schedules`) show what a scheduler reaches, and answer the next call as
the scheduler does: what they grant happens there, and what they refuse is refused there.  What the
columns do not take is no request to the scheduler.
-/

namespace JobWorkflow

open Serial

/-! ## Calls as events -/

namespace JobStatus

/-- What a status is to a scheduler. -/
def phase : JobStatus → Phase
  | queued | dispatched => .waiting
  | running => .underway
  | completed => .over true
  | failed => .over false

theorem phase_over (st : JobStatus) : st.phase.Over ↔ st ∉ active := by
  cases st <;> decide

theorem phase_eq_waiting (st : JobStatus) : st.phase = .waiting ↔ st ∈ [queued, dispatched] := by
  cases st <;> decide

theorem phase_eq_underway (st : JobStatus) : st.phase = .underway ↔ st = running := by
  cases st <;> decide

end JobStatus

/-- What a call asks of the scheduler, if anything; a new job would get the id `next`. -/
def Call.event (next : JobId) : Call → Option (Event String JobId)
  | .enqueue t _ _ _ _ => some (.submit t next)
  | .claim i _ => some (.order i .start)
  | .complete i _ => some (.order i (.finish true))
  | .fail i _ | .deadLetter i _ => some (.order i (.finish false))
  | .requeueStuck i _ => some (.order i .retry)
  | .setTypeConfig t _ cap _ => some (.limit t cap)
  | .fetchUnpublished _ | .markDispatched _ _ _ | .resolvePayload _ _ _ | .findStuck _
  | .getJob _ => none

/-- Whether the reply says that it happened. -/
def Call.granted (r : Reply) : Call → Bool
  | .setTypeConfig _ _ _ _ => true
  | _ => r.effective

/-- The scheduler has these runs and caps. -/
structure Shown (runs : List (Run String JobId)) (cap : String → ℤ)
    (S : Scheduler String JobId) : Prop where
  runs : S.runs = runs
  cap : S.cap = cap

/-- **The answer to a call is the scheduler's**: it is granted what the scheduler admits, and only
that, and what there is to show afterwards is what the scheduler has come to. -/
inductive Answers (S : Scheduler String JobId) (shown : Scheduler String JobId → Prop) :
    Option (Event String JobId) → Bool → Prop
  | granted {e S'} (h : S.step e = some S') (hS' : shown S') : Answers S shown (some e) true
  | refused {e} (h : S.step e = none) (hS : shown S) : Answers S shown (some e) false
  | silent {b} (hS : shown S) : Answers S shown none b

/-- From those caps, a scheduler reaches what is shown. -/
def Scheduled (cap : String → ℤ) (shown : Scheduler String JobId → Prop) : Prop :=
  ∃ S, Runs.Reachable Scheduler.step (.idle cap) S ∧ shown S

theorem Answers.scheduled {S : Scheduler String JobId} {cap : String → ℤ}
    {shown : Scheduler String JobId → Prop} {e : Option (Event String JobId)} {b : Bool}
    (h : Answers S shown e b) (hS : Runs.Reachable Scheduler.step (.idle cap) S) :
    Scheduled cap shown := by
  cases h with
  | granted h hS' => exact ⟨_, hS.snoc h, hS'⟩
  | refused h hshown => exact ⟨S, hS, hshown⟩
  | silent hshown => exact ⟨S, hS, hshown⟩

section Answers

variable {S : Scheduler String JobId} {runs runs' : List (Run String JobId)} {cap : String → ℤ}
  {t : String} {i : JobId} {o : Order} {r r' : Run String JobId}

theorem Shown.submit (hS : Shown runs cap S) (hid : ∀ r ∈ runs, r.id ≠ i)
    (hover : ∀ r ∈ runs, r.key = t → r.phase.Over) (h : runs' = runs ++ [⟨i, t, .waiting, 0⟩]) :
    Answers S (Shown runs' cap) (some (.submit t i)) true := by
  obtain ⟨rfl, rfl⟩ := hS
  have hnew : i ∉ S.runs.map Run.id := fun hmem => by
    obtain ⟨r, hr, he⟩ := List.mem_map.mp hmem
    exact hid r hr he
  obtain ⟨S', hstep, hruns, hcap⟩ := Scheduler.step_submit hnew hover
  exact .granted hstep ⟨hruns.trans h.symm, hcap⟩

theorem Shown.submit_refused (hS : Shown runs cap S) (hr : r ∈ runs) (hkey : r.key = t)
    (hover : ¬ r.phase.Over) : Answers S (Shown runs cap) (some (.submit t i)) false := by
  obtain ⟨rfl, rfl⟩ := hS
  exact .refused (Scheduler.step_submit_eq_none hr hkey hover) ⟨rfl, rfl⟩

theorem Shown.order (hS : Shown runs cap S) (hr : r ∈ runs) (hid : r.id = i)
    (hon : o.on (cap r.key) r = some r')
    (h : runs' = runs.map fun q => if q.id = i then r' else q) :
    Answers S (Shown runs' cap) (some (.order i o)) true := by
  obtain ⟨rfl, rfl⟩ := hS
  obtain ⟨S', hstep, hruns, hcap⟩ := Scheduler.step_order hr hid hon
  exact .granted hstep ⟨hruns.trans h.symm, hcap⟩

theorem Shown.order_refused (hS : Shown runs cap S)
    (h : ∀ r ∈ runs, r.id = i → o.on (cap r.key) r = none) :
    Answers S (Shown runs cap) (some (.order i o)) false := by
  obtain ⟨rfl, rfl⟩ := hS
  exact .refused (Scheduler.step_order_eq_none h) ⟨rfl, rfl⟩

theorem Shown.limit (hS : Shown runs cap S) (n : ℤ) :
    Answers S (Shown runs (Function.update cap t n)) (some (.limit t n)) true := by
  obtain ⟨rfl, rfl⟩ := hS
  exact .granted rfl ⟨rfl, rfl⟩

end Answers

/-! ## `InMemoryStore` -/

/-- What job `i` is to a scheduler. -/
def Job.run (i : JobId) (j : Job) : Run String JobId := ⟨i, j.jobType, j.status.phase, j.attempts⟩

namespace InMemoryStore

variable {s : InMemoryStore} {S : Scheduler String JobId} {i : JobId} {j j' : Job} {o : Order}

/-- The jobs, in the order of their insertion. -/
def runs (s : InMemoryStore) : List (Run String JobId) := s.jobs.items.map fun e => e.2.run e.1

/-- What a scheduler is to show, to be the store. -/
abbrev Shows (s : InMemoryStore) : Scheduler String JobId → Prop := Shown s.runs s.maxAttempts

theorem mem_runs {r : Run String JobId} :
    r ∈ s.runs ↔ ∃ i j, s.getJob i = some j ∧ r = j.run i := by
  rw [runs, List.mem_map]
  constructor
  · rintro ⟨⟨i, j⟩, he, rfl⟩
    exact ⟨i, j, Dict.get?_eq_some.mpr he, rfl⟩
  · rintro ⟨i, j, hj, rfl⟩
    exact ⟨(i, j), Dict.get?_eq_some.mp hj, rfl⟩

/-- A run is replaced where it stands. -/
theorem runs_set (hj : s.getJob i = some j) (j' : Job) :
    (s.jobs.set i j').items.map (fun e => e.2.run e.1) =
      s.runs.map fun q => if q.id = i then j'.run i else q := by
  rw [runs, Dict.items_set_of_get?_some j' hj, List.map_map, List.map_map]
  refine List.map_congr_left fun e _ => ?_
  rw [Function.comp_apply, Function.comp_apply]
  change Job.run _ _ = if e.1 = i then _ else _
  split
  · rfl
  · rfl

/-- A job may be rewritten in what the scheduler does not look at. -/
theorem runs_set_same (hj : s.getJob i = some j) (h : j'.run i = j.run i) :
    (s.jobs.set i j').items.map (fun e => e.2.run e.1) = s.runs := by
  rw [runs_set hj, h, runs, List.map_map]
  refine List.map_congr_left fun e he => ?_
  rw [Function.comp_apply]
  change (if e.1 = i then _ else _) = _
  split
  · rename_i hi
    have he' : s.getJob i = some e.2 := Dict.get?_eq_some.mpr (hi ▸ he)
    rw [Option.some.inj (hj.symm.trans he'), hi]
  · rfl

theorem answers_guarded (hS : s.Shows S) {guard : Job → Bool} {update : Job → Job}
    (hyes : ∀ j, guard j = true →
      o.on (s.maxAttempts j.jobType) (j.run i) = some ((update j).run i))
    (hno : ∀ j, guard j = false → o.on (s.maxAttempts j.jobType) (j.run i) = none) :
    Answers S (guardedUpdate guard update i s).2.Shows (some (.order i o))
      (guardedUpdate guard update i s).1 := by
  rcases guardedUpdate_cases guard update i s with ⟨j, hj, hg, he⟩ | ⟨hrefuse, he⟩
  · rw [he]
    exact hS.order (mem_runs.mpr ⟨i, j, hj, rfl⟩) rfl (hyes j hg) (runs_set hj _)
  · rw [he]
    refine hS.order_refused fun r hr hid => ?_
    obtain ⟨k, j, hj, rfl⟩ := mem_runs.mp hr
    obtain rfl : k = i := hid
    exact hno j (hrefuse j hj)

theorem answers_terminate (hS : s.Shows S) (success : Bool) {st : JobStatus}
    (hst : st.phase = .over success) (now : Time) :
    Answers S (terminate i st now s).2.Shows (some (.order i (.finish success)))
      (terminate i st now s).1 := by
  refine answers_guarded hS (fun j hg => ?_) fun j hg => ?_
  · refine (if_pos ((JobStatus.phase_eq_underway _).mpr (of_decide_eq_true hg))).trans ?_
    rw [Job.run, Job.run, hst]
  · exact if_neg fun h => of_decide_eq_false hg ((JobStatus.phase_eq_underway _).mp h)

theorem maxAttempts_setTypeConfig (s : InMemoryStore) (t : String) (timeout : Duration) (cap : ℤ)
    (p : Option Payload) :
    (s.setTypeConfig t timeout cap p).maxAttempts = Function.update s.maxAttempts t cap := by
  funext t'
  rw [maxAttempts, setTypeConfig, Dict.get?_set, Function.update_apply]
  by_cases ht : t' = t
  · rw [if_pos ht, if_pos ht]
  · rw [if_neg ht, if_neg ht]
    rfl

/-- **The store answers every call as the scheduler that it shows.** -/
theorem answers_exec (hw : WellKeyed s) (hS : s.Shows S) (c : Call) :
    Answers S (exec s c).2.Shows (c.event s.nextJobId) (c.granted (exec s c).1) := by
  cases c with
  | enqueue t p cr ca ua =>
    cases ha : s.active t with
    | true =>
      have he : s.enqueue t p cr ca ua = (none, s) := if_pos ha
      obtain ⟨i, j, hj, ht, hact⟩ := active_iff.mp ha
      rw [exec, he]
      exact hS.submit_refused (mem_runs.mpr ⟨i, j, hj, rfl⟩) ht
        fun h => (JobStatus.phase_over _).mp h hact
    | false =>
      rw [exec, enqueue, if_neg (by rw [ha]; exact Bool.false_ne_true)]
      refine hS.submit (fun r hr => ?_) (fun r hr ht => ?_) ?_
      · obtain ⟨i, j, hj, rfl⟩ := mem_runs.mp hr
        exact (hw.lt_next i j hj).ne
      · obtain ⟨i, j, hj, rfl⟩ := mem_runs.mp hr
        refine (JobStatus.phase_over _).mpr fun hact => ?_
        rw [active_iff.mpr ⟨i, j, hj, ht, hact⟩] at ha
        exact Bool.false_ne_true ha.symm
      · change (s.jobs.set _ _).items.map _ = _
        rw [Dict.items_set_of_get?_none _ hw.next_free, List.map_append]
        rfl
  | claim i now =>
    refine answers_guarded hS (fun j hg => ?_) fun j hg => ?_
    · exact if_pos ((JobStatus.phase_eq_waiting _).mpr (of_decide_eq_true hg))
    · exact if_neg fun h => of_decide_eq_false hg ((JobStatus.phase_eq_waiting _).mp h)
  | complete i now => exact answers_terminate hS true rfl now
  | fail i now | deadLetter i now => exact answers_terminate hS false rfl now
  | requeueStuck i now =>
    rw [exec]
    rcases requeueStuck_cases i now s with ⟨j, hj, hrun, hcap, he⟩ | ⟨hrefuse, he⟩
    · rw [he]
      refine hS.order (mem_runs.mpr ⟨i, j, hj, rfl⟩) rfl (if_pos ⟨?_, hcap⟩) (runs_set hj _)
      exact (JobStatus.phase_eq_underway _).mpr hrun
    · rw [he]
      refine hS.order_refused fun r hr hid => if_neg fun h => ?_
      obtain ⟨k, j, hj, rfl⟩ := mem_runs.mp hr
      obtain rfl : k = i := hid
      exact absurd h.2 (not_lt.mpr (hrefuse j hj ((JobStatus.phase_eq_underway _).mp h.1)))
  | setTypeConfig t timeout cap p =>
    have hcap := maxAttempts_setTypeConfig s t timeout cap p
    rw [exec, Shows, hcap]
    exact hS.limit cap
  | markDispatched o i now =>
    refine .silent ?_
    rw [exec, markDispatched]
    rcases guardedUpdate_cases (fun job => job.status = .queued)
      (fun job => { job with status := .dispatched, updatedAt := now }) i
      { s with published := insert o s.published } with ⟨j, hj, hg, he⟩ | ⟨-, he⟩
    · rw [he]
      have hq : j.status = .queued := of_decide_eq_true hg
      have hsame : Job.run i { j with status := .dispatched, updatedAt := now } = j.run i := by
        rw [Job.run, Job.run, hq]
        rfl
      exact ⟨hS.runs.trans (runs_set_same (s := s) hj hsame).symm, hS.cap⟩
    · rw [he]
      exact ⟨hS.runs, hS.cap⟩
  | resolvePayload i t now =>
    refine .silent ?_
    rw [exec]
    rcases resolvePayload_cases i t now s with ⟨j, -, p, hj, -, -, -, he⟩ | ⟨hs, -⟩
    · rw [he]
      have hsame : Job.run i { j with payload := .object p, updatedAt := now } = j.run i := rfl
      exact ⟨hS.runs.trans (runs_set_same hj hsame).symm, hS.cap⟩
    · rw [Prod.map, hs]
      exact hS
  | fetchUnpublished limit | findStuck now | getJob i => exact .silent hS

end InMemoryStore

/-- **`InMemoryStore` is a serial scheduler**: after any calls with arbitrary arguments it shows
what a scheduler reaches, and it answers the next call as that scheduler. -/
theorem inMemory_schedules {ι : Type} {cfg : Dict String TypeConfig} {l : Ledger ι}
    (h : Runs.Reachable Ledger.step (Ledger.start cfg) l) : ∃ S : Scheduler String JobId,
    Runs.Reachable Scheduler.step (.idle (Ledger.start (ι := ι) cfg).store.maxAttempts) S ∧
    l.store.Shows S ∧
    ∀ c, Answers S (exec l.store c).2.Shows (c.event l.store.nextJobId)
      (c.granted (exec l.store c).1) := by
  have hreached := Ledger.induction
    (I := fun l : Ledger ι =>
      Scheduled (Ledger.start (ι := ι) cfg).store.maxAttempts l.store.Shows)
    ⟨_, .refl, rfl, rfl⟩ (fun l actor c hw hl => by
      obtain ⟨S, hreach, hS⟩ := hl
      exact (l.store.answers_exec hw hS c).scheduled hreach) h
  obtain ⟨hw, S, hreach, hS⟩ := hreached
  exact ⟨S, hreach, hS, l.store.answers_exec hw hS⟩

/-- While a run waits to be tried again, its type is refused another. -/
theorem inMemory_schedules_retried : ∃ S : Scheduler String JobId,
    S.runs = [⟨1, "hello", .waiting, 1⟩] ∧ S.step (.submit "hello" 2) = none := by
  let l : Ledger Unit := ((((Ledger.start ∅).perform () (.enqueue "hello" none none 0 0)).perform ()
    (.claim 1 1)).perform () (.requeueStuck 1 2))
  obtain ⟨S, -, hS, hanswers⟩ := inMemory_schedules (l := l)
    ⟨[((), .enqueue "hello" none none 0 0), ((), .claim 1 1), ((), .requeueStuck 1 2)], rfl⟩
  refine ⟨S, hS.runs, ?_⟩
  have hrefused : Answers S l.store.Shows (some (.submit "hello" 2)) false :=
    hanswers (.enqueue "hello" none none 3 3)
  cases hrefused with
  | refused h => exact h

/-! ## `PostgresStore` -/

/-- What a row of `jobs` is to a scheduler. -/
def JobRow.run (r : JobRow) : Run String JobId := ⟨r.id, r.jobType, r.status.phase, r.attempts⟩

namespace PostgresStore

variable {d : PostgresStore} {S : Scheduler String JobId} {i : JobId} {o : Order}

def runs (d : PostgresStore) : List (Run String JobId) := d.jobs.rows.map JobRow.run

abbrev Shows (d : PostgresStore) : Scheduler String JobId → Prop := Shown d.runs d.maxAttempts

/-- An `UPDATE` of what the scheduler does not look at. -/
theorem runs_map_same {g : JobRow → JobRow} (h : ∀ r, (g r).run = r.run) :
    (d.jobs.rows.map g).map JobRow.run = d.runs := by
  rw [runs, List.map_map]
  exact List.map_congr_left fun r _ => h r

/-- **A guarded `UPDATE` of one job** is granted if it finds the row as it asks. -/
theorem answers_updated (hS : d.Shows S) {p : JobRow → Bool} {f : JobRow → JobRow}
    {d' : PostgresStore} (hrows : d'.jobs.rows = d.jobs.rows.map (Table.after (Table.setWhere p f)))
    (hcap : d'.maxAttempts = d.maxAttempts) (hkey : ∀ r, p r = true → r.id = i)
    (hyes : ∀ r, p r = true → o.on (d.maxAttempts r.jobType) r.run = some (f r).run)
    (hno : ∀ r, r.id = i → p r = false → o.on (d.maxAttempts r.jobType) r.run = none) :
    Answers S d'.Shows (some (.order i o)) (d.rowcount p = 1) := by
  have hruns : d'.runs = d.jobs.rows.map fun q => if p q then (f q).run else q.run := by
    rw [runs, hrows, List.map_map]
    refine List.map_congr_left fun q _ => ?_
    rw [Function.comp_apply, Table.after_setWhere]
    split
    · rfl
    · rfl
  rw [Shows, hcap, hruns]
  by_cases hex : ∃ r ∈ d.jobs.rows, p r = true
  · obtain ⟨r, hr, hp⟩ := hex
    have hfind : d.jobs.find? i = some r := Table.find?_eq_some.mpr ⟨hr, hkey r hp⟩
    have hone : d.rowcount p = 1 := Table.countP_key hfind hp hkey
    rw [decide_eq_true hone]
    refine hS.order (List.mem_map_of_mem hr) (hkey r hp) (hyes r hp) ?_
    rw [runs, List.map_map]
    refine List.map_congr_left fun q hq => ?_
    rw [Function.comp_apply]
    change _ = if q.id = i then _ else _
    by_cases hqi : q.id = i
    · obtain rfl := List.inj_on_of_nodup_map d.jobs.nodup_key hq hr (hqi.trans (hkey r hp).symm)
      rw [if_pos hp, if_pos hqi]
    · rw [if_neg fun h => hqi (hkey q h), if_neg hqi]
  · have hnone : ∀ r ∈ d.jobs.rows, ¬ p r = true := fun r hr hp => hex ⟨r, hr, hp⟩
    have hzero : d.rowcount p = 0 := List.countP_eq_zero.mpr hnone
    rw [hzero, List.map_congr_left fun q hq => if_neg (hnone q hq)]
    refine hS.order_refused fun r hr hri => ?_
    obtain ⟨q, hq, rfl⟩ := List.mem_map.mp hr
    exact hno q hri (Bool.eq_false_iff.mpr (hnone q hq))

/-- `complete`, `fail` and `dead_letter`. -/
theorem answers_terminated (hS : d.Shows S) {success : Bool} {st : JobStatus}
    (hst : st.phase = .over success) {now : Time} {d' : PostgresStore}
    (hrows : d'.jobs.rows = d.jobs.rows.map (Table.after (Table.setWhere
      (fun r => r.id = i ∧ r.status ∈ [JobStatus.running])
      fun r => { r with status := st, updatedAt := now })))
    (hcap : d'.maxAttempts = d.maxAttempts) :
    Answers S d'.Shows (some (.order i (.finish success)))
      (d.rowcount (fun r => r.id = i ∧ r.status ∈ [JobStatus.running]) = 1) := by
  refine answers_updated hS hrows hcap (fun r hp => (of_decide_eq_true hp).1) (fun r hp => ?_)
    fun r hri hp => if_neg fun h => of_decide_eq_false hp ⟨hri, ?_⟩
  · have hrun := List.mem_singleton.mp (of_decide_eq_true hp).2
    refine (if_pos ((JobStatus.phase_eq_underway _).mpr hrun)).trans ?_
    rw [JobRow.run, JobRow.run, hst]
  · exact List.mem_singleton.mpr ((JobStatus.phase_eq_underway _).mp h)

theorem maxAttempts_setTypeConfig (d : PostgresStore) (t : String) (timeout : Duration) (cap : ℤ)
    (p : Option Payload) :
    (d.setTypeConfig t timeout cap p).maxAttempts = Function.update d.maxAttempts t cap := by
  funext t'
  rw [Function.update_apply]
  change (((d.jobTypeConfig.upsert _ (configSchema_index _)).find? t').map _).getD _ = _
  rw [Table.find?_upsert]
  change (Option.map _ (if t' = t then _ else _)).getD _ = _
  by_cases ht : t' = t
  · rw [if_pos ht, if_pos ht]
    rfl
  · rw [if_neg ht, if_neg ht]
    rfl

variable [ColumnTypes]

/-- A call whose values are not taken raises, and changes nothing. -/
theorem exec_of_not_takesCall {c : Call} (hc : takesCall c = false) :
    d.exec c = (.raised .dataError, d) := by
  cases c with
  | enqueue t p cr ca ua =>
    rcases d.exec_enqueue t p cr ca ua with ⟨-, he⟩ | ⟨ht, -⟩
    · exact he
    · exact nomatch hc.symm.trans ht
  | setTypeConfig t timeout cap p =>
    rcases d.exec_setTypeConfig t timeout cap p with ⟨-, he⟩ | ⟨ht, -⟩
    · exact he
    · exact nomatch hc.symm.trans ht
  | _ => exact nomatch hc

/-- **The store answers every call as the scheduler that it shows**, if the columns take the
values. -/
theorem answers_exec (hd : Paired d) (hS : d.Shows S) {c : Call} (hc : takesCall c = true) :
    Answers S (d.exec c).2.Shows (c.event d.jobIdentity) (c.granted (d.exec c).1) := by
  cases c with
  | enqueue t p cr ca ua =>
    rcases d.exec_enqueue t p cr ca ua with ⟨hno, -⟩ | ⟨-, hexec⟩
    · exact nomatch hno.symm.trans hc
    rw [hexec]
    by_cases hfit : d.jobs.Fits (newRow d.jobIdentity t p (cr.getD .anonymous) ca)
    · obtain ⟨hofit, he⟩ := insertJob_of_fits hfit fun row hrow =>
        hd.outbox.id_lt row.message (List.mem_map_of_mem hrow)
      rw [he]
      refine hS.submit (fun r hr => ?_) (fun r hr ht => ?_) (List.map_append ..)
      · obtain ⟨q, hq, rfl⟩ := List.mem_map.mp hr
        exact (hd.id_lt q hq).ne
      · obtain ⟨q, hq, rfl⟩ := List.mem_map.mp hr
        exact (JobStatus.phase_over _).mpr ((fits_iff hd).mp hfit q hq ht)
    · rw [insertJob_of_not_fits hfit]
      rw [fits_iff hd] at hfit
      push Not at hfit
      obtain ⟨r, hr, ht, hact⟩ := hfit
      exact hS.submit_refused (List.mem_map_of_mem hr) ht
        fun h => (JobStatus.phase_over _).mp h hact
  | claim i now =>
    refine answers_updated hS rfl rfl (fun r hp => (of_decide_eq_true hp).1) (fun r hp => ?_)
      fun r hri hp => if_neg fun h => of_decide_eq_false hp ⟨hri, ?_⟩
    · exact if_pos ((JobStatus.phase_eq_waiting _).mpr (of_decide_eq_true hp).2)
    · exact (JobStatus.phase_eq_waiting _).mp h
  | complete i now | fail i now | deadLetter i now => exact answers_terminated hS rfl rfl rfl
  | requeueStuck i now =>
    have hflag : (d.requeueStuck i now).1 = decide (d.rowcount (fun r => r.id = i ∧
        r.status = .running ∧ (r.attempts : ℤ) < d.maxAttempts r.jobType) = 1) := by
      simp only [requeueStuck]
      split
      · rw [decide_eq_false ‹_›]
      · rw [decide_eq_true (not_not.mp ‹_›)]
    change Answers S _ _ (d.requeueStuck i now).1
    rw [hflag]
    have hcap : (d.requeueStuck i now).2.maxAttempts = d.maxAttempts :=
      funext fun t => by rw [maxAttempts, requeueStuck_jobTypeConfig, maxAttempts]
    refine answers_updated hS (d.requeueStuck_rows i now) hcap
      (fun r hp => (of_decide_eq_true hp).1) (fun r hp => if_pos ?_)
      fun r hri hp => if_neg fun h => of_decide_eq_false hp ⟨hri, ?_⟩
    · exact (of_decide_eq_true hp).2.imp_left (JobStatus.phase_eq_underway _).mpr
    · exact h.imp_left (JobStatus.phase_eq_underway _).mp
  | setTypeConfig t timeout cap p =>
    rcases d.exec_setTypeConfig t timeout cap p with ⟨hno, -⟩ | ⟨-, he⟩
    · exact nomatch hno.symm.trans hc
    have hcap := maxAttempts_setTypeConfig d t timeout cap p
    rw [he, Shows, hcap]
    exact hS.limit cap
  | markDispatched o i now =>
    have hsame : (d.exec (.markDispatched o i now)).2.runs = d.runs := by
      refine runs_map_same fun r => ?_
      rw [Table.after_setWhere]
      split
      · rename_i hp
        rw [JobRow.run, JobRow.run, (of_decide_eq_true hp).2]
        rfl
      · rfl
    exact .silent ⟨hS.runs.trans hsame.symm, hS.cap⟩
  | resolvePayload i t now =>
    have hsame : (d.exec (.resolvePayload i t now)).2.runs = d.runs := by
      refine runs_map_same fun r => ?_
      rw [Table.after]
      cases d.jobTypeConfig.rows.find? fun c =>
          r.id = i ∧ c.jobType = t ∧ r.status = .running with
      | none => rfl
      | some c => rfl
    exact .silent ⟨hS.runs.trans hsame.symm, hS.cap⟩
  | fetchUnpublished limit =>
    rw [exec_fetchUnpublished]
    exact .silent hS
  | findStuck now | getJob i => exact .silent hS

end PostgresStore

/-- **`PostgresStore` is a serial scheduler**, the same one: after any calls with arbitrary
arguments its tables show what a scheduler reaches, and they answer the next call as that
scheduler, unless the columns do not take its values: then it raises, and changes nothing. -/
theorem postgres_schedules [ColumnTypes] {config : Table configSchema} {d : PostgresStore}
    (h : Runs.Reachable PostgresStore.step (PostgresStore.migrated config) d) :
    ∃ S : Scheduler String JobId, Runs.Reachable Scheduler.step
      (.idle (PostgresStore.migrated config).maxAttempts) S ∧ d.Shows S ∧
    ∀ c, (PostgresStore.takesCall c = true →
        Answers S (d.exec c).2.Shows (c.event d.jobIdentity) (c.granted (d.exec c).1)) ∧
      (PostgresStore.takesCall c = false → d.exec c = (.raised .dataError, d)) := by
  have hreached := h.invariant
    (I := fun d => PostgresStore.Paired d ∧
      Scheduled (PostgresStore.migrated config).maxAttempts d.Shows)
    ⟨.migrated config, _, .refl, rfl, rfl⟩ (fun d c d' hd hc => by
      obtain ⟨hd, S, hreach, hS⟩ := hd
      obtain rfl := Option.some.inj hc
      refine ⟨hd.exec c, ?_⟩
      cases hc : PostgresStore.takesCall c with
      | true => exact (PostgresStore.answers_exec hd hS hc).scheduled hreach
      | false =>
        rw [PostgresStore.exec_of_not_takesCall hc]
        exact ⟨S, hreach, hS⟩)
  obtain ⟨hd, S, hreach, hS⟩ := hreached
  exact ⟨S, hreach, hS, fun c => ⟨PostgresStore.answers_exec hd hS,
    PostgresStore.exec_of_not_takesCall⟩⟩

attribute [local instance] ColumnTypes.nulFree

/-- A type without retries: its stuck run is not queued again. -/
theorem postgres_schedules_unretried : ∃ S : Scheduler String JobId,
    S.runs = [⟨1, "hello", .underway, 0⟩] ∧ S.step (.order 1 .retry) = none := by
  let calls : List Call := [.setTypeConfig "hello" 5 0 none, .enqueue "hello" none none 0 0,
    .claim 1 1]
  obtain ⟨S, -, hS, hanswers⟩ := postgres_schedules
    (PostgresStore.reachable_afterCalls (.migrated ∅) calls)
  refine ⟨S, hS.runs, ?_⟩
  have hrefused : Answers S ((PostgresStore.migrated ∅).afterCalls calls).Shows
      (some (.order 1 .retry)) false := (hanswers (.requeueStuck 1 9)).1 rfl
  cases hrefused with
  | refused h => exact h

end JobWorkflow
