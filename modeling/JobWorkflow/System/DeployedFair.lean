import JobWorkflow.System.Fair
import JobWorkflow.System.Transport

/-!
# System/DeployedFair — in a fair run of what is deployed every job ends

A fair run over `PostgresStore` is a fair run over `InMemoryStore`, state by state, under a renaming
of job ids that only grows (`System/Deployed`); so what `System/Fair` says of the one holds of the
other.
-/

namespace JobWorkflow

open Runs Filter

namespace Deployed

open JobWorkflow.System (Action)

variable [ColumnTypes]

/-- At time `n` some dispatcher starts a `dispatch_once` with room in its batch, and it is not
stopped before it has gone through the batch. -/
def Dispatches (p : Path step) (n : ℕ) : Prop := ∃ x limit now m, 0 < limit ∧
  p.act n = .dispatch x limit now ∧ ((p.state n).dispatchers x).messages = [] ∧ n < m ∧
  ((p.state m).dispatchers x).messages = [] ∧ ∀ k, n < k → k < m → p.act k ≠ .stopDispatcher x

/-- At time `n`, and past time `t` of its clock, some reaper starts a `reap_once`, and it is not
stopped before it has gone through its listing. -/
def Reaps (p : Path step) (t : Time) (n : ℕ) : Prop := ∃ r now m, t < now ∧
  p.act n = .find r now ∧ n < m ∧ (∃ sweep, (p.state m).reapers r = some sweep ∧ sweep.stuck = []) ∧
  ∀ k, n < k → k < m → p.act k ≠ .stopReaper r

/-- A worker makes its claim with the message at the offset. -/
def TriesAt (d : Deployed) (a : Action) (offset : ℕ) : Prop := ∃ w now inv, a = .work w now ∧
  d.workers w = some inv ∧ inv.stage = .claim ∧ inv.offset = offset

/-- **A fair run**: from some time on nobody configures, the dispatchers and the reapers come to the
ends of their rounds over and over, and every message is tried until it is committed. -/
structure Fair (p : Path step) : Prop where
  fixed : ∀ᶠ n in atTop, ¬ (p.act n).Configures
  dispatches : ∃ᶠ n in atTop, Dispatches p n
  delivers : ∀ n, ∀ offset < (p.state n).produced.length, ∃ m ≥ n,
    offset ∈ (p.state m).committed ∨ TriesAt (p.state m) (p.act m) offset
  reaps : ∀ t, ∃ᶠ n in atTop, Reaps p t n

end Deployed

/-! ## The same run over the other store -/

open JobWorkflow.System (helloConfig)

variable {ρ : Renaming} {table : Table configSchema} {cfg : Dict String TypeConfig}

theorem System.Action.configures_oneClock (a : System.Action) :
    a.oneClock.Configures ↔ a.Configures := by
  cases a <;> exact Iff.rfl

/-- Only of an enqueue is a clock reading left out. -/
theorem System.Action.oneClock_eq {a b : System.Action}
    (hb : ∀ t p cr ca ua, b ≠ .enqueue t p cr ca ua) : a.oneClock = b ↔ a = b := by
  cases a with
  | enqueue => exact ⟨fun h => absurd h.symm (hb _ _ _ _ _), fun h => absurd h.symm (hb _ _ _ _ _)⟩
  | _ => exact Iff.rfl

namespace Matches

variable {s : System} {d : Deployed}

theorem idle_iff (h : Matches ρ s d) (n : ℕ) :
    (s.dispatchers n).messages = [] ↔ (d.dispatchers n).messages = [] := by
  rw [← List.length_eq_zero_iff, (h.dispatchers n).messages.length_eq, List.length_eq_zero_iff]

theorem swept_iff (h : Matches ρ s d) (r : ℕ) :
    (∃ sweep, s.reapers r = some sweep ∧ sweep.stuck = []) ↔
      ∃ sweep, d.reapers r = some sweep ∧ sweep.stuck = [] := by
  rcases (h.reapers r).eq_cases with ⟨hr, hr'⟩ | ⟨sweep, sweep', hr, hr', hrel⟩
  · simp [hr, hr']
  · have hdone : sweep.stuck = [] ↔ sweep'.stuck = [] := by
      rw [← List.length_eq_zero_iff, hrel.stuck.length_eq, List.length_eq_zero_iff]
    simp [hr, hr', hdone]

theorem triesAt_iff (h : Matches ρ s d) (a : System.Action) (offset : ℕ) :
    System.TriesAt s a.oneClock offset ↔ Deployed.TriesAt d a offset := by
  constructor
  · rintro ⟨w, now, inv, ha, hw, hst, ho⟩
    rcases (h.workers w).eq_cases with ⟨hno, -⟩ | ⟨_, inv', hw', hw'', hrel⟩
    · exact nomatch hno.symm.trans hw
    · obtain rfl := Option.some.inj (hw'.symm.trans hw)
      exact ⟨w, now, inv', (System.Action.oneClock_eq (by simp)).mp ha, hw'',
        hrel.stage.symm.trans hst, hrel.offset.symm.trans ho⟩
  · rintro ⟨w, now, inv', rfl, hw', hst, ho⟩
    rcases (h.workers w).eq_cases with ⟨-, hno⟩ | ⟨inv, _, hw, hw'', hrel⟩
    · exact nomatch hno.symm.trans hw'
    · obtain rfl := Option.some.inj (hw''.symm.trans hw')
      exact ⟨w, now, inv, rfl, hw, hrel.stage.trans hst, hrel.offset.trans ho⟩

end Matches

section Paths

variable [ColumnTypes] {p : Path Deployed.step} {q : Path System.step}
  (hact : ∀ n, q.act n = (p.act n).oneClock) (hm : ∀ n, ∃ ρ, Matches ρ (q.state n) (p.state n))

include hact hm

theorem dispatches_iff (n : ℕ) : System.Dispatches q n ↔ Deployed.Dispatches p n := by
  have hdispatch : ∀ k x limit now,
      q.act k = .dispatch x limit now ↔ p.act k = .dispatch x limit now := fun k x limit now =>
    hact k ▸ System.Action.oneClock_eq (by simp)
  have hstop : ∀ k x, q.act k = .stopDispatcher x ↔ p.act k = .stopDispatcher x := fun k x =>
    hact k ▸ System.Action.oneClock_eq (by simp)
  have hidle : ∀ k x, ((q.state k).dispatchers x).messages = [] ↔
      ((p.state k).dispatchers x).messages = [] := fun k x => (hm k).elim fun _ h => h.idle_iff x
  simp only [System.Dispatches, Deployed.Dispatches, hdispatch, hstop, hidle, ne_eq]

theorem reaps_iff (t : Time) (n : ℕ) : System.Reaps q t n ↔ Deployed.Reaps p t n := by
  have hfind : ∀ k r now, q.act k = .find r now ↔ p.act k = .find r now := fun k r now =>
    hact k ▸ System.Action.oneClock_eq (by simp)
  have hstop : ∀ k r, q.act k = .stopReaper r ↔ p.act k = .stopReaper r := fun k r =>
    hact k ▸ System.Action.oneClock_eq (by simp)
  have hswept : ∀ k r, (∃ sweep, (q.state k).reapers r = some sweep ∧ sweep.stuck = []) ↔
      ∃ sweep, (p.state k).reapers r = some sweep ∧ sweep.stuck = [] := fun k r =>
    (hm k).elim fun _ h => h.swept_iff r
  simp only [System.Reaps, Deployed.Reaps, hfind, hstop, hswept, ne_eq]

/-- **The two runs are fair together.** -/
theorem fair_iff : System.Fair q ↔ Deployed.Fair p := by
  have hfixed : ∀ n, (q.act n).Configures ↔ (p.act n).Configures := fun n =>
    hact n ▸ (p.act n).configures_oneClock
  have hlength : ∀ n, (q.state n).produced.length = (p.state n).produced.length := fun n =>
    (hm n).elim fun _ h => h.produced.length_eq
  have hcommitted : ∀ n, (q.state n).committed = (p.state n).committed := fun n =>
    (hm n).elim fun _ h => h.committed
  have htries : ∀ n offset, System.TriesAt (q.state n) (q.act n) offset ↔
      Deployed.TriesAt (p.state n) (p.act n) offset := fun n offset =>
    (hm n).elim fun _ h => hact n ▸ h.triesAt_iff (p.act n) offset
  have hdispatches := dispatches_iff hact hm
  have hreaps := reaps_iff hact hm
  constructor
  · refine fun h => ⟨?_, ?_, ?_, ?_⟩
    · simpa only [hfixed] using h.fixed
    · simpa only [hdispatches] using h.dispatches
    · simpa only [hlength, hcommitted, htries] using h.delivers
    · simpa only [hreaps] using h.reaps
  · refine fun h => ⟨?_, ?_, ?_, ?_⟩
    · simpa only [hfixed] using h.fixed
    · simpa only [hdispatches] using h.dispatches
    · simpa only [hlength, hcommitted, htries] using h.delivers
    · simpa only [hreaps] using h.reaps

end Paths

/-- The renaming that two states match under grows along the paths. -/
theorem matches_grow [ColumnTypes] {p : Path Deployed.step} {q : Path System.step}
    (hact : ∀ n, q.act n = (p.act n).oneClock) (hty : ∀ n, (p.act n).Typed)
    (hm : ∀ n, Mirrored cfg (q.state n) (p.state n)) {n : ℕ}
    (h : Matches ρ (q.state n) (p.state n)) :
    ∀ k ≥ n, ∃ ρ', ρ ⊆ ρ' ∧ Matches ρ' (q.state k) (p.state k) := by
  intro k hk
  induction k, hk using Nat.le_induction with
  | base => exact ⟨ρ, List.Subset.refl ρ, h⟩
  | succ k hk ih =>
    obtain ⟨ρ₁, hρ₁, h₁⟩ := ih
    have htaken := Deployed.taken_of_step (p.next k)
    rcases (h₁.step (hm k).reachable (hty k) htaken).eq_cases with
      ⟨-, hno⟩ | ⟨s', d', hs', hd', ρ₂, hρ₂, h₂⟩
    · exact nomatch hno.symm.trans (p.next k)
    · rw [← hact] at hs'
      obtain rfl := Option.some.inj (hs'.symm.trans (q.next k))
      obtain rfl := Option.some.inj (hd'.symm.trans (p.next k))
      exact ⟨ρ₂, List.Subset.trans hρ₁ hρ₂, h₂⟩

/-! ## Every row ends -/

/-- **Every job that is deployed ends**: in a fair run over `PostgresStore` whose marks of queued
jobs find a live message, every row of `jobs` comes to a terminal status and keeps it. -/
theorem deployed_fair_jobs_end [ColumnTypes] (ht : Configured table) {as : List System.Action}
    (has : ∀ a ∈ as, a.Typed) {p : Path Deployed.step}
    (hrun : run Deployed.step (Deployed.start table) as = some (p.state 0))
    (hok : Along Deployed.step Deployed.MarksLive (Deployed.start table) as)
    (hty : ∀ n, (p.act n).Typed) (hmarks : ∀ n, Deployed.MarksLive (p.state n) (p.act n))
    (hfair : Deployed.Fair p) {n : ℕ} {i : JobId} {j : Job}
    (hj : (p.state n).store.getJob i = some j) :
    ∃ st ∈ JobStatus.terminal, ∀ᶠ k in atTop, (p.state k).status i = some st := by
  obtain ⟨cfg, hcfg⟩ := exists_sameConfig ht
  have hstart := mirrored_start hcfg
  have has' : ∀ a ∈ as, a.Typed ∧ a.Taken := fun a ha =>
    ⟨has a ha, Deployed.taken_of_run hrun a ha⟩
  rcases (lockstep System.Action.oneClock mirrored_step as has' hstart).eq_cases with
    ⟨-, hno⟩ | ⟨s, _, hs, hd, hm₀⟩
  · exact nomatch hno.symm.trans hrun
  obtain rfl := Option.some.inj (hd.symm.trans hrun)
  have hlive := (along_iff_of_lockstep System.Action.oneClock mirrored_step
    (fun s d a h _ => h.agree.elim fun _ h => h.marksLive_iff a) as has' hstart).mpr hok
  -- the path over the other store
  obtain ⟨q, rfl, hact, hm⟩ := p.lockstep System.Action.oneClock mirrored_step
    (fun n => ⟨hty n, Deployed.taken_of_step (p.next n)⟩) hm₀
  have hmarks' : ∀ n, System.MarksLive (q.state n) (q.act n) := by
    intro n
    obtain ⟨ρ, h⟩ := (hm n).agree
    rw [hact]
    exact (h.marksLive_iff _).mpr (hmarks n)
  -- the job of the row
  obtain ⟨ρ, h⟩ := (hm n).agree
  obtain ⟨i', j', hi, hj', -⟩ := h.job_of_row hj
  obtain ⟨j'', hend, hev⟩ := System.fair_jobs_end hs hlive hmarks'
    ((fair_iff hact fun n => (hm n).agree).mpr hfair) hj'
  refine ⟨j''.status, hend, ?_⟩
  filter_upwards [hev, eventually_ge_atTop n] with k hk hnk
  obtain ⟨ρ', hρ, h'⟩ := matches_grow hact hty hm h k hnk
  rw [← h'.status (h'.stores.mirrors.monotone.corr (hρ hi)), System.status, hk, Option.map_some]

/-- `job_type_config` with a row for the demo type. -/
def helloTable : Table configSchema :=
  (∅ : Table configSchema).upsert ⟨"hello", defaultRunTimeout, defaultMaxAttempts, .object ∅⟩
    (configSchema_index _)

theorem sameConfig_hello : SameConfig helloConfig helloTable := by
  intro t
  rw [helloConfig, helloTable, Dict.get?_set, Table.find?_upsert]
  change Option.Rel ConfigRel _ (if t = "hello" then _ else _)
  split
  · exact .some ⟨rfl, rfl, rfl⟩
  · exact .none

theorem configured_hello : Configured helloTable := by
  intro row hrow
  rcases Table.mem_upsert.mp hrow with rfl | ⟨hno, -⟩
  · exact ⟨∅, rfl⟩
  · exact absurd hno List.not_mem_nil

theorem vigil_ofComponents (n : ℕ) : (System.vigil n).OfComponents := by
  rw [System.vigil]
  cases h : System.served[n]? with
  | some a =>
    have hserved : ∀ a ∈ System.served, a.OfComponents := by
      simp [System.served, System.Action.OfComponents]
    exact hserved a (List.mem_of_getElem? h)
  | none =>
    rw [Option.getD_none]
    split
    · exact Int.one_nonneg
    · trivial

section Vigil

attribute [local instance] ColumnTypes.nulFree

/-- The vigil over `PostgresStore`. -/
theorem exists_vigil : ∃ p : Path Deployed.step,
    p.state 0 = (Deployed.start helloTable).perform (.enqueue "hello" none none 0 0) ∧
    (∀ n, p.act n = System.vigil n) ∧
    ∀ n, Mirrored helloConfig (System.vigilPath.state n) (p.state n) := by
  have hstart : Mirrored helloConfig System.enqueuedHello
      ((Deployed.start helloTable).perform (.enqueue "hello" none none 0 0)) := by
    have h := mirrored_step _ _ (.enqueue "hello" none none 0 0) (mirrored_start sameConfig_hello)
      ⟨⟨⟨none, rfl⟩, rfl⟩, rfl⟩
    cases h with
    | some h => exact h
  have hstep : ∀ d s a, Mirrored helloConfig s d → a.OfComponents →
      Option.Rel (fun d s => Mirrored helloConfig s d) (Deployed.step d (id a))
        (System.step s a) := by
    intro d s a h ha
    have h' := mirrored_step s d a h ⟨ha.typed.1, ha.taken⟩
    rw [ha.typed.2] at h'
    exact h'.flip
  obtain ⟨p, h₀, hact, hm⟩ := System.vigilPath.lockstep id hstep vigil_ofComponents hstart
  exact ⟨p, h₀, hact, hm⟩

/-- The row is queued at first. -/
theorem deployed_fair_jobs_end_vigil : ∃ p : Path Deployed.step,
    (p.state 0).status 1 = some .queued ∧
    ∃ st ∈ JobStatus.terminal, ∀ᶠ k in atTop, (p.state k).status 1 = some st := by
  obtain ⟨p, h₀, hact, hm⟩ := exists_vigil
  have hty : ∀ n, (p.act n).Typed ∧ (p.act n).oneClock = p.act n := fun n =>
    hact n ▸ (vigil_ofComponents n).typed
  have hact' : ∀ n, System.vigilPath.act n = (p.act n).oneClock := fun n =>
    (hact n).symm.trans (hty n).2.symm
  have hmarks : ∀ n, Deployed.MarksLive (p.state n) (p.act n) := by
    intro n
    obtain ⟨ρ, h⟩ := (hm n).agree
    exact (h.marksLive_iff _).mp (hact' n ▸ System.vigil_marksLive n)
  have hfair := (fair_iff hact' fun n => (hm n).agree).mp System.fair_vigil
  have hrun : run Deployed.step (Deployed.start helloTable) [.enqueue "hello" none none 0 0] =
      some (p.state 0) := h₀ ▸ rfl
  obtain ⟨j, hj, hst⟩ : ∃ j, (p.state 0).store.getJob 1 = some j ∧ j.status = .queued := by
    rw [h₀]
    exact ⟨_, rfl, rfl⟩
  have hok : Along Deployed.step Deployed.MarksLive (Deployed.start helloTable)
      [.enqueue "hello" none none 0 0] := by
    refine ⟨?_, fun _ _ => trivial⟩
    rintro n limit now msg messages he
    cases he
  exact ⟨p, by rw [Deployed.status, hj, Option.map_some, hst],
    deployed_fair_jobs_end configured_hello (by simp [System.Action.Typed, hasTextClient]) hrun hok
      (fun n => (hty n).1) hmarks hfair hj⟩

end Vigil

end JobWorkflow
