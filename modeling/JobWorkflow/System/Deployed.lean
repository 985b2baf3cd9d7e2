import JobWorkflow.Common.Agreement
import JobWorkflow.System.Stranding

/-!
# System/Deployed — the machine over `PostgresStore`

What is deployed runs over `PostgresStore`.  The components are those of `System/Machine`, and so
are their steps; the store alone is another, and with it the job ids.  A run of one machine is a run
of the other, step for step, as long as the columns take what is enqueued, and the states it passes
through match up to an order-preserving renaming of job ids (`deployed_mirrors`).
-/

namespace JobWorkflow

/-- Dispatchers, workers and reapers over one `PostgresStore` and one topic. -/
structure Deployed where
  store : PostgresStore
  produced : List Record
  committed : Finset ℕ
  dispatchers : ℕ → Dispatcher
  workers : ℕ → Option Invocation
  reapers : ℕ → Option Sweep
  nextInvocation : ℕ
  nextSweep : ℕ
  handled : List HandlerRun

namespace Deployed

open JobWorkflow.System (Action)

/-- Everybody idle, the tables empty but for the configuration. -/
def start (config : Table configSchema) : Deployed where
  store := ⟨∅, ∅, config, 1, 1⟩
  produced := []
  committed := ∅
  dispatchers _ := .idle
  workers _ := none
  reapers _ := none
  nextInvocation := 0
  nextSweep := 0
  handled := []

section Columns

variable [ColumnTypes]

/-- What the store would answer. -/
def reply (d : Deployed) (c : Call) : Reply := (d.store.exec c).1

def perform (d : Deployed) (c : Call) : Deployed := { d with store := (d.store.exec c).2 }

def setDispatcher (d : Deployed) (n : ℕ) (v : Dispatcher) : Deployed :=
  { d with dispatchers := Function.update d.dispatchers n v }

def setWorker (d : Deployed) (w : ℕ) (v : Option Invocation) : Deployed :=
  { d with workers := Function.update d.workers w v }

def setReaper (d : Deployed) (k : ℕ) (v : Option Sweep) : Deployed :=
  { d with reapers := Function.update d.reapers k v }

/-- One step of the machine, if the action is enabled.  An enqueue or an upsert that raises changes
nothing, and is none. -/
def step (d : Deployed) : Action → Option Deployed
  | .enqueue t p cr ca ua =>
    if PostgresStore.takes t p cr then some (d.perform (.enqueue t p cr ca ua)) else none
  | .configure t timeout cap p =>
    if PostgresStore.takesConfig t p then some (d.perform (.setTypeConfig t timeout cap p))
    else none
  | .dispatch n batchSize now =>
    ((d.dispatchers n).call batchSize now).map fun c =>
      (d.perform c).setDispatcher n ((d.dispatchers n).reply (d.reply c))
  | .publish n =>
    match d.dispatchers n with
    | ⟨msg :: messages, false⟩ =>
      some ({ d with produced := d.produced ++ [recordOf kafkaTopic msg] }.setDispatcher n
        ⟨msg :: messages, true⟩)
    | _ => none
  | .poll w offset =>
    match d.workers w, d.produced[offset]? with
    | none, some rec =>
      if offset ∈ d.committed then none
      else
        some ({ d with nextInvocation := d.nextInvocation + 1 }.setWorker w
          (some ⟨d.nextInvocation, offset, rec.message, .claim⟩))
    | _, _ => none
  | .work w now =>
    (d.workers w).bind fun inv =>
      (inv.call now).map fun c => (d.perform c).setWorker w (inv.reply (d.reply c))
  | .lookup w found =>
    match d.workers w with
    | some ⟨n, offset, envelope, .lookup payload⟩ =>
      if found then
        some ({ d with handled := ⟨n, envelope.jobId, payload⟩ :: d.handled }.setWorker w
          (some ⟨n, offset, envelope, .handle payload⟩))
      else some (d.setWorker w (some ⟨n, offset, envelope, .fail .failed⟩))
    | _ => none
  | .handled w raised =>
    match d.workers w with
    | some ⟨n, offset, envelope, .handle _⟩ =>
      some (d.setWorker w
        (some ⟨n, offset, envelope, if raised then .fail .failed else .complete⟩))
    | _ => none
  | .commit w =>
    match d.workers w with
    | some ⟨_, offset, _, .commit _⟩ =>
      some ({ d with committed := insert offset d.committed }.setWorker w none)
    | _ => none
  | .find k now =>
    match d.reapers k with
    | none =>
      some ({ d.perform (.findStuck now) with nextSweep := d.nextSweep + 1 }.setReaper k
        (some ⟨d.nextSweep, d.store.findStuck now, false, ⟨0, 0⟩⟩))
    | some _ => none
  | .reap k now =>
    (d.reapers k).bind fun sweep =>
      (sweep.call now).map fun c => (d.perform c).setReaper k (some (sweep.reply (d.reply c)))
  | .stopDispatcher n => some (d.setDispatcher n .idle)
  | .stopWorker w => some (d.setWorker w none)
  | .stopReaper k => some (d.setReaper k none)

end Columns

end Deployed

/-- The action is as the components make it: payloads are objects, client ids are text, limits are
not negative. -/
def System.Action.Typed : System.Action → Prop
  | .enqueue _ p cr _ _ => (∃ o : Option Payload, p = o.map .object) ∧ hasTextClient cr = true
  | .dispatch _ batchSize _ => 0 ≤ batchSize
  | _ => True

/-- The columns take what the action stores. -/
def System.Action.Taken [ColumnTypes] : System.Action → Prop
  | .enqueue t p cr _ _ => PostgresStore.takes t p cr = true
  | .configure t _ _ p => PostgresStore.takesConfig t p = true
  | _ => True

/-- The same action, with the one clock reading that `PostgresStore` takes. -/
def System.Action.oneClock : System.Action → System.Action
  | .enqueue t p cr ca _ => .enqueue t p cr ca ca
  | a => a

/-! ## Matching states -/

variable {ρ ρ' : Renaming}

/-- The same message. -/
structure RecordRel (ρ : Renaming) (r r' : Record) : Prop where
  topic : r.topic = r'.topic
  jobId : (r.message.jobId, r'.message.jobId) ∈ ρ
  jobType : r.message.jobType = r'.message.jobType

/-- Dispatchers at the same point. -/
structure DispatcherRel (ρ : Renaming) (x x' : Dispatcher) : Prop where
  messages : List.Forall₂ (MessageRel ρ) x.messages x'.messages
  sent : x.sent = x'.sent

/-- Invocations at the same point. -/
structure InvocationRel (ρ : Renaming) (x x' : Invocation) : Prop where
  id : x.id = x'.id
  offset : x.offset = x'.offset
  jobId : (x.envelope.jobId, x'.envelope.jobId) ∈ ρ
  jobType : x.envelope.jobType = x'.envelope.jobType
  stage : x.stage = x'.stage

/-- Sweeps at the same point. -/
structure SweepRel (ρ : Renaming) (x x' : Sweep) : Prop where
  id : x.id = x'.id
  stuck : List.Forall₂ (StuckRel ρ) x.stuck x'.stuck
  refused : x.refused = x'.refused
  stats : x.stats = x'.stats

/-- The same handler run. -/
structure HandlerRunRel (ρ : Renaming) (x x' : HandlerRun) : Prop where
  invocation : x.invocation = x'.invocation
  jobId : (x.jobId, x'.jobId) ∈ ρ
  payload : x.payload = x'.payload

/-- **The two machines are in the same state**, up to the renaming of job ids. -/
structure Matches (ρ : Renaming) (s : System) (d : Deployed) : Prop where
  stores : Lockstep.Agree ⟨s.store, d.store, ρ⟩
  produced : List.Forall₂ (RecordRel ρ) s.produced d.produced
  committed : s.committed = d.committed
  dispatchers : ∀ n, DispatcherRel ρ (s.dispatchers n) (d.dispatchers n)
  workers : ∀ w, Option.Rel (InvocationRel ρ) (s.workers w) (d.workers w)
  reapers : ∀ k, Option.Rel (SweepRel ρ) (s.reapers k) (d.reapers k)
  nextInvocation : s.nextInvocation = d.nextInvocation
  nextSweep : s.nextSweep = d.nextSweep
  handled : List.Forall₂ (HandlerRunRel ρ) s.handled d.handled

/-! ## A growing renaming -/

section Mono

variable (hρ : ρ ⊆ ρ')

include hρ

theorem MessageRel.mono {m m' : OutboxMessage} (h : MessageRel ρ m m') : MessageRel ρ' m m' :=
  ⟨h.id, hρ h.jobId, hρ h.payload, h.jobType⟩

theorem StuckRel.mono {x x' : StuckJob} (h : StuckRel ρ x x') : StuckRel ρ' x x' :=
  ⟨hρ h.jobId, h.jobType, h.attempts⟩

theorem RecordRel.mono {r r' : Record} (h : RecordRel ρ r r') : RecordRel ρ' r r' :=
  ⟨h.topic, hρ h.jobId, h.jobType⟩

theorem DispatcherRel.mono {x x' : Dispatcher} (h : DispatcherRel ρ x x') :
    DispatcherRel ρ' x x' :=
  ⟨h.messages.imp fun _ _ => MessageRel.mono hρ, h.sent⟩

theorem InvocationRel.mono {x x' : Invocation} (h : InvocationRel ρ x x') :
    InvocationRel ρ' x x' :=
  ⟨h.id, h.offset, hρ h.jobId, h.jobType, h.stage⟩

theorem SweepRel.mono {x x' : Sweep} (h : SweepRel ρ x x') : SweepRel ρ' x x' :=
  ⟨h.id, h.stuck.imp fun _ _ => StuckRel.mono hρ, h.refused, h.stats⟩

theorem HandlerRunRel.mono {x x' : HandlerRun} (h : HandlerRunRel ρ x x') :
    HandlerRunRel ρ' x x' :=
  ⟨h.invocation, hρ h.jobId, h.payload⟩

end Mono

/-! ## Components at the same point -/

/-- Options after one is replaced at one index. -/
theorem rel_update {ι κ κ' : Type} [DecidableEq ι] {R : κ → κ' → Prop} {f : ι → κ} {g : ι → κ'}
    (h : ∀ n, R (f n) (g n)) (n : ι) {v : κ} {v' : κ'} (hv : R v v') (m : ι) :
    R (Function.update f n v m) (Function.update g n v' m) := by
  rw [Function.update_apply, Function.update_apply]
  split
  · exact hv
  · exact h m

namespace ReplyRel

variable {r r' : Reply}

theorem effective (h : ReplyRel ρ r r') : r.effective = r'.effective := by
  cases h with
  | jobId h => cases h <;> rfl
  | _ => rfl

theorem fetched (h : ReplyRel ρ r r') :
    List.Forall₂ (MessageRel ρ) r.fetched r'.fetched := by
  cases h with
  | rows h => exact h
  | _ => exact .nil

end ReplyRel

/-- The same call, of values that the columns take. -/
def Same [ColumnTypes] (ρ : Renaming) (s : InMemoryStore) (c c' : Call) : Prop :=
  CallRel ρ s c c' ∧ c.Taken s

section Components

variable {s : InMemoryStore} {d : PostgresStore} {now : Time} {r r' : Reply}

/-- Dispatchers at the same point make the same call. -/
theorem DispatcherRel.call [ColumnTypes] (h : Mirrors ρ s d) {x x' : Dispatcher}
    (hx : DispatcherRel ρ x x') {n : ℤ} (hn : 0 ≤ n)
    (hrows : ∀ m ∈ x.messages, s.outbox.get? m.id = some m) :
    Option.Rel (Same ρ s) (x.call n now) (x'.call n now) := by
  obtain ⟨messages, sent⟩ := x
  obtain ⟨messages', sent'⟩ := x'
  obtain ⟨hmessages, rfl⟩ := hx
  cases hmessages with
  | nil => exact .some ⟨.fetchUnpublished hn, trivial⟩
  | cons hm hrest =>
    cases sent with
    | false => exact .none
    | true => exact .some ⟨(h.calls_on_row (hrows _ List.mem_cons_self) hm now).1, trivial⟩

theorem DispatcherRel.reply {x x' : Dispatcher} (hx : DispatcherRel ρ x x')
    (hr : ReplyRel ρ r r') : DispatcherRel ρ (x.reply r) (x'.reply r') := by
  obtain ⟨messages, sent⟩ := x
  obtain ⟨messages', sent'⟩ := x'
  obtain ⟨hmessages, -⟩ := hx
  cases hmessages with
  | nil => exact ⟨hr.fetched, rfl⟩
  | cons hm hrest => exact ⟨hrest, rfl⟩

/-- Invocations at the same point make the same call. -/
theorem InvocationRel.call [ColumnTypes] (h : Mirrors ρ s d) {x x' : Invocation}
    (hx : InvocationRel ρ x x') (hrow : ∃ o m, s.outbox.get? o = some m ∧ m.payload = x.envelope) :
    Option.Rel (Same ρ s) (x.call now) (x'.call now) := by
  have hcorr : ρ.Corr x.envelope.jobId x'.envelope.jobId := h.monotone.corr hx.jobId
  rw [Invocation.call, Invocation.call, ← hx.stage, ← hx.jobType]
  cases x.stage with
  | claim => exact .some ⟨.claim hcorr, trivial⟩
  | resolve => exact .some ⟨.resolvePayload hcorr hrow, trivial⟩
  | fail outcome => exact .some ⟨.fail hcorr, trivial⟩
  | complete => exact .some ⟨.complete hcorr, trivial⟩
  | _ => exact .none

theorem InvocationRel.reply {x x' : Invocation} (hx : InvocationRel ρ x x')
    (hr : ReplyRel ρ r r') : Option.Rel (InvocationRel ρ) (x.reply r) (x'.reply r') := by
  -- wherever the reply takes one, it takes the other
  have go : ∀ st, Option.Rel (InvocationRel ρ) (some { x with stage := st })
      (some { x' with stage := st }) := fun st =>
    .some ⟨hx.id, hx.offset, hx.jobId, hx.jobType, rfl⟩
  unfold Invocation.reply
  rw [← hx.stage, ← hr.effective]
  cases x.stage with
  | claim => exact go _
  | resolve =>
    cases hr with
    | @payload p =>
      cases p with
      | none => exact go _
      | some p => exact go _
    | _ => exact go _
  | fail outcome => exact go _
  | complete => exact go _
  | _ => exact .some hx

/-- Sweeps at the same point make the same call. -/
theorem SweepRel.call [ColumnTypes] (h : Mirrors ρ s d) {x x' : Sweep} (hx : SweepRel ρ x x') :
    Option.Rel (Same ρ s) (x.call now) (x'.call now) := by
  obtain ⟨n, stuck, refused, stats⟩ := x
  obtain ⟨n', stuck', refused', stats'⟩ := x'
  obtain ⟨-, hstuck, rfl, -⟩ := hx
  cases hstuck with
  | nil => exact .none
  | cons hs hrest =>
    have hcorr := h.monotone.corr hs.jobId
    cases refused with
    | false => exact .some ⟨.requeueStuck hcorr, trivial⟩
    | true => exact .some ⟨.deadLetter hcorr, trivial⟩

theorem SweepRel.reply {x x' : Sweep} (hx : SweepRel ρ x x') (hr : ReplyRel ρ r r') :
    SweepRel ρ (x.reply r) (x'.reply r') := by
  obtain ⟨n, stuck, refused, stats⟩ := x
  obtain ⟨n', stuck', refused', stats'⟩ := x'
  obtain ⟨rfl, hstuck, rfl, rfl⟩ := hx
  cases hstuck with
  | nil => exact ⟨rfl, .nil, rfl, rfl⟩
  | cons hs hrest =>
    rw [Sweep.reply, Sweep.reply, ← hr.effective]
    cases refused with
    | false =>
      cases r.effective with
      | false => exact ⟨rfl, .cons hs hrest, rfl, rfl⟩
      | true => exact ⟨rfl, hrest, rfl, rfl⟩
    | true =>
      cases r.effective with
      | false => exact ⟨rfl, hrest, rfl, rfl⟩
      | true => exact ⟨rfl, hrest, rfl, rfl⟩

end Components

/-! ## The steps match -/

namespace System

variable {s s' : System} {a : Action} {cfg : Dict String TypeConfig}

theorem fetched (h : Runs.Reachable step (start cfg) s) : Fetched s :=
  h.invariant (Fetched.start cfg) fun _ _ _ hs ha => hs.of_step (step_cases ha)

/-- A worker's envelope is that of an outbox row. -/
theorem envelope_row (h : Runs.Reachable step (start cfg) s) {w : ℕ} {inv : Invocation}
    (hw : s.workers w = some inv) :
    ∃ o m, s.store.outbox.get? o = some m ∧ m.payload = inv.envelope := by
  obtain ⟨j, hj, ht⟩ := (delivered h).job (sound h) hw
  obtain ⟨o, m, hm, hi⟩ := (sound h).corresponds.job_row _ j hj
  obtain ⟨j', hj', hp⟩ := (sound h).corresponds.row_job o m hm
  rw [hi] at hj' hp
  obtain rfl := Option.some.inj (hj.symm.trans hj')
  exact ⟨o, m, hm, by rw [hp, ht]; rfl⟩

end System

namespace Matches

variable {s : System} {d : Deployed}

theorem setDispatcher (h : Matches ρ s d) (n : ℕ) {v v' : Dispatcher}
    (hv : DispatcherRel ρ v v') : Matches ρ (s.setDispatcher n v) (d.setDispatcher n v') :=
  { h with dispatchers := rel_update h.dispatchers n hv }

theorem setWorker (h : Matches ρ s d) (w : ℕ) {v v' : Option Invocation}
    (hv : Option.Rel (InvocationRel ρ) v v') : Matches ρ (s.setWorker w v) (d.setWorker w v') :=
  { h with workers := rel_update h.workers w hv }

theorem setReaper (h : Matches ρ s d) (k : ℕ) {v v' : Option Sweep}
    (hv : Option.Rel (SweepRel ρ) v v') : Matches ρ (s.setReaper k v) (d.setReaper k v') :=
  { h with reapers := rel_update h.reapers k hv }

/-- The next states match. -/
abbrev Next (ρ : Renaming) (s : System) (d : Deployed) : Prop := ∃ ρ', ρ ⊆ ρ' ∧ Matches ρ' s d

/-- A step that makes no store call. -/
theorem next (h : Matches ρ s d) : Next ρ s d := ⟨ρ, List.Subset.refl ρ, h⟩

variable [ColumnTypes]

/-- The components after a call, under the renaming that its answers extend. -/
theorem performed (h : Matches ρ s d) {c c' : Call} (hc : Same ρ s.store c c')
    (actor : Actor) : ∃ ρ', ρ ⊆ ρ' ∧ ReplyRel ρ' (s.reply c) (d.reply c') ∧
      Matches ρ' (s.perform actor c) (d.perform c') := by
  obtain ⟨hreply, hagree⟩ := h.stores.exec hc.1 hc.2
  have hρ : ρ ⊆ ρ.extend (s.reply c) (d.reply c') := by
    unfold Renaming.extend
    split
    · exact List.subset_append_left _ _
    · exact List.Subset.refl _
  exact ⟨ρ.extend (s.reply c) (d.reply c'), hρ, hreply, hagree,
    h.produced.imp fun _ _ => RecordRel.mono hρ, h.committed,
    fun n => (h.dispatchers n).mono hρ,
    fun w => (h.workers w).imp fun _ _ => InvocationRel.mono hρ,
    fun k => (h.reapers k).imp fun _ _ => SweepRel.mono hρ, h.nextInvocation, h.nextSweep,
    h.handled.imp fun _ _ => HandlerRunRel.mono hρ⟩

theorem dispatch (h : Matches ρ s d) {cfg : Dict String TypeConfig}
    (hreach : Runs.Reachable System.step (System.start cfg) s) (n : ℕ) {batchSize : ℤ}
    (hb : 0 ≤ batchSize) (now : Time) :
    Option.Rel (Next ρ) (System.step s (.dispatch n batchSize now))
      (Deployed.step d (.dispatch n batchSize now)) := by
  have hrows : ∀ m ∈ (s.dispatchers n).messages, s.store.outbox.get? m.id = some m := fun m hm =>
    (System.sound hreach).fetched_row m (System.fetched hreach n m hm)
  refine ((h.dispatchers n).call h.stores.mirrors hb hrows).map fun c c' hc => ?_
  obtain ⟨ρ', hρ, hreply, h'⟩ := h.performed hc (.dispatcher n)
  exact ⟨ρ', hρ, h'.setDispatcher n (((h.dispatchers n).mono hρ).reply hreply)⟩

theorem publish (h : Matches ρ s d) (n : ℕ) : Option.Rel (Next ρ)
    (System.step s (.publish n)) (Deployed.step d (.publish n)) := by
  obtain ⟨hmessages, hsent⟩ := h.dispatchers n
  rw [System.step, Deployed.step]
  rcases hx : s.dispatchers n with ⟨messages, sent⟩
  rcases hx' : d.dispatchers n with ⟨messages', sent'⟩
  rw [hx, hx'] at hmessages hsent
  obtain rfl : sent = sent' := hsent
  cases hmessages with
  | nil => exact .none
  | cons hm hrest =>
    cases sent with
    | true => exact .none
    | false =>
      refine .some (next (setDispatcher ?_ n ⟨.cons hm hrest, rfl⟩))
      refine { h with produced := ?_ }
      exact List.rel_append h.produced (.cons ⟨rfl, hm.payload, hm.jobType⟩ .nil)

theorem poll (h : Matches ρ s d) (w offset : ℕ) : Option.Rel (Next ρ)
    (System.step s (.poll w offset)) (Deployed.step d (.poll w offset)) := by
  rw [System.step, Deployed.step]
  rcases (h.workers w).eq_cases with ⟨hw, hw'⟩ | ⟨inv, inv', hw, hw', -⟩
  · rcases (h.produced.getElem? offset).eq_cases with ⟨hr, hr'⟩ | ⟨rec, rec', hr, hr', hrec⟩
    · rw [hw, hw', hr, hr']
      exact .none
    · rw [hw, hw', hr, hr']
      by_cases hoff : offset ∈ d.committed
      · dsimp only
        rw [if_pos (h.committed ▸ hoff), if_pos hoff]
        exact .none
      · dsimp only
        rw [if_neg (h.committed ▸ hoff), if_neg hoff]
        refine .some (next (setWorker ?_ w
          (.some ⟨h.nextInvocation, rfl, hrec.jobId, hrec.jobType, rfl⟩)))
        exact { h with nextInvocation := congrArg (· + 1) h.nextInvocation }
  · rw [hw, hw']
    exact .none

theorem work (h : Matches ρ s d) {cfg : Dict String TypeConfig}
    (hreach : Runs.Reachable System.step (System.start cfg) s) (w : ℕ) (now : Time) :
    Option.Rel (Next ρ) (System.step s (.work w now)) (Deployed.step d (.work w now)) := by
  rw [System.step, Deployed.step]
  rcases (h.workers w).eq_cases with ⟨hw, hw'⟩ | ⟨inv, inv', hw, hw', hinv⟩
  · rw [hw, hw']
    exact .none
  · rw [hw, hw', Option.bind_some, Option.bind_some]
    refine (hinv.call h.stores.mirrors (System.envelope_row hreach hw)).map fun c c' hc => ?_
    obtain ⟨ρ', hρ, hreply, h'⟩ := h.performed hc (.worker inv.id)
    exact ⟨ρ', hρ, h'.setWorker w ((hinv.mono hρ).reply hreply)⟩

theorem lookup (h : Matches ρ s d) (w : ℕ) (found : Bool) : Option.Rel (Next ρ)
    (System.step s (.lookup w found)) (Deployed.step d (.lookup w found)) := by
  rw [System.step, Deployed.step]
  rcases (h.workers w).eq_cases with ⟨hw, hw'⟩ | ⟨inv, inv', hw, hw', hinv⟩
  · rw [hw, hw']
    exact .none
  · rw [hw, hw']
    obtain ⟨n, offset, envelope, stage⟩ := inv
    obtain ⟨n', offset', envelope', stage'⟩ := inv'
    obtain ⟨rfl, rfl, hjob, htype, rfl⟩ := hinv
    cases stage with
    | lookup payload =>
      cases found with
      | true =>
        refine .some (next (setWorker ?_ w (.some ⟨rfl, rfl, hjob, htype, rfl⟩)))
        exact { h with handled := .cons ⟨rfl, hjob, rfl⟩ h.handled }
      | false => exact .some (next (h.setWorker w (.some ⟨rfl, rfl, hjob, htype, rfl⟩)))
    | _ => exact .none

theorem handled_step (h : Matches ρ s d) (w : ℕ) (raised : Bool) : Option.Rel (Next ρ)
    (System.step s (.handled w raised)) (Deployed.step d (.handled w raised)) := by
  rw [System.step, Deployed.step]
  rcases (h.workers w).eq_cases with ⟨hw, hw'⟩ | ⟨inv, inv', hw, hw', hinv⟩
  · rw [hw, hw']
    exact .none
  · rw [hw, hw']
    obtain ⟨n, offset, envelope, stage⟩ := inv
    obtain ⟨n', offset', envelope', stage'⟩ := inv'
    obtain ⟨rfl, rfl, hjob, htype, rfl⟩ := hinv
    cases stage with
    | handle payload => exact .some (next (h.setWorker w (.some ⟨rfl, rfl, hjob, htype, rfl⟩)))
    | _ => exact .none

theorem commit (h : Matches ρ s d) (w : ℕ) : Option.Rel (Next ρ)
    (System.step s (.commit w)) (Deployed.step d (.commit w)) := by
  rw [System.step, Deployed.step]
  rcases (h.workers w).eq_cases with ⟨hw, hw'⟩ | ⟨inv, inv', hw, hw', hinv⟩
  · rw [hw, hw']
    exact .none
  · rw [hw, hw']
    obtain ⟨n, offset, envelope, stage⟩ := inv
    obtain ⟨n', offset', envelope', stage'⟩ := inv'
    obtain ⟨rfl, rfl, -, -, rfl⟩ := hinv
    cases stage with
    | commit outcome =>
      refine .some (next (setWorker ?_ w .none))
      exact { h with committed := congrArg (insert offset) h.committed }
    | _ => exact .none

theorem find (h : Matches ρ s d) (k : ℕ) (now : Time) : Option.Rel (Next ρ)
    (System.step s (.find k now)) (Deployed.step d (.find k now)) := by
  rw [System.step, Deployed.step, ← h.nextSweep]
  rcases (h.reapers k).eq_cases with ⟨hk, hk'⟩ | ⟨sweep, sweep', hk, hk', -⟩
  · rw [hk, hk']
    have hc : Same ρ s.store (.findStuck now) (.findStuck now) := ⟨.findStuck, trivial⟩
    obtain ⟨ρ', hρ, -, h'⟩ := h.performed hc (.reaper s.nextSweep)
    refine .some ⟨ρ', hρ, setReaper ?_ k (.some ⟨rfl, ?_, rfl, rfl⟩)⟩
    · exact { h' with nextSweep := rfl }
    · exact (h.stores.mirrors.findStuck now).imp fun _ _ => StuckRel.mono hρ
  · rw [hk, hk']
    exact .none

theorem reap (h : Matches ρ s d) (k : ℕ) (now : Time) : Option.Rel (Next ρ)
    (System.step s (.reap k now)) (Deployed.step d (.reap k now)) := by
  rw [System.step, Deployed.step]
  rcases (h.reapers k).eq_cases with ⟨hk, hk'⟩ | ⟨sweep, sweep', hk, hk', hsweep⟩
  · rw [hk, hk']
    exact .none
  · rw [hk, hk', Option.bind_some, Option.bind_some]
    refine (hsweep.call h.stores.mirrors).map fun c c' hc => ?_
    obtain ⟨ρ', hρ, hreply, h'⟩ := h.performed hc (.reaper sweep.id)
    exact ⟨ρ', hρ, h'.setReaper k (.some ((hsweep.mono hρ).reply hreply))⟩

/-- **Each step of one machine is a step of the other**, to matching states, if the columns take
what it stores. -/
theorem step (h : Matches ρ s d) {cfg : Dict String TypeConfig}
    (hreach : Runs.Reachable System.step (System.start cfg) s) {a : System.Action}
    (ha : a.Typed) (ht : a.Taken) :
    Option.Rel (Next ρ) (System.step s a.oneClock) (Deployed.step d a) := by
  cases a with
  | enqueue t p cr ca ua =>
    obtain ⟨⟨o, rfl⟩, hclient⟩ := ha
    have hc : Same ρ s.store (.enqueue t (o.map .object) cr ca ca)
        (.enqueue t (o.map .object) cr ca ca) := ⟨.enqueue, ht, Or.inl hclient⟩
    obtain ⟨ρ', hρ, -, h'⟩ := h.performed hc .producer
    rw [Deployed.step, if_pos (show PostgresStore.takes _ _ _ = true from ht)]
    exact .some ⟨ρ', hρ, h'⟩
  | configure t timeout cap p =>
    obtain ⟨ρ', hρ, -, h'⟩ := h.performed (c := .setTypeConfig t timeout cap p)
      ⟨.setTypeConfig, ht⟩ .operator
    rw [Deployed.step, if_pos (show PostgresStore.takesConfig _ _ = true from ht)]
    exact .some ⟨ρ', hρ, h'⟩
  | dispatch n batchSize now => exact h.dispatch hreach n ha now
  | publish n => exact h.publish n
  | poll w offset => exact h.poll w offset
  | work w now => exact h.work hreach w now
  | lookup w found => exact h.lookup w found
  | handled w raised => exact h.handled_step w raised
  | commit w => exact h.commit w
  | find k now => exact h.find k now
  | reap k now => exact h.reap k now
  | stopDispatcher n => exact .some (next (h.setDispatcher n ⟨.nil, rfl⟩))
  | stopWorker w => exact .some (next (h.setWorker w .none))
  | stopReaper k => exact .some (next (h.setReaper k .none))

end Matches

/-! ## The runs match -/

section Runs

variable {cfg : Dict String TypeConfig} {table : Table configSchema}

/-- Two machines at one point of their runs. -/
structure Mirrored (cfg : Dict String TypeConfig) (s : System) (d : Deployed) : Prop where
  reachable : Runs.Reachable System.step (System.start cfg) s
  agree : ∃ ρ, Matches ρ s d

theorem mirrored_start (hcfg : SameConfig cfg table) :
    Mirrored cfg (System.start cfg) (Deployed.start table) :=
  ⟨.refl, [], Lockstep.agree_start hcfg, .nil, rfl, fun _ => ⟨.nil, rfl⟩, fun _ => .none,
    fun _ => .none, rfl, rfl, .nil⟩

variable [ColumnTypes]

/-- What is enqueued in a step is taken. -/
theorem Deployed.taken_of_step {d d' : Deployed} {a : System.Action} (h : d.step a = some d') :
    a.Taken := by
  cases a with
  | enqueue t p cr ca ua => exact (Option.ite_none_right_eq_some.mp h).1
  | configure t timeout cap p => exact (Option.ite_none_right_eq_some.mp h).1
  | _ => trivial

theorem Deployed.taken_of_run {as : List System.Action} {d d' : Deployed}
    (h : Runs.run Deployed.step d as = some d') : ∀ a ∈ as, a.Taken := by
  induction as generalizing d with
  | nil => exact fun _ ha => absurd ha List.not_mem_nil
  | cons a as ih =>
    obtain ⟨d₁, ha, hrest⟩ := Option.bind_eq_some_iff.mp h
    exact List.forall_mem_cons.mpr ⟨taken_of_step ha, ih hrest⟩

theorem mirrored_step (s : System) (d : Deployed) (a : System.Action) (h : Mirrored cfg s d)
    (ha : a.Typed ∧ a.Taken) :
    Option.Rel (Mirrored cfg) (System.step s a.oneClock) (Deployed.step d a) := by
  obtain ⟨hreach, ρ, hm⟩ := h
  rcases (hm.step hreach ha.1 ha.2).eq_cases with ⟨hs, hd⟩ | ⟨s', d', hs, hd, ρ', -, hm'⟩
  · rw [hs, hd]
    exact .none
  · rw [hs, hd]
    exact .some ⟨hreach.snoc hs, ρ', hm'⟩

/-- **A run of what is deployed is a run of the machine over `InMemoryStore`**: of actions that
store what the columns take, the same are enabled in both, and the states they lead to are the same
up to an order-preserving renaming of job ids. -/
theorem deployed_mirrors (hcfg : SameConfig cfg table) (as : List System.Action)
    (hty : ∀ a ∈ as, a.Typed ∧ a.Taken) :
    Option.Rel (fun s d => ∃ ρ : Renaming, ρ.Monotone ∧ Matches ρ s d)
      (Runs.run System.step (System.start cfg) (as.map System.Action.oneClock))
      (Runs.run Deployed.step (Deployed.start table) as) :=
  (Runs.lockstep System.Action.oneClock mirrored_step as hty (mirrored_start hcfg)).imp
    fun _ _ ⟨_, ρ, h⟩ => ⟨ρ, h.stores.mirrors.monotone, h⟩

end Runs

attribute [local instance] ColumnTypes.nulFree in
/-- The second enqueue conflicts, and a worker claims the job of the first. -/
theorem deployed_mirrors_conflict : ∃ s d, ∃ ρ : Renaming,
    Runs.run System.step (System.start ∅) [.enqueue "hello" none none 0 0,
      .enqueue "hello" none none 1 1, .dispatch 0 10 2, .publish 0, .poll 0 0, .work 0 3] = some s ∧
    Runs.run Deployed.step (Deployed.start ∅) [.enqueue "hello" none none 0 0,
      .enqueue "hello" none none 1 1, .dispatch 0 10 2, .publish 0, .poll 0 0, .work 0 3] = some d ∧
    Matches ρ s d := by
  have hcfg : SameConfig ∅ ∅ := fun _ => .none
  have h := deployed_mirrors hcfg
    [.enqueue "hello" none none 0 0, .enqueue "hello" none none 1 1, .dispatch 0 10 2, .publish 0,
      .poll 0 0, .work 0 3]
    (by simp [System.Action.Typed, System.Action.Taken]; decide)
  rcases h.eq_cases with ⟨hno, -⟩ | ⟨s, d, hs, hd, ρ, -, hm⟩
  · exact absurd hno (by decide)
  · exact ⟨s, d, ρ, hs, hd, hm⟩

end JobWorkflow
