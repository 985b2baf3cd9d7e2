import JobWorkflow.Reaper.Service
import JobWorkflow.System.Relay
import JobWorkflow.Worker.Service
import Mathlib.Logic.Function.Basic

/-!
# System/Machine — dispatchers, workers and reapers over one store and one topic

Any number of dispatchers, workers and reapers run `dispatch_once`, `process` and `reap_once`
against one store, one store call at a time, each arbitrarily delayed against the others.  A process
is the point its program has reached: `call` is the store call it makes next and `reply` where the
reply takes it.

Kafka is the list of produced messages with the set of committed offsets: any uncommitted message
may be delivered to any idle worker, again and again, and a worker that stops before its commit
leaves its message to be redelivered.

`Step` says once what each action does; `relay_reachable` and `ledger_reachable` carry every
invariant of the relay and of the store over to the machine.
-/

namespace JobWorkflow

/-! ## Dispatchers -/

/-- A dispatcher in `dispatch_once`: the rows still to do, and whether the first is published. -/
structure Dispatcher where
  messages : List OutboxMessage
  sent : Bool

namespace Dispatcher

def idle : Dispatcher := ⟨[], false⟩

/-- The next store call; between two of them a message has to be published. -/
def call (d : Dispatcher) (batchSize : ℤ) (now : Time) : Option Call :=
  match d.messages, d.sent with
  | [], _ => some (.fetchUnpublished batchSize)
  | msg :: _, true => some (.markDispatched msg.id msg.jobId now)
  | _ :: _, false => none

def reply (d : Dispatcher) (r : Reply) : Dispatcher :=
  match d.messages with
  | [] => ⟨r.fetched, false⟩
  | _ :: messages => ⟨messages, false⟩

theorem call_cases {d : Dispatcher} {n : ℤ} {now : Time} {c : Call} (h : d.call n now = some c) :
    (d.messages = [] ∧ c = .fetchUnpublished n) ∨
      ∃ msg messages, d = ⟨msg :: messages, true⟩ ∧ c = .markDispatched msg.id msg.jobId now := by
  obtain ⟨_ | ⟨msg, messages⟩, sent⟩ := d
  · exact Or.inl ⟨rfl, (Option.some.inj h).symm⟩
  · cases sent with
    | false => exact nomatch h
    | true => exact Or.inr ⟨msg, messages, rfl, (Option.some.inj h).symm⟩

end Dispatcher

/-! ## Workers -/

/-- The points of `process`, and the commit that follows it. -/
inductive Stage
  | claim
  | resolve
  | lookup (payload : Document)
  | handle (payload : Document)
  | fail (outcome : Outcome)
  | complete
  | commit (outcome : Outcome)

/-- One invocation of `process`, on the message at one offset. -/
structure Invocation where
  id : ℕ
  offset : ℕ
  envelope : Envelope
  stage : Stage

namespace Invocation

/-- The next store call. -/
def call (inv : Invocation) (now : Time) : Option Call :=
  match inv.stage with
  | .claim => some (.claim inv.envelope.jobId now)
  | .resolve => some (.resolvePayload inv.envelope.jobId inv.envelope.jobType now)
  | .fail _ => some (.fail inv.envelope.jobId now)
  | .complete => some (.complete inv.envelope.jobId now)
  | .lookup _ | .handle _ | .commit _ => none

/-- Where the reply takes the worker; the exception of `resolve_payload` stops it. -/
def reply (inv : Invocation) (r : Reply) : Option Invocation :=
  match inv.stage with
  | .claim => some { inv with stage := if r.effective then .resolve else .commit .skipped }
  | .resolve =>
    match r with
    | .payload (.ok (some payload)) => some { inv with stage := .lookup payload }
    | .payload (.error _) => none
    | _ => some { inv with stage := .fail .noConfig }
  | .fail outcome => some { inv with stage := .commit outcome }
  | .complete => some { inv with stage := .commit .completed }
  | .lookup _ | .handle _ | .commit _ => some inv

/-- A worker's calls are about the job its message names. -/
theorem call_cases {inv : Invocation} {now : Time} {c : Call} (h : inv.call now = some c) :
    (inv.stage = .claim ∧ c = .claim inv.envelope.jobId now) ∨
    (inv.stage = .resolve ∧
      c = .resolvePayload inv.envelope.jobId inv.envelope.jobType now) ∨
    (∃ outcome, inv.stage = .fail outcome ∧ c = .fail inv.envelope.jobId now) ∨
    (inv.stage = .complete ∧ c = .complete inv.envelope.jobId now) := by
  unfold call at h
  split at h
  · rename_i hs
    exact Or.inl ⟨hs, (Option.some.inj h).symm⟩
  · rename_i hs
    exact Or.inr (Or.inl ⟨hs, (Option.some.inj h).symm⟩)
  · rename_i outcome hs
    exact Or.inr (Or.inr (Or.inl ⟨outcome, hs, (Option.some.inj h).symm⟩))
  · rename_i hs
    exact Or.inr (Or.inr (Or.inr ⟨hs, (Option.some.inj h).symm⟩))
  · exact nomatch h
  · exact nomatch h
  · exact nomatch h

/-- The reply changes nothing of an invocation but where it stands. -/
theorem reply_same {inv inv' : Invocation} {r : Reply} (h : inv.reply r = some inv') :
    inv'.id = inv.id ∧ inv'.offset = inv.offset ∧ inv'.envelope = inv.envelope := by
  obtain ⟨n, offset, envelope, stage⟩ := inv
  cases stage with
  | resolve =>
    simp only [reply] at h
    split at h
    · exact Option.some.inj h ▸ ⟨rfl, rfl, rfl⟩
    · exact nomatch h
    · exact Option.some.inj h ▸ ⟨rfl, rfl, rfl⟩
  | _ => exact Option.some.inj h ▸ ⟨rfl, rfl, rfl⟩

/-- Where each reply takes an invocation that goes on. -/
inductive Advance (inv : Invocation) (now : Time) (r : Reply) : Call → Invocation → Prop
  | claimed (hst : inv.stage = .claim) (hr : r.effective = true) :
      Advance inv now r (.claim inv.envelope.jobId now) { inv with stage := .resolve }
  | skipped (hst : inv.stage = .claim) (hr : r.effective = false) :
      Advance inv now r (.claim inv.envelope.jobId now) { inv with stage := .commit .skipped }
  | resolved {payload} (hst : inv.stage = .resolve) (hr : r = .payload (.ok (some payload))) :
      Advance inv now r (.resolvePayload inv.envelope.jobId inv.envelope.jobType now)
        { inv with stage := .lookup payload }
  | unresolved (hst : inv.stage = .resolve) :
      Advance inv now r (.resolvePayload inv.envelope.jobId inv.envelope.jobType now)
        { inv with stage := .fail .noConfig }
  | failed {outcome} (hst : inv.stage = .fail outcome) :
      Advance inv now r (.fail inv.envelope.jobId now) { inv with stage := .commit outcome }
  | completed (hst : inv.stage = .complete) :
      Advance inv now r (.complete inv.envelope.jobId now) { inv with stage := .commit .completed }

theorem advance {inv inv' : Invocation} {now : Time} {c : Call} {r : Reply}
    (hc : inv.call now = some c) (h : inv.reply r = some inv') : inv.Advance now r c inv' := by
  rcases call_cases hc with ⟨hst, rfl⟩ | ⟨hst, rfl⟩ | ⟨outcome, hst, rfl⟩ | ⟨hst, rfl⟩
  · simp only [reply, hst] at h
    obtain rfl := Option.some.inj h
    cases hr : r.effective with
    | true => exact .claimed hst hr
    | false => exact .skipped hst hr
  · simp only [reply, hst] at h
    split at h
    · obtain rfl := Option.some.inj h
      exact .resolved hst rfl
    · exact nomatch h
    · obtain rfl := Option.some.inj h
      exact .unresolved hst
  · simp only [reply, hst] at h
    obtain rfl := Option.some.inj h
    exact .failed hst
  · simp only [reply, hst] at h
    obtain rfl := Option.some.inj h
    exact .completed hst

end Invocation

/-- The steps of `process` between its store calls: the lookup and the handler. -/
inductive Stage.Local : Stage → Stage → Prop
  | found {payload} : Local (.lookup payload) (.handle payload)
  | unknown {payload} : Local (.lookup payload) (.fail .failed)
  | raised {payload} : Local (.handle payload) (.fail .failed)
  | returned {payload} : Local (.handle payload) .complete

/-! ## Reapers -/

/-- A sweep after its `find_stuck`: the runs still to do, and whether the re-queue of the first was
refused. -/
structure Sweep where
  id : ℕ
  stuck : List StuckJob
  refused : Bool
  stats : ReapStats

namespace Sweep

/-- The next store call. -/
def call (sweep : Sweep) (now : Time) : Option Call :=
  match sweep.stuck, sweep.refused with
  | [], _ => none
  | x :: _, false => some (.requeueStuck x.jobId now)
  | x :: _, true => some (.deadLetter x.jobId now)

def reply (sweep : Sweep) (r : Reply) : Sweep :=
  match sweep.stuck, sweep.refused with
  | [], _ => sweep
  | x :: stuck, false =>
    if r.effective then
      ⟨sweep.id, stuck, false, { sweep.stats with requeued := sweep.stats.requeued + 1 }⟩
    else ⟨sweep.id, x :: stuck, true, sweep.stats⟩
  | _ :: stuck, true =>
    if r.effective then
      ⟨sweep.id, stuck, false, { sweep.stats with deadLettered := sweep.stats.deadLettered + 1 }⟩
    else ⟨sweep.id, stuck, false, sweep.stats⟩

theorem call_cases {sweep : Sweep} {now : Time} {c : Call} (h : sweep.call now = some c) :
    ∃ x stuck, sweep.stuck = x :: stuck ∧
      ((sweep.refused = false ∧ c = .requeueStuck x.jobId now) ∨
        (sweep.refused = true ∧ c = .deadLetter x.jobId now)) := by
  obtain ⟨id, _ | ⟨x, stuck⟩, refused, stats⟩ := sweep
  · exact nomatch h
  · cases refused with
    | false => exact ⟨x, stuck, rfl, Or.inl ⟨rfl, (Option.some.inj h).symm⟩⟩
    | true => exact ⟨x, stuck, rfl, Or.inr ⟨rfl, (Option.some.inj h).symm⟩⟩

/-- A sweep keeps its number, and nothing is added to what it has still to do. -/
theorem reply_same (sweep : Sweep) (r : Reply) :
    (sweep.reply r).id = sweep.id ∧ (sweep.reply r).stuck ⊆ sweep.stuck := by
  obtain ⟨id, _ | ⟨x, stuck⟩, refused, stats⟩ := sweep
  · exact ⟨rfl, List.Subset.refl _⟩
  · cases refused with
    | false =>
      cases h : r.effective with
      | false => exact ⟨by simp [reply, h], by simp [reply, h]⟩
      | true => exact ⟨by simp [reply, h], by simp [reply, h]⟩
    | true =>
      cases h : r.effective with
      | false => exact ⟨by simp [reply, h], by simp [reply, h]⟩
      | true => exact ⟨by simp [reply, h], by simp [reply, h]⟩

end Sweep

/-! ## The machine -/

/-- Who makes a store call: an invocation of `process` and a sweep are told apart by
their numbers. -/
inductive Actor
  | producer
  | operator
  | dispatcher (d : ℕ)
  | worker (invocation : ℕ)
  | reaper (sweep : ℕ)
deriving DecidableEq

/-- A handler run: by which invocation, of which job, on which payload. -/
structure HandlerRun where
  invocation : ℕ
  jobId : JobId
  payload : Document

structure System where
  relay : Relay Actor
  committed : Finset ℕ
  dispatchers : ℕ → Dispatcher
  workers : ℕ → Option Invocation
  reapers : ℕ → Option Sweep
  nextInvocation : ℕ
  nextSweep : ℕ
  handled : List HandlerRun

/-- `KAFKA_TOPIC`. -/
def kafkaTopic : String := "jobs"

namespace System

/-- Everybody idle, the store empty but for its configuration. -/
def start (cfg : Dict String TypeConfig) : System where
  relay := .start cfg
  committed := ∅
  dispatchers _ := .idle
  workers _ := none
  reapers _ := none
  nextInvocation := 0
  nextSweep := 0
  handled := []

def store (s : System) : InMemoryStore := s.relay.store

def journal (s : System) : List (Entry Actor) := s.relay.ledger.journal

/-- The topic, oldest message first: a message's offset is its index. -/
def produced (s : System) : List Record := s.relay.produced

/-- What the store would answer. -/
def reply (s : System) (c : Call) : Reply := (exec s.store c).1

def perform (s : System) (actor : Actor) (c : Call) : System :=
  { s with relay := s.relay.perform actor c }

def setDispatcher (s : System) (d : ℕ) (v : Dispatcher) : System :=
  { s with dispatchers := Function.update s.dispatchers d v }

def setWorker (s : System) (w : ℕ) (v : Option Invocation) : System :=
  { s with workers := Function.update s.workers w v }

def setReaper (s : System) (k : ℕ) (v : Option Sweep) : System :=
  { s with reapers := Function.update s.reapers k v }

inductive Action
  | enqueue (jobType : String) (inputPayload : Option Document) (creator : Option Creator)
      (createdAt updatedAt : Time)
  | configure (jobType : String) (runTimeout : Duration) (maxAttempts : ℤ)
      (payload : Option Payload)
  | dispatch (d : ℕ) (batchSize : ℤ) (now : Time)
  | publish (d : ℕ)
  | poll (w : ℕ) (offset : ℕ)
  | work (w : ℕ) (now : Time)
  | lookup (w : ℕ) (found : Bool)
  | handled (w : ℕ) (raised : Bool)
  | commit (w : ℕ)
  | find (k : ℕ) (now : Time)
  | reap (k : ℕ) (now : Time)
  | stopDispatcher (d : ℕ)
  | stopWorker (w : ℕ)
  | stopReaper (k : ℕ)

/-- One step of the machine, if the action is enabled. -/
def step (s : System) : Action → Option System
  | .enqueue t p cr ca ua => some (s.perform .producer (.enqueue t p cr ca ua))
  | .configure t timeout cap p => some (s.perform .operator (.setTypeConfig t timeout cap p))
  | .dispatch d batchSize now =>
    ((s.dispatchers d).call batchSize now).map fun c =>
      (s.perform (.dispatcher d) c).setDispatcher d ((s.dispatchers d).reply (s.reply c))
  | .publish d =>
    match s.dispatchers d with
    | ⟨msg :: messages, false⟩ =>
      some ({ s with relay := s.relay.publish kafkaTopic msg }.setDispatcher d
        ⟨msg :: messages, true⟩)
    | _ => none
  | .poll w offset =>
    match s.workers w, s.produced[offset]? with
    | none, some rec =>
      if offset ∈ s.committed then none
      else
        some ({ s with nextInvocation := s.nextInvocation + 1 }.setWorker w
          (some ⟨s.nextInvocation, offset, rec.message, .claim⟩))
    | _, _ => none
  | .work w now =>
    (s.workers w).bind fun inv =>
      (inv.call now).map fun c =>
        (s.perform (.worker inv.id) c).setWorker w (inv.reply (s.reply c))
  | .lookup w found =>
    match s.workers w with
    | some ⟨n, offset, envelope, .lookup payload⟩ =>
      if found then
        some ({ s with handled := ⟨n, envelope.jobId, payload⟩ :: s.handled }.setWorker w
          (some ⟨n, offset, envelope, .handle payload⟩))
      else some (s.setWorker w (some ⟨n, offset, envelope, .fail .failed⟩))
    | _ => none
  | .handled w raised =>
    match s.workers w with
    | some ⟨n, offset, envelope, .handle _⟩ =>
      some (s.setWorker w
        (some ⟨n, offset, envelope, if raised then .fail .failed else .complete⟩))
    | _ => none
  | .commit w =>
    match s.workers w with
    | some ⟨_, offset, _, .commit _⟩ =>
      some ({ s with committed := insert offset s.committed }.setWorker w none)
    | _ => none
  | .find k now =>
    match s.reapers k with
    | none =>
      some ({ s.perform (.reaper s.nextSweep) (.findStuck now) with
          nextSweep := s.nextSweep + 1 }.setReaper k
        (some ⟨s.nextSweep, s.store.findStuck now, false, ⟨0, 0⟩⟩))
    | some _ => none
  | .reap k now =>
    (s.reapers k).bind fun sweep =>
      (sweep.call now).map fun c =>
        (s.perform (.reaper sweep.id) c).setReaper k (some (sweep.reply (s.reply c)))
  | .stopDispatcher d => some (s.setDispatcher d .idle)
  | .stopWorker w => some (s.setWorker w none)
  | .stopReaper k => some (s.setReaper k none)

/-! ## What one step can do -/

/-- The component that moves is the one looked at, or another one. -/
theorem update_cases {ι κ : Type} [DecidableEq ι] {f : ι → κ} {a b : ι} {v x : κ}
    (h : Function.update f a v b = x) : f b = x ∨ b = a ∧ v = x := by
  rw [Function.update_apply] at h
  split at h
  · rename_i he
    exact Or.inr ⟨he, h⟩
  · exact Or.inl h

/-- **What each action does**, with the conditions it does it under. -/
inductive Step (s : System) : Action → System → Prop
  | enqueue {t p cr ca ua} :
      Step s (.enqueue t p cr ca ua) (s.perform .producer (.enqueue t p cr ca ua))
  | configure {t timeout cap p} :
      Step s (.configure t timeout cap p) (s.perform .operator (.setTypeConfig t timeout cap p))
  | dispatch {d n now c} (hc : (s.dispatchers d).call n now = some c) :
      Step s (.dispatch d n now)
        ((s.perform (.dispatcher d) c).setDispatcher d ((s.dispatchers d).reply (s.reply c)))
  | publish {d msg messages} (hd : s.dispatchers d = ⟨msg :: messages, false⟩) :
      Step s (.publish d)
        ({ s with relay := s.relay.publish kafkaTopic msg }.setDispatcher d ⟨msg :: messages, true⟩)
  | poll {w offset rec} (hw : s.workers w = none) (hrec : s.produced[offset]? = some rec)
      (hc : offset ∉ s.committed) :
      Step s (.poll w offset)
        ({ s with nextInvocation := s.nextInvocation + 1 }.setWorker w
          (some ⟨s.nextInvocation, offset, rec.message, .claim⟩))
  | work {w now inv c} (hw : s.workers w = some inv) (hc : inv.call now = some c) :
      Step s (.work w now)
        ((s.perform (.worker inv.id) c).setWorker w (inv.reply (s.reply c)))
  | found {w n offset envelope payload}
      (hw : s.workers w = some ⟨n, offset, envelope, .lookup payload⟩) :
      Step s (.lookup w true)
        ({ s with handled := ⟨n, envelope.jobId, payload⟩ :: s.handled }.setWorker w
          (some ⟨n, offset, envelope, .handle payload⟩))
  | unknown {w n offset envelope payload}
      (hw : s.workers w = some ⟨n, offset, envelope, .lookup payload⟩) :
      Step s (.lookup w false) (s.setWorker w (some ⟨n, offset, envelope, .fail .failed⟩))
  | handled {w raised n offset envelope payload}
      (hw : s.workers w = some ⟨n, offset, envelope, .handle payload⟩) :
      Step s (.handled w raised)
        (s.setWorker w (some ⟨n, offset, envelope, if raised then .fail .failed else .complete⟩))
  | commit {w n offset envelope outcome}
      (hw : s.workers w = some ⟨n, offset, envelope, .commit outcome⟩) :
      Step s (.commit w)
        ({ s with committed := insert offset s.committed }.setWorker w none)
  | find {k now} (hk : s.reapers k = none) :
      Step s (.find k now)
        ({ s.perform (.reaper s.nextSweep) (.findStuck now) with
            nextSweep := s.nextSweep + 1 }.setReaper k
          (some ⟨s.nextSweep, s.store.findStuck now, false, ⟨0, 0⟩⟩))
  | reap {k now sweep c} (hk : s.reapers k = some sweep) (hc : sweep.call now = some c) :
      Step s (.reap k now)
        ((s.perform (.reaper sweep.id) c).setReaper k (some (sweep.reply (s.reply c))))
  | stopDispatcher {d} : Step s (.stopDispatcher d) (s.setDispatcher d .idle)
  | stopWorker {w} : Step s (.stopWorker w) (s.setWorker w none)
  | stopReaper {k} : Step s (.stopReaper k) (s.setReaper k none)

theorem step_cases {s s' : System} {a : Action} (h : step s a = some s') : Step s a s' := by
  cases a with
  | enqueue t p cr ca ua => exact Option.some.inj h ▸ .enqueue
  | configure t timeout cap p => exact Option.some.inj h ▸ .configure
  | dispatch d n now =>
    obtain ⟨c, hc, rfl⟩ := Option.map_eq_some_iff.mp h
    exact .dispatch hc
  | publish d =>
    simp only [step] at h
    split at h
    · rename_i hd
      exact Option.some.inj h ▸ .publish hd
    · exact nomatch h
  | poll w offset =>
    simp only [step] at h
    split at h
    · rename_i hw hrec
      obtain ⟨hc, h⟩ := Option.ite_none_left_eq_some.mp h
      exact Option.some.inj h ▸ .poll hw hrec hc
    · exact nomatch h
  | work w now =>
    obtain ⟨inv, hw, h⟩ := Option.bind_eq_some_iff.mp h
    obtain ⟨c, hc, rfl⟩ := Option.map_eq_some_iff.mp h
    exact .work hw hc
  | lookup w found =>
    simp only [step] at h
    split at h
    · rename_i hw
      cases found with
      | true => exact Option.some.inj h ▸ .found hw
      | false => exact Option.some.inj h ▸ .unknown hw
    · exact nomatch h
  | handled w raised =>
    simp only [step] at h
    split at h
    · rename_i hw
      exact Option.some.inj h ▸ .handled hw
    · exact nomatch h
  | commit w =>
    simp only [step] at h
    split at h
    · rename_i hw
      exact Option.some.inj h ▸ .commit hw
    · exact nomatch h
  | find k now =>
    simp only [step] at h
    split at h
    · rename_i hk
      exact Option.some.inj h ▸ .find hk
    · exact nomatch h
  | reap k now =>
    obtain ⟨sweep, hk, h⟩ := Option.bind_eq_some_iff.mp h
    obtain ⟨c, hc, rfl⟩ := Option.map_eq_some_iff.mp h
    exact .reap hk hc
  | stopDispatcher d => exact Option.some.inj h ▸ .stopDispatcher
  | stopWorker w => exact Option.some.inj h ▸ .stopWorker
  | stopReaper k => exact Option.some.inj h ▸ .stopReaper

/-- The store call an action makes, and who makes it. -/
inductive Makes (s : System) : Action → Actor → Call → Prop
  | enqueue {t p cr ca ua} :
      Makes s (.enqueue t p cr ca ua) .producer (.enqueue t p cr ca ua)
  | configure {t timeout cap p} :
      Makes s (.configure t timeout cap p) .operator (.setTypeConfig t timeout cap p)
  | dispatch {d n now c} (hc : (s.dispatchers d).call n now = some c) :
      Makes s (.dispatch d n now) (.dispatcher d) c
  | work {w now inv c} (hw : s.workers w = some inv) (hc : inv.call now = some c) :
      Makes s (.work w now) (.worker inv.id) c
  | find {k now} (hk : s.reapers k = none) :
      Makes s (.find k now) (.reaper s.nextSweep) (.findStuck now)
  | reap {k now sweep c} (hk : s.reapers k = some sweep) (hc : sweep.call now = some c) :
      Makes s (.reap k now) (.reaper sweep.id) c

variable {s s' : System} {a : Action} {actor : Actor} {c : Call}

/-- **A step makes one call, publishes one row, or leaves the relay alone.** -/
theorem Step.relay_cases (h : Step s a s') :
    s'.relay = s.relay ∨ (∃ actor c, Makes s a actor c ∧ s'.relay = s.relay.perform actor c) ∨
      ∃ d msg messages, s.dispatchers d = ⟨msg :: messages, false⟩ ∧
        s'.relay = s.relay.publish kafkaTopic msg := by
  cases h with
  | enqueue => exact Or.inr (Or.inl ⟨_, _, .enqueue, rfl⟩)
  | configure => exact Or.inr (Or.inl ⟨_, _, .configure, rfl⟩)
  | dispatch hc => exact Or.inr (Or.inl ⟨_, _, .dispatch hc, rfl⟩)
  | publish hd => exact Or.inr (Or.inr ⟨_, _, _, hd, rfl⟩)
  | work hw hc => exact Or.inr (Or.inl ⟨_, _, .work hw hc, rfl⟩)
  | find hk => exact Or.inr (Or.inl ⟨_, _, .find hk, rfl⟩)
  | reap hk hc => exact Or.inr (Or.inl ⟨_, _, .reap hk hc, rfl⟩)
  | _ => exact Or.inl rfl

/-- A step makes one call, or leaves the store and the journal alone. -/
theorem Step.ledger_cases (h : Step s a s') :
    (s'.store = s.store ∧ s'.journal = s.journal) ∨
      ∃ actor c, Makes s a actor c ∧ s'.store = (exec s.store c).2 ∧
        s'.journal = ⟨actor, c, s.reply c⟩ :: s.journal := by
  rcases h.relay_cases with he | ⟨actor, c, hc, he⟩ | ⟨d, msg, messages, -, he⟩
  · exact Or.inl ⟨by rw [store, he]; rfl, by rw [journal, he]; rfl⟩
  · exact Or.inr ⟨actor, c, hc, by rw [store, he]; rfl, by rw [journal, he]; rfl⟩
  · exact Or.inl ⟨by rw [store, he]; rfl, by rw [journal, he]; rfl⟩

theorem Step.journal_cases (h : Step s a s') :
    s'.journal = s.journal ∨
      ∃ actor c, Makes s a actor c ∧ s'.journal = ⟨actor, c, s.reply c⟩ :: s.journal :=
  h.ledger_cases.imp And.right fun ⟨actor, c, hc, hj⟩ => ⟨actor, c, hc, hj.2⟩

/-- The journal only grows. -/
theorem Step.mem_journal (h : Step s a s') {e : Entry Actor} (he : e ∈ s.journal) :
    e ∈ s'.journal := by
  rcases h.journal_cases with hj | ⟨actor, c, -, hj⟩
  · exact hj ▸ he
  · exact hj ▸ List.mem_cons_of_mem _ he

/-- What one step can do to worker `w`. -/
inductive WorkerStep (s s' : System) (w : ℕ) : Action → Option Invocation → Prop
  | stay {b v} (hv : s.workers w = v) : WorkerStep s s' w b v
  | poll {offset rec} (hw : s.workers w = none) (hrec : s.produced[offset]? = some rec)
      (hc : offset ∉ s.committed) (hnext : s'.nextInvocation = s.nextInvocation + 1) :
      WorkerStep s s' w (.poll w offset) (some ⟨s.nextInvocation, offset, rec.message, .claim⟩)
  | work {now inv c v} (hw : s.workers w = some inv) (hc : inv.call now = some c)
      (hv : inv.reply (s.reply c) = v) (hrelay : s'.relay = s.relay.perform (.worker inv.id) c) :
      WorkerStep s s' w (.work w now) v
  | local {b n offset envelope st st'} (hw : s.workers w = some ⟨n, offset, envelope, st⟩)
      (hst : st.Local st') (hrelay : s'.relay = s.relay) :
      WorkerStep s s' w b (some ⟨n, offset, envelope, st'⟩)
  | idle {b} (hrelay : s'.relay = s.relay) : WorkerStep s s' w b none

theorem Step.worker (h : Step s a s') (w : ℕ) : WorkerStep s s' w a (s'.workers w) := by
  -- the worker that moves is `w` or another one
  have update : ∀ {w' : ℕ} {v : Option Invocation},
      (w = w' → WorkerStep s s' w a v) →
      WorkerStep s s' w a (Function.update s.workers w' v w) := by
    intro w' v hv
    rw [Function.update_apply]
    split
    · rename_i he
      exact hv he
    · exact .stay rfl
  cases h with
  | poll hw hrec hc => exact update fun he => by subst he; exact .poll hw hrec hc rfl
  | work hw hc => exact update fun he => by subst he; exact .work hw hc rfl rfl
  | found hw => exact update fun he => by subst he; exact .local hw .found rfl
  | unknown hw => exact update fun he => by subst he; exact .local hw .unknown rfl
  | @handled w' raised _ _ _ _ hw =>
    refine update fun he => ?_
    subst he
    cases raised with
    | true => exact .local hw .raised rfl
    | false => exact .local hw .returned rfl
  | commit hw => exact update fun he => .idle rfl
  | stopWorker => exact update fun he => .idle rfl
  | _ => exact .stay rfl

/-- Only the operator configures. -/
theorem Makes.of_configure {t : String} {timeout : Duration} {cap : ℤ} {p : Option Payload}
    (h : Makes s a actor (.setTypeConfig t timeout cap p)) : a = .configure t timeout cap p := by
  cases h with
  | configure => rfl
  | dispatch hc =>
    rcases Dispatcher.call_cases hc with ⟨-, he⟩ | ⟨msg, messages, hd, he⟩ <;> exact nomatch he
  | work hw hc =>
    rcases Invocation.call_cases hc with ⟨-, he⟩ | ⟨-, he⟩ | ⟨_, -, he⟩ | ⟨-, he⟩ <;>
      exact nomatch he
  | reap hk hc =>
    obtain ⟨x, stuck, -, ⟨-, he⟩ | ⟨-, he⟩⟩ := Sweep.call_cases hc <;> exact nomatch he

/-- Only a dispatcher marks, and it marks the row it has published. -/
theorem Makes.of_mark {o : OutboxId} {i : JobId} {now : Time}
    (h : Makes s a actor (.markDispatched o i now)) : ∃ d n msg messages,
      a = .dispatch d n now ∧ s.dispatchers d = ⟨msg :: messages, true⟩ ∧
        msg.id = o ∧ msg.jobId = i := by
  cases h with
  | dispatch hc =>
    rcases Dispatcher.call_cases hc with ⟨-, he⟩ | ⟨msg, messages, hd, he⟩
    · exact nomatch he
    · obtain ⟨rfl, rfl, rfl⟩ := Call.markDispatched.inj he
      exact ⟨_, _, msg, messages, rfl, hd, rfl, rfl⟩
  | work hw hc =>
    rcases Invocation.call_cases hc with ⟨-, he⟩ | ⟨-, he⟩ | ⟨_, -, he⟩ | ⟨-, he⟩ <;>
      exact nomatch he
  | reap hk hc =>
    obtain ⟨x, stuck, -, ⟨-, he⟩ | ⟨-, he⟩⟩ := Sweep.call_cases hc <;> exact nomatch he

/-- Only a worker completes, at the end of its `process`. -/
theorem Makes.of_complete {i : JobId} {now : Time} (h : Makes s a actor (.complete i now)) :
    ∃ w inv, a = .work w now ∧ actor = .worker inv.id ∧ s.workers w = some inv ∧
      inv.stage = .complete ∧ inv.envelope.jobId = i := by
  cases h with
  | dispatch hc =>
    rcases Dispatcher.call_cases hc with ⟨-, he⟩ | ⟨msg, messages, hd, he⟩ <;> exact nomatch he
  | work hw hc =>
    rcases Invocation.call_cases hc with ⟨-, he⟩ | ⟨-, he⟩ | ⟨_, -, he⟩ | ⟨hst, he⟩
    · exact nomatch he
    · exact nomatch he
    · exact nomatch he
    · obtain ⟨rfl, rfl⟩ := Call.complete.inj he
      exact ⟨_, _, rfl, rfl, hw, hst, rfl⟩
  | reap hk hc =>
    obtain ⟨x, stuck, -, ⟨-, he⟩ | ⟨-, he⟩⟩ := Sweep.call_cases hc <;> exact nomatch he

/-! ## The machine runs the relay -/

/-- The rows a dispatcher works through were fetched. -/
def Fetched (s : System) : Prop := ∀ d, ∀ msg ∈ (s.dispatchers d).messages, msg ∈ s.relay.fetched

theorem Fetched.start (cfg : Dict String TypeConfig) : Fetched (start cfg) :=
  fun _ _ h => nomatch h

theorem mem_fetched_perform {r : Relay Actor} {msg : OutboxMessage} (h : msg ∈ r.fetched) :
    msg ∈ (r.perform actor c).fetched :=
  List.mem_append_right _ h

theorem Fetched.of_step (hs : Fetched s) (h : Step s a s') : Fetched s' := by
  -- one dispatcher's rows are replaced by rows that were fetched
  have update : ∀ {r : Relay Actor} (d : ℕ) (v : Dispatcher),
      (∀ msg ∈ s.relay.fetched, msg ∈ r.fetched) → (∀ msg ∈ v.messages, msg ∈ r.fetched) →
      ∀ d', ∀ msg ∈ (Function.update s.dispatchers d v d').messages, msg ∈ r.fetched := by
    intro r d v hr hv d' msg hmsg
    rcases update_cases (rfl : Function.update s.dispatchers d v d' = _) with he | ⟨-, he⟩
    · exact hr msg (hs d' msg (he ▸ hmsg))
    · exact hv msg (he ▸ hmsg)
  cases h with
  | dispatch hc =>
    rename_i d n now c
    refine update d _ (fun msg => mem_fetched_perform) fun msg hmsg => ?_
    rcases Dispatcher.call_cases hc with ⟨hd, rfl⟩ | ⟨m, messages, hd, rfl⟩
    · rw [Dispatcher.reply, hd] at hmsg
      exact List.mem_append_left _ hmsg
    · rw [Dispatcher.reply, hd] at hmsg
      exact mem_fetched_perform (hs d msg (by rw [hd]; exact List.mem_cons_of_mem m hmsg))
  | publish hd =>
    rename_i d m messages
    exact update d _ (fun _ h => h) fun msg hmsg => hs d msg (by rw [hd]; exact hmsg)
  | stopDispatcher =>
    exact update _ _ (fun _ h => h) fun _ h => nomatch h
  | enqueue => exact fun d msg hmsg => mem_fetched_perform (hs d msg hmsg)
  | configure => exact fun d msg hmsg => mem_fetched_perform (hs d msg hmsg)
  | work hw hc => exact fun d msg hmsg => mem_fetched_perform (hs d msg hmsg)
  | find hk => exact fun d msg hmsg => mem_fetched_perform (hs d msg hmsg)
  | reap hk hc => exact fun d msg hmsg => mem_fetched_perform (hs d msg hmsg)
  | _ => exact hs

/-- The machine's step is one of the relay, or leaves it alone. -/
theorem Fetched.relay_step (hs : Fetched s) (h : Step s a s') :
    s'.relay = s.relay ∨ ∃ b, Relay.step s.relay b = some s'.relay := by
  rcases h.relay_cases with he | ⟨actor, c, hc, he⟩ | ⟨d, msg, messages, hd, he⟩
  · exact Or.inl he
  · right
    rw [he]
    cases c with
    | markDispatched o i now =>
      obtain ⟨d, n, msg, messages, rfl, hd, rfl, rfl⟩ := hc.of_mark
      exact ⟨.mark actor msg now, if_pos (hs d msg (by rw [hd]; exact List.mem_cons_self))⟩
    | _ => exact ⟨.call actor _, Relay.step_call nofun⟩
  · right
    rw [he]
    exact ⟨.publish kafkaTopic msg, if_pos (hs d msg (by rw [hd]; exact List.mem_cons_self))⟩

/-- **The machine's relay is a run of the relay.** -/
theorem relay_reachable {cfg : Dict String TypeConfig} (h : Runs.Reachable step (start cfg) s) :
    Runs.Reachable Relay.step (Relay.start cfg) s.relay :=
  h.simulate (I := Fetched) relay (Fetched.start cfg)
    (fun _ _ _ hs ha => hs.of_step (step_cases ha))
    fun _ _ _ hs ha => hs.relay_step (step_cases ha)

theorem ledger_reachable {cfg : Dict String TypeConfig} (h : Runs.Reachable step (start cfg) s) :
    Runs.Reachable Ledger.step (Ledger.start cfg) s.relay.ledger :=
  Relay.ledger_reachable (relay_reachable h)

theorem sound {cfg : Dict String TypeConfig} (h : Runs.Reachable step (start cfg) s) :
    Relay.Sound s.relay :=
  Relay.sound_of_reachable (relay_reachable h)

end System

end JobWorkflow
