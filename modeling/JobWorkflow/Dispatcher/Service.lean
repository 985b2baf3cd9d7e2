import JobWorkflow.Common.Messaging
import JobWorkflow.Common.Store

/-!
# Dispatcher/Service — `dispatch_once` run on its own

The loop of `dispatcher/service.py` over any store and any producer.  An exception from `publish`
leaves the loop with the rows before it marked.
-/

namespace JobWorkflow

variable {σ π : Type} [Store σ] [Producer π]

/-- The loop over the fetched batch; `clock k` is what `mark_dispatched` reads at the `k`-th row. -/
def dispatchBatch (topic : String) : List OutboxMessage → (ℕ → Time) → σ × π →
    Except PublishError Unit × σ × π
  | [], _, (s, p) => (.ok (), s, p)
  | msg :: messages, clock, (s, p) =>
    match Producer.publish (recordOf topic msg) p with
    | (.error e, p) => (.error e, s, p)
    | (.ok (), p) =>
      dispatchBatch topic messages (fun k => clock (k + 1))
        (Store.markDispatched msg.id msg.jobId (clock 0) s, p)

/-- Publish one batch of unpublished outbox messages; returns how many. -/
def dispatchOnce (topic : String) (batchSize : ℤ) (clock : ℕ → Time) (sp : σ × π) :
    Except (StoreError ⊕ PublishError) ℕ × σ × π :=
  match Store.fetchUnpublished batchSize sp.1 with
  | .error e => (.error (.inl e), sp)
  | .ok messages =>
    let (r, sp) := dispatchBatch topic messages clock sp
    ((r.mapError .inr).map fun _ => messages.length, sp)

end JobWorkflow
