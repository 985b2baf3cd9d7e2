import JobWorkflow.Common.Models

/-!
# Common/Messaging — the `Producer` protocol, the capturing producer and the Kafka wrapper

`confluent_kafka.Producer` is not part of this repository: it enters as the class
`ConfluentProducer` of its two operations, and what `KafkaProducer` relies on is
`LawfulConfluentProducer`.  The broker's answers are the client's `fates`, one for each message that
waits in the local queue; `accepted` is what the broker has taken so far.
-/

namespace JobWorkflow

/-- A message as handed to a producer. -/
structure Record where
  topic : String
  key : String
  message : Envelope
deriving DecidableEq

/-- `publish(topic, key=str(msg.job_id), message=msg.payload)`. -/
def recordOf (topic : String) (msg : OutboxMessage) : Record :=
  ⟨topic, toString msg.jobId, msg.payload⟩

/-- The exceptions a client raises to its caller. -/
inductive PublishError
  | raised

/-- What the dispatcher publishes with. -/
class Producer (π : Type) where
  publish : Record → π → Except PublishError Unit × π

/-! ## The producer of the tests -/

/-- Captures published messages in-process, oldest first. -/
structure InMemoryProducer where
  published : List Record

namespace InMemoryProducer

def publish (r : Record) (p : InMemoryProducer) : Except PublishError Unit × InMemoryProducer :=
  (.ok (), ⟨p.published ++ [r]⟩)

instance : Producer InMemoryProducer := ⟨publish⟩

end InMemoryProducer

/-! ## The Kafka wrapper -/

/-- `confluent_kafka.Producer`, with what can be observed of it: the messages in its local queue,
the broker's answer to each of them, and the messages the broker has accepted. -/
class ConfluentProducer (π : Type) where
  produce : Record → π → π
  flush : π → π
  queue : π → List Record
  fates : π → List Bool
  accepted : π → List Record

open ConfluentProducer

/-- The messages whose fate is acceptance. -/
def delivered (queue : List Record) (fates : List Bool) : List Record :=
  ((queue.zip fates).filter Prod.snd).map Prod.fst

/-- **The documented behaviour**: `produce` only appends to the local queue; `flush` returns once
each queued message has been delivered or has permanently failed, and tells its caller nothing. -/
class LawfulConfluentProducer (π : Type) [ConfluentProducer π] : Prop where
  queue_produce : ∀ (r : Record) (p : π), queue (produce r p) = queue p ++ [r]
  accepted_produce : ∀ (r : Record) (p : π), accepted (produce r p) = accepted p
  length_fates : ∀ p : π, (fates p).length = (queue p).length
  queue_flush : ∀ p : π, queue (flush p) = []
  accepted_flush : ∀ p : π, accepted (flush p) = accepted p ++ delivered (queue p) (fates p)

/-- The wrapper around one client. -/
structure KafkaProducer (π : Type) where
  producer : π

namespace KafkaProducer

variable {π : Type} [ConfluentProducer π]

/-- `produce` then `flush`; no delivery callback is registered, so nothing is raised. -/
def publish (r : Record) (p : KafkaProducer π) : Except PublishError Unit × KafkaProducer π :=
  (.ok (), ⟨flush (produce r p.producer)⟩)

instance : Producer (KafkaProducer π) := ⟨publish⟩

end KafkaProducer

end JobWorkflow
