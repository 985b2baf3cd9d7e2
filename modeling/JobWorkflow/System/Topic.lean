import JobWorkflow.Common.Wire
import JobWorkflow.System.Machine

/-!
# System/Topic — what the bytes on the topic say

The bytes of every record on the topic are read back by the worker's consumer as the pointer to a
job of the store, and the keys keep the messages of a job, and of no other, together
(`topic_read_back`).
-/

namespace JobWorkflow

namespace System

variable {s : System} {cfg : Dict String TypeConfig}

/-- **Every record is read back as the pointer to its job**: polled as bytes it is the envelope of a
job in the store, with that job's own type, and two records share a key exactly if they are about
one job. -/
theorem topic_read_back (h : Runs.Reachable step (start cfg) s) {rec : Record}
    (hrec : rec ∈ s.produced) (hid : Writable rec.message.jobId) :
    (∃ j v, s.store.getJob rec.message.jobId = some j ∧
      KafkaConsumer.poll (.message rec.toWire.value) = .ok (some v) ∧
      Envelope.ofValue? v = some (buildEnvelope j.id j.jobType)) ∧
    ∀ rec' ∈ s.produced, rec.toWire.key = rec'.toWire.key ↔
      rec.message.jobId = rec'.message.jobId := by
  have hs := sound h
  have hkey : ∀ rec' ∈ s.produced, rec'.key = toString rec'.message.jobId := by
    intro rec' hrec'
    obtain ⟨j, -, hmsg, hk⟩ := hs.produced_job rec' hrec'
    rw [hk, hmsg]
    rfl
  obtain ⟨j, hj, hmsg, -⟩ := hs.produced_job rec hrec
  refine ⟨⟨j, rec.message.toValue, hj, poll_toWire hid, hmsg ▸ rec.message.ofValue?_toValue⟩,
    fun rec' hrec' => ?_⟩
  rw [Record.toWire, Record.toWire, hkey rec hrec, hkey rec' hrec']
  exact key_inj

/-- The record of the first job. -/
theorem topic_read_back_first : ∃ s rec j v, Runs.run step (start ∅)
    [.enqueue "hello" none none 0 0, .dispatch 0 10 1, .publish 0] = some s ∧ rec ∈ s.produced ∧
    s.store.getJob 1 = some j ∧ KafkaConsumer.poll (.message rec.toWire.value) = .ok (some v) ∧
    Envelope.ofValue? v = some (buildEnvelope j.id j.jobType) := by
  obtain ⟨s, rec, hrun, hrec, hid⟩ : ∃ s rec, Runs.run step (start ∅)
      [.enqueue "hello" none none 0 0, .dispatch 0 10 1, .publish 0] = some s ∧
      rec ∈ s.produced ∧ rec.message.jobId = 1 := ⟨_, _, rfl, List.mem_cons_self, rfl⟩
  obtain ⟨j, v, hj, hv⟩ := (topic_read_back ⟨_, hrun⟩ hrec (hid ▸ by decide)).1
  exact ⟨s, rec, j, v, hrun, hrec, hid ▸ hj, hv⟩

end System

end JobWorkflow
