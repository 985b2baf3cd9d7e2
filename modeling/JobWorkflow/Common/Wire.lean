import JobWorkflow.Common.Messaging
import JobWorkflow.Machinery.PyJson

/-!
# Common/Wire — envelopes as bytes on the topic

`KafkaProducer.publish` hands the client bytes, and `KafkaConsumer.poll` makes a dict of the bytes
it is handed (`common/messaging.py`).  In between, an envelope is the UTF-8 of its JSON text.

What a worker reads is what a dispatcher wrote, whatever characters the job type is made of
(`published_read_back`); on the way there is nothing but printable ASCII.
-/

namespace JobWorkflow

open PyJson (Value Str)

/-! ## Strings and bytes -/

/-- A `str` of the interpreter; a `String` has no surrogates. -/
def strOf (s : String) : Str := s.toList.map fun c => PyJson.chr c.toNat

/-- The string, of a `str` without surrogates. -/
def textOf (s : Str) : String := .ofList (s.map fun c => Char.ofNat c.val)

theorem chr_toNat_val (c : Char) : (PyJson.chr c.toNat).val = c.toNat := by
  have hvalid : c.toNat < 0xd800 ∨ 0xdfff < c.toNat ∧ c.toNat < 0x110000 := c.valid
  exact Nat.mod_eq_of_lt (by omega)

theorem isScalar_strOf (s : String) : ∀ c ∈ strOf s, PyJson.IsScalar c := by
  rw [strOf, List.forall_mem_map]
  intro c _
  have hvalid : c.toNat < 0xd800 ∨ 0xdfff < c.toNat ∧ c.toNat < 0x110000 := c.valid
  simp only [PyJson.IsScalar, chr_toNat_val, PyJson.IsHigh, PyJson.IsLow]
  omega

@[simp] theorem textOf_strOf (s : String) : textOf (strOf s) = s := by
  rw [textOf, strOf, List.map_map, ← String.toList_inj, String.toList_ofList]
  refine (List.map_congr_left fun c _ => ?_).trans (List.map_id _)
  rw [Function.comp_apply, chr_toNat_val, Char.ofNat_toNat, id]

theorem strOf_injective : Function.Injective strOf :=
  Function.LeftInverse.injective textOf_strOf

/-- Decoding is the inverse of encoding. -/
theorem fromUTF8?_toUTF8 (s : String) : String.fromUTF8? s.toUTF8 = some s := dif_pos s.isValidUTF8

/-! ## The producer's side -/

/-- The dict that `build_envelope` makes. -/
def Envelope.toValue (e : Envelope) : Value :=
  .object [(strOf "job_id", .int e.jobId), (strOf "job_type", .str (strOf e.jobType))]

/-- What the client is handed: `key.encode("utf-8")` and `json.dumps(message).encode("utf-8")`. -/
structure WireRecord where
  topic : String
  key : ByteArray
  value : ByteArray

def Record.text (r : Record) : String := .ofList (PyJson.dumps r.message.toValue)

def Record.toWire (r : Record) : WireRecord := ⟨r.topic, r.key.toUTF8, r.text.toUTF8⟩

/-! ## The consumer's side -/

/-- What the client's `poll` returns. -/
inductive Polled
  | none
  | error
  | message (value : ByteArray)

inductive PollError
  | unicodeDecodeError | jsonDecodeError

namespace KafkaConsumer

/-- `None`, also for an error, or the document that the bytes of the message are. -/
def poll : Polled → Except PollError (Option Value)
  | .none | .error => .ok none
  | .message value =>
    match String.fromUTF8? value with
    | none => .error .unicodeDecodeError
    | some s =>
      match PyJson.loads s.toList with
      | none => .error .jsonDecodeError
      | some v => .ok (some v)

end KafkaConsumer

/-- `v[key]`, of a dict. -/
def item (key : String) : Value → Option Value
  | .object ms => ms.lookup (strOf key)
  | _ => none

/-- What `process` reads of the dict, if it is an envelope. -/
def Envelope.ofValue? (v : Value) : Option Envelope :=
  match item "job_id" v, item "job_type" v with
  | some (.int i), some (.str t) => some ⟨i, textOf t⟩
  | _, _ => none

/-! ## The round trip -/

/-- `str(i)` is not beyond the limit of `int`. -/
def Writable (i : JobId) : Prop := (PyJson.intDigits i).length ≤ PyJson.maxStrDigits

instance (i : JobId) : Decidable (Writable i) := inferInstanceAs (Decidable (_ ≤ _))

theorem Envelope.exact {e : Envelope} (h : Writable e.jobId) : e.toValue.Exact := by
  rw [toValue, Value.Exact]
  refine ⟨?_, ?_⟩
  · simp only [List.map_cons, List.map_nil, List.nodup_cons, List.mem_singleton, List.not_mem_nil,
      not_false_eq_true, List.nodup_nil, and_true]
    exact fun he => absurd (strOf_injective he) (by decide)
  · simp only [PyJson.ExactMembers, Value.Exact, and_true]
    exact ⟨isScalar_strOf _, h, isScalar_strOf _, isScalar_strOf _⟩

theorem Envelope.ofValue?_toValue (e : Envelope) : ofValue? e.toValue = some e := by
  have hne : strOf "job_type" ≠ strOf "job_id" := fun he =>
    absurd (strOf_injective he) (by decide)
  have hid : item "job_id" e.toValue = some (.int e.jobId) := by
    simp only [item, toValue, List.lookup_cons, beq_self_eq_true]
  have htype : item "job_type" e.toValue = some (.str (strOf e.jobType)) := by
    simp only [item, toValue, List.lookup_cons, beq_self_eq_true, beq_eq_false_iff_ne.mpr hne]
  rw [ofValue?, hid, htype]
  simp only [textOf_strOf]

/-- Keys are told apart by the ids they are of. -/
theorem key_inj {i i' : JobId} : (toString i).toUTF8 = (toString i').toUTF8 ↔ i = i' := by
  have htoList : ∀ i : JobId, (toString i).toList = PyJson.intText i := by
    intro i
    cases i with
    | ofNat n => exact Nat.toList_repr
    | negSucc n =>
      change ("-" ++ (n + 1).repr).toList = _
      rw [String.toList_append, Nat.toList_repr]
      rfl
  refine ⟨fun h => ?_, fun h => congrArg (fun i : JobId => (toString i).toUTF8) h⟩
  have hs := congrArg String.fromUTF8? h
  rw [fromUTF8?_toUTF8, fromUTF8?_toUTF8] at hs
  apply PyJson.intText_injective
  rw [← htoList, ← htoList, Option.some.inj hs]

/-- What is polled of the bytes that were published. -/
theorem poll_toWire {r : Record} (h : Writable r.message.jobId) :
    KafkaConsumer.poll (.message r.toWire.value) = .ok (some r.message.toValue) := by
  have hloads := PyJson.loads_dumps (Envelope.exact h)
  rw [KafkaConsumer.poll, Record.toWire, fromUTF8?_toUTF8]
  simp only [Record.text, String.toList_ofList, hloads]

/-- **The wire round trip**: the bytes published of an outbox row are printable ASCII, and a worker
that polls them reads exactly the row's envelope, whatever its job type is. -/
theorem published_read_back (topic : String) (m : OutboxMessage) (h : Writable m.payload.jobId) :
    (∀ c ∈ (recordOf topic m).text.toList, PyJson.Printable c) ∧
      ∃ v, KafkaConsumer.poll (.message (recordOf topic m).toWire.value) = .ok (some v) ∧
        Envelope.ofValue? v = some m.payload := by
  refine ⟨?_, m.payload.toValue, poll_toWire h, m.payload.ofValue?_toValue⟩
  rw [Record.text, String.toList_ofList]
  exact PyJson.printable_dumps _ (Envelope.exact h)

/-- A row whose job type is beyond ASCII, and beyond the basic plane. -/
def smiling : OutboxMessage := ⟨1, 7, ⟨7, "café \"😀\"\n"⟩⟩

theorem published_read_back_smiling : ∃ v,
    KafkaConsumer.poll (.message (recordOf "jobs" smiling).toWire.value) = .ok (some v) ∧
      Envelope.ofValue? v = some ⟨7, "café \"😀\"\n"⟩ :=
  (published_read_back "jobs" smiling (by decide)).2

end JobWorkflow
