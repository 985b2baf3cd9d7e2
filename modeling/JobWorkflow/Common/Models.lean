import Mathlib.Data.Finmap
import Mathlib.Data.Rat.Defs

/-!
# Common/Models — jobs, statuses, JSON payloads and the message envelope

The contract every component shares (`common/models.py`).  A job's payloads are JSON documents of
which the program only ever looks at the top level: an object is the finite map of its members (two
objects with the same members in another order are equal, as Python dicts and `jsonb` objects are),
and everything below the top level is carried unread.
-/

namespace JobWorkflow

/-- Microseconds since the epoch, as `utcnow()` or `now()` reads them. -/
abbrev Time := ℤ

/-- A `timedelta`, in microseconds. -/
abbrev Duration := ℤ

abbrev JobId := ℤ

abbrev OutboxId := ℤ

/-! ## Statuses -/

/-- The lifecycle states a job moves through. -/
inductive JobStatus
  | queued | dispatched | running | completed | failed
deriving DecidableEq

namespace JobStatus

/-- The non-terminal states: the ones the one-active-job-per-type rule keys off. -/
def active : List JobStatus := [queued, dispatched, running]

def terminal : List JobStatus := [completed, failed]

/-- A status is active exactly when it is not terminal. -/
theorem mem_active_iff (st : JobStatus) : st ∈ active ↔ st ∉ terminal := by
  cases st <;> decide

end JobStatus

/-! ## JSON -/

/-- A JSON value that is neither an array nor an object. -/
inductive Scalar
  | null
  | bool (b : Bool)
  | num (q : ℚ)
  | str (s : String)
deriving DecidableEq

/-- A JSON value below the top level of a payload. -/
inductive Json
  | scalar (v : Scalar)
  | array (xs : List Json)
  | object (members : List (String × Json))

mutual

/-- Below the top level, values are compared with their members in order. -/
def Json.decEq : (a b : Json) → Decidable (a = b)
  | .scalar v, .scalar w => decidable_of_iff (v = w) (by simp)
  | .array xs, .array ys =>
    have := Json.decEqList xs ys
    decidable_of_iff (xs = ys) (by simp)
  | .object ms, .object ns =>
    have := Json.decEqMembers ms ns
    decidable_of_iff (ms = ns) (by simp)
  | .scalar _, .array _ => .isFalse (by simp)
  | .scalar _, .object _ => .isFalse (by simp)
  | .array _, .scalar _ => .isFalse (by simp)
  | .array _, .object _ => .isFalse (by simp)
  | .object _, .scalar _ => .isFalse (by simp)
  | .object _, .array _ => .isFalse (by simp)

def Json.decEqList : (xs ys : List Json) → Decidable (xs = ys)
  | [], [] => .isTrue rfl
  | x :: xs, y :: ys =>
    have := Json.decEq x y
    have := Json.decEqList xs ys
    decidable_of_iff (x = y ∧ xs = ys) (by simp)
  | [], _ :: _ => .isFalse (by simp)
  | _ :: _, [] => .isFalse (by simp)

def Json.decEqMembers : (ms ns : List (String × Json)) → Decidable (ms = ns)
  | [], [] => .isTrue rfl
  | (k, x) :: ms, (l, y) :: ns =>
    have := Json.decEq x y
    have := Json.decEqMembers ms ns
    decidable_of_iff (k = l ∧ x = y ∧ ms = ns) (by simp [and_assoc])
  | [], _ :: _ => .isFalse (by simp)
  | _ :: _, [] => .isFalse (by simp)

end

instance : DecidableEq Json := Json.decEq

def Json.text (s : String) : Json := .scalar (.str s)

@[simp] theorem Json.text_inj {s t : String} : Json.text s = .text t ↔ s = t := by simp [Json.text]

/-- The value, if it is text. -/
def Json.asText : Json → Option String
  | .scalar (.str s) => some s
  | _ => none

theorem Json.asText_eq_some {v : Json} {s : String} : v.asText = some s ↔ v = .text s := by
  cases v with
  | scalar a => cases a <;> simp [Json.asText, Json.text]
  | array xs => simp [Json.asText, Json.text]
  | object ms => simp [Json.asText, Json.text]

/-- A JSON object: its members by key. -/
abbrev Payload := Finmap fun _ : String => Json

/-- A JSON value at the top level of a payload. -/
inductive Document
  | scalar (v : Scalar)
  | array (xs : List Json)
  | object (o : Payload)
deriving DecidableEq

/-- Python's truth value of a scalar. -/
def Scalar.truthy : Scalar → Bool
  | .null => false
  | .bool b => b
  | .num q => q ≠ 0
  | .str s => s ≠ ""

/-- Python's truth value of a parsed document: empty containers are false. -/
def Document.truthy : Document → Bool
  | .scalar v => v.truthy
  | .array xs => !xs.isEmpty
  | .object o => o.entries.card ≠ 0

/-- `input_payload or {}`. -/
def orEmpty : Option Document → Document
  | some d => if d.truthy then d else .object ∅
  | none => .object ∅

/-- An object, or none, is kept as an object: `{}` is the only falsy one. -/
theorem orEmpty_object (o : Payload) : orEmpty (some (.object o)) = .object o := by
  rw [orEmpty]
  split
  · rfl
  · rename_i h
    have hcard : o.entries.card = 0 := by simpa [Document.truthy] using h
    have hnil : o.entries = 0 := Multiset.card_eq_zero.mp hcard
    exact congrArg Document.object (Finmap.ext hnil.symm)

/-- What unpacking a non-mapping with `**` raises. -/
inductive TypeError
  | notAMapping
deriving DecidableEq

/-- `{**base, **input}`: the union of the keys, the input winning. -/
def overlay (base : Payload) : Document → Except TypeError Payload
  | .object input => .ok (input ∪ base)
  | .array _ => .error .notAMapping
  | .scalar _ => .error .notAMapping

/-! ## Jobs and messages -/

/-- Identity of whoever enqueued a job.  A client id is annotated as text, but nobody checks it: it
is the value that the token gives. -/
structure Creator where
  sub : Option String
  type : Option String
  clientId : Option Json
deriving DecidableEq

/-- `Creator()`. -/
def Creator.anonymous : Creator := ⟨none, none, none⟩

structure Job where
  id : JobId
  jobType : String
  status : JobStatus
  inputPayload : Document
  payload : Document
  attempts : ℕ
  createdAt : Time
  updatedAt : Time
  createdBy : Option Creator

/-- The message envelope: a pure pointer to a run. -/
structure Envelope where
  jobId : JobId
  jobType : String
deriving DecidableEq

def buildEnvelope (jobId : JobId) (jobType : String) : Envelope := ⟨jobId, jobType⟩

/-- A row from the outbox: what to publish for one job. -/
structure OutboxMessage where
  id : OutboxId
  jobId : JobId
  payload : Envelope
deriving DecidableEq

/-- A run the reaper found sitting in `running` past its type's timeout. -/
structure StuckJob where
  jobId : JobId
  jobType : String
  attempts : ℕ
deriving DecidableEq

end JobWorkflow
