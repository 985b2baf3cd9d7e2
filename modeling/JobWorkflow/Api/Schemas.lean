import JobWorkflow.Api.Http
import Mathlib.Data.Finset.Sort
import Mathlib.Data.String.Basic

/-!
# Api/Schemas — what a request must look like, and what a job is shown as

`schemas.py`, which is one file in both services, and the part of FastAPI around it: how a body is
read before any dependency runs, how it is validated after all of them have, and how the response of
a route is written.  `pydantic`'s reading of an `int` path segment, the wording of its errors and
what can be written as JSON are parameters (`Framework`).
-/

namespace JobWorkflow

namespace Api

/-- The parts of FastAPI and `pydantic` that the routes rest on. -/
structure Framework where
  /-- The `int` a path segment is read as. -/
  parseInt : String → Except ErrorType JobId
  /-- `str(exc.errors())`. -/
  showErrors : Request → List FieldError → String
  /-- Whether a value of a payload, or a text, can be written to an answer.  One that is nested too
  deeply cannot, nor can a text that UTF-8 does not encode. -/
  writes : Json → Bool

/-! ## Reading a body -/

/-- The body is read, and its JSON decoded, before the dependencies run. -/
def Body.decode : Body → Except Raised Input
  | .read i => .ok i
  | .notJson pos => .error (.validation [⟨["body", toString pos], .jsonInvalid⟩])
  | .unreadable => .error (.http 400 (some "There was an error parsing the body") [])

/-! ## `CreateJobRequest` -/

/-- `[a-z]`. -/
def isLower (c : Char) : Bool := 'a' ≤ c ∧ c ≤ 'z'

/-- `[a-z0-9_.-]`. -/
def isTail (c : Char) : Bool := isLower c || ('0' ≤ c ∧ c ≤ '9') || c ∈ ['_', '.', '-']

/-- `$` without `MULTILINE`: at the end, or before a line feed at the end. -/
def atEnd (cs : List Char) : Bool := cs = [] ∨ cs = ['\n']

/-- `_JOB_TYPE_RE.match`, for `^[a-z][a-z0-9_.-]{0,63}$`: some number of repetitions leads to the
end. -/
def jobTypeRe (s : String) : Bool :=
  match s.toList with
  | [] => false
  | c :: cs =>
    isLower c && (List.range 64).any fun k => (cs.take k).all isTail && atEnd (cs.drop k)

def jobTypeMessage : String :=
  "job_type must be lowercase alnum with _.- (1-64 chars, leading letter)"

/-- A body that has passed its checks. -/
structure CreateJobRequest where
  jobType : String
  payload : Option Payload
  validType : jobTypeRe jobType = true

/-- The dict a decoded JSON object is. -/
def asDict (members : List (String × Json)) : Payload :=
  members.foldl (fun o m => o.insert m.1 m.2) ∅

/-- The field `job_type`, with its validator `_valid_type`. -/
def jobTypeField (o : Payload) : Except FieldError { s : String // jobTypeRe s = true } :=
  match o.lookup "job_type" with
  | none => .error ⟨["body", "job_type"], .missing⟩
  | some (.scalar (.str s)) =>
    if h : jobTypeRe s = true then .ok ⟨s, h⟩
    else .error ⟨["body", "job_type"], .valueError jobTypeMessage⟩
  | some _ => .error ⟨["body", "job_type"], .stringType⟩

/-- The field `payload`, whose default is `None`. -/
def payloadField (o : Payload) : Except FieldError (Option Payload) :=
  match o.lookup "payload" with
  | none => .ok none
  | some (.scalar .null) => .ok none
  | some (.object members) => .ok (some (asDict members))
  | some _ => .error ⟨["body", "payload"], .dictType⟩

/-- The keys that `extra="forbid"` rejects. -/
def extraKeys (o : Payload) : Finset String := o.keys \ {"job_type", "payload"}

/-- One error for each of them.  A `Payload` does not keep the order of its members, so some order
is as good as another. -/
def extraErrors (o : Payload) : List FieldError :=
  ((extraKeys o).sort (· ≥ ·)).map fun k => ⟨["body", k], .extraForbidden⟩

/-- The error of a field, if it has one. -/
def fieldErrors {α : Type} : Except FieldError α → List FieldError
  | .ok _ => []
  | .error e => [e]

/-- The body against `CreateJobRequest`: all errors, or the request. -/
def CreateJobRequest.validate : Input → Except (List FieldError) CreateJobRequest
  | .absent => .error [⟨["body"], .missing⟩]
  | .json (.scalar .null) => .error [⟨["body"], .missing⟩]
  | .json (.object o) =>
    match jobTypeField o, payloadField o with
    | .ok jobType, .ok payload =>
      if extraKeys o = ∅ then .ok ⟨jobType.1, payload, jobType.2⟩ else .error (extraErrors o)
    | jobType, payload => .error (fieldErrors jobType ++ fieldErrors payload ++ extraErrors o)
  | _ => .error [⟨["body"], .modelAttributesType⟩]

/-! ## Requests, ready for their route -/

/-- The order of things before `create_job` is called: the body is decoded, the dependencies run,
the body is validated. -/
def prepareCreate {ρ : Type} (requireWrite : Request → Except Raised ρ) (r : Request) :
    Except Raised (ρ × CreateJobRequest) := do
  let input ← r.body.decode
  let principal ← requireWrite r
  match CreateJobRequest.validate input with
  | .ok body => return (principal, body)
  | .error errors => throw (.validation errors)

/-- The order of things before `get_job` is called; a `GET` has no body to read. -/
def prepareGet {ρ : Type} (fw : Framework) (requireRead : Request → Except Raised ρ)
    (jobId : String) (r : Request) : Except Raised (ρ × JobId) := do
  let principal ← requireRead r
  match fw.parseInt jobId with
  | .ok i => return (principal, i)
  | .error e => throw (.validation [⟨["path", "job_id"], e⟩])

/-! ## `JobResponse` -/

/-- `CreatedBy(…)`, which takes no client id that is not text; without a creator every field is
`None`. -/
def createdBy (creator : Option Creator) : Except Raised CreatedBy :=
  let accepted clientId := .ok ⟨creator.bind Creator.sub, creator.bind Creator.type, clientId⟩
  match creator.bind Creator.clientId with
  | none => accepted none
  | some v =>
    match v.asText with
    | some clientId => accepted (some clientId)
    | none => .error .other

/-- `_to_response`: `JobResponse` takes no payload that is not an object. -/
def toResponse (job : Job) : Except Raised JobResponse :=
  match createdBy job.createdBy, job.inputPayload, job.payload with
  | .ok creator, .object inputPayload, .object payload =>
    .ok
      { id := job.id
        jobType := job.jobType
        status := job.status
        inputPayload := inputPayload
        payload := payload
        attempts := job.attempts
        createdAt := job.createdAt
        updatedAt := job.updatedAt
        createdBy := creator }
  | _, _, _ => .error .other

/-- Whether an object can be written. -/
def Framework.writesObject (fw : Framework) (o : Payload) : Bool :=
  decide (∀ k ∈ o.keys, fw.writes (.text k) = true ∧ (o.lookup k).all fw.writes = true)

/-- Whether a job can be written: the texts of its creator, and both payloads.  Job types, as a
request may name them, and the types of creators are ASCII. -/
def Framework.writesJob (fw : Framework) (r : JobResponse) : Bool :=
  r.createdBy.sub.all (fun s => fw.writes (.text s)) &&
    r.createdBy.clientId.all (fun s => fw.writes (.text s)) &&
    fw.writesObject r.inputPayload && fw.writesObject r.payload

/-- The response of a route is written after the route has returned it. -/
def Framework.render (fw : Framework) (answer : JobResponse → Response) :
    Except Raised JobResponse → Except Raised Response
  | .ok r => if fw.writesJob r then .ok (answer r) else .error .other
  | .error e => .error e

/-- **What a job is shown as**, field by field. -/
structure ShownAs (j : Job) (x : JobResponse) : Prop where
  id : x.id = j.id
  jobType : x.jobType = j.jobType
  status : x.status = j.status
  inputPayload : j.inputPayload = .object x.inputPayload
  payload : j.payload = .object x.payload
  attempts : x.attempts = j.attempts
  createdAt : x.createdAt = j.createdAt
  updatedAt : x.updatedAt = j.updatedAt
  sub : x.createdBy.sub = j.createdBy.bind Creator.sub
  type : x.createdBy.type = j.createdBy.bind Creator.type
  clientId : x.createdBy.clientId.map .text = j.createdBy.bind Creator.clientId

/-! ## When the steps succeed -/

theorem createdBy_eq_ok {creator : Option Creator} {x : CreatedBy} :
    createdBy creator = .ok x ↔
      x.sub = creator.bind Creator.sub ∧ x.type = creator.bind Creator.type ∧
        x.clientId.map .text = creator.bind Creator.clientId := by
  obtain ⟨sub, type, clientId⟩ := x
  unfold createdBy
  cases creator.bind Creator.clientId with
  | none => simp [eq_comm]
  | some v =>
    cases hv : v.asText with
    | some s =>
      obtain rfl := Json.asText_eq_some.mp hv
      simp [hv, eq_comm]
    | none =>
      have hne : ∀ s, Json.text s ≠ v := fun s h => by simp [Json.asText_eq_some.mpr h.symm] at hv
      simp [hv, hne]

/-- **When a job can be shown, and as what.** -/
theorem toResponse_eq_ok {j : Job} {x : JobResponse} : toResponse j = .ok x ↔ ShownAs j x := by
  unfold toResponse
  constructor
  · intro h
    split at h
    · rename_i creator inputPayload payload hcreator hin hpay
      obtain rfl := Except.ok.inj h
      obtain ⟨hsub, htype, hclient⟩ := createdBy_eq_ok.mp hcreator
      exact ⟨rfl, rfl, rfl, hin, hpay, rfl, rfl, rfl, hsub, htype, hclient⟩
    · exact nomatch h
  · intro h
    have hcreator : createdBy j.createdBy = .ok x.createdBy :=
      createdBy_eq_ok.mpr ⟨h.sub, h.type, h.clientId⟩
    simp only [hcreator, h.inputPayload, h.payload, ← h.id, ← h.jobType, ← h.status, ← h.attempts,
      ← h.createdAt, ← h.updatedAt]

theorem Framework.writesObject_iff {fw : Framework} {o : Payload} : fw.writesObject o = true ↔
    ∀ k v, o.lookup k = some v → fw.writes (.text k) = true ∧ fw.writes v = true := by
  rw [Framework.writesObject, decide_eq_true_iff]
  constructor
  · intro h k v hv
    have hk := h k (Finmap.mem_keys.mpr (Finmap.mem_of_lookup_eq_some hv))
    rw [hv] at hk
    exact hk
  · intro h k hk
    obtain ⟨v, hv⟩ := Finmap.mem_iff.mp (Finmap.mem_keys.mp hk)
    rw [hv]
    exact h k v hv

theorem Framework.writesJob_iff {fw : Framework} {r : JobResponse} : fw.writesJob r = true ↔
    (∀ s, r.createdBy.sub = some s → fw.writes (.text s) = true) ∧
      (∀ s, r.createdBy.clientId = some s → fw.writes (.text s) = true) ∧
      fw.writesObject r.inputPayload = true ∧ fw.writesObject r.payload = true := by
  simp only [Framework.writesJob, Bool.and_eq_true, Option.all_eq_true, and_assoc]

/-- An overlay can be written, if the one part can, and what it leaves of the other. -/
theorem Framework.writesObject_union {fw : Framework} {o base : Payload}
    (ho : fw.writesObject o = true) (hbase : ∀ k v, k ∉ o → base.lookup k = some v →
      fw.writes (.text k) = true ∧ fw.writes v = true) :
    fw.writesObject (o ∪ base) = true := by
  rw [Framework.writesObject_iff] at ho ⊢
  intro k v hv
  rcases Finmap.mem_lookup_union.mp hv with h | ⟨hk, h⟩
  · exact ho k v h
  · exact hbase k v hk h

theorem jobTypeField_eq_ok {o : Payload} {t : { s : String // jobTypeRe s = true }} :
    jobTypeField o = .ok t ↔ o.lookup "job_type" = some (.scalar (.str t.1)) := by
  unfold jobTypeField
  constructor
  · intro h
    split at h
    · exact nomatch h
    · rename_i s hs
      split at h
      · obtain rfl := Except.ok.inj h
        exact hs
      · exact nomatch h
    · exact nomatch h
  · intro h
    rw [h]
    exact dif_pos t.2

/-- **What a valid body is**: an object with a type of the right form, an object or nothing for a
payload, and no other key. -/
theorem CreateJobRequest.validate_eq_ok {i : Input} {body : CreateJobRequest} :
    CreateJobRequest.validate i = .ok body ↔
      ∃ o, i = .json (.object o) ∧ o.lookup "job_type" = some (.scalar (.str body.jobType)) ∧
        payloadField o = .ok body.payload ∧ ∀ k ∈ o.keys, k = "job_type" ∨ k = "payload" := by
  have hextra : ∀ o : Payload, extraKeys o = ∅ ↔ ∀ k ∈ o.keys, k = "job_type" ∨ k = "payload" := by
    intro o
    rw [extraKeys, Finset.sdiff_eq_empty_iff_subset]
    simp only [Finset.subset_iff, Finset.mem_insert, Finset.mem_singleton]
  constructor
  · intro h
    unfold CreateJobRequest.validate at h
    split at h
    · exact nomatch h
    · exact nomatch h
    · rename_i o
      split at h
      · rename_i t p ht hp
        split at h
        · rename_i hk
          obtain rfl := Except.ok.inj h
          exact ⟨o, rfl, jobTypeField_eq_ok.mp ht, hp, (hextra o).mp hk⟩
        · exact nomatch h
      · exact nomatch h
    · exact nomatch h
  · rintro ⟨o, rfl, ht, hp, hk⟩
    have htype : jobTypeField o = .ok ⟨body.jobType, body.validType⟩ := jobTypeField_eq_ok.mpr ht
    simp only [CreateJobRequest.validate, htype, hp]
    exact if_pos ((hextra o).mpr hk)

section Prepare

variable {ρ : Type} {r : Request} {principal : ρ}

theorem prepareCreate_eq_ok {requireWrite : Request → Except Raised ρ} {body : CreateJobRequest} :
    prepareCreate requireWrite r = .ok (principal, body) ↔
      ∃ i, r.body = .read i ∧ requireWrite r = .ok principal ∧
        CreateJobRequest.validate i = .ok body := by
  unfold prepareCreate
  cases hb : r.body with
  | read i =>
    cases hw : requireWrite r with
    | error e => simp [Body.decode, bind, Except.bind]
    | ok q =>
      cases hv : CreateJobRequest.validate i with
      | error es => simp [Body.decode, bind, Except.bind, hv, throw, throwThe, MonadExceptOf.throw]
      | ok b => simp [Body.decode, bind, Except.bind, hv, pure, Except.pure]
  | notJson pos => simp [Body.decode, bind, Except.bind]
  | unreadable => simp [Body.decode, bind, Except.bind]

/-- What goes wrong before `create_job` is called: the body, a dependency, or the fields. -/
theorem prepareCreate_error {requireWrite : Request → Except Raised ρ} {P : Raised → Prop}
    (hbody : ∀ e, r.body.decode = .error e → P e) (hdep : ∀ e, requireWrite r = .error e → P e)
    (hfields : ∀ errors, P (.validation errors)) {e : Raised}
    (h : prepareCreate requireWrite r = .error e) : P e := by
  unfold prepareCreate at h
  cases hb : r.body.decode with
  | error e' =>
    rw [hb] at h
    exact Except.error.inj h ▸ hbody e' hb
  | ok i =>
    cases hw : requireWrite r with
    | error e' =>
      rw [hb, hw] at h
      exact Except.error.inj h ▸ hdep e' hw
    | ok q =>
      cases hv : CreateJobRequest.validate i with
      | ok b => simp [hb, hw, hv, bind, Except.bind, pure, Except.pure] at h
      | error errors =>
        simp only [hb, hw, hv, bind, Except.bind, throw, throwThe, MonadExceptOf.throw,
          Except.error.injEq] at h
        exact h ▸ hfields errors

/-- What goes wrong before `get_job` is called: a dependency, or the path. -/
theorem prepareGet_error {fw : Framework} {requireRead : Request → Except Raised ρ}
    {segment : String} {P : Raised → Prop} (hdep : ∀ e, requireRead r = .error e → P e)
    (hfields : ∀ errors, P (.validation errors)) {e : Raised}
    (h : prepareGet fw requireRead segment r = .error e) : P e := by
  unfold prepareGet at h
  cases hr : requireRead r with
  | error e' =>
    rw [hr] at h
    exact Except.error.inj h ▸ hdep e' hr
  | ok q =>
    cases hp : fw.parseInt segment with
    | ok i => simp [hr, hp, bind, Except.bind, pure, Except.pure] at h
    | error t =>
      simp only [hr, hp, bind, Except.bind, throw, throwThe, MonadExceptOf.throw,
        Except.error.injEq] at h
      exact h ▸ hfields _

theorem prepareGet_eq_ok {fw : Framework} {requireRead : Request → Except Raised ρ}
    {segment : String} {i : JobId} :
    prepareGet fw requireRead segment r = .ok (principal, i) ↔
      requireRead r = .ok principal ∧ fw.parseInt segment = .ok i := by
  unfold prepareGet
  cases hr : requireRead r with
  | error e => simp [bind, Except.bind]
  | ok q =>
    cases hp : fw.parseInt segment with
    | error e => simp [bind, Except.bind, throw, throwThe, MonadExceptOf.throw]
    | ok k => simp [bind, Except.bind, pure, Except.pure]

end Prepare

end Api

end JobWorkflow
