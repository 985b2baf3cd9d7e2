import JobWorkflow.Common.Lifecycle
import JobWorkflow.HandlerAPI.Requests

/-!
# HandlerAPI/Contract — what callers may rely on, over whole histories

A history is any sequence of requests to `handlerAPI`, interleaved with any calls but `enqueue` by
the other components on the same `InMemoryStore`.  Verification is any function from tokens to a
principal or a `401`.  `http_contract` says of every state such a history leads to who gets which
answer there, and what the answer changes.

What is stored is not always what can be shown: `pydantic` takes a payload that it does not write
again.  So the histories are those in which what each event stores can be written (`Writable`); an
event whose data cannot leaves a job that nobody is shown.
-/

namespace JobWorkflow

namespace HandlerAPI

open Api InMemoryStore

/-! ## Histories -/

inductive Event
  | request (q : Request × Chance)
  | background (c : Call)

/-- The call only the front door makes. -/
def isEnqueue : Call → Bool
  | .enqueue .. => true
  | _ => false

def step (app : App) (s : InMemoryStore) : Event → Option InMemoryStore
  | .request q => some (app.serve s q).2
  | .background c => if isEnqueue c then none else some (exec s c).2

/-- A store nothing has been called on yet, with the given type configuration. -/
def initial (cfg : Dict String TypeConfig) : InMemoryStore :=
  { InMemoryStore.empty with typeConfig := cfg }

/-! ## What can be shown -/

/-- A creator can be written: the subject, and the client id, if that is text. -/
def WritesCreator (fw : Framework) (creator : Creator) : Prop :=
  (∀ sub ∈ creator.sub, fw.writes (.text sub) = true) ∧
    ∀ v ∈ creator.clientId, ∃ s, v = .text s ∧ fw.writes v = true

/-- What a call stores can be written.  Of a resolved payload that is what the input leaves of the
configured one: the input is stored already. -/
def WritesCall (fw : Framework) (s : InMemoryStore) : Call → Prop
  | .enqueue _ p creator _ _ =>
    (∃ o, p = some (.object o) ∧ fw.writesObject o = true) ∧ ∀ c ∈ creator, WritesCreator fw c
  | .resolvePayload i _ _ => ∀ j o cfg, s.getJob i = some j → j.status = .running →
      j.inputPayload = .object o → s.typeConfig.get? j.jobType = some cfg →
        ∀ k v, k ∉ o → cfg.payload.lookup k = some v →
          fw.writes (.text k) = true ∧ fw.writes v = true
  | _ => True

/-- **What an event stores can be written**: of a `POST` that adds a job, who sent it and its
payload. -/
def Writable (app : App) (s : InMemoryStore) : Event → Prop
  | .request (r, _) => ∀ principal body, r.route = .createJob →
      prepareCreate app.requireWrite r = .ok (principal, body) → s.active body.jobType = false →
        WritesCreator app.fw principal.toCreator ∧ app.fw.writesObject (body.payload.getD ∅) = true
  | .background c => WritesCall app.fw s c

/-- Both payloads of a job are objects, and these and its creator can be written. -/
structure Showable (fw : Framework) (j : Job) : Prop where
  inputPayload : ∃ o, j.inputPayload = .object o ∧ fw.writesObject o = true
  payload : ∃ o, j.payload = .object o ∧ fw.writesObject o = true
  creator : ∀ c ∈ j.createdBy, WritesCreator fw c

/-- The jobs that can be shown. -/
theorem showable_iff {fw : Framework} {j : Job} :
    Showable fw j ↔ ∃ x, ShownAs j x ∧ fw.writesJob x = true := by
  constructor
  · rintro ⟨⟨a, ha, hwa⟩, ⟨b, hb, hwb⟩, hcreator⟩
    have hsub : ∀ s, j.createdBy.bind Creator.sub = some s → fw.writes (.text s) = true :=
      fun s hs => by
        obtain ⟨c, hc, hs⟩ := Option.bind_eq_some_iff.mp hs
        exact (hcreator c hc).1 s hs
    obtain ⟨clientId, hclient, hwrites⟩ : ∃ clientId : Option String,
        clientId.map .text = j.createdBy.bind Creator.clientId ∧
          ∀ s, clientId = some s → fw.writes (.text s) = true := by
      cases hv : j.createdBy.bind Creator.clientId with
      | none => exact ⟨none, rfl, nofun⟩
      | some v =>
        obtain ⟨c, hc, hv⟩ := Option.bind_eq_some_iff.mp hv
        obtain ⟨s, rfl, hw⟩ := (hcreator c hc).2 v hv
        exact ⟨some s, rfl, fun s' h => Option.some.inj h ▸ hw⟩
    refine ⟨⟨j.id, j.jobType, j.status, a, b, j.attempts, j.createdAt, j.updatedAt,
      ⟨j.createdBy.bind Creator.sub, j.createdBy.bind Creator.type, clientId⟩⟩,
      ⟨rfl, rfl, rfl, ha, hb, rfl, rfl, rfl, rfl, rfl, hclient⟩, ?_⟩
    rw [Framework.writesJob_iff]
    exact ⟨hsub, hwrites, hwa, hwb⟩
  · rintro ⟨x, hx, hw⟩
    obtain ⟨hsub, hclient, hwa, hwb⟩ := Framework.writesJob_iff.mp hw
    refine ⟨⟨_, hx.inputPayload, hwa⟩, ⟨_, hx.payload, hwb⟩, fun c hc => ⟨fun s hs => ?_,
      fun v hv => ?_⟩⟩
    · exact hsub s (hx.sub.trans (Option.bind_eq_some_iff.mpr ⟨c, hc, hs⟩))
    · obtain ⟨s, hs, rfl⟩ := Option.map_eq_some_iff.mp
        (hx.clientId.trans (Option.bind_eq_some_iff.mpr ⟨c, hc, hv⟩))
      exact ⟨s, rfl, hclient s hs⟩

/-- What holds of the store in every state of a history. -/
structure Sound (fw : Framework) (s : InMemoryStore) : Prop where
  keyed : WellKeyed s
  row_lt : ∀ o m, s.outbox.get? o = some m → o < s.nextOutboxId
  showable : ∀ i j, s.getJob i = some j → Showable fw j

/-- No row has an id from the counter on. -/
theorem row_lt_of_effect {s s' : InMemoryStore} {c : Call} {r : Reply} (h : Effect s c r s')
    (hs : ∀ o m, s.outbox.get? o = some m → o < s.nextOutboxId) :
    ∀ o m, s'.outbox.get? o = some m → o < s'.nextOutboxId := by
  cases h with
  | enqueued ha =>
    intro o m hm
    change o < s.nextOutboxId + 1
    by_cases ho : o = s.nextOutboxId
    · rw [ho]
      exact Int.lt_succ _
    · exact (hs o m ((Dict.get?_set_of_ne s.outbox _ ho).symm.trans hm)).trans (Int.lt_succ _)
  | _ => exact hs

/-- What `resolve_payload` stores is the overlay of a running job's input on its type's config. -/
theorem overlay_of_payload {s : InMemoryStore} {c : Call} {p : Document}
    (h : (exec s c).1 = .payload (.ok (some p))) :
    ∃ i t now j cfg o, c = .resolvePayload i t now ∧ s.getJob i = some j ∧ j.status = .running ∧
      s.typeConfig.get? j.jobType = some cfg ∧ j.inputPayload = .object o ∧
      p = .object (o ∪ cfg.payload) := by
  cases c with
  | resolvePayload i t now =>
    have hres : (s.resolvePayload i t now).1 = .ok (some p) := Reply.payload.inj h
    rcases resolvePayload_cases i t now s with
      ⟨j, cfg, q, hj, hrun, hcfg, ho, he⟩ | ⟨-, he | ⟨e, he⟩⟩
    · rw [he] at hres
      obtain rfl := Option.some.inj (Except.ok.inj hres)
      cases hin : j.inputPayload with
      | object o =>
        rw [hin] at ho
        obtain rfl := Except.ok.inj ho
        exact ⟨i, t, now, j, cfg, o, rfl, hj, hrun, hcfg, hin, rfl⟩
      | array xs => exact nomatch (hin ▸ ho : overlay cfg.payload (.array xs) = .ok q)
      | scalar v => exact nomatch (hin ▸ ho : overlay cfg.payload (.scalar v) = .ok q)
    · exact absurd (hres.symm.trans he) (by simp)
    · exact absurd (hres.symm.trans he) (by simp)
  | _ => exact absurd h (by simp [exec])

theorem sound_exec {fw : Framework} {s : InMemoryStore} {c : Call} (hc : WritesCall fw s c)
    (hs : Sound fw s) : Sound fw (exec s c).2 := by
  have heff := exec_effect c s
  refine ⟨wellKeyed_of_effect heff hs.keyed, row_lt_of_effect heff hs.row_lt, fun i j' hj' => ?_⟩
  cases hj : s.getJob i with
  | none =>
    obtain ⟨t, p, cr, ca, ua, rfl, -, -, -, rfl⟩ := heff.new_job hj hj'
    obtain ⟨⟨o, rfl, ho⟩, hcreator⟩ := hc
    exact ⟨⟨o, orEmpty_object o, ho⟩, ⟨∅, rfl, rfl⟩, hcreator⟩
  | some j =>
    obtain ⟨k, hk, hm⟩ := heff.job hs.keyed hj
    obtain rfl : j' = k := Option.some.inj (hj'.symm.trans hk)
    have hold := hs.showable i j hj
    have hin : ∃ o, j'.inputPayload = .object o ∧ fw.writesObject o = true := by
      rw [hm.sameRun.inputPayload]
      exact hold.inputPayload
    have hcreator : ∀ c ∈ j'.createdBy, WritesCreator fw c := by
      rw [hm.sameRun.createdBy]
      exact hold.creator
    generalize hr : (exec s c).1 = reply at hm
    cases hm with
    | resolve h =>
      refine ⟨hin, ?_, hcreator⟩
      obtain ⟨i', t, now, j₁, cfg, o, hcall, hj₁, hrun, hcfg, ho, rfl⟩ := overlay_of_payload hr
      obtain ⟨rfl, -, -⟩ := Call.resolvePayload.inj hcall
      obtain rfl := Option.some.inj (hj.symm.trans hj₁)
      obtain ⟨o', ho', hw⟩ := hold.inputPayload
      obtain rfl := Document.object.inj (ho.symm.trans ho')
      exact ⟨_, rfl, Framework.writesObject_union hw (hc j o cfg hj hrun ho hcfg)⟩
    | _ => exact ⟨hin, hold.payload, hcreator⟩

/-- Every step of a history is a call on the store, of what can be written. -/
theorem step_exec {app : App} {s s' : InMemoryStore} {e : Event} (h : step app s e = some s')
    (he : Writable app s e) : ∃ c, WritesCall app.fw s c ∧ s' = (exec s c).2 := by
  cases e with
  | request q =>
    obtain rfl := Option.some.inj h
    rcases serve_store app q.1 q.2 s with hsame | ⟨principal, body, hr, hp, ha, henq⟩
    · exact ⟨.getJob 0, trivial, hsame⟩
    · obtain ⟨hcreator, hpayload⟩ := he principal body hr hp ha
      exact ⟨.enqueue body.jobType (some (.object (body.payload.getD ∅))) (some principal.toCreator)
        q.2.clock.createdAt q.2.clock.updatedAt,
        ⟨⟨_, rfl, hpayload⟩, fun c hc => Option.some.inj hc ▸ hcreator⟩, henq⟩
  | background c =>
    rw [step] at h
    split at h
    · exact nomatch h
    · exact ⟨c, he, (Option.some.inj h).symm⟩

section Histories

variable {app : App} {s s' : InMemoryStore} {es : List Event}

/-- A job is there for good, created by the same. -/
theorem job_stays (hs : Sound app.fw s) (hrun : Runs.run (step app) s es = some s')
    (hok : Runs.Along (step app) (Writable app) s es) {i : JobId} {j : Job}
    (hj : s.getJob i = some j) : ∃ j', s'.getJob i = some j' ∧ SameRun j j' := by
  refine (Runs.invariant (I := fun s' => Sound app.fw s' ∧ ∃ j', s'.getJob i = some j' ∧
    SameRun j j') ?_ es s ⟨hs, j, hj, .refl j⟩ hok hrun).2
  rintro s₁ e s₂ ⟨hs₁, j₁, hj₁, hsame⟩ hok₁ ha
  obtain ⟨c, hc, rfl⟩ := step_exec ha hok₁
  obtain ⟨j₂, hj₂, hm⟩ := (exec_effect c s₁).job hs₁.keyed hj₁
  exact ⟨sound_exec hc hs₁, j₂, hj₂, hsame.trans hm.sameRun⟩

end Histories

/-! ## The contract -/

/-- `app.state`, when a token is checked by `check`. -/
def appWith (settings : Settings) (check : String → Except String Principal) (fw : Framework) :
    App where
  settings := settings
  verify token := (check token).mapError fun detail => .problem (unauthorized detail)
  fw := fw

/-- The request carries a token that is verified as the principal's. -/
def Authenticated (check : String → Except String Principal) (r : Request)
    (principal : Principal) : Prop :=
  ∃ token, BearerToken ((r.header? "authorization").getD "") token ∧ check token = .ok principal

/-- The request's body can be read, and is the one given. -/
def Validates (r : Request) (body : CreateJobRequest) : Prop :=
  ∃ i, r.body = .read i ∧ CreateJobRequest.validate i = .ok body

/-- Services, holders of the scope for all jobs, and who has the creator's subject. -/
def MayRead (settings : Settings) (principal : Principal) (job : Job) : Prop :=
  principal.isService = true ∨ settings.scopeReadAll ∈ principal.scopes ∨
    ∃ creator, job.createdBy = some creator ∧ creator.sub = some principal.subject

section Proofs

variable {settings : Settings} {check : String → Except String Principal} {fw : Framework}
variable {r : Request} {chance : Chance} {s : InMemoryStore} {principal : Principal}

theorem appWith_verify_ok {token : String} :
    (appWith settings check fw).verify token = .ok principal ↔ check token = .ok principal := by
  simp only [appWith]
  cases check token with
  | error e => simp [Except.mapError]
  | ok p => simp [Except.mapError]

theorem appWith_verify_error (settings : Settings) (check : String → Except String Principal)
    (fw : Framework) (token : String) (e : Raised)
    (h : (appWith settings check fw).verify token = .error e) : statusOf e = 401 := by
  simp only [appWith] at h
  cases hc : check token with
  | error detail =>
    rw [hc] at h
    obtain rfl := Except.error.inj h
    rfl
  | ok p => exact absurd h (by rw [hc]; simp [Except.mapError])

theorem requireScope_iff {scope : String} :
    requireScope (appWith settings check fw).verify Principal.hasScope scope r = .ok principal ↔
      Authenticated check r principal ∧ scope ∈ principal.scopes := by
  rw [requireScope_eq_ok, getPrincipal_eq_ok]
  simp only [appWith_verify_ok, Authenticated, Principal.hasScope, decide_eq_true_eq]

theorem prepareCreate_iff {body : CreateJobRequest} :
    prepareCreate (appWith settings check fw).requireWrite r = .ok (principal, body) ↔
      Authenticated check r principal ∧ settings.scopeWrite ∈ principal.scopes ∧
        Validates r body := by
  have hguard : (appWith settings check fw).requireWrite r = .ok principal ↔
      Authenticated check r principal ∧ settings.scopeWrite ∈ principal.scopes := requireScope_iff
  rw [prepareCreate_eq_ok, hguard]
  constructor
  · rintro ⟨i, hb, ⟨hauth, hscope⟩, hv⟩
    exact ⟨hauth, hscope, i, hb, hv⟩
  · rintro ⟨hauth, hscope, i, hb, hv⟩
    exact ⟨i, hb, ⟨hauth, hscope⟩, hv⟩

theorem prepareGet_iff {segment : String} {i : JobId} :
    prepareGet (appWith settings check fw).fw (appWith settings check fw).requireRead segment r =
        .ok (principal, i) ↔
      (Authenticated check r principal ∧ settings.scopeRead ∈ principal.scopes) ∧
        fw.parseInt segment = .ok i := by
  rw [prepareGet_eq_ok]
  exact and_congr requireScope_iff Iff.rfl

theorem canReadJobCreatedBy_iff {job : Job} :
    canReadJobCreatedBy principal settings (job.createdBy.bind Creator.sub) = true ↔
      MayRead settings principal job := by
  have hsub : (job.createdBy.bind Creator.sub).isSome = true ∧
      job.createdBy.bind Creator.sub = some principal.subject ↔
        ∃ creator, job.createdBy = some creator ∧ creator.sub = some principal.subject := by
    rw [← Option.bind_eq_some_iff]
    exact ⟨And.right, fun h => ⟨by rw [h]; rfl, h⟩⟩
  rw [MayRead, ← hsub, canReadJobCreatedBy]
  by_cases hs : principal.isService = true
  · simp [hs]
  · by_cases ha : settings.scopeReadAll ∈ principal.scopes
    · simp [ha, Principal.hasScope]
    · simp [hs, ha, Principal.hasScope]

/-- A token is verified as one principal. -/
theorem Authenticated.unique {principal' : Principal} (h : Authenticated check r principal)
    (h' : Authenticated check r principal') : principal = principal' := by
  obtain ⟨token, ht, hc⟩ := h
  obtain ⟨token', ht', hc'⟩ := h'
  obtain rfl := ht.unique ht'
  exact Except.ok.inj (hc.symm.trans hc')

/-! ## Its clauses -/

/-- **What a `GET` is answered**: with the job, if the principal may read it and it can be shown,
and with a problem document otherwise. -/
theorem getJob_answer (settings : Settings) (check : String → Except String Principal)
    (chance : Chance) {segment : String} (hr : r.route = .getJob segment) :
    (∃ principal i j x, Authenticated check r principal ∧ settings.scopeRead ∈ principal.scopes ∧
      fw.parseInt segment = .ok i ∧ s.getJob i = some j ∧ MayRead settings principal j ∧
      ShownAs j x ∧ fw.writesJob x = true ∧
      ((appWith settings check fw).serve s (r, chance)).1.statusCode = 200 ∧
      ((appWith settings check fw).serve s (r, chance)).1.content = .job x) ∨
    ((∀ principal i j, Authenticated check r principal → settings.scopeRead ∈ principal.scopes →
        fw.parseInt segment = .ok i → s.getJob i = some j → MayRead settings principal j →
        ¬ Showable fw j) ∧
      ((appWith settings check fw).serve s (r, chance)).1.statusCode ≠ 200 ∧
      ∃ p, ((appWith settings check fw).serve s (r, chance)).1.content = .problem p) := by
  rcases serve_getJob (appWith_verify_error settings check fw) chance s hr
    with ⟨principal, i, j, hp, hj, hc, he⟩ | ⟨hno, hne, hcontent⟩
  · obtain ⟨⟨hauth, hscope⟩, hi⟩ := prepareGet_iff.mp hp
    rw [he]
    rcases stack_render (appWith settings check fw) r chance.uuid j with
      ⟨x, hx, hw, hshown⟩ | ⟨hno, h500, hcontent⟩
    · refine Or.inl ⟨principal, i, j, x, hauth, hscope, hi, hj, canReadJobCreatedBy_iff.mp hc, hx,
        hw, ?_⟩
      rw [hshown]
      exact ⟨rfl, rfl⟩
    · refine Or.inr ⟨fun principal' i' j' hauth' _ hi' hj' _ hshow => ?_, by rw [h500]; decide,
        hcontent⟩
      obtain rfl : i = i' := Except.ok.inj (hi.symm.trans hi')
      obtain rfl : j = j' := Option.some.inj (hj.symm.trans hj')
      obtain ⟨x, hx, hw⟩ := showable_iff.mp hshow
      exact Bool.false_ne_true ((hno x hx).symm.trans hw)
  · refine Or.inr ⟨fun principal i j hauth hscope hi hj hmay _ => ?_, hne, hcontent⟩
    have hcan : canReadJobCreatedBy principal settings (j.createdBy.bind Creator.sub) = false :=
      hno principal i j (prepareGet_iff.mpr ⟨⟨hauth, hscope⟩, hi⟩) hj
    rw [canReadJobCreatedBy_iff.mpr hmay] at hcan
    exact absurd hcan.symm Bool.false_ne_true

end Proofs

end HandlerAPI

end JobWorkflow
