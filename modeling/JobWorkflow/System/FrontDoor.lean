import JobWorkflow.HandlerAPI.Contract
import JobWorkflow.System.Recovery

/-!
# System/FrontDoor — from `POST` to `GET`, through all the components

A `POST` that is answered `201` is one enqueue of the machine.  From the state that it leaves, the
components alone can complete the job, if its type is configured, and then whoever may read it is
shown the payload it ran with (`posted_completes`).
-/

namespace JobWorkflow

namespace HandlerAPI

open Api JobWorkflow.System

variable {settings : Settings} {check : String → Except String Principal} {fw : Framework}
  {cfg : Dict String TypeConfig} {s : System}

/-- A body is validated as one request. -/
theorem Validates.unique {r : Request} {body body' : CreateJobRequest} (h : Validates r body)
    (h' : Validates r body') : body = body' := by
  obtain ⟨i, hi, hv⟩ := h
  obtain ⟨i', hi', hv'⟩ := h'
  obtain rfl := Body.read.inj (hi.symm.trans hi')
  exact Except.ok.inj (hv.symm.trans hv')

/-- **A request that is accepted**: who sent it, and what it asks for. -/
structure Posted (settings : Settings) (check : String → Except String Principal) (fw : Framework)
    (s : InMemoryStore) (r : Request) (chance : Chance) (principal : Principal)
    (body : CreateJobRequest) : Prop where
  route : r.route = .createJob
  authenticated : Authenticated check r principal
  validates : Validates r body
  created : ((appWith settings check fw).serve s (r, chance)).1.statusCode = 201

/-- The enqueue that an accepted request is. -/
def enqueueOf (principal : Principal) (body : CreateJobRequest) (chance : Chance) :
    System.Action :=
  .enqueue body.jobType (some (.object (body.payload.getD ∅))) (some principal.toCreator)
    chance.clock.createdAt chance.clock.updatedAt

section Posted

variable {r : Request} {chance : Chance} {principal : Principal} {body : CreateJobRequest}

/-- It makes the job under the next id, as the machine's enqueue does. -/
theorem Posted.enqueues (h : Posted settings check fw s.store r chance principal body) :
    ((appWith settings check fw).serve s.store (r, chance)).1.content =
        .created ⟨s.store.nextJobId, .queued⟩ ∧
      ∃ s₁, System.step s (enqueueOf principal body chance) = some s₁ ∧
        s₁.store = ((appWith settings check fw).serve s.store (r, chance)).2 ∧
        s₁.store.getJob s.store.nextJobId =
          some (InMemoryStore.newJob s.store.nextJobId body.jobType
            (some (.object (body.payload.getD ∅))) (some principal.toCreator)
            chance.clock.createdAt chance.clock.updatedAt) ∧
        s₁.store.typeConfig = s.store.typeConfig := by
  rcases serve_createJob (appWith_verify_error settings check fw) chance s.store h.route with
    ⟨p, b, hp, ha, he⟩ | ⟨-, hne, -⟩
  · obtain ⟨hauth, -, hvalid⟩ := prepareCreate_iff.mp hp
    obtain rfl := hauth.unique h.authenticated
    obtain rfl := hvalid.unique h.validates
    have henqueue : (s.store.enqueue b.jobType (some (.object (b.payload.getD ∅)))
        (some p.toCreator) chance.clock.createdAt chance.clock.updatedAt).2 = _ :=
      congrArg Prod.snd (if_neg (by rw [ha]; exact Bool.false_ne_true))
    rw [he]
    refine ⟨rfl, _, rfl, rfl, ?_, ?_⟩
    · change InMemoryStore.getJob _ (s.store.enqueue _ _ _ _ _).2 = _
      rw [henqueue]
      exact Dict.get?_set_self s.store.jobs _ _
    · change (s.store.enqueue _ _ _ _ _).2.typeConfig = _
      rw [henqueue]
  · exact absurd h.created hne

end Posted

/-- A `GET` by someone who may read the job shows it, if it can be shown. -/
theorem serve_getJob_of_mayRead {st : InMemoryStore} {r : Request} (chance : Chance)
    {segment : String} {principal : Principal} {i : JobId} {j : Job}
    (hr : r.route = .getJob segment) (hi : fw.parseInt segment = .ok i)
    (hauth : Authenticated check r principal) (hscope : settings.scopeRead ∈ principal.scopes)
    (hj : st.getJob i = some j) (hmay : MayRead settings principal j) (hshow : Showable fw j) :
    ((appWith settings check fw).serve st (r, chance)).1.statusCode = 200 ∧
      ∃ x, ((appWith settings check fw).serve st (r, chance)).1.content = .job x ∧ ShownAs j x := by
  rcases getJob_answer settings check chance hr with
    ⟨-, i', j', x, -, -, hi', hj', -, hx, -, h200, hcontent⟩ | ⟨hno, -⟩
  · obtain rfl : i = i' := Except.ok.inj (hi.symm.trans hi')
    obtain rfl : j = j' := Option.some.inj (hj.symm.trans hj')
    exact ⟨h200, x, hcontent, hx⟩
  · exact absurd hshow (hno principal i j hauth hscope hi hj hmay)

/-- What a request asks for can be written: who sent it, its payload, and this over the configured
one. -/
structure Writes (fw : Framework) (principal : Principal) (body : CreateJobRequest)
    (base : Payload) : Prop where
  creator : WritesCreator fw principal.toCreator
  inputPayload : fw.writesObject (body.payload.getD ∅) = true
  payload : fw.writesObject (body.payload.getD ∅ ∪ base) = true

/-- **What is accepted can be carried out, and shown to who asked for it**: after a `201` for a
configured type, in any state of a run whose marks of queued jobs find a live message, and from any
reading of the clock on, the components alone can run its handler on the request's payload over the
configured one and complete the job, and its creator is then shown just that, if it can be
written. -/
theorem posted_completes {as : List System.Action}
    (hrun : Runs.run System.step (System.start cfg) as = some s)
    (hok : Runs.Along System.step MarksLive (System.start cfg) as) {r : Request} {chance : Chance}
    {principal : Principal} {body : CreateJobRequest}
    (h : Posted settings check fw s.store r chance principal body) {c : TypeConfig}
    (hc : s.store.typeConfig.get? body.jobType = some c) (t : Time) :
    ∃ i s₁ t' s',
      ((appWith settings check fw).serve s.store (r, chance)).1.content = .created ⟨i, .queued⟩ ∧
      System.step s (enqueueOf principal body chance) = some s₁ ∧
      s₁.store = ((appWith settings check fw).serve s.store (r, chance)).2 ∧
      Drives t t' s₁ s' ∧
      (∃ n, ⟨n, i, .object (body.payload.getD ∅ ∪ c.payload)⟩ ∈ s'.handled) ∧
      (Writes fw principal body c.payload → ∀ r' chance' segment principal',
        r'.route = .getJob segment → fw.parseInt segment = .ok i →
        Authenticated check r' principal' → settings.scopeRead ∈ principal'.scopes →
        principal'.subject = principal.subject →
          ((appWith settings check fw).serve s'.store (r', chance')).1.statusCode = 200 ∧
          ∃ x, ((appWith settings check fw).serve s'.store (r', chance')).1.content = .job x ∧
            x.status = .completed ∧ x.payload = body.payload.getD ∅ ∪ c.payload) := by
  obtain ⟨hcontent, s₁, hstep, hstore, hj, hcfg⟩ := h.enqueues
  have hs₁ : Sane s₁ :=
    (sane hrun hok).of_step (step_cases hstep) (marksLive_of_ne (by simp [enqueueOf]))
  obtain ⟨s', n, hdrive, hfinished, hhandled⟩ := drive_waiting t hs₁ hj List.mem_cons_self
    (hcfg ▸ hc) (orEmpty_object _)
  obtain ⟨j, hj, hcreator, hst, hin, hpay⟩ : ∃ j, s'.store.getJob s.store.nextJobId = some j ∧
      j.createdBy = some principal.toCreator ∧ j.status = .completed ∧
      j.inputPayload = .object (body.payload.getD ∅) ∧
      j.payload = .object (body.payload.getD ∅ ∪ c.payload) :=
    ⟨_, hfinished, rfl, rfl, orEmpty_object _, rfl⟩
  refine ⟨_, s₁, t, s', hcontent, hstep, hstore, hdrive, ⟨n, hhandled⟩, fun hw r' chance' segment
    principal' hr' hi hauth hscope hsub => ?_⟩
  have hshow : Showable fw j := ⟨⟨_, hin, hw.inputPayload⟩, ⟨_, hpay, hw.payload⟩,
    fun c hc => Option.some.inj (hcreator.symm.trans hc) ▸ hw.creator⟩
  obtain ⟨h200, x, hshown, hx⟩ := serve_getJob_of_mayRead chance' hr' hi hauth hscope hj
    (Or.inr (Or.inr ⟨_, hcreator, congrArg some hsub.symm⟩)) hshow
  exact ⟨h200, x, hshown, hx.status.trans hst, Document.object.inj (hx.payload.symm.trans hpay)⟩

/-- Ada posts a job of type `hello`, and gets it completed. -/
theorem posted_completes_ada : ∃ s₁ t' s',
    s₁.store = ((appWith {} Sample.check Sample.fw).serve (System.start helloConfig).store
      (Sample.post "Bearer ada's", Sample.chance)).2 ∧ Drives 0 t' s₁ s' ∧
    ∃ x, ((appWith {} Sample.check Sample.fw).serve s'.store
      (Sample.get "Bearer ada's", Sample.chance)).1.content = .job x ∧ x.status = .completed := by
  have hauth : ∀ r, (r.header? "authorization").getD "" = "Bearer ada's" →
      Authenticated Sample.check r Sample.ada := fun r hr =>
    ⟨"ada's", ⟨"Bearer", "ada's", by rw [hr]; decide, by decide, by decide, by decide, by decide⟩,
      rfl⟩
  have hposted : Posted {} Sample.check Sample.fw (System.start helloConfig).store
      (Sample.post "Bearer ada's") Sample.chance Sample.ada ⟨"hello", none, by decide⟩ :=
    ⟨rfl, hauth _ rfl, ⟨_, rfl, rfl⟩, rfl⟩
  obtain ⟨i, s₁, t', s', hcontent, -, hstore, hdrive, -, hshown⟩ := posted_completes
    (c := ⟨defaultRunTimeout, defaultMaxAttempts, ∅⟩) (rfl : Runs.run System.step _ [] = some _)
    trivial hposted rfl 0
  have hid : (⟨1, .queued⟩ : CreateJobResponse) = ⟨i, .queued⟩ := Content.created.inj hcontent
  obtain rfl : 1 = i := congrArg CreateJobResponse.jobId hid
  have hw : Writes Sample.fw Sample.ada ⟨"hello", none, by decide⟩ ∅ :=
    ⟨⟨fun s hs => Option.some.inj hs ▸ rfl,
      fun v hv => ⟨"spa", (Option.some.inj hv).symm, Option.some.inj hv ▸ rfl⟩⟩, rfl, rfl⟩
  obtain ⟨-, x, hx, hst, -⟩ := hshown hw (Sample.get "Bearer ada's") Sample.chance "1" Sample.ada
    rfl rfl (hauth _ rfl) (by decide) rfl
  exact ⟨s₁, t', s', hstore, hdrive, x, hx, hst⟩

end HandlerAPI

end JobWorkflow
