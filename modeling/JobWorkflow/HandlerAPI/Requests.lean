import JobWorkflow.HandlerAPI.Service

/-!
# HandlerAPI/Requests — one request on an `InMemoryStore`

`serve_createJob` and `serve_getJob` are the two lines of the contract of `handlerAPI`: in which
case a request does what it asks for, and that it is otherwise refused with a problem document and
leaves the store alone.  Verification is only asked to refuse with a `401`.
-/

namespace JobWorkflow

namespace HandlerAPI

open Api InMemoryStore

/-! ## The routes -/

section InMemory

variable {s : InMemoryStore} {clock : Clock} {settings : Settings} {principal : Principal}

theorem createJob_cases (body : CreateJobRequest) (principal : Principal) (clock : Clock)
    (s : InMemoryStore) :
    (s.active body.jobType = false ∧ createJob body principal clock s =
      (.ok (jobCreated s.nextJobId),
        (s.enqueue body.jobType (some (.object (body.payload.getD ∅))) (some principal.toCreator)
          clock.createdAt clock.updatedAt).2)) ∨
    (s.active body.jobType = true ∧
      createJob body principal clock s = (.error (.problem (conflict body.jobType)), s)) := by
  have henq : ∀ (p : Option Document) (c : Option Creator),
      Datastore.enqueue body.jobType p c clock s =
        (s.enqueue body.jobType p c clock.createdAt clock.updatedAt).map .ok id := fun _ _ => rfl
  cases ha : s.active body.jobType with
  | true =>
    refine Or.inr ⟨rfl, ?_⟩
    rw [createJob, henq, enqueue, if_pos ha]
    rfl
  | false =>
    have hn : ¬ s.active body.jobType = true := by rw [ha]; exact Bool.false_ne_true
    refine Or.inl ⟨rfl, ?_⟩
    rw [createJob, henq, enqueue, if_neg hn]
    rfl

theorem getJob_cases (fw : Framework) (i : JobId) (principal : Principal) (settings : Settings)
    (clock : Clock) (s : InMemoryStore) :
    (∃ j, s.getJob i = some j ∧
      canReadJobCreatedBy principal settings (j.createdBy.bind Creator.sub) = true ∧
      getJob fw i principal settings clock s = (fw.render jobShown (toResponse j), s)) ∨
    ((∀ j, s.getJob i = some j →
        canReadJobCreatedBy principal settings (j.createdBy.bind Creator.sub) = false) ∧
      getJob fw i principal settings clock s = (.error (.problem (notFound i)), s)) := by
  have hget : Datastore.getJob i clock s = (.ok (s.getJob i), s) := rfl
  rw [getJob, hget]
  cases hj : s.getJob i with
  | none => exact Or.inr ⟨fun _ h => absurd h.symm (Option.some_ne_none _), rfl⟩
  | some j =>
    cases hc : canReadJobCreatedBy principal settings (j.createdBy.bind Creator.sub) with
    | true => exact Or.inl ⟨j, rfl, hc, if_pos hc⟩
    | false =>
      refine Or.inr ⟨fun j' hj' => Option.some.inj hj' ▸ hc, if_neg ?_⟩
      rw [hc]
      exact Bool.false_ne_true

end InMemory

/-! ## Errors as answers -/

/-- The status an exception is answered with. -/
def statusOf : Raised → ℕ
  | .problem e => e.statusCode
  | .http statusCode _ _ => statusCode
  | .validation _ => 422
  | .circuitOpen => 500
  | .other => 500

/-- An exception is answered with its status and a problem document. -/
theorem stack_error (app : App) (r : Request) (uuid : String) (e : Raised) :
    (stack (app.handler r) (unexpected r) r uuid (.error e)).statusCode = statusOf e ∧
      ∃ p, (stack (app.handler r) (unexpected r) r uuid (.error e)).content = .problem p := by
  cases e <;> exact ⟨rfl, _, rfl⟩

/-- A job that can be shown and written is, and no other. -/
theorem stack_render (app : App) (r : Request) (uuid : String) (j : Job) :
    (∃ x, ShownAs j x ∧ app.fw.writesJob x = true ∧
      stack (app.handler r) (unexpected r) r uuid (app.fw.render jobShown (toResponse j)) =
        securityMiddleware r uuid (jobShown x)) ∨
    ((∀ x, ShownAs j x → app.fw.writesJob x = false) ∧
      (stack (app.handler r) (unexpected r) r uuid
        (app.fw.render jobShown (toResponse j))).statusCode = 500 ∧
      ∃ p, (stack (app.handler r) (unexpected r) r uuid
        (app.fw.render jobShown (toResponse j))).content = .problem p) := by
  cases hx : toResponse j with
  | error e =>
    have hother : e = .other := by
      unfold toResponse at hx
      split at hx
      · exact nomatch hx
      · exact (Except.error.inj hx).symm
    refine Or.inr ⟨fun x h => (nomatch hx.symm.trans (toResponse_eq_ok.mpr h)), ?_⟩
    rw [hother]
    exact stack_error app r uuid .other
  | ok x =>
    rw [Framework.render]
    cases hw : app.fw.writesJob x with
    | true => exact Or.inl ⟨x, toResponse_eq_ok.mp hx, hw, rfl⟩
    | false =>
      refine Or.inr ⟨fun y hy => ?_, stack_error app r uuid .other⟩
      obtain rfl := Except.ok.inj (hx.symm.trans (toResponse_eq_ok.mpr hy))
      exact hw

/-! ## Whole requests -/

section Serve

variable {app : App} {r : Request} {chance : Chance} {s : InMemoryStore}

theorem endpoint_createJob (app : App) (hr : r.route = .createJob) (clock : Clock)
    (s : InMemoryStore) :
    app.endpoint r clock s = proceed (prepareCreate app.requireWrite r)
      (fun p => createJob p.2 p.1 clock) s := by
  simp only [App.endpoint, hr]

theorem endpoint_getJob (app : App) {segment : String} (hr : r.route = .getJob segment)
    (clock : Clock) (s : InMemoryStore) :
    app.endpoint r clock s = proceed (prepareGet app.fw app.requireRead segment r)
      (fun p => getJob app.fw p.2 p.1 app.settings clock) s := by
  simp only [App.endpoint, hr]

/-- The state after a request is the one its endpoint leaves. -/
theorem serve_snd {x : Except Raised Response} {s' : InMemoryStore}
    (h : app.endpoint r chance.clock s = (x, s')) : (app.serve s (r, chance)).2 = s' := by
  rw [App.serve, h]
  rfl

/-- An exception before or in the route is a refusal, and no answer of another status. -/
theorem serve_error {e : Raised} {n : ℕ} (he : app.endpoint r chance.clock s = (.error e, s))
    (hn : statusOf e ≠ n) :
    (app.serve s (r, chance)).1.statusCode ≠ n ∧
      (∃ p, (app.serve s (r, chance)).1.content = .problem p) ∧
      (app.serve s (r, chance)).2 = s := by
  obtain ⟨hstatus, hcontent⟩ := stack_error app r chance.uuid e
  rw [App.serve, he]
  exact ⟨hstatus ▸ hn, hcontent, rfl⟩

/-- A `GET` only looks. -/
theorem serve_getJob_store (chance : Chance) (s : InMemoryStore) {segment : String}
    (hr : r.route = .getJob segment) : (app.serve s (r, chance)).2 = s := by
  have hend := endpoint_getJob app hr chance.clock s
  cases hp : prepareGet app.fw app.requireRead segment r with
  | error e =>
    rw [hp, proceed_error] at hend
    exact serve_snd hend
  | ok p =>
    rw [hp, proceed_ok] at hend
    rcases getJob_cases app.fw p.2 p.1 app.settings chance.clock s with ⟨j, -, -, he⟩ | ⟨-, he⟩
    · exact serve_snd (hend.trans he)
    · exact serve_snd (hend.trans he)

/-- **What any request does to the store**: nothing, or it enqueues what its body asks for. -/
theorem serve_store (app : App) (r : Request) (chance : Chance) (s : InMemoryStore) :
    (app.serve s (r, chance)).2 = s ∨
      ∃ principal body, r.route = .createJob ∧
        prepareCreate app.requireWrite r = .ok (principal, body) ∧
        s.active body.jobType = false ∧ (app.serve s (r, chance)).2 =
          (s.enqueue body.jobType (some (.object (body.payload.getD ∅))) (some principal.toCreator)
            chance.clock.createdAt chance.clock.updatedAt).2 := by
  cases hr : r.route with
  | createJob =>
    have hend := endpoint_createJob app hr chance.clock s
    cases hp : prepareCreate app.requireWrite r with
    | error e =>
      rw [hp, proceed_error] at hend
      exact Or.inl (serve_snd hend)
    | ok p =>
      rw [hp, proceed_ok] at hend
      rcases createJob_cases p.2 p.1 chance.clock s with ⟨ha, he⟩ | ⟨-, he⟩
      · exact Or.inr ⟨p.1, p.2, rfl, rfl, ha, serve_snd (hend.trans he)⟩
      · exact Or.inl (serve_snd (hend.trans he))
  | getJob segment => exact Or.inl (serve_getJob_store chance s hr)
  | healthz => exact Or.inl (by simp [App.serve, App.endpoint, hr])
  | readyz => exact Or.inl (by simp [App.serve, App.endpoint, hr, readyz, Datastore.getJob])
  | unrouted st d hs => exact Or.inl (by simp [App.serve, App.endpoint, hr])

section Refusals

variable (h401 : ∀ token e, app.verify token = .error e → statusOf e = 401)

include h401

/-- A guard refuses with `401` or `403`, if verification does with `401`. -/
theorem requireScope_error {scope : String} {e : Raised}
    (h : requireScope app.verify Principal.hasScope scope r = .error e) :
    statusOf e = 401 ∨ statusOf e = 403 := by
  unfold requireScope at h
  cases hp : getPrincipal app.verify r with
  | ok p =>
    simp only [hp] at h
    split at h
    · exact nomatch h
    · exact Or.inr (Except.error.inj h ▸ rfl)
  | error e' =>
    simp only [hp, Except.error.injEq] at h
    subst h
    rcases getPrincipal_cases app.verify r with ⟨token, -, he⟩ | ⟨-, he⟩
    · exact Or.inl (h401 token e' (he.symm.trans hp))
    · obtain rfl := Except.error.inj (hp.symm.trans he)
      exact Or.inl rfl

/-- What is raised before `create_job` is called. -/
theorem statusOf_prepareCreate_error {e : Raised}
    (h : prepareCreate app.requireWrite r = .error e) : statusOf e ∈ [400, 401, 403, 422] := by
  refine prepareCreate_error (P := fun e => statusOf e ∈ [400, 401, 403, 422]) (fun e he => ?_)
    (fun e he => ?_) (fun _ => by simp [statusOf]) h
  · cases hb : r.body with
    | read i => simp [hb, Body.decode] at he
    | notJson pos => rw [hb] at he; obtain rfl := Except.error.inj he; simp [statusOf]
    | unreadable => rw [hb] at he; obtain rfl := Except.error.inj he; simp [statusOf]
  · rcases requireScope_error h401 he with h | h
    · simp [h]
    · simp [h]

/-- What is raised before `get_job` is called. -/
theorem statusOf_prepareGet_error {segment : String} {e : Raised}
    (h : prepareGet app.fw app.requireRead segment r = .error e) :
    statusOf e ∈ [401, 403, 422] := by
  refine prepareGet_error (P := fun e => statusOf e ∈ [401, 403, 422]) (fun e he => ?_)
    (fun _ => by simp [statusOf]) h
  rcases requireScope_error h401 he with h | h
  · simp [h]
  · simp [h]

/-- **A `POST`** adds a job and is answered `201`, or is refused and leaves the store alone. -/
theorem serve_createJob (chance : Chance) (s : InMemoryStore) (hr : r.route = .createJob) :
    (∃ principal body, prepareCreate app.requireWrite r = .ok (principal, body) ∧
      s.active body.jobType = false ∧
      app.serve s (r, chance) = (securityMiddleware r chance.uuid (jobCreated s.nextJobId),
        (s.enqueue body.jobType (some (.object (body.payload.getD ∅))) (some principal.toCreator)
          chance.clock.createdAt chance.clock.updatedAt).2)) ∨
    ((∀ principal body, prepareCreate app.requireWrite r = .ok (principal, body) →
        s.active body.jobType = true) ∧
      (app.serve s (r, chance)).1.statusCode ≠ 201 ∧
      (∃ p, (app.serve s (r, chance)).1.content = .problem p) ∧
      (app.serve s (r, chance)).2 = s) := by
  have hend := endpoint_createJob app hr chance.clock s
  cases hp : prepareCreate app.requireWrite r with
  | error e =>
    rw [hp, proceed_error] at hend
    have hmem := statusOf_prepareCreate_error h401 hp
    have hstatus : statusOf e ≠ 201 := fun h => by simp [h] at hmem
    exact Or.inr ⟨fun _ _ h => absurd h (by simp), serve_error hend hstatus⟩
  | ok pb =>
    obtain ⟨principal, body⟩ := pb
    rw [hp, proceed_ok] at hend
    rcases createJob_cases body principal chance.clock s with ⟨ha, he⟩ | ⟨ha, he⟩
    · refine Or.inl ⟨principal, body, rfl, ha, ?_⟩
      rw [App.serve, hend]
      rw [he]
      rfl
    · refine Or.inr ⟨fun q b h => ?_, serve_error (hend.trans he) (by simp [statusOf, conflict])⟩
      obtain ⟨-, rfl⟩ := Prod.mk.inj (Except.ok.inj h)
      exact ha

/-- **A `GET`** shows the job to who may read it, if it can be written, and is refused otherwise. -/
theorem serve_getJob (chance : Chance) (s : InMemoryStore) {segment : String}
    (hr : r.route = .getJob segment) :
    (∃ principal i j, prepareGet app.fw app.requireRead segment r = .ok (principal, i) ∧
      s.getJob i = some j ∧
      canReadJobCreatedBy principal app.settings (j.createdBy.bind Creator.sub) = true ∧
      (app.serve s (r, chance)).1 =
        stack (app.handler r) (unexpected r) r chance.uuid
          (app.fw.render jobShown (toResponse j))) ∨
    ((∀ principal i j, prepareGet app.fw app.requireRead segment r = .ok (principal, i) →
        s.getJob i = some j →
        canReadJobCreatedBy principal app.settings (j.createdBy.bind Creator.sub) = false) ∧
      (app.serve s (r, chance)).1.statusCode ≠ 200 ∧
      ∃ p, (app.serve s (r, chance)).1.content = .problem p) := by
  have hend := endpoint_getJob app hr chance.clock s
  cases hp : prepareGet app.fw app.requireRead segment r with
  | error e =>
    rw [hp, proceed_error] at hend
    have hmem := statusOf_prepareGet_error h401 hp
    have hstatus : statusOf e ≠ 200 := fun h => by simp [h] at hmem
    obtain ⟨hrefused, hcontent, -⟩ := serve_error hend hstatus
    exact Or.inr ⟨fun _ _ _ h => absurd h (by simp), hrefused, hcontent⟩
  | ok pi =>
    obtain ⟨principal, i⟩ := pi
    rw [hp, proceed_ok] at hend
    rcases getJob_cases app.fw i principal app.settings chance.clock s with
      ⟨j, hj, hc, he⟩ | ⟨hno, he⟩
    · rw [App.serve, hend]
      rw [he]
      exact Or.inl ⟨principal, i, j, rfl, hj, hc, rfl⟩
    · have hstatus : statusOf (.problem (notFound i)) ≠ 200 := by simp [statusOf, notFound]
      obtain ⟨hrefused, hcontent, -⟩ := serve_error (hend.trans he) hstatus
      refine Or.inr ⟨fun p k j h hj => ?_, hrefused, hcontent⟩
      obtain ⟨rfl, rfl⟩ := Prod.mk.inj (Except.ok.inj h)
      exact hno j hj

end Refusals

end Serve

end HandlerAPI

end JobWorkflow
