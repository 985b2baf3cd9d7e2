import JobWorkflow.HandlerAPI.Requests
import JobWorkflow.Machinery.Exchange

/-!
# HandlerAPI/Visibility — hidden jobs cannot be told from absent ones

Two stores may differ in every job that a user did not create.  The user's `GET`s are answered the
same on both, down to the problem document and the headers; only the request id, which is drawn
anew for each response, may differ (`hidden_jobs_indistinguishable`).
-/

namespace JobWorkflow

namespace HandlerAPI

open Api

/-- The two stores have the same jobs created under the subject. -/
def AgreeFor (subject : String) (s₁ s₂ : InMemoryStore) : Prop :=
  ∀ i j, (∃ creator, j.createdBy = some creator ∧ creator.sub = some subject) →
    (s₁.getJob i = some j ↔ s₂.getJob i = some j)

/-- A response, its request id aside. -/
def sansRequestId (resp : Response) : Response :=
  { resp with headers := resp.headers.filter fun h => h.1 ≠ requestIdHeader }

variable {app : App} {principal : Principal} {s₁ s₂ : InMemoryStore} {r : Request}

/-- The request id is all that the middleware adds of its own. -/
theorem sansRequestId_stack (handler : Raised → Option Response) (unexpected : Response)
    (uuid₁ uuid₂ : String) (x : Except Raised Response) :
    sansRequestId (stack handler unexpected r uuid₁ x) =
      sansRequestId (stack handler unexpected r uuid₂ x) := by
  have hsecure : ∀ resp, sansRequestId (securityMiddleware r uuid₁ resp) =
      sansRequestId (securityMiddleware r uuid₂ resp) := fun resp => by
    simp [sansRequestId, securityMiddleware, List.filter_append]
  cases x with
  | ok resp => exact hsecure resp
  | error e =>
    cases he : handler e with
    | some resp => simp only [stack, he, hsecure resp]
    | none => simp only [stack, he]

section User

variable (huser : principal.isService = false)
  (hall : app.settings.scopeReadAll ∉ principal.scopes)

include huser hall

/-- The jobs a user can read are the ones created under the user's subject. -/
theorem created_of_canRead {j : Job}
    (h : canReadJobCreatedBy principal app.settings (j.createdBy.bind Creator.sub) = true) :
    ∃ creator, j.createdBy = some creator ∧ creator.sub = some principal.subject := by
  have hsub : (j.createdBy.bind Creator.sub).isSome = true ∧
      j.createdBy.bind Creator.sub = some principal.subject := by
    simpa [canReadJobCreatedBy, huser, hall, Principal.hasScope] using h
  exact Option.bind_eq_some_iff.mp hsub.2

/-- **The two branches of `get_job` meet**: a job that is not there and one that may not be read are
answered by the same exception. -/
theorem getJob_eq_of_agree (hagree : AgreeFor principal.subject s₁ s₂) (i : JobId)
    (clock₁ clock₂ : Clock) :
    (getJob app.fw i principal app.settings clock₁ s₁).1 =
      (getJob app.fw i principal app.settings clock₂ s₂).1 := by
  rcases getJob_cases app.fw i principal app.settings clock₁ s₁ with ⟨j, hj, hc, he⟩ | ⟨hno, he⟩
  · have hj₂ := (hagree i j (created_of_canRead huser hall hc)).mp hj
    rcases getJob_cases app.fw i principal app.settings clock₂ s₂ with
      ⟨j', hj', -, he'⟩ | ⟨hno', -⟩
    · obtain rfl := Option.some.inj (hj₂.symm.trans hj')
      rw [he, he']
    · exact absurd (hc.symm.trans (hno' j hj₂)) (by simp)
  · rcases getJob_cases app.fw i principal app.settings clock₂ s₂ with
      ⟨j', hj', hc', -⟩ | ⟨-, he'⟩
    · have hj₁ := (hagree i j' (created_of_canRead huser hall hc')).mpr hj'
      exact absurd (hc'.symm.trans (hno j' hj₁)) (by simp)
    · rw [he, he']

/-- One `GET`. -/
theorem get_indistinguishable (hagree : AgreeFor principal.subject s₁ s₂) {segment : String}
    (hr : r.route = .getJob segment) (hp : getPrincipal app.verify r = .ok principal)
    (chance₁ chance₂ : Chance) :
    sansRequestId (app.serve s₁ (r, chance₁)).1 = sansRequestId (app.serve s₂ (r, chance₂)).1 := by
  have hend : (app.endpoint r chance₁.clock s₁).1 = (app.endpoint r chance₂.clock s₂).1 := by
    simp only [App.endpoint, hr]
    cases hprep : prepareGet app.fw app.requireRead segment r with
    | error e => rfl
    | ok q =>
      obtain ⟨p, i⟩ := q
      have hp' := (requireScope_eq_ok.mp (prepareGet_eq_ok.mp hprep).1).1
      obtain rfl : principal = p := Except.ok.inj (hp.symm.trans hp')
      exact getJob_eq_of_agree huser hall hagree i chance₁.clock chance₂.clock
  rw [App.serve, App.serve, Prod.map_fst, Prod.map_fst, hend]
  exact sansRequestId_stack _ _ _ _ _

end User

/-- **Hidden jobs are indistinguishable from absent ones**, for a user without the scope for all
jobs: over any sequence of `GET`s by the user, two stores that agree on the user's own jobs answer
alike. -/
theorem hidden_jobs_indistinguishable (app : App) (principal : Principal)
    (huser : principal.isService = false) (hall : app.settings.scopeReadAll ∉ principal.scopes)
    (s₁ s₂ : InMemoryStore) (hagree : AgreeFor principal.subject s₁ s₂)
    (qs₁ qs₂ : List (Request × Chance)) (hqs : qs₁.map Prod.fst = qs₂.map Prod.fst)
    (hget : ∀ q ∈ qs₁, (∃ segment, q.1.route = .getJob segment) ∧
      getPrincipal app.verify q.1 = .ok principal) :
    (Exchange.replies app.serve s₁ qs₁).map sansRequestId =
      (Exchange.replies app.serve s₂ qs₂).map sansRequestId := by
  refine (Exchange.map_replies_eq (R := AgreeFor principal.subject) (f := Prod.fst)
    (P := fun q => (∃ segment, q.1.route = .getJob segment) ∧
      getPrincipal app.verify q.1 = .ok principal) ?_ hagree hqs hget).1
  rintro t₁ t₂ ⟨q, chance₁⟩ ⟨q', chance₂⟩ ht hq ⟨⟨segment, hr⟩, hp⟩
  obtain rfl : q = q' := hq
  refine ⟨get_indistinguishable huser hall ht hr hp chance₁ chance₂, ?_⟩
  rw [serve_getJob_store chance₁ t₁ hr, serve_getJob_store chance₂ t₂ hr]
  exact ht

/-- Eve asks twice for job 1: of a store where it is Ada's, and of one where it is not. -/
theorem hidden_jobs_indistinguishable_eve :
    let app : App := ⟨{}, fun _ => .ok Sample.eve, Sample.fw⟩
    let s := (InMemoryStore.empty.enqueue "hello" none (some Sample.ada.toCreator) 0 0).2
    let q := Sample.get "Bearer eve's"
    (Exchange.replies app.serve s [(q, ⟨"a1", 0, 0, 0⟩), (q, ⟨"a2", 1, 1, 1⟩)]).map sansRequestId =
      (Exchange.replies app.serve InMemoryStore.empty
        [(q, ⟨"b1", 5, 5, 5⟩), (q, ⟨"b2", 6, 6, 6⟩)]).map sansRequestId := by
  intro app s q
  have hagree : AgreeFor Sample.eve.subject s InMemoryStore.empty := by
    rintro i j ⟨creator, hcreator, hsub⟩
    refine ⟨fun h => ?_, fun h => absurd h.symm (Option.some_ne_none j)⟩
    have hset : ((∅ : Dict JobId Job).set 1 (InMemoryStore.newJob 1 "hello" none
        (some Sample.ada.toCreator) 0 0)).get? i = some j := h
    rw [Dict.get?_set] at hset
    split at hset
    · obtain rfl := Option.some.inj hset
      obtain rfl := Option.some.inj hcreator
      exact absurd hsub (by decide)
    · exact absurd hset.symm (Option.some_ne_none j)
  have heve : getPrincipal app.verify q = .ok Sample.eve := getPrincipal_eq_ok.mpr
    ⟨"eve's", ⟨"Bearer", "eve's", by decide, by decide, by decide, by decide, by decide⟩, rfl⟩
  refine hidden_jobs_indistinguishable app Sample.eve rfl (by decide) s _ hagree _ _ rfl ?_
  intro p hp
  have hq : p.1 = q := by
    rcases List.mem_pair.mp hp with rfl | rfl
    · rfl
    · rfl
  rw [hq]
  exact ⟨⟨"1", rfl⟩, heve⟩

end HandlerAPI

end JobWorkflow
