import JobWorkflow.Api.Http

/-!
# Api/Layers — the middleware around the routes, layer by layer

Starlette's order of things: `ServerErrorMiddleware` answers what is raised through the user
middleware, which stands around `ExceptionMiddleware`, which answers what a handler is registered
for.  A layer is a function of the application inside of it, so that a response has just the headers
of the layers it comes through (`hardened_served`).
-/

namespace JobWorkflow

namespace Api

/-- A request as the layers get it: with its method, its client's address, and when. -/
structure Incoming where
  method : String
  request : Request
  client : Option String
  time : Time

/-- An application, or the layers around one: what a request comes to, before a response has
started. -/
abbrev Asgi (σ : Type) := σ → Incoming → Except Raised Response × σ

section Layers

variable {σ : Type}

/-- `ExceptionMiddleware`. -/
def exceptionMiddleware (handler : Request → Raised → Option Response) (app : Asgi σ) : Asgi σ :=
  fun s p =>
    match app s p with
    | (.ok resp, s) => (.ok resp, s)
    | (.error e, s) =>
      match handler p.request e with
      | some resp => (.ok resp, s)
      | none => (.error e, s)

/-- What the settings of `CORSMiddleware` decide: the answer to a preflight request, and the headers
that it gives the response to any other. -/
structure Cors where
  preflightResponse : Request → Response
  simpleResponse : Request → Response → Response

/-- A preflight request: the browser asks for leave. -/
def Incoming.preflight (p : Incoming) : Bool :=
  (p.request.header? "origin").isSome && p.method = "OPTIONS" &&
    (p.request.header? "access-control-request-method").isSome

/-- `CORSMiddleware`, which is added if any origin is allowed. -/
def corsMiddleware (cors : Option Cors) (app : Asgi σ) : Asgi σ :=
  match cors with
  | none => app
  | some cors => fun s p =>
    if p.preflight then (.ok (cors.preflightResponse p.request), s)
    else if (p.request.header? "origin").isSome then
      (app s p).map (Except.map (cors.simpleResponse p.request)) id
    else app s p

/-- `SecurityMiddleware` around an application. -/
def securityLayer (fresh : String) (app : Asgi σ) : Asgi σ :=
  fun s p => (app s p).map (Except.map (securityMiddleware p.request fresh)) id

/-- `ServerErrorMiddleware`, which answers with the handler for `Exception`. -/
def serverErrorMiddleware (unexpected : Request → Response) (app : Asgi σ) (s : σ) (p : Incoming) :
    Response × σ :=
  match app s p with
  | (.ok resp, s) => (resp, s)
  | (.error _, s) => (unexpected p.request, s)

/-- Around an application, these layers are the stack. -/
theorem stack_eq_layers (handler : Request → Raised → Option Response)
    (unexpected : Request → Response) (fresh : String) (app : Asgi σ) (s : σ) (p : Incoming) :
    serverErrorMiddleware unexpected (securityLayer fresh (exceptionMiddleware handler app)) s p =
      (app s p).map (stack (handler p.request) (unexpected p.request) p.request fresh) id := by
  rw [serverErrorMiddleware, securityLayer, exceptionMiddleware]
  rcases app s p with ⟨e | resp, s'⟩
  · simp only [Prod.map_apply, stack]
    cases handler p.request e with
    | none => rfl
    | some resp => rfl
  · rfl

/-! ## What is raised through a layer -/

variable {app : Asgi σ} {s : σ} {p : Incoming}

/-- Something is raised through the application. -/
def Raises (app : Asgi σ) (s : σ) (p : Incoming) : Prop := ∃ e, (app s p).1 = .error e

theorem not_raises_ok {resp : Response} :
    ¬ ∃ e, (.ok resp : Except Raised Response) = .error e := by
  rintro ⟨_, h⟩
  cases h

/-- To go over the response changes nothing of what is raised. -/
theorem raises_map {f : Response → Response} {result : Except Raised Response} :
    (∃ e, result.map f = .error e) ↔ ∃ e, result = .error e := by
  cases result with
  | error e => exact iff_of_true ⟨e, rfl⟩ ⟨e, rfl⟩
  | ok resp => exact iff_of_false not_raises_ok not_raises_ok

theorem raises_exceptionMiddleware {handler : Request → Raised → Option Response} :
    Raises (exceptionMiddleware handler app) s p ↔
      ∃ e, (app s p).1 = .error e ∧ handler p.request e = none := by
  rw [Raises, exceptionMiddleware]
  rcases app s p with ⟨e | resp, s'⟩
  · dsimp only
    cases h : handler p.request e with
    | none => exact iff_of_true ⟨e, rfl⟩ ⟨e, rfl, h⟩
    | some resp =>
      refine iff_of_false not_raises_ok ?_
      rintro ⟨_, he, hnone⟩
      obtain rfl := Except.error.inj he
      cases h.symm.trans hnone
  · exact iff_of_false not_raises_ok fun ⟨e, he, _⟩ => not_raises_ok ⟨e, he⟩

theorem raises_corsMiddleware {cors : Option Cors} :
    Raises (corsMiddleware cors app) s p ↔
      ¬ (cors.isSome ∧ p.preflight = true) ∧ Raises app s p := by
  cases cors with
  | none => simp [corsMiddleware]
  | some cors =>
    rw [Raises, corsMiddleware]
    dsimp only
    split
    · rename_i hpre
      exact iff_of_false not_raises_ok fun h => h.1 ⟨rfl, hpre⟩
    · rename_i hpre
      have hpass : ¬ ((some cors).isSome ∧ p.preflight = true) := fun h => hpre h.2
      split
      · exact raises_map.trans (and_iff_right hpass).symm
      · exact (and_iff_right hpass).symm

/-! ## Which responses are hardened -/

/-- **A response with the hardening headers and the request's id**, if the request brings one. -/
structure Hardened (r : Request) (resp : Response) : Prop where
  headers : ∀ h ∈ securityHeaders, h.1 ∈ resp.headers.map Prod.fst
  requestId : ∃ id, (requestIdHeader, id) ∈ resp.headers ∧
    ∀ incoming, r.lastHeader? requestIdHeader = some incoming → id = incoming

/-- **The middleware hardens every response it sees.** -/
theorem hardened_securityMiddleware (r : Request) (fresh : String) (resp : Response) :
    Hardened r (securityMiddleware r fresh resp) := by
  refine ⟨fun h hh => ?_, (r.lastHeader? requestIdHeader).getD fresh, ?_, ?_⟩
  · rw [securityMiddleware]
    simp only [List.map_append, List.mem_append]
    by_cases hset : h.1 ∈ resp.headers.map Prod.fst
    · exact Or.inl (Or.inl hset)
    · exact Or.inl (Or.inr (List.mem_map_of_mem (List.mem_filter.mpr ⟨hh, decide_eq_true hset⟩)))
  · exact List.mem_append_right _ (List.mem_singleton_self _)
  · intro incoming h
    rw [h, Option.getD_some]

theorem not_hardened {r : Request} {resp : Response} (h : resp.headers = []) :
    ¬ Hardened r resp := by
  rintro ⟨-, id, hid, -⟩
  rw [h] at hid
  cases hid

/-- **Through the middleware or past it**: a response is hardened exactly if nothing is raised
through the middleware. -/
theorem hardened_served {unexpected : Request → Response} {fresh : String}
    (hbare : (unexpected p.request).headers = []) :
    Hardened p.request (serverErrorMiddleware unexpected (securityLayer fresh app) s p).1 ↔
      ¬ Raises app s p := by
  rw [serverErrorMiddleware, securityLayer, Raises]
  rcases app s p with ⟨e | resp, s'⟩
  · exact iff_of_false (not_hardened hbare) fun h => h ⟨e, rfl⟩
  · exact iff_of_true (hardened_securityMiddleware _ _ _) not_raises_ok

end Layers

end Api

end JobWorkflow
