import JobWorkflow.HandlerAPI.RateLimit
import JobWorkflow.HandlerAPIv2.Service

/-!
# HandlerAPIv2/Correlation — which responses carry the request id and the hardening headers

`create_app` of both services, as the layers it puts around the routes.  `SecurityMiddleware` is the
outermost of them, but Starlette answers an exception without a handler of its own further out: that
500, which the request id should trace, is the one response without it (`hardened_iff`).
-/

namespace JobWorkflow

open Api

variable {σ : Type}

namespace HandlerAPI

/-- `create_app`: what is added last is outermost. -/
def createApp {L : Type} [MovingWindow.Limiter L String] (enabled : Bool) (item : RateLimitItem)
    (cors : Option Cors) (app : App) (fresh : String) (routes : Asgi σ) :
    L × σ → Incoming → Response × (L × σ) :=
  serverErrorMiddleware unexpected
    (securityLayer fresh
      (rateLimitMiddleware enabled item
        (corsMiddleware cors
          (exceptionMiddleware app.handler routes))))

/-- Without limits and without other origins, this is `serve`. -/
theorem createApp_eq_serve {L : Type} [MovingWindow.Limiter L String] [Datastore σ]
    (item : RateLimitItem) (app : App) (chance : Chance) (l : L) (s : σ) (p : Incoming) :
    createApp false item none app chance.uuid (fun s p => app.endpoint p.request chance.clock s)
      (l, s) p = (app.serve s (p.request, chance)).map id (l, ·) := by
  have hstack := stack_eq_layers app.handler unexpected chance.uuid
    (fun s p => app.endpoint p.request chance.clock s) s p
  rw [App.serve, ← hstack, createApp, serverErrorMiddleware, serverErrorMiddleware, securityLayer,
    securityLayer, rateLimitMiddleware, corsMiddleware]
  rcases exceptionMiddleware app.handler (fun s p => app.endpoint p.request chance.clock s) s p with
    ⟨_ | _, s'⟩
  · rfl
  · rfl

/-- The handlers leave out what `handlerAPI` does not know. -/
theorem handler_eq_none {app : App} {r : Request} {e : Raised} :
    app.handler r e = none ↔ e = .other ∨ e = .circuitOpen := by
  cases e <;> simp [App.handler]

end HandlerAPI

namespace HandlerAPIv2

/-- `create_app`. -/
def createApp (app : App) (fresh : String) (routes : Asgi σ) : σ → Incoming → Response × σ :=
  serverErrorMiddleware unexpected
    (securityLayer fresh
      (exceptionMiddleware app.handler routes))

/-- This is `serve`. -/
theorem createApp_eq_serve [Datastore σ] (app : App) (chance : Chance) (s : σ) (p : Incoming) :
    createApp app chance.uuid (fun s p => app.endpoint p.request chance.clock s) s p =
      app.serve s (p.request, chance) :=
  stack_eq_layers app.handler unexpected chance.uuid _ s p

theorem handler_eq_none {app : App} {r : Request} {e : Raised} :
    app.handler r e = none ↔ e = .other := by
  cases e <;> simp [App.handler]

/-- **Every response carries the request id and the hardening headers, except**, in either service,
the one to a request whose route raises what no handler but that for `Exception` is registered for.
In `handlerAPI` a request that is limited or a preflight does not get so far. -/
theorem hardened_iff {L : Type} [MovingWindow.Limiter L String] (enabled : Bool)
    (item : HandlerAPI.RateLimitItem) (cors : Option Cors) (app₁ : HandlerAPI.App) (app₂ : App)
    (fresh : String) (routes : Asgi σ) (l : L) (s : σ) (p : Incoming) :
    (Hardened p.request (HandlerAPI.createApp enabled item cors app₁ fresh routes (l, s) p).1 ↔
      ¬ ((enabled = true →
          (MovingWindow.Limiter.hit item.toItem (HandlerAPI.rateLimitKey p) p.time l).1 = true) ∧
        ¬ (cors.isSome ∧ p.preflight = true) ∧
        ∃ e, (routes s p).1 = .error e ∧ (e = .other ∨ e = .circuitOpen))) ∧
    (Hardened p.request (createApp app₂ fresh routes s p).1 ↔
      (routes s p).1 ≠ .error .other) := by
  constructor
  · rw [HandlerAPI.createApp, hardened_served rfl, HandlerAPI.raises_rateLimitMiddleware,
      raises_corsMiddleware, raises_exceptionMiddleware]
    simp only [HandlerAPI.handler_eq_none]
  · rw [createApp, hardened_served rfl, raises_exceptionMiddleware]
    simp only [handler_eq_none]
    exact not_congr ⟨fun ⟨e, he, hother⟩ => hother ▸ he, fun h => ⟨_, h, rfl⟩⟩

/-- A database error on the way, in a request that brings an id. -/
theorem hardened_database_down :
    let r : Request := ⟨.getJob "1", "/v1/jobs/1", [("x-request-id", "4bf9")], .read .absent⟩
    let app : App := ⟨{}, fun _ => .error .other, HandlerAPI.Sample.fw⟩
    let routes : Asgi Unit := fun s _ => (.error .other, s)
    ¬ Hardened r (createApp app "77e1" routes () ⟨"GET", r, some "198.51.100.7", 0⟩).1 := by
  intro r app routes
  exact not_hardened rfl

end HandlerAPIv2

end JobWorkflow
