import JobWorkflow.Api.Auth
import JobWorkflow.Api.Schemas

/-!
# HandlerAPIv2/Service — the HTTP front door behind the gateway

`handlerAPIv2`: every caller is a machine, so that a principal has no type and reads are not gated
by ownership.  The store may be guarded by a circuit breaker, whose refusal has a handler of its
own.
-/

namespace JobWorkflow

namespace HandlerAPIv2

open Api

/-! ## Settings and principals -/

structure Settings where
  scopeWrite : String := "jobs.write"
  scopeRead : String := "jobs.read"
  dbCircuitFailureThreshold : ℤ := 5
  dbCircuitResetTimeout : Duration := 30 * 1000000

structure Principal where
  subject : String
  clientId : Option Json
  scopes : Finset String

namespace Principal

def hasScope (p : Principal) (scope : String) : Bool := scope ∈ p.scopes

def toCreator (p : Principal) : Creator where
  sub := some p.subject
  type := some "service"
  clientId := p.clientId

end Principal

/-! ## `auth.py` -/

/-- `_to_principal`.  A client id is annotated as text, but is whatever value the claim has. -/
def toPrincipal (repr : Json → String) (claims : Claims) : Principal :=
  let clientId := (claims.get "client_id").or (claims.get "azp")
  let subject := ((claims.get "sub").or clientId).or (.text "unknown")
  { subject := subject.str repr
    clientId := if clientId.isNone then none else some clientId
    scopes := extractScopes repr claims }

/-- `TokenVerifier.verify`, given the claims of the tokens that PyJWT accepts. -/
def verify (repr : Json → String) (claimsOf : String → Except Raised Claims) (token : String) :
    Except Raised Principal :=
  (claimsOf token).map (toPrincipal repr)

/-! ## `deps.py` -/

/-- What `app.state` and the framework provide. -/
structure App where
  settings : Settings
  verify : String → Except Raised Principal
  fw : Framework

def App.requireWrite (app : App) : Request → Except Raised Principal :=
  requireScope app.verify Principal.hasScope app.settings.scopeWrite

def App.requireRead (app : App) : Request → Except Raised Principal :=
  requireScope app.verify Principal.hasScope app.settings.scopeRead

/-! ## `routes.py` -/

section Routes

variable {σ : Type} [Datastore σ]

def conflict (jobType : String) : ProblemException :=
  ⟨409, "Conflict", some s!"an active job of type '{jobType}' already exists", []⟩

def notFound (jobId : JobId) : ProblemException :=
  ⟨404, "Not Found", some s!"job {jobId} not found", []⟩

/-- `201`, with the place of the job. -/
def jobCreated (jobId : JobId) : Response where
  statusCode := 201
  mediaType := jsonMediaType
  headers := [("location", s!"/v1/jobs/{jobId}")]
  content := .created ⟨jobId, .queued⟩

def createJob (body : CreateJobRequest) (principal : Principal) (clock : Clock) (s : σ) :
    Except Raised Response × σ :=
  match Datastore.enqueue body.jobType (some (.object (body.payload.getD ∅)))
      (some principal.toCreator) clock s with
  | (.error e, s') => (.error e, s')
  | (.ok none, s') => (.error (.problem (conflict body.jobType)), s')
  | (.ok (some jobId), s') => (.ok (jobCreated jobId), s')

/-- `200`, with the job. -/
def jobShown (r : JobResponse) : Response := ⟨200, jsonMediaType, [], .job r⟩

/-- Whoever may read at all may read any job. -/
def getJob (fw : Framework) (jobId : JobId) (_principal : Principal) (clock : Clock) (s : σ) :
    Except Raised Response × σ :=
  match Datastore.getJob jobId clock s with
  | (.error e, s') => (.error e, s')
  | (.ok none, s') => (.error (.problem (notFound jobId)), s')
  | (.ok (some job), s') => (fw.render jobShown (toResponse job), s')

def healthz : Response := ⟨200, jsonMediaType, [], .probe "ok"⟩

def readyz (clock : Clock) (s : σ) : Except Raised Response × σ :=
  match Datastore.getJob 0 clock s with
  | (.error _, s') =>
    (.error (.problem ⟨503, "Service Unavailable", some "datastore not reachable", []⟩), s')
  | (.ok _, s') => (.ok ⟨200, jsonMediaType, [], .probe "ready"⟩, s')

/-! ## `errors.py` and `app.py` -/

/-- The handlers registered for more than `Exception`; an open circuit has its own. -/
def App.handler (app : App) (r : Request) : Raised → Option Response
  | .problem e => some (problem e.statusCode e.title e.detail r e.headers)
  | .http statusCode detail headers => some (problem statusCode "HTTP error" detail r headers)
  | .circuitOpen =>
    some (problem 503 "Service Unavailable" (some "datastore temporarily unavailable") r
      [("retry-after", "30")])
  | .validation errors =>
    some (problem 422 "Request validation failed" (some (app.fw.showErrors r errors)) r [])
  | .other => none

/-- `_handle_unexpected`. -/
def unexpected (r : Request) : Response := problem 500 "Internal server error" none r []

/-- The route of a request, its dependencies and its validation. -/
def App.endpoint (app : App) (r : Request) (clock : Clock) (s : σ) : Except Raised Response × σ :=
  match r.route with
  | .createJob =>
    proceed (prepareCreate app.requireWrite r) (fun p => createJob p.2 p.1 clock) s
  | .getJob segment =>
    proceed (prepareGet app.fw app.requireRead segment r) (fun p => getJob app.fw p.2 p.1 clock) s
  | .healthz => (.ok healthz, s)
  | .readyz => readyz clock s
  | .unrouted statusCode detail headers => (.error (.http statusCode detail headers), s)

/-- A request, from the server to its response. -/
def App.serve (app : App) (s : σ) (q : Request × Chance) : Response × σ :=
  (app.endpoint q.1 q.2.clock s).map (stack (app.handler q.1) (unexpected q.1) q.1 q.2.uuid) id

end Routes

end HandlerAPIv2

end JobWorkflow
