import JobWorkflow.Api.Auth
import JobWorkflow.Api.Schemas

/-!
# HandlerAPI/Service — the HTTP front door for people and machines

`handlerAPI`: the principal a token's claims are distilled to, the guards, the two routes and the
probes, and the handlers that turn what is raised into problem documents.  `serve` is a whole
request.  Rate limiting is disabled (`rate_limit_enabled = False` passes every request on), and no
origin is allowed across sites, so that neither middleware is in the stack.
-/

namespace JobWorkflow

namespace HandlerAPI

open Api

/-! ## Settings and principals -/

structure Settings where
  scopeWrite : String := "jobs.write"
  scopeRead : String := "jobs.read"
  scopeReadAll : String := "jobs.read.all"
  groupsClaim : String := "groups"
  userClaims : List String := ["email", "preferred_username", "name"]

inductive PrincipalType
  | user | service
deriving DecidableEq

/-- `'user'` or `'service'`. -/
def PrincipalType.name : PrincipalType → String
  | .user => "user"
  | .service => "service"

structure Principal where
  subject : String
  principalType : PrincipalType
  clientId : Option Json
  scopes : Finset String
  groups : List Json

namespace Principal

def isService (p : Principal) : Bool := p.principalType = .service

def hasScope (p : Principal) (scope : String) : Bool := scope ∈ p.scopes

def toCreator (p : Principal) : Creator where
  sub := some p.subject
  type := some p.principalType.name
  clientId := p.clientId

end Principal

/-! ## `auth.py` -/

/-- `_to_principal`.  A client id is annotated as text, but is whatever value the claim has. -/
def toPrincipal (settings : Settings) (repr : Json → String) (claims : Claims) : Principal :=
  let clientId := (claims.get "client_id").or (claims.get "azp")
  let subject := ((claims.get "sub").or clientId).or (.text "unknown")
  let groupsRaw := (claims.get settings.groupsClaim).or (.array [])
  let groups :=
    match groupsRaw with
    | .array gs => gs
    | g => [.text (g.str repr)]
  let hasUserClaim := settings.userClaims.any claims.has
  let isUser := hasUserClaim || (!subject.isNone && !clientId.isNone && !subject.eq clientId)
  { subject := subject.str repr
    principalType := if isUser then .user else .service
    clientId := if clientId.isNone then none else some clientId
    scopes := extractScopes repr claims
    groups := groups }

/-- `TokenVerifier.verify`, given the claims of the tokens that PyJWT accepts. -/
def verify (settings : Settings) (repr : Json → String)
    (claimsOf : String → Except Raised Claims) (token : String) : Except Raised Principal :=
  (claimsOf token).map (toPrincipal settings repr)

/-! ## `deps.py` -/

/-- What `app.state` and the framework provide. -/
structure App where
  settings : Settings
  verify : String → Except Raised Principal
  fw : Framework

def App.requireWrite (app : App) : Request → Except Raised Principal :=
  requireScope app.verify Principal.hasScope app.settings.scopeWrite

def App.requireRead (app : App) : Request → Except Raised Principal :=
  requireScope app.verify Principal.hasScope app.settings.scopeRead

/-- The ownership rule for reads. -/
def canReadJobCreatedBy (principal : Principal) (settings : Settings)
    (creatorSub : Option String) : Bool :=
  if principal.isService || principal.hasScope settings.scopeReadAll then true
  else creatorSub.isSome && creatorSub = some principal.subject

/-! ## `routes.py` -/

section Routes

variable {σ : Type} [Datastore σ]

def conflict (jobType : String) : ProblemException :=
  ⟨409, "Conflict", some s!"an active job of type '{jobType}' already exists", []⟩

def notFound (jobId : JobId) : ProblemException :=
  ⟨404, "Not Found", some s!"job {jobId} not found", []⟩

/-- `201`, with the place of the job. -/
def jobCreated (jobId : JobId) : Response where
  statusCode := 201
  mediaType := jsonMediaType
  headers := [("location", s!"/v1/jobs/{jobId}")]
  content := .created ⟨jobId, .queued⟩

def createJob (body : CreateJobRequest) (principal : Principal) (clock : Clock) (s : σ) :
    Except Raised Response × σ :=
  match Datastore.enqueue body.jobType (some (.object (body.payload.getD ∅)))
      (some principal.toCreator) clock s with
  | (.error e, s') => (.error e, s')
  | (.ok none, s') => (.error (.problem (conflict body.jobType)), s')
  | (.ok (some jobId), s') => (.ok (jobCreated jobId), s')

/-- `200`, with the job. -/
def jobShown (r : JobResponse) : Response := ⟨200, jsonMediaType, [], .job r⟩

/-- A job the caller may not read is not found. -/
def getJob (fw : Framework) (jobId : JobId) (principal : Principal) (settings : Settings)
    (clock : Clock) (s : σ) : Except Raised Response × σ :=
  match Datastore.getJob jobId clock s with
  | (.error e, s') => (.error e, s')
  | (.ok none, s') => (.error (.problem (notFound jobId)), s')
  | (.ok (some job), s') =>
    let creatorSub := job.createdBy.bind Creator.sub
    if canReadJobCreatedBy principal settings creatorSub then
      (fw.render jobShown (toResponse job), s')
    else (.error (.problem (notFound jobId)), s')

def healthz : Response := ⟨200, jsonMediaType, [], .probe "ok"⟩

def readyz (clock : Clock) (s : σ) : Except Raised Response × σ :=
  match Datastore.getJob 0 clock s with
  | (.error _, s') =>
    (.error (.problem ⟨503, "Service Unavailable", some "datastore not reachable", []⟩), s')
  | (.ok _, s') => (.ok ⟨200, jsonMediaType, [], .probe "ready"⟩, s')

/-! ## `errors.py` and `app.py` -/

/-- The handlers registered for more than `Exception`. -/
def App.handler (app : App) (r : Request) : Raised → Option Response
  | .problem e => some (problem e.statusCode e.title e.detail r e.headers)
  | .http statusCode detail headers => some (problem statusCode "HTTP error" detail r headers)
  | .validation errors =>
    some (problem 422 "Request validation failed" (some (app.fw.showErrors r errors)) r [])
  | .circuitOpen => none
  | .other => none

/-- `_handle_unexpected`. -/
def unexpected (r : Request) : Response := problem 500 "Internal server error" none r []

/-- The route of a request, its dependencies and its validation. -/
def App.endpoint (app : App) (r : Request) (clock : Clock) (s : σ) : Except Raised Response × σ :=
  match r.route with
  | .createJob =>
    proceed (prepareCreate app.requireWrite r) (fun p => createJob p.2 p.1 clock) s
  | .getJob segment =>
    proceed (prepareGet app.fw app.requireRead segment r)
      (fun p => getJob app.fw p.2 p.1 app.settings clock) s
  | .healthz => (.ok healthz, s)
  | .readyz => readyz clock s
  | .unrouted statusCode detail headers => (.error (.http statusCode detail headers), s)

/-- A request, from the server to its response. -/
def App.serve (app : App) (s : σ) (q : Request × Chance) : Response × σ :=
  (app.endpoint q.1 q.2.clock s).map (stack (app.handler q.1) (unexpected q.1) q.1 q.2.uuid) id

end Routes

/-! ## Two people and their requests -/

namespace Sample

/-- Two users who may write and read, and a token check that knows one token of each. -/
def ada : Principal := ⟨"ada", .user, some (.text "spa"), {"jobs.write", "jobs.read"}, []⟩

def eve : Principal := ⟨"eve", .user, some (.text "spa"), {"jobs.write", "jobs.read"}, []⟩

def check (token : String) : Except String Principal :=
  if token = "ada's" then .ok ada else if token = "eve's" then .ok eve else .error "invalid token"

mutual

/-- How deep a value is nested. -/
def depth : Json → ℕ
  | .scalar _ => 0
  | .array xs => depthOfAll xs + 1
  | .object members => depthOfMembers members + 1

def depthOfAll : List Json → ℕ
  | [] => 0
  | x :: xs => max (depth x) (depthOfAll xs)

def depthOfMembers : List (String × Json) → ℕ
  | [] => 0
  | (_, x) :: members => max (depth x) (depthOfMembers members)

end

/-- Only the segment `1` is needed; what is nested more than 255 deep is not written. -/
def fw : Framework where
  parseInt segment := if segment = "1" then .ok 1 else .error .intParsing
  showErrors _ _ := "[]"
  writes v := depth v ≤ 255

def chance : Chance := ⟨"f00d", ⟨0, 0, 0⟩⟩

/-- `POST /v1/jobs` for a job of type `hello`. -/
def post (authorization : String) : Request where
  route := .createJob
  path := "/v1/jobs"
  headers := [("authorization", authorization)]
  body := .read (.json (.object ((∅ : Payload).insert "job_type" (.text "hello"))))

/-- `GET /v1/jobs/1`. -/
def get (authorization : String) : Request where
  route := .getJob "1"
  path := "/v1/jobs/1"
  headers := [("authorization", authorization)]
  body := .read .absent

end Sample

end HandlerAPI

end JobWorkflow
