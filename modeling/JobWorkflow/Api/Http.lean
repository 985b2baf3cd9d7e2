import JobWorkflow.Common.Db

/-!
# Api/Http — requests, responses and the way an error becomes one

What `handlerAPI` and `handlerAPIv2` share below their own code: a request as the server and FastAPI
hand it over, the response as it is given to the renderer, what can be raised on the way
(`errors.py`), and the layers around the routes (`middleware.py`, and Starlette's order of them).
Header names are in lower case, as ASGI has them.  The body of a response is the value that is
rendered, and the headers are the ones the program sets, so that `content-length` is left out.
-/

namespace JobWorkflow

namespace Api

/-! ## Requests -/

/-- What FastAPI goes on to validate as the body. -/
inductive Input
  | absent
  | json (d : Document)
  | bytes

/-- A request's body: read, no JSON (from the given position on), or not readable at all. -/
inductive Body
  | read (i : Input)
  | notJson (pos : ℕ)
  | unreadable

/-- What the router makes of method and path; an unrouted request is one it refuses itself. -/
inductive Route
  | createJob
  | getJob (jobId : String)
  | healthz
  | readyz
  | unrouted (statusCode : ℕ) (detail : Option String) (headers : List (String × String))
deriving DecidableEq

/-- A request; `path` is `str(request.url.path)`. -/
structure Request where
  route : Route
  path : String
  headers : List (String × String)
  body : Body

/-- `request.headers.get(name)`: the first header of that name. -/
def Request.header? (r : Request) (name : String) : Option String :=
  (r.headers.find? fun h => h.1 = name).map Prod.snd

/-- `dict(scope["headers"]).get(name)`: the last header of that name. -/
def Request.lastHeader? (r : Request) (name : String) : Option String :=
  (r.headers.reverse.find? fun h => h.1 = name).map Prod.snd

/-! ## What can be raised -/

/-- Raised anywhere in the request path to return a Problem response. -/
structure ProblemException where
  statusCode : ℕ
  title : String
  detail : Option String
  headers : List (String × String)

/-- The kinds of `pydantic` error a request can run into. -/
inductive ErrorType
  | missing
  | jsonInvalid
  | modelAttributesType
  | stringType
  | dictType
  | intParsing
  | valueError (msg : String)
  | extraForbidden
deriving DecidableEq

/-- One entry of `RequestValidationError.errors()`. -/
structure FieldError where
  loc : List String
  type : ErrorType
deriving DecidableEq

/-- An exception on its way to the handlers. -/
inductive Raised
  | problem (e : ProblemException)
  | http (statusCode : ℕ) (detail : Option String) (headers : List (String × String))
  | validation (errors : List FieldError)
  | circuitOpen
  | other

/-! ## Responses -/

/-- A Problem document. -/
structure Problem where
  type : String
  title : String
  status : ℕ
  instancePath : String
  detail : Option String
deriving DecidableEq

structure CreateJobResponse where
  jobId : JobId
  status : JobStatus
deriving DecidableEq

structure CreatedBy where
  sub : Option String
  type : Option String
  clientId : Option String
deriving DecidableEq

structure JobResponse where
  id : JobId
  jobType : String
  status : JobStatus
  inputPayload : Payload
  payload : Payload
  attempts : ℕ
  createdAt : Time
  updatedAt : Time
  createdBy : CreatedBy

inductive Content
  | problem (p : Problem)
  | created (r : CreateJobResponse)
  | job (r : JobResponse)
  | probe (status : String)

structure Response where
  statusCode : ℕ
  mediaType : String
  headers : List (String × String)
  content : Content

def jsonMediaType : String := "application/json"

def problemMediaType : String := "application/problem+json"

/-- `_problem`; an empty detail is left out, as no detail is. -/
def problem (statusCode : ℕ) (title : String) (detail : Option String) (r : Request)
    (headers : List (String × String)) : Response where
  statusCode := statusCode
  mediaType := problemMediaType
  headers := headers
  content := .problem
    { type := "about:blank"
      title := title
      status := statusCode
      instancePath := r.path
      detail := detail.filter (· ≠ "") }

/-! ## The layers around the routes -/

/-- `_SECURITY_HEADERS`. -/
def securityHeaders : List (String × String) :=
  [("x-content-type-options", "nosniff"),
    ("x-frame-options", "DENY"),
    ("referrer-policy", "no-referrer"),
    ("content-security-policy", "default-src 'none'; frame-ancestors 'none'"),
    ("strict-transport-security", "max-age=63072000; includeSubDomains")]

def requestIdHeader : String := "x-request-id"

/-- `SecurityMiddleware`; `fresh` is the `uuid4` for a request that brings no id of its own. -/
def securityMiddleware (r : Request) (fresh : String) (resp : Response) : Response :=
  { resp with
    headers := resp.headers ++
      (securityHeaders.filter fun h => h.1 ∉ resp.headers.map Prod.fst) ++
      [(requestIdHeader, (r.lastHeader? requestIdHeader).getD fresh)] }

/-- Starlette's stack.  A registered handler answers inside the middleware; what none of them is
registered for is answered outside of it. -/
def stack (handler : Raised → Option Response) (unexpected : Response) (r : Request)
    (fresh : String) : Except Raised Response → Response
  | .ok resp => securityMiddleware r fresh resp
  | .error e =>
    match handler e with
    | some resp => securityMiddleware r fresh resp
    | none => unexpected

/-- Go on with what was prepared, unless something was raised. -/
def proceed {α β σ : Type} (prepared : Except Raised α) (next : α → σ → Except Raised β × σ)
    (s : σ) : Except Raised β × σ :=
  match prepared with
  | .error e => (.error e, s)
  | .ok a => next a s

/-- The clock readings of one call: the breaker's, and the store's two. -/
structure Clock where
  now : Time
  createdAt : Time
  updatedAt : Time

/-- What a request brings into being: an id to fall back on, and clock readings. -/
structure Chance where
  uuid : String
  clock : Clock

/-! ## The store, as the routes see it -/

/-- The two calls the routes make.  A call may raise. -/
class Datastore (σ : Type) where
  enqueue : String → Option Document → Option Creator → Clock → σ → Except Raised (Option JobId) × σ
  getJob : JobId → Clock → σ → Except Raised (Option Job) × σ

/-- An exception of the database has no handler of its own. -/
instance {σ : Type} [Store σ] : Datastore σ where
  enqueue jobType inputPayload creator clock s :=
    (Store.enqueue jobType inputPayload creator clock.createdAt clock.updatedAt s).map
      (Except.mapError fun _ => .other) id
  getJob jobId _ s := (.ok (Store.getJob jobId s), s)

section Proceed

variable {α β σ : Type} {next : α → σ → Except Raised β × σ} {s : σ}

@[simp] theorem proceed_error {e : Raised} : proceed (.error e) next s = (.error e, s) := rfl

@[simp] theorem proceed_ok {a : α} : proceed (.ok a) next s = next a s := rfl

end Proceed

/-! ## What the middleware leaves -/

@[simp] theorem securityMiddleware_statusCode (r : Request) (fresh : String) (resp : Response) :
    (securityMiddleware r fresh resp).statusCode = resp.statusCode := rfl

@[simp] theorem securityMiddleware_content (r : Request) (fresh : String) (resp : Response) :
    (securityMiddleware r fresh resp).content = resp.content := rfl

@[simp] theorem problem_statusCode (statusCode : ℕ) (title : String) (detail : Option String)
    (r : Request) (headers : List (String × String)) :
    (problem statusCode title detail r headers).statusCode = statusCode := rfl

end Api

end JobWorkflow
