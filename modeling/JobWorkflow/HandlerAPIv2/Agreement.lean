import JobWorkflow.HandlerAPI.Service
import JobWorkflow.HandlerAPIv2.CircuitBreaker
import JobWorkflow.Machinery.Exchange

/-!
# HandlerAPIv2/Agreement — the two front doors are one to a machine

The two services have separate sources for the same contract.  For a caller whose claims make it a
service at the first door they answer every request with the same response, and leave the same
store; so it does not matter which of them receives which request (`front_doors_agree`).
-/

namespace JobWorkflow

open Api

/-- One principal, as each service has it. -/
structure Matching (p₁ : HandlerAPI.Principal) (p₂ : HandlerAPIv2.Principal) : Prop where
  service : p₁.isService = true
  subject : p₁.subject = p₂.subject
  clientId : p₁.clientId = p₂.clientId
  scopes : p₁.scopes = p₂.scopes

/-! ## Alike -/

/-- What the two services make of one thing: the same refusal, or related results. -/
def Alike {α β : Type} (R : α → β → Prop) (x : Except Raised α) (y : Except Raised β) : Prop :=
  (∃ e, e ≠ .circuitOpen ∧ x = .error e ∧ y = .error e) ∨
    ∃ a b, R a b ∧ x = .ok a ∧ y = .ok b

namespace Alike

variable {α β γ δ : Type} {R : α → β → Prop} {S : γ → δ → Prop}

theorem refused {e : Raised} (h : e ≠ .circuitOpen) :
    Alike R (.error e : Except Raised α) (.error e : Except Raised β) :=
  Or.inl ⟨e, h, rfl, rfl⟩

theorem given {a : α} {b : β} (h : R a b) : Alike R (.ok a) (.ok b) := Or.inr ⟨a, b, h, rfl, rfl⟩

/-- Alike steps after alike steps. -/
theorem bind {x : Except Raised α} {y : Except Raised β} {f : α → Except Raised γ}
    {g : β → Except Raised δ} (h : Alike R x y) (hfg : ∀ a b, R a b → Alike S (f a) (g b)) :
    Alike S (x >>= f) (y >>= g) := by
  rcases h with ⟨e, hne, rfl, rfl⟩ | ⟨a, b, hab, rfl, rfl⟩
  · exact refused hne
  · exact hfg a b hab

end Alike

/-- The two deployments: one verifier of tokens, one framework. -/
structure Deployment where
  settings₁ : HandlerAPI.Settings
  settings₂ : HandlerAPIv2.Settings
  scopeWrite_eq : settings₁.scopeWrite = settings₂.scopeWrite
  scopeRead_eq : settings₁.scopeRead = settings₂.scopeRead
  repr : Json → String
  claimsOf : String → Except Raised Claims
  fw : Framework

namespace Deployment

variable (d : Deployment)

def v1 : HandlerAPI.App := ⟨d.settings₁, HandlerAPI.verify d.settings₁ d.repr d.claimsOf, d.fw⟩

def v2 : HandlerAPIv2.App := ⟨d.settings₂, HandlerAPIv2.verify d.repr d.claimsOf, d.fw⟩

/-- A token the request carries is verified, and its claims are those of a service. -/
def ByService (r : Request) : Prop :=
  ∀ token, BearerToken ((r.header? "authorization").getD "") token →
    ∃ claims, d.claimsOf token = .ok claims ∧
      (HandlerAPI.toPrincipal d.settings₁ d.repr claims).isService = true

variable {d} {r : Request}

/-! ## Principals -/

theorem matching_toPrincipal {claims : Claims}
    (h : (HandlerAPI.toPrincipal d.settings₁ d.repr claims).isService = true) :
    Matching (HandlerAPI.toPrincipal d.settings₁ d.repr claims)
      (HandlerAPIv2.toPrincipal d.repr claims) :=
  ⟨h, rfl, rfl, rfl⟩

/-- A service is recorded as the same creator. -/
theorem toCreator_eq {p₁ : HandlerAPI.Principal} {p₂ : HandlerAPIv2.Principal}
    (h : Matching p₁ p₂) : p₁.toCreator = p₂.toCreator := by
  have htype : p₁.principalType = .service := of_decide_eq_true h.service
  simp only [HandlerAPI.Principal.toCreator, HandlerAPIv2.Principal.toCreator, htype,
    HandlerAPI.PrincipalType.name, h.subject, h.clientId]

theorem alike_getPrincipal (h : d.ByService r) :
    Alike Matching (getPrincipal d.v1.verify r) (getPrincipal d.v2.verify r) := by
  rcases getPrincipal_cases d.v1.verify r with ⟨token, htoken, he₁⟩ | ⟨hno, he₁⟩
  · obtain ⟨claims, hclaims, hservice⟩ := h token htoken
    rcases getPrincipal_cases d.v2.verify r with ⟨token', htoken', he₂⟩ | ⟨hno, -⟩
    · obtain rfl := htoken.unique htoken'
      have hv₁ : d.v1.verify token =
          (d.claimsOf token).map (HandlerAPI.toPrincipal d.settings₁ d.repr) := rfl
      have hv₂ : d.v2.verify token =
          (d.claimsOf token).map (HandlerAPIv2.toPrincipal d.repr) := rfl
      rw [hclaims] at hv₁ hv₂
      rw [he₁, he₂, hv₁, hv₂]
      exact .given (matching_toPrincipal hservice)
    · exact absurd htoken (hno token)
  · rcases getPrincipal_cases d.v2.verify r with ⟨token, htoken, -⟩ | ⟨-, he₂⟩
    · exact absurd htoken (hno token)
    · rw [he₁, he₂]
      exact .refused (by simp)

theorem alike_requireScope {scope : String} (h : d.ByService r) :
    Alike Matching (requireScope d.v1.verify HandlerAPI.Principal.hasScope scope r)
      (requireScope d.v2.verify HandlerAPIv2.Principal.hasScope scope r) := by
  unfold requireScope
  rcases alike_getPrincipal h with ⟨e, hne, h₁, h₂⟩ | ⟨p₁, p₂, hm, h₁, h₂⟩
  · rw [h₁, h₂]
    exact .refused hne
  · rw [h₁, h₂]
    simp only [HandlerAPI.Principal.hasScope, HandlerAPIv2.Principal.hasScope, hm.scopes]
    by_cases hscope : scope ∈ p₂.scopes
    · simp only [hscope, decide_true, if_true]
      exact .given hm
    · simp only [hscope, decide_false, Bool.false_eq_true, if_false]
      exact .refused (by simp)

theorem alike_requireWrite (h : d.ByService r) :
    Alike Matching (d.v1.requireWrite r) (d.v2.requireWrite r) := by
  have hs : d.v2.settings.scopeWrite = d.v1.settings.scopeWrite := d.scopeWrite_eq.symm
  rw [HandlerAPI.App.requireWrite, HandlerAPIv2.App.requireWrite, hs]
  exact alike_requireScope h

theorem alike_requireRead (h : d.ByService r) :
    Alike Matching (d.v1.requireRead r) (d.v2.requireRead r) := by
  have hs : d.v2.settings.scopeRead = d.v1.settings.scopeRead := d.scopeRead_eq.symm
  rw [HandlerAPI.App.requireRead, HandlerAPIv2.App.requireRead, hs]
  exact alike_requireScope h

/-! ## What is prepared -/

theorem alike_decode (r : Request) : Alike Eq r.body.decode r.body.decode := by
  cases r.body with
  | read i => exact .given rfl
  | notJson pos => exact .refused (by simp)
  | unreadable => exact .refused (by simp)

theorem alike_prepareCreate (h : d.ByService r) :
    Alike (fun p q => Matching p.1 q.1 ∧ p.2 = q.2) (prepareCreate d.v1.requireWrite r)
      (prepareCreate d.v2.requireWrite r) := by
  refine (alike_decode r).bind fun i i' hi => (alike_requireWrite h).bind fun p₁ p₂ hm => ?_
  rw [← hi]
  cases CreateJobRequest.validate i with
  | ok body => exact .given ⟨hm, rfl⟩
  | error errors => exact .refused (by simp)

theorem alike_prepareGet (h : d.ByService r) (segment : String) :
    Alike (fun p q => Matching p.1 q.1 ∧ p.2 = q.2) (prepareGet d.v1.fw d.v1.requireRead segment r)
      (prepareGet d.v2.fw d.v2.requireRead segment r) := by
  refine (alike_requireRead h).bind fun p₁ p₂ hm => ?_
  have hfw : d.v1.fw = d.v2.fw := rfl
  rw [hfw]
  cases d.v2.fw.parseInt segment with
  | ok i => exact .given ⟨hm, rfl⟩
  | error e => exact .refused (by simp)

/-! ## Routes -/

section Routes

variable {σ : Type} [Store σ] {p₁ : HandlerAPI.Principal} {p₂ : HandlerAPIv2.Principal}

/-- What the two services make of a request on one state: one state after it, and alike results. -/
def SameStep (x y : Except Raised Response × σ) : Prop := Alike Eq x.1 y.1 ∧ x.2 = y.2

theorem sameStep_createJob (hm : Matching p₁ p₂) (body : CreateJobRequest) (clock : Clock) (s : σ) :
    SameStep (HandlerAPI.createJob body p₁ clock s) (HandlerAPIv2.createJob body p₂ clock s) := by
  have henq : ∀ p c, Datastore.enqueue body.jobType p c clock s =
      (Store.enqueue body.jobType p c clock.createdAt clock.updatedAt s).map
        (Except.mapError fun _ => .other) id := fun _ _ => rfl
  rw [HandlerAPI.createJob, HandlerAPIv2.createJob, toCreator_eq hm, henq]
  rcases Store.enqueue body.jobType (some (.object (body.payload.getD ∅))) (some p₂.toCreator)
    clock.createdAt clock.updatedAt s with ⟨e | _ | jobId, s'⟩
  · exact ⟨.refused (e := .other) (by simp), rfl⟩
  · exact ⟨.refused (by simp), rfl⟩
  · exact ⟨.given rfl, rfl⟩

/-- A job is written as the same response, or not at all. -/
theorem alike_render (fw : Framework) (job : Job) :
    Alike Eq (fw.render HandlerAPI.jobShown (toResponse job))
      (fw.render HandlerAPIv2.jobShown (toResponse job)) := by
  cases hx : toResponse job with
  | ok x =>
    rw [Framework.render, Framework.render]
    split
    · exact .given rfl
    · exact .refused (by simp)
  | error e =>
    unfold toResponse at hx
    split at hx
    · cases hx
    · obtain rfl := Except.error.inj hx
      exact .refused (by simp)

theorem sameStep_getJob (hm : Matching p₁ p₂) (fw : Framework) (i : JobId)
    (settings : HandlerAPI.Settings) (clock : Clock) (s : σ) :
    SameStep (HandlerAPI.getJob fw i p₁ settings clock s)
      (HandlerAPIv2.getJob fw i p₂ clock s) := by
  have hget : Datastore.getJob i clock s = (.ok (Store.getJob i s), s) := rfl
  rw [HandlerAPI.getJob, HandlerAPIv2.getJob, hget]
  cases Store.getJob i s with
  | none => exact ⟨.refused (by simp), rfl⟩
  | some job =>
    have hcan : ∀ creatorSub, HandlerAPI.canReadJobCreatedBy p₁ settings creatorSub = true :=
      fun _ => if_pos (by rw [hm.service]; rfl)
    dsimp only
    rw [if_pos (hcan _)]
    exact ⟨alike_render fw job, rfl⟩

/-- **A request** of a service is the same step at both doors. -/
theorem sameStep_endpoint (h : d.ByService r) (clock : Clock) (s : σ) :
    SameStep (d.v1.endpoint r clock s) (d.v2.endpoint r clock s) := by
  cases hroute : r.route with
  | createJob =>
    simp only [HandlerAPI.App.endpoint, HandlerAPIv2.App.endpoint, hroute]
    rcases alike_prepareCreate h with ⟨e, hne, h₁, h₂⟩ | ⟨⟨p₁, b⟩, ⟨p₂, b'⟩, ⟨hm, hb⟩, h₁, h₂⟩
    · rw [h₁, h₂]
      exact ⟨.refused hne, rfl⟩
    · obtain rfl : b = b' := hb
      rw [h₁, h₂]
      exact sameStep_createJob hm b clock s
  | getJob segment =>
    simp only [HandlerAPI.App.endpoint, HandlerAPIv2.App.endpoint, hroute]
    rcases alike_prepareGet h segment with
      ⟨e, hne, h₁, h₂⟩ | ⟨⟨p₁, i⟩, ⟨p₂, i'⟩, ⟨hm, hi⟩, h₁, h₂⟩
    · rw [h₁, h₂]
      exact ⟨.refused hne, rfl⟩
    · obtain rfl : i = i' := hi
      rw [h₁, h₂]
      exact sameStep_getJob hm d.fw i d.v1.settings clock s
  | healthz =>
    simp only [HandlerAPI.App.endpoint, HandlerAPIv2.App.endpoint, hroute]
    exact ⟨.given rfl, rfl⟩
  | readyz =>
    have hget : Datastore.getJob 0 clock s = (.ok (Store.getJob 0 s), s) := rfl
    simp only [HandlerAPI.App.endpoint, HandlerAPIv2.App.endpoint, hroute, HandlerAPI.readyz,
      HandlerAPIv2.readyz, hget]
    exact ⟨.given rfl, rfl⟩
  | unrouted st detail headers =>
    simp only [HandlerAPI.App.endpoint, HandlerAPIv2.App.endpoint, hroute]
    exact ⟨.refused (by simp), rfl⟩

/-- The handlers differ in the open circuit only. -/
theorem handler_eq {e : Raised} (hne : e ≠ .circuitOpen) : d.v1.handler r e = d.v2.handler r e := by
  cases e with
  | circuitOpen => exact absurd rfl hne
  | _ => rfl

theorem serve_eq {q : Request × Chance} (h : d.ByService q.1) (s : σ) :
    d.v1.serve s q = d.v2.serve s q := by
  obtain ⟨halike, hstore⟩ := sameStep_endpoint h q.2.clock s
  refine Prod.ext ?_ hstore
  rw [HandlerAPI.App.serve, HandlerAPIv2.App.serve, Prod.map_fst, Prod.map_fst]
  rcases halike with ⟨e, hne, h₁, h₂⟩ | ⟨x, y, hxy, h₁, h₂⟩
  · rw [h₁, h₂]
    simp only [stack, handler_eq hne]
    rfl
  · obtain rfl : x = y := hxy
    rw [h₁, h₂]
    rfl

end Routes

/-! ## Histories -/

/-- Which service receives a request. -/
inductive Door
  | v1 | v2

section Histories

open HandlerAPIv2 (Pybreaker LawfulPybreaker CircuitBreakerStore Counting noneExcluded)

variable {β σ : Type} [Pybreaker β] [Store σ]

/-- A request, served by the service that receives it.  The store is shared, and the breaker before
it is the second service's own. -/
def serveAt (d : Deployment) (s : CircuitBreakerStore β σ) (q : Door × Request × Chance) :
    Response × CircuitBreakerStore β σ :=
  match q.1 with
  | .v1 => (d.v1.serve s.inner q.2).map id fun inner => ⟨inner, s.breaker⟩
  | .v2 => d.v2.serve s q.2

variable [LawfulPybreaker β]

/-- Either door, in front of a closed breaker and of a store that does not fail, is the first
door. -/
theorem serveAt_eq {m : ℤ} {n : ℕ} {b : β} (hb : Counting m noneExcluded n b) (i : σ)
    {q : Door × Request × Chance} (h : d.ByService q.2.1)
    (hup : ∀ c ∈ d.v2.storeCall q.2.1, c.raises q.2.2.clock i = false) :
    ∃ n' b', Counting m noneExcluded n' b' ∧
      d.serveAt ⟨i, b⟩ q = ((d.v1.serve i q.2).1, ⟨(d.v1.serve i q.2).2, b'⟩) := by
  obtain ⟨door, q⟩ := q
  cases door with
  | v1 => exact ⟨n, b, hb, rfl⟩
  | v2 =>
    have hserve : d.serveAt ⟨i, b⟩ (.v2, q) = d.v2.serve (⟨i, b⟩ : CircuitBreakerStore β σ) q := rfl
    rw [hserve, serve_eq h i]
    refine (HandlerAPIv2.guarded_serve d.v2 hb i q).stays_closed hb fun htrue => ?_
    obtain ⟨c, hc, hraises⟩ := Option.map_eq_some_iff.mp htrue
    exact Bool.false_ne_true ((hup c hc).symm.trans hraises)

/-- **A history of a service**, whichever doors it goes through, is one of the first door. -/
theorem replies_serveAt {m : ℤ} {n : ℕ} {b : β} (hb : Counting m noneExcluded n b) {i : σ}
    {qs : List (Door × Request × Chance)} (h : ∀ q ∈ qs, d.ByService q.2.1)
    (hup : d.v2.Healthy i (qs.map Prod.snd)) :
    Exchange.replies d.serveAt ⟨i, b⟩ qs = Exchange.replies d.v1.serve i (qs.map Prod.snd) ∧
      (Exchange.final d.serveAt ⟨i, b⟩ qs).inner =
        Exchange.final d.v1.serve i (qs.map Prod.snd) := by
  induction qs generalizing n b i with
  | nil => exact ⟨rfl, rfl⟩
  | cons q qs ih =>
    obtain ⟨hq, h⟩ := List.forall_mem_cons.mp h
    obtain ⟨hcall, hup⟩ := hup
    obtain ⟨n', b', hb', hserve⟩ := serveAt_eq hb i hq hcall
    rw [← serve_eq hq i] at hup
    obtain ⟨hreplies, hfinal⟩ := ih hb' h hup
    simp only [List.map_cons, Exchange.replies, Exchange.final, hserve, hreplies, hfinal, and_self]

end Histories

/-- **The two front doors agree for services**: each request gets the same response and leaves the
same store, and so does each sequence of requests on which the datastore does not fail, whichever
service receives each one. -/
theorem front_doors_agree (d : Deployment) {β σ : Type} [HandlerAPIv2.Pybreaker β]
    [HandlerAPIv2.LawfulPybreaker β] [Store σ] (s : σ) :
    (∀ q : Request × Chance, d.ByService q.1 → d.v1.serve s q = d.v2.serve s q) ∧
    ∀ (m : ℤ) (n : ℕ) (b : β), HandlerAPIv2.Counting m HandlerAPIv2.noneExcluded n b →
      ∀ qs qs' : List (Door × Request × Chance), qs.map Prod.snd = qs'.map Prod.snd →
        (∀ q ∈ qs, d.ByService q.2.1) → d.v2.Healthy s (qs.map Prod.snd) →
          Exchange.replies d.serveAt ⟨s, b⟩ qs = Exchange.replies d.serveAt ⟨s, b⟩ qs' ∧
          (Exchange.final d.serveAt ⟨s, b⟩ qs).inner =
            (Exchange.final d.serveAt ⟨s, b⟩ qs').inner := by
  refine ⟨fun q h => serve_eq h s, fun m n b hb qs qs' hqs h hup => ?_⟩
  have h' : ∀ q ∈ qs', d.ByService q.2.1 := fun q hq => by
    obtain ⟨q₁, hq₁, he⟩ := List.mem_map.mp (hqs ▸ List.mem_map_of_mem (f := Prod.snd) hq)
    exact he ▸ h q₁ hq₁
  obtain ⟨hreplies, hfinal⟩ := replies_serveAt hb h hup
  obtain ⟨hreplies', hfinal'⟩ := replies_serveAt hb h' (hqs ▸ hup)
  rw [hreplies, hreplies', hfinal, hfinal', hqs]
  exact ⟨rfl, rfl⟩

/-! ## A client of both -/

namespace Sample

/-- A client-credentials token, whose subject is the client. -/
def claims : Claims where
  members :=
    { items := [("iss", .text "https://idp.example.test"), ("aud", .text "job-api"),
        ("exp", .scalar (.num 1700000000)), ("sub", .text "svc-client"),
        ("client_id", .text "svc-client"), ("scope", .text "jobs.read jobs.write")]
      nodup_keys := by decide }
  required := by simp [Dict.get?, Json.isNone, Json.text]
  sub_text := by simp [Dict.get?]

def deployment : Deployment where
  settings₁ := {}
  settings₂ := {}
  scopeWrite_eq := rfl
  scopeRead_eq := rfl
  repr _ := "[]"
  claimsOf token :=
    if token = "svc's" then .ok claims else .error (.problem (unauthorized "invalid token"))
  fw := HandlerAPI.Sample.fw

theorem byService {r : Request} (hr : (r.header? "authorization").getD "" = "Bearer svc's") :
    deployment.ByService r := by
  intro token htoken
  have hsvc : BearerToken "Bearer svc's" "svc's" :=
    ⟨"Bearer", "svc's", by decide, by decide, by decide, by decide, by decide⟩
  obtain rfl := (hr ▸ htoken).unique hsvc
  exact ⟨claims, rfl, by decide⟩

def breaker : HandlerAPIv2.Sample.Breaker := HandlerAPIv2.buildBreaker 5 30000000

def post : Request × Chance := (HandlerAPI.Sample.post "Bearer svc's", HandlerAPI.Sample.chance)

def get : Request × Chance := (HandlerAPI.Sample.get "Bearer svc's", HandlerAPI.Sample.chance)

end Sample

/-- An `InMemoryStore` fails no call. -/
theorem healthy_inMemory (app : HandlerAPIv2.App) (s : InMemoryStore)
    (qs : List (Request × Chance)) : app.Healthy s qs := by
  induction qs generalizing s with
  | nil => trivial
  | cons q qs ih =>
    refine ⟨fun c _ => ?_, ih _⟩
    cases c with
    | enqueue jobType payload creator => rfl
    | getJob jobId => rfl

/-- A job is enqueued at one door and looked up at the other, either way round. -/
theorem front_doors_agree_both_ways :
    Exchange.replies Sample.deployment.serveAt
        (⟨InMemoryStore.empty, Sample.breaker⟩ :
          HandlerAPIv2.CircuitBreakerStore HandlerAPIv2.Sample.Breaker InMemoryStore)
        [(.v1, Sample.post), (.v2, Sample.get)] =
      Exchange.replies Sample.deployment.serveAt ⟨InMemoryStore.empty, Sample.breaker⟩
        [(.v2, Sample.post), (.v1, Sample.get)] := by
  have hservice : ∀ q ∈ [(Door.v1, Sample.post), (Door.v2, Sample.get)],
      Sample.deployment.ByService q.2.1 := by
    intro q hq
    rcases List.mem_pair.mp hq with rfl | rfl
    · exact Sample.byService rfl
    · exact Sample.byService rfl
  exact ((front_doors_agree Sample.deployment InMemoryStore.empty).2 _ _ Sample.breaker
    (HandlerAPIv2.LawfulPybreaker.circuitBreaker_counting _ _ _) _ _ rfl hservice
    (healthy_inMemory _ _ _)).1

end Deployment

end JobWorkflow
