import JobWorkflow.Api.Layers
import JobWorkflow.HandlerAPI.Service
import JobWorkflow.Machinery.Exchange
import JobWorkflow.Machinery.MovingWindow
import JobWorkflow.Machinery.Sha256

/-!
# HandlerAPI/RateLimit — the limiter in front of the routes

`RateLimitMiddleware` counts a request against the bucket of its bearer token, or of its client's
address if it has none, before anyone has looked at the token.  So every text that looks like a
token has a bucket of its own, and a client that makes tokens up is not bounded:
`unauthenticated_bounded_iff`.
-/

namespace JobWorkflow

namespace HandlerAPI

open Api

/-! ## `ratelimit.py` -/

/-- The limit that `parse(settings.rate_limit)` is, and what is written for it. -/
structure RateLimitItem extends MovingWindow.Item where
  text : String

/-- `_key`. -/
def rateLimitKey (p : Incoming) : String :=
  let auth := (p.request.header? "authorization").getD ""
  let (scheme, _, token) := Text.partition ' ' auth
  if Text.lower scheme = "bearer" ∧ Text.strip token ≠ "" then
    "tok:" ++ .ofList ((Sha256.hexdigest (Text.strip token)).toList.take 32)
  else p.client.getD "anonymous"

/-- `429`. -/
def tooManyRequests (item : RateLimitItem) (r : Request) : Response where
  statusCode := 429
  mediaType := problemMediaType
  headers := []
  content := .problem
    { type := "about:blank"
      title := "Too Many Requests"
      status := 429
      instancePath := r.path
      detail := some s!"rate limit exceeded: {item.text}" }

section Middleware

variable {L : Type} [MovingWindow.Limiter L String] {σ : Type}

/-- `RateLimitMiddleware`, around an application. -/
def rateLimitMiddleware (enabled : Bool) (item : RateLimitItem) (app : Asgi σ) : Asgi (L × σ) :=
  fun (l, s) p =>
    if enabled then
      match MovingWindow.Limiter.hit item.toItem (rateLimitKey p) p.time l with
      | (true, l) => (app s p).map id (l, ·)
      | (false, l) => (.ok (tooManyRequests item p.request), (l, s))
    else (app s p).map id (l, ·)

/-- The requests that pass the limiter, in order. -/
def passed (item : RateLimitItem) : L → List Incoming → List Incoming :=
  MovingWindow.admitted item.toItem rateLimitKey Incoming.time

/-- The limiter they leave. -/
def limiterAfter (item : RateLimitItem) : L → List Incoming → L :=
  MovingWindow.left item.toItem rateLimitKey Incoming.time

/-- **The application gets the requests that pass**, and the limiter goes its own way. -/
theorem final_rateLimitMiddleware (item : RateLimitItem) (app : Asgi σ) (l : L) (s : σ)
    (ps : List Incoming) :
    Exchange.final (rateLimitMiddleware true item app) (l, s) ps =
      (limiterAfter item l ps, Exchange.final app s (passed item l ps)) := by
  induction ps generalizing l s with
  | nil => rfl
  | cons p ps ih =>
    rw [Exchange.final, rateLimitMiddleware, limiterAfter, MovingWindow.left, passed,
      MovingWindow.admitted_cons, if_pos rfl]
    rcases MovingWindow.Limiter.hit item.toItem (rateLimitKey p) p.time l with ⟨_ | _, l'⟩
    · exact ih l' s
    · exact ih l' (app s p).2

/-- Something is raised through the limiter if it lets the request pass. -/
theorem raises_rateLimitMiddleware {enabled : Bool} {item : RateLimitItem} {app : Asgi σ} {l : L}
    {s : σ} {p : Incoming} :
    Raises (rateLimitMiddleware enabled item app) (l, s) p ↔
      (enabled = true →
        (MovingWindow.Limiter.hit item.toItem (rateLimitKey p) p.time l).1 = true) ∧
          Raises app s p := by
  rw [Raises, rateLimitMiddleware]
  cases enabled with
  | false => exact (and_iff_right fun h => absurd h Bool.false_ne_true).symm
  | true =>
    rw [if_pos rfl]
    rcases MovingWindow.Limiter.hit item.toItem (rateLimitKey p) p.time l with ⟨_ | _, l'⟩
    · exact iff_of_false not_raises_ok fun h => absurd (h.1 rfl) Bool.false_ne_true
    · exact (and_iff_right fun _ => rfl).symm

end Middleware

section Bounded

variable {ρ : Type} {verify : String → Except Raised ρ}

/-- **Requests of one client within one window, none of them authenticated.** -/
structure Burst (verify : String → Except Raised ρ) (item : RateLimitItem) where
  requests : List Incoming
  client : Option String
  inWindow : MovingWindow.InWindow item.toItem Incoming.time requests
  sameClient : ∀ p ∈ requests, p.client = client
  unauthenticated : ∀ p ∈ requests, ∀ principal, getPrincipal verify p.request ≠ .ok principal

/-- An application that notes what reaches it. -/
def noting : Asgi (List Incoming) := fun seen p => (.ok healthz, seen ++ [p])

theorem final_noting (seen ps : List Incoming) : Exchange.final noting seen ps = seen ++ ps := by
  induction ps generalizing seen with
  | nil => exact (List.append_nil seen).symm
  | cons p ps ih => rw [Exchange.final, noting, ih, List.append_assoc, List.singleton_append]

variable {L : Type} [MovingWindow.Limiter L String] {item : RateLimitItem}

/-- **What is promised of a burst**: that no more requests than the amount reach the application,
and that whoever is authenticated has the same allowance after it. -/
structure Bounded (b : Burst verify item) (l : L) : Prop where
  few : (Exchange.final (rateLimitMiddleware true item noting) (l, []) b.requests).2.length ≤
    item.amount
  spared : ∀ (q : Incoming) (principal : ρ), getPrincipal verify q.request = .ok principal →
    ∀ later, (∀ p ∈ b.requests, p.time ≤ later) →
      MovingWindow.Limiter.used item.toItem
        (Exchange.final (rateLimitMiddleware true item noting) (l, []) b.requests).1
        (rateLimitKey q) later =
      MovingWindow.Limiter.used item.toItem l (rateLimitKey q) later

/-- The bucket of a request that `get_principal` accepts. -/
def AcceptedBucket (verify : String → Except Raised ρ) (k : String) : Prop :=
  ∃ (q : Incoming) (principal : ρ), getPrincipal verify q.request = .ok principal ∧
    rateLimitKey q = k

/-- The promise is about what passes the limiter, and what is left of it. -/
theorem bounded_iff_passed (b : Burst verify item) (l : L) : Bounded b l ↔
    (passed item l b.requests).length ≤ item.amount ∧
      ∀ k, AcceptedBucket verify k → ∀ later, (∀ p ∈ b.requests, p.time ≤ later) →
        MovingWindow.Limiter.used item.toItem (limiterAfter item l b.requests) k later =
          MovingWindow.Limiter.used item.toItem l k later := by
  have hrun : Exchange.final (rateLimitMiddleware true item noting) (l, []) b.requests =
      (limiterAfter item l b.requests, passed item l b.requests) := by
    rw [final_rateLimitMiddleware, final_noting, List.nil_append]
  constructor
  · rintro ⟨hfew, hspared⟩
    rw [hrun] at hfew hspared
    refine ⟨hfew, ?_⟩
    rintro _ ⟨q, principal, hq, rfl⟩
    exact hspared q principal hq
  · rintro ⟨hfew, hspared⟩
    refine ⟨?_, fun q principal hq => ?_⟩
    · rw [hrun]
      exact hfew
    · rw [hrun]
      exact hspared _ ⟨q, principal, hq, rfl⟩

/-- **Unauthenticated requests are bounded, exactly if** the limit admits nothing, or they are no
more than it admits or share one bucket, and none counts for the bucket of a request that is
authenticated. -/
theorem unauthenticated_bounded_iff (b : Burst verify item) : (∀ l : L, Bounded b l) ↔
    item.amount = 0 ∨
      ((b.requests.length ≤ item.amount ∨
          ∀ p ∈ b.requests, ∀ p' ∈ b.requests, rateLimitKey p = rateLimitKey p') ∧
        ∀ p ∈ b.requests, ∀ (q : Incoming) (principal : ρ),
          getPrincipal verify q.request = .ok principal → rateLimitKey p ≠ rateLimitKey q) := by
  have hothers : ∀ p, ¬ AcceptedBucket verify (rateLimitKey p) ↔
      ∀ (q : Incoming) (principal : ρ), getPrincipal verify q.request = .ok principal →
        rateLimitKey p ≠ rateLimitKey q := fun p =>
    ⟨fun h q principal hq he => h ⟨q, principal, hq, he.symm⟩,
      fun h ⟨q, principal, hq, he⟩ => h q principal hq he.symm⟩
  simp only [bounded_iff_passed, forall_and, passed, limiterAfter]
  rw [MovingWindow.bounded_iff b.inWindow, MovingWindow.untouched_iff b.inWindow, ← or_and_left]
  simp only [hothers]

end Bounded

namespace Sample

/-- One request a minute. -/
def onePerMinute : RateLimitItem := { amount := 1, expiry := 60, text := "1 per 1 minute" }

/-- A probe with such an `Authorization` header, or without one. -/
def probe (headers : List (String × String)) : Incoming :=
  ⟨"GET", ⟨.healthz, "/healthz", headers, .read .absent⟩, some "198.51.100.7", 0⟩

/-- A request without a token, and one with a token that is made up. -/
def twoProbes : Burst (fun _ => (.error .other : Except Raised Principal)) onePerMinute where
  requests := [probe [], probe [("authorization", "Bearer x")]]
  client := some "198.51.100.7"
  inWindow := ⟨by simp [probe], 0, by simp [probe, onePerMinute]⟩
  sameClient := by simp [probe]
  unauthenticated := by
    intro p _ principal h
    obtain ⟨_, _, hverify⟩ := getPrincipal_eq_ok.mp h
    cases hverify

end Sample

/-- Both reach the application, where one may. -/
theorem unauthenticated_bounded_bogus :
    ¬ ∀ l : MovingWindow.Log String, Bounded Sample.twoProbes l := by
  intro h
  have hfew := (h []).few
  revert hfew
  decide +kernel

/-! ## One bucket among others -/

section Isolation

variable (L : Type) [MovingWindow.Limiter L String] (item : RateLimitItem)

/-- The requests that reach the application, behind a fresh limiter. -/
def reached (ps : List Incoming) : List Incoming :=
  (Exchange.final (rateLimitMiddleware true item noting)
    ((MovingWindow.Limiter.fresh : L), []) ps).2

variable {L item}

theorem reached_eq (ps : List Incoming) :
    reached L item ps = passed item (MovingWindow.Limiter.fresh : L) ps := by
  rw [reached, final_rateLimitMiddleware, final_noting, List.nil_append]

/-- **Every bucket is limited by itself**: a request reaches the application exactly if fewer than
the amount of its own bucket have reached it in the window that ends with it; the requests of a
bucket fare as they would alone; and in no window do more than the amount of one bucket pass. -/
theorem buckets_isolated {ps : List Incoming} (hord : ps.Pairwise fun p q => p.time ≤ q.time) :
    (∀ before p after, ps = before ++ p :: after →
      (reached L item (before ++ [p]) = reached L item before ++ [p] ↔
        ((reached L item before).countP fun q =>
          rateLimitKey q = rateLimitKey p ∧ p.time ≤ q.time + item.expiry) < item.amount)) ∧
    ∀ k, (reached L item ps).filter (fun p => rateLimitKey p = k) =
        reached L item (ps.filter fun p => rateLimitKey p = k) ∧
      ∀ start, ((reached L item ps).countP fun p =>
        rateLimitKey p = k ∧ start ≤ p.time ∧ p.time ≤ start + item.expiry) ≤ item.amount := by
  simp only [reached_eq, passed]
  refine ⟨?_, fun k => ⟨MovingWindow.admitted_filter hord fun _ _ => rfl, fun start => ?_⟩⟩
  · rintro before p after rfl
    have hbefore : ∀ q ∈ before, q.time ≤ p.time := fun q hq =>
      (List.pairwise_append.mp hord).2.2 q hq p List.mem_cons_self
    have hused : MovingWindow.Limiter.used item.toItem
        (MovingWindow.left item.toItem rateLimitKey Incoming.time (MovingWindow.Limiter.fresh : L)
          before) (rateLimitKey p) p.time = _ := MovingWindow.used_left_eq hbefore
    rw [MovingWindow.Limiter.used_fresh, Nat.zero_add] at hused
    rw [MovingWindow.admitted_append, List.append_cancel_left_eq, ← hused,
      ← MovingWindow.Limiter.hit_iff, MovingWindow.admitted_cons]
    split
    · exact iff_of_true rfl ‹_›
    · exact iff_of_false (List.cons_ne_nil _ _).symm ‹_›
  · have hbound : 0 + (MovingWindow.admitted item.toItem rateLimitKey Incoming.time
        (MovingWindow.Limiter.fresh : L) ps).countP (fun p =>
          rateLimitKey p = k ∧ start ≤ p.time ∧ p.time ≤ start + item.expiry) ≤ item.amount :=
      MovingWindow.countP_admitted_le hord (Nat.zero_le _) fun _ _ _ => Nat.zero_le _
    rwa [Nat.zero_add] at hbound

/-- A client that probes twice, and once with a token. -/
def Sample.threeProbes : List Incoming :=
  [probe [], probe [], probe [("authorization", "Bearer x")]]

/-- Its second request does not pass, and its third one does. -/
theorem buckets_isolated_probes :
    (reached (MovingWindow.Log String) Sample.onePerMinute Sample.threeProbes).length = 2 ∧
      ∀ k start, ((reached (MovingWindow.Log String) Sample.onePerMinute
        Sample.threeProbes).countP fun p => rateLimitKey p = k ∧ start ≤ p.time ∧
          p.time ≤ start + Sample.onePerMinute.expiry) ≤ Sample.onePerMinute.amount := by
  have hord : Sample.threeProbes.Pairwise fun p q => p.time ≤ q.time := by
    simp [Sample.threeProbes, Sample.probe]
  exact ⟨by decide +kernel, fun k => ((buckets_isolated hord).2 k).2⟩

end Isolation

end HandlerAPI

end JobWorkflow
