import JobWorkflow.Api.Jwks
import JobWorkflow.HandlerAPI.Service
import JobWorkflow.HandlerAPIv2.Service

/-!
# HandlerAPIv2/Authentication — what `get_principal` raises

Every way in which a token can be bad ends in a 401 with the Bearer challenge, in both services.
The key lookup between the two `try` blocks is in neither of them: what goes wrong while the key set
is fetched leaves `get_principal` as it is, and becomes a 500 (`authentication_iff`).
-/

namespace JobWorkflow

namespace HandlerAPIv2

open Api

/-- **A principal, or a 401 with the Bearer challenge.** -/
def Answered {ρ : Type} (result : Except Raised ρ) : Prop :=
  (∃ principal, result = .ok principal) ∨ ∃ e, result = .error (.problem e) ∧
    e.statusCode = 401 ∧ e.headers = bearerChallenge

theorem answered_unauthorized {ρ : Type} (detail : String) :
    Answered (.error (.problem (unauthorized detail)) : Except Raised ρ) :=
  Or.inr ⟨_, rfl, rfl, rfl⟩

theorem not_answered_other {ρ : Type} : ¬ Answered (.error .other : Except Raised ρ) := by
  rintro (⟨_, h⟩ | ⟨_, h, -⟩)
  · cases h
  · cases h

/-- Distilling the claims raises nothing. -/
theorem answered_map {ρ ρ' : Type} (f : ρ → ρ') (result : Except Raised ρ) :
    Answered (result.map f) ↔ Answered result := by
  cases result with
  | ok p => exact ⟨fun _ => Or.inl ⟨p, rfl⟩, fun _ => Or.inl ⟨f p, rfl⟩⟩
  | error e =>
    constructor
    · rintro (⟨_, h⟩ | ⟨e', h, hst⟩)
      · cases h
      · exact Or.inr ⟨e', congrArg Except.error (Except.error.inj h), hst⟩
    · rintro (⟨_, h⟩ | ⟨e', h, hst⟩)
      · cases h
      · exact Or.inr ⟨e', congrArg Except.error (Except.error.inj h), hst⟩

variable {κ : Type} [PyJWT κ]

/-- The claims of a token are there, or refused with a 401, unless a fetch fails. -/
theorem answered_verifiedClaims (settings : OidcSettings) (c : JwksCache κ) (now : Time)
    (first second : Answer κ) (token : String) :
    Answered (verifiedClaims settings c now first second token) ↔
      ∀ kid, PyJWT.getUnverifiedHeader κ token = .ok kid →
        ¬ c.FetchFails ⟨kid, now, first, second⟩ := by
  rw [verifiedClaims]
  cases hheader : PyJWT.getUnverifiedHeader κ token with
  | error e => exact ⟨fun _ _ h => (nomatch h), fun _ => answered_unauthorized _⟩
  | ok kid =>
    dsimp only
    rcases c.result_cases ⟨kid, now, first, second⟩ with ⟨hfails, he⟩ | ⟨hworks, ⟨key, he⟩ | he⟩
    · rw [he]
      exact ⟨fun h => absurd h not_answered_other, fun h => absurd hfails (h kid rfl)⟩
    · rw [he]
      refine iff_of_true ?_ fun kid' h => ?_
      · dsimp only
        split
        · exact answered_unauthorized _
        · exact Or.inl ⟨_, rfl⟩
      · obtain rfl := Except.ok.inj h
        exact hworks
    · rw [he]
      refine iff_of_true (answered_unauthorized _) fun kid' h => ?_
      obtain rfl := Except.ok.inj h
      exact hworks

/-- The dependency adds a refusal of its own. -/
theorem answered_getPrincipal {ρ : Type} (verify : String → Except Raised ρ) (r : Request) :
    Answered (getPrincipal verify r) ↔ ∀ token,
      BearerToken ((r.header? "authorization").getD "") token → Answered (verify token) := by
  rcases getPrincipal_cases verify r with ⟨token, htoken, he⟩ | ⟨hno, he⟩
  · rw [he]
    exact ⟨fun h token' h' => htoken.unique h' ▸ h, fun h => h token htoken⟩
  · rw [he]
    exact ⟨fun _ token h => absurd h (hno token), fun _ => answered_unauthorized _⟩

/-- **Authentication ends in a principal or a 401, in both services, exactly if** no fetch fails
that the lookup of the token's key takes. -/
theorem authentication_iff (oidc : OidcSettings) (settings : HandlerAPI.Settings)
    (repr : Json → String) (c : JwksCache κ) (now : Time) (first second : Answer κ) (r : Request) :
    (Answered (getPrincipal
        (HandlerAPI.verify settings repr (verifiedClaims oidc c now first second)) r) ∧
      Answered (getPrincipal (verify repr (verifiedClaims oidc c now first second)) r)) ↔
    ∀ token kid, BearerToken ((r.header? "authorization").getD "") token →
      PyJWT.getUnverifiedHeader κ token = .ok kid →
        ¬ c.FetchFails ⟨kid, now, first, second⟩ := by
  simp only [answered_getPrincipal, HandlerAPI.verify, verify, answered_map,
    answered_verifiedClaims, and_self]
  exact ⟨fun h token kid htoken hkid => h token htoken kid hkid,
    fun h token htoken kid hkid => h token kid htoken hkid⟩

/-- A token of three parts, with the header `{"alg":"RS256","kid":"a"}` and a signature that is none
of its issuer's. -/
def forged : String := "eyJhbGciOiJSUzI1NiIsImtpZCI6ImEifQ.eyJzdWIiOiJhZGEifQ.c2ln"

/-- A library that reads the header of the forged token, and accepts no token. -/
abbrev refusing : PyJWT ℕ where
  getUnverifiedHeader token := if token = forged then .ok (some "a") else .error .raised
  decode _ _ _ := .error .raised

/-- A forged token ends in a 500 while no key is cached and the endpoint is down. -/
theorem authentication_unreachable :
    letI := refusing
    let r : Request :=
      ⟨.getJob "1", "/v1/jobs/1", [("authorization", "Bearer " ++ forged)], .read .absent⟩
    let claimsOf := verifiedClaims ⟨"https://issuer", "job-api", ["RS256"], 30⟩
      (JwksCache.new 3600 : JwksCache ℕ) 1 (.error .raised) (.error .raised)
    ¬ Answered (getPrincipal (HandlerAPI.verify {} (fun _ => "") claimsOf) r) ∧
      ¬ Answered (getPrincipal (verify (fun _ => "") claimsOf) r) := by
  intro r claimsOf
  have htoken : BearerToken ((r.header? "authorization").getD "") forged :=
    ⟨"Bearer", forged, rfl, by decide, by decide, by decide, by decide⟩
  have hescapes : ¬ Answered (claimsOf forged) := not_answered_other
  simp only [answered_getPrincipal, HandlerAPI.verify, verify, answered_map]
  exact ⟨fun h => hescapes (h forged htoken), fun h => hescapes (h forged htoken)⟩

end HandlerAPIv2

end JobWorkflow
