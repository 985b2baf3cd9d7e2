import JobWorkflow.HandlerAPI.Service

/-!
# HandlerAPI/Identity — whose job a user may read

A user may read the jobs that were created under the user's subject.  The subject is the `sub`
claim, but a token need not carry one; it is then the client's id, which all users of one client
share, or `"unknown"`.  `user_reads_own_iff` is the exact condition on two tokens for a read by the
user of the second to show that both have the same `sub`.
-/

namespace JobWorkflow

namespace HandlerAPI

open Api

variable (settings : Settings) (repr : Json → String) {c c₁ c₂ : Claims} {s : String}

/-- The `sub` claim, if it is there and not empty. -/
def subClaim (c : Claims) : Option String := (c.get "sub").asText.filter (· ≠ "")

/-- What stands in for a missing `sub`: the client id, else the authorized party, else a word. -/
def fallback (c : Claims) : String :=
  (((c.get "client_id").or (c.get "azp")).or (.text "unknown")).str repr

theorem subClaim_eq_some : subClaim c = some s ↔ c.get "sub" = .text s ∧ s ≠ "" := by
  rw [subClaim, Option.filter_eq_some_iff, decide_eq_true_eq, Json.asText_eq_some]

/-- A subject claim is text, so that without one the value is falsy. -/
theorem truthy_of_subClaim_none (h : subClaim c = none) : (c.get "sub").truthy = false := by
  cases hv : c.members.get? "sub" with
  | none => simp [Claims.get, hv, Json.none, Json.truthy, Scalar.truthy]
  | some v =>
    obtain ⟨s, rfl⟩ := c.sub_text v hv
    have hget : c.get "sub" = .text s := by simp [Claims.get, hv]
    have hs : s = "" := by
      by_contra hne
      rw [subClaim_eq_some.mpr ⟨hget, hne⟩] at h
      exact Option.some_ne_none s h
    rw [hget, hs]
    rfl

/-- **The subject**: the `sub` claim, or what stands in for it. -/
theorem subject_eq :
    (toPrincipal settings repr c).subject = (subClaim c).getD (fallback repr c) := by
  cases h : subClaim c with
  | some s =>
    obtain ⟨hget, hne⟩ := subClaim_eq_some.mp h
    have htrue : (Json.text s).truthy = true := by simpa [Json.text, Json.truthy, Scalar.truthy]
    simp only [toPrincipal, hget, Json.or, htrue, if_true]
    rfl
  | none =>
    simp only [toPrincipal, Json.or, truthy_of_subClaim_none h, Bool.false_eq_true, if_false]
    rfl

/-- The tokens of one person, or of people that cannot be taken for one another: where a token has
no `sub`, what stands in for it differs from the other's subject. -/
def Distinguished (c₁ c₂ : Claims) : Prop :=
  match subClaim c₁, subClaim c₂ with
  | some _, some _ => True
  | some s, none => s ≠ fallback repr c₂
  | none, some s => fallback repr c₁ ≠ s
  | none, none => fallback repr c₁ ≠ fallback repr c₂

/-- A user without the scope for all jobs reads by subject. -/
theorem canRead_user_iff {p q : Principal} (huser : q.isService = false)
    (hall : settings.scopeReadAll ∉ q.scopes) :
    canReadJobCreatedBy q settings p.toCreator.sub = true ↔ p.subject = q.subject := by
  simp [canReadJobCreatedBy, huser, hall, Principal.hasScope, Principal.toCreator]

/-- **When reads are tied to the user's own identity**: a user without the scope for all jobs can
read a job only if the creator's token and the user's have the same, non-empty `sub`, exactly when
what stands in for a missing `sub` is not taken for the other's subject. -/
theorem user_reads_own_iff (huser : (toPrincipal settings repr c₂).isService = false)
    (hall : settings.scopeReadAll ∉ (toPrincipal settings repr c₂).scopes) :
    (canReadJobCreatedBy (toPrincipal settings repr c₂) settings
        (toPrincipal settings repr c₁).toCreator.sub = true →
      ∃ s, s ≠ "" ∧ c₁.get "sub" = .text s ∧ c₂.get "sub" = .text s) ↔
    Distinguished repr c₁ c₂ := by
  have hsame : (∃ s, s ≠ "" ∧ c₁.get "sub" = .text s ∧ c₂.get "sub" = .text s) ↔
      ∃ s, subClaim c₁ = some s ∧ subClaim c₂ = some s :=
    exists_congr fun s => by rw [subClaim_eq_some, subClaim_eq_some]; tauto
  rw [canRead_user_iff settings huser hall, hsame, subject_eq, subject_eq, Distinguished]
  cases subClaim c₁ with
  | some s₁ =>
    cases subClaim c₂ with
    | some s₂ => simp [eq_comm]
    | none => simp
  | none =>
    cases subClaim c₂ with
    | some s₂ => simp
    | none => simp

/-! ## Two people at one client -/

namespace Sample

/-- The claims of a person who is signed in through the client `spa`. -/
def signedIn (subject : Option String) (email : String) : Claims where
  members :=
    { items := (subject.toList.map fun s => ("sub", .text s)) ++
        [("iss", .text "https://idp.example.test"), ("aud", .text "job-api"),
          ("exp", .scalar (.num 1700000000)), ("client_id", .text "spa"),
          ("email", .text email), ("scope", .text "jobs.read jobs.write")]
      nodup_keys := by cases subject <;> simp }
  required := by cases subject <;> simp [Dict.get?, Json.isNone, Json.text]
  sub_text := by cases subject <;> simp [Dict.get?]

end Sample

/-- The job of a named user is not read with a token that names nobody. -/
theorem user_reads_own_iff_named :
    let ada := Sample.signedIn (some "user-1") "ada@example.test"
    let eve := Sample.signedIn none "eve@example.test"
    canReadJobCreatedBy (toPrincipal {} (fun _ => "") eve) {}
        (toPrincipal {} (fun _ => "") ada).toCreator.sub = true →
      ∃ s, s ≠ "" ∧ ada.get "sub" = .text s ∧ eve.get "sub" = .text s := by
  intro ada eve
  have hseparate : Distinguished (fun _ => "") ada eve :=
    show "user-1" ≠ fallback (fun _ => "") eve by decide
  exact (user_reads_own_iff {} (fun _ => "") (by decide) (by decide)).mpr hseparate

/-- **Two people who are signed in through one client share their jobs**, if their tokens carry no
`sub`. -/
theorem shared_client_shares_jobs :
    ¬ ∀ (settings : Settings) (repr : Json → String) (c₁ c₂ : Claims),
      (toPrincipal settings repr c₂).isService = false →
      settings.scopeReadAll ∉ (toPrincipal settings repr c₂).scopes →
      canReadJobCreatedBy (toPrincipal settings repr c₂) settings
          (toPrincipal settings repr c₁).toCreator.sub = true →
        ∃ s, s ≠ "" ∧ c₁.get "sub" = .text s ∧ c₂.get "sub" = .text s := by
  intro h
  obtain ⟨s, -, hada, -⟩ := h {} (fun _ => "") (Sample.signedIn none "ada@example.test")
    (Sample.signedIn none "eve@example.test") (by decide) (by decide) (by decide)
  have hnone : (Sample.signedIn none "ada@example.test").get "sub" = .none := rfl
  exact absurd (hnone.symm.trans hada) (by simp [Json.none, Json.text])

end HandlerAPI

end JobWorkflow
