import JobWorkflow.Api.Http
import JobWorkflow.Machinery.Text

/-!
# Api/Auth — bearer tokens, claims and scopes

The parts of `auth.py` and `deps.py` that the two services have word for word: how a bearer token is
read off a request, how scopes are read off the claims of a verified token, and the scope guard.

A claim is a JSON value read the way Python does: a missing claim and a null one are `None`, and
`or` passes over every falsy value.  `str` of a value that is not text is a parameter.
-/

namespace JobWorkflow

/-! ## JSON values as Python reads them -/

/-- Python's truth value of a parsed value. -/
def Json.truthy : Json → Bool
  | .scalar v => v.truthy
  | .array xs => !xs.isEmpty
  | .object members => !members.isEmpty

/-- `None`. -/
def Json.none : Json := .scalar .null

/-- `value is None`. -/
def Json.isNone : Json → Bool
  | .scalar .null => true
  | _ => false

/-- `a or b`. -/
def Json.or (a b : Json) : Json := if a.truthy then a else b

/-- `str(value)`; `repr` writes the values that are not text. -/
def Json.str (repr : Json → String) : Json → String
  | .scalar (.str s) => s
  | v => repr v

/-- The number a number or a truth value compares as. -/
def Scalar.number? : Scalar → Option ℚ
  | .bool b => some (if b then 1 else 0)
  | .num q => some q
  | _ => none

/-- `==` on scalars: `True == 1`. -/
def Scalar.eq (a b : Scalar) : Bool :=
  match a.number?, b.number? with
  | some p, some q => p = q
  | _, _ => a = b

mutual

/-- `==` on parsed values. -/
def Json.eq : Json → Json → Bool
  | .scalar a, .scalar b => a.eq b
  | .array xs, .array ys => Json.eqAll xs ys
  | .object ms, .object ns => ms.length = ns.length && Json.eqMembers ms ns
  | _, _ => false

def Json.eqAll : List Json → List Json → Bool
  | [], [] => true
  | x :: xs, y :: ys => x.eq y && Json.eqAll xs ys
  | _, _ => false

def Json.eqMembers : List (String × Json) → List (String × Json) → Bool
  | [], _ => true
  | (k, v) :: ms, ns => (ns.lookup k).any v.eq && Json.eqMembers ms ns

end

namespace Api

/-! ## Claims -/

/-- The claims of a token that `jwt.decode` has accepted: the required ones are there, and a subject
is text. -/
structure Claims where
  members : Dict String Json
  required : ∀ k ∈ ["exp", "iss", "aud"], ((members.get? k).getD .none).isNone = false
  sub_text : ∀ v, members.get? "sub" = some v → ∃ s, v = .text s

/-- `claims.get(k)`. -/
def Claims.get (c : Claims) (k : String) : Json := (c.members.get? k).getD .none

/-- `k in claims`. -/
def Claims.has (c : Claims) (k : String) : Bool := (c.members.get? k).isSome

/-- `_extract_scopes`: the words of a `scope` string, else the members of a `scp` list. -/
def extractScopes (repr : Json → String) (claims : Claims) : Finset String :=
  match claims.get "scope" with
  | .scalar (.str scope) => (Text.split scope).toFinset
  | _ =>
    match claims.get "scp" with
    | .array scp => (scp.map (Json.str repr)).toFinset
    | _ => ∅

/-! ## The dependencies -/

/-- `_BEARER_CHALLENGE`. -/
def bearerChallenge : List (String × String) := [("www-authenticate", "Bearer")]

def unauthorized (detail : String) : ProblemException :=
  ⟨401, "Unauthorized", some detail, bearerChallenge⟩

def forbidden (scope : String) : ProblemException :=
  ⟨403, "Forbidden", some s!"requires scope: {scope}", []⟩

section Dependencies

variable {ρ : Type}

/-- `get_principal`. -/
def getPrincipal (verify : String → Except Raised ρ) (r : Request) : Except Raised ρ :=
  let header := (r.header? "authorization").getD ""
  let (scheme, _, token) := Text.partition ' ' header
  if Text.lower scheme ≠ "bearer" ∨ Text.strip token = "" then
    .error (.problem (unauthorized "missing bearer token"))
  else verify (Text.strip token)

/-- `require_write` and `require_read`, which differ in the scope. -/
def requireScope (verify : String → Except Raised ρ) (hasScope : ρ → String → Bool)
    (scope : String) (r : Request) : Except Raised ρ :=
  match getPrincipal verify r with
  | .error e => .error e
  | .ok principal =>
    if hasScope principal scope then .ok principal else .error (.problem (forbidden scope))

/-- **A bearer token in a header**: some casing of `bearer`, a space, and the token, which is not
blank and may be padded. -/
def BearerToken (header token : String) : Prop :=
  ∃ scheme rest, header = scheme ++ " " ++ rest ∧ ' ' ∉ scheme.toList ∧
    Text.lower scheme = "bearer" ∧ Text.strip rest = token ∧ token ≠ ""

variable {verify : String → Except Raised ρ} {r : Request}

/-- The principal is that of the token verified, or the token is missing. -/
theorem getPrincipal_cases (verify : String → Except Raised ρ) (r : Request) :
    (∃ token, BearerToken ((r.header? "authorization").getD "") token ∧
      getPrincipal verify r = verify token) ∨
    ((∀ token, ¬ BearerToken ((r.header? "authorization").getD "") token) ∧
      getPrincipal verify r = .error (.problem (unauthorized "missing bearer token"))) := by
  unfold getPrincipal
  generalize (r.header? "authorization").getD "" = header
  rcases Text.partition_cases ' ' header with ⟨hno, hp⟩ | ⟨scheme, rest, hscheme, heq, hp⟩
  · refine Or.inr ⟨?_, ?_⟩
    · rintro token ⟨scheme, rest, rfl, -⟩
      exact hno (by simp)
    · simp only [hp]
      rw [if_pos (Or.inr (by decide))]
  · simp only [hp]
    split
    · rename_i hbad
      refine Or.inr ⟨?_, rfl⟩
      rintro token ⟨scheme', rest', heq', hscheme', hlower, hstrip, hne⟩
      have hsame := hp.symm.trans (Text.partition_of_eq hscheme' heq')
      obtain ⟨rfl, rfl⟩ : scheme = scheme' ∧ rest = rest' := by simpa using hsame
      rcases hbad with hbad | hbad
      · exact hbad hlower
      · exact hne (hstrip.symm.trans hbad)
    · rename_i hgood
      obtain ⟨hlower, hne⟩ := not_or.mp hgood
      exact Or.inl ⟨_, ⟨scheme, rest, heq, hscheme, not_not.mp hlower, rfl, hne⟩, rfl⟩

/-- At most one token is carried. -/
theorem BearerToken.unique {header token token' : String} (h : BearerToken header token)
    (h' : BearerToken header token') : token = token' := by
  obtain ⟨scheme, rest, heq, hs, -, rfl, -⟩ := h
  obtain ⟨scheme', rest', heq', hs', -, rfl, -⟩ := h'
  have hsame := (Text.partition_of_eq hs heq).symm.trans (Text.partition_of_eq hs' heq')
  obtain ⟨-, rfl⟩ : scheme = scheme' ∧ rest = rest' := by simpa using hsame
  rfl

/-- **Who is authenticated**: the principal of the token carried. -/
theorem getPrincipal_eq_ok {principal : ρ} : getPrincipal verify r = .ok principal ↔
    ∃ token, BearerToken ((r.header? "authorization").getD "") token ∧
      verify token = .ok principal := by
  rcases getPrincipal_cases verify r with ⟨token, htoken, he⟩ | ⟨hno, he⟩
  · rw [he]
    exact ⟨fun h => ⟨token, htoken, h⟩, fun ⟨token', h', hv⟩ => htoken.unique h' ▸ hv⟩
  · rw [he]
    exact ⟨fun h => (nomatch h), fun ⟨token, h, _⟩ => (hno token h).elim⟩

theorem requireScope_eq_ok {hasScope : ρ → String → Bool} {scope : String} {principal : ρ} :
    requireScope verify hasScope scope r = .ok principal ↔
      getPrincipal verify r = .ok principal ∧ hasScope principal scope = true := by
  unfold requireScope
  cases getPrincipal verify r with
  | error e => simp
  | ok q =>
    by_cases hq : hasScope q scope = true
    · simp only [hq, if_true, Except.ok.injEq]
      exact ⟨fun h => ⟨h, h ▸ hq⟩, And.left⟩
    · simp only [hq, if_false, reduceCtorEq, Except.ok.injEq, false_iff, not_and]
      exact fun h => h ▸ hq

end Dependencies

end Api

end JobWorkflow
