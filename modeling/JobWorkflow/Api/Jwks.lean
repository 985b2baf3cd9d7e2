import JobWorkflow.Api.Auth
import JobWorkflow.Machinery.Exchange
import Mathlib.Algebra.Order.Group.Int
import Mathlib.Algebra.Order.Group.Unbundled.Basic

/-!
# Api/Jwks — the cache of the issuer's signing keys

`JwksCache`, word for word the same in the two services: `get_key` refreshes the cached key set when
it is stale or has no key of the id, and once more when it still has none.  What a request to the
endpoint comes to is given with the call: a key set, or any of the exceptions on the way to one.

`Lookup` says once all that a call can do.  `jwks_cache` reads the guarantees off it: the cache is
that of the last key set fetched (`final_eq_cacheOf`), and no key outlives its withdrawal for longer
than the time to live (`accepted_before`).
-/

namespace JobWorkflow

namespace Api

/-! ## The cache -/

/-- A key set that was fetched and parsed, and what `time.monotonic()` reads after that. -/
structure KeySet (κ : Type) where
  keys : List (Option String × κ)
  fetchedAt : Time

/-- `{k.key_id: k for k in keyset.keys}.get(kid)`: the last key of that id. -/
def KeySet.key? {κ : Type} (d : KeySet κ) (kid : Option String) : Option κ :=
  (d.keys.reverse.find? fun e => e.1 = kid).map Prod.snd

/-- Raised by `http_get`, `raise_for_status`, `json` or `from_dict`. -/
inductive FetchError
  | raised

/-- What a request to the endpoint comes to. -/
abbrev Answer (κ : Type) := Except FetchError (KeySet κ)

structure JwksCache (κ : Type) where
  keys : Dict (Option String) κ
  fetchedAt : Time
  ttl : Duration

/-- One call of `get_key`: its argument, what it reads from the clock, and what the first and the
second refresh get, as far as there is one. -/
structure KeyCall (κ : Type) where
  kid : Option String
  now : Time
  first : Answer κ
  second : Answer κ

/-- What a call of `get_key` comes to, and the answers it has fetched, in order. -/
structure Looked (κ : Type) where
  now : Time
  result : Except Raised κ
  answers : List (Answer κ)

/-- The key sets it has fetched, in order. -/
def Looked.fetched {κ : Type} (out : Looked κ) : List (KeySet κ) :=
  out.answers.filterMap Except.toOption

/-- What it has read from the clock, in order. -/
def Looked.readings {κ : Type} (out : Looked κ) : List Time :=
  out.now :: out.fetched.map KeySet.fetchedAt

namespace JwksCache

variable {κ : Type}

/-- `JwksCache(jwks_url, ttl=…)`. -/
def new (ttl : Duration) : JwksCache κ := ⟨∅, 0, ttl⟩

/-- `(time.monotonic() - self._fetched_at) > self._ttl`. -/
def stale (c : JwksCache κ) (now : Time) : Bool := c.ttl < now - c.fetchedAt

/-- `if …: self._refresh()`, with the answers it fetches. -/
def refreshIf (needed : Bool) (answer : Answer κ) (c : JwksCache κ) :
    Except Raised Unit × List (Answer κ) × JwksCache κ :=
  if needed then
    match answer with
    | .error _ => (.error .other, [answer], c)
    | .ok d => (.ok (), [answer], { c with keys := .ofList d.keys, fetchedAt := d.fetchedAt })
  else (.ok (), [], c)

def getKey (c : JwksCache κ) (call : KeyCall κ) : Looked κ × JwksCache κ :=
  match c.refreshIf ((c.keys.get? call.kid).isNone || c.stale call.now) call.first with
  | (.error e, answers, c) => (⟨call.now, .error e, answers⟩, c)
  | (.ok (), answers, c) =>
    match c.refreshIf (c.keys.get? call.kid).isNone call.second with
    | (.error e, more, c) => (⟨call.now, .error e, answers ++ more⟩, c)
    | (.ok (), more, c) =>
      match c.keys.get? call.kid with
      | none =>
        (⟨call.now, .error (.problem (unauthorized "no matching signing key")), answers ++ more⟩, c)
      | some key => (⟨call.now, .ok key, answers ++ more⟩, c)

/-- The cache that holds a key set. -/
def holding (c : JwksCache κ) (d : KeySet κ) : JwksCache κ :=
  { c with keys := .ofList d.keys, fetchedAt := d.fetchedAt }

@[simp] theorem get?_holding (c : JwksCache κ) (d : KeySet κ) (kid : Option String) :
    (c.holding d).keys.get? kid = d.key? kid :=
  Dict.get?_ofList d.keys kid

theorem holding_holding (c : JwksCache κ) (d d' : KeySet κ) :
    (c.holding d).holding d' = c.holding d' := rfl

/-- **What a call of `get_key` can do.** -/
inductive Lookup (c : JwksCache κ) (call : KeyCall κ) : Looked κ → JwksCache κ → Prop
  | cached {key} (hkey : c.keys.get? call.kid = some key) (hfresh : c.stale call.now = false) :
      Lookup c call ⟨call.now, .ok key, []⟩ c
  | failed {e} (hneeded : c.keys.get? call.kid = none ∨ c.stale call.now = true)
      (h : call.first = .error e) : Lookup c call ⟨call.now, .error .other, [.error e]⟩ c
  | found {d key} (hneeded : c.keys.get? call.kid = none ∨ c.stale call.now = true)
      (h : call.first = .ok d) (hkey : d.key? call.kid = some key) :
      Lookup c call ⟨call.now, .ok key, [.ok d]⟩ (c.holding d)
  | failedAgain {d e} (hneeded : c.keys.get? call.kid = none ∨ c.stale call.now = true)
      (h : call.first = .ok d) (hkey : d.key? call.kid = none) (h' : call.second = .error e) :
      Lookup c call ⟨call.now, .error .other, [.ok d, .error e]⟩ (c.holding d)
  | foundAgain {d d' key} (hneeded : c.keys.get? call.kid = none ∨ c.stale call.now = true)
      (h : call.first = .ok d) (hkey : d.key? call.kid = none) (h' : call.second = .ok d')
      (hkey' : d'.key? call.kid = some key) :
      Lookup c call ⟨call.now, .ok key, [.ok d, .ok d']⟩ (c.holding d')
  | unknown {d d'} (hneeded : c.keys.get? call.kid = none ∨ c.stale call.now = true)
      (h : call.first = .ok d) (hkey : d.key? call.kid = none) (h' : call.second = .ok d')
      (hkey' : d'.key? call.kid = none) :
      Lookup c call
        ⟨call.now, .error (.problem (unauthorized "no matching signing key")), [.ok d, .ok d']⟩
        (c.holding d')

theorem refreshIf_false (answer : Answer κ) (c : JwksCache κ) :
    c.refreshIf false answer = (.ok (), [], c) := rfl

theorem refreshIf_ok {d : KeySet κ} (c : JwksCache κ) :
    c.refreshIf true (.ok d) = (.ok (), [.ok d], c.holding d) := rfl

/-- **Every call does one of these.** -/
theorem getKey_lookup (c : JwksCache κ) (call : KeyCall κ) :
    Lookup c call (c.getKey call).1 (c.getKey call).2 := by
  obtain ⟨kid, now, first, second⟩ := call
  by_cases hneeded : c.keys.get? kid = none ∨ c.stale now = true
  · have htrue : ((c.keys.get? kid).isNone || c.stale now) = true := by
      rwa [Bool.or_eq_true_iff, Option.isNone_iff_eq_none]
    rw [getKey]
    simp only [htrue]
    cases first with
    | error e => exact .failed hneeded rfl
    | ok d =>
      simp only [refreshIf_ok]
      cases hkey : d.key? kid with
      | some key =>
        simp only [get?_holding, hkey, Option.isNone_some, refreshIf_false]
        exact .found hneeded rfl hkey
      | none =>
        simp only [get?_holding, hkey, Option.isNone_none]
        cases second with
        | error e => exact .failedAgain hneeded rfl hkey rfl
        | ok d' =>
          simp only [refreshIf_ok, holding_holding, get?_holding]
          cases hkey' : d'.key? kid with
          | some key => exact .foundAgain hneeded rfl hkey rfl hkey'
          | none => exact .unknown hneeded rfl hkey rfl hkey'
  · obtain ⟨hcached, hfresh⟩ := not_or.mp hneeded
    obtain ⟨key, hkey⟩ := Option.ne_none_iff_exists'.mp hcached
    rw [Bool.not_eq_true] at hfresh
    rw [getKey]
    simp only [hkey, hfresh, Option.isNone_some, Bool.or_self, refreshIf_false, List.append_nil]
    exact .cached hkey hfresh

/-- **A fetch fails**: the key is not cached, or stale, and the first refresh fails, or the second
one that it takes because the first key set has no such key. -/
def FetchFails (c : JwksCache κ) (call : KeyCall κ) : Prop :=
  (c.keys.get? call.kid = none ∨ c.stale call.now = true) ∧
    ((∃ e, call.first = .error e) ∨
      ∃ d e, call.first = .ok d ∧ d.key? call.kid = none ∧ call.second = .error e)

/-- A key found fresh takes no fetch. -/
theorem not_fetchFails_of_cached {c : JwksCache κ} {call : KeyCall κ} {key : κ}
    (hkey : c.keys.get? call.kid = some key) (hfresh : c.stale call.now = false) :
    ¬ c.FetchFails call := by
  rintro ⟨hnone | hstale, -⟩
  · cases hkey.symm.trans hnone
  · cases hstale.symm.trans hfresh

/-- A key found in the first key set takes no second one. -/
theorem not_fetchFails_of_found {c : JwksCache κ} {call : KeyCall κ} {d : KeySet κ} {key : κ}
    (h : call.first = .ok d) (hkey : d.key? call.kid = some key) : ¬ c.FetchFails call := by
  rintro ⟨-, ⟨e, he⟩ | ⟨d', e, hd', hnone, -⟩⟩
  · cases h.symm.trans he
  · obtain rfl := Except.ok.inj (h.symm.trans hd')
    cases hkey.symm.trans hnone

theorem not_fetchFails_of_fetched {c : JwksCache κ} {call : KeyCall κ} {d d' : KeySet κ}
    (h : call.first = .ok d) (h' : call.second = .ok d') : ¬ c.FetchFails call := by
  rintro ⟨-, ⟨e, he⟩ | ⟨_, e, -, -, he⟩⟩
  · cases h.symm.trans he
  · cases h'.symm.trans he

/-- What is raised is the failure of a fetch, or the refusal. -/
theorem result_cases (c : JwksCache κ) (call : KeyCall κ) :
    (c.FetchFails call ∧ (c.getKey call).1.result = .error .other) ∨
      (¬ c.FetchFails call ∧ ((∃ key, (c.getKey call).1.result = .ok key) ∨
        (c.getKey call).1.result =
          .error (.problem (unauthorized "no matching signing key")))) := by
  have h := getKey_lookup c call
  generalize (c.getKey call).1 = out at h ⊢
  generalize (c.getKey call).2 = c' at h
  cases h with
  | cached hkey hfresh => exact Or.inr ⟨not_fetchFails_of_cached hkey hfresh, Or.inl ⟨_, rfl⟩⟩
  | failed hneeded h => exact Or.inl ⟨⟨hneeded, Or.inl ⟨_, h⟩⟩, rfl⟩
  | found hneeded h hkey => exact Or.inr ⟨not_fetchFails_of_found h hkey, Or.inl ⟨_, rfl⟩⟩
  | failedAgain hneeded h hkey h' =>
    exact Or.inl ⟨⟨hneeded, Or.inr ⟨_, _, h, hkey, h'⟩⟩, rfl⟩
  | foundAgain hneeded h hkey h' hkey' =>
    exact Or.inr ⟨not_fetchFails_of_fetched h h', Or.inl ⟨_, rfl⟩⟩
  | unknown hneeded h hkey h' hkey' =>
    exact Or.inr ⟨not_fetchFails_of_fetched h h', Or.inr rfl⟩

/-! ## Calls in a row -/

/-- All key sets fetched by the calls, in order. -/
def fetchedBy (looked : List (Looked κ)) : List (KeySet κ) := looked.flatMap Looked.fetched

theorem fetchedBy_cons (out : Looked κ) (looked : List (Looked κ)) :
    fetchedBy (out :: looked) = out.fetched ++ fetchedBy looked :=
  List.flatMap_cons

theorem fetchedBy_snoc (looked : List (Looked κ)) (out : Looked κ) :
    fetchedBy (looked ++ [out]) = fetchedBy looked ++ out.fetched :=
  List.flatMap_append.trans (congrArg _ (List.flatMap_singleton _ _))

/-- The cache of the last key set fetched, if there is one. -/
def cacheOf (ttl : Duration) : Option (KeySet κ) → JwksCache κ
  | none => new ttl
  | some d => (new ttl).holding d

variable {ttl : Duration}

theorem holding_cacheOf (newest : Option (KeySet κ)) (d : KeySet κ) :
    (cacheOf ttl newest).holding d = cacheOf ttl (some d) := by
  cases newest with
  | none => rfl
  | some d' => rfl

/-- A call leaves the cache of the last key set fetched. -/
theorem Lookup.cacheOf {c' : JwksCache κ} {call : KeyCall κ} {out : Looked κ}
    {newest : Option (KeySet κ)} (h : Lookup (cacheOf ttl newest) call out c') :
    c' = JwksCache.cacheOf ttl (out.fetched.getLast?.or newest) := by
  cases h with
  | cached hkey hfresh => rfl
  | failed hneeded h => rfl
  | found hneeded h hkey => exact holding_cacheOf _ _
  | failedAgain hneeded h hkey h' => exact holding_cacheOf _ _
  | foundAgain hneeded h hkey h' hkey' => exact holding_cacheOf _ _
  | unknown hneeded h hkey h' hkey' => exact holding_cacheOf _ _

/-- **The cache is that of the last key set fetched.** -/
theorem final_eq_cacheOf (calls : List (KeyCall κ)) (newest : Option (KeySet κ)) :
    Exchange.final getKey (cacheOf ttl newest) calls = cacheOf ttl
      ((fetchedBy (Exchange.replies getKey (cacheOf ttl newest) calls)).getLast?.or newest) := by
  induction calls generalizing newest with
  | nil => rfl
  | cons call calls ih =>
    have hstep := (getKey_lookup (cacheOf ttl newest) call).cacheOf
    rw [Exchange.final, Exchange.replies, hstep, ih, fetchedBy_cons, List.getLast?_append,
      Option.or_assoc]

/-- **What is promised of a call** on the cache `c`, where `newest` is the last key set fetched once
the call is over. -/
structure Sound (c : JwksCache κ) (call : KeyCall κ) (newest : Option (KeySet κ)) (out : Looked κ)
    (c' : JwksCache κ) : Prop where
  /-- A key returned is that of the last key set, which the call has fetched or found fresh. -/
  accepted : ∀ key, out.result = .ok key → ∃ d, newest = some d ∧ d.key? call.kid = some key ∧
    (out.fetched.getLast? = some d ∨ out.answers = [] ∧ call.now - d.fetchedAt ≤ c.ttl)
  cached : (c.keys.get? call.kid).isSome → c.stale call.now = false → out.answers = []
  atMostTwo : out.answers.length ≤ 2
  refused : ∀ e, out.result = .error (.problem e) →
    e = unauthorized "no matching signing key" ∧
      ∃ d d', out.answers = [.ok d, .ok d'] ∧ d'.key? call.kid = none
  propagated : (∃ e, .error e ∈ out.answers) ↔ out.result = .error .other
  kept : c' = cacheOf c.ttl newest

theorem ttl_cacheOf (newest : Option (KeySet κ)) : (cacheOf ttl newest).ttl = ttl := by
  cases newest with
  | none => rfl
  | some d => rfl

/-- A key that is cached is in the last key set, and so is the time of the cache. -/
theorem cached_cacheOf {newest : Option (KeySet κ)} {kid : Option String} {key : κ}
    (h : (cacheOf ttl newest).keys.get? kid = some key) :
    ∃ d, newest = some d ∧ d.key? kid = some key ∧
      (cacheOf ttl newest).fetchedAt = d.fetchedAt := by
  cases newest with
  | none => cases h
  | some d => exact ⟨d, rfl, (get?_holding (new ttl) d kid).symm.trans h, rfl⟩

/-- A refresh is needed for a key that is not cached, or stale. -/
theorem not_cached_of_needed {c : JwksCache κ} {call : KeyCall κ} {P : Prop}
    (h : c.keys.get? call.kid = none ∨ c.stale call.now = true)
    (hsome : (c.keys.get? call.kid).isSome) (hfresh : c.stale call.now = false) : P := by
  rcases h with hnone | hstale
  · rw [hnone] at hsome
    cases hsome
  · cases hstale.symm.trans hfresh

/-- **Every call keeps the promise.** -/
theorem Lookup.sound {c' : JwksCache κ} {call : KeyCall κ} {out : Looked κ}
    {newest : Option (KeySet κ)} (h : Lookup (JwksCache.cacheOf ttl newest) call out c') :
    Sound (JwksCache.cacheOf ttl newest) call (out.fetched.getLast?.or newest) out c' := by
  have hkept := h.cacheOf
  rw [← show (JwksCache.cacheOf ttl newest).ttl = ttl from ttl_cacheOf newest] at hkept
  cases h with
  | cached hkey hfresh =>
    refine ⟨fun key hok => ?_, fun _ _ => rfl, by simp, nofun, by simp, hkept⟩
    obtain rfl := Except.ok.inj hok
    obtain ⟨d, hd, hdkey, htime⟩ := cached_cacheOf hkey
    have hage := not_lt.mp (of_decide_eq_false hfresh)
    exact ⟨d, hd, hdkey, Or.inr ⟨rfl, htime ▸ hage⟩⟩
  | failed hneeded h =>
    exact ⟨nofun, not_cached_of_needed hneeded, by simp, nofun,
      ⟨fun _ => rfl, fun _ => ⟨_, List.mem_singleton_self _⟩⟩, hkept⟩
  | found hneeded h hkey =>
    refine ⟨fun key hok => ?_, not_cached_of_needed hneeded, by simp, nofun, by simp, hkept⟩
    obtain rfl := Except.ok.inj hok
    exact ⟨_, rfl, hkey, Or.inl rfl⟩
  | failedAgain hneeded h hkey h' =>
    exact ⟨nofun, not_cached_of_needed hneeded, by simp, nofun,
      ⟨fun _ => rfl, fun _ => ⟨_, List.mem_cons_of_mem _ (List.mem_singleton_self _)⟩⟩, hkept⟩
  | foundAgain hneeded h hkey h' hkey' =>
    refine ⟨fun key hok => ?_, not_cached_of_needed hneeded, by simp, nofun, by simp, hkept⟩
    obtain rfl := Except.ok.inj hok
    exact ⟨_, rfl, hkey', Or.inl rfl⟩
  | unknown hneeded h hkey h' hkey' =>
    refine ⟨nofun, not_cached_of_needed hneeded, by simp, fun e he => ?_, by simp, hkept⟩
    obtain rfl := Raised.problem.inj (Except.error.inj he)
    exact ⟨rfl, _, _, rfl, hkey'⟩

theorem Lookup.now_eq {c c' : JwksCache κ} {call : KeyCall κ} {out : Looked κ}
    (h : Lookup c call out c') : out.now = call.now := by
  cases h <;> rfl

/-- No reading is before an earlier one. -/
def Nondecreasing (looked : List (Looked κ)) : Prop :=
  (looked.flatMap Looked.readings).Pairwise (· ≤ ·)

/-- **A key is not accepted for longer than the time to live after it was withdrawn**: no key set
fetched from `w` on has it. -/
theorem Sound.accepted_before {c c' : JwksCache κ} {call : KeyCall κ} {out : Looked κ}
    {newest : Option (KeySet κ)} {looked : List (Looked κ)} (h : Sound c call newest out c')
    (hnow : out.now = call.now) (hnewest : newest = (fetchedBy (looked ++ [out])).getLast?)
    (hclock : Nondecreasing (looked ++ [out])) {w : Time} {key : κ}
    (hw : ∀ d ∈ fetchedBy (looked ++ [out]), w ≤ d.fetchedAt → d.key? call.kid ≠ some key)
    (hok : out.result = .ok key) : call.now < w ∨ call.now < w + c.ttl := by
  obtain ⟨d, hd, hkey, hfetched | ⟨-, hage⟩⟩ := h.accepted key hok
  all_goals
    have hmem : d ∈ fetchedBy (looked ++ [out]) :=
      List.mem_of_getLast? (hnewest.symm.trans hd)
    have hbefore : d.fetchedAt < w := not_le.mp fun hle => hw d hmem hle hkey
  · -- fetched by the call itself, after it has read the clock
    refine Or.inl (lt_of_le_of_lt ?_ hbefore)
    rw [Nondecreasing, List.flatMap_append, List.flatMap_singleton] at hclock
    have hown := (List.pairwise_append.mp hclock).2.1
    rw [Looked.readings, hnow] at hown
    exact List.rel_of_pairwise_cons hown
      (List.mem_map_of_mem (List.mem_of_getLast? hfetched))
  · exact Or.inr ((sub_le_iff_le_add'.mp hage).trans_lt (Int.add_lt_add_right hbefore c.ttl))

/-- **The cache over any calls.**  Whatever the calls before it and whatever the endpoint answers, a
call keeps its promise, and under a clock that does not run backwards no key is accepted for longer
than the time to live after it was withdrawn. -/
theorem jwks_cache (ttl : Duration) (before : List (KeyCall κ)) (call : KeyCall κ) :
    let c : JwksCache κ := Exchange.final getKey (new ttl) before
    let out := (c.getKey call).1
    let looked := Exchange.replies getKey (new ttl) before ++ [out]
    Sound c call (fetchedBy looked).getLast? out (c.getKey call).2 ∧ c.ttl = ttl ∧
      c = cacheOf ttl (fetchedBy (Exchange.replies getKey (new ttl) before)).getLast? ∧
      (Nondecreasing looked → ∀ w key, out.result = .ok key →
        (∀ d ∈ fetchedBy looked, w ≤ d.fetchedAt → d.key? call.kid ≠ some key) →
          call.now < w ∨ call.now < w + ttl) := by
  intro c out looked
  have hc : c = cacheOf ttl (fetchedBy (Exchange.replies getKey (new ttl) before)).getLast? :=
    (final_eq_cacheOf before none).trans (congrArg _ Option.or_none)
  have hall : ∀ c newest, c = cacheOf ttl newest →
      Sound c call ((c.getKey call).1.fetched.getLast?.or newest) (c.getKey call).1
        (c.getKey call).2 := by
    rintro _ newest rfl
    exact (getKey_lookup _ call).sound
  have hsound : Sound c call (fetchedBy looked).getLast? out (c.getKey call).2 := by
    rw [fetchedBy_snoc, List.getLast?_append]
    exact hall c _ hc
  have httl : c.ttl = ttl := by rw [hc, ttl_cacheOf]
  refine ⟨hsound, httl, hc, fun hclock w key hok hw => ?_⟩
  rw [← httl]
  exact hsound.accepted_before (getKey_lookup c call).now_eq rfl hclock hw hok

/-- A key fetched at 2 and withdrawn at 5 is accepted at 6, which is before 105. -/
theorem jwks_cache_withdrawn :
    let fetch : KeyCall ℕ := ⟨some "a", 1, .ok ⟨[(some "a", 7)], 2⟩, .error .raised⟩
    let call : KeyCall ℕ := ⟨some "a", 6, .error .raised, .error .raised⟩
    let c : JwksCache ℕ := Exchange.final getKey (new 100) [fetch]
    (c.getKey call).1.result = .ok 7 ∧ (call.now < 5 ∨ call.now < 5 + 100) := by
  intro fetch call c
  obtain ⟨-, -, -, hwithdrawn⟩ := jwks_cache 100 [fetch] call
  refine ⟨rfl, hwithdrawn (show List.Pairwise (· ≤ ·) [1, 2, 6] by decide) 5 7 rfl ?_⟩
  intro d hd hlate
  obtain rfl := List.mem_singleton.mp hd
  exact absurd hlate (by decide)

end JwksCache

/-! ## The verifier -/

/-- What PyJWT raises. -/
inductive PyJWTError
  | raised

/-- What `jwt.decode` is told to check. -/
structure DecodeOptions where
  algorithms : List String
  audience : String
  issuer : String
  leeway : ℤ
  require : List String

/-- The two functions of PyJWT: the key id that a token's header names, and the claims of a token
that is accepted.  Their exceptions are taken to be `PyJWTError`s, so the keys to be of the kind
that the algorithms ask for. -/
class PyJWT (κ : Type) where
  getUnverifiedHeader : String → Except PyJWTError (Option String)
  decode : String → κ → DecodeOptions → Except PyJWTError Claims

/-- The settings of the verifier. -/
structure OidcSettings where
  oidcIssuer : String
  oidcAudience : String
  oidcAlgorithms : List String
  clockSkewLeeway : ℤ

section Verifier

variable {κ : Type} [PyJWT κ]

/-- The claims that `TokenVerifier.verify` comes to, where `now`, `first` and `second` are what
`get_key` meets. -/
def verifiedClaims (settings : OidcSettings) (c : JwksCache κ) (now : Time)
    (first second : Answer κ) (token : String) : Except Raised Claims :=
  match PyJWT.getUnverifiedHeader κ token with
  | .error _ => .error (.problem (unauthorized "malformed token"))
  | .ok kid =>
    match (c.getKey ⟨kid, now, first, second⟩).1.result with
    | .error e => .error e
    | .ok signingKey =>
      match PyJWT.decode token signingKey
        { algorithms := settings.oidcAlgorithms
          audience := settings.oidcAudience
          issuer := settings.oidcIssuer
          leeway := settings.clockSkewLeeway
          require := ["exp", "iss", "aud"] } with
      | .error _ => .error (.problem (unauthorized "invalid token"))
      | .ok claims => .ok claims

end Verifier

end Api

end JobWorkflow
