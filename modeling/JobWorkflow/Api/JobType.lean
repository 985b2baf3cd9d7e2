import JobWorkflow.Api.Schemas
import JobWorkflow.Machinery.Regex

/-!
# Api/JobType — which job types are accepted

`_JOB_TYPE_RE` and `_valid_type`, the same in the two services.  The pattern is meant for the types
that the message of the validator describes (`JobTypeForm`), and its `$` lets one newline more
through: `jobType_accepted_iff`.
-/

namespace JobWorkflow

namespace Api

/-- `^[a-z][a-z0-9_.-]{0,63}$`. -/
def jobTypePattern : Regex :=
  .seq .start (.seq (.oneOf isLower) (.seq (.upTo 63 (.oneOf isTail)) .stop))

/-- **What the pattern matches**: a letter, up to 63 characters more, and perhaps a newline. -/
theorem match_jobTypePattern {s : String} : jobTypePattern.Match s ↔
    ∃ c w e, s.toList = c :: (w ++ e) ∧ isLower c = true ∧ w.length ≤ 63 ∧
      (∀ d ∈ w, isTail d = true) ∧ (e = [] ∨ e = ['\n']) := by
  constructor
  · rintro ⟨before, after, h⟩
    obtain ⟨b₁, a₁, hstart, h⟩ := Regex.consumes_seq.mp h
    obtain ⟨-, rfl, rfl⟩ := Regex.consumes_start.mp hstart
    obtain ⟨b₂, a₂, hfirst, h⟩ := Regex.consumes_seq.mp h
    obtain ⟨c, hc, hs, rfl⟩ := Regex.consumes_oneOf.mp hfirst
    obtain ⟨b₃, a₃, htail, hstop⟩ := Regex.consumes_seq.mp h
    obtain ⟨w, rfl, -, hlength, hw⟩ := (Regex.consumes_upTo_oneOf 63).mp htail
    obtain ⟨hend, -, -⟩ := Regex.consumes_stop.mp hstop
    exact ⟨c, w, a₃, hs, hc, hlength, hw, hend⟩
  · rintro ⟨c, w, e, hs, hc, hlength, hw, hend⟩
    refine ⟨[c] ++ w, e, ?_⟩
    rw [hs]
    exact .seq .start (.seq (.oneOf hc)
      (.seq ((Regex.consumes_upTo_oneOf 63).mpr ⟨w, rfl, rfl, hlength, hw⟩)
        (Regex.consumes_stop.mpr ⟨hend, rfl, rfl⟩)))

/-- The matcher is that of the pattern. -/
theorem jobTypeRe_iff_match {s : String} : jobTypeRe s = true ↔ jobTypePattern.Match s := by
  rw [match_jobTypePattern, jobTypeRe]
  cases s.toList with
  | nil => exact ⟨nofun, fun ⟨_, _, _, h, _⟩ => nomatch h⟩
  | cons c cs =>
    simp only [Bool.and_eq_true, List.any_eq_true, List.mem_range, List.all_eq_true, atEnd,
      decide_eq_true_eq, List.cons.injEq]
    constructor
    · rintro ⟨hc, k, hk, hw, hend⟩
      refine ⟨c, cs.take k, cs.drop k, ⟨rfl, (List.take_append_drop k cs).symm⟩, hc, ?_, hw, hend⟩
      exact (List.length_take_le k cs).trans (Nat.le_of_lt_succ hk)
    · rintro ⟨c', w, e, ⟨rfl, rfl⟩, hc, hlength, hw, hend⟩
      refine ⟨hc, w.length, Nat.lt_succ_of_le hlength, ?_, ?_⟩
      · rwa [List.take_left]
      · rwa [List.drop_left]

/-- **A job type of the stated form**: 1 to 64 characters, the first of `a-z` and each other of
`a-z`, `0-9`, `_`, `.` and `-`. -/
structure JobTypeForm (s : String) : Prop where
  length_pos : 1 ≤ s.length
  length_le : s.length ≤ 64
  first : ∀ c ∈ s.toList.head?, 'a' ≤ c ∧ c ≤ 'z'
  others : ∀ c ∈ s.toList.tail, ('a' ≤ c ∧ c ≤ 'z') ∨ ('0' ≤ c ∧ c ≤ '9') ∨ c ∈ ['_', '.', '-']

theorem isTail_iff {c : Char} : isTail c = true ↔
    ('a' ≤ c ∧ c ≤ 'z') ∨ ('0' ≤ c ∧ c ≤ '9') ∨ c ∈ ['_', '.', '-'] := by
  simp only [isTail, isLower, Bool.or_eq_true, decide_eq_true_eq, or_assoc]

theorem jobTypeForm_iff {s : String} : JobTypeForm s ↔
    ∃ c w, s.toList = c :: w ∧ isLower c = true ∧ w.length ≤ 63 ∧ ∀ d ∈ w, isTail d = true := by
  constructor
  · rintro ⟨hpos, hle, hfirst, hothers⟩
    rw [← String.length_toList] at hpos hle
    cases hs : s.toList with
    | nil => simp [hs] at hpos
    | cons c w =>
      rw [hs] at hle hfirst hothers
      exact ⟨c, w, rfl, decide_eq_true (hfirst c rfl), Nat.le_of_succ_le_succ hle,
        fun d hd => isTail_iff.mpr (hothers d hd)⟩
  · rintro ⟨c, w, hs, hc, hlength, hw⟩
    refine ⟨?_, ?_, ?_, ?_⟩
    · rw [← String.length_toList, hs]
      exact Nat.le_add_left 1 w.length
    · rw [← String.length_toList, hs]
      exact Nat.succ_le_succ hlength
    · rw [hs]
      rintro _ ⟨⟩
      exact of_decide_eq_true hc
    · rw [hs]
      exact fun d hd => isTail_iff.mp (hw d hd)

/-- The pattern matches the types of the form, and those with a newline behind. -/
theorem jobTypeRe_iff_form {s : String} : jobTypeRe s = true ↔
    JobTypeForm s ∨ ∃ w, JobTypeForm w ∧ s = w ++ "\n" := by
  rw [jobTypeRe_iff_match, match_jobTypePattern]
  constructor
  · rintro ⟨c, w, e, hs, hc, hlength, hw, rfl | rfl⟩
    · rw [List.append_nil] at hs
      exact Or.inl (jobTypeForm_iff.mpr ⟨c, w, hs, hc, hlength, hw⟩)
    · refine Or.inr ⟨.ofList (c :: w), jobTypeForm_iff.mpr ⟨c, w, ?_, hc, hlength, hw⟩, ?_⟩
      · exact String.toList_ofList
      · exact String.toList_inj.mp (hs.trans (by simp))
  · rintro (h | ⟨t, h, rfl⟩)
    · obtain ⟨c, w, hs, hc, hlength, hw⟩ := jobTypeForm_iff.mp h
      exact ⟨c, w, [], by rw [hs, List.append_nil], hc, hlength, hw, Or.inl rfl⟩
    · obtain ⟨c, w, hs, hc, hlength, hw⟩ := jobTypeForm_iff.mp h
      exact ⟨c, w, ['\n'], by simp [hs], hc, hlength, hw, Or.inr rfl⟩

/-- A type of the form does not end in a newline. -/
theorem JobTypeForm.not_newline {s : String} (h : JobTypeForm s) :
    ¬ ∃ w, JobTypeForm w ∧ s = w ++ "\n" := by
  rintro ⟨w, hw, rfl⟩
  obtain ⟨c, cs, hs, -⟩ := jobTypeForm_iff.mp hw
  have hnewline := h.others '\n' (by simp [hs])
  exact absurd hnewline (by decide)

/-- **A job type is accepted just when it has the stated form, unless** it is a type of that form
with a newline behind, in a body that has no other fault. -/
theorem jobType_accepted_iff (s : String) (o : Payload) (payload : Option Payload)
    (htype : o.lookup "job_type" = some (.scalar (.str s)))
    (hpayload : payloadField o = .ok payload)
    (hextra : ∀ k ∈ o.keys, k = "job_type" ∨ k = "payload") :
    ((∃ body, CreateJobRequest.validate (.json (.object o)) = .ok body) ↔ JobTypeForm s) ↔
      ¬ ∃ w, JobTypeForm w ∧ s = w ++ "\n" := by
  have haccepted : (∃ body, CreateJobRequest.validate (.json (.object o)) = .ok body) ↔
      jobTypeRe s = true := by
    constructor
    · rintro ⟨body, hbody⟩
      obtain ⟨o', ho, htype', -⟩ := CreateJobRequest.validate_eq_ok.mp hbody
      obtain rfl := Document.object.inj (Input.json.inj ho)
      obtain rfl := Scalar.str.inj (Json.scalar.inj (Option.some.inj (htype.symm.trans htype')))
      exact body.validType
    · intro hs
      exact ⟨⟨s, payload, hs⟩, CreateJobRequest.validate_eq_ok.mpr
        ⟨o, rfl, htype, hpayload, hextra⟩⟩
  rw [haccepted, jobTypeRe_iff_form]
  constructor
  · rintro h hnewline
    exact (h.mp (Or.inr hnewline)).not_newline hnewline
  · exact fun h => or_iff_left h

/-- The body `{"job_type": s}`. -/
def bodyOfType (s : String) : Payload := (∅ : Payload).insert "job_type" (.scalar (.str s))

/-- Two characters are enough for a type. -/
theorem jobType_accepted_iff_short :
    ((∃ body, CreateJobRequest.validate (.json (.object (bodyOfType "a."))) = .ok body) ↔
      JobTypeForm "a.") ↔ ¬ ∃ w, JobTypeForm w ∧ "a." = w ++ "\n" :=
  jobType_accepted_iff "a." (bodyOfType "a.") none rfl rfl (by decide)

/-- With a newline behind, a type is accepted that does not have the form. -/
theorem jobType_accepted_newline :
    ¬ ((∃ body, CreateJobRequest.validate (.json (.object (bodyOfType "hello\n"))) = .ok body) ↔
      JobTypeForm "hello\n") := by
  intro h
  have hbody : CreateJobRequest.validate (.json (.object (bodyOfType "hello\n"))) =
      .ok ⟨"hello\n", none, by decide⟩ :=
    CreateJobRequest.validate_eq_ok.mpr ⟨_, rfl, rfl, rfl, by decide⟩
  exact absurd ((h.mp ⟨_, hbody⟩).others '\n' (by decide)) (by decide)

end Api

end JobWorkflow
