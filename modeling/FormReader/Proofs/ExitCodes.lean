import FormReader.CommandLine.Command
import FormReader.Proofs.Outcomes
import FormReader.Proofs.Stages

/-! # Exit codes — the stage that fails decides how a command ends

    A command line that is accepted asks for help or settles a job.  What holds
    of the settings of an empty command line and is kept by every single setting
    holds of what is settled in the end (`Kept.parse`).  So the format is known,
    unless its value was taken for none (`formatSettled`).

    How a job fails is known from the stages.  Every failure that a stage raises
    ends with the code of the stage and is told behind its label
    (`failed_of_raises`), and `Command.exit_by_stage` puts the two together. -/

namespace FormReader

/-! ## What command lines settle -/

namespace Arguments

/-- What holds of settings still holds when a source or a switch is added. -/
structure Kept (p : Settings → Prop) : Prop where
  source : ∀ {s : Settings} (t : Text), p s → p { s with source := some t }
  apply : ∀ {s s' : Settings} {setting : Setting},
    apply s setting = .ok (some s') → p s → p s'

namespace Kept

variable {p : Settings → Prop} (kept : Kept p)

include kept

theorem applyAll {s s' : Settings} {settings : List Setting}
    (h : applyAll s settings = .ok (some s')) (hs : p s) : p s' := by
  induction settings generalizing s with
  | nil =>
      obtain rfl := Option.some.inj (Except.ok.inj h)
      exact hs
  | cons setting rest ih =>
      cases hone : Arguments.apply s setting with
      | error e =>
          rw [Arguments.applyAll, hone] at h
          cases h
      | ok settled =>
          rw [Arguments.applyAll, hone] at h
          cases settled with
          | none => cases h
          | some s₁ => exact ih h (kept.apply hone hs)

theorem set {q q' : Progress} {settings : List Setting}
    (h : q.set settings = .ok (some q')) (hq : p q.settings) : p q'.settings := by
  cases hall : Arguments.applyAll q.settings settings with
  | error e =>
      rw [Progress.set, hall] at h
      cases h
  | ok settled =>
      rw [Progress.set, hall] at h
      cases settled with
      | none => cases h
      | some s =>
          obtain rfl := Option.some.inj (Except.ok.inj h)
          exact kept.applyAll hall hq

theorem takePlain {q : Progress} (hq : p q.settings) (words : List Word) :
    p (takePlain q words).settings := by
  unfold Arguments.takePlain
  split
  · exact hq
  · split
    · exact hq
    · exact hq
    · exact kept.source _ hq
    · exact kept.source _ hq
    · exact kept.source _ hq

/-- By the recursion over the words that are taken. -/
theorem take {q q' : Progress} {words : List Word} (h : take q words = .ok (some q'))
    (hq : p q.settings) : p q'.settings := by
  fun_induction Arguments.take q words with
  | case1 q =>
      obtain rfl := Option.some.inj (Except.ok.inj h)
      exact hq
  | case2 q t rest hplain =>
      obtain rfl := Option.some.inj (Except.ok.inj h)
      exact kept.takePlain hq _
  | case3 q t rest hmore htaken ih => exact ih h hq
  | case4 q t rest hmore hfree ih => exact ih h (kept.source t hq)
  | case5 q rest =>
      obtain rfl := Option.some.inj (Except.ok.inj h)
      exact kept.takePlain hq _
  | case6 q t rest ih => exact ih h hq
  | case7 => cases h
  | case8 => cases h
  | case9 => cases h
  | case10 q s joins attached settings rest hof q₁ hset ih => exact ih h (kept.set hset hq)
  | case11 => cases h
  | case12 => cases h
  | case13 q s joins attached settings s₁ value rest hof q₁ hset ih =>
      exact ih h (kept.set hset hq)
  | case14 => cases h

/-- **WHAT EVERY SETTING KEEPS HOLDS OF WHAT IS SETTLED**. -/
theorem parse {args : List Text} {settings : Settings}
    (h : parse args = .ok (.job settings)) (hdefault : p .default) : p settings := by
  unfold Arguments.parse at h
  cases hwords : Word.ofTexts args with
  | error e =>
      rw [hwords] at h
      cases h
  | ok words =>
      rw [hwords] at h
      dsimp only [bind, Except.bind] at h
      split at h
      · cases h
      · rename_i taken htaken
        cases taken with
        | none => cases h
        | some q =>
            dsimp only at h
            split at h
            · obtain rfl := Request.job.inj (Except.ok.inj h)
              exact kept.take htaken hdefault
            · cases h

end Kept

/-- The format is known, or its value was taken for none. -/
def FormatSettled (s : Settings) : Prop :=
  (∃ format, Format.ofName? s.formatName = some format) ∨ s.formatName = emptyFormat

theorem kept_formatSettled : Kept FormatSettled where
  source := fun _ hs => hs
  apply := by
    intro s s' setting h hs
    obtain ⟨switch, value⟩ := setting
    cases switch with
    | help => cases h
    | string =>
        obtain rfl := Option.some.inj (Except.ok.inj h)
        exact hs
    | lenient =>
        obtain rfl := Option.some.inj (Except.ok.inj h)
        exact hs
    | verbose =>
        obtain rfl := Option.some.inj (Except.ok.inj h)
        exact hs
    | out =>
        obtain rfl := Option.some.inj (Except.ok.inj h)
        exact hs
    | format =>
        rw [Arguments.apply] at h
        split at h
        · obtain rfl := Option.some.inj (Except.ok.inj h)
          exact .inr rfl
        · split at h
          · rename_i hknown
            obtain rfl := Option.some.inj (Except.ok.inj h)
            exact .inl (Option.isSome_iff_exists.mp hknown)
          · cases h

/-- The name that a format has without a value is the name of no format. -/
theorem unknown_emptyFormat : Format.ofName? emptyFormat = none := rfl

/-- **ONLY A VALUE TAKEN FOR NONE LEAVES THE FORMAT UNKNOWN**. -/
theorem formatName_of_unknown {args : List Text} {settings : Settings}
    (h : parse args = .ok (.job settings))
    (hunknown : Format.ofName? settings.formatName = none) :
    settings.formatName = emptyFormat := by
  have hdefault : FormatSettled .default := .inl ⟨.structured, rfl⟩
  rcases kept_formatSettled.parse h hdefault with ⟨format, hknown⟩ | hempty
  · cases hunknown.symm.trans hknown
  · exact hempty

end Arguments

/-! ## What is said of a failure -/

namespace Utf8

theorem escapeSurrogates_append (t u : Text) :
    escapeSurrogates (t ++ u) = escapeSurrogates t ++ escapeSurrogates u :=
  List.flatMap_append

/-- A text that can be encoded is said as it is. -/
theorem escapeSurrogates_of_encodable {t : Text} (h : t.Encodable) : escapeSurrogates t = t := by
  induction t with
  | nil => rfl
  | cons c t ih =>
      obtain ⟨hc, ht⟩ := List.forall_mem_cons.mp h
      have hone : escaped c = [c] := if_neg (Bool.eq_false_iff.mp hc)
      rw [escapeSurrogates, List.flatMap_cons, hone, ← escapeSurrogates, ih ht]
      rfl

end Utf8

namespace Stage

/-- The code that a command ends with where a stage fails. -/
def code : Stage → Nat
  | reading => 1
  | _ => 2

/-- What a complaint about a failing stage begins with. -/
def label : Stage → Text
  | reading => .of "Syntax error: "
  | _ => .of "Error: "

theorem encodable_label (stage : Stage) : stage.label.Encodable := by
  cases stage <;> decide

theorem code_eq_one {stage : Stage} : stage.code = 1 ↔ stage = .reading := by
  cases stage <;> decide

theorem code_eq_two {stage : Stage} : stage.code = 2 ↔ stage ≠ .reading := by
  cases stage <;> decide

theorem code_ne_zero (stage : Stage) : stage.code ≠ 0 := by
  cases stage <;> decide

theorem label_of_ne {stage : Stage} (h : stage ≠ .reading) : stage.label = .of "Error: " := by
  cases stage with
  | reading => exact absurd rfl h
  | _ => rfl

/-- What is displayed of a failure begins with the label of its stage. -/
theorem Raises.display {stage : Stage} {e : Failure} (h : stage.Raises e) :
    ∃ message, Outcome.display e = (stage.code, stage.label ++ message) := by
  cases h with
  | @reading e d hreports =>
      cases e with
      | unmatched token => exact ⟨_, rfl⟩
      | unexpected t => exact ⟨_, rfl⟩
      | source failure => cases hreports
  | naming => exact ⟨_, rfl⟩
  | opening e => exact ⟨_, rfl⟩
  | decoding e => exact ⟨_, rfl⟩
  | loading e => exact ⟨_, rfl⟩
  | formatting name => exact ⟨_, rfl⟩
  | creating e => exact ⟨_, rfl⟩
  | encoding e => exact ⟨_, rfl⟩

/-- **A FAILURE ENDS WITH THE CODE OF ITS STAGE**, and the complaint begins with
    its label, whatever else is shown. -/
theorem Raises.failed {stage : Stage} {e : Failure} (h : stage.Raises e) (verbose : Bool) :
    (Outcome.failed verbose e).code = stage.code ∧
      ∃ message, (Outcome.failed verbose e).complaint = stage.label ++ message := by
  obtain ⟨message, hdisplay⟩ := h.display
  rw [Outcome.failed, hdisplay]
  dsimp only
  refine ⟨rfl, Utf8.escapeSurrogates
    (message ++ (.of "\n" ++ if verbose then Outcome.trace e else [])), ?_⟩
  rw [List.append_assoc, List.append_assoc, Utf8.escapeSurrogates_append,
    Utf8.escapeSurrogates_of_encodable stage.encodable_label]

end Stage

/-! ## How a command ends -/

/-- A stage of the job that is asked for fails; where help is asked for, none
    does. -/
def Request.FailsAt (request : Request) (s : Surroundings) (stage : Stage) : Prop :=
  ∃ settings, request = .job settings ∧ settings.job.FailsAt s stage

namespace Job

variable {j : Job} {s : Surroundings} {stage : Stage}

/-- A run fails where a stage does, and says nothing by itself. -/
theorem run_cases (j : Job) (s : Surroundings) :
    (∃ r s', j.run s = (.ok r, s') ∧ s'.complaints = s.complaints ∧
      ∀ stage, ¬ j.FailsAt s stage) ∨
    ∃ e s' stage, j.run s = (.error e, s') ∧ s'.complaints = s.complaints ∧
      s'.output = s.output ∧ j.FailsAt s stage ∧ stage.Raises e := by
  have hends := j.ends s
  have hnone : ∀ {r s'}, j.run s = (.ok r, s') → ∀ stage, ¬ j.FailsAt s stage := by
    intro r s' hrun stage hfails
    obtain ⟨e, s₁, hfailed, -⟩ := run_of_failsAt hfails
    cases hrun.symm.trans hfailed
  rcases hrun : j.run s with ⟨answer, s'⟩
  rw [hrun] at hends
  cases hends with
  | shown hmakes hformat hshows hclean => exact .inl ⟨_, _, rfl, rfl, hnone hrun⟩
  | filed hmakes hformat hfiles hencode hwrites => exact .inl ⟨_, _, rfl, rfl, hnone hrun⟩
  | untouched hfails hraises hshows => exact .inr ⟨_, _, _, rfl, rfl, rfl, hfails, hraises⟩
  | emptied hfails hfiles hwrites => exact .inr ⟨_, _, _, rfl, rfl, rfl, hfails, .encoding _⟩

/-- All stages that fail have the code of the failure that is raised. -/
theorem code_of_failsAt {stage' : Stage} {e : Failure} {s' : Surroundings}
    (hrun : j.run s = (.error e, s')) (hraises : stage'.Raises e) (h : j.FailsAt s stage) :
    stage.code = stage'.code := by
  obtain ⟨e₁, s₁, hrun₁, hraises₁⟩ := run_of_failsAt h
  obtain ⟨he, -⟩ := Prod.mk.inj (hrun.symm.trans hrun₁)
  obtain rfl := Except.error.inj he
  obtain ⟨message, hdisplay⟩ := hraises.display
  obtain ⟨message₁, hdisplay₁⟩ := hraises₁.display
  exact (Prod.mk.inj (hdisplay₁.symm.trans hdisplay)).1

end Job

namespace Command

variable {args : List Text}

theorem run_of_help (hargs : Arguments.parse args = .ok .help) (s : Surroundings) :
    run args s = (0, { s with output := s.output ++ Usage.help }) := by
  rw [run, hargs]

theorem run_of_ok {settings : Settings} (hargs : Arguments.parse args = .ok (.job settings))
    {s s' : Surroundings} {r : Text} (hrun : settings.job.run s = (.ok r, s')) :
    run args s = run.conclude .success s' := by
  rw [run, hargs]
  dsimp only
  rw [hrun]

theorem run_of_error {settings : Settings} (hargs : Arguments.parse args = .ok (.job settings))
    {s s' : Surroundings} {e : Failure} (hrun : settings.job.run s = (.error e, s')) :
    run args s = run.conclude (.failed settings.verbose e) s' := by
  rw [run, hargs]
  dsimp only
  rw [hrun]

/-- No stage fails, or the command ends with the code and the label of one that
    does; the others that fail, if any, have the same code. -/
theorem run_cases {request : Request} (hargs : Arguments.parse args = .ok request)
    (s : Surroundings) :
    (∃ after, run args s = (0, after) ∧ after.complaints = s.complaints ∧
      ∀ stage, ¬ request.FailsAt s stage) ∨
    ∃ stage message after, run args s = (stage.code, after) ∧
      after.complaints = s.complaints ++ (stage.label ++ message) ∧
      after.output = s.output ∧ request.FailsAt s stage ∧
      ∀ other, request.FailsAt s other → other.code = stage.code := by
  cases request with
  | help =>
      refine .inl ⟨_, run_of_help hargs s, rfl, ?_⟩
      rintro stage ⟨settings, hjob, -⟩
      cases hjob
  | job settings =>
      obtain ⟨r, s', hrun, hcomplaints, hnone⟩ |
        ⟨e, s', stage, hrun, hcomplaints, houtput, hfails, hraises⟩ := settings.job.run_cases s
      · refine .inl ⟨_, run_of_ok hargs hrun, ?_, ?_⟩
        · exact (List.append_nil _).trans hcomplaints
        · rintro stage ⟨_, hjob, hfails⟩
          obtain rfl := Request.job.inj hjob
          exact hnone stage hfails
      · obtain ⟨hcode, message, hcomplaint⟩ := hraises.failed settings.verbose
        refine .inr ⟨stage, message, (run.conclude (.failed settings.verbose e) s').2, ?_, ?_,
          houtput, ⟨settings, rfl, hfails⟩, ?_⟩
        · rw [run_of_error hargs hrun, ← hcode]
          rfl
        · show s'.complaints ++ (Outcome.failed settings.verbose e).complaint = _
          rw [hcomplaints, hcomplaint]
        · rintro other ⟨_, hjob, hother⟩
          obtain rfl := Request.job.inj hjob
          exact Job.code_of_failsAt hrun hraises hother

/-- **THE STAGE THAT FAILS DECIDES HOW A COMMAND ENDS**, for every command line
    that is accepted: with code 1 and a syntax error where the tokens spell no
    forms, with code 2 and an error where another stage fails, and else with
    code 0 and no complaint.  Nothing is printed by a command that fails.  The
    format can only be what fails if it was given a value that counts as none. -/
theorem exit_by_stage {request : Request}
    (hargs : Arguments.parse args = .ok request) (s : Surroundings) :
    let code := (run args s).1
    let after := (run args s).2
    (code = 1 ↔ request.FailsAt s .reading) ∧
    (code = 2 ↔ ∃ stage, stage ≠ .reading ∧ request.FailsAt s stage) ∧
    (code = 0 ↔ ∀ stage, ¬ request.FailsAt s stage) ∧
    (code = 1 →
      ∃ message, after.complaints = s.complaints ++ (.of "Syntax error: " ++ message)) ∧
    (code = 2 → ∃ message, after.complaints = s.complaints ++ (.of "Error: " ++ message)) ∧
    (code = 0 → after.complaints = s.complaints) ∧
    (code ≠ 0 → after.output = s.output) ∧
    (request.FailsAt s .formatting → ∃ settings, request = .job settings ∧
      settings.formatName = Arguments.emptyFormat) := by
  intro code after
  have hformat : request.FailsAt s .formatting → ∃ settings, request = .job settings ∧
      settings.formatName = Arguments.emptyFormat := by
    rintro ⟨settings, rfl, hfails⟩
    cases hfails with
    | formatting hmakes hunknown =>
        exact ⟨settings, rfl, Arguments.formatName_of_unknown hargs hunknown⟩
  obtain ⟨after', hrun, hcomplaints, hnone⟩ |
    ⟨stage, message, after', hrun, hcomplaints, houtput, hfails, hall⟩ := run_cases hargs s
  · obtain ⟨hcode, rfl⟩ : code = 0 ∧ after = after' := Prod.mk.inj hrun
    rw [hcode]
    refine ⟨?_, ?_, ?_, ?_, ?_, ?_, ?_, hformat⟩
    · exact iff_of_false (by decide) (hnone _)
    · refine iff_of_false (by decide) ?_
      rintro ⟨stage, -, hfails⟩
      exact hnone stage hfails
    · exact iff_of_true rfl hnone
    · intro hone
      cases hone
    · intro htwo
      cases htwo
    · intro _
      exact hcomplaints
    · intro hne
      exact absurd rfl hne
  · obtain ⟨hcode, rfl⟩ : code = stage.code ∧ after = after' := Prod.mk.inj hrun
    rw [hcode]
    refine ⟨?_, ?_, ?_, ?_, ?_, ?_, ?_, hformat⟩
    · rw [Stage.code_eq_one]
      constructor
      · rintro rfl
        exact hfails
      · intro hreading
        exact Stage.code_eq_one.mp (hall _ hreading).symm
    · rw [Stage.code_eq_two]
      constructor
      · intro hstage
        exact ⟨stage, hstage, hfails⟩
      · rintro ⟨other, hother, hfails'⟩
        exact Stage.code_eq_two.mp ((hall _ hfails').symm.trans (Stage.code_eq_two.mpr hother))
    · refine iff_of_false stage.code_ne_zero ?_
      intro hnone
      exact hnone stage hfails
    · intro hone
      obtain rfl := Stage.code_eq_one.mp hone
      exact ⟨message, hcomplaints⟩
    · intro htwo
      rw [Stage.label_of_ne (Stage.code_eq_two.mp htwo)] at hcomplaints
      exact ⟨message, hcomplaints⟩
    · intro hzero
      exact absurd hzero stage.code_ne_zero
    · intro _
      exact houtput

/-- A list that is not closed is a syntax error. -/
theorem exit_by_stage_unclosed :
    ∃ args s request, Arguments.parse args = .ok request ∧ request.FailsAt s .reading ∧
      (run args s).1 = 1 ∧ (run args s).2.output = s.output ∧
      ∃ message,
        (run args s).2.complaints = s.complaints ++ (.of "Syntax error: " ++ message) := by
  let s : Surroundings := ⟨.fresh, [], [], []⟩
  have hload : Token.load (.of "[\x7b\"type\": \"LPAREN\"\x7d]")
      = .ok [Token.make (.of "LPAREN") [] 0 0] := by
    refine ok_of_toOption ?_
    decide +kernel
  have hargs : Arguments.parse [.of "-s", .of "[\x7b\"type\": \"LPAREN\"\x7d]"]
      = .ok (.job { Settings.default with
          source := some (.of "[\x7b\"type\": \"LPAREN\"\x7d]"), isString := true }) := by
    decide +kernel
  have hnone : ∀ fs, ¬ Spelled .strict [Token.make (.of "LPAREN") [] 0 0] fs := by
    intro fs hspelled
    have hread : (Printout.formsOf .strict [Token.make (.of "LPAREN") [] 0 0]).isOk = false := by
      decide +kernel
    rw [(formsOf_ok_iff ..).mpr hspelled] at hread
    cases hread
  obtain ⟨hone, -, -, hlabel, -, -, houtput, -⟩ := exit_by_stage hargs s
  have hcode := hone.mpr ⟨_, rfl, .reading ⟨_, .given rfl rfl, hload⟩ hnone⟩
  refine ⟨_, s, _, hargs, hone.mp hcode, hcode, houtput ?_, hlabel hcode⟩
  rw [hcode]
  exact Nat.one_ne_zero

/-- A surrogate in the name of a file has to stand for an octet. -/
example :
    let s : Surroundings := ⟨.fresh, [], [], []⟩
    let complaint : Text := .of "Error: 'utf-8' codec can't encode character '\\ud800'" ++
      .of " in position 0: surrogates not allowed\n"
    run [.of "-s", .of "[]", .of "-o", [.ofNat 0xD800]] s
        = (2, { s with complaints := complaint }) ∧
      (run [.of "-s", .of "[]", .of "-o", List.replicate 100 (.ofNat 0xDC80)] s).1 = 0 := by
  decide +kernel

/-- A format whose value counts as none is refused after everything has been
    read, though no other stage fails. -/
theorem exit_without_format :
    ∃ settings, Arguments.parse [.of "--format=--", .of "-s", .of "[]"] = .ok (.job settings) ∧
      run [.of "--format=--", .of "-s", .of "[]"] ⟨.fresh, [], [], []⟩
        = (2, ⟨.fresh, [], [], .of "Error: Unknown output format: []\n"⟩) ∧
      ∀ stage, settings.job.FailsAt ⟨.fresh, [], [], []⟩ stage → stage = .formatting := by
  let settings : Settings :=
    { Settings.default with
      source := some (.of "[]"), isString := true, formatName := Arguments.emptyFormat }
  refine ⟨settings, by decide +kernel, by decide +kernel, ?_⟩
  have hmakes : settings.job.Makes ⟨.fresh, [], [], []⟩ [] := by
    refine ⟨[], ⟨.of "[]", .given rfl rfl, ?_⟩, [], [], rfl, spells_nil.mpr rfl, rfl⟩
    refine ok_of_toOption ?_
    decide +kernel
  intro stage hfails
  obtain ⟨e, s', hrun, hraises⟩ := Job.run_of_failsAt hfails
  have hformat := Job.run_not_formatted hmakes Arguments.unknown_emptyFormat
  obtain ⟨he, -⟩ := Prod.mk.inj (hformat.symm.trans hrun)
  obtain rfl := Except.error.inj he
  cases hraises with
  | formatting => rfl

end Command

end FormReader
