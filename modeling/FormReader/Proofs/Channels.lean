import FormReader.Proofs.Rewrapping
import FormReader.Proofs.Stages

/-! # Channels — a text is treated alike wherever it comes from

    A text can be given on the command line, in a token file and on the standard
    input.  The last two are read with their line ends normalised, so a job may
    see two texts, the same up to line ends.

    Tokens are loaded from the one exactly if they are from the other, and then
    they are the same (`Token.load_upToLineEnds`); only what is complained of may
    differ, which is known by its place.  What comes after loading knows the
    tokens alone (`printout_eq_of_load`), and what is delivered does not depend
    on the standard input (`deliver_feeding`). -/

namespace FormReader

theorem Token.load_upToLineEnds {t u : Text} {tokens : List Token} (htexts : t.UpToLineEnds u)
    (h : load t = .ok tokens) : load u = .ok tokens := by
  cases hdecode : Json.decode t with
  | error e =>
      rw [load, hdecode] at h
      cases h
  | ok v =>
      rw [load, hdecode] at h
      rw [load, Json.decode_upToLineEnds htexts hdecode]
      exact h

/-- The surroundings with other octets on the standard input. -/
def Surroundings.feeding (s : Surroundings) (octets : Octets) : Surroundings :=
  { s with standardInput := octets }

namespace Job

/-! ## One job, three channels -/

section

variable (j : Job)

/-- The job with its text given on the command line. -/
def given (t : Text) : Job := { j with source := some t, isString := true }

/-- The job with its text in a token file. -/
def filed (name : Text) : Job := { j with source := some name, isString := false }

/-- The job with its text on the standard input. -/
def piped : Job := { j with source := none }

variable (s : Surroundings)

/-- No tokens are loaded, and nothing else happens. -/
def LoadsNothing : Prop := ∃ e, j.run s = (.error (.unprintable (.load e)), s)

variable (t name : Text) (octets : Octets)

/-- Whichever way the text comes, no tokens are loaded from it. -/
structure Unloaded : Prop where
  given : (j.given t).LoadsNothing s
  filed : (j.filed name).LoadsNothing s
  piped : j.piped.LoadsNothing (s.feeding octets)

/-- Whichever way the text comes, the answer is the same, a failure included, and
    so is everything that is left behind. -/
structure Alike : Prop where
  filed : (j.filed name).run s = (j.given t).run s
  piped : j.piped.run (s.feeding octets) = Prod.map id (·.feeding octets) ((j.given t).run s)

end

/-! ## What a run depends on -/

variable {j : Job} {s : Surroundings} {t u : Text}

/-- The standard input is not looked at when a printout is delivered. -/
theorem deliver_feeding (s : Surroundings) (octets : Octets) (printout : Text)
    (destination : Option Text) :
    deliver (s.feeding octets) printout destination
      = Prod.map id (·.feeding octets) (deliver s printout destination) := by
  cases destination with
  | none =>
      unfold deliver
      cases Utf8.encode (written printout) with
      | ok _ => rfl
      | error e => rfl
  | some name =>
      unfold deliver Surroundings.feeding
      dsimp only
      cases s.files.create name with
      | error e => rfl
      | ok made =>
          obtain ⟨path, opened⟩ := made
          cases Utf8.encode (written printout) with
          | ok _ => rfl
          | error e => rfl

/-- Loading aside, a job looks at nothing but the tokens. -/
theorem printout_eq_of_load (h : Token.load t = Token.load u) : j.printout t = j.printout u := by
  rw [printout, printout, Printout.ofText, Printout.ofText, h]

/-- Jobs that print the same of their texts, and to the same place, run alike. -/
theorem run_eq_of_printout {k : Job} (hj : j.Supplies s t) (hk : k.Supplies s u)
    (hprintout : j.printout t = k.printout u) (hdestination : j.destination = k.destination) :
    j.run s = k.run s := by
  cases hr : k.printout u with
  | error e =>
      rw [run_of_printout_error hk hr, run_of_printout_error hj (hprintout.trans hr)]
  | ok r =>
      rw [run_of_printout hk hr, run_of_printout hj (hprintout.trans hr), hdestination]

/-- Where the text is given, the standard input does not matter. -/
theorem run_given_feeding (octets : Octets) :
    (j.given t).run (s.feeding octets)
      = Prod.map id (·.feeding octets) ((j.given t).run s) := by
  have hsupplies : ∀ s', (j.given t).Supplies s' t := fun _ => .given rfl rfl
  cases hr : (j.given t).printout t with
  | error e =>
      rw [run_of_printout_error (hsupplies _) hr, run_of_printout_error (hsupplies _) hr]
      rfl
  | ok r =>
      rw [run_of_printout (hsupplies _) hr, run_of_printout (hsupplies _) hr, deliver_feeding]
      rfl

theorem loadsNothing_of_supplies (h : j.Supplies s t) {e : Token.LoadError}
    (hload : Token.load t = .error e) : j.LoadsNothing s :=
  ⟨e, run_of_printout_error h (printout_of_load_error hload)⟩

/-! ## The channels -/

section

variable {name : Text} {octets : Octets} (hencode : Utf8.encode t = .ok octets)
include hencode

theorem supplies_filed (hextension : extension.isSuffixOf name = true)
    (hread : s.files.read name = .ok octets) :
    (j.filed name).Supplies s t.normalizeLineEnds :=
  .decoded (.file ⟨rfl, rfl⟩ hextension hread) (Utf8.decode_encode hencode)

theorem supplies_piped : j.piped.Supplies (s.feeding octets) t.normalizeLineEnds :=
  .decoded (.standardInput rfl) (Utf8.decode_encode hencode)

/-- If the two texts load alike, nobody can tell the channels apart. -/
theorem alike_of_load (hextension : extension.isSuffixOf name = true)
    (hread : s.files.read name = .ok octets)
    (hload : Token.load t.normalizeLineEnds = Token.load t) : j.Alike s t name octets where
  filed := by
    have hprintout : (j.filed name).printout t.normalizeLineEnds = (j.given t).printout t :=
      printout_eq_of_load (j := j) hload
    exact run_eq_of_printout (supplies_filed hencode hextension hread) (.given rfl rfl) hprintout
      rfl
  piped := by
    have hprintout : j.piped.printout t.normalizeLineEnds = (j.given t).printout t :=
      printout_eq_of_load (j := j) hload
    rw [← run_given_feeding]
    exact run_eq_of_printout (supplies_piped hencode) (.given rfl rfl) hprintout rfl

end

/-- **THE CHANNELS AGREE**.  A text without surrogates can be given on the command
    line, in a token file and on the standard input.  Either no tokens are loaded
    from it, whichever way it comes, or the job ends alike in all three ways; and
    it always does, with the same complaints, if the text has no carriage
    return. -/
theorem channels_agree (j : Job) {t : Text} (ht : t.Encodable) :
    ∃ octets, Utf8.encode t = .ok octets ∧
      ∀ (s : Surroundings) (name : Text), extension.isSuffixOf name = true →
        s.files.read name = .ok octets →
        (j.Unloaded s t name octets ∨ j.Alike s t name octets) ∧
          (CodePoint.ofChar '\r' ∉ t → j.Alike s t name octets) := by
  have hencode := Utf8.encode_of_encodable ht
  refine ⟨_, hencode, ?_⟩
  intro s name hextension hread
  have htexts := t.upToLineEnds_normalizeLineEnds
  constructor
  · cases hload : Token.load t with
    | ok tokens =>
        refine .inr (alike_of_load hencode hextension hread ?_)
        rw [hload, Token.load_upToLineEnds htexts hload]
    | error e =>
        cases hload' : Token.load t.normalizeLineEnds with
        | ok tokens => cases hload.symm.trans (Token.load_upToLineEnds htexts.symm hload')
        | error e' =>
            exact .inl {
              given := loadsNothing_of_supplies (.given rfl rfl) hload
              filed := loadsNothing_of_supplies (supplies_filed hencode hextension hread) hload'
              piped := loadsNothing_of_supplies (supplies_piped hencode) hload' }
  · intro hreturn
    refine alike_of_load hencode hextension hread ?_
    rw [Text.normalizeLineEnds_of_not_mem hreturn]

/-- Line ends of two code points between the tokens do not matter; a text without
    a carriage return that breaks off is complained of alike. -/
theorem channels_agree_lines :
    ∃ (j : Job) (t u : Text) (s : Surroundings) (octets : Octets),
      CodePoint.ofChar '\r' ∈ t ∧ j.Alike s t (.of "t.json") octets ∧
        ((j.given t).run s).1.toOption = some (.of "1") ∧
        ∃ octets', CodePoint.ofChar '\r' ∉ u ∧ j.Alike s u (.of "u.json") octets' ∧
          ((j.given u).run s).1.toOption = none := by
  let j : Job := ⟨none, false, .of "sexp", none, .strict⟩
  let t : Text := .of "[\r\n\x7b\"type\": \"NUMBER\",\r\"value\": \"1\"\x7d]\r\n"
  let u : Text := .of "[\n"
  let files := (FileTree.fresh.place (.of "t.json") (.file (t.flatMap Utf8.octetsOf))).place
    (.of "u.json") (.file (u.flatMap Utf8.octetsOf))
  let s : Surroundings := ⟨files, [], [], []⟩
  have ht : t.Encodable := by decide +kernel
  have hu : u.Encodable := by decide +kernel
  obtain ⟨octets, hencode, hagree⟩ := channels_agree j ht
  obtain ⟨octets', hencode', hagree'⟩ := channels_agree j hu
  obtain rfl := Except.ok.inj ((Utf8.encode_of_encodable ht).symm.trans hencode)
  obtain rfl := Except.ok.inj ((Utf8.encode_of_encodable hu).symm.trans hencode')
  have hprints : ((j.given t).run s).1.toOption = some (.of "1") := by decide +kernel
  have halike : j.Alike s t (.of "t.json") (t.flatMap Utf8.octetsOf) := by
    refine (hagree s (.of "t.json") (by decide +kernel) (by decide +kernel)).1.resolve_left ?_
    intro hunloaded
    obtain ⟨e, hrun⟩ := hunloaded.given
    rw [hrun] at hprints
    cases hprints
  have halike' : j.Alike s u (.of "u.json") (u.flatMap Utf8.octetsOf) :=
    (hagree' s (.of "u.json") (by decide +kernel) (by decide +kernel)).2 (by decide +kernel)
  exact ⟨j, t, u, s, _, by decide +kernel, halike, hprints, _, by decide +kernel, halike',
    by decide +kernel⟩

/-- With a carriage return, the place of an error depends on the channel. -/
example :
    let t : Text := .of "\r\n["
    let octets : Octets := t.flatMap Utf8.octetsOf
    let j : Job := ⟨none, false, .of "sexp", none, .strict⟩
    let s : Surroundings := ⟨.fresh, octets, [], []⟩
    (((j.given t).run s).1.mapError Failure.message
        = .error (.of "Invalid token JSON: Expecting value: line 2 column 2 (char 3)")) ∧
      ((j.piped.run s).1.mapError Failure.message
        = .error (.of "Invalid token JSON: Expecting value: line 2 column 2 (char 2)")) := by
  decide +kernel

end Job

end FormReader
