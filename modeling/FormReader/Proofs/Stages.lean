import FormReader.CommandLine.Job
import FormReader.Proofs.Files
import FormReader.Proofs.Octets
import FormReader.Proofs.WholeInput

/-! # Stages — where a job fails, and what it leaves behind

    A job goes through stages, each of which works on what the one before it
    gave: octets (`Takes`), a text (`Supplies`), tokens (`Loads`), forms
    (`Makes`).  The forms are those that the tokens spell by the grammar; how
    they are read does not enter.  A stage fails in one way (`FailsAt`) and
    raises failures of one sort (`Stage.Raises`).

    `ends` runs through the stages once and says everything about a run: what
    it answers, where it failed if it did, and the surroundings afterwards.
    `run_of_failsAt` is the way back: where a stage fails, the run fails with a
    failure of its sort. -/

namespace FormReader

/-- The forms that tokens spell: before the first end come their spellings in a
    row, and nothing else but what the mode lets go. -/
def Spelled (mode : Mode) (tokens : List Token) (fs : List Form) : Prop :=
  ∃ ws rest, (tokens.takeWhile fun t => t.role ≠ .ending) = ws ++ rest ∧
    Spells ws (Form.lexemesAll fs) ∧ Exhausts mode rest

/-- Tokens that spell no forms are reported with a diagnostic. -/
theorem formsOf_of_unspelled {mode : Mode} {tokens : List Token}
    (h : ∀ fs, ¬ Spelled mode tokens fs) :
    ∃ e d, Printout.formsOf mode tokens = .error e ∧ e.diagnostic? = some d := by
  have hnone : ∀ fs, Printout.formsOf mode tokens ≠ .ok fs := by
    intro fs hforms
    exact h fs ((formsOf_ok_iff ..).mp hforms)
  obtain ⟨d, ⟨e, hforms, hreports⟩, -⟩ := formsOf_reports hnone
  exact ⟨e, d, hforms, hreports⟩

/-- A stage of a job. -/
inductive Stage where
  | naming
  | opening
  | decoding
  | loading
  | reading
  | formatting
  | creating
  | encoding
  deriving DecidableEq

/-- The failures that a stage raises. -/
inductive Stage.Raises : Stage → Failure → Prop
  | naming : Raises .naming .unsupported
  | opening (e : OpenError) : Raises .opening (.unopened e)
  | decoding (e : Utf8.DecodeError) : Raises .decoding (.undecodable e)
  | loading (e : Token.LoadError) : Raises .loading (.unprintable (.load e))
  /-- Tokens that are no forms are reported with a diagnostic. -/
  | reading {e : ReadError} {d : Diagnostic} (hreports : e.diagnostic? = some d) :
      Raises .reading (.unprintable (.read e))
  | formatting (name : Text) : Raises .formatting (.unprintable (.unknownFormat name))
  | creating (e : OpenError) : Raises .creating (.unopened e)
  | encoding (e : Utf8.EncodeError) : Raises .encoding (.unencodable e)

namespace Job

variable {j : Job} {s : Surroundings} {name t r : Text} {octets : Octets}

/-! ## What the stages work on -/

section

variable (j : Job) (s : Surroundings)

/-- The printout goes to the standard output. -/
def Shows : Prop := j.out = none ∨ j.out = some []

/-- The printout goes into a file of that name. -/
def Files (name : Text) : Prop := j.out = some name ∧ name ≠ []

/-- The text comes from a file of that name. -/
def Names (name : Text) : Prop := j.source = some name ∧ j.isString = false

/-- The octets that the text is decoded from: those of the standard input or of a
    token file. -/
inductive Takes : Octets → Prop
  | standardInput (hsource : j.source = none) : Takes s.standardInput
  | file {name : Text} {octets : Octets} (hnames : j.Names name)
      (hextension : extension.isSuffixOf name = true)
      (hread : s.files.read name = .ok octets) : Takes octets

/-- The text that tokens are loaded from.  What is given on the command line is
    taken as it is; in what is decoded, line ends become line feeds. -/
inductive Supplies : Text → Prop
  | given {t : Text} (hsource : j.source = some t) (hstring : j.isString = true) : Supplies t
  | decoded {octets : Octets} {t : Text} (htakes : j.Takes s octets)
      (hdecode : Utf8.decode octets = .ok t) : Supplies t.normalizeLineEnds

/-- The tokens that forms are read from. -/
def Loads (tokens : List Token) : Prop := ∃ t, j.Supplies s t ∧ Token.load t = .ok tokens

/-- The forms that are printed. -/
def Makes (fs : List Form) : Prop := ∃ tokens, j.Loads s tokens ∧ Spelled j.mode tokens fs

/-- The file to be written, if there is one, can be opened. -/
def Opens : Prop := ∀ name, j.Files name → ∃ made, s.files.create name = .ok made

/-- A stage gets what it works on, and fails. -/
inductive FailsAt : Stage → Prop
  | naming {name : Text} (hnames : j.Names name)
      (hextension : extension.isSuffixOf name = false) : FailsAt .naming
  | opening {name : Text} {e : OpenError} (hnames : j.Names name)
      (hextension : extension.isSuffixOf name = true)
      (hread : s.files.read name = .error e) : FailsAt .opening
  | decoding {octets : Octets} {e : Utf8.DecodeError} (htakes : j.Takes s octets)
      (hdecode : Utf8.decode octets = .error e) : FailsAt .decoding
  | loading {t : Text} {e : Token.LoadError} (hsupplies : j.Supplies s t)
      (hload : Token.load t = .error e) : FailsAt .loading
  /-- The tokens spell no forms. -/
  | reading {tokens : List Token} (hloads : j.Loads s tokens)
      (hnone : ∀ fs, ¬ Spelled j.mode tokens fs) : FailsAt .reading
  | formatting {fs : List Form} (hmakes : j.Makes s fs)
      (hformat : Format.ofName? j.formatName = none) : FailsAt .formatting
  | creating {fs : List Form} {format : Format} {name : Text} {e : OpenError}
      (hmakes : j.Makes s fs) (hformat : Format.ofName? j.formatName = some format)
      (hfiles : j.Files name) (hcreate : s.files.create name = .error e) : FailsAt .creating
  /-- The printout holds a surrogate. -/
  | encoding {fs : List Form} {format : Format} (hmakes : j.Makes s fs)
      (hformat : Format.ofName? j.formatName = some format) (hopens : j.Opens s)
      (hsurrogate : ¬ (format.print fs).Encodable) : FailsAt .encoding

/-- How a run ends: with an answer and with the surroundings afterwards. -/
inductive Ends : Except Failure Text × Surroundings → Prop
  | shown {fs : List Form} {format : Format} (hmakes : j.Makes s fs)
      (hformat : Format.ofName? j.formatName = some format) (hshows : j.Shows)
      (hclean : (format.print fs).Encodable) :
      Ends (.ok (format.print fs), { s with output := s.output ++ written (format.print fs) })
  | filed {fs : List Form} {format : Format} {name : Text} {octets : Octets} {files : FileTree}
      (hmakes : j.Makes s fs) (hformat : Format.ofName? j.formatName = some format)
      (hfiles : j.Files name) (hencode : Utf8.encode (written (format.print fs)) = .ok octets)
      (hwrites : s.files.Writes name octets files) :
      Ends (.ok (format.print fs), { s with files := files })
  /-- A failure leaves everything as it was. -/
  | untouched {stage : Stage} {e : Failure} (hfails : j.FailsAt s stage)
      (hraises : stage.Raises e) (hshows : stage ≠ .encoding ∨ j.Shows) : Ends (.error e, s)
  /-- The last failure comes too late for the file to be written, which is empty
      by then. -/
  | emptied {e : Utf8.EncodeError} {name : Text} {files : FileTree}
      (hfails : j.FailsAt s .encoding) (hfiles : j.Files name)
      (hwrites : s.files.Writes name [] files) :
      Ends (.error (.unencodable e), { s with files := files })

end

/-! ## The text -/

theorem read_given (hsource : j.source = some t) (hstring : j.isString = true) :
    read s j.input = .ok t := by
  have hinput : j.input = .text t := by
    rw [input, hsource]
    exact if_pos hstring
  rw [hinput, read]

theorem read_unsupported (hnames : j.Names name)
    (hextension : extension.isSuffixOf name = false) :
    read s j.input = .error .unsupported := by
  have hinput : j.input = .unsupported := by
    rw [input, hnames.1]
    show (if j.isString = true then _ else _) = _
    rw [if_neg (Bool.eq_false_iff.mp hnames.2), if_neg (Bool.eq_false_iff.mp hextension)]
  rw [hinput, read]

theorem input_file (hnames : j.Names name) (hextension : extension.isSuffixOf name = true) :
    j.input = .file name := by
  rw [input, hnames.1]
  show (if j.isString = true then _ else _) = _
  rw [if_neg (Bool.eq_false_iff.mp hnames.2), if_pos hextension]

theorem read_unopened (hnames : j.Names name) (hextension : extension.isSuffixOf name = true)
    {e : OpenError} (hread : s.files.read name = .error e) :
    read s j.input = .error (.unopened e) := by
  rw [input_file hnames hextension, read, hread]

/-- What is taken is decoded. -/
theorem read_of_takes (h : j.Takes s octets) : read s j.input = textOf octets := by
  cases h with
  | standardInput hsource => rw [input, hsource, read]
  | file hnames hextension hread => rw [input_file hnames hextension, read, hread]

theorem read_of_supplies (h : j.Supplies s t) : read s j.input = .ok t := by
  cases h with
  | given hsource hstring => exact read_given hsource hstring
  | decoded htakes hdecode =>
      rw [read_of_takes htakes, textOf, hdecode]
      rfl

theorem read_undecodable (htakes : j.Takes s octets) {e : Utf8.DecodeError}
    (hdecode : Utf8.decode octets = .error e) :
    read s j.input = .error (.undecodable e) := by
  rw [read_of_takes htakes, textOf, hdecode]
  rfl

/-- A text is supplied, or one of the first three stages fails. -/
theorem read_cases (j : Job) (s : Surroundings) :
    (∃ t, j.Supplies s t) ∨
      ∃ stage e, j.FailsAt s stage ∧ stage.Raises e ∧ stage ≠ .encoding ∧
        read s j.input = .error e := by
  have hdecoded : ∀ {octets}, j.Takes s octets → (∃ t, j.Supplies s t) ∨
      ∃ stage e, j.FailsAt s stage ∧ stage.Raises e ∧ stage ≠ .encoding ∧
        read s j.input = .error e := by
    intro octets htakes
    cases hdecode : Utf8.decode octets with
    | ok t => exact .inl ⟨_, .decoded htakes hdecode⟩
    | error e =>
        exact .inr ⟨_, _, .decoding htakes hdecode, .decoding e, by decide,
          read_undecodable htakes hdecode⟩
  cases hsource : j.source with
  | none => exact hdecoded (.standardInput hsource)
  | some name =>
      cases hstring : j.isString with
      | true => exact .inl ⟨name, .given hsource hstring⟩
      | false =>
          have hnames : j.Names name := ⟨hsource, hstring⟩
          cases hextension : extension.isSuffixOf name with
          | false =>
              exact .inr ⟨_, _, .naming hnames hextension, .naming, by decide,
                read_unsupported hnames hextension⟩
          | true =>
              cases hread : s.files.read name with
              | ok octets => exact hdecoded (.file hnames hextension hread)
              | error e =>
                  exact .inr ⟨_, _, .opening hnames hextension hread, .opening e, by decide,
                    read_unopened hnames hextension hread⟩

/-! ## The printout -/

theorem printout_of_load_error {e : Token.LoadError} (hload : Token.load t = .error e) :
    j.printout t = .error (.unprintable (.load e)) := by
  rw [printout, Printout.ofText, hload]
  rfl

theorem printout_of_unread {tokens : List Token} {e : ReadError}
    (hload : Token.load t = .ok tokens) (hforms : Printout.formsOf j.mode tokens = .error e) :
    j.printout t = .error (.unprintable (.read e)) := by
  rw [printout, Printout.ofText, hload]
  show Except.mapError _ (((Printout.formsOf j.mode tokens).mapError PrintError.read).bind _) = _
  rw [hforms]
  rfl

theorem printout_of_forms {tokens : List Token} {fs : List Form}
    (hload : Token.load t = .ok tokens) (hforms : Spelled j.mode tokens fs) :
    j.printout t = (Printout.print j.formatName fs).mapError .unprintable := by
  rw [printout, Printout.ofText, hload]
  show Except.mapError _ (((Printout.formsOf j.mode tokens).mapError PrintError.read).bind _) = _
  rw [(formsOf_ok_iff ..).mpr hforms]
  rfl

/-! ## Runs -/

theorem run_of_read_error {e : Failure} (hread : read s j.input = .error e) :
    j.run s = (.error e, s) := by
  rw [run, hread]

theorem run_of_printout_error (hsupplies : j.Supplies s t) {e : Failure}
    (hprintout : j.printout t = .error e) : j.run s = (.error e, s) := by
  rw [run, read_of_supplies hsupplies]
  dsimp only
  rw [hprintout]

/-- A printout is delivered. -/
theorem run_of_printout (hsupplies : j.Supplies s t) (hprintout : j.printout t = .ok r) :
    j.run s = ((deliver s r j.destination).1.map fun _ => r,
      (deliver s r j.destination).2) := by
  rw [run, read_of_supplies hsupplies]
  dsimp only
  rw [hprintout]
  dsimp only
  rcases deliver s r j.destination with ⟨answer, s'⟩
  cases answer with
  | ok _ => rfl
  | error e => rfl

/-! ## Delivery -/

theorem encodable_written : (written r).Encodable ↔ r.Encodable := by
  have hfeed : (Text.of "\n").Encodable := by decide
  exact Text.encodable_append.trans (and_iff_left hfeed)

theorem destination_of_shows (h : j.Shows) : j.destination = none := by
  rcases h with hout | hout
  · rw [destination, hout, Option.filter_none]
  · rw [destination, hout]
    rfl

theorem destination_of_files (h : j.Files name) : j.destination = some name := by
  obtain ⟨hout, hname⟩ := h
  rw [destination, hout, Option.filter_some, if_pos (by simpa using hname)]

theorem shows_or_files (j : Job) : j.Shows ∨ ∃ name, j.Files name := by
  cases hout : j.out with
  | none => exact .inl (.inl hout)
  | some name =>
      by_cases hname : name = []
      · exact .inl (.inr (hname ▸ hout))
      · exact .inr ⟨name, hout, hname⟩

/-- A printout goes to one place. -/
theorem not_files_of_shows (hshows : j.Shows) : ¬ j.Files name := by
  intro hfiles
  cases (destination_of_shows hshows).symm.trans (destination_of_files hfiles)

theorem files_unique {other : Text} (hname : j.Files name) (hother : j.Files other) :
    name = other :=
  Option.some.inj (hname.1.symm.trans hother.1)

theorem opens_of_shows (h : j.Shows) : j.Opens s := by
  intro name hfiles
  exact absurd hfiles (not_files_of_shows h)

theorem opens_of_files (hfiles : j.Files name) {made : Path × FileTree}
    (hcreate : s.files.create name = .ok made) : j.Opens s := by
  intro other hother
  obtain rfl := files_unique hfiles hother
  exact ⟨made, hcreate⟩

section

variable {fs : List Form} {format : Format}

theorem run_not_formatted (hmakes : j.Makes s fs)
    (hformat : Format.ofName? j.formatName = none) :
    j.run s = (.error (.unprintable (.unknownFormat j.formatName)), s) := by
  obtain ⟨tokens, ⟨t, hsupplies, hload⟩, hforms⟩ := hmakes
  refine run_of_printout_error hsupplies ?_
  rw [printout_of_forms hload hforms, Printout.print, hformat]
  rfl

theorem run_of_makes (hmakes : j.Makes s fs)
    (hformat : Format.ofName? j.formatName = some format) :
    j.run s = ((deliver s (format.print fs) j.destination).1.map fun _ => format.print fs,
      (deliver s (format.print fs) j.destination).2) := by
  obtain ⟨tokens, ⟨t, hsupplies, hload⟩, hforms⟩ := hmakes
  refine run_of_printout hsupplies ?_
  rw [printout_of_forms hload hforms, Printout.print, hformat]
  rfl

theorem run_shown (hmakes : j.Makes s fs) (hformat : Format.ofName? j.formatName = some format)
    (hshows : j.Shows) (hclean : (format.print fs).Encodable) :
    j.run s
      = (.ok (format.print fs), { s with output := s.output ++ written (format.print fs) }) := by
  rw [run_of_makes hmakes hformat, destination_of_shows hshows, deliver,
    Utf8.encode_of_encodable (encodable_written.mpr hclean)]
  rfl

theorem run_not_shown (hmakes : j.Makes s fs)
    (hformat : Format.ofName? j.formatName = some format) (hshows : j.Shows)
    {e : Utf8.EncodeError} (hencode : Utf8.encode (written (format.print fs)) = .error e) :
    j.run s = (.error (.unencodable e), s) := by
  rw [run_of_makes hmakes hformat, destination_of_shows hshows, deliver, hencode]
  rfl

theorem run_not_created (hmakes : j.Makes s fs)
    (hformat : Format.ofName? j.formatName = some format) (hfiles : j.Files name)
    {e : OpenError} (hcreate : s.files.create name = .error e) :
    j.run s = (.error (.unopened e), s) := by
  rw [run_of_makes hmakes hformat, destination_of_files hfiles, deliver, hcreate]
  rfl

theorem run_filed (hmakes : j.Makes s fs) (hformat : Format.ofName? j.formatName = some format)
    (hfiles : j.Files name) {path : Path} {opened : FileTree}
    (hcreate : s.files.create name = .ok (path, opened))
    (hencode : Utf8.encode (written (format.print fs)) = .ok octets) :
    j.run s = (.ok (format.print fs), { s with files := opened.put path (.file octets) }) := by
  rw [run_of_makes hmakes hformat, destination_of_files hfiles, deliver, hcreate]
  dsimp only
  rw [hencode]
  rfl

theorem run_emptied (hmakes : j.Makes s fs)
    (hformat : Format.ofName? j.formatName = some format) (hfiles : j.Files name) {path : Path}
    {opened : FileTree} (hcreate : s.files.create name = .ok (path, opened))
    {e : Utf8.EncodeError} (hencode : Utf8.encode (written (format.print fs)) = .error e) :
    j.run s = (.error (.unencodable e), { s with files := opened }) := by
  rw [run_of_makes hmakes hformat, destination_of_files hfiles, deliver, hcreate]
  dsimp only
  rw [hencode]
  rfl

/-- Forms that are made in a known format are printed, or one of the last two
    stages fails. -/
theorem ends_of_makes (hmakes : j.Makes s fs)
    (hformat : Format.ofName? j.formatName = some format) : j.Ends s (j.run s) := by
  have hfailed : ¬ (format.print fs).Encodable →
      ∃ e, Utf8.encode (written (format.print fs)) = .error e := by
    intro hsurrogate
    exact Utf8.encode_of_not_encodable (mt encodable_written.mp hsurrogate)
  obtain hshows | ⟨name, hfiles⟩ := j.shows_or_files
  · by_cases hclean : (format.print fs).Encodable
    · rw [run_shown hmakes hformat hshows hclean]
      exact .shown hmakes hformat hshows hclean
    · obtain ⟨e, hencode⟩ := hfailed hclean
      rw [run_not_shown hmakes hformat hshows hencode]
      exact .untouched (.encoding hmakes hformat (opens_of_shows hshows) hclean) (.encoding e)
        (.inr hshows)
  · cases hcreate : s.files.create name with
    | error e =>
        rw [run_not_created hmakes hformat hfiles hcreate]
        exact .untouched (.creating hmakes hformat hfiles hcreate) (.creating e)
          (.inl (by decide))
    | ok made =>
        obtain ⟨path, opened⟩ := made
        by_cases hclean : (format.print fs).Encodable
        · have hencode := Utf8.encode_of_encodable (encodable_written.mpr hclean)
          rw [run_filed hmakes hformat hfiles hcreate hencode]
          exact .filed hmakes hformat hfiles hencode (FileTree.writes_create_put hcreate _)
        · obtain ⟨e, hencode⟩ := hfailed hclean
          rw [run_emptied hmakes hformat hfiles hcreate hencode]
          exact .emptied (.encoding hmakes hformat (opens_of_files hfiles hcreate) hclean) hfiles
            (FileTree.writes_create hcreate)

end

/-- **HOW A JOB ENDS**. -/
theorem ends (j : Job) (s : Surroundings) : j.Ends s (j.run s) := by
  obtain ⟨t, hsupplies⟩ | ⟨stage, e, hfails, hraises, hstage, hread⟩ := read_cases j s
  · cases hload : Token.load t with
    | error e =>
        rw [run_of_printout_error hsupplies (printout_of_load_error hload)]
        exact .untouched (.loading hsupplies hload) (.loading e) (.inl (by decide))
    | ok tokens =>
        have hloads : j.Loads s tokens := ⟨t, hsupplies, hload⟩
        cases hforms : Printout.formsOf j.mode tokens with
        | error e =>
            have hnone : ∀ fs, ¬ Spelled j.mode tokens fs := by
              intro fs hspelled
              cases hforms.symm.trans ((formsOf_ok_iff ..).mpr hspelled)
            obtain ⟨e', d, hforms', hreports⟩ := formsOf_of_unspelled hnone
            obtain rfl := Except.error.inj (hforms.symm.trans hforms')
            rw [run_of_printout_error hsupplies (printout_of_unread hload hforms)]
            exact .untouched (.reading hloads hnone) (.reading hreports) (.inl (by decide))
        | ok fs =>
            have hmakes : j.Makes s fs := ⟨tokens, hloads, (formsOf_ok_iff ..).mp hforms⟩
            cases hformat : Format.ofName? j.formatName with
            | some format => exact ends_of_makes hmakes hformat
            | none =>
                rw [run_not_formatted hmakes hformat]
                exact .untouched (.formatting hmakes hformat) (.formatting _) (.inl (by decide))
  · rw [run_of_read_error hread]
    exact .untouched hfails hraises (.inl hstage)

/-- **A STAGE THAT FAILS IS REPORTED**. -/
theorem run_of_failsAt {stage : Stage} (h : j.FailsAt s stage) :
    ∃ e s', j.run s = (.error e, s') ∧ stage.Raises e := by
  cases h with
  | naming hnames hextension =>
      exact ⟨_, _, run_of_read_error (read_unsupported hnames hextension), .naming⟩
  | opening hnames hextension hread =>
      exact ⟨_, _, run_of_read_error (read_unopened hnames hextension hread), .opening _⟩
  | decoding htakes hdecode =>
      exact ⟨_, _, run_of_read_error (read_undecodable htakes hdecode), .decoding _⟩
  | loading hsupplies hload =>
      exact ⟨_, _, run_of_printout_error hsupplies (printout_of_load_error hload), .loading _⟩
  | reading hloads hnone =>
      obtain ⟨t, hsupplies, hload⟩ := hloads
      obtain ⟨e, d, hforms, hreports⟩ := formsOf_of_unspelled hnone
      exact ⟨_, _, run_of_printout_error hsupplies (printout_of_unread hload hforms),
        .reading hreports⟩
  | formatting hmakes hformat => exact ⟨_, _, run_not_formatted hmakes hformat, .formatting _⟩
  | creating hmakes hformat hfiles hcreate =>
      exact ⟨_, _, run_not_created hmakes hformat hfiles hcreate, .creating _⟩
  | encoding hmakes hformat hopens hsurrogate =>
      obtain ⟨e, hencode⟩ := Utf8.encode_of_not_encodable (mt encodable_written.mp hsurrogate)
      obtain hshows | ⟨name, hfiles⟩ := j.shows_or_files
      · exact ⟨_, _, run_not_shown hmakes hformat hshows hencode, .encoding e⟩
      · obtain ⟨⟨path, opened⟩, hcreate⟩ := hopens name hfiles
        exact ⟨_, _, run_emptied hmakes hformat hfiles hcreate hencode, .encoding e⟩

end Job

end FormReader
