import FormReader.Proofs.Exact
import FormReader.Proofs.Faithful
import FormReader.Proofs.Stages

/-! # Effects — what a job writes, and where

    The structured format writes ASCII and the literal format printable
    characters, so both can always be encoded.  The source format writes the
    texts of the leaves as they are: a printout can be encoded exactly if all of
    these can (`Format.encodable_print`).

    With this `Job.run_effects` reads off how a job ends.  A printout goes to one
    place and nothing else changes; a failure changes nothing, unless it is the
    last one possible, a surrogate in a leaf on its way into a file. -/

namespace FormReader

/-! ## Which printouts can be encoded -/

theorem Text.encodable_flatMap {α : Type} {xs : List α} {f : α → Text} :
    Text.Encodable (xs.flatMap f) ↔ ∀ x ∈ xs, (f x).Encodable :=
  List.forall_mem_flatMap

theorem Text.encodable_joined {separator : Text} (h : separator.Encodable) {ts : List Text} :
    (Text.joined separator ts).Encodable ↔ ∀ t ∈ ts, t.Encodable := by
  cases ts with
  | nil => exact iff_of_true (List.forall_mem_nil _) (List.forall_mem_nil _)
  | cons t ts =>
      rw [Text.joined, encodable_append, encodable_flatMap, List.forall_mem_cons]
      simp only [encodable_append, h, true_and]

/-- **THE TEXTS OF THE LEAVES ARE WRITTEN AS THEY ARE** in the source format, and
    what is around them can be encoded. -/
theorem Form.encodable_write_source (f : Form) :
    (f.write .source).Encodable ↔ ∀ a ∈ f.leaves, a.text.Encodable := by
  induction f using Tree.induction with
  | leaf a =>
      rw [write_leaf, Tree.leaves_leaf, List.forall_mem_singleton]
      rfl
  | call f xs hf hxs =>
      have hopening : (Text.of "(").Encodable := by decide
      have hspace : (Text.of " ").Encodable := by decide
      have hclosing : (Text.of ")").Encodable := by decide
      rw [write_call, Style.callText_source, Tree.forall_leaves_call, List.flatMap_map]
      simp only [Text.encodable_append, Text.encodable_flatMap, hopening, hspace, hclosing,
        true_and, and_true]
      exact and_congr hf (forall₂_congr hxs)

namespace Format

/-- **WHICH PRINTOUTS CAN BE ENCODED**: all of them in two formats, and in the
    source format those of forms without a surrogate in a leaf. -/
theorem encodable_print (format : Format) (fs : List Form) :
    (format.print fs).Encodable ↔
      (format = .source → ∀ f ∈ fs, ∀ a ∈ f.leaves, a.text.Encodable) := by
  cases format with
  | structured =>
      refine iff_of_true ?_ fun hformat => absurd hformat (by decide)
      intro c hc
      have hascii := ascii_print fs c hc
      simp only [CodePoint.isSurrogate, Bool.and_eq_false_iff, decide_eq_false_iff_not]
      omega
  | literal =>
      exact iff_of_true (encodable_print_literal fs) fun hformat => absurd hformat (by decide)
  | source =>
      have hfeed : (Text.of "\n").Encodable := by decide
      show (Text.joined (.of "\n") (fs.map (Form.write .source))).Encodable ↔ _
      rw [Text.encodable_joined hfeed, List.forall_mem_map]
      simp only [Form.encodable_write_source, forall_const]

theorem eq_of_ofName? {name : Text} {format : Format} (h : ofName? name = some format) :
    format.name = name := by
  have hfound := List.find?_some h
  exact of_decide_eq_true hfound

theorem ofName?_name (format : Format) : ofName? format.name = some format := by
  cases format with
  | structured => rfl
  | source => rfl
  | literal => rfl

end Format

/-! ## What a job writes -/

namespace Job

variable {j : Job} {s : Surroundings}

theorem makes_unique {fs gs : List Form} (hfs : j.Makes s fs) (hgs : j.Makes s gs) :
    fs = gs := by
  obtain ⟨tokens, ⟨t, hsupplies, hload⟩, hspelled⟩ := hfs
  obtain ⟨tokens', ⟨t', hsupplies', hload'⟩, hspelled'⟩ := hgs
  have htext := (read_of_supplies hsupplies).symm.trans (read_of_supplies hsupplies')
  obtain rfl := Except.ok.inj htext
  obtain rfl := Except.ok.inj (hload.symm.trans hload')
  rw [Spelled, ← formsOf_ok_iff] at hspelled hspelled'
  exact Except.ok.inj (hspelled.symm.trans hspelled')

theorem encoding_of_unencodable {flaw : Utf8.EncodeError}
    (h : (j.run s).1 = .error (.unencodable flaw)) : j.FailsAt s .encoding := by
  have hends := j.ends s
  rcases hrun : j.run s with ⟨answer, s'⟩
  rw [hrun] at h hends
  obtain rfl : answer = .error (.unencodable flaw) := h
  cases hends with
  | untouched hfails hraises hshows =>
      cases hraises with
      | encoding => exact hfails
  | emptied hfails hfiles hwrites => exact hfails

/-- What cannot be opened is the source or the file to be written. -/
theorem named_of_unopened {e : OpenError} (h : (j.run s).1 = .error (.unopened e)) :
    ∃ name, (j.Names name ∧ s.files.read name = .error e) ∨
      (j.Files name ∧ s.files.create name = .error e) := by
  have hsame : ∀ {e' s'}, j.run s = (.error (.unopened e'), s') → e' = e := by
    intro e' s' hrun
    rw [hrun] at h
    exact Failure.unopened.inj (Except.error.inj h)
  have hends := j.ends s
  rcases hrun : j.run s with ⟨answer, s'⟩
  rw [hrun] at h hends
  obtain rfl : answer = .error (.unopened e) := h
  cases hends with
  | untouched hfails hraises hshows =>
      cases hraises with
      | opening =>
          cases hfails with
          | opening hnames hextension hread =>
              obtain rfl := hsame (run_of_read_error (read_unopened hnames hextension hread))
              exact ⟨_, .inl ⟨hnames, hread⟩⟩
      | creating =>
          cases hfails with
          | creating hmakes hformat hfiles hcreate =>
              obtain rfl := hsame (run_not_created hmakes hformat hfiles hcreate)
              exact ⟨_, .inr ⟨hfiles, hcreate⟩⟩

/-- A name that has no octets is an argument with a surrogate. -/
theorem not_encodable_of_unopened {flaw : Utf8.EncodeError} {name : Text}
    (h : (j.run s).1 = .error (.unopened ⟨.unencodable flaw, name⟩)) :
    (j.Names name ∨ j.Files name) ∧ ¬ name.Encodable := by
  have hsurrogate : ∀ {t}, Utf8.encodeName t = .error flaw → ¬ t.Encodable := by
    intro t hencode hclean
    rw [Utf8.encodeName_of_encodable hclean, Utf8.encode_of_encodable hclean] at hencode
    cases hencode
  obtain ⟨_, ⟨hnames, hread⟩ | ⟨hfiles, hcreate⟩⟩ := named_of_unopened h
  · obtain ⟨rfl, hencode⟩ := FileTree.read_unencodable.mp hread
    exact ⟨.inl hnames, hsurrogate hencode⟩
  · obtain ⟨rfl, hencode⟩ := FileTree.create_unencodable.mp hcreate
    exact ⟨.inr hfiles, hsurrogate hencode⟩

/-- A printout with a surrogate is one in the source format. -/
theorem source_of_encoding (h : j.FailsAt s .encoding) : j.formatName = Format.source.name := by
  cases h with
  | encoding hmakes hformat hopens hsurrogate =>
      rename_i fs format
      rw [Format.encodable_print] at hsurrogate
      obtain ⟨rfl, -⟩ := Classical.not_imp.mp hsurrogate
      exact (Format.eq_of_ofName? hformat).symm

/-- **WHAT A JOB WRITES, AND WHERE**.  The forms in print and a line feed are added
    to the standard output, or they are all that a file holds then; nothing else
    is changed.  A failure changes nothing, except that a printout which cannot be
    encoded leaves the file empty that it was to be written to.  That happens in
    the source format only, and there, once the forms are made and the file is
    open, exactly if a surrogate occurs in a leaf.  What else cannot be encoded is
    the name of a file that holds a surrogate itself. -/
theorem run_effects (j : Job) (s : Surroundings) :
    (∀ r s', j.run s = (.ok r, s') →
      (∃ fs format, j.Makes s fs ∧ Format.ofName? j.formatName = some format ∧
        r = format.print fs) ∧
      (j.Shows → s' = { s with output := s.output ++ written r }) ∧
      ∀ name, j.Files name → ∃ octets files, Utf8.encode (written r) = .ok octets ∧
        Utf8.decode octets = .ok (written r) ∧ s.files.Writes name octets files ∧
        s' = { s with files := files }) ∧
    (∀ e s', j.run s = (.error e, s') →
      (s' = s ∧ ∀ flaw, e = .unencodable flaw → j.Shows) ∨
      ∃ flaw name files, e = .unencodable flaw ∧ j.Files name ∧
        s.files.Writes name [] files ∧ s' = { s with files := files }) ∧
    (∀ flaw, (j.run s).1 = .error (.unencodable flaw) → j.formatName = Format.source.name) ∧
    (∀ fs, j.Makes s fs → j.Opens s → j.formatName = Format.source.name →
      ((∃ flaw, (j.run s).1 = .error (.unencodable flaw)) ↔
        ∃ f ∈ fs, ∃ a ∈ f.leaves, ∃ c ∈ a.text, c.isSurrogate = true)) ∧
    (∀ flaw name, (j.run s).1 = .error (.unopened ⟨.unencodable flaw, name⟩) →
      (j.Names name ∨ j.Files name) ∧ ∃ c ∈ name, c.isSurrogate = true) := by
  have hends := j.ends s
  refine ⟨?_, ?_, ?_, ?_, ?_⟩
  · intro r s' hrun
    rw [hrun] at hends
    cases hends with
    | shown hmakes hformat hshows hclean =>
        refine ⟨⟨_, _, hmakes, hformat, rfl⟩, fun _ => rfl, ?_⟩
        intro name hfiles
        exact absurd hfiles (not_files_of_shows hshows)
    | filed hmakes hformat hfiles hencode hwrites =>
        refine ⟨⟨_, _, hmakes, hformat, rfl⟩,
          fun hshows => absurd hfiles (not_files_of_shows hshows), ?_⟩
        intro name hname
        obtain rfl := files_unique hfiles hname
        exact ⟨_, _, hencode, Utf8.decode_encode hencode, hwrites, rfl⟩
  · intro e s' hrun
    rw [hrun] at hends
    cases hends with
    | untouched hfails hraises hshows =>
        refine .inl ⟨rfl, ?_⟩
        rintro flaw rfl
        cases hraises with
        | encoding => exact hshows.resolve_left (by decide)
    | emptied hfails hfiles hwrites => exact .inr ⟨_, _, _, rfl, hfiles, hwrites, rfl⟩
  · intro flaw hrun
    exact source_of_encoding (encoding_of_unencodable hrun)
  · intro fs hmakes hopens hname
    have hformat : Format.ofName? j.formatName = some .source := by
      rw [hname, Format.ofName?_name]
    have hsurrogate : ¬ (Format.print .source fs).Encodable ↔
        ∃ f ∈ fs, ∃ a ∈ f.leaves, ∃ c ∈ a.text, c.isSurrogate = true := by
      simp only [Format.encodable_print, forall_const, not_forall, exists_prop,
        Text.not_encodable]
    rw [← hsurrogate]
    constructor
    · rintro ⟨flaw, hrun⟩
      cases encoding_of_unencodable hrun with
      | encoding hmakes' hformat' hopens' hsurrogate' =>
          obtain rfl := makes_unique hmakes hmakes'
          obtain rfl := Option.some.inj (hformat.symm.trans hformat')
          exact hsurrogate'
    · intro hfails
      obtain ⟨e, s', hrun, hraises⟩ :=
        run_of_failsAt (.encoding hmakes hformat hopens hfails)
      cases hraises with
      | encoding flaw => exact ⟨flaw, congrArg Prod.fst hrun⟩
  · intro flaw name hrun
    obtain ⟨hargument, hsurrogate⟩ := not_encodable_of_unopened hrun
    exact ⟨hargument, Text.not_encodable.mp hsurrogate⟩

/-- A surrogate on its way into a file. -/
example :
    let j : Job := {
      source := some (.of "[\x7b\"type\": \"IDENT\", \"value\": \"\\ud800\"\x7d]")
      isString := true, formatName := .of "sexp", out := some (.of "f"), mode := .strict }
    let s : Surroundings := ⟨.fresh, [], [], []⟩
    s.files.read (.of "f") = .error ⟨.notFound, .of "f"⟩ ∧
      (j.run s).2.files.read (.of "f") = .ok [] := by
  decide +kernel

end Job

end FormReader
