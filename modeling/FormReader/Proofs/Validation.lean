import FormReader.Proofs.Outcomes
import FormReader.Token.Loader

/-! # Validation — which values are token files

    Loading decides by the decoded value alone.  A value is taken if it is an
    array of ENTRIES: objects that name a kind and whose text, line and column
    are missing or hold a text or an integer (`WellFormed`).  An entry says all
    about its token (`Describes`).  A value that is no entry has a first OFFENCE
    (`Offends`): it is no object, or one of its members is the first that does
    not hold what it should, in the order kind, text, line, column.

    The reader of a member that may be missing answers what the member gives, or
    complains of what violates its form (`Reads`), whatever the form is.  From
    there on two facts carry the argument: checks in a row fail where the first
    one to fail does (`bind_eq_error_iff`), and so does a check of every element
    of a list (`mapM_eq_error_iff`). -/

namespace FormReader

/-! ## Members that may be missing -/

namespace Json.Members

variable {α : Type} {ms : Members} {name : Text} {form : α → Json}
  {missing x y : α} {v : Json}

/-- The member is missing or holds a value of the form. -/
def Admits (ms : Members) (name : Text) (form : α → Json) : Prop :=
  ∀ v, ms.find? name = some v → ∃ x, v = form x

/-- The member holds a value that is not of the form. -/
def Violates (ms : Members) (name : Text) (form : α → Json) (v : Json) : Prop :=
  ms.find? name = some v ∧ ∀ x, v ≠ form x

/-- The member holds `x` in the form, or is missing and `x` stands for it. -/
def Gives (ms : Members) (name : Text) (form : α → Json) (missing x : α) :
    Prop :=
  ms.find? name = some (form x) ∨ ms.find? name = none ∧ x = missing

/-- A member that is admitted gives something. -/
theorem admits_iff (missing : α) :
    ms.Admits name form ↔ ∃ x, ms.Gives name form missing x := by
  constructor
  · intro h
    cases hfind : ms.find? name with
    | none => exact ⟨missing, Or.inr ⟨hfind, rfl⟩⟩
    | some v =>
        obtain ⟨x, rfl⟩ := h v hfind
        exact ⟨x, Or.inl hfind⟩
  · rintro ⟨x, hx⟩ v hv
    rcases hx with hfind | ⟨hfind, -⟩
    · exact ⟨x, Option.some.inj (hv.symm.trans hfind)⟩
    · cases hv.symm.trans hfind

theorem Gives.unique (hform : Function.Injective form)
    (hx : ms.Gives name form missing x) (hy : ms.Gives name form missing y) :
    x = y := by
  rcases hx with hx | ⟨hx, rfl⟩
  · rcases hy with hy | ⟨hy, -⟩
    · exact hform (Option.some.inj (hx.symm.trans hy))
    · cases hx.symm.trans hy
  · rcases hy with hy | ⟨-, hy⟩
    · cases hx.symm.trans hy
    · exact hy.symm

theorem Gives.not_violates (hx : ms.Gives name form missing x) :
    ¬ ms.Violates name form v := by
  rintro ⟨hv, hno⟩
  obtain ⟨y, hy⟩ := (admits_iff missing).mpr ⟨x, hx⟩ v hv
  exact hno y hy

end Json.Members

namespace Token

open Json

variable {α : Type} {ms : Members} {field : Field} {form : α → Json}
  {missing : α} {answer : Except EntryError α}

/-- The answers of a reader of an optional member. -/
inductive Reads (ms : Members) (field : Field) (form : α → Json) (missing : α) :
    Except EntryError α → Prop
  | ok {x : α} (hgives : ms.Gives field.name form missing x) :
      Reads ms field form missing (.ok x)
  | error {v : Json} (hviolates : ms.Violates field.name form v) :
      Reads ms field form missing (.error (.wrongField field v))

theorem Reads.eq_ok_iff (h : Reads ms field form missing answer)
    (hform : Function.Injective form) {x : α} :
    answer = .ok x ↔ ms.Gives field.name form missing x := by
  cases h with
  | ok hgives =>
      constructor
      · intro hx
        exact Except.ok.inj hx ▸ hgives
      · intro hx
        rw [hgives.unique hform hx]
  | error hviolates =>
      constructor
      · intro hx
        cases hx
      · intro hx
        exact absurd hviolates hx.not_violates

theorem Reads.eq_error_iff (h : Reads ms field form missing answer)
    {e : EntryError} :
    answer = .error e ↔
      ∃ v, ms.Violates field.name form v ∧ e = .wrongField field v := by
  cases h with
  | ok hgives =>
      constructor
      · intro he
        cases he
      · rintro ⟨v, hv, -⟩
        exact absurd hv hgives.not_violates
  | @error w hviolates =>
      constructor
      · intro he
        exact ⟨w, hviolates, (Except.error.inj he).symm⟩
      · rintro ⟨v, hv, rfl⟩
        rw [Option.some.inj (hviolates.1.symm.trans hv.1)]

theorem reads_textField (ms : Members) (field : Field) :
    Reads ms field .string [] (textField ms field) := by
  rw [textField]
  cases hfind : ms.find? field.name with
  | none => exact .ok (Or.inr ⟨hfind, rfl⟩)
  | some v =>
      cases v with
      | string t => exact .ok (Or.inl hfind)
      | null | bool | integer | real | array | object =>
          exact .error ⟨hfind, fun t h => by cases h⟩

theorem reads_integerField (ms : Members) (field : Field) :
    Reads ms field .integer 0 (integerField ms field) := by
  rw [integerField]
  cases hfind : ms.find? field.name with
  | none => exact .ok (Or.inr ⟨hfind, rfl⟩)
  | some v =>
      cases v with
      | integer n => exact .ok (Or.inl hfind)
      | null | bool | string | real | array | object =>
          exact .error ⟨hfind, fun n h => by cases h⟩

/-! ## Entries -/

/-- The members name a kind, a text that is not empty. -/
def Named (ms : Members) : Prop :=
  ∃ kind, ms.find? (.of "type") = some (.string kind) ∧ kind ≠ []

/-- The members of an entry.  A truth value is no integer and neither is a
    number with a fraction; members of other names do not matter. -/
structure WellFormed (ms : Members) : Prop where
  kind : Named ms
  text : ms.Admits (.of "value") Json.string
  line : ms.Admits (.of "line") Json.integer
  column : ms.Admits (.of "col") Json.integer

/-- The text of a token that is given none: a delimiter gets its parenthesis. -/
def delimiterText (kind : Text) : Text :=
  if kind = .of "LPAREN" then .of "("
  else if kind = .of "RPAREN" then .of ")"
  else []

/-- The members say all about the token. -/
structure Describes (ms : Members) (t : Token) : Prop where
  kind : ms.find? (.of "type") = some (.string t.kind) ∧ t.kind ≠ []
  text : ∃ given, ms.Gives (.of "value") Json.string [] given ∧
    t.text = if given = [] then delimiterText t.kind else given
  line : ms.Gives (.of "line") Json.integer 0 t.line
  column : ms.Gives (.of "col") Json.integer 0 t.column

/-- The value is no entry, and this is the first offence in it. -/
inductive Offends : Json → EntryError → Prop
  | notAnObject {v : Json} (hv : ∀ ms, v ≠ .object ms) :
      Offends v (.notAnObject v)
  | withoutKind {ms : Members} (hkind : ¬ Named ms) :
      Offends (.object ms) (.withoutKind ms)
  | text {ms : Members} {v : Json} (hkind : Named ms)
      (hv : ms.Violates (.of "value") Json.string v) :
      Offends (.object ms) (.wrongField .text v)
  | line {ms : Members} {v : Json} (hkind : Named ms)
      (htext : ms.Admits (.of "value") Json.string)
      (hv : ms.Violates (.of "line") Json.integer v) :
      Offends (.object ms) (.wrongField .line v)
  | column {ms : Members} {v : Json} (hkind : Named ms)
      (htext : ms.Admits (.of "value") Json.string)
      (hline : ms.Admits (.of "line") Json.integer)
      (hv : ms.Violates (.of "col") Json.integer v) :
      Offends (.object ms) (.wrongField .column v)

/-- Members that are well formed describe a token. -/
theorem wellFormed_iff : WellFormed ms ↔ ∃ t, Describes ms t := by
  constructor
  · intro h
    obtain ⟨kind, hkind⟩ := h.kind
    obtain ⟨given, hgiven⟩ := (Members.admits_iff []).mp h.text
    obtain ⟨line, hline⟩ := (Members.admits_iff 0).mp h.line
    obtain ⟨column, hcolumn⟩ := (Members.admits_iff 0).mp h.column
    let text := if given = [] then delimiterText kind else given
    exact ⟨⟨kind, text, line, column⟩, hkind, ⟨given, hgiven, rfl⟩, hline,
      hcolumn⟩
  · rintro ⟨t, hkind, ⟨given, hgiven, -⟩, hline, hcolumn⟩
    exact ⟨⟨t.kind, hkind⟩, (Members.admits_iff []).mpr ⟨given, hgiven⟩,
      (Members.admits_iff 0).mpr ⟨t.line, hline⟩,
      (Members.admits_iff 0).mpr ⟨t.column, hcolumn⟩⟩

/-! ## What loading makes of an entry -/

theorem kindField_eq_ok_iff {kind : Text} :
    kindField ms = .ok kind ↔
      ms.find? (.of "type") = some (.string kind) ∧ kind ≠ [] := by
  rw [kindField]
  split
  next c cs hfind =>
    rw [hfind]
    constructor
    · intro h
      obtain rfl := Except.ok.inj h
      exact ⟨rfl, List.cons_ne_nil c cs⟩
    · rintro ⟨h, -⟩
      rw [Json.string.inj (Option.some.inj h)]
  next hno =>
    constructor
    · intro h
      cases h
    · rintro ⟨hfind, hkind⟩
      obtain ⟨c, cs, rfl⟩ := List.exists_cons_of_ne_nil hkind
      exact absurd hfind (hno c cs)

theorem kindField_eq_error_iff {e : EntryError} :
    kindField ms = .error e ↔ ¬ Named ms ∧ e = .withoutKind ms := by
  constructor
  · intro h
    have hunnamed : ¬ Named ms := by
      rintro ⟨kind, hkind⟩
      cases h.symm.trans (kindField_eq_ok_iff.mpr hkind)
    rw [kindField] at h
    split at h
    · cases h
    · exact ⟨hunnamed, (Except.error.inj h).symm⟩
  · rintro ⟨hunnamed, rfl⟩
    rw [kindField]
    split
    next c cs hfind =>
      exact absurd ⟨c :: cs, hfind, List.cons_ne_nil c cs⟩ hunnamed
    next => rfl

theorem defaultText_ofKind (kind : Text) :
    (Role.ofKind kind).defaultText = delimiterText kind := by
  have hknown : ∀ kind ∈ Role.kinds.map Prod.fst,
      (Role.ofKind kind).defaultText = delimiterText kind := by decide
  by_cases hkind : kind ∈ Role.kinds.map Prod.fst
  · exact hknown kind hkind
  · have hother : Role.kinds.lookup kind = none := by
      refine List.lookup_eq_none_iff.mpr ?_
      intro entry hentry
      exact bne_iff_ne.mpr fun h => hkind (h ▸ List.mem_map_of_mem hentry)
    have hopening : kind ≠ .of "LPAREN" := by
      rintro rfl
      exact hkind (by decide)
    have hclosing : kind ≠ .of "RPAREN" := by
      rintro rfl
      exact hkind (by decide)
    rw [Role.ofKind, hother, delimiterText, if_neg hopening, if_neg hclosing]
    rfl

theorem text_make (kind given : Text) (line column : Int) :
    (make kind given line column).text
      = if given = [] then delimiterText kind else given := by
  rw [← defaultText_ofKind]
  cases given with
  | nil => rfl
  | cons c cs => rfl

theorem textField_eq_ok_iff {given : Text} :
    textField ms field = .ok given ↔ ms.Gives field.name .string [] given :=
  (reads_textField ms field).eq_ok_iff fun _ _ => Json.string.inj

theorem integerField_eq_ok_iff {n : Int} :
    integerField ms field = .ok n ↔ ms.Gives field.name .integer 0 n :=
  (reads_integerField ms field).eq_ok_iff fun _ _ => Json.integer.inj

/-- **AN OBJECT GIVES THE TOKEN IT DESCRIBES**. -/
theorem ofJson_object_eq_ok_iff {t : Token} :
    ofJson (.object ms) = .ok t ↔ Describes ms t := by
  rw [ofJson]
  constructor
  · intro h
    obtain ⟨kind, hkind, h⟩ := bind_eq_ok_iff.mp h
    obtain ⟨given, hgiven, h⟩ := bind_eq_ok_iff.mp h
    obtain ⟨line, hline, h⟩ := bind_eq_ok_iff.mp h
    obtain ⟨column, hcolumn, h⟩ := bind_eq_ok_iff.mp h
    obtain rfl := Except.ok.inj h
    exact
      { kind := kindField_eq_ok_iff.mp hkind
        text := ⟨given, textField_eq_ok_iff.mp hgiven, text_make ..⟩
        line := integerField_eq_ok_iff.mp hline
        column := integerField_eq_ok_iff.mp hcolumn }
  · rintro ⟨hkind, ⟨given, hgiven, htext⟩, hline, hcolumn⟩
    have hmake : make t.kind given t.line t.column = t := by
      obtain ⟨kind, text, line, column⟩ := t
      rw [← text_make kind given line column] at htext
      exact congrArg (Token.mk kind · line column) htext.symm
    refine bind_eq_ok_iff.mpr ⟨_, kindField_eq_ok_iff.mpr hkind, ?_⟩
    refine bind_eq_ok_iff.mpr ⟨_, textField_eq_ok_iff.mpr hgiven, ?_⟩
    refine bind_eq_ok_iff.mpr ⟨_, integerField_eq_ok_iff.mpr hline, ?_⟩
    refine bind_eq_ok_iff.mpr ⟨_, integerField_eq_ok_iff.mpr hcolumn, ?_⟩
    exact congrArg Except.ok hmake

theorem exists_kind_iff : (∃ kind, kindField ms = .ok kind) ↔ Named ms :=
  exists_congr fun _ => kindField_eq_ok_iff

theorem exists_text_iff :
    (∃ given, textField ms field = .ok given) ↔
      ms.Admits field.name Json.string :=
  (exists_congr fun _ => textField_eq_ok_iff).trans (Members.admits_iff []).symm

theorem exists_integer_iff :
    (∃ n, integerField ms field = .ok n) ↔ ms.Admits field.name Json.integer :=
  (exists_congr fun _ => integerField_eq_ok_iff).trans
    (Members.admits_iff 0).symm

/-- One check comes after the other, and the first that fails is the last. -/
theorem ofJson_object_eq_error_iff {e : EntryError} :
    ofJson (.object ms) = .error e ↔
      (¬ Named ms ∧ e = .withoutKind ms) ∨ Named ms ∧
      ((∃ v, ms.Violates (.of "value") Json.string v ∧ e = .wrongField .text v) ∨
        ms.Admits (.of "value") Json.string ∧
      ((∃ v, ms.Violates (.of "line") Json.integer v ∧ e = .wrongField .line v) ∨
        ms.Admits (.of "line") Json.integer ∧
      ∃ v, ms.Violates (.of "col") Json.integer v ∧ e = .wrongField .column v)) := by
  have hpure : ∀ t : Token, (pure t : Except EntryError Token) ≠ .error e := by
    rintro t ⟨⟩
  rw [ofJson]
  simp only [bind_eq_error_iff, exists_and_right, exists_kind_iff,
    exists_text_iff, exists_integer_iff, kindField_eq_error_iff,
    (reads_textField ..).eq_error_iff, (reads_integerField ..).eq_error_iff,
    hpure, and_false, or_false, exists_false]
  rfl

/-- **ANYTHING ELSE FAILS WITH ITS FIRST OFFENCE**. -/
theorem ofJson_eq_error_iff {v : Json} {e : EntryError} :
    ofJson v = .error e ↔ Offends v e := by
  constructor
  · intro h
    cases v with
    | object ms =>
        rcases ofJson_object_eq_error_iff.mp h with
          ⟨hkind, rfl⟩ | ⟨hkind, ⟨v, hv, rfl⟩ | ⟨htext, ⟨v, hv, rfl⟩ | ⟨hline, v, hv, rfl⟩⟩⟩
        · exact .withoutKind hkind
        · exact .text hkind hv
        · exact .line hkind htext hv
        · exact .column hkind htext hline hv
    | null | bool | integer | real | string | array =>
        rw [← Except.error.inj h]
        exact .notAnObject fun ms hms => by cases hms
  · intro h
    cases h with
    | notAnObject hv =>
        cases v with
        | object ms => exact absurd rfl (hv ms)
        | null | bool | integer | real | string | array => rfl
    | withoutKind hkind => exact ofJson_object_eq_error_iff.mpr (.inl ⟨hkind, rfl⟩)
    | text hkind hv =>
        exact ofJson_object_eq_error_iff.mpr (.inr ⟨hkind, .inl ⟨_, hv, rfl⟩⟩)
    | line hkind htext hv =>
        exact ofJson_object_eq_error_iff.mpr
          (.inr ⟨hkind, .inr ⟨htext, .inl ⟨_, hv, rfl⟩⟩⟩)
    | column hkind htext hline hv =>
        exact ofJson_object_eq_error_iff.mpr
          (.inr ⟨hkind, .inr ⟨htext, .inr ⟨hline, _, hv, rfl⟩⟩⟩)

/-! ## Files -/

/-- The value is an entry. -/
def IsEntry (v : Json) : Prop := ∃ ms, v = .object ms ∧ WellFormed ms

/-- The value is an array of entries that describe the tokens one by one. -/
def Lists (v : Json) (ts : List Token) : Prop :=
  ∃ entries, v = .array entries ∧
    List.Forall₂ (fun entry t => ∃ ms, entry = .object ms ∧ Describes ms t)
      entries ts

/-- The value is no token file, and this is the first thing wrong with it. -/
inductive Refuses : Json → LoadError → Prop
  | notAnArray {v : Json} (hv : ∀ entries, v ≠ .array entries) :
      Refuses v .notAnArray
  | badEntry {before after : List Json} {v : Json} {e : EntryError}
      (hbefore : ∀ entry ∈ before, IsEntry entry) (hv : Offends v e) :
      Refuses (.array (before ++ v :: after)) (.badEntry e)

theorem ofJson_eq_ok_iff {v : Json} {t : Token} :
    ofJson v = .ok t ↔ ∃ ms, v = .object ms ∧ Describes ms t := by
  constructor
  · intro h
    cases v with
    | object ms => exact ⟨ms, rfl, ofJson_object_eq_ok_iff.mp h⟩
    | null | bool | integer | real | string | array => cases h
  · rintro ⟨ms, rfl, h⟩
    exact ofJson_object_eq_ok_iff.mpr h

theorem exists_ofJson_iff {v : Json} :
    (∃ t, ofJson v = .ok t) ↔ IsEntry v := by
  constructor
  · rintro ⟨t, h⟩
    obtain ⟨ms, rfl, hdescribes⟩ := ofJson_eq_ok_iff.mp h
    exact ⟨ms, rfl, wellFormed_iff.mpr ⟨t, hdescribes⟩⟩
  · rintro ⟨ms, rfl, h⟩
    obtain ⟨t, hdescribes⟩ := wellFormed_iff.mp h
    exact ⟨t, ofJson_object_eq_ok_iff.mpr hdescribes⟩

theorem listOfJson_eq_ok_iff {v : Json} {ts : List Token} :
    listOfJson v = .ok ts ↔ Lists v ts := by
  constructor
  · intro h
    cases v with
    | array entries =>
        rw [listOfJson, mapError_eq_ok_iff, mapM_eq_ok_iff] at h
        exact ⟨entries, rfl, h.imp fun _ _ => ofJson_eq_ok_iff.mp⟩
    | null | bool | integer | real | string | object => cases h
  · rintro ⟨entries, rfl, h⟩
    rw [listOfJson, mapError_eq_ok_iff, mapM_eq_ok_iff]
    exact h.imp fun _ _ => ofJson_eq_ok_iff.mpr

theorem listOfJson_eq_error_iff {v : Json} {e : LoadError} :
    listOfJson v = .error e ↔ Refuses v e := by
  constructor
  · intro h
    cases v with
    | array entries =>
        rw [listOfJson, mapError_eq_error_iff] at h
        obtain ⟨e, h, rfl⟩ := h
        obtain ⟨before, entry, after, rfl, hbefore, hentry⟩ :=
          mapM_eq_error_iff.mp h
        exact .badEntry (fun x hx => exists_ofJson_iff.mp (hbefore x hx))
          (ofJson_eq_error_iff.mp hentry)
    | null | bool | integer | real | string | object =>
        rw [← Except.error.inj h]
        exact .notAnArray fun entries hv => by cases hv
  · intro h
    cases h with
    | notAnArray hv =>
        cases v with
        | array entries => exact absurd rfl (hv entries)
        | null | bool | integer | real | string | object => rfl
    | @badEntry before after entry e hbefore hentry =>
        rw [listOfJson, mapError_eq_error_iff]
        exact ⟨e, mapM_eq_error_iff.mpr ⟨before, entry, after, rfl,
          fun x hx => exists_ofJson_iff.mpr (hbefore x hx),
          ofJson_eq_error_iff.mpr hentry⟩, rfl⟩

theorem exists_listOfJson_iff {v : Json} :
    (∃ ts, listOfJson v = .ok ts) ↔
      ∃ entries, v = .array entries ∧ ∀ entry ∈ entries, IsEntry entry := by
  constructor
  · rintro ⟨ts, h⟩
    obtain ⟨entries, rfl, -⟩ := listOfJson_eq_ok_iff.mp h
    rw [listOfJson, mapError_eq_ok_iff] at h
    refine ⟨entries, rfl, fun entry hentry => exists_ofJson_iff.mp ?_⟩
    exact exists_mapM_iff.mp ⟨ts, h⟩ entry hentry
  · rintro ⟨entries, rfl, h⟩
    obtain ⟨ts, hts⟩ := exists_mapM_iff.mpr
      fun entry hentry => exists_ofJson_iff.mpr (h entry hentry)
    exact ⟨ts, mapError_eq_ok_iff.mpr hts⟩

/-- **LOADING VALIDATES**: of a text that is decoded, the value alone decides.
    Tokens are loaded if and only if the value is an array of entries, and then
    they are the tokens that the entries describe, one by one.  Otherwise the
    error is the first thing wrong with the value: it is no array, or the first
    of its items that is no entry has this as its first offence. -/
theorem load_validates {t : Text} {v : Json} (h : Json.decode t = .ok v) :
    ((∃ ts, load t = .ok ts) ↔
      ∃ entries, v = .array entries ∧ ∀ entry ∈ entries, IsEntry entry) ∧
    (∀ ts, load t = .ok ts ↔ Lists v ts) ∧
    ∀ e, load t = .error e ↔ Refuses v e := by
  have hload : load t = listOfJson v := by rw [load, h]
  rw [hload]
  exact ⟨exists_listOfJson_iff, fun _ => listOfJson_eq_ok_iff,
    fun _ => listOfJson_eq_error_iff⟩

/-- Of an entry with a member of another name, one whose line has a fraction and
    whose column is a truth value, and a number, the line is complained of; the
    first entry alone is a closing token in line -3. -/
theorem load_validates_first_offence :
    let first : Text := .of
      "\x7b\"type\": \"RPAREN\", \"line\": -3, \"file\": null\x7d"
    let others : Text := .of
      "\x7b\"type\": \"IDENT\", \"line\": 1.0, \"col\": true\x7d, 7"
    (∃ v, Json.decode (.of "[" ++ first ++ .of "]") = .ok v ∧
      Lists v [⟨.of "RPAREN", .of ")", -3, 0⟩]) ∧
    ∃ v e, Json.decode (.of "[" ++ first ++ .of ", " ++ others ++ .of "]")
        = .ok v ∧ Refuses v e ∧
      e.message = .of "Token field 'line' must be int, got 1.0" := by
  intro first others
  constructor
  · obtain ⟨v, hv⟩ := exists_ok_of_isOk
      (x := Json.decode (.of "[" ++ first ++ .of "]")) (by decide +kernel)
    have hload : load (.of "[" ++ first ++ .of "]")
        = .ok [⟨.of "RPAREN", .of ")", -3, 0⟩] := by
      refine ok_of_toOption ?_
      decide +kernel
    exact ⟨v, hv, ((load_validates hv).2.1 _).mp hload⟩
  · obtain ⟨v, hv⟩ := exists_ok_of_isOk
      (x := Json.decode (.of "[" ++ first ++ .of ", " ++ others ++ .of "]"))
      (by decide +kernel)
    have hmessage : (load (.of "[" ++ first ++ .of ", " ++ others ++ .of "]")).mapError
        LoadError.message = .error (.of "Token field 'line' must be int, got 1.0") := by
      decide +kernel
    obtain ⟨e, hload, he⟩ := mapError_eq_error_iff.mp hmessage
    exact ⟨v, e, hv, ((load_validates hv).2.2 e).mp hload, he⟩

end Token

end FormReader
