import FormReader.Proofs.Numerals
import FormReader.Proofs.Outcomes
import FormReader.Token.Loader

/-! # Loading — tokens are loaded as they were encoded

    The entry of a token names all of its four fields (`toJson`).  Such an entry
    passes every check and gives the token back, because a token that was made
    with an empty text already has the one of its role (`make_self`).  With the
    lemmas on strings and integers the encoded entries spell the array of them,
    so a file that the plain encoder wrote holds the tokens it was written for
    (`load_encode`).

    A token is PORTABLE if an entry can carry it (`Portable`): its kind is not
    empty, its texts hold no high surrogate directly followed by a low one, and
    its position has no more digits than are converted. -/

namespace FormReader

namespace Token

open Json

/-- The entry of a token, with all of its fields. -/
def toJson (t : Token) : Json :=
  .object [(.of "type", .string t.kind), (Field.text.name, .string t.text),
    (Field.line.name, .integer t.line), (Field.column.name, .integer t.column)]

/-- A token that an entry can carry. -/
structure Portable (t : Token) : Prop where
  /-- The token was made by a scanner. -/
  made : ∃ kind text line column, t = make kind text line column
  named : t.kind ≠ []
  kind : t.kind.Unpaired
  text : t.text.Unpaired
  line : (Nat.digits 10 t.line.natAbs).length ≤ integerDigitLimit
  column : (Nat.digits 10 t.column.natAbs).length ≤ integerDigitLimit

/-- Made again from its fields, a token stays the same. -/
theorem make_self {t : Token} (h : ∃ kind text line column, t = make kind text line column) :
    make t.kind t.text t.line t.column = t := by
  obtain ⟨kind, text, line, column, rfl⟩ := h
  by_cases hempty : text.isEmpty = true
  · simp [make, hempty]
  · simp [make, hempty]

/-- **AN ENTRY GIVES ITS TOKEN BACK**. -/
theorem ofJson_toJson {t : Token} (h : t.Portable) : ofJson t.toJson = .ok t := by
  obtain ⟨c, cs, hkind⟩ := List.exists_cons_of_ne_nil h.named
  have hself := make_self h.made
  rw [hkind] at hself
  rw [toJson, hkind]
  exact congrArg Except.ok hself

theorem mapM_ofJson {ts : List Token} (h : ∀ t ∈ ts, t.Portable) :
    (ts.map toJson).mapM ofJson = .ok ts := by
  rw [mapM_eq_ok_iff, List.forall₂_map_left_iff]
  exact List.forall₂_same.mpr fun t ht => ofJson_toJson (h t ht)

/-- **AN ENCODED ENTRY SPELLS THE ENTRY**. -/
theorem decodes_toJson {t : Token} (h : t.Portable) : Decodes t.toJson.encode t.toJson := by
  have htype : (Text.of "type").Unpaired := by decide
  have hvalue : Field.text.name.Unpaired := by decide
  have hline : Field.line.name.Unpaired := by decide
  have hcol : Field.column.name.Unpaired := by decide
  have hdistinct : [Text.of "type", Field.text.name, Field.line.name,
      Field.column.name].Nodup := by decide
  rw [toJson, encode_object]
  refine decodes_braced ?_ hdistinct
  simp only [List.map_cons, List.map_nil, Json.encode]
  exact .cons ((decodes_string h.kind).member htype)
    (.cons ((decodes_string h.text).member hvalue)
      (.cons ((decodes_ofInt h.line).member hline)
        (.cons ((decodes_ofInt h.column).member hcol) .nil)))

theorem decodes_entries {ts : List Token} (h : ∀ t ∈ ts, t.Portable) :
    Decodes (Json.array (ts.map toJson)).encode (.array (ts.map toJson)) := by
  rw [encode_array]
  refine decodes_bracketed ?_
  rw [List.map_map, List.forall₂_map_left_iff, List.forall₂_map_right_iff]
  exact List.forall₂_same.mpr fun t ht => decodes_toJson (h t ht)

/-- **TOKENS ARE LOADED AS THEY WERE ENCODED**: the plain encoding of their
    entries holds just these tokens, in order, with every text and every
    position as it was. -/
theorem load_encode {ts : List Token} (h : ∀ t ∈ ts, t.Portable) :
    load (Json.array (ts.map toJson)).encode = .ok ts := by
  have hbracket : some (CodePoint.ofChar '[') ≠ some (.ofNat 0xFEFF) := by decide
  have hdecode : Json.decode (Json.array (ts.map toJson)).encode
      = .ok (.array (ts.map toJson)) := by
    refine (decodes_entries h).decode ?_
    rw [encode_array]
    exact hbracket
  rw [load, hdecode]
  show ((ts.map toJson).mapM ofJson).mapError LoadError.badEntry = _
  rw [mapM_ofJson h]
  rfl

/-- Of an opening token made without a text, and of a numeral behind it with odd
    texts and a position below zero and beyond 2⁵³. -/
theorem load_encode_odd :
    let odd : Text := ['\x22', '\\', '\n', '😀', .ofNat 0xDC00, .ofNat 0xD800]
    let ts := [make (.of "LPAREN") [] 0 0,
      make (.of "NUMBER") (.of "007.50") (-9007199254740993) 18446744073709551616,
      make odd odd 1 (-1)]
    (∀ t ∈ ts, t.Portable) ∧
      ts.map Token.text = [.of "(", .of "007.50", odd] ∧
      load (Json.array (ts.map toJson)).encode = .ok ts := by
  intro odd ts
  have hodd : odd.Unpaired := by decide
  have hfirst : Portable (make (.of "LPAREN") [] 0 0) :=
    ⟨⟨_, _, _, _, rfl⟩, by decide, by decide, by decide, by simp [make], by simp [make]⟩
  have hsecond : Portable (make (.of "NUMBER") (.of "007.50") (-9007199254740993)
      18446744073709551616) :=
    ⟨⟨_, _, _, _, rfl⟩, by decide, by decide, by decide, by simp [make, integerDigitLimit],
      by simp [make, integerDigitLimit]⟩
  have hthird : Portable (make odd odd 1 (-1)) :=
    ⟨⟨_, _, _, _, rfl⟩, by decide, hodd, hodd, by simp [make, integerDigitLimit],
      by simp [make, integerDigitLimit]⟩
  have hts : ∀ t ∈ ts, t.Portable := by
    simp only [ts, List.forall_mem_cons]
    exact ⟨hfirst, hsecond, hthird, List.forall_mem_nil _⟩
  exact ⟨hts, by decide, load_encode hts⟩

end Token

end FormReader
