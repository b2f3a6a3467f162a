import FormReader.Proofs.Decoding
import FormReader.Proofs.Writing

/-! # Faithful — the structured format loses nothing

    The structured format writes forms as JSON without going through their
    structured values: calls are pasted together from the texts of their parts.
    Here the two are brought together.  The text of a form is the one that the
    plain encoder writes of its structured value (`write_structured_eq_encode`).
    It SPELLS that value (`decodes_write`), by induction on the form with the
    lemmas on objects and arrays; it is on one line of ASCII (`visible_write`);
    and a form can be told from its structured value (`toJson_injective`).  So a
    printout is decoded to the array of the structured values, has one line for
    each form, and can be the printout of these forms only
    (`print_structured_faithful`).

    Leaves must not hold a high surrogate directly followed by a low one: their
    escapes would be read as one code point. -/

namespace FormReader

namespace Form

/-! ## Structured values -/

@[simp] theorem toJson_leaf (a : Atom) : toJson (.leaf a) = a.toJson :=
  Tree.fold_leaf ..

@[simp] theorem toJson_call (f : Form) (xs : List Form) :
    toJson (.call f xs) = callJson (toJson f) (xs.map toJson) :=
  Tree.fold_call ..

end Form

theorem Atom.toJson_injective {a b : Atom} (h : a.toJson = b.toJson) :
    a = b := by
  obtain ⟨hkind, hmember⟩ := List.cons.inj (Json.object.inj h)
  have hkind : a.kind = b.kind := Json.string.inj (Prod.mk.inj hkind).2
  have htext : a.text = b.text :=
    Json.string.inj (Prod.mk.inj (List.cons.inj hmember).1).2
  have hsorts : Text.of "identifier" ≠ Text.of "number" := by decide
  cases a with
  | identifier s =>
      cases b with
      | identifier t => exact congrArg _ htext
      | numeral t => exact absurd hkind hsorts
  | numeral s =>
      cases b with
      | identifier t => exact absurd hkind hsorts.symm
      | numeral t => exact congrArg _ htext

/-- **A FORM CAN BE TOLD FROM ITS STRUCTURED VALUE**. -/
theorem Form.toJson_injective {f g : Form} (h : f.toJson = g.toJson) :
    f = g := by
  refine Tree.fold_injective Atom.toJson_injective ?_ ?_ h
  · intro r s rs ss hcall
    simpa [callJson] using hcall
  · intro a r rs hsame
    cases congrArg List.length (Json.object.inj hsame)

namespace Form

open Json

/-! ## What is written -/

theorem decodes_atom {a : Atom} (h : a.text.Unpaired) :
    Decodes (Style.structured.atom a) a.toJson := by
  have hkind : (Text.of "kind").Unpaired := by decide
  have hsort : a.kind.Unpaired := by
    cases a with
    | identifier name => exact (by decide : (Text.of "identifier").Unpaired)
    | numeral literal => exact (by decide : (Text.of "number").Unpaired)
  have hmember : a.member.Unpaired := by
    cases a with
    | identifier name => exact (by decide : (Text.of "name").Unpaired)
    | numeral literal => exact (by decide : (Text.of "literal").Unpaired)
  have hdistinct : [Text.of "kind", a.member].Nodup := by
    cases a with
    | identifier name =>
        exact (by decide : [Text.of "kind", Text.of "name"].Nodup)
    | numeral literal =>
        exact (by decide : [Text.of "kind", Text.of "literal"].Nodup)
  rw [Style.atom_structured]
  refine decodes_braced ?_ hdistinct
  exact .cons ((decodes_string hsort).member hkind)
    (.cons ((decodes_string h).member hmember) .nil)

theorem forall₂_decodes {fs : List Form}
    (h : ∀ f ∈ fs, Decodes (f.write .structured) f.toJson) :
    List.Forall₂ Decodes (fs.map (write .structured)) (fs.map toJson) := by
  rw [List.forall₂_map_left_iff, List.forall₂_map_right_iff]
  exact List.forall₂_same.mpr h

/-- **A WRITTEN FORM SPELLS ITS STRUCTURED VALUE**. -/
theorem decodes_write {f : Form} (h : ∀ a ∈ f.leaves, a.text.Unpaired) :
    Decodes (f.write .structured) f.toJson := by
  induction f using Tree.induction with
  | leaf a =>
      rw [write_leaf, toJson_leaf]
      exact decodes_atom (h a (by simp))
  | call f xs hf hxs =>
      obtain ⟨hoperator, hoperands⟩ := Tree.forall_leaves_call.mp h
      have hall := forall₂_decodes fun x hx => hxs x hx (hoperands x hx)
      have hkind : (Text.of "kind").Unpaired := by decide
      have hcall : callKind.Unpaired := by decide
      have hop : (Text.of "operator").Unpaired := by decide
      have hops : (Text.of "operands").Unpaired := by decide
      have hdistinct : [Text.of "kind", Text.of "operator",
          Text.of "operands"].Nodup := by decide
      rw [write_call, toJson_call, Style.callText_structured]
      refine decodes_braced ?_ hdistinct
      exact .cons ((decodes_string hcall).member hkind)
        (.cons ((hf hoperator).member hop)
          (.cons ((decodes_bracketed hall).member hops) .nil))

/-- **A WRITTEN FORM IS ON ONE LINE OF ASCII**. -/
theorem visible_write (f : Form) : (f.write .structured).Visible := by
  induction f using Tree.induction with
  | leaf a =>
      rw [write_leaf, Style.atom_structured]
      refine visible_braced ?_
      simp only [List.forall_mem_cons]
      exact ⟨visible_member _ (visible_encodeString _),
        visible_member _ (visible_encodeString _), List.forall_mem_nil _⟩
  | call f xs hf hxs =>
      rw [write_call, Style.callText_structured]
      refine visible_braced ?_
      simp only [List.forall_mem_cons]
      exact ⟨visible_member _ (visible_encodeString _), visible_member _ hf,
        visible_member _ (visible_bracketed (List.forall_mem_map.mpr hxs)),
        List.forall_mem_nil _⟩

/-- **PASTED TOGETHER AS THE PLAIN ENCODER WRITES IT**: the text of a form is,
    code point by code point, the plain encoding of its structured value. -/
theorem write_structured_eq_encode (f : Form) :
    f.write .structured = f.toJson.encode := by
  induction f using Tree.induction with
  | leaf a => rw [write_leaf, toJson_leaf, Style.structured]
  | call f xs hf hxs =>
      have hoperands : xs.map (write .structured)
          = (xs.map toJson).map encode := by
        rw [List.map_map]
        exact List.map_congr_left hxs
      rw [write_call, Style.callText_structured, hf, hoperands, ← encode_array,
        toJson_call, callJson, encode_object]
      simp only [List.map_cons, List.map_nil, encode]

end Form

namespace Format

open Json

/-! ## Printouts -/

/-- The lines of the forms in the structured format: each form on its own,
    indented, with a comma behind it if another one follows. -/
def rows : List Form → List Text
  | [] => []
  | f :: fs =>
      (Text.of "  " ++ f.write .structured
        ++ if fs = [] then [] else Text.of ",") :: rows fs

/-- The forms between the brackets are the lines of their own. -/
theorem rows_text (f : Form) (fs : List Form) :
    (rows (f :: fs)).flatMap (Text.of "\n" ++ ·)
      = Text.of "\n  " ++ Text.joined (.of ",\n  ")
          ((f :: fs).map (Form.write .structured)) := by
  have hindent : Text.of "\n  " = Text.of "\n" ++ Text.of "  " := rfl
  have hcomma : Text.of ",\n  " = Text.of "," ++ Text.of "\n  " := rfl
  induction fs generalizing f with
  | nil =>
      rw [rows, rows, if_pos rfl, List.map_cons, List.map_nil,
        Text.joined_singleton, hindent, List.flatMap_cons, List.flatMap_nil]
      simp only [List.append_nil, List.append_assoc]
  | cons g fs ih =>
      rw [rows, if_neg (List.cons_ne_nil g fs), List.flatMap_cons, ih g,
        List.map_cons, List.map_cons, List.map_cons, Text.joined_cons_cons,
        hcomma, hindent]
      simp only [List.append_assoc]

/-- **THE LINES OF A PRINTOUT**. -/
theorem print_structured (f : Form) (fs : List Form) :
    print .structured (f :: fs)
      = .joined (.of "\n") (.of "[" :: (rows (f :: fs) ++ [.of "]"])) := by
  rw [Text.joined, List.flatMap_append, rows_text]
  show Text.of "[\n  " ++ Text.joined _ _ ++ Text.of "\n]" = _
  have hopening : Text.of "[\n  " = Text.of "[" ++ Text.of "\n  " := rfl
  rw [hopening]
  simp only [List.append_assoc]
  rfl

theorem visible_rows {fs : List Form} : ∀ t ∈ rows fs, t.Visible := by
  induction fs with
  | nil => exact List.forall_mem_nil _
  | cons f fs ih =>
      have hindent : (Text.of "  ").Visible := by decide
      have hcomma : (Text.of ",").Visible := by decide
      refine List.forall_mem_cons.mpr ⟨?_, ih⟩
      refine (hindent.append f.visible_write).append ?_
      split
      · exact List.forall_mem_nil _
      · exact hcomma

theorem visible_lines (fs : List Form) :
    ∀ t ∈ Text.of "[" :: (rows fs ++ [Text.of "]"]), t.Visible := by
  have hopening : (Text.of "[").Visible := by decide
  have hclosing : (Text.of "]").Visible := by decide
  exact List.forall_mem_cons.mpr ⟨hopening, List.forall_mem_append.mpr
    ⟨visible_rows, List.forall_mem_singleton.mpr hclosing⟩⟩

theorem ascii_print (fs : List Form) :
    ∀ c ∈ print .structured fs, c.val < 0x80 := by
  cases fs with
  | nil => decide
  | cons f fs =>
      intro c hc
      rw [print_structured] at hc
      rcases Text.mem_joined hc with hnewline | ⟨t, ht, hc⟩
      · rw [List.mem_singleton.mp hnewline]
        decide
      · have hvisible := visible_lines (f :: fs) t ht c hc
        exact Nat.lt_of_le_of_lt hvisible.2 (by decide)

/-- Lines of ASCII are taken apart where they were joined. -/
theorem splitOn_print (fs : List Form) :
    (print .structured fs).splitOn ('\n' : CodePoint)
      = if fs = [] then [Text.of "[]"]
        else Text.of "[" :: (rows fs ++ [Text.of "]"]) := by
  cases fs with
  | nil => decide
  | cons f fs =>
      rw [if_neg (List.cons_ne_nil f fs), print_structured]
      refine Text.splitOn_joined (fun t ht hnewline => ?_) (List.cons_ne_nil _ _)
      have hvisible := visible_lines (f :: fs) t ht _ hnewline
      exact absurd hvisible.1 (by decide)

theorem decodes_print {fs : List Form}
    (h : ∀ f ∈ fs, ∀ a ∈ f.leaves, a.text.Unpaired) :
    Decodes (print .structured fs) (.array (fs.map Form.toJson)) := by
  cases fs with
  | nil => exact decodes_bracketed .nil
  | cons f fs =>
      obtain ⟨hf, hfs⟩ := List.forall_mem_cons.mp h
      have hindent : Gap (.of "\n  ") := by decide
      have hlast : Gap (.of "\n") := by decide
      have hall := Form.forall₂_decodes fun g hg => Form.decodes_write (hfs g hg)
      refine ⟨⟨'[', _, rfl, by decide, by decide⟩, fun stack rest _ => ?_⟩
      show decodeFrom .value stack (Text.of "[\n  " ++ Text.joined _ _
        ++ Text.of "\n]" ++ rest) = _
      rw [List.append_assoc, List.append_assoc]
      exact decodeFrom_array hindent hindent hlast (Form.decodes_write hf) hall
        rest

theorem decode_print {fs : List Form}
    (h : ∀ f ∈ fs, ∀ a ∈ f.leaves, a.text.Unpaired) :
    decode (print .structured fs) = .ok (.array (fs.map Form.toJson)) := by
  refine (decodes_print h).decode ?_
  have hbracket : some (CodePoint.ofChar '[') ≠ some (.ofNat 0xFEFF) := by decide
  cases fs with
  | nil => exact hbracket
  | cons f fs => exact hbracket

end Format

/-- **THE STRUCTURED FORMAT IS FAITHFUL**: if no text of a leaf holds a high
    surrogate directly followed by a low one, the printout is decoded to the
    array of the structured values.  It is ASCII, has one line for each form
    between those of the brackets, and is the printout of no other such
    forms. -/
theorem print_structured_faithful {fs : List Form}
    (h : ∀ f ∈ fs, ∀ a ∈ f.leaves, a.text.Unpaired) :
    Json.decode (Format.print .structured fs)
        = .ok (.array (fs.map Form.toJson)) ∧
      (∀ c ∈ Format.print .structured fs, c.val < 0x80) ∧
      (Format.print .structured fs).splitOn ('\n' : CodePoint)
        = (if fs = [] then [Text.of "[]"]
          else Text.of "[" :: (Format.rows fs ++ [Text.of "]"])) ∧
      ∀ gs : List Form, (∀ g ∈ gs, ∀ a ∈ g.leaves, a.text.Unpaired) →
        Format.print .structured gs = Format.print .structured fs → gs = fs := by
  refine ⟨Format.decode_print h, Format.ascii_print fs,
    Format.splitOn_print fs, ?_⟩
  intro gs hgs hsame
  -- equal texts are decoded to equal values
  have hvalues := (Format.decode_print hgs).symm.trans
    (hsame ▸ Format.decode_print h)
  exact (List.map_inj_right fun _ _ => Form.toJson_injective).mp
    (Json.array.inj (Except.ok.inj hvalues))

/-- A call of a call, with texts of a quote, a backslash, a control character, a
    code point above U+FFFF and two surrogates that make no pair. -/
theorem print_structured_faithful_escapes :
    let odd : Text := ['\x22', '\\', '\x01', '😀', .ofNat 0xDC00, .ofNat 0xD800]
    let fs : List Form :=
      [.call (.call (Form.identifier odd) []) [Form.numeral (.of "1")],
        Form.numeral odd]
    (∀ f ∈ fs, ∀ a ∈ f.leaves, a.text.Unpaired) ∧
      Json.decode (Format.print .structured fs)
        = .ok (.array (fs.map Form.toJson)) ∧
      (Format.print .structured fs).splitOn ('\n' : CodePoint)
        = Text.of "[" :: (Format.rows fs ++ [Text.of "]"]) ∧
      Format.print .structured fs.reverse ≠ Format.print .structured fs := by
  intro odd fs
  have hodd : odd.Unpaired := by decide
  have hone : (Text.of "1").Unpaired := by decide
  have hfs : ∀ f ∈ fs, ∀ a ∈ f.leaves, a.text.Unpaired := by
    simpa [fs, Form.identifier, Form.numeral, Atom.text]
      using ⟨⟨hodd, hone⟩, hodd⟩
  obtain ⟨hdecode, -, hlines, honly⟩ := print_structured_faithful hfs
  refine ⟨hfs, hdecode, hlines, fun hsame => ?_⟩
  have hrev : fs.reverse = fs :=
    honly fs.reverse (fun g hg => hfs g (List.mem_reverse.mp hg)) hsame
  cases (List.cons.inj hrev).1

end FormReader
