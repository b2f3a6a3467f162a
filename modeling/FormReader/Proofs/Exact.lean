import FormReader.Proofs.Octets
import FormReader.Proofs.Quoting
import FormReader.Proofs.Writing

/-! # Exact — the literal format loses nothing

    The literal format writes a leaf as the name of its constructor around the
    quoted text, and a call around the texts of its parts.  A form is EXACT if
    it can be told from its text whatever stands behind (`Exact`): texts that
    begin with the literals of two forms begin with the same form and go on
    alike.  A leaf is, because a quoted text is (`exact_leaf`).  For a call the
    operands are taken off one by one (`operands_inj`): behind each of them
    comes a comma or the closing bracket, and no form begins with a bracket.

    Everything written is printable, so a literal stays on its line even for a
    reader that ends lines at more than line feeds, and a printout can always
    be encoded (`print_literal_exact`). -/

namespace FormReader

namespace Form

/-! ## What is written -/

theorem callText_literal (f : Text) (xs : List Text) :
    Style.literal.callText f xs
      = .of "ProcedureCall(" ++ (f ++ (.of ", [" ++ (.joined (.of ", ") xs ++ .of "])"))) := by
  have hoperands : Style.literal.operandsText xs = .joined (.of ", ") xs := by
    cases xs with
    | nil => rfl
    | cons x xs => rfl
  rw [Style.callText, hoperands]
  simp only [List.append_assoc]
  rfl

/-- A literal begins with the first letter of a constructor. -/
theorem write_literal_begins (f : Form) :
    ∃ c u, f.write .literal = c :: u ∧ c ≠ ']' := by
  cases f with
  | leaf a =>
      cases a with
      | identifier name => exact ⟨'I', _, write_leaf .literal _, by decide⟩
      | numeral literal => exact ⟨'N', _, write_leaf .literal _, by decide⟩
  | call f xs => exact ⟨'P', _, (write_call ..).trans (callText_literal ..), by decide⟩

theorem printable_literalAtom (a : Atom) : (Style.literalAtom a).Printable := by
  have hclosing : (Text.of ")").Visible := by decide
  cases a with
  | identifier name =>
      have hopening : (Text.of "Identifier(").Visible := by decide
      exact (hopening.printable.append (Text.printable_quoted name)).append hclosing.printable
  | numeral literal =>
      have hopening : (Text.of "Number(").Visible := by decide
      exact (hopening.printable.append (Text.printable_quoted literal)).append
        hclosing.printable

/-- **EVERYTHING WRITTEN IS PRINTABLE**. -/
theorem printable_write (f : Form) : (f.write .literal).Printable := by
  induction f using Tree.induction with
  | leaf a =>
      rw [write_leaf]
      exact printable_literalAtom a
  | call f xs hf hxs =>
      have hopening : (Text.of "ProcedureCall(").Visible := by decide
      have hinner : (Text.of ", [").Visible := by decide
      have hcomma : (Text.of ", ").Visible := by decide
      have hclosing : (Text.of "])").Visible := by decide
      have hoperands : (Text.joined (.of ", ") (xs.map (write .literal))).Printable := by
        intro c hc
        rcases Text.mem_joined hc with hc | ⟨t, ht, hc⟩
        · exact hcomma.printable c hc
        · obtain ⟨x, hx, rfl⟩ := List.mem_map.mp ht
          exact hxs x hx c hc
      rw [write_call, callText_literal]
      exact hopening.printable.append (hf.append
        (hinner.printable.append (hoperands.append hclosing.printable)))

/-! ## Telling forms -/

/-- Texts that begin with the literal of the form and with that of another one
    begin with the same form, and go on alike. -/
def Exact (f : Form) : Prop :=
  ∀ {g : Form} {us vs : Text},
    f.write .literal ++ us = g.write .literal ++ vs → f = g ∧ us = vs

theorem exact_leaf (a : Atom) : Exact (.leaf a) := by
  intro g us vs h
  rw [write_leaf] at h
  cases g with
  | call g ys =>
      rw [write_call, callText_literal] at h
      cases a with
      | identifier s => exact absurd (List.cons.inj h).1 (by decide)
      | numeral s => exact absurd (List.cons.inj h).1 (by decide)
  | leaf b =>
      rw [write_leaf] at h
      -- behind the name of the constructor stands a quoted text
      have htold : ∀ {opening s t : Text},
          opening ++ s.quoted ++ .of ")" ++ us = opening ++ t.quoted ++ .of ")" ++ vs →
          s = t ∧ us = vs := by
        intro opening s t hsame
        simp only [List.append_assoc] at hsame
        obtain ⟨rfl, hbehind⟩ := Text.quoted_inj (List.append_cancel_left hsame)
        exact ⟨rfl, List.append_cancel_left hbehind⟩
      cases a with
      | identifier s =>
          cases b with
          | identifier t =>
              obtain ⟨rfl, hbehind⟩ := htold h
              exact ⟨rfl, hbehind⟩
          | numeral t => exact absurd (List.cons.inj h).1 (by decide)
      | numeral s =>
          cases b with
          | identifier t => exact absurd (List.cons.inj h).1 (by decide)
          | numeral t =>
              obtain ⟨rfl, hbehind⟩ := htold h
              exact ⟨rfl, hbehind⟩

/-- Operands behind the first one are told, up to the closing bracket. -/
theorem operands_behind_inj {xs ys : List Form} (hexact : ∀ x ∈ xs, Exact x) {us vs : Text}
    (h : (xs.map (write .literal)).flatMap (Text.of ", " ++ ·) ++ (']' : CodePoint) :: us
      = (ys.map (write .literal)).flatMap (Text.of ", " ++ ·) ++ (']' : CodePoint) :: vs) :
    xs = ys ∧ us = vs := by
  induction xs generalizing ys with
  | nil =>
      cases ys with
      | nil => exact ⟨rfl, (List.cons.inj h).2⟩
      | cons y ys => exact absurd (List.cons.inj h).1 (by decide)
  | cons x xs ih =>
      obtain ⟨hone, hrest⟩ := List.forall_mem_cons.mp hexact
      cases ys with
      | nil => exact absurd (List.cons.inj h).1 (by decide)
      | cons y ys =>
          simp only [List.map_cons, List.flatMap_cons, List.append_assoc] at h
          obtain ⟨rfl, hbehind⟩ := hone (List.append_cancel_left h)
          obtain ⟨rfl, hsame⟩ := ih hrest hbehind
          exact ⟨rfl, hsame⟩

/-- **OPERANDS ARE TOLD UP TO THE CLOSING BRACKET**, since no form begins with
    one. -/
theorem operands_inj {xs ys : List Form} (hexact : ∀ x ∈ xs, Exact x) {us vs : Text}
    (h : Text.joined (.of ", ") (xs.map (write .literal)) ++ (']' : CodePoint) :: us
      = Text.joined (.of ", ") (ys.map (write .literal)) ++ (']' : CodePoint) :: vs) :
    xs = ys ∧ us = vs := by
  cases xs with
  | nil =>
      cases ys with
      | nil => exact ⟨rfl, (List.cons.inj h).2⟩
      | cons y ys =>
          obtain ⟨c, u, hy, hbracket⟩ := write_literal_begins y
          rw [List.map_cons, Text.joined, hy] at h
          exact absurd (List.cons.inj h).1.symm hbracket
  | cons x xs =>
      obtain ⟨hone, hrest⟩ := List.forall_mem_cons.mp hexact
      cases ys with
      | nil =>
          obtain ⟨c, u, hx, hbracket⟩ := write_literal_begins x
          rw [List.map_cons, Text.joined, hx] at h
          exact absurd (List.cons.inj h).1 hbracket
      | cons y ys =>
          rw [List.map_cons, List.map_cons, Text.joined, Text.joined, List.append_assoc,
            List.append_assoc] at h
          obtain ⟨rfl, hbehind⟩ := hone h
          obtain ⟨rfl, hsame⟩ := operands_behind_inj hrest hbehind
          exact ⟨rfl, hsame⟩

/-- **A FORM IS TOLD BY ITS LITERAL**, whatever stands behind. -/
theorem exact (f : Form) : Exact f := by
  induction f using Tree.induction with
  | leaf a => exact exact_leaf a
  | call f xs hf hxs =>
      intro g us vs h
      rw [write_call, callText_literal] at h
      cases g with
      | leaf b =>
          rw [write_leaf] at h
          cases b with
          | identifier t => exact absurd (List.cons.inj h).1 (by decide)
          | numeral t => exact absurd (List.cons.inj h).1 (by decide)
      | call g ys =>
          rw [write_call, callText_literal] at h
          simp only [List.append_assoc] at h
          obtain ⟨rfl, hinside⟩ := hf (List.append_cancel_left h)
          obtain ⟨rfl, hbehind⟩ := operands_inj hxs (List.append_cancel_left hinside)
          exact ⟨rfl, List.append_cancel_left hbehind⟩

theorem write_literal_injective {f g : Form} (h : f.write .literal = g.write .literal) :
    f = g :=
  (exact f (congrArg (· ++ []) h)).1

end Form

namespace Format

theorem print_literal (fs : List Form) :
    print .literal fs = .joined (.of "\n") (fs.map (Form.write .literal)) := rfl

theorem printable_lines (fs : List Form) :
    ∀ t ∈ fs.map (Form.write .literal), t.Printable :=
  List.forall_mem_map.mpr fun f _ => f.printable_write

/-- The lines of a printout are the literals. -/
theorem lines_print (fs : List Form) :
    (print .literal fs).lines = fs.map (Form.write .literal) := by
  rw [print_literal]
  refine Text.lines_joined ?_ (List.forall_mem_map.mpr fun f _ => ?_)
  · intro t ht c hc
    exact CodePoint.not_lineEnd_of_printable (printable_lines fs t ht c hc)
  · obtain ⟨c, u, hf, -⟩ := f.write_literal_begins
    rw [hf]
    exact List.cons_ne_nil c u

theorem encodable_print_literal (fs : List Form) : (print .literal fs).Encodable := by
  intro c hc
  rw [print_literal] at hc
  rcases Text.mem_joined hc with hfeed | ⟨t, ht, hc⟩
  · rw [List.mem_singleton.mp hfeed]
    rfl
  · exact CodePoint.not_surrogate_of_printable (printable_lines fs t ht c hc)

end Format

/-- **THE LITERAL FORMAT LOSES NOTHING**: the forms can be told from a printout,
    whatever the texts of their leaves are.  It has one line for each form, also
    for a reader that ends lines at more than line feeds, every character of a
    line is printable, and it can be encoded. -/
theorem print_literal_exact (fs : List Form) :
    (∀ gs, Format.print .literal gs = Format.print .literal fs → gs = fs) ∧
      (Format.print .literal fs).lines = fs.map (Form.write .literal) ∧
      (fs ≠ [] → (Format.print .literal fs).splitOn ('\n' : CodePoint)
        = fs.map (Form.write .literal)) ∧
      (∀ t ∈ (Format.print .literal fs).lines, t.Printable) ∧
      ∃ octets, Utf8.encode (Format.print .literal fs) = .ok octets := by
  refine ⟨fun gs hsame => ?_, Format.lines_print fs, fun hne => ?_, ?_, ?_⟩
  · -- equal printouts have equal lines
    have hlines := congrArg Text.lines hsame
    rw [Format.lines_print, Format.lines_print] at hlines
    exact (List.map_inj_right fun _ _ => Form.write_literal_injective).mp hlines
  · refine Text.splitOn_joined (fun t ht hfeed => ?_) (mt List.map_eq_nil_iff.mp hne)
    have hprintable := Format.printable_lines fs t ht _ hfeed
    exact absurd (CodePoint.not_lineEnd_of_printable hprintable) (by decide)
  · rw [Format.lines_print]
    exact Format.printable_lines fs
  · exact ⟨_, Utf8.encode_of_encodable (Format.encodable_print_literal fs)⟩

end FormReader
