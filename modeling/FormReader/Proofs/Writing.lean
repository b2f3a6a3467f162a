import FormReader.Form.Printer
import FormReader.Proofs.Folding

/-! # Writing — the text of a form, part by part

    A form is written by one fold into a rope.  What the rope holds is told
    here by recursion on the form: a leaf is written as the style has it, a call
    from the texts of its parts (`Style.callText`).  Everything that is proved
    about a style starts from `write_leaf` and `write_call` and does not look at
    ropes again.

    `callText_source` and `callText_structured` say what a call looks like in
    these two styles: the parts in a row between parentheses, and an object
    with three members.  `splitOn_joined` takes a printout apart into its lines. -/

namespace FormReader

/-! ## Lines -/

theorem Text.joined_eq_intercalate (separator : Text) (ts : List Text) :
    Text.joined separator ts = separator.intercalate ts := by
  cases ts with
  | nil => rfl
  | cons t ts =>
      induction ts generalizing t with
      | nil => rw [Text.joined_singleton, List.intercalate_singleton]
      | cons u us ih =>
          rw [Text.joined_cons_cons, ih u, List.intercalate_cons_cons,
            List.append_assoc]

theorem Text.mem_joined {separator : Text} {ts : List Text} {c : CodePoint}
    (h : c ∈ Text.joined separator ts) : c ∈ separator ∨ ∃ t ∈ ts, c ∈ t := by
  cases ts with
  | nil => cases h
  | cons t ts =>
      rcases List.mem_append.mp h with ht | hts
      · exact .inr ⟨t, List.mem_cons_self, ht⟩
      · obtain ⟨u, hu, hc⟩ := List.mem_flatMap.mp hts
        rcases List.mem_append.mp hc with hs | hc
        · exact .inl hs
        · exact .inr ⟨u, List.mem_cons_of_mem t hu, hc⟩

/-- Texts without a code point, joined by it, are what stands between its
    places. -/
theorem Text.splitOn_joined {c : CodePoint} {ts : List Text}
    (h : ∀ t ∈ ts, c ∉ t) (hne : ts ≠ []) :
    (Text.joined [c] ts).splitOn c = ts := by
  rw [joined_eq_intercalate, List.splitOn_intercalate c h hne]

/-! ## Calls -/

namespace Style

variable (s : Style)

/-- The texts of operands in a row. -/
def operandsText : List Text → Text
  | [] => []
  | ts => s.beforeFirst ++ .joined s.separator ts

/-- The text of a call, from those of its parts. -/
def callText (operator : Text) (operands : List Text) : Text :=
  s.opening ++ operator ++ s.afterOperator ++ s.operandsText operands
    ++ s.closing

theorem contents_operands (xs : List Rope) :
    (s.operands xs).contents = s.operandsText (xs.map Rope.contents) := by
  cases xs with
  | nil => rfl
  | cons x xs =>
      have htail : (xs.map (Rope.piece s.separator ++ ·)).flatMap Rope.contents
          = (xs.map Rope.contents).flatMap (s.separator ++ ·) := by
        rw [List.flatMap_map, List.flatMap_map]
        rfl
      show s.beforeFirst ++ x.contents ++ (Rope.concat _).contents = _
      rw [Rope.contents_concat, htail, List.append_assoc]
      rfl

theorem contents_call (f : Rope) (xs : List Rope) :
    (s.call f xs).contents = s.callText f.contents (xs.map Rope.contents) := by
  rw [callText, ← contents_operands]
  rfl

/-- A call as it would be entered: the parts with a space between any two, in
    parentheses. -/
theorem callText_source (f : Text) (xs : List Text) :
    Style.source.callText f xs
      = .of "(" ++ (f ++ (xs.flatMap (Text.of " " ++ ·) ++ .of ")")) := by
  have hoperands : Style.source.operandsText xs
      = xs.flatMap (Text.of " " ++ ·) := by
    cases xs with
    | nil => rfl
    | cons x xs => exact (List.append_assoc ..).symm
  rw [callText, hoperands, List.append_assoc, List.append_assoc]
  rfl

/-- A leaf in the structured style is an object with two members. -/
theorem atom_structured (a : Atom) :
    Style.structured.atom a
      = Json.braced
          [Json.encodeString (.of "kind") ++ .of ": "
              ++ Json.encodeString a.kind,
            Json.encodeString a.member ++ .of ": "
              ++ Json.encodeString a.text] := by
  show a.toJson.encode = _
  rw [Atom.toJson, Json.encode_object, List.map_cons, List.map_cons,
    List.map_nil, Json.encode, Json.encode]

/-- A call in the structured style is an object with three members. -/
theorem callText_structured (f : Text) (xs : List Text) :
    Style.structured.callText f xs
      = Json.braced
          [Json.encodeString (.of "kind") ++ .of ": "
              ++ Json.encodeString Form.callKind,
            Json.encodeString (.of "operator") ++ .of ": " ++ f,
            Json.encodeString (.of "operands") ++ .of ": "
              ++ Json.bracketed xs] := by
  have hopening : Style.structured.opening
      = .of "\x7b" ++ (Json.encodeString (.of "kind") ++ .of ": "
          ++ Json.encodeString Form.callKind) ++ .of ", "
          ++ (Json.encodeString (.of "operator") ++ .of ": ") := by decide +kernel
  have hafter : Style.structured.afterOperator
      = .of ", " ++ (Json.encodeString (.of "operands") ++ .of ": ")
          ++ .of "[" := by decide +kernel
  have hclosing : Style.structured.closing = .of "]" ++ .of "\x7d" := rfl
  have hoperands : Style.structured.operandsText xs = .joined (.of ", ") xs := by
    cases xs with
    | nil => rfl
    | cons x xs => rfl
  rw [callText, hopening, hafter, hclosing, hoperands, Json.braced,
    Json.bracketed, Text.joined_cons_cons, Text.joined_cons_cons,
    Text.joined_singleton]
  simp only [List.append_assoc]

end Style

/-! ## Forms -/

namespace Form

variable (s : Style)

@[simp] theorem write_leaf (a : Atom) : write s (.leaf a) = s.atom a := by
  rw [write, Rope.toText_eq_contents, toRope, Tree.fold_leaf]
  rfl

/-- **A CALL IS WRITTEN FROM ITS PARTS**. -/
@[simp] theorem write_call (f : Form) (xs : List Form) :
    write s (.call f xs) = s.callText (write s f) (xs.map (write s)) := by
  have hparts : xs.map (write s)
      = (xs.map (Tree.fold (fun a => .piece (s.atom a)) s.call)).map
          Rope.contents := by
    rw [List.map_map]
    exact List.map_congr_left fun x _ => Rope.toText_eq_contents _
  rw [write, Rope.toText_eq_contents, toRope, Tree.fold_call,
    Style.contents_call, hparts, write, Rope.toText_eq_contents]
  rfl

end Form

end FormReader
