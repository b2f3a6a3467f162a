import FormReader.Form.Digest
import FormReader.Form.Printer

/-! # Sketches — forms with holes

    A sketch is a form in which some leaves may still be holes.  Shape and
    measures make sense for a sketch, and so does comparing it with another one
    as long as no two holes meet.  The other views are folds that refuse the
    first hole they come to (`Sketch.view`): the structured value, the form in
    the source style, the digest.

    In the literal style a hole would not fail but be shown by where it is kept
    in memory, which is not told here.  So the literal style, and the fields of
    a call, which are given by it, are told of sketches without holes only; a
    sketch with a hole is refused there as well.

    * `Sketch.equal` — the comparison, which fails where two holes meet.
    * `Comparand` — what may be compared with a sketch: another sketch, or a
      text, which equals no sketch.
    * `Comparand.setOf` — a set, in which values are looked up by their digests. -/

namespace FormReader

/-- A form with holes. -/
abbrev Sketch := Tree (Option Atom)

/-- Something was asked of a hole. -/
inductive Unfilled where
  | hole
  deriving DecidableEq

namespace Sketch

/-- What a sketch is called. -/
def kind : Sketch → Text
  | .leaf none => .of "expression"
  | .leaf (some a) => a.kind
  | .call _ _ => Form.callKind

/-! ## Views -/

section

variable {β : Type}

/-- What is made of a leaf. A hole is refused. -/
def filled (onAtom : Atom → β) : Option Atom → Except Unfilled β
  | some a => .ok (onAtom a)
  | none => .error .hole

/-- A fold that refuses holes. -/
def view (onAtom : Atom → β) (onCall : β → List β → β) (s : Sketch) : Except Unfilled β :=
  s.tryFold (filled onAtom) fun _ _ r rs => .ok (onCall r rs)

end

/-- The form that a sketch without holes is. -/
def form (s : Sketch) : Except Unfilled Form := s.view .leaf .call

/-- The structured value. -/
def toJson (s : Sketch) : Except Unfilled Json := s.view Atom.toJson Form.callJson

/-- The sketch written in a style. A hole is refused in every style; in the literal one it would have
    a text, but not one that is told here. -/
def write (style : Style) (s : Sketch) : Except Unfilled Text :=
  (s.view (fun a => .piece (style.atom a)) style.call).map Rope.toText

/-- What a sketch is made of, written out: the text of a leaf, or the operator and the operands of a
    call. -/
inductive Fields where
  | leaf (text : Text)
  | call (operator : Text) (operands : List Text)
  deriving DecidableEq

/-- What a form is made of. -/
def Fields.ofForm : Form → Fields
  | .leaf a => .leaf a.text
  | .call f xs => .call (Form.write .literal f) (xs.map (Form.write .literal))

/-- What a sketch is made of. A hole is refused, also among the parts of a call, which are shown in
    the literal style. -/
def fields (s : Sketch) : Except Unfilled Fields := s.form.map .ofForm

/-! ## Digests -/

section

variable {H : Type} (hash : Digestible H → H)

/-- The digest of an atom: that of its kind and of a row that holds its text. -/
def atomDigest (a : Atom) : H := hash (.row [.text a.kind, .row [.text a.text]])

/-- The digest of a call, from those of its parts. -/
def callDigest (operator : H) (operands : List H) : H :=
  hash (.row [.text Form.callKind, .digest operator, .row (operands.map .digest)])

/-- The digest of a sketch. -/
def digest (s : Sketch) : Except Unfilled H := s.view (atomDigest hash) (callDigest hash)

end

/-! ## Comparing -/

/-- Two leaves are equal. Two holes cannot be compared. -/
def sameLeaf : Option Atom → Option Atom → Except Unfilled Bool
  | none, none => .error .hole
  | a, b => .ok (a = b)

/-- Two sketches are equal. -/
def equal (a b : Sketch) : Except Unfilled Bool := Tree.equal sameLeaf a b

end Sketch

/-! ## Comparing anything with a sketch -/

/-- A value that is compared. -/
inductive Comparand where
  | sketch (s : Sketch)
  | text (t : Text)

namespace Comparand

/-- Two values are equal; a sketch never equals a text. -/
def equal : Comparand → Comparand → Except Unfilled Bool
  | sketch a, sketch b => a.equal b
  | text a, text b => .ok (a = b)
  | _, _ => .ok false

/-! ## Sets -/

section

variable {H : Type} (hash : Digestible H → H)

/-- The digest of a value. -/
def digest : Comparand → Except Unfilled H
  | sketch s => s.digest hash
  | text t => .ok (hash (.text t))

variable [DecidableEq H]

/-- A value with a given digest is known: it equals one that is there under the same digest. -/
def known (h : H) (v : Comparand) : List (H × Comparand) → Except Unfilled Bool
  | [] => .ok false
  | (k, w) :: rest =>
    if k = h then do
      if ← w.equal v then pure true else known h v rest
    else known h v rest

/-- The values that are there, under their digests, and one more unless it is known. -/
def insert (kept : List (H × Comparand)) (v : Comparand) :
    Except Unfilled (List (H × Comparand)) := do
  let h ← v.digest hash
  if ← known h v kept then pure kept else pure ((h, v) :: kept)

/-- The set of given values, each under its digest. -/
def setOf (values : List Comparand) : Except Unfilled (List (H × Comparand)) :=
  values.foldlM (insert hash) []

end

/-- Two values have the same digest. -/
def sameDigest (a b : Comparand) : Except Unfilled Bool := do
  let h ← a.digest Digestible.mixed
  let k ← b.digest Digestible.mixed
  pure (h = k)

/-- The number of different values among given ones. -/
def distinct (values : List Comparand) : Except Unfilled Nat :=
  (setOf Digestible.mixed values).map List.length

end Comparand

end FormReader
