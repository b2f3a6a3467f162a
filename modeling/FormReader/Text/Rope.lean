import FormReader.Text.Basic

/-! # Ropes — texts under construction

    A printer that walks a tree appends texts of very different lengths;
    appending lists would copy the long ones again at every level.  A `Rope`
    records the appends instead and is written out once.

    `Rope.contents` is the meaning: a join is its first part followed by its
    second.  `Rope.toText` is what runs: a list of ropes still to be written,
    worked off from the right with the finished text behind it, so that neither
    the depth nor the length of a rope costs stack.  The two agree
    (`toText_eq_contents`). -/

namespace FormReader

/-- A text given by its pieces. -/
inductive Rope where
  | empty
  | piece (t : Text)
  | join (first second : Rope)

namespace Rope

instance : Append Rope := ⟨join⟩

/-- The text that a rope stands for. -/
def contents : Rope → Text
  | empty => []
  | piece t => t
  | join a b => a.contents ++ b.contents

/-- The number of nodes of a rope. -/
def weight : Rope → Nat
  | empty => 1
  | piece _ => 1
  | join a b => 1 + a.weight + b.weight

/-- The ropes written out in front of a finished text, the last one of them first. -/
def writeOnto : List Rope → Text → Text
  | [], done => done
  | .empty :: rest, done => writeOnto rest done
  | .piece t :: rest, done => writeOnto rest (t ++ done)
  | .join a b :: rest, done => writeOnto (b :: a :: rest) done
termination_by ropes => ropes.foldr (fun r n => r.weight + n) 0
decreasing_by all_goals simp only [List.foldr_cons, weight]; omega

/-- The rope written out. -/
def toText (r : Rope) : Text := writeOnto [r] []

theorem writeOnto_eq (ropes : List Rope) (done : Text) :
    writeOnto ropes done = (ropes.reverse.flatMap contents) ++ done := by
  fun_induction writeOnto ropes done with
  | case1 done => rfl
  | case2 rest done ih =>
    rw [ih, List.reverse_cons, List.flatMap_append, List.flatMap_singleton, contents,
      List.append_nil]
  | case3 t rest done ih =>
    rw [ih, List.reverse_cons, List.flatMap_append, List.flatMap_singleton, contents,
      List.append_assoc]
  | case4 a b rest done ih =>
    rw [ih]
    simp only [List.reverse_cons, List.flatMap_append, List.flatMap_singleton, contents,
      List.append_assoc]

theorem toText_eq_contents (r : Rope) : r.toText = r.contents := by
  simp [toText, writeOnto_eq]

@[simp] theorem contents_append (a b : Rope) : (a ++ b).contents = a.contents ++ b.contents := rfl

/-- The ropes one after the other. -/
def concat (ropes : List Rope) : Rope := ropes.foldr join empty

@[simp] theorem contents_concat (ropes : List Rope) :
    (concat ropes).contents = ropes.flatMap contents := by
  induction ropes with
  | nil => rfl
  | cons r rest ih => simpa [concat, contents] using ih

end Rope

end FormReader
