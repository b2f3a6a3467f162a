import FormReader.Tree.Basic

/-! # Comparing trees — pairs still to be compared

    Two trees are compared through a list of pairs.  Behind a pair of calls with
    equally many operands come their operand pairs, the last one first, and
    their operators after those.  The first difference settles the comparison.
    Comparing two contents may fail; a failure ends the comparison as well. -/

namespace FormReader

namespace Tree

variable {α ε : Type}

/-- The pairs are equal, each one compared by `same` at the leaves. -/
def equalPairs (same : α → α → Except ε Bool) : List (Tree α × Tree α) → Except ε Bool
  | [] => .ok true
  | (.leaf a, .leaf b) :: rest =>
    match same a b with
    | .ok true => equalPairs same rest
    | .ok false => .ok false
    | .error e => .error e
  | (.call f xs, .call g ys) :: rest =>
    if xs.length = ys.length then equalPairs same ((xs.zip ys).reverse ++ (f, g) :: rest)
    else .ok false
  | (.leaf _, .call _ _) :: _ => .ok false
  | (.call _ _, .leaf _) :: _ => .ok false
termination_by pairs => sizes (pairs.map Prod.fst)
decreasing_by
  · simp
  · have firsts : (xs.zip ys).map Prod.fst = xs := List.map_fst_zip (by omega)
    simp [sizes_append, sizes_reverse, firsts, Nat.add_assoc]
    omega

/-- The trees are equal, compared by `same` at the leaves. -/
def equal (same : α → α → Except ε Bool) (a b : Tree α) : Except ε Bool :=
  equalPairs same [(a, b)]

end Tree

end FormReader
