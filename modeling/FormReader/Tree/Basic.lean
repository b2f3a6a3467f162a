/-! # Trees — leaves and calls

    A tree is a leaf with a content, or a call: an operator and the list of its
    operands, all of them trees.  An operator may be a call itself, and a call
    may have no operand.

    `Tree.size` counts the nodes; it is what every walk over a tree decreases.
    `Tree.induction` is induction over a tree with the operands' hypotheses
    given by membership. -/

namespace FormReader

/-- A tree of calls. -/
inductive Tree (α : Type) where
  | leaf (content : α)
  | call (operator : Tree α) (operands : List (Tree α))

namespace Tree

variable {α : Type}

mutual

/-- The number of nodes. -/
def size : Tree α → Nat
  | leaf _ => 1
  | call operator operands => 1 + operator.size + sizes operands

/-- The number of nodes of several trees. -/
def sizes : List (Tree α) → Nat
  | [] => 0
  | x :: xs => x.size + sizes xs

end

@[simp] theorem size_leaf (a : α) : (leaf a).size = 1 := rfl

@[simp] theorem size_call (f : Tree α) (xs : List (Tree α)) :
    (call f xs).size = 1 + f.size + sizes xs := rfl

@[simp] theorem sizes_nil : sizes ([] : List (Tree α)) = 0 := rfl

@[simp] theorem sizes_cons (x : Tree α) (xs : List (Tree α)) :
    sizes (x :: xs) = x.size + sizes xs := rfl

theorem sizes_append (xs ys : List (Tree α)) : sizes (xs ++ ys) = sizes xs + sizes ys := by
  induction xs with
  | nil => simp
  | cons x xs ih => simp [ih, Nat.add_assoc]

theorem sizes_reverse (xs : List (Tree α)) : sizes xs.reverse = sizes xs := by
  induction xs with
  | nil => rfl
  | cons x xs ih => simp [sizes_append, ih, Nat.add_comm]

mutual

/-- Deciding whether two trees are the same. -/
def decideEq [DecidableEq α] : (a b : Tree α) → Decidable (a = b)
  | leaf a, leaf b => decidable_of_iff (a = b) ⟨congrArg leaf, leaf.inj⟩
  | leaf _, call _ _ => isFalse nofun
  | call _ _, leaf _ => isFalse nofun
  | call f xs, call g ys =>
    match decideEq f g, decideEqs xs ys with
    | isTrue h, isTrue hs => isTrue (by rw [h, hs])
    | isFalse h, _ => isFalse fun same => h (call.inj same).1
    | _, isFalse h => isFalse fun same => h (call.inj same).2

/-- Deciding whether two lists of trees are the same. -/
def decideEqs [DecidableEq α] : (xs ys : List (Tree α)) → Decidable (xs = ys)
  | [], [] => isTrue rfl
  | [], _ :: _ => isFalse nofun
  | _ :: _, [] => isFalse nofun
  | x :: xs, y :: ys =>
    match decideEq x y, decideEqs xs ys with
    | isTrue h, isTrue hs => isTrue (by rw [h, hs])
    | isFalse h, _ => isFalse fun same => h (List.cons.inj same).1
    | _, isFalse h => isFalse fun same => h (List.cons.inj same).2

end

instance [DecidableEq α] : DecidableEq (Tree α) := decideEq

/-- Whatever holds of leaves, and of a call once it holds of its operator and its operands, holds of
    every tree. -/
theorem induction {motive : Tree α → Prop} (leaf : ∀ a, motive (.leaf a))
    (call : ∀ f xs, motive f → (∀ x ∈ xs, motive x) → motive (.call f xs)) (t : Tree α) :
    motive t := by
  match t with
  | .leaf a => exact leaf a
  | .call f xs => exact call f xs (induction leaf call f) fun x _ => induction leaf call x

end Tree

end FormReader
