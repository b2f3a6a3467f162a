import FormReader.Tree.Basic

/-! # Folding — one result for a tree from the results of its parts

    A fold gives every leaf a result and every call one made from the results of
    its operator and its operands.  It is a loop with two stacks, so a tree of
    any depth is folded on a constant call stack: the work still to be done, and
    the results that are there.  A call that comes up puts its parts on the work
    and, below them, a task to combine their results; that task finds them on
    top of the other results and leaves the call's result in their place.

    * `Tree.foldLoop` — the loop, with callbacks in any monad.  It answers the
      stack of results it ends with, or nothing if a call finds fewer results
      than it has parts.
    * `Tree.evaluate` — the recursion that says what the loop computes: operator
      first, operands from left to right, a call after its parts.
    * `Tree.tryFold`, `Tree.fold` — the result, with callbacks that may fail and
      with ones that may not.

    Loop and recursion agree above any results and any work (`foldLoop_visit`),
    so the stack never runs short and ends with one result. -/

namespace FormReader

namespace Tree

variable {α β ε : Type}

/-! ## The loop -/

/-- A piece of work. -/
inductive Task (α : Type) where
  /-- Give a tree its result. -/
  | visit (t : Tree α)
  /-- Give a call its result, those of its parts being there. -/
  | combine (operator : Tree α) (operands : List (Tree α))

/-- The steps that a task is good for, counted generously. -/
def Task.weight : Task α → Nat
  | visit t => 2 * t.size
  | combine _ _ => 1

/-- The steps that work is good for, counted generously. -/
def workload (work : List (Task α)) : Nat := work.foldr (fun task n => task.weight + n) 0

/-- Puts trees on the work, the first of them on top. -/
def visitAll (ts : List (Tree α)) (work : List (Task α)) : List (Task α) :=
  ts.reverse.foldl (fun work t => .visit t :: work) work

@[simp] theorem visitAll_nil (work : List (Task α)) : visitAll [] work = work := rfl

@[simp] theorem visitAll_cons (t : Tree α) (ts : List (Tree α)) (work : List (Task α)) :
    visitAll (t :: ts) work = .visit t :: visitAll ts work := by
  simp [visitAll]

@[simp] theorem workload_cons (task : Task α) (work : List (Task α)) :
    workload (task :: work) = task.weight + workload work := rfl

theorem workload_visitAll (ts : List (Tree α)) (work : List (Task α)) :
    workload (visitAll ts work) = 2 * sizes ts + workload work := by
  induction ts with
  | nil => simp
  | cons t ts ih => simp only [visitAll_cons, workload_cons, ih, Task.weight, sizes_cons]; omega

/-- Takes the results of an operator and of `n` operands off a stack with the last one on top:
    the operator's, the operands' in order, and the results below. None if there are too few. -/
def takeParts? (n : Nat) (results : List β) : Option (β × List β × List β) :=
  match (results.take (n + 1)).reverse with
  | [] => none
  | r :: rs => if rs.length = n then some (r, rs, results.drop (n + 1)) else none

/-- Does the work, with the given results there, and answers the results that are there in the end;
    none if a call finds fewer results than it has parts. -/
@[specialize] def foldLoop {m : Type → Type} [Monad m] (onLeaf : α → m β)
    (onCall : Tree α → List (Tree α) → β → List β → m β) :
    List (Task α) → List β → m (Option (List β))
  | [], results => pure (some results)
  | .visit (.leaf a) :: work, results => do
    let r ← onLeaf a
    foldLoop onLeaf onCall work (r :: results)
  | .visit (.call f xs) :: work, results =>
    foldLoop onLeaf onCall (visitAll (f :: xs) (.combine f xs :: work)) results
  | .combine f xs :: work, results =>
    match takeParts? xs.length results with
    | none => pure none
    | some (r, rs, below) => do
      let s ← onCall f xs r rs
      foldLoop onLeaf onCall work (s :: below)
termination_by work => workload work
decreasing_by
  all_goals simp only [workload_cons, workload_visitAll, Task.weight, size_leaf, size_call, sizes_cons]
  all_goals omega

/-! ## The recursion -/

section

variable {m : Type → Type} [Monad m]
  (onLeaf : α → m β) (onCall : Tree α → List (Tree α) → β → List β → m β)

mutual

/-- The result of a tree, by recursion on it. -/
def evaluate : Tree α → m β
  | .leaf a => onLeaf a
  | .call f xs => do
    let r ← evaluate f
    let rs ← evaluateAll xs
    onCall f xs r rs

/-- The results of trees, from left to right. -/
def evaluateAll : List (Tree α) → m (List β)
  | [] => pure []
  | x :: xs => do
    let r ← evaluate x
    let rs ← evaluateAll xs
    pure (r :: rs)

end

/-! ## The two agree -/

theorem takeParts?_behind (r : β) (rs below : List β) :
    takeParts? rs.length ((r :: rs).reverse ++ below) = some (r, rs, below) := by
  have hlength : rs.length + 1 = (r :: rs).reverse.length := by simp
  rw [takeParts?, hlength, List.take_left, List.drop_left, List.reverse_reverse]
  exact if_pos rfl

/-- A task to combine finds the results of its parts where they were put. -/
theorem foldLoop_combine (f : Tree α) {xs : List (Tree α)} (work : List (Task α)) (r : β)
    {rs : List β} (h : rs.length = xs.length) (results : List β) :
    foldLoop onLeaf onCall (.combine f xs :: work) ((r :: rs).reverse ++ results)
      = onCall f xs r rs >>= fun s => foldLoop onLeaf onCall work (s :: results) := by
  rw [foldLoop, ← h, takeParts?_behind]

variable [LawfulMonad m]

theorem foldLoop_visitAll {ts : List (Tree α)}
    (h : ∀ t ∈ ts, ∀ work results, foldLoop onLeaf onCall (.visit t :: work) results
      = evaluate onLeaf onCall t >>= fun r => foldLoop onLeaf onCall work (r :: results))
    (work : List (Task α)) (results : List β) :
    foldLoop onLeaf onCall (visitAll ts work) results
      = evaluateAll onLeaf onCall ts >>= fun rs =>
          foldLoop onLeaf onCall work (rs.reverse ++ results) := by
  induction ts generalizing results with
  | nil => simp [evaluateAll]
  | cons t ts ih =>
    obtain ⟨ht, hts⟩ := List.forall_mem_cons.mp h
    simp [evaluateAll, ht, ih hts]

/-- What follows the results of trees need only take lists of that length. -/
theorem evaluateAll_bind_congr {γ : Type} {ts : List (Tree α)} {k l : List β → m γ}
    (h : ∀ rs, rs.length = ts.length → k rs = l rs) :
    evaluateAll onLeaf onCall ts >>= k = evaluateAll onLeaf onCall ts >>= l := by
  induction ts generalizing k l with
  | nil => simpa [evaluateAll] using h [] rfl
  | cons t ts ih =>
    simp only [evaluateAll, bind_assoc, pure_bind]
    exact bind_congr fun r => ih fun rs hrs => h (r :: rs) (by simp [hrs])

/-- **The loop evaluates**: with a tree on top of any work, it computes the result of the tree, puts
    it on top of the results, and goes on. -/
theorem foldLoop_visit (t : Tree α) (work : List (Task α)) (results : List β) :
    foldLoop onLeaf onCall (.visit t :: work) results
      = evaluate onLeaf onCall t >>= fun r => foldLoop onLeaf onCall work (r :: results) := by
  induction t using Tree.induction generalizing work results with
  | leaf a => rw [foldLoop, evaluate]
  | call f xs hf hxs =>
    rw [foldLoop, visitAll_cons, hf, evaluate, bind_assoc]
    refine bind_congr fun r => ?_
    rw [foldLoop_visitAll onLeaf onCall hxs, bind_assoc]
    refine evaluateAll_bind_congr onLeaf onCall fun rs hrs => ?_
    rw [← foldLoop_combine onLeaf onCall f work r hrs, List.reverse_cons, List.append_assoc]
    rfl

/-- **The loop ends with one result**, that of the tree. -/
theorem foldLoop_eq (t : Tree α) :
    foldLoop onLeaf onCall [.visit t] []
      = (fun r => some [r]) <$> evaluate onLeaf onCall t := by
  rw [foldLoop_visit, map_eq_pure_bind]
  refine bind_congr fun r => ?_
  rw [foldLoop]

end

/-! ## Folds -/

/-- The one result that a loop ended with, unless a callback failed. -/
def soleResult : (answer : Except ε (Option (List β))) →
    (∀ results?, answer = .ok results? → ∃ r, results? = some [r]) → Except ε β
  | .error e, _ => .error e
  | .ok (some [r]), _ => .ok r
  | .ok none, h | .ok (some []), h | .ok (some (_ :: _ :: _)), h => absurd (h _ rfl) (by simp)

theorem soleResult_eq {answer : Except ε (Option (List β))}
    (h : ∀ results?, answer = .ok results? → ∃ r, results? = some [r]) {x : Except ε β}
    (hx : answer = (fun r => some [r]) <$> x) : soleResult answer h = x := by
  subst hx
  cases x with
  | error e => rfl
  | ok r => rfl

theorem foldLoop_ok {onLeaf : α → Except ε β}
    {onCall : Tree α → List (Tree α) → β → List β → Except ε β} {t : Tree α}
    {results? : Option (List β)} (h : foldLoop onLeaf onCall [.visit t] [] = .ok results?) :
    ∃ r, results? = some [r] := by
  rw [foldLoop_eq] at h
  cases hr : evaluate onLeaf onCall t with
  | error e => rw [hr] at h; cases h
  | ok r => rw [hr] at h; exact ⟨r, (Except.ok.inj h).symm⟩

/-- The result of a tree, from callbacks that may fail: `onLeaf` for the leaves and `onCall` for the
    calls, given the operator and the operands and their results. The first failure is the answer. -/
@[inline] def tryFold (onLeaf : α → Except ε β)
    (onCall : Tree α → List (Tree α) → β → List β → Except ε β) (t : Tree α) : Except ε β :=
  soleResult (foldLoop onLeaf onCall [.visit t] []) fun _ => foldLoop_ok

/-- A fold with callbacks that may fail is the recursion. -/
theorem tryFold_eq_evaluate (onLeaf : α → Except ε β)
    (onCall : Tree α → List (Tree α) → β → List β → Except ε β) (t : Tree α) :
    tryFold onLeaf onCall t = evaluate onLeaf onCall t :=
  soleResult_eq _ (foldLoop_eq onLeaf onCall t)

/-- The result of a tree: `onLeaf` for the leaves and `onCall` for the results of a call's parts. -/
@[inline] def fold (onLeaf : α → β) (onCall : β → List β → β) (t : Tree α) : β :=
  match tryFold (ε := Empty) (fun a => .ok (onLeaf a)) (fun _ _ r rs => .ok (onCall r rs)) t with
  | .ok r => r
  | .error e => nomatch e

end Tree

end FormReader
