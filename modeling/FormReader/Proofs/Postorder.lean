import FormReader.Proofs.Holes

/-! # Postorder — which callbacks a fold asks, and in which order

    A fold is a loop that computes what the recursion does, whatever its
    callbacks do besides.  Here the callbacks note the node they are asked about
    (`Logged`), so the loop tells in which order it asks.

    The order is that of `postorder`: the operator, the operands from left to
    right, then the call.  A failure ends the fold, so the nodes that are asked
    about are those up to the first that fails (`InTurn`).  Nodes in a row are
    put together by `InTurn.append` and `InTurn.ended`; `evaluate_logged` does it
    along the tree. -/

namespace FormReader

namespace Tree

variable {α β ε : Type}

/-! ## The order of the nodes -/

mutual

/-- The nodes of a tree, a call behind its parts. -/
def postorder : Tree α → List (Tree α)
  | .leaf a => [.leaf a]
  | .call f xs => postorder f ++ (postorders xs ++ [.call f xs])

/-- The nodes of trees in a row. -/
def postorders : List (Tree α) → List (Tree α)
  | [] => []
  | x :: xs => postorder x ++ postorders xs

end

example : (call (leaf 1) [leaf 2, call (leaf 3) []]).postorder
    = [leaf 1, leaf 2, leaf 3, call (leaf 3) [], call (leaf 1) [leaf 2, call (leaf 3) []]] :=
  rfl

/-- The failure in an answer, if it is one. -/
def failure? : Except ε β → Option ε
  | .ok _ => none
  | .error e => some e

/-- Nodes in a row are asked about: all of them if each has a value, and otherwise
    those up to the first that has none, which gives the failure. -/
inductive InTurn (value : Tree α → Except ε β) :
    (nodes asked : List (Tree α)) → Option ε → Prop
  | all {nodes : List (Tree α)} (hvalues : ∀ n ∈ nodes, ∃ r, value n = .ok r) :
      InTurn value nodes nodes none
  | failed {before after : List (Tree α)} {node : Tree α} {e : ε}
      (hvalues : ∀ n ∈ before, ∃ r, value n = .ok r) (hnode : value node = .error e) :
      InTurn value (before ++ node :: after) (before ++ [node]) (some e)

namespace InTurn

variable {value : Tree α → Except ε β} {nodes nodes' asked asked' : List (Tree α)}

/-- Where no node fails, those behind are asked about. -/
theorem append {e? : Option ε} (h : InTurn value nodes asked none)
    (h' : InTurn value nodes' asked' e?) :
    InTurn value (nodes ++ nodes') (asked ++ asked') e? := by
  cases h with
  | all hvalues =>
      cases h' with
      | all hvalues' => exact .all (List.forall_mem_append.mpr ⟨hvalues, hvalues'⟩)
      | failed hvalues' hnode =>
          rw [← List.append_assoc, ← List.append_assoc]
          exact .failed (List.forall_mem_append.mpr ⟨hvalues, hvalues'⟩) hnode

/-- Where a node fails, those behind are not. -/
theorem ended {e : ε} (h : InTurn value nodes asked (some e)) (nodes' : List (Tree α)) :
    InTurn value (nodes ++ nodes') asked (some e) := by
  cases h with
  | failed hvalues hnode =>
      rw [List.append_assoc]
      exact .failed hvalues hnode

theorem single (value : Tree α → Except ε β) (node : Tree α) :
    InTurn value [node] [node] (failure? (value node)) := by
  cases hnode : value node with
  | ok r => exact .all (List.forall_mem_singleton.mpr ⟨r, hnode⟩)
  | error e => exact .failed (List.forall_mem_nil _) hnode

end InTurn

/-! ## Callbacks that are logged -/

/-- A computation that may fail and logs nodes. -/
abbrev Logged (α ε : Type) := ExceptT ε (StateM (List (Tree α)))

/-- Logs a node and answers. -/
def note (node : Tree α) (answer : Except ε β) : Logged α ε β :=
  fun log => (answer, log ++ [node])

section

variable (onLeaf : α → Except ε β) (onCall : Tree α → List (Tree α) → β → List β → Except ε β)

/-- The callback for leaves, logged. -/
def logLeaf (a : α) : Logged α ε β := note (.leaf a) (onLeaf a)

/-- The callback for calls, logged. -/
def logCall (f : Tree α) (xs : List (Tree α)) (r : β) (rs : List β) : Logged α ε β :=
  note (.call f xs) (onCall f xs r rs)

end

theorem bind_of_ok {γ : Type} {x : Logged α ε β} {k : β → Logged α ε γ}
    {log log' : List (Tree α)} {r : β} (h : x log = (.ok r, log')) :
    (x >>= k) log = k r log' := by
  show ExceptT.bindCont k (x log).1 (x log).2 = _
  rw [h]
  rfl

theorem bind_of_error {γ : Type} {x : Logged α ε β} {k : β → Logged α ε γ}
    {log log' : List (Tree α)} {e : ε} (h : x log = (.error e, log')) :
    (x >>= k) log = (.error e, log') := by
  show ExceptT.bindCont k (x log).1 (x log).2 = _
  rw [h]
  rfl

/-! ## What the recursion asks -/

section

variable (onLeaf : α → Except ε β)
  (onCall : Tree α → List (Tree α) → β → List β → Except ε β)

/-- A computation gives an answer, and asks about given nodes in turn. -/
def Asks {γ : Type} (nodes : List (Tree α)) (x : Logged α ε γ) (answer : Except ε γ) : Prop :=
  ∀ log, ∃ asked, x log = (answer, log ++ asked) ∧
    InTurn (evaluate onLeaf onCall) nodes asked (failure? answer)

variable {onLeaf onCall}

/-- What is computed next asks next, unless there was a failure. -/
theorem Asks.bind {γ δ : Type} {nodes nodes' : List (Tree α)} {x : Logged α ε γ}
    {answer : Except ε γ} {k : γ → Logged α ε δ} {l : γ → Except ε δ}
    (h : Asks onLeaf onCall nodes x answer)
    (h' : ∀ r, answer = .ok r → Asks onLeaf onCall nodes' (k r) (l r)) :
    Asks onLeaf onCall (nodes ++ nodes') (x >>= k) (answer >>= l) := by
  intro log
  obtain ⟨asked, hx, hturn⟩ := h log
  cases hanswer : answer with
  | error e =>
      rw [hanswer] at hx hturn
      exact ⟨asked, bind_of_error hx, hturn.ended nodes'⟩
  | ok r =>
      rw [hanswer] at hx hturn
      obtain ⟨asked', hk, hturn'⟩ := h' r hanswer (log ++ asked)
      refine ⟨asked ++ asked', ?_, hturn.append hturn'⟩
      rw [bind_of_ok hx, hk, List.append_assoc]
      rfl

theorem asks_pure {γ : Type} (r : γ) : Asks onLeaf onCall [] (pure r) (.ok r) := by
  intro log
  refine ⟨[], ?_, .all (List.forall_mem_nil _)⟩
  rw [List.append_nil]
  rfl

/-- A callback asks about its node. -/
theorem asks_note {node : Tree α} {answer : Except ε β}
    (h : evaluate onLeaf onCall node = answer) :
    Asks onLeaf onCall [node] (note node answer) answer := by
  intro log
  refine ⟨[node], rfl, ?_⟩
  rw [← h]
  exact .single _ node

theorem asks_evaluateAll {ts : List (Tree α)}
    (h : ∀ t ∈ ts, Asks onLeaf onCall t.postorder
      (evaluate (logLeaf onLeaf) (logCall onCall) t) (evaluate onLeaf onCall t)) :
    Asks onLeaf onCall (postorders ts)
      (evaluateAll (logLeaf onLeaf) (logCall onCall) ts) (evaluateAll onLeaf onCall ts) := by
  induction ts with
  | nil => exact asks_pure []
  | cons t ts ih =>
      obtain ⟨ht, hts⟩ := List.forall_mem_cons.mp h
      refine ht.bind ?_
      intro r _
      rw [← List.append_nil (postorders ts)]
      refine (ih hts).bind ?_
      intro rs _
      exact asks_pure (r :: rs)

variable (onLeaf onCall) in
/-- **A TREE IS ASKED ABOUT IN POSTORDER**, up to the first failure. -/
theorem asks_evaluate (t : Tree α) : Asks onLeaf onCall t.postorder
    (evaluate (logLeaf onLeaf) (logCall onCall) t) (evaluate onLeaf onCall t) := by
  induction t using Tree.induction with
  | leaf a => exact asks_note rfl
  | call f xs hf hxs =>
      refine hf.bind ?_
      intro r hr
      refine (asks_evaluateAll hxs).bind ?_
      intro rs hrs
      refine asks_note ?_
      rw [evaluate, hr, hrs]
      rfl

end

end Tree

/-- **A FOLD IS THE RECURSION**.  With callbacks that do anything besides, the loop
    computes what the recursion does, and ends with its result alone on the stack.
    With callbacks that may fail, it asks about the nodes in postorder and up to
    the first that fails, and answers with that failure.  So a view of a sketch
    fails exactly if there is a hole in it. -/
theorem fold_is_recursion :
    (∀ {α β : Type} {m : Type → Type} [Monad m] [LawfulMonad m] (onLeaf : α → m β)
        (onCall : Tree α → List (Tree α) → β → List β → m β) (t : Tree α),
      Tree.foldLoop onLeaf onCall [.visit t] []
        = (fun r => some [r]) <$> t.evaluate onLeaf onCall) ∧
    (∀ {α β ε : Type} (onLeaf : α → Except ε β)
        (onCall : Tree α → List (Tree α) → β → List β → Except ε β) (t : Tree α),
      t.tryFold onLeaf onCall = t.evaluate onLeaf onCall ∧
      ∀ log, ∃ asked,
        Tree.foldLoop (Tree.logLeaf onLeaf) (Tree.logCall onCall) [.visit t] [] log
          = ((t.tryFold onLeaf onCall).map fun r => some [r], log ++ asked) ∧
        Tree.InTurn (Tree.evaluate onLeaf onCall) t.postorder asked
          (Tree.failure? (t.tryFold onLeaf onCall))) ∧
    ∀ s : Sketch,
      (s.toJson = .error .hole ↔ none ∈ s.leaves) ∧
      (s.write .source = .error .hole ↔ none ∈ s.leaves) ∧
      (s.write .structured = .error .hole ↔ none ∈ s.leaves) ∧
      ∀ {H : Type} (hash : Digestible H → H),
        (s.digest hash = .error .hole ↔ none ∈ s.leaves) := by
  refine ⟨?_, ?_, ?_⟩
  · intro α β m _ _ onLeaf onCall t
    exact Tree.foldLoop_eq onLeaf onCall t
  · intro α β ε onLeaf onCall t
    rw [Tree.tryFold_eq_evaluate]
    refine ⟨rfl, ?_⟩
    intro log
    obtain ⟨asked, hlog, hturn⟩ := Tree.asks_evaluate onLeaf onCall t log
    refine ⟨asked, ?_, hturn⟩
    rw [Tree.foldLoop_eq, map_eq_pure_bind]
    cases hvalue : t.evaluate onLeaf onCall with
    | ok r =>
        rw [hvalue] at hlog
        exact Tree.bind_of_ok hlog
    | error e =>
        rw [hvalue] at hlog
        exact Tree.bind_of_error hlog
  · intro s
    refine ⟨Sketch.view_refused_iff, Sketch.write_refused_iff, Sketch.write_refused_iff, ?_⟩
    intro H hash
    exact Sketch.view_refused_iff

/-- A sketch with a hole in the operator of an operand: a loop that looks for the
    first text does what the recursion does, and there is no structured value. -/
theorem fold_is_recursion_hole :
    let s : Sketch := .call (.leaf (some (.identifier (.of "f")))) [.call (.leaf none) []]
    Tree.foldLoop (Option.map Atom.text) (fun _ _ r _ => some r) [.visit s] []
        = (fun r => some [r]) <$> s.evaluate (Option.map Atom.text) (fun _ _ r _ => some r) ∧
      none ∈ s.leaves ∧ s.toJson = .error .hole := by
  intro s
  have hhole : none ∈ s.leaves := by
    simp only [s, Tree.leaves_call, Tree.leaves_leaf, List.flatMap_cons, List.flatMap_nil]
    decide
  exact ⟨fold_is_recursion.1 _ _ s, hhole, (fold_is_recursion.2.2 s).1.mpr hhole⟩

end FormReader
