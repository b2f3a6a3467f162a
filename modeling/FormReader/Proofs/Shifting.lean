import FormReader.Proofs.OpenLists
import FormReader.Proofs.Stream

/-! # Shifting — the run of a reader up to the token where it stops

    Reading a form is a run of moves that use a token up and go on inside the
    open lists, and one last move that does not.  `Reader.Shifts` is that run
    without its last move.  One step of it spends one lexeme, so by induction a
    whole run spends what its tokens spell (`Shifts.spells`), takes them off the
    stream (`Shifts.stream`) and advances once for each (`Shifts.advances`).

    In the other direction the run is found from the stream: over the spelling
    of a form it comes to the move that completes the form, whatever lists are
    open around it (`completes`).  The induction is over the form, and the
    lists and the rest of the stream are arbitrary in it. -/

namespace FormReader

namespace Reader

open OpenList

/-- `Shifts lists r ts lists' r'`: reading on inside `lists`, the reader `r` uses
    up the tokens `ts`, which leaves the reader `r'` inside `lists'`. -/
inductive Shifts :
    List OpenList → Reader → List Token → List OpenList → Reader → Prop where
  | refl (lists : List OpenList) (r : Reader) : Shifts lists r [] lists r
  | step {lists lists₁ lists' : List OpenList} {r r₁ r' : Reader} {t : Token}
      {ts : List Token} :
      r.lookahead = some t → r.move lists = .shift lists₁ →
      r.advance = (.ok (), r₁) → Shifts lists₁ r₁ ts lists' r' →
      Shifts lists r (t :: ts) lists' r'

variable {lists lists' : List OpenList} {r r' : Reader} {ts : List Token}

theorem Shifts.trans {lists'' : List OpenList} {r'' : Reader}
    {us : List Token} (h₁ : Shifts lists r ts lists' r')
    (h₂ : Shifts lists' r' us lists'' r'') :
    Shifts lists r (ts ++ us) lists'' r'' := by
  induction h₁ with
  | refl => exact h₂
  | step looking hmove hadv _ ih => exact .step looking hmove hadv (ih h₂)

/-- One more step behind a run. -/
theorem Shifts.concat {lists'' : List OpenList} {r'' : Reader} {t : Token}
    (h : Shifts lists r ts lists' r') (looking : r'.lookahead = some t)
    (hmove : r'.move lists' = .shift lists'')
    (hadv : r'.advance = (.ok (), r'')) :
    Shifts lists r (ts ++ [t]) lists'' r'' :=
  h.trans (.step looking hmove hadv (.refl ..))

/-- Reading on from the end of a run is reading on from its beginning. -/
theorem Shifts.readFrom (h : Shifts lists r ts lists' r') :
    r.readFrom lists = r'.readFrom lists' := by
  induction h with
  | refl => rfl
  | step _ hmove hadv _ ih =>
      rw [readFrom_eq, hmove, hadv]
      exact ih

theorem Shifts.stream (h : Shifts lists r ts lists' r') :
    r.stream = ts ++ r'.stream := by
  induction h with
  | refl => rfl
  | step looking _ hadv _ ih =>
      rw [stream_advance looking hadv, ih, List.cons_append]

theorem Shifts.advances (h : Shifts lists r ts lists' r') :
    r.advances ts.length = (.ok (), r') := by
  induction h with
  | refl => rfl
  | step _ _ hadv _ ih => rw [List.length_cons, advances_succ hadv, ih]

theorem Shifts.mode (h : Shifts lists r ts lists' r') : r'.mode = r.mode := by
  induction h with
  | refl => rfl
  | @step _ _ _ r _ _ _ _ _ _ hadv _ ih =>
      rw [ih, ← mode_advance r, hadv]

theorem Shifts.plain (h : Shifts lists r ts lists' r')
    (plain : r.source.Plain) : r'.source.Plain := by
  induction h with
  | refl => exact plain
  | step _ _ hadv _ ih => exact ih (plain_advance plain hadv)

/-- **A RUN SPENDS WHAT ITS TOKENS SPELL**. -/
theorem Shifts.spells (h : Shifts lists r ts lists' r') :
    ∃ ls, Spells ts ls ∧ spent lists' = spent lists ++ ls := by
  induction h with
  | refl => exact ⟨[], spells_nil.mpr rfl, (List.append_nil _).symm⟩
  | @step lists lists₁ _ _ _ _ t _ looking hmove _ _ ih =>
      obtain ⟨ls, hls, hspent⟩ := ih
      rw [move, looking] at hmove
      have hstep := congrArg Move.spent? hmove
      obtain ⟨l, hl, hone⟩ := Move.spent?_next hstep
      refine ⟨l :: ls, spells_cons.mpr ⟨t, _, rfl, hl, hls⟩, ?_⟩
      rw [hspent, hone, List.append_assoc]
      rfl

/-- A run goes on to a move that does not shift, unless the source fails. -/
theorem exists_stop (lists : List OpenList) (r : Reader) :
    ∃ ts lists' r', Shifts lists r ts lists' r'
      ∧ ∀ lists₁ r₁, r'.move lists' = .shift lists₁ →
          r'.advance ≠ (.ok (), r₁) := by
  fun_induction readFrom lists r with
  | case1 lists r hmove => exact ⟨[], lists, r, .refl .., by simp [hmove]⟩
  | case2 lists r e hmove => exact ⟨[], lists, r, .refl .., by simp [hmove]⟩
  | case3 lists r f hmove => exact ⟨[], lists, r, .refl .., by simp [hmove]⟩
  | case4 lists r f hmove => exact ⟨[], lists, r, .refl .., by simp [hmove]⟩
  | case5 lists r lists₁ hmove r₁ hadv ih =>
      obtain ⟨t, looking⟩ := lookahead_of_shift hmove
      obtain ⟨ts, lists', r', h, hstop⟩ := ih
      exact ⟨t :: ts, lists', r', .step looking hmove hadv h, hstop⟩
  | case6 lists r lists₁ hmove e r₁ hadv =>
      exact ⟨[], lists, r, .refl .., by simp [hadv]⟩

/-! ## Over the spelling of a form -/

/-- Over its spelling, a run comes to the move that completes the form. -/
def Completes (f : Form) : Prop :=
  ∀ (lists : List OpenList) (r : Reader) (ws : List Token) (t : Token)
    (rest : List Token), Spells (ws ++ [t]) (Form.lexemes f) →
    r.stream = ws ++ t :: rest →
    ∃ lists' r', Shifts lists r ws lists' r' ∧ r'.stream = t :: rest
      ∧ r'.move lists' = .complete f lists

/-- Inside a list, a form that more tokens follow is shifted whole. -/
theorem shifts_part (lists : List OpenList) (list : OpenList) {f : Form}
    (hf : Completes f) {us rest : List Token} (hs : Spells us (Form.lexemes f))
    (h : r.stream = us ++ rest) (hrest : rest ≠ []) :
    ∃ r', Shifts (list :: lists) r us (list.add f :: lists) r'
      ∧ r'.stream = rest := by
  obtain ⟨ws, u, rfl⟩ := hs.exists_last
  rw [List.append_assoc] at h
  obtain ⟨lists', r₁, hrun, hstream, hmove⟩ :=
    hf (list :: lists) r ws u rest hs h
  obtain ⟨r₂, hadv, hstream₂⟩ := exists_advance hstream hrest
  have looking := (stream_eq_cons.mp hstream).1
  exact ⟨r₂, hrun.concat looking hmove hadv, hstream₂⟩

/-- The operands of a call are shifted one after the other. -/
theorem shifts_operands (lists : List OpenList) (g : Form) (ys : List Form)
    {xs : List Form} (hxs : ∀ x ∈ xs, Completes x) {us rest : List Token}
    (hs : Spells us (Form.lexemesAll xs)) (h : r.stream = us ++ rest)
    (hrest : rest ≠ []) :
    ∃ r', Shifts (.headed g ys :: lists) r us
        (.headed g (xs.reverse ++ ys) :: lists) r'
      ∧ r'.stream = rest := by
  induction xs generalizing r ys us with
  | nil =>
      obtain rfl := spells_nil.mp hs
      exact ⟨r, .refl .., h⟩
  | cons x xs ih =>
      obtain ⟨vs, ws, rfl, hv, hw⟩ := spells_append.mp hs
      rw [List.append_assoc] at h
      obtain ⟨r₁, hrun, hstream⟩ := shifts_part lists
        (.headed g ys) (hxs x (List.mem_cons_self ..)) hv h
        (List.append_ne_nil_of_right_ne_nil ws hrest)
      obtain ⟨r₂, hrun₂, hstream₂⟩ :=
        ih _ (fun y hy => hxs y (List.mem_cons_of_mem _ hy)) hw hstream
      refine ⟨r₂, hrun.trans ?_, hstream₂⟩
      rw [List.reverse_cons, List.append_assoc]
      exact hrun₂

/-- **EVERY FORM COMPLETES**, whatever lists are open around it and whatever
    follows it. -/
theorem completes (f : Form) : Completes f := by
  induction f using Tree.induction with
  | leaf a =>
      intro lists r ws t rest hs h
      obtain ⟨t', ht', hl⟩ := spells_singleton.mp hs
      have hsplit : ws ++ [t] = [] ++ [t'] := ht'
      obtain ⟨rfl, ht⟩ := List.append_inj' hsplit rfl
      obtain rfl := (List.cons.inj ht).1
      obtain ⟨looking, -⟩ := stream_eq_cons.mp h
      refine ⟨lists, r, .refl .., h, ?_⟩
      rw [move, looking, Move.next_of_lexeme hl]
  | call g xs ihg ihxs =>
      intro lists r ws t rest hs h
      obtain ⟨t₀, us, hws, hopening, hus⟩ := spells_cons.mp hs
      obtain ⟨gs, vs, rfl, hgs, hvs⟩ := spells_append.mp hus
      obtain ⟨os, cs, rfl, hos, hcs⟩ := spells_append.mp hvs
      obtain ⟨c, rfl, hclosing⟩ := spells_singleton.mp hcs
      have hsplit : ws ++ [t] = (t₀ :: (gs ++ os)) ++ [c] := by
        rw [hws, List.cons_append, List.append_assoc]
      obtain ⟨rfl, ht⟩ := List.append_inj' hsplit rfl
      obtain rfl := (List.cons.inj ht).1
      rw [List.cons_append, List.append_assoc] at h
      -- the opening token, then the operator, then the operands
      obtain ⟨looking, -⟩ := stream_eq_cons.mp h
      obtain ⟨r₁, hadv, hstream₁⟩ := exists_advance h (by simp)
      have hopen : r.move lists = .shift (.bare :: lists) := by
        rw [move, looking, Move.next_of_lexeme hopening]
      obtain ⟨r₂, hrun₂, hstream₂⟩ := shifts_part lists .bare ihg hgs
        hstream₁ (by simp)
      obtain ⟨r₃, hrun₃, hstream₃⟩ := shifts_operands lists g [] ihxs hos
        hstream₂ (by simp)
      refine ⟨_, r₃, .step looking hopen hadv (hrun₂.trans hrun₃), hstream₃, ?_⟩
      obtain ⟨looking₃, -⟩ := stream_eq_cons.mp hstream₃
      rw [move, looking₃, Move.next_of_lexeme hclosing]
      show Move.complete (.call g (xs.reverse ++ []).reverse) lists = _
      rw [List.append_nil, List.reverse_reverse]

end Reader

end FormReader
