import FormReader.Proofs.Spelling
import FormReader.Proofs.Writing

/-! # Words — the source format spells the forms

    A printout is taken apart into WORDS: each parenthesis is one, and the rest
    is separated by spaces and line feeds (`Text.words`).  Everything about them
    follows from two equations, which take a text apart at a break and at a
    parenthesis (`words_append_break`, `words_append_paren`).  If the texts of
    the leaves are words themselves, the words of a printout are the spellings
    of the forms (`words_write`).

    A form is TOLD BY ITS SPELLING whatever stands behind (`Form.told`): texts
    that begin with the spellings of two forms begin with the same form, up to
    the sort of its leaves, and go on alike.  The induction is on one of the
    forms; where operands end no other form may begin, or there would be one
    more of them (`Form.spellings_inj`).  So a printout can be that of these
    forms only (`print_source_words`). -/

namespace FormReader

namespace Text

/-! ## Words -/

/-- Words are separated by spaces and line feeds. -/
def isBreak (c : CodePoint) : Bool := c = ' ' || c = '\n'

/-- An opening or a closing parenthesis. -/
def isParen (c : CodePoint) : Bool := c = '(' || c = ')'

/-- The text with each parenthesis set apart. -/
def spread (t : Text) : Text :=
  t.flatMap fun c => if isParen c then ([' ', c, ' '] : Text) else [c]

/-- What stands between the breaks. -/
def pieces (t : Text) : List Text :=
  (t.splitOnP isBreak).filter fun w => !w.isEmpty

/-- The words of a text, each parenthesis a word of its own. -/
def words (t : Text) : List Text := t.spread.pieces

/-- The text is one word, and no parenthesis. -/
structure Word (t : Text) : Prop where
  nonempty : t ≠ []
  unbroken : ∀ c ∈ t, isBreak c = false ∧ isParen c = false

instance (t : Text) : Decidable t.Word :=
  decidable_of_iff
    (t ≠ [] ∧ ∀ c ∈ t, isBreak c = false ∧ isParen c = false)
    ⟨fun h => ⟨h.1, h.2⟩, fun h => ⟨h.nonempty, h.unbroken⟩⟩

theorem pieces_append_break {c : CodePoint} (h : isBreak c = true)
    (x y : Text) : pieces (x ++ c :: y) = x.pieces ++ y.pieces := by
  rw [pieces, List.splitOnP_append_cons x y h, List.filter_append]
  rfl

theorem pieces_of_unbroken {t : Text} (hne : t ≠ [])
    (h : ∀ c ∈ t, isBreak c = false) : t.pieces = [t] := by
  have hkept : (!t.isEmpty) = true := by simpa using hne
  rw [pieces, List.splitOnP_eq_singleton h, List.filter_singleton, hkept]
  rfl

/-- **A TEXT IS TAKEN APART AT A BREAK**. -/
theorem words_append_break {c : CodePoint} (h : isBreak c = true)
    (x y : Text) : words (x ++ c :: y) = x.words ++ y.words := by
  have hparen : isParen c = false := by
    simp only [isBreak, Bool.or_eq_true, decide_eq_true_eq] at h
    rcases h with rfl | rfl <;> decide
  have hspread : spread (x ++ c :: y) = x.spread ++ c :: y.spread := by
    rw [spread, List.flatMap_append, List.flatMap_cons, hparen]
    rfl
  rw [words, hspread, pieces_append_break h]
  rfl

/-- **A TEXT IS TAKEN APART AT A PARENTHESIS**, which is a word. -/
theorem words_append_paren {p : CodePoint} (h : isParen p = true)
    (x y : Text) : words (x ++ p :: y) = x.words ++ [p] :: y.words := by
  have hbreak : isBreak p = false := by
    simp only [isParen, Bool.or_eq_true, decide_eq_true_eq] at h
    rcases h with rfl | rfl <;> decide
  have hspread : spread (x ++ p :: y) = x.spread
      ++ (' ' : CodePoint) :: ([p] ++ (' ' : CodePoint) :: y.spread) := by
    rw [spread, List.flatMap_append, List.flatMap_cons, h]
    rfl
  have hspace : isBreak (' ' : CodePoint) = true := by decide
  rw [words, hspread, pieces_append_break hspace, pieces_append_break hspace,
    pieces_of_unbroken (List.cons_ne_nil p [])
      (List.forall_mem_singleton.mpr hbreak)]
  rfl

theorem Word.words_eq {t : Text} (h : t.Word) : t.words = [t] := by
  have hspread : t.spread = t := by
    have hsame : ∀ c ∈ t, (if isParen c then ([' ', c, ' '] : Text) else [c])
        = [c] := by
      intro c hc
      rw [(h.unbroken c hc).2]
      rfl
    rw [spread, List.flatMap_congr hsame]
    exact List.flatMap_singleton' t
  rw [words, hspread,
    pieces_of_unbroken h.nonempty fun c hc => (h.unbroken c hc).1]

/-- Texts joined by a break are taken apart again. -/
theorem words_joined {c : CodePoint} (h : isBreak c = true) (t : Text)
    (ts : List Text) :
    words (t ++ ts.flatMap ([c] ++ ·)) = t.words ++ ts.flatMap words := by
  induction ts generalizing t with
  | nil => rw [List.flatMap_nil, List.flatMap_nil, List.append_nil, List.append_nil]
  | cons u ts ih =>
      rw [List.flatMap_cons, List.flatMap_cons, List.append_assoc,
        List.singleton_append, words_append_break h, ih u]

end Text

/-! ## Spellings -/

/-- The text of a lexeme. -/
def Lexeme.text : Lexeme → Text
  | .atom a => a.text
  | .opening => .of "("
  | .closing => .of ")"

/-- The texts of a spelling. -/
def Form.spelling (f : Form) : List Text := (lexemes f).map Lexeme.text

/-- The texts of the spellings of several forms. -/
def Form.spellings (fs : List Form) : List Text :=
  (lexemesAll fs).map Lexeme.text

namespace Form

open Text

theorem spelling_call (f : Form) (xs : List Form) :
    spelling (.call f xs)
      = .of "(" :: (f.spelling ++ (spellings xs ++ [.of ")"])) := by
  rw [spelling, lexemes_call, List.map_cons, List.map_append, List.map_append]
  rfl

@[simp] theorem spellings_cons (x : Form) (xs : List Form) :
    spellings (x :: xs) = x.spelling ++ spellings xs := by
  rw [spellings, lexemesAll_cons, List.map_append]
  rfl

theorem flatMap_words {xs : List Form}
    (h : ∀ x ∈ xs, (x.write .source).words = x.spelling) :
    (xs.map (write .source)).flatMap words = spellings xs := by
  induction xs with
  | nil => rfl
  | cons x xs ih =>
      obtain ⟨hx, hxs⟩ := List.forall_mem_cons.mp h
      rw [List.map_cons, List.flatMap_cons, hx, ih hxs, spellings_cons]

/-- **THE WORDS OF A FORM ARE ITS SPELLING**. -/
theorem words_write {f : Form} (h : ∀ a ∈ f.leaves, a.text.Word) :
    (f.write .source).words = f.spelling := by
  induction f using Tree.induction with
  | leaf a =>
      rw [write_leaf]
      exact (h a (by simp)).words_eq
  | call f xs hf hxs =>
      obtain ⟨hoperator, hoperands⟩ := Tree.forall_leaves_call.mp h
      have hopening : isParen ('(' : CodePoint) = true := by decide
      have hclosing : isParen (')' : CodePoint) = true := by decide
      have hspace : isBreak (' ' : CodePoint) = true := by decide
      have hall := flatMap_words fun x hx => hxs x hx (hoperands x hx)
      rw [write_call, Style.callText_source, ← List.append_assoc (write _ f)]
      -- the parentheses are taken off first, then the spaces between the parts
      calc words (.of "(" ++ (write .source f
              ++ (xs.map (write .source)).flatMap (Text.of " " ++ ·)
              ++ .of ")"))
          = .of "(" :: words (write .source f
              ++ (xs.map (write .source)).flatMap (Text.of " " ++ ·)
              ++ .of ")") := words_append_paren hopening [] _
        _ = .of "(" :: (words (write .source f
              ++ (xs.map (write .source)).flatMap (Text.of " " ++ ·))
                ++ [.of ")"]) :=
            congrArg _ (words_append_paren hclosing _ [])
        _ = .of "(" :: (spelling f ++ spellings xs ++ [.of ")"]) := by
            rw [← hf hoperator, ← hall]
            exact congrArg (fun ws => _ :: (ws ++ _)) (words_joined hspace _ _)
        _ = spelling (.call f xs) := by
            rw [spelling_call, List.append_assoc]

/-! ## Nothing else is spelled that way -/

/-- No form begins here. -/
def Closed (ts : List Text) : Prop := ∀ t ∈ ts.head?, t = .of ")"

theorem closed_closing (ts : List Text) : Closed (.of ")" :: ts) :=
  fun _ ht => (Option.mem_some.mp ht).symm

/-- A word is no parenthesis. -/
theorem word_ne_paren {t : Text} (h : t.Word) :
    t ≠ .of "(" ∧ t ≠ .of ")" := by
  constructor
  · rintro rfl
    exact absurd (h.unbroken '(' List.mem_cons_self).2 (by decide)
  · rintro rfl
    exact absurd (h.unbroken ')' List.mem_cons_self).2 (by decide)

theorem not_closed_spelling {f : Form} (h : ∀ a ∈ f.leaves, a.text.Word)
    (ts : List Text) : ¬ Closed (spelling f ++ ts) := by
  intro hclosed
  cases f with
  | leaf a => exact (word_ne_paren (h a (by simp))).2 (hclosed _ rfl)
  | call f xs =>
      rw [spelling_call] at hclosed
      exact absurd (hclosed _ rfl) (by decide)

/-- What begins with the spelling of the form begins with that of no other, and
    the spelling ends in one place. -/
def Told (f : Form) : Prop :=
  ∀ {g : Form} {us vs : List Text}, (∀ a ∈ g.leaves, a.text.Word) →
    f.spelling ++ us = g.spelling ++ vs →
    f.map Atom.text = g.map Atom.text ∧ us = vs

/-- Forms in a row are told, if behind them no other form begins. -/
theorem spellings_inj {xs ys : List Form} (told : ∀ x ∈ xs, Told x)
    (hx : ∀ x ∈ xs, ∀ a ∈ x.leaves, a.text.Word)
    (hy : ∀ y ∈ ys, ∀ a ∈ y.leaves, a.text.Word)
    {us vs : List Text} (hu : Closed us) (hv : Closed vs)
    (h : spellings xs ++ us = spellings ys ++ vs) :
    xs.map (Tree.map Atom.text) = ys.map (Tree.map Atom.text) ∧ us = vs := by
  induction xs generalizing ys with
  | nil =>
      cases ys with
      | nil => exact ⟨rfl, h⟩
      | cons y ys =>
          -- one operand more would begin where none may
          have hbegun : us = y.spelling ++ (spellings ys ++ vs) := by
            rw [← List.append_assoc, ← spellings_cons]
            exact h
          exact absurd (hbegun ▸ hu)
            (not_closed_spelling (hy y List.mem_cons_self) _)
  | cons x xs ih =>
      obtain ⟨hone, hrest⟩ := List.forall_mem_cons.mp told
      obtain ⟨hx, hxs⟩ := List.forall_mem_cons.mp hx
      cases ys with
      | nil =>
          have hbegun : vs = x.spelling ++ (spellings xs ++ us) := by
            rw [← List.append_assoc, ← spellings_cons]
            exact h.symm
          exact absurd (hbegun ▸ hv) (not_closed_spelling hx _)
      | cons y ys =>
          obtain ⟨hy, hys⟩ := List.forall_mem_cons.mp hy
          rw [spellings_cons, spellings_cons, List.append_assoc,
            List.append_assoc] at h
          obtain ⟨hhead, htail⟩ := hone hy h
          obtain ⟨hmap, hbehind⟩ := ih hrest hxs hys htail
          rw [List.map_cons, List.map_cons, hhead, hmap]
          exact ⟨rfl, hbehind⟩

/-- **A FORM IS TOLD BY ITS SPELLING**, but for the sort of its leaves. -/
theorem told {f : Form} (hf : ∀ a ∈ f.leaves, a.text.Word) : Told f := by
  intro g us vs hg h
  induction f using Tree.induction generalizing g us vs with
  | leaf a =>
      cases g with
      | leaf b =>
          obtain ⟨htext, hbehind⟩ := List.cons.inj h
          rw [Tree.map_leaf, Tree.map_leaf]
          exact ⟨congrArg Tree.leaf htext, hbehind⟩
      | call g ys =>
          rw [spelling_call] at h
          exact absurd (List.cons.inj h).1 (word_ne_paren (hf a (by simp))).1
  | call f xs ihf ihxs =>
      rw [spelling_call] at h
      cases g with
      | leaf b =>
          exact absurd (List.cons.inj h).1.symm
            (word_ne_paren (hg b (by simp))).1
      | call g ys =>
          obtain ⟨hf, hxs⟩ := Tree.forall_leaves_call.mp hf
          obtain ⟨hg, hys⟩ := Tree.forall_leaves_call.mp hg
          rw [spelling_call, List.cons_append, List.cons_append] at h
          -- behind the operator both go on with operands and a closing
          have hinside := (List.cons.inj h).2
          rw [List.append_assoc, List.append_assoc, List.append_assoc,
            List.append_assoc] at hinside
          obtain ⟨hoperator, hoperands⟩ := ihf hf hg hinside
          obtain ⟨hmap, hbehind⟩ := spellings_inj
            (fun x hx => ihxs x hx (hxs x hx)) hxs hys
            (closed_closing us) (closed_closing vs) hoperands
          rw [Tree.map_call, Tree.map_call, hoperator, hmap]
          exact ⟨rfl, (List.cons.inj hbehind).2⟩

end Form

namespace Format

open Form Text

theorem print_source (fs : List Form) :
    print .source fs = .joined (.of "\n") (fs.map (write .source)) := rfl

/-- **THE WORDS OF A PRINTOUT ARE THE SPELLINGS**. -/
theorem words_print {fs : List Form}
    (h : ∀ f ∈ fs, ∀ a ∈ f.leaves, a.text.Word) :
    (print .source fs).words = spellings fs := by
  have hnewline : isBreak ('\n' : CodePoint) = true := by decide
  have hall := flatMap_words fun f hf => words_write (h f hf)
  rw [print_source, ← hall]
  cases fs with
  | nil => rfl
  | cons f fs => exact words_joined hnewline _ _

theorem newline_not_mem_write {f : Form} (h : ∀ a ∈ f.leaves, a.text.Word) :
    ('\n' : CodePoint) ∉ write .source f := by
  induction f using Tree.induction with
  | leaf a =>
      rw [write_leaf]
      intro hnewline
      exact absurd ((h a (by simp)).unbroken _ hnewline).1 (by decide)
  | call f xs hf hxs =>
      obtain ⟨hoperator, hoperands⟩ := Tree.forall_leaves_call.mp h
      have hopening : ('\n' : CodePoint) ∉ Text.of "(" := by decide
      have hspace : ('\n' : CodePoint) ∉ Text.of " " := by decide
      have hclosing : ('\n' : CodePoint) ∉ Text.of ")" := by decide
      rw [write_call, Style.callText_source, List.flatMap_map]
      simp only [List.mem_append, List.mem_flatMap, not_or, not_exists, not_and]
      exact ⟨hopening, hf hoperator,
        fun x hx => ⟨hspace, hxs x hx (hoperands x hx)⟩, hclosing⟩

end Format

/-- **THE SOURCE FORMAT SPELLS THE FORMS**: if the texts of the leaves are words,
    the words of a printout are the spellings of the forms, its lines are the
    forms one by one, and it is the printout of no forms with other texts or of
    another shape. -/
theorem print_source_words {fs : List Form}
    (h : ∀ f ∈ fs, ∀ a ∈ f.leaves, a.text.Word) :
    (Format.print .source fs).words = (Form.lexemesAll fs).map Lexeme.text ∧
      (fs ≠ [] → (Format.print .source fs).splitOn ('\n' : CodePoint)
        = fs.map (Form.write .source)) ∧
      ∀ gs : List Form, (∀ g ∈ gs, ∀ a ∈ g.leaves, a.text.Word) →
        Format.print .source gs = Format.print .source fs →
        gs.map (Tree.map Atom.text) = fs.map (Tree.map Atom.text) := by
  refine ⟨Format.words_print h, fun hne => ?_, fun gs hgs hsame => ?_⟩
  · refine Text.splitOn_joined ?_ (mt List.map_eq_nil_iff.mp hne)
    exact List.forall_mem_map.mpr fun f hf =>
      Format.newline_not_mem_write (h f hf)
  · have hwords : Form.spellings gs ++ [] = Form.spellings fs ++ [] := by
      rw [← Format.words_print h, ← Format.words_print hgs, hsame]
    have hnone : Form.Closed [] := by
      intro t ht
      cases ht
    exact (Form.spellings_inj (fun g hg => Form.told (hgs g hg)) hgs h hnone
      hnone hwords).1

/-- Of `((f) 1 x)` and `y`, where the sorts of the leaves are not seen. -/
theorem print_source_words_nested :
    let fs : List Form :=
      [.call (.call (Form.identifier (.of "f")) [])
        [Form.numeral (.of "1"), Form.identifier (.of "x")],
        Form.identifier (.of "y")]
    (∀ f ∈ fs, ∀ a ∈ f.leaves, a.text.Word) ∧ fs ≠ [] ∧
      (Format.print .source fs).words
        = ["(", "(", "f", ")", "1", "x", ")", "y"].map Text.of ∧
      (Format.print .source fs).splitOn ('\n' : CodePoint)
        = ["((f) 1 x)", "y"].map Text.of ∧
      Format.print .source fs.reverse ≠ Format.print .source fs := by
  intro fs
  have hf : (Text.of "f").Word := by decide
  have hone : (Text.of "1").Word := by decide
  have hx : (Text.of "x").Word := by decide
  have hy : (Text.of "y").Word := by decide
  have hfs : ∀ f ∈ fs, ∀ a ∈ f.leaves, a.text.Word := by
    simpa [fs, Form.identifier, Form.numeral, Atom.text]
      using ⟨⟨hf, hone, hx⟩, hy⟩
  have hwrite : fs.map (Form.write .source)
      = ["((f) 1 x)", "y"].map Text.of := by decide +kernel
  obtain ⟨hwords, hlines, honly⟩ := print_source_words hfs
  refine ⟨hfs, List.cons_ne_nil _ _, hwords, ?_, fun hsame => ?_⟩
  · rw [hlines (List.cons_ne_nil _ _), hwrite]
  · have hrev := honly fs.reverse
      (fun g hg => hfs g (List.mem_reverse.mp hg)) hsame
    simp [fs, Form.identifier] at hrev

end FormReader
