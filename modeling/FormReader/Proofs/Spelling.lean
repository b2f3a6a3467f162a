import FormReader.Form.Basic
import FormReader.Token.Basic
import Mathlib.Data.List.Chain
import Mathlib.Data.List.TakeWhile

/-! # Spellings — the tokens a form is written with

    Every form has one spelling, a list of LEXEMES: an atom is its own lexeme,
    and a call is its operator and its operands between an opening and a
    closing lexeme.  A token stands for at most one lexeme, so tokens spell a
    form when they stand for its lexemes one by one; the position of a token
    and the text of a delimiter play no part.

    * `Form.lexemes`, `Form.lexemesAll` — the spelling of a form, and of
      forms in a row;
    * `Spells` — tokens stand for given lexemes;
    * `Viable` — tokens that begin the spelling of some form;
      `LongestViable` — the most of a stream that is viable.

    The one fact about the grammar that needs an argument is that NO CALL IS
    EMPTY (`lexemes_chain`): an opening lexeme is never followed at once by a
    closing one.  It is what makes a closing token stop a reader that waits
    for an operator. -/

namespace FormReader

/-- What a token contributes to the spelling of a form. -/
inductive Lexeme where
  | atom (a : Atom)
  | opening
  | closing
  deriving DecidableEq

namespace Form

mutual

/-- The spelling of a form. -/
def lexemes : Form → List Lexeme
  | .leaf a => [.atom a]
  | .call f xs => .opening :: (lexemes f ++ (lexemesAll xs ++ [.closing]))

/-- The spellings of several forms in a row. -/
def lexemesAll : List Form → List Lexeme
  | [] => []
  | x :: xs => lexemes x ++ lexemesAll xs

end

@[simp] theorem lexemes_leaf (a : Atom) : lexemes (.leaf a) = [.atom a] := rfl

@[simp] theorem lexemes_call (f : Form) (xs : List Form) :
    lexemes (.call f xs)
      = .opening :: (lexemes f ++ (lexemesAll xs ++ [.closing])) := rfl

@[simp] theorem lexemesAll_nil : lexemesAll [] = [] := rfl

@[simp] theorem lexemesAll_cons (x : Form) (xs : List Form) :
    lexemesAll (x :: xs) = lexemes x ++ lexemesAll xs := rfl

theorem lexemesAll_append (xs ys : List Form) :
    lexemesAll (xs ++ ys) = lexemesAll xs ++ lexemesAll ys := by
  induction xs with
  | nil => rfl
  | cons x xs ih =>
      rw [List.cons_append, lexemesAll_cons, lexemesAll_cons, ih,
        List.append_assoc]

/-- A spelling is a single atom, or begins with an opening and ends with a
    closing lexeme. -/
theorem lexemes_shape (f : Form) :
    (∃ a, lexemes f = [.atom a])
      ∨ ∃ body, lexemes f = .opening :: (body ++ [.closing]) := by
  cases f with
  | leaf a => exact Or.inl ⟨a, rfl⟩
  | call g xs =>
      refine Or.inr ⟨lexemes g ++ lexemesAll xs, ?_⟩
      rw [lexemes_call, List.append_assoc]

theorem lexemes_ne_nil (f : Form) : lexemes f ≠ [] := by
  rcases lexemes_shape f with ⟨a, h⟩ | ⟨body, h⟩
  · rw [h]
    exact List.cons_ne_nil _ _
  · rw [h]
    exact List.cons_ne_nil _ _

theorem closing_not_head (f : Form) : (lexemes f).head? ≠ some .closing := by
  intro hhead
  rcases lexemes_shape f with ⟨a, h⟩ | ⟨body, h⟩
  · rw [h] at hhead
    cases hhead
  · rw [h] at hhead
    cases hhead

theorem opening_not_last (f : Form) :
    (lexemes f).getLast? ≠ some .opening := by
  intro hlast
  rcases lexemes_shape f with ⟨a, h⟩ | ⟨body, h⟩
  · rw [h] at hlast
    cases hlast
  · rw [h, ← List.cons_append, List.getLast?_concat] at hlast
    cases hlast

/-- Opening lexemes alone spell no form. -/
theorem lexemes_not_all_opening (f : Form) :
    ¬ ∀ l ∈ lexemes f, l = .opening := by
  intro h
  rcases lexemes_shape f with ⟨a, hf⟩ | ⟨body, hf⟩
  · have hatom := h (.atom a) (by rw [hf]; exact List.mem_singleton_self _)
    cases hatom
  · have hclosing := h .closing (by rw [hf]; simp)
    cases hclosing

end Form

/-! ## No call is empty -/

/-- Two lexemes may stand side by side in a spelling: a call begins with its
    operator. -/
def Lexeme.MayFollow (a b : Lexeme) : Prop :=
  a = .opening → b ≠ .closing

namespace Form

private theorem chain_append {ks ls : List Lexeme}
    (hk : ks.IsChain Lexeme.MayFollow) (hl : ls.IsChain Lexeme.MayFollow)
    (h : ks.getLast? ≠ some .opening) :
    (ks ++ ls).IsChain Lexeme.MayFollow := by
  refine List.isChain_append.mpr ⟨hk, hl, ?_⟩
  intro a ha b _ hab
  exact absurd (hab ▸ ha) h

/-- A closing lexeme may stand behind any operands. -/
theorem lexemesAll_chain {xs : List Form}
    (h : ∀ x ∈ xs, (lexemes x).IsChain Lexeme.MayFollow) :
    (lexemesAll xs ++ [Lexeme.closing]).IsChain Lexeme.MayFollow := by
  induction xs with
  | nil => exact List.isChain_singleton _
  | cons x xs ih =>
      rw [lexemesAll_cons, List.append_assoc]
      refine chain_append (h x (List.mem_cons_self ..)) ?_
        (opening_not_last x)
      exact ih fun y hy => h y (List.mem_cons_of_mem _ hy)

/-- **NO CALL IS EMPTY**: an opening lexeme is never followed at once by a
    closing one. -/
theorem lexemes_chain (f : Form) : (lexemes f).IsChain Lexeme.MayFollow := by
  induction f using Tree.induction with
  | leaf a => exact List.isChain_singleton _
  | call g xs ihg ihxs =>
      have inside : (lexemes g ++ (lexemesAll xs ++ [Lexeme.closing])).IsChain
          Lexeme.MayFollow :=
        chain_append ihg (lexemesAll_chain ihxs) (opening_not_last g)
      rw [lexemes_call]
      refine List.isChain_cons.mpr ⟨?_, inside⟩
      -- the lexeme behind the opening one is the first of the operator
      intro b hb _ hclosing
      rw [List.head?_append_of_ne_nil _ (lexemes_ne_nil g)] at hb
      exact closing_not_head g (hclosing ▸ hb)

end Form

/-! ## Tokens that spell -/

/-- The lexeme that a token stands for. -/
def Token.lexeme? (t : Token) : Option Lexeme :=
  match t.role with
  | .numeral => some (.atom (.numeral t.text))
  | .identifier => some (.atom (.identifier t.text))
  | .opening => some .opening
  | .closing => some .closing
  | .ending | .other => none

theorem Token.lexeme?_opening {t : Token} :
    t.lexeme? = some .opening ↔ t.role = .opening := by
  rw [lexeme?]
  cases t.role <;> simp

theorem Token.lexeme?_closing {t : Token} :
    t.lexeme? = some .closing ↔ t.role = .closing := by
  rw [lexeme?]
  cases t.role <;> simp

theorem Token.lexeme?_none {t : Token} :
    t.lexeme? = none ↔ t.role = .ending ∨ t.role = .other := by
  rw [lexeme?]
  cases t.role <;> simp

/-- The tokens stand for the lexemes, one by one. -/
def Spells (ts : List Token) (ls : List Lexeme) : Prop :=
  ts.map Token.lexeme? = ls.map some

instance (ts : List Token) (ls : List Lexeme) : Decidable (Spells ts ls) :=
  inferInstanceAs (Decidable (ts.map Token.lexeme? = ls.map some))

theorem spells_nil {ts : List Token} : Spells ts [] ↔ ts = [] := by
  rw [Spells, List.map_nil, List.map_eq_nil_iff]

theorem spells_cons {ts : List Token} {l : Lexeme} {ls : List Lexeme} :
    Spells ts (l :: ls)
      ↔ ∃ t us, ts = t :: us ∧ t.lexeme? = some l ∧ Spells us ls := by
  rw [Spells, List.map_cons, List.map_eq_cons_iff]
  rfl

theorem spells_append {ts : List Token} {ks ls : List Lexeme} :
    Spells ts (ks ++ ls)
      ↔ ∃ us vs, ts = us ++ vs ∧ Spells us ks ∧ Spells vs ls := by
  rw [Spells, List.map_append, List.map_eq_append_iff]
  rfl

theorem Spells.append {us vs : List Token} {ks ls : List Lexeme}
    (hu : Spells us ks) (hv : Spells vs ls) : Spells (us ++ vs) (ks ++ ls) :=
  spells_append.mpr ⟨us, vs, rfl, hu, hv⟩

theorem spells_singleton {ts : List Token} {l : Lexeme} :
    Spells ts [l] ↔ ∃ t, ts = [t] ∧ t.lexeme? = some l := by
  rw [spells_cons]
  constructor
  · rintro ⟨t, us, rfl, ht, hus⟩
    exact ⟨t, by rw [spells_nil.mp hus], ht⟩
  · rintro ⟨t, rfl, ht⟩
    exact ⟨t, [], rfl, ht, spells_nil.mpr rfl⟩

theorem Spells.length_eq {ts : List Token} {ls : List Lexeme}
    (h : Spells ts ls) : ts.length = ls.length := by
  have := congrArg List.length h
  rwa [List.length_map, List.length_map] at this

theorem Spells.eq_nil_iff {ts : List Token} {ls : List Lexeme}
    (h : Spells ts ls) : ts = [] ↔ ls = [] := by
  rw [← List.length_eq_zero_iff, h.length_eq, List.length_eq_zero_iff]

/-- The last token of the spelling of a form, and those before it. -/
theorem Spells.exists_last {ts : List Token} {f : Form}
    (h : Spells ts (Form.lexemes f)) : ∃ us t, ts = us ++ [t] := by
  rcases List.eq_nil_or_concat ts with rfl | ⟨us, t, rfl⟩
  · exact absurd (h.eq_nil_iff.mp rfl) (Form.lexemes_ne_nil f)
  · exact ⟨us, t, List.concat_eq_append⟩

/-- Tokens spell one list of lexemes at most. -/
theorem Spells.unique {ts : List Token} {ks ls : List Lexeme}
    (hk : Spells ts ks) (hl : Spells ts ls) : ks = ls :=
  List.map_injective_iff.mpr (fun _ _ => Option.some.inj) (hk.symm.trans hl)

/-- What is spelled is nothing but openings where the tokens are. -/
theorem Spells.all_opening {ts : List Token} {ls : List Lexeme}
    (h : Spells ts ls) :
    (∀ l ∈ ls, l = .opening) ↔ ∀ t ∈ ts, t.role = .opening := by
  calc (∀ l ∈ ls, l = .opening)
      ↔ ∀ o ∈ ls.map some, o = some .opening := by simp
    _ ↔ ∀ o ∈ ts.map Token.lexeme?, o = some .opening := by rw [h]
    _ ↔ ∀ t ∈ ts, t.role = .opening := by simp [Token.lexeme?_opening]

/-- Tokens in two parts spell in two parts. -/
theorem Spells.split {us vs : List Token} {ms : List Lexeme}
    (h : Spells (us ++ vs) ms) :
    ∃ ks ls, ms = ks ++ ls ∧ Spells us ks ∧ Spells vs ls := by
  rw [Spells, List.map_append] at h
  obtain ⟨ks, ls, rfl, hk, hl⟩ := List.map_eq_append_iff.mp h.symm
  exact ⟨ks, ls, rfl, hk.symm, hl.symm⟩

/-- A head of tokens that spell spells as many lexemes. -/
theorem Spells.beginning {us ts : List Token} {ls : List Lexeme}
    (h : us <+: ts) (hs : Spells ts ls) : ∃ ks, ks <+: ls ∧ Spells us ks := by
  obtain ⟨vs, rfl⟩ := h
  obtain ⟨ks, ms, rfl, hk, -⟩ := hs.split
  exact ⟨ks, List.prefix_append ks ms, hk⟩

/-- One token more spells one lexeme more. -/
theorem Spells.of_concat {ts : List Token} {t : Token}
    {ks ls : List Lexeme} (hk : Spells ts ks) (h : Spells (ts ++ [t]) ls) :
    ∃ l, t.lexeme? = some l ∧ ls = ks ++ [l] := by
  obtain ⟨ks', ms, rfl, hk', hm⟩ := h.split
  obtain rfl : ks' = ks := hk'.unique hk
  obtain ⟨l, rfl, hl⟩ := List.map_eq_singleton_iff.mp hm.symm
  exact ⟨l, hl.symm, rfl⟩

/-- Each of the tokens stands for a lexeme. -/
theorem Spells.lexeme_of_mem {ts : List Token} {ls : List Lexeme}
    (h : Spells ts ls) {t : Token} (ht : t ∈ ts) :
    ∃ l, t.lexeme? = some l := by
  have hmem : t.lexeme? ∈ ls.map some := h ▸ List.mem_map_of_mem ht
  obtain ⟨l, -, hl⟩ := List.mem_map.mp hmem
  exact ⟨l, hl.symm⟩

/-- Tokens that begin with an opening and hold no closing spell no form, and
    neither does a head of them. -/
theorem not_spells_of_unclosed {ts us : List Token}
    (begun : ∀ t ∈ ts.head?, t.lexeme? = some .opening)
    (unclosed : ∀ t ∈ ts, t.lexeme? ≠ some .closing) (h : us <+: ts)
    (f : Form) : ¬ Spells us (Form.lexemes f) := by
  intro hspells
  rcases Form.lexemes_shape f with ⟨a, hf⟩ | ⟨body, hf⟩
  · rw [hf] at hspells
    obtain ⟨t, rfl, ht⟩ := spells_singleton.mp hspells
    obtain ⟨rest, hrest⟩ := h
    cases (begun t (hrest ▸ rfl)).symm.trans ht
  · rw [hf, ← List.cons_append] at hspells
    obtain ⟨vs, ws, rfl, -, hws⟩ := spells_append.mp hspells
    obtain ⟨t, rfl, ht⟩ := spells_singleton.mp hws
    exact unclosed t (h.subset (by simp)) ht

/-- No token that spells ends the input. -/
theorem Spells.takeWhile {ts : List Token} {ls : List Lexeme}
    (h : Spells ts ls) : (ts.takeWhile fun t => t.role ≠ .ending) = ts := by
  refine List.takeWhile_eq_self_iff.mpr fun t ht => decide_eq_true ?_
  intro hrole
  obtain ⟨l, hl⟩ := h.lexeme_of_mem ht
  cases (Token.lexeme?_none.mpr (Or.inl hrole)).symm.trans hl

/-! ## Beginnings of spellings -/

/-- The tokens begin the spelling of some form. -/
def Viable (ts : List Token) : Prop :=
  ∃ f ls, ls <+: Form.lexemes f ∧ Spells ts ls

theorem Viable.beginning {us ts : List Token} (h : us <+: ts)
    (hv : Viable ts) : Viable us := by
  obtain ⟨f, ls, hls, hs⟩ := hv
  obtain ⟨ks, hks, hu⟩ := hs.beginning h
  exact ⟨f, ks, hks.trans hls, hu⟩

/-- The longest head of a stream that is viable. -/
structure LongestViable (stream head : List Token) : Prop where
  begins : head <+: stream
  viable : Viable head
  longest : ∀ us, us <+: stream → Viable us → us.length ≤ head.length

theorem LongestViable.unique {stream us vs : List Token}
    (hu : LongestViable stream us) (hv : LongestViable stream vs) :
    us = vs := by
  have h1 : us.length ≤ vs.length := hv.longest us hu.begins hu.viable
  have h2 : vs.length ≤ us.length := hu.longest vs hv.begins hv.viable
  have h3 : us <+: vs :=
    List.prefix_of_prefix_length_le hu.begins hv.begins h1
  exact h3.eq_of_length (Nat.le_antisymm h1 h2)

end FormReader
