import FormReader.Json.Decoder
import FormReader.Proofs.Escapes
import Mathlib.Data.List.Forall2
import Mathlib.Data.List.Nodup

/-! # Decoding — texts that spell a value

    A text SPELLS a value if the decoder, wherever it waits for one, reads the
    text and then has the value, with the containers around it untouched
    (`Decodes`).  What stands behind may be anything that does not go on a
    number.  Texts that spell values are put together: with commas between
    brackets they spell the array (`decodes_bracketed`), behind names between
    braces the object (`decodes_braced`).

    Inside an open container the induction is on the items still to come, with
    those already read in reverse in the frame of the container
    (`decodeFrom_items`, `decodeFrom_members`).  Items may be separated by any
    blanks behind the comma, so the one lemma serves arrays on one line and on
    several. -/

namespace FormReader

namespace Json

variable {stack : List Frame}

/-! ## Blanks -/

/-- Nothing but blanks. -/
def Gap (t : Text) : Prop := ∀ c ∈ t, isBlank c = true

instance (t : Text) : Decidable (Gap t) :=
  inferInstanceAs (Decidable (∀ c ∈ t, _))

theorem skipBlanks_append {gap : Text} (h : Gap gap) (t : Text) :
    skipBlanks (gap ++ t) = skipBlanks t :=
  List.dropWhile_append_of_pos h

theorem skipBlanks_cons {c : CodePoint} (h : isBlank c = false) (t : Text) :
    skipBlanks (c :: t) = c :: t := by
  refine List.dropWhile_cons_of_neg ?_
  rw [h]
  exact Bool.false_ne_true

/-- A number ends before this text. -/
def EndsNumber (t : Text) : Prop :=
  ∀ c ∈ t.head?, Text.isDigit c = false ∧ c ≠ '.' ∧ c ≠ 'e' ∧ c ≠ 'E'

theorem endsNumber_cons {c : CodePoint} {t : Text}
    (h : Text.isDigit c = false ∧ c ≠ '.' ∧ c ≠ 'e' ∧ c ≠ 'E') :
    EndsNumber (c :: t) :=
  fun _ hd => Option.mem_some.mp hd ▸ h

theorem EndsNumber.behind_gap {gap t : Text} (hgap : Gap gap)
    (h : EndsNumber t) : EndsNumber (gap ++ t) := by
  cases gap with
  | nil => exact h
  | cons c gap =>
      have hc := hgap c List.mem_cons_self
      simp only [isBlank, Bool.or_eq_true, decide_eq_true_eq] at hc
      refine endsNumber_cons ?_
      rcases hc with ((rfl | rfl) | rfl) | rfl <;> decide

/-! ## Moves of the decoder -/

section

variable {t u text : Text} {c : CodePoint} {v : Json}

theorem decodeFrom_string (h : scanString t = .ok (text, u)) :
    decodeFrom .value stack (('\x22' : CodePoint) :: t)
      = decodeFrom (.complete (.string text)) stack u := by
  rw [decodeFrom, if_pos rfl, h]

theorem decodeFrom_open_array (h : skipBlanks t = c :: u) (hc : c ≠ ']') :
    decodeFrom .value stack (('[' : CodePoint) :: t)
      = decodeFrom .value (.array [] :: stack) (c :: u) := by
  rw [decodeFrom, if_neg (by decide), if_neg (by decide), if_pos rfl, h]
  dsimp only
  rw [if_neg hc]

theorem decodeFrom_empty_array (h : skipBlanks t = (']' : CodePoint) :: u) :
    decodeFrom .value stack (('[' : CodePoint) :: t)
      = decodeFrom (.complete (.array [])) stack u := by
  rw [decodeFrom, if_neg (by decide), if_neg (by decide), if_pos rfl, h]
  dsimp only
  rw [if_pos rfl]

theorem decodeFrom_next_item {before : List Json}
    (h : skipBlanks t = (',' : CodePoint) :: u) :
    decodeFrom (.complete v) (.array before :: stack) t
      = decodeFrom .value (.array (v :: before) :: stack) (skipBlanks u) := by
  rw [decodeFrom, h]
  dsimp only
  rw [if_neg (by decide), if_pos rfl]

theorem decodeFrom_close_array {before : List Json}
    (h : skipBlanks t = (']' : CodePoint) :: u) :
    decodeFrom (.complete v) (.array before :: stack) t
      = decodeFrom (.complete (.array (v :: before).reverse)) stack u := by
  rw [decodeFrom, h]
  dsimp only
  rw [if_pos rfl]

theorem decodeFrom_open_object (h : skipBlanks t = c :: u) (hc : c ≠ '\x7d') :
    decodeFrom .value stack (('\x7b' : CodePoint) :: t)
      = decodeFrom (.name []) stack (c :: u) := by
  rw [decodeFrom, if_neg (by decide), if_pos rfl, h]
  dsimp only
  rw [if_neg hc]

theorem decodeFrom_empty_object (h : skipBlanks t = ('\x7d' : CodePoint) :: u) :
    decodeFrom .value stack (('\x7b' : CodePoint) :: t)
      = decodeFrom (.complete (.object [])) stack u := by
  rw [decodeFrom, if_neg (by decide), if_pos rfl, h]
  dsimp only
  rw [if_pos rfl]

theorem decodeFrom_constant (hquote : c ≠ '\x22') (hbrace : c ≠ '\x7b')
    (hbracket : c ≠ '[') (h : scanConstant? (c :: t) = some (v, u)) :
    decodeFrom .value stack (c :: t) = decodeFrom (.complete v) stack u := by
  rw [decodeFrom, if_neg hquote, if_neg hbrace, if_neg hbracket, h]

theorem decodeFrom_numeral (hquote : c ≠ '\x22') (hbrace : c ≠ '\x7b')
    (hbracket : c ≠ '[') (hconstant : scanConstant? (c :: t) = none)
    {n : Numeral} (h : scanNumeral? (c :: t) = some (n, u))
    (hvalue : n.value = .ok v) :
    decodeFrom .value stack (c :: t) = decodeFrom (.complete v) stack u := by
  rw [decodeFrom, if_neg hquote, if_neg hbrace, if_neg hbracket, hconstant]
  dsimp only
  rw [h]
  dsimp only
  rw [hvalue]

theorem decodeFrom_name {before : Members} {more : Text}
    (h : scanString t = .ok (text, u))
    (hcolon : skipBlanks u = (':' : CodePoint) :: more) :
    decodeFrom (.name before) stack (('\x22' : CodePoint) :: t)
      = decodeFrom .value (.object before text :: stack) (skipBlanks more) := by
  rw [decodeFrom, if_pos rfl, h]
  dsimp only
  rw [hcolon]
  dsimp only
  rw [if_pos rfl]

theorem decodeFrom_next_member {before : Members}
    (h : skipBlanks t = (',' : CodePoint) :: u) :
    decodeFrom (.complete v) (.object before text :: stack) t
      = decodeFrom (.name ((text, v) :: before)) stack (skipBlanks u) := by
  rw [decodeFrom, h]
  dsimp only
  rw [if_neg (by decide), if_pos rfl]

theorem decodeFrom_close_object {before : Members}
    (h : skipBlanks t = ('\x7d' : CodePoint) :: u) :
    decodeFrom (.complete v) (.object before text :: stack) t
      = decodeFrom (.complete (.object
          (Members.settled ((text, v) :: before).reverse))) stack u := by
  rw [decodeFrom, h]
  dsimp only
  rw [if_pos rfl]

theorem decodeFrom_end (h : skipBlanks t = []) :
    decodeFrom (.complete v) [] t = .ok v := by
  rw [decodeFrom, h]

end

/-! ## Texts that spell a value -/

/-- The text spells the value: where a value is due, the decoder reads the text
    and has the value. -/
structure Decodes (t : Text) (v : Json) : Prop where
  begins : ∃ c u, t = c :: u ∧ isBlank c = false ∧ c ≠ ']'
  reads : ∀ stack rest, EndsNumber rest →
    decodeFrom .value stack (t ++ rest) = decodeFrom (.complete v) stack rest

theorem Decodes.skipBlanks_eq {t : Text} {v : Json} (h : Decodes t v)
    {gap : Text} (hgap : Gap gap) (rest : Text) :
    skipBlanks (gap ++ (t ++ rest)) = t ++ rest := by
  obtain ⟨c, u, rfl, hblank, -⟩ := h.begins
  rw [skipBlanks_append hgap, List.cons_append, skipBlanks_cons hblank]

theorem decodes_string {t : Text} (h : t.Unpaired) :
    Decodes (encodeString t) (.string t) where
  begins := ⟨'\x22', _, rfl, by decide, by decide⟩
  reads stack rest _ := by
    rw [encodeString, List.append_assoc, List.append_assoc]
    exact decodeFrom_string (scanString_encoded h rest)

/-- A text that spells a value is decoded to it. -/
theorem Decodes.decode {t : Text} {v : Json} (h : Decodes t v)
    (unmarked : t.head? ≠ some (.ofNat 0xFEFF)) : Json.decode t = .ok v := by
  have hnone : Gap [] := by decide
  have hskip := h.skipBlanks_eq hnone []
  rw [List.nil_append, List.append_nil] at hskip
  have hends : EndsNumber [] := by
    intro c hc
    cases hc
  have hread := h.reads [] [] hends
  rw [List.append_nil, decodeFrom_end rfl] at hread
  rw [Json.decode, if_neg unmarked, hskip, hread]
  rfl

/-! ## Arrays -/

variable {gap inner last : Text}

/-- The items of an open array are read up to its end. -/
theorem decodeFrom_items (hgap : Gap gap) (hlast : Gap last) {t : Text}
    {v : Json} (h : Decodes t v) {ts : List Text} {vs : List Json}
    (hs : List.Forall₂ Decodes ts vs) (before : List Json) (rest : Text) :
    decodeFrom .value (.array before :: stack)
        (t ++ (ts.flatMap ((',' :: gap : Text) ++ ·)
          ++ (last ++ (']' : CodePoint) :: rest)))
      = decodeFrom (.complete (.array (before.reverse ++ v :: vs))) stack
          rest := by
  induction hs generalizing t v before with
  | nil =>
      have hends : EndsNumber (last ++ (']' : CodePoint) :: rest) :=
        (endsNumber_cons (by decide)).behind_gap hlast
      have hclose : skipBlanks (last ++ (']' : CodePoint) :: rest)
          = (']' : CodePoint) :: rest := by
        rw [skipBlanks_append hlast, skipBlanks_cons (by decide)]
      rw [List.flatMap_nil, List.nil_append, h.reads _ _ hends,
        decodeFrom_close_array hclose, List.reverse_cons]
  | @cons u w us ws hu hus ih =>
      -- the first item goes to the frame, and the next one is due
      have hcomma : ∀ more, EndsNumber ((',' : CodePoint) :: more) :=
        fun _ => endsNumber_cons (by decide)
      rw [List.flatMap_cons, List.append_assoc, List.append_assoc,
        List.cons_append, h.reads _ _ (hcomma _),
        decodeFrom_next_item (skipBlanks_cons (by decide) _),
        hu.skipBlanks_eq hgap, ih hu, List.reverse_cons, List.append_assoc]
      rfl

/-- An array is read, with any blanks between its items. -/
theorem decodeFrom_array (hinner : Gap inner) (hgap : Gap gap)
    (hlast : Gap last) {t : Text} {v : Json} (h : Decodes t v)
    {ts : List Text} {vs : List Json} (hs : List.Forall₂ Decodes ts vs)
    (rest : Text) :
    decodeFrom .value stack (('[' : CodePoint) :: (inner
        ++ (Text.joined (',' :: gap) (t :: ts)
          ++ (last ++ (']' : CodePoint) :: rest))))
      = decodeFrom (.complete (.array (v :: vs))) stack rest := by
  rw [Text.joined, List.append_assoc]
  obtain ⟨c, u, hbegins, -, hbracket⟩ := h.begins
  have hskip := h.skipBlanks_eq hinner (ts.flatMap ((',' :: gap : Text) ++ ·)
    ++ (last ++ (']' : CodePoint) :: rest))
  have hopen := hskip
  rw [hbegins, List.cons_append] at hopen
  rw [hbegins, List.cons_append, decodeFrom_open_array hopen hbracket,
    ← List.cons_append, ← hbegins, decodeFrom_items hgap hlast h hs]
  rfl

/-- **ITEMS BETWEEN BRACKETS SPELL AN ARRAY**. -/
theorem decodes_bracketed {ts : List Text} {vs : List Json}
    (h : List.Forall₂ Decodes ts vs) :
    Decodes (bracketed ts) (.array vs) where
  begins := ⟨'[', _, rfl, by decide, by decide⟩
  reads stack rest _ := by
    have hspace : Gap (.of " ") := by decide
    have hnone : Gap [] := by decide
    rw [bracketed, List.append_assoc, List.append_assoc]
    cases h with
    | nil => exact decodeFrom_empty_array (skipBlanks_cons (by decide) _)
    | cons hv hvs => exact decodeFrom_array hnone hspace hnone hv hvs rest

/-! ## Objects -/

/-- A name that does not occur yet goes to the end. -/
theorem Members.put_of_new {ms : Members} {name : Text} (v : Json)
    (h : name ∉ ms.map Prod.fst) : ms.put name v = ms ++ [(name, v)] := by
  refine if_neg fun hany => h ?_
  obtain ⟨m, hm, hname⟩ := List.any_eq_true.mp hany
  exact List.mem_map.mpr ⟨m, hm, of_decide_eq_true hname⟩

/-- Members with different names stay as they are. -/
theorem Members.settled_of_nodup {ms : Members}
    (h : (ms.map Prod.fst).Nodup) : ms.settled = ms := by
  -- behind any members that are done already, each of them new
  have hfold : ∀ done : Members, ((done ++ ms).map Prod.fst).Nodup →
      ms.foldl (fun done m => Members.put done m.1 m.2) done = done ++ ms := by
    clear h
    induction ms with
    | nil =>
        intro done _
        exact (List.append_nil done).symm
    | cons m ms ih =>
        intro done hnodup
        have hnew : m.1 ∉ done.map Prod.fst := by
          rw [List.map_append] at hnodup
          exact fun hold => (List.disjoint_of_nodup_append hnodup) hold
            List.mem_cons_self
        have hsplit : done ++ m :: ms = done ++ [m] ++ ms := by
          rw [List.append_assoc]
          rfl
        rw [List.foldl_cons, Members.put_of_new m.2 hnew, hsplit]
        exact ih _ (hsplit ▸ hnodup)
  exact hfold [] h

/-- The text spells the member: its name, a colon, its value. -/
def DecodesMember (t : Text) (m : Text × Json) : Prop :=
  m.1.Unpaired ∧ ∃ u, t = encodeString m.1 ++ .of ": " ++ u ∧ Decodes u m.2

theorem Decodes.member {u : Text} {v : Json} (h : Decodes u v) {name : Text}
    (hname : name.Unpaired) :
    DecodesMember (encodeString name ++ .of ": " ++ u) (name, v) :=
  ⟨hname, u, rfl, h⟩

theorem DecodesMember.begins {t : Text} {m : Text × Json}
    (h : DecodesMember t m) : ∃ u, t = ('\x22' : CodePoint) :: u := by
  obtain ⟨-, u, rfl, -⟩ := h
  exact ⟨_, rfl⟩

theorem DecodesMember.skipBlanks_eq {t : Text} {m : Text × Json}
    (h : DecodesMember t m) {gap : Text} (hgap : Gap gap) (rest : Text) :
    skipBlanks (gap ++ (t ++ rest)) = t ++ rest := by
  obtain ⟨u, rfl⟩ := h.begins
  rw [skipBlanks_append hgap]
  exact skipBlanks_cons (by decide) _

/-- Where a name is due, a member is read and its value is had. -/
theorem DecodesMember.reads {t : Text} {m : Text × Json}
    (h : DecodesMember t m) (before : Members) {rest : Text}
    (hends : EndsNumber rest) :
    decodeFrom (.name before) stack (t ++ rest)
      = decodeFrom (.complete m.2) (.object before m.1 :: stack) rest := by
  have hspace : Gap (.of " ") := by decide
  obtain ⟨hname, u, rfl, hu⟩ := h
  rw [encodeString]
  simp only [List.append_assoc]
  refine (decodeFrom_name (scanString_encoded hname _)
    (skipBlanks_cons (by decide) _)).trans ?_
  exact (congrArg _ (hu.skipBlanks_eq hspace rest)).trans (hu.reads _ _ hends)

/-- The members of an open object are read up to its end. -/
theorem decodeFrom_members {t : Text} {m : Text × Json}
    (h : DecodesMember t m) {ts : List Text} {ms : Members}
    (hs : List.Forall₂ DecodesMember ts ms) (before : Members) (rest : Text) :
    decodeFrom (.name before) stack
        (t ++ (ts.flatMap (Text.of ", " ++ ·) ++ ('\x7d' : CodePoint) :: rest))
      = decodeFrom (.complete (.object
          (Members.settled (before.reverse ++ m :: ms)))) stack rest := by
  induction hs generalizing t m before with
  | nil =>
      have hends : EndsNumber (('\x7d' : CodePoint) :: rest) :=
        endsNumber_cons (by decide)
      rw [List.flatMap_nil, List.nil_append, h.reads _ hends,
        decodeFrom_close_object (skipBlanks_cons (by decide) _),
        List.reverse_cons]
  | @cons u n us ns hu hus ih =>
      have hspace : Gap (.of " ") := by decide
      have hcomma : ∀ more, EndsNumber (Text.of ", " ++ more) :=
        fun _ => endsNumber_cons (by decide)
      rw [List.flatMap_cons, List.append_assoc, List.append_assoc,
        h.reads _ (hcomma _)]
      refine (decodeFrom_next_member (skipBlanks_cons (by decide) _)).trans ?_
      refine (congrArg _ (hu.skipBlanks_eq hspace _)).trans ?_
      rw [ih hu, List.reverse_cons, List.append_assoc]
      rfl

/-- **MEMBERS BETWEEN BRACES SPELL AN OBJECT**, if no name occurs twice. -/
theorem decodes_braced {ts : List Text} {ms : Members}
    (h : List.Forall₂ DecodesMember ts ms)
    (distinct : (ms.map Prod.fst).Nodup) :
    Decodes (braced ts) (.object ms) where
  begins := ⟨'\x7b', _, rfl, by decide, by decide⟩
  reads stack rest _ := by
    rw [braced, List.append_assoc, List.append_assoc]
    cases h with
    | nil => exact decodeFrom_empty_object (skipBlanks_cons (by decide) _)
    | @cons t m ts ms hm hms =>
        obtain ⟨u, hbegins⟩ := hm.begins
        have hskip : ∀ more : Text, skipBlanks (t ++ more)
            = ('\x22' : CodePoint) :: (u ++ more) := by
          intro more
          rw [hbegins, List.cons_append, skipBlanks_cons (by decide)]
        rw [Text.joined, List.append_assoc]
        refine (decodeFrom_open_object (hskip _) (by decide)).trans ?_
        rw [← List.cons_append, ← hbegins]
        refine (decodeFrom_members hm hms [] rest).trans ?_
        rw [List.reverse_nil, List.nil_append,
          Members.settled_of_nodup distinct]

end Json

end FormReader
