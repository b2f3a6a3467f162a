import FormReader.Proofs.Printable
import FormReader.Text.Quoted
import Mathlib.Algebra.Ring.Nat
import Mathlib.Tactic.Ring

/-! # Quoting — a quoted text is printable and can be told exactly

    Between quotes a code point is written in one of three ways (`Quoting`): as it
    is, as a letter behind a backslash, or by its hexadecimal digits behind a
    backslash and a mark that says how many they are.  The mark is what makes
    the three widths of digits, and any text behind them, tell apart: the first
    code point can be read off the text in front of anything (`unquote?`), and
    at the closing quote there is none.

    So a quoted text ends in one place and comes from one text only, whatever
    stands behind (`quoted_inj`); the opening quote says which of the two quotes
    is in use. -/

namespace FormReader

namespace Text

/-! ## The ways to write a code point -/

/-- One of the two quotes. -/
def IsQuote (c : CodePoint) : Prop := c = '\x27' ∨ c = '\x22'

theorem isQuote_quoteFor (t : Text) : IsQuote t.quoteFor := by
  rw [quoteFor]
  split
  · exact .inr rfl
  · exact .inl rfl

/-- What a letter behind a backslash stands for. -/
def letter? (quote e : CodePoint) : Option CodePoint :=
  if e = quote || e = '\\' then some e
  else if e = 'n' then some '\n'
  else if e = 'r' then some '\r'
  else if e = 't' then some '\t'
  else none

/-- How many digits follow a mark behind a backslash. -/
def width? (e : CodePoint) : Option Nat :=
  if e = 'x' then some 2 else if e = 'u' then some 4 else if e = 'U' then some 8 else none

/-- A text is a way to write a code point between quotes. -/
inductive Quoting (quote c : CodePoint) : Text → Prop where
  /-- The code point itself. -/
  | plain :
      c ≠ quote → c ≠ '\\' → c.isPrintable = true → Quoting quote c [c]
  /-- A letter behind a backslash. -/
  | letter {e : CodePoint} :
      letter? quote e = some c → e.Visible → Quoting quote c ['\\', e]
  /-- The digits of its number. -/
  | digits {e : CodePoint} {width : Nat} :
      letter? quote e = none → width? e = some width → e.Visible →
      c.val < 16 ^ width → Quoting quote c ('\\' :: e :: hex width c.val)

/-- **EVERY CODE POINT IS WRITTEN IN ONE OF THESE WAYS**. -/
theorem quoting_quotedForm {quote : CodePoint} (h : IsQuote quote) (c : CodePoint) :
    Quoting quote c (quotedForm quote c) := by
  have hvisible : quote.Visible := by
    rcases h with rfl | rfl <;> decide
  unfold quotedForm
  by_cases hquote : c = quote
  · rw [if_pos (by simp [hquote])]
    exact .letter (by simp [letter?, hquote]) (hquote ▸ hvisible)
  by_cases hslash : c = '\\'
  · rw [if_pos (by simp [hslash])]
    exact .letter (by simp [letter?, hslash]) (hslash ▸ by decide)
  rw [if_neg (by simp [hquote, hslash])]
  by_cases hfeed : c = '\n'
  · rw [if_pos hfeed, hfeed]
    refine .letter (e := 'n') ?_ (by decide)
    rcases h with rfl | rfl <;> decide
  rw [if_neg hfeed]
  by_cases hreturn : c = '\r'
  · rw [if_pos hreturn, hreturn]
    refine .letter (e := 'r') ?_ (by decide)
    rcases h with rfl | rfl <;> decide
  rw [if_neg hreturn]
  by_cases htab : c = '\t'
  · rw [if_pos htab, htab]
    refine .letter (e := 't') ?_ (by decide)
    rcases h with rfl | rfl <;> decide
  rw [if_neg htab]
  by_cases hprintable : c.isPrintable = true
  · rw [if_pos hprintable]
    exact .plain hquote hslash hprintable
  rw [if_neg hprintable]
  by_cases htwo : c.val < 0x100
  · rw [if_pos htwo]
    refine .digits (e := 'x') ?_ rfl (by decide) htwo
    rcases h with rfl | rfl <;> decide
  rw [if_neg htwo]
  by_cases hfour : c.val < 0x10000
  · rw [if_pos hfour]
    refine .digits (e := 'u') ?_ rfl (by decide) hfour
    rcases h with rfl | rfl <;> decide
  · rw [if_neg hfour]
    refine .digits (e := 'U') ?_ rfl (by decide) (Nat.lt_trans c.isLt (by decide))
    rcases h with rfl | rfl <;> decide

/-! ## Nothing but printable characters -/

theorem visible_hex (width n : Nat) : (hex width n).Visible := by
  induction width generalizing n with
  | zero => exact List.forall_mem_nil _
  | succ width ih =>
      have hdigit := Json.visible_hexDigit (Nat.mod_lt n (by decide : 0 < 16))
      exact (ih (n / 16)).append (List.forall_mem_singleton.mpr hdigit)

theorem Quoting.printable {quote c : CodePoint} {t : Text} (h : Quoting quote c t) :
    t.Printable := by
  have hmark : ∀ e : CodePoint, e.Visible → Text.Visible ['\\', e] := by
    intro e he
    exact List.forall_mem_cons.mpr ⟨by decide, List.forall_mem_singleton.mpr he⟩
  cases h with
  | plain _ _ hprintable => exact List.forall_mem_singleton.mpr hprintable
  | letter _ hvisible => exact (hmark _ hvisible).printable
  | @digits e width _ _ hvisible _ =>
      exact ((hmark e hvisible).append (visible_hex width c.val)).printable

theorem printable_quoted (t : Text) : t.quoted.Printable := by
  have hquote := isQuote_quoteFor t
  have hvisible : Text.Visible [t.quoteFor] := by
    rcases hquote with h | h <;> rw [h] <;> decide
  have hinside : Printable (t.flatMap (quotedForm t.quoteFor)) :=
    .flatMap fun c _ => (quoting_quotedForm hquote c).printable
  exact (hvisible.printable.append hinside).append hvisible.printable

/-! ## Reading a code point off -/

/-- The number that digits at the head of a text go on with, and the text behind
    them. -/
def readHex? : (width value : Nat) → Text → Option (Nat × Text)
  | 0, value, t => some (value, t)
  | _ + 1, _, [] => none
  | width + 1, value, c :: t => (hexValue? c).bind fun d => readHex? width (value * 16 + d) t

theorem readHex?_append (width more value n : Nat) (rest : Text) :
    readHex? (width + more) value (hex width n ++ rest)
      = readHex? more (value * 16 ^ width + n % 16 ^ width) rest := by
  induction width generalizing more n rest with
  | zero => rw [Nat.zero_add, Nat.pow_zero, Nat.mul_one, Nat.mod_one]; rfl
  | succ width ih =>
      have hdigit : hexValue? (hexDigit (n % 16)) = some (n % 16) :=
        Json.hexValue?_hexDigit (Nat.mod_lt n (by decide))
      -- the last digit is read behind those of the quotient
      rw [hex, List.append_assoc, Nat.add_right_comm, Nat.add_assoc, ih, List.singleton_append,
        readHex?, hdigit, Option.bind_some]
      congr 1
      rw [Nat.pow_succ', Nat.mod_mul]
      ring

/-- Digits are read as they were written. -/
theorem readHex?_hex {width n : Nat} (h : n < 16 ^ width) (rest : Text) :
    readHex? width 0 (hex width n ++ rest) = some (n, rest) := by
  have hread := readHex?_append width 0 0 n rest
  rw [Nat.add_zero, Nat.zero_mul, Nat.zero_add, Nat.mod_eq_of_lt h] at hread
  exact hread

/-- The first code point between quotes, and the text behind the way it is
    written; none at the closing quote. -/
def unquote? (quote : CodePoint) : Text → Option (CodePoint × Text)
  | [] => none
  | c :: rest =>
      if c = quote then none
      else if c = '\\' then
        match rest with
        | [] => none
        | e :: more =>
            match letter? quote e with
            | some d => some (d, more)
            | none => (width? e).bind fun width =>
                (readHex? width 0 more).map fun read => (.ofNat read.1, read.2)
      else some (c, rest)

theorem unquote?_quote (quote : CodePoint) (rest : Text) :
    unquote? quote (quote :: rest) = none :=
  if_pos rfl

/-- **A CODE POINT IS READ OFF WHATEVER STANDS BEHIND**. -/
theorem Quoting.unquote? {quote c : CodePoint} {t : Text} (hquote : IsQuote quote)
    (h : Quoting quote c t) (rest : Text) :
    Text.unquote? quote (t ++ rest) = some (c, rest) := by
  have hslash : CodePoint.ofChar '\\' ≠ quote := by
    rcases hquote with rfl | rfl <;> decide
  cases h with
  | plain hne hback _ =>
      show Text.unquote? quote (c :: rest) = _
      rw [Text.unquote?.eq_def]
      dsimp only
      rw [if_neg hne, if_neg hback]
  | @letter e hletter _ =>
      show Text.unquote? quote (CodePoint.ofChar '\\' :: e :: rest) = _
      rw [Text.unquote?.eq_def]
      dsimp only
      rw [if_neg hslash, if_pos rfl, hletter]
  | @digits e width hletter hwidth _ hlt =>
      show Text.unquote? quote (CodePoint.ofChar '\\' :: e :: (hex width c.val ++ rest)) = _
      rw [Text.unquote?.eq_def]
      dsimp only
      rw [if_neg hslash, if_pos rfl, hletter]
      dsimp only
      rw [hwidth, Option.bind_some, readHex?_hex hlt, Option.map_some]
      exact congrArg (fun d => some (d, rest)) (CodePoint.ext (CodePoint.val_ofNat c.isLt))

/-! ## Quoted texts -/

/-- What is written up to the closing quote can be told. -/
theorem flatMap_quotedForm_inj {quote : CodePoint} (hquote : IsQuote quote) {t u us vs : Text}
    (h : t.flatMap (quotedForm quote) ++ quote :: us
      = u.flatMap (quotedForm quote) ++ quote :: vs) : t = u ∧ us = vs := by
  have hread : ∀ (c : CodePoint) (more : Text),
      unquote? quote (quotedForm quote c ++ more) = some (c, more) :=
    fun c more => (quoting_quotedForm hquote c).unquote? hquote more
  induction t generalizing u with
  | nil =>
      cases u with
      | nil => exact ⟨rfl, (List.cons.inj h).2⟩
      | cons d u =>
          -- one text goes on where the other ends
          have hnone := unquote?_quote quote us
          rw [List.flatMap_nil, List.nil_append, List.flatMap_cons, List.append_assoc] at h
          rw [h, hread] at hnone
          cases hnone
  | cons c t ih =>
      rw [List.flatMap_cons, List.append_assoc] at h
      cases u with
      | nil =>
          have hnone := unquote?_quote quote vs
          rw [List.flatMap_nil, List.nil_append] at h
          rw [← h, hread] at hnone
          cases hnone
      | cons d u =>
          rw [List.flatMap_cons, List.append_assoc] at h
          have hsame := congrArg (unquote? quote) h
          rw [hread, hread] at hsame
          obtain ⟨rfl, hbehind⟩ := Prod.mk.inj (Option.some.inj hsame)
          obtain ⟨rfl, hrest⟩ := ih hbehind
          exact ⟨rfl, hrest⟩

/-- **A QUOTED TEXT CAN BE TOLD**, with the place where it ends. -/
theorem quoted_inj {t u us vs : Text} (h : t.quoted ++ us = u.quoted ++ vs) :
    t = u ∧ us = vs := by
  rw [quoted, quoted] at h
  obtain ⟨hquote, hinside⟩ := List.cons.inj h
  have hlisted : t.flatMap (quotedForm t.quoteFor) ++ t.quoteFor :: us
      = u.flatMap (quotedForm t.quoteFor) ++ t.quoteFor :: vs := by
    rw [List.append_cons, List.append_cons (u.flatMap _)]
    exact hquote ▸ hinside
  exact flatMap_quotedForm_inj (isQuote_quoteFor t) hlisted

end Text

end FormReader
