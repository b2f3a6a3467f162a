import FormReader.Json.Encoder
import FormReader.Json.Scanner
import Mathlib.Data.List.Chain

/-! # Escapes — a string is scanned as it was encoded

    The encoder writes each code point of a text by itself, in one of four ways
    (`Escape`): a letter behind a backslash, the code point, a unit of 16 bits,
    or two units.  The scanner takes them back one by one, but it JOINS the
    escape of a high surrogate with that of a low one behind it.  The encoder
    means a code point above U+FFFF by such a pair, and a text that holds the
    two surrogates themselves would come back as that code point.  A text in
    which no high surrogate is directly followed by a low one (`Text.Unpaired`)
    comes back as it is (`scanString_encoded`): the invariant is that the
    scanner awaits a low surrogate only behind a high one of the text. -/

namespace FormReader

/-- No high surrogate is directly followed by a low one. -/
def Text.Unpaired (t : Text) : Prop :=
  t.IsChain fun a b => ¬ (a.isHighSurrogate = true ∧ b.isLowSurrogate = true)

instance (t : Text) : Decidable t.Unpaired :=
  inferInstanceAs (Decidable (t.IsChain _))

/-- A visible character or the space of ASCII. -/
def CodePoint.Visible (c : CodePoint) : Prop := 0x20 ≤ c.val ∧ c.val ≤ 0x7E

instance (c : CodePoint) : Decidable c.Visible :=
  inferInstanceAs (Decidable (_ ∧ _))

/-- The text is on one line of ASCII. -/
def Text.Visible (t : Text) : Prop := ∀ c ∈ t, c.Visible

instance (t : Text) : Decidable t.Visible :=
  inferInstanceAs (Decidable (∀ c ∈ t, c.Visible))

theorem Text.Visible.append {t u : Text} (ht : t.Visible) (hu : u.Visible) :
    Text.Visible (t ++ u) :=
  List.forall_mem_append.mpr ⟨ht, hu⟩

theorem Text.Visible.flatMap {α : Type} {xs : List α} {f : α → Text}
    (h : ∀ x ∈ xs, (f x).Visible) : Text.Visible (xs.flatMap f) :=
  List.forall_mem_flatMap.mpr h

theorem Text.Visible.joined {separator : Text} {ts : List Text}
    (hs : separator.Visible) (h : ∀ t ∈ ts, t.Visible) :
    (Text.joined separator ts).Visible := by
  cases ts with
  | nil => exact List.forall_mem_nil _
  | cons t ts =>
      obtain ⟨ht, hts⟩ := List.forall_mem_cons.mp h
      exact ht.append (.flatMap fun u hu => hs.append (hts u hu))

namespace CodePoint

theorem visible_iff {c : CodePoint} :
    (0x20 ≤ c.val && c.val ≤ 0x7E) = true ↔ c.Visible := by
  rw [Bool.and_eq_true, decide_eq_true_eq, decide_eq_true_eq]
  rfl

theorem isHighSurrogate_iff {c : CodePoint} :
    c.isHighSurrogate = true ↔ 0xD800 ≤ c.val ∧ c.val < 0xDC00 := by
  rw [isHighSurrogate, Bool.and_eq_true, decide_eq_true_eq, decide_eq_true_eq]

theorem isLowSurrogate_iff {c : CodePoint} :
    c.isLowSurrogate = true ↔ 0xDC00 ≤ c.val ∧ c.val < 0xE000 := by
  rw [isLowSurrogate, Bool.and_eq_true, decide_eq_true_eq, decide_eq_true_eq]

theorem not_low_of_high {c : CodePoint} (h : c.isHighSurrogate = true) :
    c.isLowSurrogate = false := by
  refine Bool.eq_false_iff.mpr fun hlow => ?_
  have hhigh := isHighSurrogate_iff.mp h
  have hlow := isLowSurrogate_iff.mp hlow
  omega

theorem unit_of_high {c : CodePoint} (h : c.isHighSurrogate = true) :
    c.val < 0x10000 :=
  Nat.lt_trans (isHighSurrogate_iff.mp h).2 (by decide)

theorem unit_of_low {c : CodePoint} (h : c.isLowSurrogate = true) :
    c.val < 0x10000 :=
  Nat.lt_trans (isLowSurrogate_iff.mp h).2 (by decide)

/-- A code point above U+FFFF stands for a pair of surrogates. -/
theorem exists_surrogates {c : CodePoint} (h : 0x10000 ≤ c.val) :
    ∃ high low : CodePoint,
      high.isHighSurrogate = true ∧ low.isLowSurrogate = true ∧
      high.val = 0xD800 + (c.val - 0x10000) / 0x400 ∧
      low.val = 0xDC00 + (c.val - 0x10000) % 0x400 ∧
      ofSurrogates high low = c := by
  have hlt := c.isLt
  have hhigh : (c.val - 0x10000) / 0x400 < 0x400 := by omega
  have hlow : (c.val - 0x10000) % 0x400 < 0x400 := Nat.mod_lt _ (by decide)
  refine ⟨⟨0xD800 + (c.val - 0x10000) / 0x400, by omega⟩,
    ⟨0xDC00 + (c.val - 0x10000) % 0x400, by omega⟩, ?_, ?_, rfl, rfl, ?_⟩
  · exact isHighSurrogate_iff.mpr
      ⟨Nat.le_add_right .., Nat.add_lt_add_left hhigh 0xD800⟩
  · exact isLowSurrogate_iff.mpr
      ⟨Nat.le_add_right .., Nat.add_lt_add_left hlow 0xDC00⟩
  · -- the offset is put together from its quotient and its remainder
    have hsum : 0x10000 + (0xD800 + (c.val - 0x10000) / 0x400 - 0xD800) * 0x400
        + (0xDC00 + (c.val - 0x10000) % 0x400 - 0xDC00) = c.val := by omega
    rw [ofSurrogates, hsum]
    exact CodePoint.ext (val_ofNat hlt)

end CodePoint

namespace Json

/-! ## The ways to write a code point -/

/-- A text is a way to write a code point inside a string. -/
inductive Escape : CodePoint → Text → Prop where
  /-- A letter behind a backslash. -/
  | letter {c e : CodePoint} :
      e ≠ 'u' → letterEscape? e = some c → e.Visible → Escape c ['\\', e]
  /-- The code point itself. -/
  | plain {c : CodePoint} :
      c ≠ '\x22' → c ≠ '\\' → c.Visible → Escape c [c]
  /-- A unit of 16 bits. -/
  | unit {c : CodePoint} : c.val < 0x10000 → Escape c (unitEscape c.val)
  /-- The two halves of a code point above U+FFFF. -/
  | pair {high low : CodePoint} :
      high.isHighSurrogate = true → low.isLowSurrogate = true →
      Escape (.ofSurrogates high low)
        (unitEscape high.val ++ unitEscape low.val)

/-- **EVERY CODE POINT IS WRITTEN IN ONE OF THESE WAYS**. -/
theorem escape_escaped (c : CodePoint) : Escape c (escaped c) := by
  unfold escaped
  by_cases hquote : c = '\x22'
  · rw [if_pos hquote]
    exact hquote ▸ .letter (e := '\x22') (by decide) rfl (by decide)
  rw [if_neg hquote]
  by_cases hslash : c = '\\'
  · rw [if_pos hslash]
    exact hslash ▸ .letter (e := '\\') (by decide) rfl (by decide)
  rw [if_neg hslash]
  by_cases hfeed : c = '\n'
  · rw [if_pos hfeed]
    exact hfeed ▸ .letter (e := 'n') (by decide) rfl (by decide)
  rw [if_neg hfeed]
  by_cases hreturn : c = '\r'
  · rw [if_pos hreturn]
    exact hreturn ▸ .letter (e := 'r') (by decide) rfl (by decide)
  rw [if_neg hreturn]
  by_cases htab : c = '\t'
  · rw [if_pos htab]
    exact htab ▸ .letter (e := 't') (by decide) rfl (by decide)
  rw [if_neg htab]
  by_cases hback : c = '\x08'
  · rw [if_pos hback]
    exact hback ▸ .letter (e := 'b') (by decide) rfl (by decide)
  rw [if_neg hback]
  by_cases hform : c = '\x0c'
  · rw [if_pos hform]
    exact hform ▸ .letter (e := 'f') (by decide) rfl (by decide)
  rw [if_neg hform]
  by_cases hvisible : c.Visible
  · rw [if_pos (CodePoint.visible_iff.mpr hvisible)]
    exact .plain hquote hslash hvisible
  rw [if_neg (mt CodePoint.visible_iff.mp hvisible)]
  by_cases hunit : c.val < 0x10000
  · rw [if_pos hunit]
    exact .unit hunit
  · obtain ⟨high, low, hhigh, hlow, hhv, hlv, hc⟩ :=
      CodePoint.exists_surrogates (Nat.le_of_not_lt hunit)
    rw [if_neg hunit, ← hhv, ← hlv]
    exact hc ▸ .pair hhigh hlow

/-! ## Units -/

theorem hexValue?_hexDigit {d : Nat} (h : d < 16) :
    Text.hexValue? (Text.hexDigit d) = some d := by
  revert d
  decide

theorem visible_hexDigit {d : Nat} (h : d < 16) : (Text.hexDigit d).Visible := by
  revert d
  decide

/-- The four digits of a unit. -/
theorem hex_four (n : Nat) :
    Text.hex 4 n = [Text.hexDigit (n / 4096 % 16), Text.hexDigit (n / 256 % 16),
      Text.hexDigit (n / 16 % 16), Text.hexDigit (n % 16)] := by
  have h256 : n / 16 / 16 = n / 256 := Nat.div_div_eq_div_mul ..
  have h4096 : n / 256 / 16 = n / 4096 := Nat.div_div_eq_div_mul ..
  rw [Text.hex, Text.hex, Text.hex, Text.hex, Text.hex, h256, h4096]
  rfl

/-- The digits of a unit are read back. -/
theorem unit?_hexDigits {c : CodePoint} (h : c.val < 0x10000) :
    unit? (Text.hexDigit (c.val / 4096 % 16)) (Text.hexDigit (c.val / 256 % 16))
      (Text.hexDigit (c.val / 16 % 16)) (Text.hexDigit (c.val % 16))
      = some c := by
  have hdigit : ∀ n, Text.hexValue? (Text.hexDigit (n % 16)) = some (n % 16) :=
    fun n => hexValue?_hexDigit (Nat.mod_lt n (by decide))
  have hvalue : ((c.val / 4096 % 16 * 16 + c.val / 256 % 16) * 16
      + c.val / 16 % 16) * 16 + c.val % 16 = c.val := by omega
  rw [unit?, hdigit, hdigit, hdigit, hdigit]
  show some (CodePoint.ofNat _) = some c
  rw [hvalue]
  exact congrArg some (CodePoint.ext (CodePoint.val_ofNat c.isLt))

/-- A unit is scanned, if something stands behind it. -/
theorem scan_unit (whole : Text) (s : Scanned) {c : CodePoint}
    (h : c.val < 0x10000) {more : Text} (hmore : more ≠ []) :
    scanStringFrom whole s (unitEscape c.val ++ more)
      = scanStringFrom whole (s.pushUnit c) more := by
  obtain ⟨next, more, rfl⟩ := List.exists_cons_of_ne_nil hmore
  rw [unitEscape, hex_four]
  show scanStringFrom whole s (CodePoint.ofChar '\\' :: CodePoint.ofChar 'u' ::
    _ :: _ :: _ :: _ :: next :: more) = _
  rw [scanStringFrom, if_neg (by decide), if_pos rfl, if_pos rfl,
    unit?_hexDigits h]

/-- A unit that cannot be joined is taken as it is. -/
theorem Scanned.pushUnit_apart {s : Scanned} {c : CodePoint}
    (apart : s.awaitsLow = true → c.isLowSurrogate = false) :
    s.pushUnit c = ⟨c :: s.done, c.isHighSurrogate⟩ := by
  obtain ⟨done, awaits⟩ := s
  cases awaits with
  | false => cases done <;> rfl
  | true =>
      have hlow := apart rfl
      cases done with
      | nil => rfl
      | cons d done => simp only [pushUnit, hlow, Bool.and_false]

/-- **ONE CODE POINT IS SCANNED AS IT WAS WRITTEN**: it is taken, and if a low
    surrogate may be joined with it then it is a high one. -/
theorem scan_escape (whole : Text) {s : Scanned} {c : CodePoint} {t : Text}
    (h : Escape c t) (apart : s.awaitsLow = true → c.isLowSurrogate = false)
    {more : Text} (hmore : more ≠ []) :
    ∃ awaits : Bool, (awaits = true → c.isHighSurrogate = true) ∧
      scanStringFrom whole s (t ++ more)
        = scanStringFrom whole ⟨c :: s.done, awaits⟩ more := by
  cases h with
  | @letter _ e hnot hletter _ =>
      refine ⟨false, Bool.noConfusion, ?_⟩
      show scanStringFrom whole s (CodePoint.ofChar '\\' :: e :: more) = _
      rw [scanStringFrom.eq_def]
      dsimp only
      rw [if_neg (by decide), if_pos rfl, if_neg hnot, hletter]
      rfl
  | plain hquote hslash hvisible =>
      refine ⟨false, Bool.noConfusion, ?_⟩
      show scanStringFrom whole s (c :: more) = _
      rw [scanStringFrom.eq_def]
      dsimp only
      rw [if_neg hquote, if_neg hslash, if_neg (Nat.not_lt_of_le hvisible.1)]
      rfl
  | unit hunit =>
      -- a surrogate is such a unit, and a high one may wait for its low one
      refine ⟨c.isHighSurrogate, id, ?_⟩
      rw [scan_unit whole s hunit hmore, Scanned.pushUnit_apart apart]
  | @pair high low hhigh hlow =>
      -- the first half is taken and awaits the second, which joins it
      refine ⟨false, Bool.noConfusion, ?_⟩
      have hapart : s.awaitsLow = true → high.isLowSurrogate = false :=
        fun _ => CodePoint.not_low_of_high hhigh
      rw [List.append_assoc, scan_unit whole s (CodePoint.unit_of_high hhigh)
        (List.append_ne_nil_of_right_ne_nil _ hmore),
        Scanned.pushUnit_apart hapart, hhigh,
        scan_unit whole _ (CodePoint.unit_of_low hlow) hmore]
      simp only [Scanned.pushUnit, hlow, Bool.and_self]

/-- **STRINGS ARE SCANNED AS THEY WERE WRITTEN**, behind what is already
    scanned. -/
theorem scan_escaped (whole : Text) (s : Scanned) {t : Text} (h : t.Unpaired)
    (apart : ∀ c ∈ t.head?, s.awaitsLow = true → c.isLowSurrogate = false)
    (rest : Text) :
    scanStringFrom whole s (t.flatMap escaped ++ (('\x22' : CodePoint) :: rest))
      = .ok (s.done.reverse ++ t, rest) := by
  induction t generalizing s with
  | nil =>
      show scanStringFrom whole s (CodePoint.ofChar '\x22' :: rest) = _
      rw [scanStringFrom.eq_def]
      dsimp only
      rw [if_pos rfl, List.append_nil]
  | cons c t ih =>
      obtain ⟨hnext, htail⟩ := List.isChain_cons.mp h
      obtain ⟨awaits, hawaits, hscan⟩ := scan_escape whole (escape_escaped c)
        (apart c rfl) (List.append_ne_nil_of_right_ne_nil
          (t.flatMap escaped) (List.cons_ne_nil (CodePoint.ofChar '\x22') rest))
      have hapart : ∀ d ∈ t.head?, awaits = true → d.isLowSurrogate = false :=
        fun d hd hawait => by simpa [hawaits hawait] using hnext d hd
      rw [List.flatMap_cons, List.append_assoc, hscan, ih _ htail hapart,
        List.reverse_cons, List.append_assoc]
      rfl

theorem scanString_encoded {t : Text} (h : t.Unpaired) (rest : Text) :
    scanString (t.flatMap escaped ++ (('\x22' : CodePoint) :: rest))
      = .ok (t, rest) :=
  scan_escaped _ .nothing h (fun _ _ => Bool.noConfusion) rest

/-! ## Nothing but ASCII -/

theorem visible_unitEscape (n : Nat) : (unitEscape n).Visible := by
  have hdigit : ∀ k, (Text.hexDigit (k % 16)).Visible :=
    fun k => visible_hexDigit (Nat.mod_lt k (by decide))
  have hu : (Text.of "\\u").Visible := by decide
  rw [unitEscape, hex_four]
  refine hu.append ?_
  simp only [Text.Visible, List.forall_mem_cons]
  exact ⟨hdigit _, hdigit _, hdigit _, hdigit _, List.forall_mem_nil _⟩

theorem Escape.visible {c : CodePoint} {t : Text} (h : Escape c t) :
    t.Visible := by
  cases h with
  | letter _ _ hvisible =>
      exact List.forall_mem_cons.mpr
        ⟨by decide, List.forall_mem_singleton.mpr hvisible⟩
  | plain _ _ hvisible => exact List.forall_mem_singleton.mpr hvisible
  | unit _ => exact visible_unitEscape _
  | pair _ _ => exact (visible_unitEscape _).append (visible_unitEscape _)

theorem visible_encodeString (t : Text) : (encodeString t).Visible := by
  have hquote : (Text.of "\x22").Visible := by decide
  exact (hquote.append (.flatMap fun c _ => (escape_escaped c).visible)).append
    hquote

theorem visible_member (name : Text) {u : Text} (h : u.Visible) :
    Text.Visible (encodeString name ++ .of ": " ++ u) := by
  have hcolon : (Text.of ": ").Visible := by decide
  exact ((visible_encodeString name).append hcolon).append h

theorem visible_bracketed {ts : List Text} (h : ∀ t ∈ ts, t.Visible) :
    (bracketed ts).Visible := by
  have hopening : (Text.of "[").Visible := by decide
  have hclosing : (Text.of "]").Visible := by decide
  have hcomma : (Text.of ", ").Visible := by decide
  exact (hopening.append (hcomma.joined h)).append hclosing

theorem visible_braced {ts : List Text} (h : ∀ t ∈ ts, t.Visible) :
    (braced ts).Visible := by
  have hopening : (Text.of "\x7b").Visible := by decide
  have hclosing : (Text.of "\x7d").Visible := by decide
  have hcomma : (Text.of ", ").Visible := by decide
  exact (hopening.append (hcomma.joined h)).append hclosing

end Json

end FormReader
