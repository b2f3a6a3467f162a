import FormReader.Text.Utf8
import Mathlib.Data.List.Basic
import Mathlib.Data.List.TakeWhile

/-! # Octets — which texts can be encoded, and what is read back

    A text can be encoded exactly if no surrogate occurs in it
    (`encode_ok_iff`), and its octets are then those of its code points one after
    the other.  In a name the surrogates that stand for octets may occur as well
    (`encodeName_ok_iff`).

    The decoder reads the octets of a code point whatever stands
    behind (`decodeFrom_octetsOf`): by the lead it knows how many octets are owed
    and between which bounds the next one lies, and for a code point that is no
    surrogate the bounds hold.  So what was encoded is decoded to the same text
    (`decode_encode`). -/

namespace FormReader

/-- No surrogate occurs in the text. -/
def Text.Encodable (t : Text) : Prop := ∀ c ∈ t, c.isSurrogate = false

instance (t : Text) : Decidable t.Encodable :=
  inferInstanceAs (Decidable (∀ c ∈ t, c.isSurrogate = false))

theorem Text.encodable_append {t u : Text} :
    Text.Encodable (t ++ u) ↔ t.Encodable ∧ u.Encodable :=
  List.forall_mem_append

theorem Text.not_encodable {t : Text} : ¬ t.Encodable ↔ ∃ c ∈ t, c.isSurrogate = true := by
  simp only [Encodable, not_forall, Bool.not_eq_false, exists_prop]

namespace Utf8

/-! ## Encoding -/

section

variable {refused : CodePoint → Bool} {written : CodePoint → Octets} {t : Text}

theorem encodeBy_of_accepted (h : ∀ c ∈ t, refused c = false) :
    encodeBy refused written t = .ok (t.flatMap written) := by
  have hall : t.dropWhile (!refused ·) = [] := by
    rw [List.dropWhile_eq_nil_iff]
    intro c hc
    rw [h c hc]
    rfl
  rw [encodeBy, hall]

/-- The error points at the first code point that is refused. -/
theorem encodeBy_of_refused (h : ¬ ∀ c ∈ t, refused c = false) :
    ∃ e, encodeBy refused written t = .error e ∧ refused e.first = true ∧
      ∃ clean rest, t = clean ++ e.first :: rest ∧ e.offset = clean.length ∧
        ∀ c ∈ clean, refused c = false := by
  have hsome : t.dropWhile (!refused ·) ≠ [] := by
    intro hnil
    refine h fun c hc => ?_
    have hclean := List.dropWhile_eq_nil_iff.mp hnil c hc
    simpa using hclean
  obtain ⟨c, rest, hdrop⟩ := List.exists_cons_of_ne_nil hsome
  have hcut := List.takeWhile_append_dropWhile (p := (!refused ·)) (l := t)
  rw [hdrop] at hcut
  have hfirst : refused c = true := by
    have hhead := List.head_dropWhile_not (!refused ·) hsome
    simp only [hdrop, List.head_cons, Bool.not_eq_false'] at hhead
    exact hhead
  refine ⟨_, by rw [encodeBy, hdrop], hfirst, _, rest, hcut.symm, rfl, ?_⟩
  intro d hd
  simpa using List.mem_takeWhile_imp hd

theorem encodeBy_ok_iff {octets : Octets} :
    encodeBy refused written t = .ok octets ↔
      (∀ c ∈ t, refused c = false) ∧ octets = t.flatMap written := by
  constructor
  · intro h
    by_cases hclean : ∀ c ∈ t, refused c = false
    · rw [encodeBy_of_accepted hclean] at h
      exact ⟨hclean, (Except.ok.inj h).symm⟩
    · obtain ⟨e, he, -⟩ := encodeBy_of_refused hclean
      cases he.symm.trans h
  · rintro ⟨hclean, rfl⟩
    exact encodeBy_of_accepted hclean

end

theorem encode_of_encodable {t : Text} (h : t.Encodable) :
    encode t = .ok (t.flatMap octetsOf) :=
  encodeBy_of_accepted h

theorem encode_of_not_encodable {t : Text} (h : ¬ t.Encodable) :
    ∃ e, encode t = .error e := by
  obtain ⟨e, he, -⟩ := encodeBy_of_refused h
  exact ⟨e, he⟩

/-- **A TEXT CAN BE ENCODED EXACTLY IF NO SURROGATE OCCURS IN IT**. -/
theorem encode_ok_iff {t : Text} {octets : Octets} :
    encode t = .ok octets ↔ t.Encodable ∧ octets = t.flatMap octetsOf :=
  encodeBy_ok_iff

/-! ## Names -/

/-- **A NAME HAS OCTETS EXACTLY IF EVERY SURROGATE IN IT STANDS FOR ONE**. -/
theorem encodeName_ok_iff {t : Text} {octets : Octets} :
    encodeName t = .ok octets ↔
      (∀ c ∈ t, c.isSurrogate = true → c.isStrayOctet = true) ∧
        octets = t.flatMap nameOctetsOf := by
  rw [encodeName, encodeBy_ok_iff]
  simp only [Bool.and_eq_false_imp, Bool.not_eq_false']

theorem isSurrogate_of_isStrayOctet {c : CodePoint} (h : c.isStrayOctet = true) :
    c.isSurrogate = true := by
  simp only [CodePoint.isStrayOctet, CodePoint.isSurrogate, Bool.and_eq_true,
    decide_eq_true_eq] at *
  omega

/-- A name without surrogates has the octets of any other text. -/
theorem encodeName_of_encodable {t : Text} (h : t.Encodable) : encodeName t = encode t := by
  have hsame : t.flatMap nameOctetsOf = t.flatMap octetsOf := by
    refine List.flatMap_congr fun c hc => if_neg fun hstray => ?_
    cases (h c hc).symm.trans (isSurrogate_of_isStrayOctet hstray)
  rw [encode_of_encodable h, encodeName_ok_iff]
  refine ⟨fun c hc hsurrogate => ?_, hsame.symm⟩
  cases (h c hc).symm.trans hsurrogate

/-- The octets of a character may be given one by one. -/
example : encodeName [.ofNat 0xDCC3, .ofNat 0xDCA9] = encodeName (.of "é") := by decide +kernel

/-! ## Moves of the decoder -/

section

variable {b : UInt8} {p : Pending}

theorem decodeFrom_single {c : CodePoint} (h : begin b = .single c) (offset : Nat)
    (done : Text) (rest : Octets) :
    decodeFrom offset none done (b :: rest) = decodeFrom (offset + 1) none (c :: done) rest := by
  rw [decodeFrom, h]

theorem decodeFrom_lead (h : begin b = .sequence p) (offset : Nat) (done : Text)
    (rest : Octets) :
    decodeFrom offset none done (b :: rest) = decodeFrom (offset + 1) (some p) done rest := by
  rw [decodeFrom, h]

theorem decodeFrom_last (hlow : p.low ≤ b.toNat) (hhigh : b.toNat ≤ p.high)
    (howed : p.owed = 0) (offset : Nat) (done : Text) (rest : Octets) :
    decodeFrom offset (some p) done (b :: rest)
      = decodeFrom (offset + 1) none
          (.ofNat (p.value * 0x40 + (b.toNat - 0x80)) :: done) rest := by
  rw [decodeFrom, if_pos (by simp [hlow, hhigh]), howed]

theorem decodeFrom_more (hlow : p.low ≤ b.toNat) (hhigh : b.toNat ≤ p.high) (owed : Nat)
    (howed : p.owed = owed + 1) (offset : Nat) (done : Text) (rest : Octets) :
    decodeFrom offset (some p) done (b :: rest)
      = decodeFrom (offset + 1)
          (some ⟨p.lead, p.width + 1, p.value * 0x40 + (b.toNat - 0x80), owed, 0x80, 0xBF⟩)
          done rest := by
  rw [decodeFrom, if_pos (by simp [hlow, hhigh]), howed]

end

/-! ## The octets of a code point -/

theorem toNat_octet {n : Nat} (h : n < 0x100) : n.toUInt8.toNat = n :=
  UInt8.toNat_ofNat_of_lt' h

theorem begin_single {n : Nat} (h : n < 0x80) : begin n.toUInt8 = .single (.ofNat n) := by
  have hn := toNat_octet (n := n) (by omega)
  rw [begin, hn]
  dsimp only
  rw [if_pos h]

theorem begin_two {n : Nat} (hlow : 0xC2 ≤ n) (hhigh : n < 0xE0) :
    begin n.toUInt8 = .sequence ⟨n.toUInt8, 1, n - 0xC0, 0, (secondBounds n).1,
      (secondBounds n).2⟩ := by
  have hn := toNat_octet (n := n) (by omega)
  rw [begin, hn]
  dsimp only
  rw [if_neg (by omega), if_neg (by omega), if_pos hhigh]

theorem begin_three {n : Nat} (hlow : 0xE0 ≤ n) (hhigh : n < 0xF0) :
    begin n.toUInt8 = .sequence ⟨n.toUInt8, 1, n - 0xE0, 1, (secondBounds n).1,
      (secondBounds n).2⟩ := by
  have hn := toNat_octet (n := n) (by omega)
  rw [begin, hn]
  dsimp only
  rw [if_neg (by omega), if_neg (by omega), if_neg (by omega), if_pos hhigh]

theorem begin_four {n : Nat} (hlow : 0xF0 ≤ n) (hhigh : n < 0xF5) :
    begin n.toUInt8 = .sequence ⟨n.toUInt8, 1, n - 0xF0, 2, (secondBounds n).1,
      (secondBounds n).2⟩ := by
  have hn := toNat_octet (n := n) (by omega)
  rw [begin, hn]
  dsimp only
  rw [if_neg (by omega), if_neg (by omega), if_neg (by omega), if_neg (by omega), if_pos hhigh]

/-- A continuation octet is within the bounds that its lead sets. -/
theorem within_secondBounds (lead b : Nat) (hlow : 0x80 ≤ b) (hhigh : b ≤ 0xBF)
    (hlong : lead = 0xE0 → 0xA0 ≤ b) (hsurrogate : lead = 0xED → b ≤ 0x9F)
    (hlonger : lead = 0xF0 → 0x90 ≤ b) (habove : lead = 0xF4 → b ≤ 0x8F) :
    (secondBounds lead).1 ≤ b ∧ b ≤ (secondBounds lead).2 := by
  unfold secondBounds
  split
  · exact ⟨hlong ‹_›, hhigh⟩
  split
  · exact ⟨hlow, hsurrogate ‹_›⟩
  split
  · exact ⟨hlonger ‹_›, hhigh⟩
  split
  · exact ⟨hlow, habove ‹_›⟩
  · exact ⟨hlow, hhigh⟩

/-- The octet that carries the last six bits of a number. -/
def continuation (n : Nat) : UInt8 := (0x80 + n % 0x40).toUInt8

@[simp] theorem toNat_continuation (n : Nat) : (continuation n).toNat = 0x80 + n % 0x40 :=
  toNat_octet (by omega)

theorem continuation_bounds (n : Nat) :
    0x80 ≤ (continuation n).toNat ∧ (continuation n).toNat ≤ 0xBF := by
  rw [toNat_continuation]
  omega

/-- The last octet owed completes the number whose upper bits were read. -/
theorem decodeFrom_completes {c : CodePoint} {p : Pending} (howed : p.owed = 0)
    (hvalue : p.value = c.val / 0x40)
    (hwithin : p.low ≤ 0x80 + c.val % 0x40 ∧ 0x80 + c.val % 0x40 ≤ p.high) (offset : Nat)
    (done : Text) (rest : Octets) :
    decodeFrom offset (some p) done (continuation c.val :: rest)
      = decodeFrom (offset + 1) none (c :: done) rest := by
  have hsum : p.value * 0x40 + (0x80 + c.val % 0x40 - 0x80) = c.val := by omega
  rw [← toNat_continuation] at hwithin
  rw [decodeFrom_last hwithin.1 hwithin.2 howed, toNat_continuation, hsum,
    CodePoint.ext (CodePoint.val_ofNat c.isLt)]

/-- **A CODE POINT IS READ BACK WHATEVER STANDS BEHIND**, unless it is a
    surrogate. -/
theorem decodeFrom_octetsOf {c : CodePoint} (h : c.isSurrogate = false) (offset : Nat)
    (done : Text) (rest : Octets) :
    decodeFrom offset none done (octetsOf c ++ rest)
      = decodeFrom (offset + (octetsOf c).length) none (c :: done) rest := by
  have hlt := c.isLt
  have hapart : c.val < 0xD800 ∨ 0xE000 ≤ c.val := by
    simp only [CodePoint.isSurrogate, Bool.and_eq_false_iff, decide_eq_false_iff_not] at h
    omega
  unfold octetsOf
  dsimp only
  by_cases hone : c.val < 0x80
  · rw [if_pos hone, List.singleton_append, decodeFrom_single (begin_single hone),
      CodePoint.ext (CodePoint.val_ofNat hlt)]
    rfl
  rw [if_neg hone]
  by_cases htwo : c.val < 0x800
  · rw [if_pos htwo]
    show decodeFrom offset none done (_ :: continuation c.val :: rest) = _
    rw [decodeFrom_lead (begin_two (by omega) (by omega)), decodeFrom_completes rfl]
    · rfl
    · dsimp only
      omega
    · exact within_secondBounds _ _ (by omega) (by omega) (by omega) (by omega) (by omega)
        (by omega)
  rw [if_neg htwo]
  by_cases hthree : c.val < 0x10000
  · rw [if_pos hthree]
    show decodeFrom offset none done
      (_ :: continuation (c.val / 0x40) :: continuation c.val :: rest) = _
    obtain ⟨hlow, hhigh⟩ := within_secondBounds (0xE0 + c.val / 0x1000)
      (0x80 + c.val / 0x40 % 0x40) (by omega) (by omega) (by omega) (by omega) (by omega)
      (by omega)
    rw [← toNat_continuation] at hlow hhigh
    rw [decodeFrom_lead (begin_three (by omega) (by omega)),
      decodeFrom_more hlow hhigh 0 rfl, decodeFrom_completes rfl]
    · rfl
    · rw [toNat_continuation]
      dsimp only
      omega
    · dsimp only
      omega
  · rw [if_neg hthree]
    show decodeFrom offset none done (_ :: continuation (c.val / 0x1000)
      :: continuation (c.val / 0x40) :: continuation c.val :: rest) = _
    obtain ⟨hlow, hhigh⟩ := within_secondBounds (0xF0 + c.val / 0x40000)
      (0x80 + c.val / 0x1000 % 0x40) (by omega) (by omega) (by omega) (by omega)
      (by omega) (by omega)
    rw [← toNat_continuation] at hlow hhigh
    rw [decodeFrom_lead (begin_four (by omega) (by omega)),
      decodeFrom_more hlow hhigh 1 rfl,
      decodeFrom_more (by exact (continuation_bounds _).1) (by exact (continuation_bounds _).2)
        0 rfl, decodeFrom_completes rfl]
    · rfl
    · rw [toNat_continuation, toNat_continuation]
      dsimp only
      omega
    · dsimp only
      omega

/-! ## Decoding what was encoded -/

theorem decodeFrom_flatMap {t : Text} (h : t.Encodable) (offset : Nat) (done : Text) :
    decodeFrom offset none done (t.flatMap octetsOf) = .ok (done.reverse ++ t) := by
  induction t generalizing offset done with
  | nil => rw [List.flatMap_nil, decodeFrom, List.append_nil]
  | cons c t ih =>
      obtain ⟨hc, ht⟩ := List.forall_mem_cons.mp h
      rw [List.flatMap_cons, decodeFrom_octetsOf hc, ih ht, List.reverse_cons,
        List.append_assoc]
      rfl

/-- **WHAT WAS ENCODED IS DECODED TO THE SAME TEXT**. -/
theorem decode_encode {t : Text} {octets : Octets} (h : encode t = .ok octets) :
    decode octets = .ok t := by
  obtain ⟨hclean, rfl⟩ := encode_ok_iff.mp h
  exact decodeFrom_flatMap hclean 0 []

end Utf8

end FormReader
