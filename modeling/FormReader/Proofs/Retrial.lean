import FormReader.Proofs.Nesting
import FormReader.Proofs.Unread

/-! # Retrial — trying again behind a source that fails

    Who wants all forms of a source that fails now and then reads on behind
    every failure, until no form is left or the parentheses are wrong
    (`retry`).  A failure leaves the reader where it is but closes no list: the
    lists that were open are FORGOTTEN.  So it matters where a failure strikes.

    * In front of a form it does no harm: apart from the failures, the answers
      are those of the source without them (`retry_harmless`).
    * Inside a call the call is lost, and that is always found out
      (`retry_of_begun`).  What is left of a spelling that has begun leads up
      (`Form.depth_ending`), however often the source fails in it, and so the
      reader comes to a closing token without a partner before the call is
      over.

    `read_within` says what one reading can come to inside a spelling, and the
    inductions over the attempts rest on it. -/

namespace FormReader

namespace Reader

variable {r r' : Reader}

/-! ## Attempts -/

/-- One reading: the reader before it, the answer, the reader behind it. -/
structure Attempt where
  before : Reader
  answer : Answer
  after : Reader

/-- The attempt came to a failure of the source. -/
def Attempt.failed (a : Attempt) : Bool :=
  match a.answer with
  | .error (.source _) => true
  | _ => false

theorem Shifts.pending_le {lists lists' : List OpenList} {ws : List Token}
    (h : Shifts lists r ws lists' r') : r'.pending ≤ r.pending := by
  induction h with
  | refl => exact Nat.le_refl _
  | step looking _ hadv _ ih =>
      exact Nat.le_trans ih (Nat.le_of_lt (pending_advance looking hadv))

/-- A failure is used up where it strikes. -/
theorem pending_read_failure {e : SourceFailure}
    (h : r.read = (.error (.source e), r')) : r'.pending < r.pending := by
  obtain ⟨ws, lists, r₁, hrun, hadv⟩ := failure_of_read h
  refine Nat.lt_of_lt_of_le ?_ hrun.pending_le
  obtain ⟨hsource, hr'⟩ := failure_of_advance hadv
  rw [hr', pending, pending, hsource]
  exact Nat.lt_succ_self _

/-- Reads over and over, also behind failures of the source, until no form is
    left or an error is found in the tokens. -/
def retry (r : Reader) : List Attempt :=
  match _h : r.read with
  | (.ok (some f), r') => ⟨r, .ok (some f), r'⟩ :: r'.retry
  | (.error (.source e), r') => ⟨r, .error (.source e), r'⟩ :: r'.retry
  | (answer, r') => [⟨r, answer, r'⟩]
termination_by r.pending
decreasing_by
  · exact pending_read _h
  · exact pending_read_failure _h

theorem retry_of_form {f : Form} (h : r.read = (.ok (some f), r')) :
    r.retry = ⟨r, .ok (some f), r'⟩ :: r'.retry := by
  rw [retry]
  split
  · next f' r₁ hread =>
      obtain ⟨hanswer, rfl⟩ := Prod.mk.inj (h.symm.trans hread)
      rw [Option.some.inj (Except.ok.inj hanswer)]
  · next e r₁ hread => cases h.symm.trans hread
  · next answer r₁ hnoform _ hread =>
      obtain ⟨rfl, rfl⟩ := Prod.mk.inj (h.symm.trans hread)
      exact absurd rfl (hnoform f)

theorem retry_of_end {answer : Answer} (h : r.read = (answer, r'))
    (hform : ∀ f, answer ≠ .ok (some f))
    (hfailure : ∀ e, answer ≠ .error (.source e)) :
    r.retry = [⟨r, answer, r'⟩] := by
  rw [retry]
  split
  · next f r₁ hread =>
      obtain ⟨rfl, -⟩ := Prod.mk.inj (h.symm.trans hread)
      exact absurd rfl (hform f)
  · next e r₁ hread =>
      obtain ⟨rfl, -⟩ := Prod.mk.inj (h.symm.trans hread)
      exact absurd rfl (hfailure e)
  · next answer' r₁ _ _ hread =>
      obtain ⟨rfl, rfl⟩ := Prod.mk.inj (h.symm.trans hread)
      rfl

/-- **ATTEMPTS ONLY GO ON**: each leaves an end of the unread tokens. -/
theorem unread_of_retry {a : Attempt} (h : a ∈ r.retry) :
    a.after.unread <:+ r.unread := by
  fun_induction retry r with
  | case1 r f r' hread ih =>
      rcases List.mem_cons.mp h with rfl | htail
      · exact unread_of_read hread
      · exact (ih htail).trans (unread_of_read hread)
  | case2 r e r' hread ih =>
      rcases List.mem_cons.mp h with rfl | htail
      · exact unread_of_read hread
      · exact (ih htail).trans (unread_of_read hread)
  | case3 r answer r' hform hfailure hread =>
      rw [List.mem_singleton.mp h]
      exact unread_of_read hread

/-! ## Failures in front of a form -/

/-- **NO HARM IN FRONT OF A FORM**: if no failed attempt has used a token up,
    the others answer what the source without failures lets answer. -/
theorem retry_harmless
    (h : ∀ a ∈ r.retry, a.failed → a.after.unread = a.before.unread) :
    (r.retry.filter fun a => !a.failed).map Attempt.answer
      = r.reliable.retry.map Attempt.answer := by
  fun_induction retry r with
  | case1 r f r' hread ih =>
      obtain ⟨-, htail⟩ := List.forall_mem_cons.mp h
      rw [retry_of_form (read_reliable hread (by simp)), List.map_cons, ← ih htail]
      rfl
  | case2 r e r' hread ih =>
      obtain ⟨hsame, htail⟩ := List.forall_mem_cons.mp h
      rw [← reliable_of_read_failure hread (hsame rfl), ← ih htail]
      rfl
  | case3 r answer r' hform hfailure hread =>
      have hkept : Attempt.failed ⟨r, answer, r'⟩ = false := by
        rw [Attempt.failed]
        split
        · next e herror => exact absurd herror (hfailure e)
        · rfl
      rw [retry_of_end (read_reliable hread hfailure) hform hfailure,
        List.filter_cons, hkept]
      rfl

/-! ## Failures inside a call -/

section Within

variable {lists : List OpenList} {f : Form} {us vs ws rest : List Token}

/-- Inside a spelling the open lists end before the spelling does. -/
theorem Shifts.within (hrun : Shifts [] r ws lists r')
    (hs : Spells (us ++ vs) (Form.lexemes f)) (hvs : vs ≠ [])
    (h : r.unread = vs ++ rest) :
    ∃ t ys, vs = ws ++ t :: ys ∧ r'.unread = t :: ys ++ rest := by
  obtain ⟨ks, ls, hsplit, -, hl⟩ := hs.split
  have hls : ls ≠ [] := mt hl.eq_nil_iff.mpr hvs
  -- what is left of the spelling does not lead down, and open lists do
  have hcross : ¬ vs <+: ws := by
    intro hpre
    obtain ⟨ms, hms, hvms⟩ := hrun.spells_spent.beginning hpre
    obtain rfl := hvms.unique hl
    have hbelow := OpenList.depth_spent hms hls
    have hleft := Form.depth_left hsplit.symm hls
    omega
  rcases List.append_eq_append_iff.mp (hrun.unread.symm.trans h) with
    ⟨ys, hvs', hr'⟩ | ⟨ys, hws, -⟩
  · cases ys with
    | nil =>
        rw [List.append_nil] at hvs'
        exact absurd (hvs' ▸ List.prefix_rfl) hcross
    | cons t ys => exact ⟨t, ys, hvs', hr'⟩
  · exact absurd ⟨ys, hws.symm⟩ hcross

/-- What a reading can come to if `vs` is what is left of a spelling in front of
    it, `us` the beginning of the spelling and `rest` what stands behind. -/
inductive Within (us vs rest : List Token) : Answer → Reader → Prop where
  /-- The source fails inside. -/
  | failure {xs ys : List Token} {t : Token} {e : SourceFailure}
      {r' : Reader} :
      vs = xs ++ t :: ys → r'.unread = t :: ys ++ rest →
      Within us vs rest (.error (.source e)) r'
  /-- A form is answered.  It is the whole, or it ends inside. -/
  | form {xs ys : List Token} {t : Token} {g : Form} {r' : Reader} :
      vs = xs ++ t :: ys → r'.unread = ys ++ rest → (ys = [] ↔ us = []) →
      Within us vs rest (.ok (some g)) r'
  /-- A closing token has its partner in the beginning. -/
  | unmatched {xs ys : List Token} {t : Token} {answer : Answer}
      {r' : Reader} :
      vs = xs ++ t :: ys → r'.unread = t :: ys ++ rest → us ≠ [] →
      t.role = .closing →
      Reports answer ⟨ReadError.unmatchedMessage, some t⟩ →
      Within us vs rest answer r'

/-- **ONE READING INSIDE A SPELLING**. -/
theorem read_within {answer : Answer} (hs : Spells (us ++ vs) (Form.lexemes f))
    (hvs : vs ≠ []) (h : r.unread = vs ++ rest) (hread : r.read = (answer, r')) :
    Within us vs rest answer r' := by
  obtain ⟨ws, hend⟩ := read_ends hread
  cases hend with
  | @form lists r₁ _ g hrun hmove hadv =>
      obtain ⟨t, ys, rfl, hr₁⟩ := hrun.within hs hvs h
      have looking := lookahead_of_unread hr₁
      have hr' := unread_advance looking hadv
      rw [hr₁, List.cons_append] at hr'
      have hspent := congrArg Move.spent? hmove
      rw [move, looking] at hspent
      obtain ⟨l, hl, hone⟩ := Move.spent?_next hspent
      have hg : Spells (ws ++ [t]) (Form.lexemes g) := by
        rw [hone]
        exact hrun.spells_spent.append (spells_singleton.mpr ⟨t, rfl, hl⟩)
      refine .form rfl (List.cons.inj hr').2.symm ?_
      -- the form is not a beginning of the whole, nor is it an end
      rw [List.append_cons] at hs
      obtain ⟨ks, ms, hsplit, hk, hm⟩ := hs.split
      obtain ⟨gs, ls, rfl, hg', hl⟩ := hm.split
      obtain rfl := hg'.unique hg
      rw [hl.eq_nil_iff, hk.eq_nil_iff]
      constructor
      · rintro rfl
        rw [List.append_nil] at hsplit
        exact Form.eq_nil_of_ending hsplit.symm
      · rintro rfl
        exact Form.eq_nil_of_beginning hsplit.symm
  | failure hrun _ hadv =>
      obtain ⟨t, ys, rfl, hr₁⟩ := hrun.within hs hvs h
      exact .failure rfl ((unread_failure hadv).trans hr₁)
  | stop hrun hstop hverdict =>
      obtain ⟨t, ys, rfl, hr'⟩ := hrun.within hs hvs h
      have looking := lookahead_of_unread hr'
      obtain ⟨l, hl⟩ := hs.lexeme_of_mem (t := t) (by simp)
      rcases stop_cases hstop looking with hnone | ⟨hclosing, hnot⟩
      · cases hnone.symm.trans hl
      · have hrole := Token.lexeme?_closing.mp hclosing
        refine .unmatched rfl hr' ?_ hrole (hverdict.closing t looking hrole)
        -- a spelling that begins here can go on at a closing token
        rintro rfl
        have hone : ws ++ [t] <+: [] ++ (ws ++ t :: ys) := ⟨ys, by simp⟩
        obtain ⟨ks, hks, hspelled⟩ := hs.beginning hone
        obtain ⟨l', hl', rfl⟩ := hrun.spells_spent.of_concat hspelled
        obtain rfl := Option.some.inj (hclosing.symm.trans hl')
        exact hnot f hks

end Within

/-- The last of the attempts reports a closing token among `vs` as unmatched,
    and no attempt has gone on to `rest` behind. -/
structure EndsUnmatched (attempts : List Attempt) (vs rest : List Token) :
    Prop where
  reports : ∃ a xs t ys, attempts.getLast? = some a ∧
    Reports a.answer ⟨ReadError.unmatchedMessage, some t⟩ ∧
    t.role = .closing ∧ vs = xs ++ t :: ys ∧ a.after.unread = t :: ys ++ rest
  inside : ∀ a ∈ attempts, rest.length < a.after.unread.length

section Calls

variable {f : Form} {us vs rest : List Token}

theorem length_lt_append (hvs : vs ≠ []) (rest : List Token) :
    rest.length < (vs ++ rest).length := by
  rw [List.length_append]
  exact Nat.lt_add_of_pos_left (List.length_pos_of_ne_nil hvs)

theorem EndsUnmatched.append {later : List Attempt}
    (h : EndsUnmatched later vs rest) (attempts : List Attempt)
    (hinside : ∀ a ∈ attempts, rest.length < a.after.unread.length) :
    EndsUnmatched (attempts ++ later) vs rest where
  reports := by
    obtain ⟨b, xs, t, ys, hlast, hb⟩ := h.reports
    refine ⟨b, xs, t, ys, ?_, hb⟩
    rw [List.getLast?_append, hlast]
    rfl
  inside := List.forall_mem_append.mpr ⟨hinside, h.inside⟩

theorem EndsUnmatched.cons {a : Attempt} {attempts : List Attempt}
    {ws : List Token} (h : EndsUnmatched attempts vs rest)
    (ha : a.after.unread = ws ++ rest) (hws : ws ≠ []) :
    EndsUnmatched (a :: attempts) vs rest := by
  refine h.append [a] (List.forall_mem_singleton.mpr ?_)
  rw [ha]
  exact length_lt_append hws rest

theorem EndsUnmatched.widen {attempts : List Attempt}
    (h : EndsUnmatched attempts vs rest) (us : List Token) :
    EndsUnmatched attempts (us ++ vs) rest where
  reports := by
    obtain ⟨b, xs, t, ys, hlast, hreports, hrole, rfl, hb⟩ := h.reports
    exact ⟨b, us ++ xs, t, ys, hlast, hreports, hrole,
      (List.append_assoc ..).symm, hb⟩
  inside := h.inside

/-- **A LOSS IS FOUND OUT**: once a spelling has begun and its beginning is
    forgotten, the attempts end inside it. -/
theorem retry_of_begun (hs : Spells (us ++ vs) (Form.lexemes f)) (hus : us ≠ [])
    (hvs : vs ≠ []) (h : r.unread = vs ++ rest) :
    EndsUnmatched r.retry vs rest := by
  fun_induction retry r generalizing us vs with
  | case1 r g r' hread ih =>
      cases read_within hs hvs h hread with
      | @form xs ys t _ _ hsplit hr' hinside =>
          have hys : ys ≠ [] := mt hinside.mp hus
          rw [hsplit, List.append_cons] at hs ⊢
          rw [← List.append_assoc] at hs
          exact ((ih hs (by simp) hys hr').widen _).cons hr' hys
      | unmatched _ _ _ _ hreports => exact absurd hreports not_reports_ok
  | case2 r e r' hread ih =>
      cases read_within hs hvs h hread with
      | @failure xs ys t _ _ hsplit hr' =>
          rw [hsplit] at hs ⊢
          rw [← List.append_assoc] at hs
          exact ((ih hs (by simp [hus]) (by simp) hr').widen _).cons hr' (by simp)
      | unmatched _ _ _ _ hreports => exact absurd hreports Reports.not_source
  | case3 r answer r' hform hfailure hread =>
      cases read_within hs hvs h hread with
      | failure => exact absurd rfl (hfailure _)
      | form => exact absurd rfl (hform _)
      | @unmatched xs ys t _ _ hsplit hr' _ hrole hreports =>
          refine ⟨⟨_, xs, t, ys, rfl, hreports, hrole, hsplit, hr'⟩, ?_⟩
          intro a ha
          rw [List.mem_singleton.mp ha, hr']
          exact length_lt_append (List.cons_ne_nil t ys) rest

/-- **THROUGH OR LOST**: where a spelling begins, the attempts either get through
    it, with no failure but in front of it, or they end inside it. -/
theorem retry_spelled (hs : Spells vs (Form.lexemes f))
    (h : r.unread = vs ++ rest) :
    EndsUnmatched r.retry vs rest ∨
    ∃ (attempts : List Attempt) (r' : Reader),
      r.retry = attempts ++ r'.retry ∧ r'.unread = rest ∧
      ∀ a ∈ attempts, (a.failed → a.after.unread = vs ++ rest) ∧
        rest.length ≤ a.after.unread.length := by
  have hvs : vs ≠ [] := mt hs.eq_nil_iff.mp (Form.lexemes_ne_nil f)
  have hs' : Spells ([] ++ vs) (Form.lexemes f) := hs
  fun_induction retry r with
  | case1 r g r' hread ih =>
      cases read_within hs' hvs h hread with
      | form _ hr' hwhole =>
          rw [hwhole.mpr rfl] at hr'
          refine Or.inr ⟨[⟨r, _, r'⟩], r', rfl, hr', ?_⟩
          refine List.forall_mem_singleton.mpr ⟨?_, ?_⟩
          · intro hfailed
            cases hfailed
          · exact Nat.le_of_eq (congrArg List.length hr').symm
      | unmatched _ _ hbegun => exact absurd rfl hbegun
  | case2 r e r' hread ih =>
      cases read_within hs' hvs h hread with
      | @failure xs ys t _ _ hsplit hr' =>
          cases xs with
          | nil =>
              rw [← List.nil_append (t :: ys), ← hsplit] at hr'
              rcases ih hr' with hends | ⟨attempts, r₁, hretry, hr₁, hall⟩
              · exact Or.inl (hends.cons hr' hvs)
              · rw [hretry]
                refine Or.inr ⟨⟨r, _, r'⟩ :: attempts, r₁, rfl, hr₁, ?_⟩
                refine List.forall_mem_cons.mpr ⟨⟨fun _ => hr', ?_⟩, hall⟩
                show rest.length ≤ r'.unread.length
                rw [hr']
                exact Nat.le_of_lt (length_lt_append hvs rest)
          | cons x xs =>
              rw [hsplit] at hs ⊢
              have hends := retry_of_begun hs (List.cons_ne_nil x xs)
                (List.cons_ne_nil t ys) hr'
              exact Or.inl ((hends.widen _).cons hr' (List.cons_ne_nil t ys))
      | unmatched _ _ hbegun => exact absurd rfl hbegun
  | case3 r answer r' hform hfailure hread =>
      cases read_within hs' hvs h hread with
      | failure => exact absurd rfl (hfailure _)
      | form => exact absurd rfl (hform _)
      | unmatched _ _ hbegun => exact absurd rfl hbegun

/-- Behind forms in a row, a failure that strikes inside a form is found out,
    however often the source fails before. -/
theorem retry_of_hit {gs : List Form} {a : Attempt}
    (hus : Spells us (Form.lexemesAll gs)) (hs : Spells vs (Form.lexemes f))
    (h : r.unread = us ++ (vs ++ rest)) (ha : a ∈ r.retry) (hfailed : a.failed)
    (hbegun : a.after.unread.length < (vs ++ rest).length)
    (hinside : rest.length < a.after.unread.length) :
    EndsUnmatched r.retry vs rest := by
  induction gs generalizing r us with
  | nil =>
      obtain rfl := spells_nil.mp hus
      rcases retry_spelled hs h with hends | ⟨attempts, r', hretry, hr', hall⟩
      · exact hends
      · -- the failure strikes neither in front of the form nor behind it
        rw [hretry] at ha
        rcases List.mem_append.mp ha with hbefore | hlater
        · rw [(hall a hbefore).1 hfailed] at hbegun
          exact absurd hbegun (Nat.lt_irrefl _)
        · have hle := (unread_of_retry hlater).length_le
          rw [hr'] at hle
          exact absurd hinside (Nat.not_lt_of_le hle)
  | cons g gs ih =>
      obtain ⟨ugs, us, rfl, hug, hus⟩ := spells_append.mp hus
      have hlonger : (vs ++ rest).length ≤ (us ++ (vs ++ rest)).length :=
        (List.suffix_append us _).length_le
      rw [List.append_assoc] at h
      rcases retry_spelled hug h with hends | ⟨attempts, r', hretry, hr', hall⟩
      · have hlt := hends.inside a ha
        exact absurd (Nat.lt_of_lt_of_le hbegun hlonger) (Nat.lt_asymm hlt)
      · rw [hretry] at ha ⊢
        rcases List.mem_append.mp ha with hbefore | hlater
        · have hlt := length_lt_append (mt hug.eq_nil_iff.mp g.lexemes_ne_nil)
            (us ++ (vs ++ rest))
          rw [(hall a hbefore).1 hfailed] at hbegun
          exact absurd (Nat.lt_of_lt_of_le hbegun hlonger) (Nat.lt_asymm hlt)
        · refine (ih hus hr' hlater).append attempts fun b hb => ?_
          refine Nat.lt_of_lt_of_le ?_ (Nat.le_trans hlonger (hall b hb).2)
          exact length_lt_append (mt hs.eq_nil_iff.mp f.lexemes_ne_nil) rest

end Calls

/-! ## Failures strewn in anywhere -/

/-- A source that begins as tokens do lets its first token be looked at. -/
theorem exists_ofSource {source : Source} {ts : List Token}
    (first : source.head? = (Source.ofTokens ts).head?) (mode : Mode) :
    ∃ r, ofSource source mode = (.ok (), r) := by
  rcases hadv : ofSource source mode with ⟨e | ⟨⟩, r⟩
  · have hsource : source = .failure e.message :: r.source :=
      (failure_of_advance hadv).1
    rw [hsource] at first
    cases ts with
    | nil => cases first
    | cons t ts => cases first
  · exact ⟨r, rfl⟩

/-- **TRYING AGAIN**, over tokens `ts` with failures strewn in anywhere behind
    the first: if no failure strikes behind the first token of what is being
    read, the other answers are those over the tokens alone.  If the tokens
    spell forms in a row and a failure strikes inside one, with `vs'` of it
    still in front of the reader, the attempts end at a closing token of that
    form, which is reported as unmatched. -/
theorem retry_failures {source : Source} {ts : List Token}
    (tokens : source.reliable = .ofTokens ts)
    (first : source.head? = (Source.ofTokens ts).head?) (mode : Mode) :
    ∃ r r₀ : Reader, ofSource source mode = (.ok (), r) ∧
      ofSource (.ofTokens ts) mode = (.ok (), r₀) ∧
      ((∀ a ∈ r.retry, a.failed → a.after.unread = a.before.unread) →
        (r.retry.filter fun a => !a.failed).map Attempt.answer
          = r₀.retry.map Attempt.answer) ∧
      ∀ gs f hs us vs vs' ws, ts = us ++ (vs ++ vs') ++ ws →
        Spells us (Form.lexemesAll gs) → Spells (vs ++ vs') (Form.lexemes f) →
        Spells ws (Form.lexemesAll hs) → vs ≠ [] → vs' ≠ [] →
        (∃ a ∈ r.retry, a.failed ∧ a.after.unread = vs' ++ ws) →
        EndsUnmatched r.retry (vs ++ vs') ws := by
  obtain ⟨r, hr⟩ := exists_ofSource first mode
  have hr₀ : ofSource (.ofTokens ts) mode = (.ok (), r.reliable) := by
    rw [← tokens]
    exact advance_reliable hr
  refine ⟨r, r.reliable, hr, hr₀, retry_harmless, ?_⟩
  rintro gs f hs us vs vs' ws rfl hus hvs hws hbegun hleft
    ⟨a, ha, hfailed, hunread⟩
  obtain ⟨r₁, hr₁, -, -, hstream⟩ := ofSource_ofTokens _ mode
  obtain rfl := (Prod.mk.inj (hr₀.symm.trans hr₁)).2
  rw [((hus.append hvs).append hws).takeWhile, List.append_assoc] at hstream
  refine retry_of_hit hus hvs hstream ha hfailed ?_ ?_
  · rw [hunread, List.append_assoc]
    exact length_lt_append hbegun (vs' ++ ws)
  · rw [hunread]
    exact length_lt_append hleft ws

/-- Of `a (f) b`, failures behind the name and behind the parenthesis do no
    harm; one behind the operator loses the call, and its closing parenthesis
    is reported. -/
theorem retry_failures_lost_call :
    let a : Token := .make (.of "IDENT") (.of "a") 1 1
    let opening : Token := .make (.of "LPAREN") [] 1 3
    let f : Token := .make (.of "IDENT") (.of "f") 1 4
    let closing : Token := .make (.of "RPAREN") [] 1 5
    let b : Token := .make (.of "IDENT") (.of "b") 1 7
    let lost : Item := .failure (.of "connection lost")
    let outside : Source := [.token a, lost, lost, .token opening, lost,
      .token f, .token closing, .token b]
    let inside : Source := [.token a, .token opening, .token f, lost,
      .token closing, .token b]
    (∃ r, ofSource outside .lenient = (.ok (), r) ∧
      (r.retry.filter fun a => !a.failed).map Attempt.answer =
        [.ok (some (Form.identifier (.of "a"))),
          .ok (some (.call (Form.identifier (.of "f")) [])),
          .ok (some (Form.identifier (.of "b"))), .ok none]) ∧
    ∃ r, ofSource inside .strict = (.ok (), r) ∧
      EndsUnmatched r.retry [opening, f, closing] [b] := by
  intro a opening f closing b lost outside inside
  constructor
  · obtain ⟨r, r₀, hr, hr₀, hharmless, -⟩ := @retry_failures outside
      [a, opening, f, closing, b] rfl rfl .lenient
    refine ⟨r, hr, ?_⟩
    cases hr
    cases hr₀
    rw [hharmless (by decide +kernel)]
    decide +kernel
  · obtain ⟨r, r₀, hr, -, -, hlost⟩ := @retry_failures inside
      [a, opening, f, closing, b] rfl rfl .strict
    refine ⟨r, hr, ?_⟩
    cases hr
    exact hlost [Form.identifier (.of "a")]
      (.call (Form.identifier (.of "f")) []) [Form.identifier (.of "b")]
      [a] [opening] [f, closing] [b] rfl (by decide) (by decide) (by decide)
      (by decide) (by decide) (by decide +kernel)

end Reader

end FormReader
