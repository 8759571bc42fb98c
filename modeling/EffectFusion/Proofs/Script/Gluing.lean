import EffectFusion.Proofs.Script.Neighbours

/-!
# Reading back what was printed

A list of tokens is read back from its text when each of them is read on its own and each stands
before its right neighbour (`Fits`).  Points are the exception again: a point stands before a
point, but three of them are read as one operator.

White space fits wherever nothing but a line comment or what is not closed stands before it, and
one character of it fits where a run of it did.

* `lex_append`               a text is read in two parts when its first part ends with a token;
* `lex_cut`                  at any other cut one token is cut in two;
* `lex_render_of_fits`       neighbours that fit are read back;
* `fits_of_separable`        white space fits between tokens that bear it;
* `stands_collapsed_right`   one character keeps what a run of white space keeps apart.
-/

namespace EffectFusion.Script

open Text

/-! ### Tokens that matter -/

/-- neither white space nor comment -/
def Token.isSignificant (t : Token) : Bool := !t.isTrivia

def significant (ts : List Token) : List Token := ts.filter Token.isSignificant

theorem significant_nil : significant [] = [] := rfl

theorem significant_cons (t : Token) (ts : List Token) :
    significant (t :: ts) = if t.isTrivia = true then significant ts else t :: significant ts := by
  cases h : t.isTrivia <;> simp [significant, Token.isSignificant, h]

theorem significant_append (ts us : List Token) :
    significant (ts ++ us) = significant ts ++ significant us := List.filter_append ..

theorem significant_dropWhile (ts : List Token) :
    significant (ts.dropWhile Token.isTrivia) = significant ts := by
  induction ts with
  | nil => rfl
  | cons t ts ih =>
    rw [List.dropWhile_cons]
    split
    · rename_i ht
      rw [ih, significant_cons, if_pos ht]
    · rfl

theorem isSignificant_of_isTrivia (t : Token) (h : t.isTrivia = true) : t.isSignificant = false := by
  simp [Token.isSignificant, h]

theorem isWhitespace_of_not_trivia {t : Token} (h : t.isTrivia = false) : t.isWhitespace = false := by
  simp only [Token.isTrivia, Bool.or_eq_false_iff] at h
  exact h.1

theorem isComment_of_not_trivia {t : Token} (h : t.isTrivia = false) : t.isComment = false := by
  simp only [Token.isTrivia, Bool.or_eq_false_iff] at h
  exact h.2

theorem isComment_of_isWhitespace {t : Token} (h : t.isWhitespace = true) : t.isComment = false := by
  simp only [Token.isWhitespace, decide_eq_true_eq] at h
  simp [Token.isComment, h]

theorem isTrivia_eq_isWhitespace {t : Token} (h : t.isComment = false) :
    t.isTrivia = t.isWhitespace := by
  simp [Token.isTrivia, h]

theorem mem_significant {t : Token} {ts : List Token} :
    t ∈ significant ts ↔ t ∈ ts ∧ t.isTrivia = false := by
  simp [significant, Token.isSignificant]

/-! ### Blank texts -/

theorem lex_of_blank {c : Char} (h : isBlank c = true) (s : List Char) :
    lex (c :: s) = ⟨.whitespace, c :: s.takeWhile isBlank⟩ :: lex (s.dropWhile isBlank) := by
  have hfirst : firstSpan c s = (.whitespace, spanWhile isBlank s) := by
    unfold firstSpan
    rw [if_pos h]
  rw [lex_cons, firstToken, hfirst]
  rfl

/-- white space at the start of a text adds nothing but white space -/
theorem filter_lex_blanks {p : Token → Bool} (hp : ∀ t : Token, t.isWhitespace = true → p t = false)
    {u : List Char} (h : ∀ c ∈ u, isBlank c = true) (s : List Char) :
    (lex (u ++ s)).filter p = (lex s).filter p := by
  induction u with
  | nil => rfl
  | cons c u ih =>
    have ih := ih (fun d hd => h d (List.mem_cons_of_mem c hd))
    have hdrop : ∀ x, (lex (x.dropWhile isBlank)).filter p = (lex x).filter p := by
      intro x
      cases x with
      | nil => rfl
      | cons d x =>
        cases hd : isBlank d with
        | true =>
          rw [lex_of_blank hd, List.dropWhile_cons_of_pos hd, List.filter_cons, hp _ rfl,
            if_neg Bool.false_ne_true]
        | false => rw [List.dropWhile_cons, hd, if_neg Bool.false_ne_true]
    rw [List.cons_append, lex_of_blank (h c List.mem_cons_self), List.filter_cons, hp _ rfl,
      if_neg Bool.false_ne_true, hdrop, ih]

theorem significant_lex_blanks {u : List Char} (h : ∀ c ∈ u, isBlank c = true) (s : List Char) :
    significant (lex (u ++ s)) = significant (lex s) :=
  filter_lex_blanks (fun t ht => isSignificant_of_isTrivia t (isTrivia_of_isWhitespace ht)) h s

theorem significant_lex_blank {c : Char} (h : isBlank c = true) (s : List Char) :
    significant (lex (c :: s)) = significant (lex s) :=
  significant_lex_blanks (u := [c]) (by simpa using h) s

/-! ### Two parts of a text -/

/-- a token before other tokens of a text stands before what follows the text as well, unless three
points come together -/
theorem stands_append {t u : Token} {us : List Token} {x : List Char}
    (hlex : lex (render (u :: us)) = u :: us) (h : Stands t (render (u :: us)))
    (hpoint : (u :: us).getLast? = some ⟨.punctuation, ['.']⟩ → x.head? ≠ some '.') :
    Stands t (render (u :: us) ++ x) := by
  have hne : render (u :: us) ≠ [] := by
    rw [render_cons]
    exact List.append_ne_nil_of_left_ne_nil (stands_of_lex hlex).1.text_ne_nil _
  by_cases hdots : t.text = ['.'] ∧ render (u :: us) = ['.']
  · -- the second point is the last token, and no third one follows
    obtain ⟨ht, hr⟩ := hdots
    have hu : u :: us = [⟨.punctuation, ['.']⟩] := by
      rw [← hlex, hr]
      decide +kernel
    rw [hu] at hpoint
    obtain ⟨k, text⟩ := t
    obtain rfl : text = ['.'] := ht
    obtain rfl := kind_of_stands_point h.alone
    rw [hr]
    exact (stands_point_iff x).2 (hpoint rfl)
  · exact h.extend hne hdots x

/-- if the last token of `s` stands before what follows, the two parts are read one by one; only
points on both sides of the cut could become one operator -/
theorem lex_append {s x : List Char} (h : ∀ t ∈ (lex s).getLast?, Stands t x)
    (hdots : (lex s).getLast? = some ⟨.punctuation, ['.']⟩ → x.head? ≠ some '.') :
    lex (s ++ x) = lex s ++ lex x := by
  refine lex_induction (motive := fun s ts => (∀ t ∈ ts.getLast?, Stands t x) →
    (ts.getLast? = some ⟨.punctuation, ['.']⟩ → x.head? ≠ some '.') → lex (s ++ x) = ts ++ lex x)
    (fun _ _ => rfl) (fun t ts hstands hrest ih hlast hpoint => ?_) s h hdots
  cases ts with
  | nil =>
    have ht : Stands t x := hlast t rfl
    rw [render_nil, List.append_nil]
    exact ht
  | cons u us =>
    rw [List.getLast?_cons_cons] at hlast hpoint
    rw [List.append_assoc, stands_append hrest hstands hpoint, ih hlast hpoint]
    rfl

/-- a text is read in two parts, or the cut goes through a token, whose start is read anew -/
theorem lex_cut (s w : List Char) :
    lex (s ++ w) = lex s ++ lex w ∨
      ∃ us t u v r, lex (s ++ w) = us ++ t :: lex r ∧ lex s = us ++ lex u ∧ Stands t r ∧
        t.text = u ++ v ∧ v ≠ [] ∧ w = v ++ r := by
  refine lex_induction (motive := fun c ts => ∀ s, c = s ++ w → ts = lex s ++ lex w ∨
      ∃ us t u v r, ts = us ++ t :: lex r ∧ lex s = us ++ lex u ∧ Stands t r ∧
        t.text = u ++ v ∧ v ≠ [] ∧ w = v ++ r) ?_ (fun t ts hstands hrest ih s htext => ?_) (s ++ w) s rfl
  · intro s hs
    obtain ⟨rfl, rfl⟩ := List.append_eq_nil_iff.1 hs.symm
    rw [lex_nil]
    exact Or.inl rfl
  · -- the token lies before the cut
    have hbefore : ∀ r, s = t.text ++ r → render ts = r ++ w → t :: ts = lex s ++ lex w ∨
        ∃ us t' u v r, t :: ts = us ++ t' :: lex r ∧ lex s = us ++ lex u ∧ Stands t' r ∧
          t'.text = u ++ v ∧ v ≠ [] ∧ w = v ++ r := by
      intro r hsr hr
      rw [hr] at hstands
      have hone : lex s = t :: lex r := by
        rw [hsr]
        exact hstands.shorten
      rcases ih r hr with h | ⟨us, t', u, v, r', h, hlex, hcut⟩
      · exact Or.inl (by rw [hone, h, List.cons_append])
      · exact Or.inr ⟨t :: us, t', u, v, r', by rw [h, List.cons_append],
          by rw [hone, hlex, List.cons_append], hcut⟩
    rcases List.append_eq_append_iff.1 htext with ⟨r, hsr, hr⟩ | ⟨v, hv, hwv⟩
    · exact hbefore r hsr hr
    · by_cases hne : v = []
      · rw [hne, List.append_nil] at hv
        rw [hne, List.nil_append] at hwv
        exact hbefore [] (by rw [List.append_nil, hv]) hwv.symm
      · exact Or.inr ⟨[], t, s, v, render ts, by rw [hrest]; rfl, rfl, hstands, hv, hne, hwv⟩

/-! ### Neighbours that fit -/

def NoPoints (t u : Token) : Prop := ¬ (t.text = ['.'] ∧ u.text = ['.'])

/-- the first stands before the second, and they are not both points -/
def Fits (t u : Token) : Prop := Stands t u.text ∧ NoPoints t u

theorem stands_of_fits {t u : Token} (h : Fits t u) (hu : u.text ≠ []) (rest : List Char) :
    Stands t (u.text ++ rest) :=
  h.1.extend hu h.2 rest

theorem lex_render_of_fits {ts : List Token} (h : ∀ t ∈ ts, Stands t []) (hc : ts.IsChain Fits) :
    lex (render ts) = ts := by
  induction ts with
  | nil => rw [render_nil, lex_nil]
  | cons t ts ih =>
    have ih := ih (fun u hu => h u (List.mem_cons_of_mem t hu)) hc.tail
    have ht : Stands t (render ts) := by
      cases ts with
      | nil => exact h t List.mem_cons_self
      | cons u us =>
        have hu := (h u (by simp)).text_ne_nil
        rw [render_cons]
        exact stands_of_fits (List.isChain_cons_cons.1 hc).1 hu _
    rw [render_cons, ht, ih]

/-! ### White space fits -/

theorem noPoints_of_whitespace {t w : Token} (h : Stands w []) (hw : w.isWhitespace = true) :
    NoPoints t w ∧ NoPoints w t := by
  obtain ⟨c, u, hc, hb⟩ := isBlank_head h hw
  have hne : w.text ≠ ['.'] := by
    intro he
    rw [hc] at he
    rw [(List.cons.inj he).1] at hb
    exact absurd hb (by decide)
  exact ⟨fun hp => hne hp.2, fun hp => hne hp.1⟩

theorem fits_space_left {t w : Token} (ht : Stands t []) (htw : t.isWhitespace = false)
    (h : Stands w []) (hw : w.isWhitespace = true) : Fits w t := by
  refine ⟨?_, (noPoints_of_whitespace h hw).2⟩
  obtain ⟨k, d, v, rfl⟩ := ht.exists_cons
  have hd := not_blank_head ht (by simpa [Token.isWhitespace] using htw)
  exact (stands_whitespace_iff h hw d v).2 hd

/-- white space may stand between the two and is not there in two pieces -/
structure Separable (t u : Token) : Prop where
  closed : t.isClosed = true
  line : t.kind = .lineComment → u.text.head? = some '\n'
  white : ¬ (t.isWhitespace = true ∧ u.isWhitespace = true)

theorem separable_of_clean {t u : Token} (h : Clean t)
    (hnot : ¬ (t.isWhitespace = true ∧ u.isWhitespace = true)) : Separable t u := by
  refine ⟨h.closed, fun hk => ?_, hnot⟩
  have hcomment := h.noComment
  simp [Token.isComment, hk] at hcomment

theorem fits_of_separable {t u : Token} (h : Separable t u) (ht : Stands t []) (hu : Stands u [])
    (hw : t.isWhitespace = true ∨ u.isWhitespace = true) : Fits t u := by
  cases htw : t.isWhitespace with
  | true =>
    have huw : u.isWhitespace = false := by
      by_contra huw
      exact h.white ⟨htw, by simpa using huw⟩
    exact fits_space_left hu huw ht htw
  | false =>
    have huw : u.isWhitespace = true := hw.resolve_left (by simp [htw])
    refine ⟨?_, (noPoints_of_whitespace hu huw).1⟩
    obtain ⟨c, v, hc, hb⟩ := isBlank_head hu huw
    rw [hc]
    refine (stands_blank_iff ht htw hb v).2 ⟨fun hk => ?_, h.closed⟩
    have hline := h.line hk
    rw [hc] at hline
    exact Option.some.inj hline

/-- between clean tokens only pieces of white space do not fit -/
theorem fits_iff_of_whitespace {t u : Token} (ht : Clean t) (hu : Clean u)
    (h : t.isWhitespace = true ∨ u.isWhitespace = true) :
    Fits t u ↔ ¬ (t.isWhitespace = true ∧ u.isWhitespace = true) := by
  constructor
  · rintro hfits ⟨htw, huw⟩
    exact not_stands_whitespace htw hu.stands huw hfits.1
  · exact fun hnot => fits_of_separable (separable_of_clean ht hnot) ht.stands hu.stands h

/-! ### One character for a run of white space -/

theorem stands_of_whitespace {v w : Token} {x : List Char} (h : Stands w x)
    (hw : w.isWhitespace = true) (hs : Stands v []) (hv : v.isWhitespace = true) : Stands v x := by
  cases x with
  | nil => exact hs
  | cons d z => exact (stands_whitespace_iff hs hv d z).2 ((stands_whitespace_iff h.alone hw d z).1 h)

theorem stands_collapsed_left {w : Token} {x : List Char} (h : Stands w x) :
    Stands (collapsed w) x := by
  cases hw : w.isWhitespace with
  | false => rwa [collapsed_of_not_whitespace hw]
  | true =>
    have hs : Stands (collapsed w) [] := by
      unfold collapsed
      rw [if_pos hw]
      split
      · exact clean_lineBreak.stands
      · exact clean_space.stands
    exact stands_of_whitespace h hw hs (by rw [isWhitespace_collapsed, hw])

theorem stands_collapsed_right {t w : Token} (h : Stands t w.text) (hs : Stands w []) :
    Stands t (collapsed w).text := by
  cases hw : w.isWhitespace with
  | false => rwa [collapsed_of_not_whitespace hw]
  | true =>
    have htw : t.isWhitespace = false := by
      by_contra htw
      exact not_stands_whitespace (by simpa using htw) hs hw h
    obtain ⟨c, u, hc, hb⟩ := isBlank_head hs hw
    have ht := h.alone
    have h := (stands_blank_iff ht htw hb u).1 (hc ▸ h)
    -- a line comment ends before a line break, which is what is left then
    have hleft : ∃ d, (collapsed w).text = [d] ∧ isBlank d = true ∧
        (t.kind = .lineComment → d = '\n') := by
      unfold collapsed
      rw [if_pos hw]
      split
      · exact ⟨'\n', rfl, by decide, fun _ => rfl⟩
      · rename_i hbreak
        refine ⟨' ', rfl, by decide, fun hk => absurd ?_ hbreak⟩
        simp [Token.breaksLine, hc, h.1 hk]
    obtain ⟨d, hd, hdb, hdn⟩ := hleft
    rw [hd]
    exact (stands_blank_iff ht htw hdb []).2 ⟨hdn, h.2⟩

end EffectFusion.Script
