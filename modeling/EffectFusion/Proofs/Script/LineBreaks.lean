import EffectFusion.Proofs.Script.Passes

/-!
# Line breaks between statements

A line break stays between two tokens where a statement may end there, and where the tokens would
not stay apart without it; everywhere else it goes.  What is read before the line break and behind
it is what was written there, so it is a line break of the new script and of no literal.

Signs that come behind an operand and signs that come before one are not told apart, so a
statement that ends with `++` is joined with the next one.

* `tightened_cut`              the third pass works on both sides of a token by itself;
* `lex_append_blank`           a script may be cut before white space;
* `line_breaks_of_statements`  which line breaks stay;
* `increment_joined`           one that would have to.
-/

namespace EffectFusion.Script

open Text

/-! ### Cutting a list -/

/-- what stands before a token that is no white space does not change what comes behind it -/
theorem tightened_cut {p : Token} (hp : p.isWhitespace = false) (before : Option Token)
    (us vs : List Token) : ∃ left, significant left = significant us ∧
      tightened before (us ++ p :: vs) = left ++ p :: tightened (some p) vs := by
  induction us generalizing before with
  | nil => exact ⟨[], rfl, tightened_token hp before vs⟩
  | cons t us ih =>
    cases hw : t.isWhitespace with
    | false =>
      obtain ⟨left, hsame, hcut⟩ := ih (some t)
      refine ⟨t :: left, ?_, ?_⟩
      · rw [significant_cons, significant_cons, hsame]
      · rw [List.cons_append, tightened_token hw, hcut, List.cons_append]
    | true =>
      have htrivia := isTrivia_of_isWhitespace hw
      rw [significant_cons, htrivia, if_pos rfl]
      cases before with
      | none =>
        rw [List.cons_append, tightened_start hw]
        exact ih none
      | some q =>
        obtain ⟨n, rest, hrest⟩ : ∃ n rest, us ++ p :: vs = n :: rest :=
          List.exists_cons_of_ne_nil (by simp)
        rw [List.cons_append, hrest, tightened_gap hw, ← hrest]
        cases hs : separator? q t n with
        | none => exact ih (some q)
        | some gap =>
          obtain ⟨left, hsame, hcut⟩ := ih (some gap)
          refine ⟨gap :: left, ?_, ?_⟩
          · rw [significant_cons, isTrivia_of_isWhitespace (isWhitespace_separator hw hs), if_pos rfl,
              hsame]
          · show gap :: tightened (some gap) (us ++ p :: vs) = _
            rw [hcut, List.cons_append]

theorem tightened_lineBreak {p w n : Token} (hw : w.isWhitespace = true)
    (hbreak : w.breaksLine = true) (hn : n.isWhitespace = false) (rest : List Token) :
    tightened (some p) (w :: n :: rest) =
      (if endsStatement p n = true ∨ gluesCleanly p n = false then [.lineBreak] else [])
        ++ n :: tightened (some n) rest := by
  have hseparator : separator? p w n =
      if endsStatement p n = true ∨ gluesCleanly p n = false then some .lineBreak else none := by
    simp [separator?, hbreak, collapsed, hw]
  rw [tightened_gap hw, hseparator]
  by_cases hstays : endsStatement p n = true ∨ gluesCleanly p n = false
  · rw [if_pos hstays, if_pos hstays]
    show Token.lineBreak :: tightened (some .lineBreak) (n :: rest) = _
    rw [tightened_token hn, List.singleton_append]
  · rw [if_neg hstays, if_neg hstays]
    exact tightened_token hn (some p) rest

/-! ### Cutting a text -/

theorem lex_append_blank {s : List Char} (h : CleanScript s)
    (hlast : ∀ c ∈ s.getLast?, isBlank c = false) {d : Char} (hd : isBlank d = true)
    (x : List Char) : lex (s ++ d :: x) = lex s ++ lex (d :: x) := by
  refine lex_append (fun t ht => ?_) (fun _ hx => ?_)
  · obtain ⟨ts, hts⟩ := List.getLast?_eq_some_iff.1 ht
    have hclean : Clean t := h t (by rw [hts]; simp)
    refine stands_blank hclean ?_ hd x
    by_contra hw
    have hw : t.isWhitespace = true := by simpa using hw
    -- a last token of white space would be the end of the text
    obtain ⟨u, c, hc⟩ := (List.eq_nil_or_concat t.text).resolve_left hclean.stands.text_ne_nil
    have hs : s.getLast? = some c := by
      rw [← render_lex s, hts, render_append, render_cons, render_nil, List.append_nil, hc,
        List.concat_eq_append, ← List.append_assoc, List.getLast?_concat]
    have hb := isBlank_of_whitespace hclean.stands hw c (by rw [hc]; simp)
    rw [hlast c hs] at hb
    cases hb
  · rw [Option.some.inj hx] at hd
    exact absurd hd (by decide)

theorem lex_lineBreak {left right : List Token} {p n : Token}
    (hclean : ∀ t ∈ left ++ p :: .lineBreak :: n :: right, Clean t)
    (hapart : (left ++ p :: .lineBreak :: n :: right).IsChain Apart) (hp : p.isWhitespace = false)
    (hn : n.isWhitespace = false) :
    lex (render (left ++ p :: .lineBreak :: n :: right)) =
      lex (render (left ++ [p])) ++ .lineBreak :: lex (render (n :: right)) := by
  have hsplit : left ++ p :: Token.lineBreak :: n :: right =
      (left ++ [p]) ++ Token.lineBreak :: n :: right := by simp
  rw [hsplit] at hclean hapart ⊢
  have hleft : CleanScript (render (left ++ [p])) :=
    (lex_render_clean (fun t ht => hclean t (List.mem_append_left _ ht))
      (List.isChain_append.1 hapart).1).1
  have hlast : ∀ c ∈ (render (left ++ [p])).getLast?, isBlank c = false := by
    obtain ⟨u, c, hu, hc⟩ := not_blank_last (hclean p (by simp)) hp
    intro d hd
    rw [render_append, render_cons, render_nil, List.append_nil, hu, ← List.append_assoc,
      List.getLast?_concat] at hd
    rwa [← Option.some.inj hd]
  have hbreak : Stands .lineBreak (render (n :: right)) := by
    have hstands := (hclean n (by simp)).stands
    obtain ⟨k, c, u, rfl⟩ := hstands.exists_cons
    refine (stands_whitespace_iff clean_lineBreak.stands rfl c _).2 ?_
    exact not_blank_head hstands (by simpa [Token.isWhitespace] using hn)
  have hread : lex ('\n' :: render (n :: right)) = .lineBreak :: lex (render (n :: right)) := hbreak
  rw [render_append, render_cons]
  show lex (render (left ++ [p]) ++ '\n' :: render (n :: right)) = _
  rw [lex_append_blank hleft hlast (by decide), hread]

/-! ### Which line breaks stay -/

theorem apart_tightened {s : List Char} (h : CleanScript s) :
    (tightened none (lex s)).IsChain Apart := by
  refine (spaced_tightened apart_of_gluesCleanly (spaced_apart_lex s)).imp_of_mem_imp
    (fun t u ht hu htu => ?_)
  rcases htu with hw | hw | htu
  · exact apart_whitespace_left (clean_tightened h t ht) hw u
  · exact apart_whitespace_right (clean_tightened h u hu) hw t
  · exact htu

/-- **Line breaks between statements.**  In a script without comments and with closed literals,
white space with a line break stays a line break when the token before it is a word that must not
be followed by one, or may end an operand while the token behind it may start one; it also stays
when the two would not stay apart.  Otherwise it goes.  The tokens that matter before it and behind
it are those that were there. -/
theorem line_breaks_of_statements {s : List Char} (hcomment : ∀ t ∈ lex s, t.isComment = false)
    (hclosed : ∀ t ∈ lex s, t.isLiteral = true → t.isClosed = true)
    {before after : List Token} {p w n : Token} (h : lex s = before ++ p :: w :: n :: after)
    (hw : w.isWhitespace = true) (hbreak : w.breaksLine = true) :
    ∃ left right, significant left = significant before ∧ significant right = significant after ∧
      (endsStatement p n = true ∨ gluesCleanly p n = false →
        normalizePunctuation s = render (left ++ p :: .lineBreak :: n :: right) ∧
        lex (normalizePunctuation s) =
          lex (render (left ++ [p])) ++ .lineBreak :: lex (render (n :: right))) ∧
      (endsStatement p n = false → gluesCleanly p n = true →
        normalizePunctuation s = render (left ++ p :: n :: right)) := by
  have hscript : CleanScript s := fun t ht =>
    clean_of_closed (stands_of_mem_lex ht) (hclosed t ht) (hcomment t ht)
  -- there is no white space beside white space
  have hchain := isChain_not_whitespace_lex s
  rw [h] at hchain
  have hp : p.isWhitespace = false := by
    by_contra hp
    exact List.isChain_iff_forall_rel_of_append_cons_cons.1 hchain rfl ⟨by simpa using hp, hw⟩
  have hn : n.isWhitespace = false := by
    by_contra hn
    exact List.isChain_iff_forall_rel_of_append_cons_cons.1 hchain
      (by simp : _ = (before ++ [p]) ++ w :: n :: after) ⟨hw, by simpa using hn⟩
  obtain ⟨left, hleft, hcut⟩ := tightened_cut hp none before (w :: n :: after)
  have hright : significant (tightened (some n) after) = significant after :=
    filter_tightened isSignificant_of_isTrivia (some n) after
  have htight : tightened none (lex s) = left ++ p :: tightened (some p) (w :: n :: after) := by
    rw [h, hcut]
  rw [tightened_lineBreak hw hbreak hn] at htight
  refine ⟨left, tightened (some n) after, hleft, hright, fun hstays => ?_, fun hends hglues => ?_⟩
  · rw [if_pos hstays, List.singleton_append] at htight
    have hclean := clean_tightened hscript
    have hapart := apart_tightened hscript
    rw [htight] at hclean hapart
    rw [normalizePunctuation, htight]
    exact ⟨rfl, lex_lineBreak hclean hapart hp hn⟩
  · rw [if_neg (by simp [hends, hglues]), List.nil_append] at htight
    rw [normalizePunctuation, htight]

/-- two statements, the first with a word that must not be followed by a line break -/
theorem line_breaks_of_statements_return :
    ∃ left right, significant left = [.name "if", .mark "(", .name "a", .mark ")"] ∧
      significant right = [] ∧
      lex (normalizePunctuation "if (a) return \n b".toList) =
        lex (render (left ++ [.name "return"])) ++ .lineBreak :: lex (render (.name "b" :: right)) := by
  have hcomment : ∀ t ∈ lex "if (a) return \n b".toList, t.isComment = false := by decide +kernel
  have hclosed : ∀ t ∈ lex "if (a) return \n b".toList, t.isLiteral = true → t.isClosed = true := by
    decide +kernel
  have hlex : lex "if (a) return \n b".toList =
      [.name "if", .space, .mark "(", .name "a", .mark ")", .space] ++
        .name "return" :: ⟨.whitespace, " \n ".toList⟩ :: .name "b" :: [] := by decide +kernel
  obtain ⟨left, right, hleft, hright, hstays, -⟩ :=
    line_breaks_of_statements hcomment hclosed hlex (by decide) (by decide)
  exact ⟨left, right, hleft, hright, (hstays (Or.inl (by decide))).2⟩

/-- a statement that ends with `++` and the next one -/
def increment : List Char := "a++\nb".toList

/-- The line break is all that keeps the statements apart, and it goes. -/
theorem increment_joined : lex increment = [.name "a", .mark "++", .lineBreak, .name "b"] ∧
    normalizePunctuation increment = "a++b".toList := by
  decide +kernel

end EffectFusion.Script
