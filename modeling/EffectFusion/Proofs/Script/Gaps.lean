import EffectFusion.Proofs.Script.Pieces

/-!
# Between two tokens

Without its comments a script has the tokens that it had, and between two of them there is white
space if anything was there, and a line break if a line ended there.  Comments and white space may
stand between two tokens in any order and number; what is printed for a run of them hangs on
whether white space has been printed already and on what comes next, so a run is followed from its
first piece to its last (`withoutComments_gap`).

* `lex_stripComments`          the tokens that are read once the comments are gone;
* `gap_stripComments`          one place between two tokens before and after;
* `stripComments_keeps_gaps`   all of them.
-/

namespace EffectFusion.Script

/-! ### Places between tokens -/

/-- the trivia between token number `k` of those that matter and the next one -/
def gapAfter : Nat → List Token → List Token
  | _, [] => []
  | 0, t :: ts => if t.isTrivia then gapAfter 0 ts else ts.takeWhile Token.isTrivia
  | k + 1, t :: ts => gapAfter (if t.isTrivia then k + 1 else k) ts

theorem gapAfter_trivia {t : Token} (h : t.isTrivia = true) (k : Nat) (ts : List Token) :
    gapAfter k (t :: ts) = gapAfter k ts := by
  cases k <;> rw [gapAfter, if_pos h]

theorem gapAfter_zero {t : Token} (h : t.isTrivia = false) (ts : List Token) :
    gapAfter 0 (t :: ts) = ts.takeWhile Token.isTrivia := by
  rw [gapAfter, h, if_neg Bool.false_ne_true]

theorem gapAfter_succ {t : Token} (h : t.isTrivia = false) (k : Nat) (ts : List Token) :
    gapAfter (k + 1) (t :: ts) = gapAfter k ts := by
  rw [gapAfter, h, if_neg Bool.false_ne_true]

theorem gapAfter_append {a b : Token} (ha : a.isTrivia = false) (hb : b.isTrivia = false)
    {g : List Token} (hg : ∀ t ∈ g, t.isTrivia = true) (us vs : List Token) :
    gapAfter (significant us).length (us ++ a :: (g ++ b :: vs)) = g := by
  induction us with
  | nil =>
    rw [List.nil_append, significant_nil, List.length_nil, gapAfter_zero ha,
      List.takeWhile_append_of_pos hg, List.takeWhile_cons_of_neg (by simp [hb]), List.append_nil]
  | cons u us ih =>
    rw [significant_cons, List.cons_append]
    cases hu : u.isTrivia with
    | true => rw [if_pos rfl, gapAfter_trivia hu, ih]
    | false => rw [if_neg Bool.false_ne_true, List.length_cons, gapAfter_succ hu, ih]

theorem exists_gap {k : Nat} {ts : List Token} (h : k + 1 < (significant ts).length) :
    ∃ us a g b vs, ts = us ++ a :: (g ++ b :: vs) ∧ (significant us).length = k ∧
      a.isTrivia = false ∧ b.isTrivia = false ∧ ∀ t ∈ g, t.isTrivia = true := by
  induction ts generalizing k with
  | nil => cases h
  | cons t ts ih =>
    rw [significant_cons] at h
    cases ht : t.isTrivia with
    | true =>
      rw [ht, if_pos rfl] at h
      obtain ⟨us, a, g, b, vs, rfl, hk, hrest⟩ := ih h
      refine ⟨t :: us, a, g, b, vs, rfl, ?_, hrest⟩
      rw [significant_cons, ht, if_pos rfl, hk]
    | false =>
      rw [ht, if_neg Bool.false_ne_true, List.length_cons] at h
      cases k with
      | zero =>
        -- the next token that matters is where the run of trivia stops
        cases hd : ts.dropWhile Token.isTrivia with
        | nil =>
          rw [← significant_dropWhile, hd, significant_nil] at h
          cases Nat.lt_of_succ_lt_succ h
        | cons b vs =>
          have hb : b.isTrivia = false := by
            have hhead := List.head?_dropWhile_not Token.isTrivia ts
            rw [hd] at hhead
            exact hhead
          refine ⟨[], t, ts.takeWhile Token.isTrivia, b, vs, ?_, rfl, ht, hb, ?_⟩
          · rw [← hd, List.takeWhile_append_dropWhile, List.nil_append]
          · exact List.all_eq_true.1 List.all_takeWhile
      | succ k =>
        obtain ⟨us, a, g, b, vs, rfl, hk, hrest⟩ := ih (Nat.lt_of_succ_lt_succ h)
        refine ⟨t :: us, a, g, b, vs, rfl, ?_, hrest⟩
        rw [significant_cons, ht, if_neg Bool.false_ne_true, List.length_cons, hk]

/-! ### One run of trivia -/

/-- white space or a block comment in which a line ends -/
def Token.endsLine (t : Token) : Bool := (t.isWhitespace || t.kind = .blockComment) && t.breaksLine

theorem endsLine_of_whitespace {t : Token} (h : t.isWhitespace = true) :
    t.endsLine = t.breaksLine := by
  rw [Token.endsLine, h, Bool.true_or, Bool.true_and]

theorem endsLine_of_comment {t : Token} (h : t.isComment = true) :
    t.endsLine = true ↔ t.kind = .blockComment ∧ t.breaksLine = true := by
  have hw : t.isWhitespace = false := by
    by_contra hw
    rw [isComment_of_isWhitespace (by simpa using hw)] at h
    cases h
  simp [Token.endsLine, hw]

/-- `g'` is printed for the run of trivia `g`, behind white space or not -/
structure Reprinted (behind : Bool) (g g' : List Token) : Prop where
  white : ∀ w ∈ g', w.isWhitespace = true
  empty : behind = false → (g' = [] ↔ g = [])
  breaks : g'.any Token.breaksLine = g.any Token.endsLine

theorem reprinted_nil (b : Bool) : Reprinted b [] [] := ⟨List.forall_mem_nil _, fun _ => Iff.rfl, rfl⟩

section Reprinted

variable {b : Bool} {t w : Token} {g g' : List Token}

/-- a piece of white space before what the rest of the run becomes -/
theorem Reprinted.piece (h : Reprinted true g g') (hw : w.isWhitespace = true)
    (hbreak : w.breaksLine = t.endsLine) : Reprinted b (t :: g) (w :: g') where
  white := List.forall_mem_cons.2 ⟨hw, h.white⟩
  empty := fun _ => by simp
  breaks := by rw [List.any_cons, List.any_cons, hbreak, h.breaks]

/-- a comment for which nothing is printed, as white space comes next if none came before -/
theorem Reprinted.dropped (h : Reprinted b g g') (hends : t.endsLine = false)
    (hne : b = false → g ≠ []) : Reprinted b (t :: g) g' where
  white := h.white
  empty := fun hb => iff_of_false (fun he => hne hb ((h.empty hb).1 he)) (List.cons_ne_nil t g)
  breaks := by rw [List.any_cons, hends, h.breaks, Bool.false_or]

end Reprinted

/-- what is printed for the trivia before the token `a`; `b` says whether it is printed behind white
space -/
theorem withoutComments_gap {a : Token} (ha : a.isTrivia = false) (rest : List Token)
    {g : List Token} (hg : ∀ t ∈ g, t.isTrivia = true) (b : Bool) :
    ∃ g', withoutComments b (g ++ a :: rest) = g' ++ a :: withoutComments false rest ∧
      Reprinted b g g' := by
  have haw := isWhitespace_of_not_trivia ha
  induction g generalizing b with
  | nil =>
    refine ⟨[], ?_, reprinted_nil b⟩
    rw [List.nil_append, withoutComments_token (isComment_of_not_trivia ha), haw, List.nil_append]
  | cons t g ih =>
    have ih := ih (fun u hu => hg u (List.mem_cons_of_mem t hu))
    rw [List.cons_append]
    cases hc : t.isComment with
    | false =>
      have hw : t.isWhitespace = true := by
        rw [← isTrivia_eq_isWhitespace hc]
        exact hg t List.mem_cons_self
      obtain ⟨g', he, hgap⟩ := ih true
      refine ⟨t :: g', ?_, hgap.piece hw (endsLine_of_whitespace hw).symm⟩
      rw [withoutComments_token hc, hw, he, List.cons_append]
    | true =>
      rcases withoutComments_comment hc b (g ++ a :: rest) with
        ⟨w, hw, hbreak, hprint⟩ | ⟨hbreak, hblank, hprint⟩
      · obtain ⟨g', he, hgap⟩ := ih true
        refine ⟨w :: g', by rw [hprint, he, List.cons_append], ?_⟩
        exact hgap.piece (isWhitespace_of_single hw)
          (Bool.eq_iff_iff.2 (hbreak.trans (endsLine_of_comment hc).symm))
      · obtain ⟨g', he, hgap⟩ := ih b
        refine ⟨g', by rw [hprint, he], hgap.dropped ?_ (fun hb => ?_)⟩
        · exact Bool.eq_false_iff.2 (fun he => hbreak ((endsLine_of_comment hc).1 he))
        · rintro rfl
          have hnext : a.isWhitespace = true := hblank.resolve_left (by simp [hb])
          rw [haw] at hnext
          cases hnext

/-- what stands before a token that matters does not change what comes behind it -/
theorem withoutComments_cut {a : Token} (ha : a.isTrivia = false) (b : Bool) (us vs : List Token) :
    ∃ left, significant left = significant us ∧
      withoutComments b (us ++ a :: vs) = left ++ a :: withoutComments false vs := by
  induction us generalizing b with
  | nil =>
    refine ⟨[], rfl, ?_⟩
    rw [List.nil_append, withoutComments_token (isComment_of_not_trivia ha),
      isWhitespace_of_not_trivia ha, List.nil_append]
  | cons t us ih =>
    rw [List.cons_append]
    cases hc : t.isComment with
    | false =>
      obtain ⟨left, hleft, hcut⟩ := ih t.isWhitespace
      refine ⟨t :: left, ?_, by rw [withoutComments_token hc, hcut, List.cons_append]⟩
      rw [significant_cons, significant_cons, hleft]
    | true =>
      rw [significant_cons t, if_pos (isTrivia_of_isComment hc)]
      rcases withoutComments_comment hc b (us ++ a :: vs) with ⟨w, hw, -, he⟩ | ⟨-, -, he⟩
      · obtain ⟨left, hleft, hcut⟩ := ih true
        refine ⟨w :: left, ?_, by rw [he, hcut, List.cons_append]⟩
        rw [significant_cons, if_pos (isTrivia_of_isWhitespace (isWhitespace_of_single hw)), hleft]
      · obtain ⟨left, hleft, hcut⟩ := ih b
        exact ⟨left, hleft, by rw [he, hcut]⟩

/-! ### The script without comments -/

theorem lex_stripComments (s : List Char) :
    lex (stripComments s) = merged (withoutComments true (lex s)) :=
  lex_render_of_legible (legible_withoutComments (legible_lex s) true)

theorem not_comment_stripComments (s : List Char) :
    ∀ t ∈ lex (stripComments s), t.isComment = false := by
  intro t ht
  rw [lex_stripComments] at ht
  rcases mem_merged ht with ht | hw
  · rcases mem_withoutComments ht with ⟨-, hc⟩ | rfl | rfl
    · exact hc
    · rfl
    · rfl
  · exact isComment_of_isWhitespace hw

theorem significant_lex_stripComments (s : List Char) :
    significant (lex (stripComments s)) = significant (lex s) := by
  rw [lex_stripComments, significant, filter_merged isSignificant_of_isTrivia,
    filter_withoutComments isSignificant_of_isTrivia, significant]

theorem any_breaksLine (g : List Token) :
    (render g).contains '\n' = g.any Token.breaksLine := by
  induction g with
  | nil => rfl
  | cons t g ih => rw [render_cons, List.contains_append, ih, List.any_cons, Token.breaksLine]

theorem any_breaksLine_merged {g : List Token} (h : ∀ w ∈ g, w.isWhitespace = true) :
    (merged g).any Token.breaksLine = g.any Token.breaksLine := by
  by_cases hne : g = []
  · rw [hne, merged_nil]
  · rw [merged_of_whitespace h hne, ← any_breaksLine, ← any_breaksLine, render_cons, render_nil,
      List.append_nil]

theorem gap_stripComments {s : List Char} {us g vs : List Token} {a b : Token}
    (ha : a.isTrivia = false) (hb : b.isTrivia = false) (hg : ∀ t ∈ g, t.isTrivia = true)
    (h : lex s = us ++ a :: (g ++ b :: vs)) :
    ∃ us' g' vs', lex (stripComments s) = us' ++ a :: (g' ++ b :: vs') ∧
      significant us' = significant us ∧ (∀ w ∈ g', w.isWhitespace = true) ∧ (g' = [] ↔ g = []) ∧
      g'.any Token.breaksLine = g.any Token.endsLine := by
  obtain ⟨left, hleft, hcut⟩ := withoutComments_cut ha true us (g ++ b :: vs)
  obtain ⟨g', hgap, hwhite, hempty, hbreak⟩ := withoutComments_gap hb vs hg false
  refine ⟨merged left, merged g', merged (withoutComments false vs), ?_, ?_, ?_, ?_, ?_⟩
  · rw [lex_stripComments, h, hcut, hgap, merged_append_token (isWhitespace_of_not_trivia ha),
      merged_append_token (isWhitespace_of_not_trivia hb)]
  · rw [significant, filter_merged isSignificant_of_isTrivia]
    exact hleft
  · exact fun w hw => (mem_merged hw).elim (hwhite w) id
  · rw [← hempty rfl]
    by_cases hne : g' = []
    · rw [hne, merged_nil]
    · rw [merged_of_whitespace hwhite hne]
      exact iff_of_false (List.cons_ne_nil _ _) hne
  · rw [any_breaksLine_merged hwhite, hbreak]

/-- **Between two tokens.**  The script without its comments has no comment and the tokens that it
had.  Between two of them that follow one another there is white space exactly if there was trivia,
and white space with a line break exactly if the white space or the block comments there had one. -/
theorem stripComments_keeps_gaps (s : List Char) :
    (∀ t ∈ lex (stripComments s), t.isComment = false) ∧
      significant (lex (stripComments s)) = significant (lex s) ∧
      ∀ k, k + 1 < (significant (lex s)).length →
        ((∃ w ∈ gapAfter k (lex (stripComments s)), w.isWhitespace = true) ↔
          gapAfter k (lex s) ≠ []) ∧
        ((∃ w ∈ gapAfter k (lex (stripComments s)), w.isWhitespace = true ∧ w.breaksLine = true) ↔
          ∃ t ∈ gapAfter k (lex s),
            (t.isWhitespace = true ∨ t.kind = .blockComment) ∧ t.breaksLine = true) := by
  refine ⟨not_comment_stripComments s, significant_lex_stripComments s, fun k hk => ?_⟩
  obtain ⟨us, a, g, b, vs, h, rfl, ha, hb, hg⟩ := exists_gap hk
  obtain ⟨us', g', vs', h', hsame, hwhite, hempty, hbreak⟩ := gap_stripComments ha hb hg h
  have hwhitespace : ∀ t : Token, t.isWhitespace = true → t.isTrivia = true :=
    fun t ht => isTrivia_of_isWhitespace ht
  have hgap : gapAfter (significant us).length (lex s) = g := by
    rw [h, gapAfter_append ha hb hg]
  have hgap' : gapAfter (significant us).length (lex (stripComments s)) = g' := by
    rw [h', ← hsame, gapAfter_append ha hb (fun w hw => hwhitespace w (hwhite w hw))]
  rw [hgap, hgap']
  constructor
  · rw [ne_eq, ← hempty]
    constructor
    · rintro ⟨w, hw, -⟩ rfl
      cases hw
    · intro hne
      obtain ⟨w, hw⟩ := List.exists_mem_of_ne_nil g' hne
      exact ⟨w, hw, hwhite w hw⟩
  · have hnew : (∃ w ∈ g', w.isWhitespace = true ∧ w.breaksLine = true) ↔
        g'.any Token.breaksLine = true := by
      rw [List.any_eq_true]
      exact exists_congr (fun w => and_congr_right (fun hw => and_iff_right (hwhite w hw)))
    have hold : (∃ t ∈ g, (t.isWhitespace = true ∨ t.kind = .blockComment) ∧ t.breaksLine = true) ↔
        g.any Token.endsLine = true := by
      simp [List.any_eq_true, Token.endsLine]
    rw [hnew, hold, hbreak]

/-- comments of both kinds one behind the other, and a string that is not closed -/
def mixed : List Char := "a /*x*//*\n*/b// c\n /* d */\"e /* ".toList

theorem stripComments_keeps_gaps_mixed :
    (significant (lex mixed)).length = 3 ∧
      (∃ w ∈ gapAfter 0 (lex (stripComments mixed)), w.isWhitespace = true ∧ w.breaksLine = true) ∧
      ∃ w ∈ gapAfter 1 (lex (stripComments mixed)), w.isWhitespace = true ∧ w.breaksLine = true := by
  have hlength : (significant (lex mixed)).length = 3 := by decide +kernel
  obtain ⟨-, -, hgaps⟩ := stripComments_keeps_gaps mixed
  have hbreaks : ∀ k < 2, ∃ t ∈ gapAfter k (lex mixed),
      (t.isWhitespace = true ∨ t.kind = .blockComment) ∧ t.breaksLine = true := by decide +kernel
  refine ⟨hlength, ?_, ?_⟩
  · exact (hgaps 0 (by rw [hlength]; decide)).2.2 (hbreaks 0 (by decide))
  · exact (hgaps 1 (by rw [hlength]; decide)).2.2 (hbreaks 1 (by decide))

end EffectFusion.Script
