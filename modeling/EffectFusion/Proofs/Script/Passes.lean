import EffectFusion.Proofs.Script.Gaps
import EffectFusion.Proofs.Script.Preserved

/-!
# One pass over white space and comments

Each of the three passes over trivia, run alone, leaves the tokens that matter as they were.  For
the first one that is part of what it leaves between them.  What the other two print is a list of
tokens that fit (`Fits`), comments among them, and such a list is read back as it was printed.  The
ends of a script have to be looked at, because trimming them may cut into a comment.

* `significant_lex_trim`        trimming keeps the tokens that matter;
* `isChain_fits`                tokens that stand before one another fit;
* `trivia_passes_keep_tokens`   the three passes.
-/

namespace EffectFusion.Script

open Text

/-! ### Lists and the tokens that matter in them -/

theorem isChain_and {R S : Token → Token → Prop} {ts : List Token} (h : ts.IsChain R)
    (h' : ts.IsChain S) : ts.IsChain (fun a b => R a b ∧ S a b) := by
  rw [List.isChain_iff_forall_rel_of_append_cons_cons] at h h' ⊢
  exact fun a b us vs he => ⟨h he, h' he⟩

theorem isChain_of_significant {R : Token → Token → Prop} {ts : List Token}
    (h : (significant ts).IsChain R) :
    ts.IsChain (fun a b => a.isTrivia = false → b.isTrivia = false → R a b) := by
  rw [List.isChain_iff_forall_rel_of_append_cons_cons] at h ⊢
  intro a b us vs he ha hb
  refine @h a b (significant us) (significant vs) ?_
  rw [he, significant_append, significant_cons, ha, if_neg Bool.false_ne_true, significant_cons, hb,
    if_neg Bool.false_ne_true]

theorem literals_of_significant {ts : List Token}
    (h : ∀ t ∈ significant ts, t.isLiteral = true → t.isClosed = true) :
    ∀ t ∈ ts, t.isLiteral = true → t.isClosed = true := by
  intro t ht hl
  refine h t (mem_significant.2 ⟨ht, ?_⟩) hl
  obtain ⟨k, text⟩ := t
  cases k <;> simp_all [Token.isLiteral, Token.isTrivia, Token.isWhitespace, Token.isComment]

/-! ### The ends of a script -/

theorem eq_trim_append (s : List Char) :
    ∃ before after, (∀ c ∈ before, isBlank c = true) ∧ (∀ c ∈ after, isBlank c = true) ∧
      s = before ++ trim s ++ after := by
  have hall : ∀ u : List Char, ∀ c ∈ u.takeWhile isBlank, isBlank c = true :=
    fun u => List.all_eq_true.1 List.all_takeWhile
  refine ⟨s.takeWhile isBlank, ((trimStart s).reverse.takeWhile isBlank).reverse, hall s,
    fun c hc => hall _ c (List.mem_reverse.1 hc), ?_⟩
  rw [trim, trimEnd, List.append_assoc, ← List.reverse_append, trimStart,
    trimStart, List.takeWhile_append_dropWhile, List.reverse_reverse,
    List.takeWhile_append_dropWhile]

theorem stands_comment_start {k : Kind} {c : Char} {u v x : List Char}
    (h : Stands ⟨k, c :: (u ++ v)⟩ x) (hk : k = .lineComment ∨ k = .blockComment) (hu : u ≠ []) :
    Stands ⟨k, c :: u⟩ [] := by
  cases v with
  | nil =>
    rw [List.append_nil] at h
    exact h.alone
  | cons d v =>
    obtain ⟨hkind, hspan⟩ := (stands_iff k c _ x).1 h
    refine (stands_iff k c u []).2 ?_
    rw [List.append_nil]
    rw [List.append_assoc, List.head?_append_of_ne_nil _ hu] at hkind
    refine ⟨hkind, ?_⟩
    rcases hk with rfl | rfl
    · have hall := ((spanWhile_eq_iff (· ≠ '\n') (u ++ d :: v) x).1 hspan).1
      have hrun := (spanWhile_eq_iff (· ≠ '\n') u []).2
        ⟨fun e he => hall e (List.mem_append_left _ he), by simp⟩
      rwa [List.append_nil] at hrun
    · obtain ⟨w, rfl⟩ : ∃ w, u = '*' :: w := by
        obtain ⟨e, w, rfl⟩ := List.exists_cons_of_ne_nil hu
        exact ⟨w, by rw [← (List.cons.inj (Prod.mk.inj hspan).1).1]⟩
      have hblock : spanBlock (w ++ d :: v ++ x) = (w ++ d :: v, x) := by
        simpa [spanAt, Prod.ext_iff] using hspan
      -- had the comment been closed before, it would have ended there
      have hopen : (spanBlock w).2 = [] := by
        by_contra hne
        have happ := spanBlock_append w
        have hcut := spanBlock_change hne (by rw [happ]) ((spanBlock w).2 ++ (d :: v ++ x))
        rw [← List.append_assoc, happ, ← List.append_assoc, hblock] at hcut
        have hlen := congrArg List.length (Prod.mk.inj hcut).1
        have hw := congrArg List.length happ
        rw [List.length_append] at hlen hw
        rw [List.length_cons] at hlen
        omega
      have happ := spanBlock_append w
      rw [hopen, List.append_nil] at happ
      show ('*' :: (spanBlock w).1, (spanBlock w).2) = ('*' :: w, [])
      rw [hopen, happ]

theorem significant_lex_of_blanks {u : List Char} (h : ∀ c ∈ u, isBlank c = true) :
    significant (lex u) = [] := by
  have hsame := significant_lex_blanks h []
  rwa [List.append_nil, lex_nil, significant_nil] at hsame

theorem opens_of_comment {t : Token} {x : List Char} (h : Stands t x) (ht : t.isComment = true) :
    ∃ k c d u, t = ⟨k, c :: d :: u⟩ ∧ (k = .lineComment ∨ k = .blockComment) ∧
      isBlank c = false ∧ isBlank d = false := by
  obtain ⟨k, c, u, rfl⟩ := h.exists_cons
  have hk : k = .lineComment ∨ k = .blockComment := by simpa [Token.isComment] using ht
  have hkind := ((stands_iff k c u []).1 h.alone).1
  rw [List.append_nil] at hkind
  have hopens := opensComment_of_kindAt (hkind.symm ▸ hk)
  rw [opensComment, Bool.and_eq_true, decide_eq_true_eq, Bool.or_eq_true, decide_eq_true_eq,
    decide_eq_true_eq] at hopens
  obtain ⟨rfl, hnext⟩ := hopens
  cases u with
  | nil => rcases hnext with he | he <;> cases he
  | cons d u =>
    refine ⟨k, '/', d, u, rfl, hk, by decide, ?_⟩
    rcases hnext with he | he
    · obtain rfl := Option.some.inj he
      decide
    · obtain rfl := Option.some.inj he
      decide

theorem not_cut_of_clean {t : Token} {s v : List Char} (h : Clean t) (hw : t.isWhitespace = false)
    (ht : t.text = s ++ v) (hne : v ≠ []) : ¬ ∀ c ∈ v, isBlank c = true := by
  intro hv
  obtain ⟨u, c, hu, hcb⟩ := not_blank_last h hw
  obtain ⟨v, d, rfl⟩ := (List.eq_nil_or_concat v).resolve_left hne
  rw [List.concat_eq_append] at ht hv
  rw [← List.append_assoc, hu] at ht
  obtain rfl : c = d := (List.cons.inj (List.append_inj' ht rfl).2).1
  rw [hv c (by simp)] at hcb
  cases hcb

theorem blank_of_cut {t : Token} {s v x : List Char} (h : Stands t x) (hw : t.isWhitespace = true)
    (ht : t.text = s ++ v) : ∀ c ∈ s, isBlank c = true := by
  intro c hc
  refine isBlank_of_whitespace h.alone hw c ?_
  rw [ht]
  exact List.mem_append_left v hc

theorem significant_of_comment_cut {t : Token} {s v x : List Char} (h : Stands t x)
    (hc : t.isComment = true) (ht : t.text = s ++ v) (hv : ∀ c ∈ v, isBlank c = true) :
    significant (lex s) = [] := by
  obtain ⟨k, c, d, u, rfl, hk, hcb, hdb⟩ := opens_of_comment h hc
  have ht : c :: d :: u = s ++ v := ht
  -- the two characters that open the comment are left
  obtain ⟨u', rfl, rfl⟩ : ∃ u', s = c :: d :: u' ∧ u = u' ++ v := by
    rcases List.cons_eq_append_iff.1 ht with ⟨-, rfl⟩ | ⟨u₁, rfl, h₁⟩
    · rw [hv c List.mem_cons_self] at hcb
      cases hcb
    rcases List.cons_eq_append_iff.1 h₁ with ⟨-, rfl⟩ | ⟨u₂, rfl, h₂⟩
    · rw [hv d List.mem_cons_self] at hdb
      cases hdb
    · exact ⟨u₂, rfl, h₂⟩
  have hcut := stands_comment_start (u := d :: u') h hk (List.cons_ne_nil d u')
  have hone : lex (c :: d :: u') = [⟨k, c :: d :: u'⟩] := (stands_nil_iff _).1 hcut
  have htrivia : Token.isTrivia ⟨k, c :: d :: u'⟩ = true := by
    rcases hk with rfl | rfl <;> rfl
  rw [hone, significant_cons, if_pos htrivia, significant_nil]

/-- only trivia can lose white space at its end -/
theorem significant_of_cut {t : Token} {s v x : List Char} (h : Stands t x)
    (hclosed : t.isLiteral = true → t.isClosed = true) (ht : t.text = s ++ v) (hne : v ≠ [])
    (hv : ∀ c ∈ v, isBlank c = true) : t.isTrivia = true ∧ significant (lex s) = [] := by
  cases hw : t.isWhitespace with
  | true =>
    exact ⟨isTrivia_of_isWhitespace hw, significant_lex_of_blanks (blank_of_cut h hw ht)⟩
  | false =>
    cases hc : t.isComment with
    | true => exact ⟨isTrivia_of_isComment hc, significant_of_comment_cut h hc ht hv⟩
    | false =>
      exact absurd hv (not_cut_of_clean (clean_of_closed h.alone hclosed hc) hw ht hne)

/-- white space at the end may go, even from inside a comment -/
theorem significant_lex_append_blanks {s w : List Char} (hw : ∀ c ∈ w, isBlank c = true)
    (h : ∀ t ∈ lex (s ++ w), t.isLiteral = true → t.isClosed = true) :
    significant (lex (s ++ w)) = significant (lex s) := by
  rcases lex_cut s w with he | ⟨us, t, u, v, r, he, hs, hstands, ht, hne, rfl⟩
  · rw [he, significant_append, significant_lex_of_blanks hw, List.append_nil]
  · have hclosed := h t (by rw [he]; simp)
    have hr := significant_lex_of_blanks (fun c hc => hw c (List.mem_append_right v hc))
    obtain ⟨htrivia, hcut⟩ :=
      significant_of_cut hstands hclosed ht hne (fun c hc => hw c (List.mem_append_left r hc))
    rw [he, hs, significant_append, significant_append, significant_cons, if_pos htrivia, hr, hcut]

theorem significant_lex_trim {s : List Char}
    (h : ∀ t ∈ significant (lex s), t.isLiteral = true → t.isClosed = true) :
    significant (lex (trim s)) = significant (lex s) := by
  obtain ⟨before, after, hb, ha, he⟩ := eq_trim_append s
  have hstart : significant (lex s) = significant (lex (trim s ++ after)) := by
    conv_lhs => rw [he, List.append_assoc]
    exact significant_lex_blanks hb _
  rw [hstart] at h ⊢
  exact (significant_lex_append_blanks ha (literals_of_significant h)).symm

/-! ### The passes -/

theorem isChain_not_whitespace_lex (s : List Char) :
    (lex s).IsChain (fun a b => ¬ (a.isWhitespace = true ∧ b.isWhitespace = true)) := by
  refine (isChain_lex s).imp_of_mem_imp (fun a b _ hb hab hboth => ?_)
  exact not_stands_whitespace hboth.1 (stands_of_mem_lex hb) hboth.2 hab

theorem eq_point {t : Token} (h : Stands t []) (ht : t.text = ['.']) : t = .mark "." := by
  obtain ⟨k, text⟩ := t
  obtain rfl : text = ['.'] := ht
  rw [kind_of_stands_point h]
  rfl

theorem isTrivia_of_point {t : Token} (h : Stands t []) (ht : t.text = ['.']) :
    t.isTrivia = false := by
  rw [eq_point h ht]
  rfl

theorem isChain_noPoints {ts : List Token} (hs : ∀ t ∈ ts, Stands t [])
    (hp : (significant ts).IsChain NoPoints) : ts.IsChain NoPoints := by
  refine (isChain_of_significant hp).imp_of_mem_imp (fun a b ha hb hab hpoints => ?_)
  exact hab (isTrivia_of_point (hs a ha) hpoints.1) (isTrivia_of_point (hs b hb) hpoints.2) hpoints

/-- what is read as a point is the mark -/
theorem isChain_noPoints_of_marks {ts : List Token} (hs : ∀ t ∈ ts, Stands t [])
    (h : ts.IsChain (fun a b => ¬ (a.isMark "." = true ∧ b.isMark "." = true))) :
    ts.IsChain NoPoints := by
  refine h.imp_of_mem_imp (fun a b ha hb hab htexts => hab ⟨?_, ?_⟩)
  · exact (Token.isMark_iff a ".").2 (eq_point (hs a ha) htexts.1)
  · exact (Token.isMark_iff b ".").2 (eq_point (hs b hb) htexts.2)

/-- tokens that stand before one another fit, comments among them -/
theorem isChain_fits {ts : List Token} (hs : ∀ t ∈ ts, Stands t [])
    (h : ts.IsChain (fun a b => Stands a b.text)) (hp : (significant ts).IsChain NoPoints) :
    ts.IsChain Fits :=
  isChain_and h (isChain_noPoints hs hp)

theorem spaced_fits {ts : List Token} (hs : ∀ t ∈ ts, Stands t [])
    (h : ts.IsChain (Spaced (fun a b => Stands a b.text))) (hp : (significant ts).IsChain NoPoints) :
    ts.IsChain (Spaced Fits) :=
  (isChain_and h (isChain_noPoints hs hp)).imp
    (fun _ _ hab => hab.1.imp_right (Or.imp_right (fun hstands => ⟨hstands, hab.2⟩)))

theorem stands_tightened (s : List Char) : ∀ t ∈ tightened none (lex s), Stands t [] := by
  intro t ht
  obtain ⟨u, hu, rfl | rfl⟩ := mem_tightened ht
  · exact stands_of_mem_lex hu
  · exact stands_collapsed_left (stands_of_mem_lex hu)

theorem isChain_stands_tightened (s : List Char) :
    (tightened none (lex s)).IsChain (fun a b => Stands a b.text) := by
  refine isChain_tightened (fun t u hg => ((gluesCleanly_iff t u).1 hg).1) (fun t w u _ ht hu => ?_)
    (isChain_lex s)
  exact ⟨stands_collapsed_right ht hu.alone, stands_collapsed_left hu⟩

section Passes

variable {s : List Char}

theorem significant_collapseWhitespace (h : ∀ t ∈ lex s, t.isLiteral = true → t.isClosed = true)
    (hp : (significant (lex s)).IsChain NoPoints) :
    significant (lex (collapseWhitespace s)) = significant (lex s) := by
  have htrim : significant (lex (trim s)) = significant (lex s) :=
    significant_lex_trim (fun t ht => h t (mem_significant.1 ht).1)
  have hsame : significant ((lex (trim s)).map collapsed) = significant (lex s) :=
    (filter_map_collapsed isSignificant_of_isTrivia (lex (trim s))).trans htrim
  rw [← hsame] at hp ⊢
  have hstands : ∀ t ∈ (lex (trim s)).map collapsed, Stands t [] := by
    intro t ht
    obtain ⟨u, hu, rfl⟩ := List.mem_map.1 ht
    exact stands_collapsed_left (stands_of_mem_lex hu)
  have hchain : ((lex (trim s)).map collapsed).IsChain (fun a b => Stands a b.text) := by
    rw [List.isChain_map]
    refine (isChain_lex (trim s)).imp_of_mem_imp (fun a b _ hb hab => ?_)
    exact stands_collapsed_left (stands_collapsed_right hab (stands_of_mem_lex hb))
  rw [collapseWhitespace, lex_render_of_fits hstands (isChain_fits hstands hchain hp)]

theorem lex_normalizePunctuation (hp : (significant (lex s)).IsChain NoPoints) :
    lex (normalizePunctuation s) = tightened none (lex s) := by
  have hsame : significant (tightened none (lex s)) = significant (lex s) :=
    filter_tightened isSignificant_of_isTrivia none (lex s)
  rw [← hsame] at hp
  exact lex_render_of_fits (stands_tightened s)
    (isChain_fits (stands_tightened s) (isChain_stands_tightened s) hp)

theorem significant_normalizePunctuation (hp : (significant (lex s)).IsChain NoPoints) :
    significant (lex (normalizePunctuation s)) = significant (lex s) := by
  rw [lex_normalizePunctuation hp]
  exact filter_tightened isSignificant_of_isTrivia none (lex s)

theorem noPoints_of_marks (hpoints : (significant (lex s)).IsChain
    (fun a b => ¬ (a.isMark "." = true ∧ b.isMark "." = true))) :
    (significant (lex s)).IsChain NoPoints :=
  isChain_noPoints_of_marks (fun _ ht => stands_of_mem_lex (mem_significant.1 ht).1) hpoints

/-- **The passes over trivia keep the tokens that matter.**  Each of the three, run alone on a
script whose literals are closed and in which no two points follow one another. -/
theorem trivia_passes_keep_tokens (s : List Char)
    (hclosed : ∀ t ∈ lex s, t.isLiteral = true → t.isClosed = true)
    (hpoints : (significant (lex s)).IsChain
      (fun a b => ¬ (a.isMark "." = true ∧ b.isMark "." = true))) :
    significant (lex (stripComments s)) = significant (lex s) ∧
      significant (lex (collapseWhitespace s)) = significant (lex s) ∧
      significant (lex (normalizePunctuation s)) = significant (lex s) := by
  have hp := noPoints_of_marks hpoints
  exact ⟨significant_lex_stripComments s, significant_collapseWhitespace hclosed hp,
    significant_normalizePunctuation hp⟩

/-- comments, signs that would become one operator, and a literal with white space in it -/
def plusPlus : List Char := "a /* b */ + + c // d\n\"x  y\" ;  p . q ".toList

theorem trivia_passes_keep_tokens_plusPlus :
    (∀ t ∈ lex plusPlus, t.isLiteral = true → t.isClosed = true) ∧
      (significant (lex plusPlus)).IsChain
        (fun a b => ¬ (a.isMark "." = true ∧ b.isMark "." = true)) ∧
      significant (lex (stripComments plusPlus)) = significant (lex plusPlus) ∧
      significant (lex (collapseWhitespace plusPlus)) = significant (lex plusPlus) ∧
      significant (lex (normalizePunctuation plusPlus)) = significant (lex plusPlus) := by
  have hclosed : ∀ t ∈ lex plusPlus, t.isLiteral = true → t.isClosed = true := by decide +kernel
  have hpoints : (significant (lex plusPlus)).IsChain
      (fun a b => ¬ (a.isMark "." = true ∧ b.isMark "." = true)) := by decide +kernel
  exact ⟨hclosed, hpoints, trivia_passes_keep_tokens plusPlus hclosed hpoints⟩

-- three points are read as one operator once the white space between them is gone
example : normalizePunctuation ". . .".toList = "...".toList ∧
    (lex ". . .".toList).length = 5 ∧ lex "...".toList = [.mark "..."] := by decide +kernel

end Passes

end EffectFusion.Script
