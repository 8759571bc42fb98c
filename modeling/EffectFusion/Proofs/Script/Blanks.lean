import EffectFusion.Proofs.Script.Boundary
import EffectFusion.Script.Trivia

/-!
# White space around tokens

White space shares no character with words, numbers and operators, so it ends any token but a
comment or a literal that is not closed.  A `Clean` list has neither comments nor open literals:
white space may be put between its tokens, and trimming its text takes white space tokens only.

* `withoutComments_comment`   a comment gives way to one white space character or to nothing;
* `stands_blank`              a clean token stands before white space;
* `trim_render`               trimming the text of clean tokens drops the white space at both ends.
-/

namespace EffectFusion.Script

open Text

/-! ### Blanks among characters -/

theorem exists_range_of_inRanges {rs : List (Nat × Nat)} {n : Nat} (h : inRanges rs n = true) :
    ∃ r ∈ rs, r.1 ≤ n ∧ n ≤ r.2 := by
  induction rs with
  | nil => cases h
  | cons r rs ih =>
    rw [inRanges] at h
    split at h
    · cases h
    · split at h
      · exact ⟨r, List.mem_cons_self, by omega, by omega⟩
      · obtain ⟨q, hq, hb⟩ := ih h
        exact ⟨q, List.mem_cons_of_mem _ hq, hb⟩

/-- the white space characters one by one -/
def blanks : List Char :=
  (blankRanges.flatMap (fun r => List.range' r.1 (r.2 - r.1 + 1))).map Char.ofNat

theorem mem_blanks {c : Char} (h : isBlank c = true) : c ∈ blanks := by
  obtain ⟨r, hr, h1, h2⟩ := exists_range_of_inRanges h
  refine List.mem_map.2 ⟨c.toNat, ?_, Char.ofNat_toNat c⟩
  exact List.mem_flatMap.2 ⟨r, hr, List.mem_range'_1.2 ⟨h1, by omega⟩⟩

theorem not_wordPart_of_blank {c : Char} (h : isBlank c = true) : isWordPart c = false := by
  have hall : ∀ c ∈ blanks, isWordPart c = false := by decide +kernel
  exact hall c (mem_blanks h)

theorem not_numberPart_of_blank {c : Char} (h : isBlank c = true) (before : Char) :
    isNumberPart before c = false := by
  have hall : ∀ c ∈ blanks, isAlnum c = false ∧ c ≠ '.' ∧ c ≠ '_' ∧ c ≠ '+' ∧ c ≠ '-' := by
    decide
  exact not_numberPart (hall c (mem_blanks h)) before

theorem not_quote_of_blank {c : Char} (h : isBlank c = true) : isQuote c = false := by
  have hall : ∀ c ∈ blanks, isQuote c = false := by decide
  exact hall c (mem_blanks h)

theorem not_blank_of_isOperator {s : List Char} (h : isOperator s = true) :
    ∀ c ∈ s, isBlank c = false := by
  have hall : ∀ op ∈ operators, ∀ c ∈ op.toList, isBlank c = false := by decide
  obtain ⟨op, hop, rfl⟩ := (isOperator_iff s).1 h
  exact hall op hop

theorem whitespace_of_blank {c : Char} (h : isBlank c = true) (next : Option Char) :
    kindAt c next = .whitespace := by
  simp [kindAt, h]

/-! ### Where a comment was -/

theorem isTrivia_of_isWhitespace {t : Token} (h : t.isWhitespace = true) : t.isTrivia = true := by
  simp [Token.isTrivia, h]

theorem isTrivia_of_isComment {t : Token} (h : t.isComment = true) : t.isTrivia = true := by
  simp [Token.isTrivia, h]

theorem isWhitespace_of_single {w : Token} (h : w = .space ∨ w = .lineBreak) :
    w.isWhitespace = true := by
  rcases h with rfl | rfl <;> rfl

theorem withoutComments_token {t : Token} (h : t.isComment = false) (b : Bool) (rest : List Token) :
    withoutComments b (t :: rest) = t :: withoutComments t.isWhitespace rest := by
  rw [withoutComments, h, if_neg Bool.false_ne_true]

/-- a comment leaves one character, a line break exactly if it is a block comment with a line break
in it, or it leaves nothing beside white space or an end -/
theorem withoutComments_comment {t : Token} (h : t.isComment = true) (b : Bool) (rest : List Token) :
    (∃ w, (w = .space ∨ w = .lineBreak) ∧
        (w.breaksLine = true ↔ t.kind = .blockComment ∧ t.breaksLine = true) ∧
        withoutComments b (t :: rest) = w :: withoutComments true rest) ∨
      ¬ (t.kind = .blockComment ∧ t.breaksLine = true) ∧
        (b = true ∨ (rest.head?.map Token.isWhitespace).getD true = true) ∧
        withoutComments b (t :: rest) = withoutComments b rest := by
  rw [withoutComments, if_pos h]
  simp only
  by_cases hbreak : t.kind = .blockComment ∧ t.breaksLine = true
  · exact Or.inl ⟨.lineBreak, Or.inr rfl, iff_of_true rfl hbreak, if_pos hbreak⟩
  · rw [if_neg hbreak]
    by_cases hblank : b = true ∨ (rest.head?.map Token.isWhitespace).getD true = true
    · exact Or.inr ⟨hbreak, hblank, if_pos hblank⟩
    · exact Or.inl ⟨.space, Or.inl rfl, iff_of_false (by decide) hbreak, if_neg hblank⟩

/-! ### Clean tokens -/

/-- read on its own, no comment, and closed when it is a literal -/
structure Clean (t : Token) : Prop where
  stands : Stands t []
  closed : t.isClosed = true
  noComment : t.isComment = false

theorem clean_space : Clean .space := ⟨(stands_nil_iff _).2 (by decide +kernel), rfl, rfl⟩

theorem clean_lineBreak : Clean .lineBreak := ⟨(stands_nil_iff _).2 (by decide +kernel), rfl, rfl⟩

theorem clean_of_single {w : Token} (h : w = .space ∨ w = .lineBreak) : Clean w := by
  rcases h with rfl | rfl
  · exact clean_space
  · exact clean_lineBreak

theorem clean_collapsed {t : Token} (h : Clean t) : Clean (collapsed t) := by
  unfold collapsed
  split
  · split
    · exact clean_lineBreak
    · exact clean_space
  · exact h

theorem isWhitespace_collapsed (t : Token) : (collapsed t).isWhitespace = t.isWhitespace := by
  unfold collapsed
  split
  · rename_i h
    rw [h]
    split <;> rfl
  · rfl

theorem isBlank_of_whitespace {t : Token} (h : Stands t []) (hw : t.isWhitespace = true) :
    ∀ c ∈ t.text, isBlank c = true := by
  obtain ⟨k, c, u, rfl⟩ := h.exists_cons
  have hk : k = .whitespace := by simpa [Token.isWhitespace] using hw
  subst hk
  obtain ⟨h1, h2⟩ := (stands_iff .whitespace c u []).1 h
  have hc : isBlank c = true := by
    by_contra hb
    have hb : isBlank c = false := by simpa using hb
    simp only [kindAt, hb] at h1
    split_ifs at h1 <;> simp_all
  have hu := ((spanWhile_eq_iff isBlank u []).1 h2).1
  intro d hd
  rcases List.mem_cons.1 hd with rfl | hd
  · exact hc
  · exact hu d hd

theorem isBlank_head {w : Token} (h : Stands w []) (hw : w.isWhitespace = true) :
    ∃ c u, w.text = c :: u ∧ isBlank c = true := by
  obtain ⟨c, u, hc⟩ := List.exists_cons_of_ne_nil h.text_ne_nil
  exact ⟨c, u, hc, isBlank_of_whitespace h hw c (by simp [hc])⟩

theorem not_blank_head {k : Kind} {c : Char} {u rest : List Char} (h : Stands ⟨k, c :: u⟩ rest)
    (hw : k ≠ .whitespace) : isBlank c = false := by
  by_contra hb
  have hb : isBlank c = true := by simpa using hb
  have hk := ((stands_iff k c u rest).1 h).1
  rw [whitespace_of_blank hb] at hk
  exact hw hk.symm

/-- white space ends every token but a line comment and what is not closed -/
theorem stopsBefore_blank_iff {t : Token} (hw : t.isWhitespace = false) {d : Char}
    (hd : isBlank d = true) :
    t.stopsBefore d = true ↔ (t.kind = .lineComment → d = '\n') ∧ t.isClosed = true := by
  have hne : d ≠ '/' ∧ d ≠ '*' ∧ isDigit d = false := by
    have hall : ∀ c ∈ blanks, c ≠ '/' ∧ c ≠ '*' ∧ isDigit c = false := by decide
    exact hall d (mem_blanks hd)
  have hkind : t.changesKind d = false := by simp [Token.changesKind, hne]
  rw [Token.stopsBefore, hkind, Bool.not_false, Bool.and_true]
  unfold Token.cutBefore
  cases hk : t.kind with
  | whitespace => simp [Token.isWhitespace, hk] at hw
  | lineComment => simp [Token.isClosed, hk]
  | blockComment => simp
  | stringLiteral => simp
  | templateLiteral => simp
  | word => simp [Token.isClosed, hk, not_wordPart_of_blank hd]
  | number => simp [Token.isClosed, hk, not_numberPart_of_blank hd]
  | punctuation =>
    have hop : isOperator (t.text ++ [d]) = false := by
      by_contra hop
      have hb := not_blank_of_isOperator (by simpa using hop) d (by simp)
      rw [hd] at hb
      cases hb
    simp [Token.isClosed, hk, hop]

theorem stands_blank_iff {t : Token} (h : Stands t []) (hw : t.isWhitespace = false) {d : Char}
    (hd : isBlank d = true) (z : List Char) :
    Stands t (d :: z) ↔ (t.kind = .lineComment → d = '\n') ∧ t.isClosed = true := by
  rw [stands_cons_iff h, stopsBefore_blank_iff hw hd]
  rintro ⟨-, rfl⟩
  exact absurd hd (by decide)

theorem stands_blank {t : Token} (h : Clean t) (hw : t.isWhitespace = false) {d : Char}
    (hd : isBlank d = true) (z : List Char) : Stands t (d :: z) := by
  refine (stands_blank_iff h.stands hw hd z).2 ⟨fun hk => ?_, h.closed⟩
  have hcomment := h.noComment
  simp [Token.isComment, hk] at hcomment

theorem stands_whitespace {t w : Token} (h : Clean t) (hw : t.isWhitespace = false)
    (hs : Stands w []) (hww : w.isWhitespace = true) (z : List Char) : Stands t (w.text ++ z) := by
  obtain ⟨c, u, hc, hb⟩ := isBlank_head hs hww
  rw [hc]
  exact stands_blank h hw hb _

theorem stands_whitespace_iff {w : Token} (h : Stands w []) (hw : w.isWhitespace = true) (d : Char)
    (z : List Char) : Stands w (d :: z) ↔ isBlank d = false := by
  obtain ⟨c, u, hc, hb⟩ := isBlank_head h hw
  have hk : w.kind = .whitespace := by simpa [Token.isWhitespace] using hw
  have hne : c ≠ '/' ∧ c ≠ '.' := by
    constructor <;> rintro rfl <;> exact absurd hb (by decide)
  rw [stands_cons_iff h (fun hp => hne.2 (List.cons.inj (hc.symm.trans hp.1)).1)]
  simp [Token.stopsBefore, Token.cutBefore, Token.changesKind, hk, hc, hne]

theorem not_stands_whitespace {t w : Token} (ht : t.isWhitespace = true) (hs : Stands w [])
    (hw : w.isWhitespace = true) : ¬ Stands t w.text := by
  intro h
  obtain ⟨c, u, hc, hb⟩ := isBlank_head hs hw
  rw [hc, stands_whitespace_iff h.alone ht, hb] at h
  cases h

/-! ### Trimming -/

theorem dropWhile_blank_append {u : List Char} (h : ∀ c ∈ u, isBlank c = true) (v : List Char) :
    (u ++ v).dropWhile isBlank = v.dropWhile isBlank := by
  induction u with
  | nil => rfl
  | cons c u ih =>
    rw [List.cons_append, List.dropWhile_cons, if_pos (h c List.mem_cons_self)]
    exact ih (fun d hd => h d (List.mem_cons_of_mem _ hd))

theorem isQuote_of_kindAt {c : Char} {next : Option Char}
    (h : kindAt c next = .stringLiteral ∨ kindAt c next = .templateLiteral) : isQuote c = true := by
  by_contra hq
  have hq : isQuote c = false := by simpa using hq
  unfold kindAt at h
  rw [hq] at h
  split_ifs at h <;> simp_all

theorem isQuote_of_literal {k : Kind} {c : Char} {u rest : List Char} (h : Stands ⟨k, c :: u⟩ rest)
    (hl : k = .stringLiteral ∨ k = .templateLiteral) : isQuote c = true := by
  have hk := ((stands_iff k c u rest).1 h).1
  rw [← hk] at hl
  exact isQuote_of_kindAt hl

theorem not_blank_last {t : Token} (h : Clean t) (hw : t.isWhitespace = false) :
    ∃ v c, t.text = v ++ [c] ∧ isBlank c = false := by
  obtain ⟨k, c, u, rfl⟩ := h.stands.exists_cons
  have hk : k ≠ .whitespace := by simpa [Token.isWhitespace] using hw
  rcases List.eq_nil_or_concat u with rfl | ⟨u, d, rfl⟩
  · exact ⟨[], c, rfl, not_blank_head h.stands hk⟩
  rw [List.concat_eq_append] at h ⊢
  refine ⟨c :: u, d, rfl, ?_⟩
  by_contra hd
  have hd : isBlank d = true := by simpa using hd
  have hliteral : k = .stringLiteral ∨ k = .templateLiteral →
      closesQuote c false (u ++ [d]) = true → False := by
    intro hl hc
    have hq := isQuote_of_literal h.stands hl
    have he := getLast?_of_closesQuote hc
    rw [List.getLast?_concat] at he
    rw [← Option.some.inj he, not_quote_of_blank hd] at hq
    cases hq
  have hmem : d ∈ u ++ [d] := by simp
  cases k with
  | whitespace => exact hk rfl
  | lineComment => exact absurd h.noComment (by simp [Token.isComment])
  | blockComment => exact absurd h.noComment (by simp [Token.isComment])
  | stringLiteral => exact hliteral (Or.inl rfl) h.closed
  | templateLiteral => exact hliteral (Or.inr rfl) h.closed
  | word =>
    have hp := wordPart_of_word h.stands d hmem
    rw [not_wordPart_of_blank hd] at hp
    cases hp
  | number =>
    obtain ⟨b, hp⟩ := numberPart_of_number h.stands d hmem
    rw [not_numberPart_of_blank hd] at hp
    cases hp
  | punctuation =>
    rcases isOperator_of_punctuation h.stands with hu | hu
    · simp at hu
    · have hb := not_blank_of_isOperator hu d (List.mem_cons_of_mem _ hmem)
      rw [hd] at hb
      cases hb

/-- a list without the white space at both ends -/
def trimmed (ts : List Token) : List Token :=
  ((ts.dropWhile Token.isWhitespace).reverse.dropWhile Token.isWhitespace).reverse

theorem trimStart_render {ts : List Token} (h : ∀ t ∈ ts, Clean t) :
    trimStart (render ts) = render (ts.dropWhile Token.isWhitespace) := by
  induction ts with
  | nil => rfl
  | cons t ts ih =>
    have ht := h t List.mem_cons_self
    rw [render_cons, List.dropWhile_cons]
    cases hw : t.isWhitespace with
    | true =>
      rw [if_pos rfl, ← ih (fun u hu => h u (List.mem_cons_of_mem _ hu))]
      exact dropWhile_blank_append (isBlank_of_whitespace ht.stands hw) _
    | false =>
      obtain ⟨k, c, u, rfl⟩ := ht.stands.exists_cons
      have hc := not_blank_head ht.stands (by simpa [Token.isWhitespace] using hw)
      show List.dropWhile isBlank (c :: (u ++ render ts)) = _
      rw [List.dropWhile_cons, hc]
      simp [render_cons]

theorem trimEnd_render {ts : List Token} (h : ∀ t ∈ ts, Clean t) :
    trimEnd (render ts) = render (ts.reverse.dropWhile Token.isWhitespace).reverse := by
  induction ts using List.reverseRecOn with
  | nil => rfl
  | append_singleton ts t ih =>
    have ht := h t (by simp)
    rw [trimEnd, trimStart, render_append, render_cons, render_nil, List.append_nil,
      List.reverse_append, List.reverse_append, List.reverse_singleton, List.singleton_append,
      List.dropWhile_cons]
    cases hw : t.isWhitespace with
    | true =>
      rw [if_pos rfl, ← ih (fun u hu => h u (List.mem_append_left _ hu)), dropWhile_blank_append]
      · rfl
      · intro c hc
        exact isBlank_of_whitespace ht.stands hw c (List.mem_reverse.1 hc)
    | false =>
      obtain ⟨v, c, hv, hc⟩ := not_blank_last ht hw
      rw [hv, List.reverse_append, List.reverse_singleton, List.singleton_append,
        List.cons_append, List.dropWhile_cons, hc]
      simp [render_append, render_cons, render_nil, hv]

theorem trim_render {ts : List Token} (h : ∀ t ∈ ts, Clean t) :
    trim (render ts) = render (trimmed ts) := by
  rw [trim, trimStart_render h, trimEnd_render]
  · rfl
  · exact fun t ht => h t ((List.dropWhile_sublist _).subset ht)

theorem eq_trimmed_append (ts : List Token) :
    ∃ before after, (∀ w ∈ before, w.isWhitespace = true) ∧ (∀ w ∈ after, w.isWhitespace = true) ∧
      ts = before ++ trimmed ts ++ after := by
  have hall : ∀ us : List Token, ∀ w ∈ us.takeWhile Token.isWhitespace, w.isWhitespace = true :=
    fun us => List.all_eq_true.1 List.all_takeWhile
  refine ⟨ts.takeWhile Token.isWhitespace,
    ((ts.dropWhile Token.isWhitespace).reverse.takeWhile Token.isWhitespace).reverse,
    hall ts, fun w hw => hall _ w (List.mem_reverse.1 hw), ?_⟩
  rw [trimmed, List.append_assoc, ← List.reverse_append, List.takeWhile_append_dropWhile,
    List.reverse_reverse, List.takeWhile_append_dropWhile]

theorem lex_trim {s : List Char} (h : ∀ t ∈ lex s, Clean t) : lex (trim s) = trimmed (lex s) := by
  obtain ⟨before, after, -, -, he⟩ := eq_trimmed_append (lex s)
  have h1 := trim_render h
  rw [render_lex] at h1
  rw [h1]
  exact lex_middle he

end EffectFusion.Script
