import EffectFusion.Proofs.Script.Passes

/-!
# Trivia in normal form

A script without its comments, with single characters for its white space and with none around it,
is left as it is by the same two passes.  Where its last literal is not closed, the white space at
its end is the end of that literal; what is left of the literal is still one
(`not_comment_of_cut`), so trimming brings no comment to light.

* `not_comment_trim`               a trimmed script has no new comment;
* `lex_normalizeTrivia`            the tokens of a script in normal form;
* `normalizeTrivia_idempotent`     the passes leave such a script alone.
-/

namespace EffectFusion.Script

open Text

/-! ### A literal without its end -/

theorem spanQuoted_start {quote : Char} {escaped : Bool} {u v x y : List Char}
    (h : spanQuoted quote escaped (u ++ y) = (u ++ v, x)) :
    spanQuoted quote escaped u = (u, []) := by
  induction u generalizing escaped with
  | nil => cases escaped <;> rfl
  | cons c u ih =>
    have hrest : ∀ e : Bool, ((c :: (spanQuoted quote e (u ++ y)).1, (spanQuoted quote e (u ++ y)).2)
        = (c :: (u ++ v), x)) → spanQuoted quote e u = (u, []) :=
      fun e he => ih (by simpa [Prod.ext_iff] using he)
    cases escaped with
    | true =>
      rw [List.cons_append, spanQuoted] at h
      rw [spanQuoted, hrest _ h]
    | false =>
      rw [List.cons_append, spanQuoted] at h
      rw [spanQuoted]
      by_cases hb : c = '\\'
      · rw [if_pos hb] at h
        rw [if_pos hb, hrest _ h]
      · rw [if_neg hb] at h
        rw [if_neg hb]
        by_cases hq : c = quote
        · rw [if_pos hq] at h
          have hu : u ++ v = [] := by simpa using (Prod.mk.inj h).1.symm
          rw [if_pos hq, (List.append_eq_nil_iff.1 hu).1]
        · rw [if_neg hq] at h
          rw [if_neg hq, hrest _ h]

theorem kindAt_of_quote {c : Char} (h : isQuote c = true) (next next' : Option Char) :
    kindAt c next = kindAt c next' := by
  have hc : c ≠ '/' := by
    rintro rfl
    exact absurd h (by decide)
  simp [kindAt, h, hc]

theorem stands_literal_start {k : Kind} {c : Char} {u v x : List Char}
    (h : Stands ⟨k, c :: (u ++ v)⟩ x) (hk : k = .stringLiteral ∨ k = .templateLiteral) :
    Stands ⟨k, c :: u⟩ [] := by
  have hq := isQuote_of_literal h hk
  obtain ⟨hkind, hspan⟩ := (stands_iff k c _ x).1 h
  refine (stands_iff k c u []).2 ?_
  rw [List.append_nil]
  refine ⟨(kindAt_of_quote hq _ _).trans hkind, ?_⟩
  have hquoted : spanQuoted c false (u ++ (v ++ x)) = (u ++ v, x) := by
    rw [← List.append_assoc]
    rcases hk with rfl | rfl <;> exact hspan
  rcases hk with rfl | rfl <;> exact spanQuoted_start hquoted

/-! ### Trimming -/

theorem lex_of_blanks {u : List Char} (h : ∀ c ∈ u, isBlank c = true) :
    ∀ t ∈ lex u, t.isComment = false := by
  intro t ht
  have hnone := filter_lex_blanks (p := Token.isComment) (fun t ht => isComment_of_isWhitespace ht) h []
  rw [List.append_nil, lex_nil, List.filter_nil, List.filter_eq_nil_iff] at hnone
  simpa using hnone t ht

/-- what white space at its end is cut off from holds no comment -/
theorem not_comment_of_cut {t : Token} {s v x : List Char} (h : Stands t x)
    (hc : t.isComment = false) (ht : t.text = s ++ v) (hne : v ≠ [])
    (hv : ∀ c ∈ v, isBlank c = true) : ∀ u ∈ lex s, u.isComment = false := by
  cases hw : t.isWhitespace with
  | true => exact lex_of_blanks (blank_of_cut h hw ht)
  | false =>
    cases hl : t.isLiteral with
    | false => exact absurd hv (not_cut_of_clean (clean_of_stands h.alone hl hc) hw ht hne)
    | true =>
      cases s with
      | nil =>
        rw [lex_nil]
        exact List.forall_mem_nil _
      | cons c s =>
        obtain ⟨k, text⟩ := t
        obtain rfl : text = c :: (s ++ v) := ht
        have hk : k = .stringLiteral ∨ k = .templateLiteral := by simpa [Token.isLiteral] using hl
        have hone : lex (c :: s) = [⟨k, c :: s⟩] :=
          (stands_nil_iff _).1 (stands_literal_start h hk)
        rw [hone]
        exact List.forall_mem_singleton.2 hc

theorem not_comment_append_blanks {s w : List Char} (hw : ∀ c ∈ w, isBlank c = true)
    (h : ∀ t ∈ lex (s ++ w), t.isComment = false) : ∀ t ∈ lex s, t.isComment = false := by
  rcases lex_cut s w with he | ⟨us, t, u, v, r, he, hs, hstands, ht, hne, rfl⟩
  · rw [he] at h
    exact (List.forall_mem_append.1 h).1
  · rw [he] at h
    obtain ⟨hus, hrest⟩ := List.forall_mem_append.1 h
    rw [hs]
    refine List.forall_mem_append.2 ⟨hus, ?_⟩
    exact not_comment_of_cut hstands (List.forall_mem_cons.1 hrest).1 ht hne
      (fun c hc => hw c (List.mem_append_left r hc))

theorem not_comment_trim {s : List Char} (h : ∀ t ∈ lex s, t.isComment = false) :
    ∀ t ∈ lex (trim s), t.isComment = false := by
  obtain ⟨before, after, hb, ha, he⟩ := eq_trim_append s
  refine not_comment_append_blanks ha ?_
  have hsame := filter_lex_blanks (p := Token.isComment) (fun t ht => isComment_of_isWhitespace ht)
    hb (trim s ++ after)
  rw [← List.append_assoc, ← he, List.filter_eq_nil_iff.2 (by simpa using h)] at hsame
  have hnone := List.filter_eq_nil_iff.1 hsame.symm
  simpa using hnone

/-! ### The ends of a text -/

/-- the text neither starts nor ends with white space -/
def NoOuterBlank (s : List Char) : Prop :=
  (∀ c ∈ s.head?, isBlank c = false) ∧ ∀ c ∈ s.getLast?, isBlank c = false

theorem head?_trimStart (s : List Char) : ∀ c ∈ (trimStart s).head?, isBlank c = false := by
  intro c hc
  have hhead := List.head?_dropWhile_not isBlank s
  rw [show (s.dropWhile isBlank).head? = some c from hc] at hhead
  exact hhead

theorem trim_of_noOuterBlank {s : List Char} (h : NoOuterBlank s) : trim s = s := by
  have hstart : ∀ u : List Char, (∀ c ∈ u.head?, isBlank c = false) → trimStart u = u := by
    intro u hu
    cases u with
    | nil => rfl
    | cons c u => exact List.dropWhile_cons_of_neg (by simp [hu c rfl])
  rw [trim, hstart s h.1, trimEnd, hstart, List.reverse_reverse]
  rw [List.head?_reverse]
  exact h.2

theorem noOuterBlank_trim (s : List Char) : NoOuterBlank (trim s) := by
  constructor
  · intro c hc
    -- the end is cut off, so the start is the start of what was left before
    have hprefix : trim s <+: trimStart s := by
      rw [trim, trimEnd, ← List.reverse_suffix, List.reverse_reverse]
      exact List.dropWhile_suffix isBlank
    obtain ⟨v, hv⟩ := hprefix
    obtain ⟨u, hu⟩ := List.head?_eq_some_iff.1 hc
    refine head?_trimStart s c ?_
    rw [← hv, hu]
    rfl
  · intro c hc
    rw [trim, trimEnd, List.getLast?_reverse] at hc
    exact head?_trimStart _ c hc

section Ends

variable {ts : List Token} (h : ∀ t ∈ ts, Stands t [])

include h

theorem head?_collapsed (hc : ∀ c ∈ (render ts).head?, isBlank c = false) :
    ∀ c ∈ (render (ts.map collapsed)).head?, isBlank c = false := by
  cases ts with
  | nil => exact hc
  | cons t ts =>
    have hstands := h t List.mem_cons_self
    have hw : t.isWhitespace = false := by
      by_contra hw
      obtain ⟨c, u, ht, hb⟩ := isBlank_head hstands (by simpa using hw)
      have hblank := hc c (by rw [render_cons, ht]; rfl)
      rw [hb] at hblank
      cases hblank
    rw [render_cons, List.head?_append_of_ne_nil _ hstands.text_ne_nil] at hc
    rwa [List.map_cons, collapsed_of_not_whitespace hw, render_cons,
      List.head?_append_of_ne_nil _ hstands.text_ne_nil]

theorem getLast?_collapsed (hc : ∀ c ∈ (render ts).getLast?, isBlank c = false) :
    ∀ c ∈ (render (ts.map collapsed)).getLast?, isBlank c = false := by
  rcases List.eq_nil_or_concat ts with rfl | ⟨ts, t, rfl⟩
  · exact hc
  · rw [List.concat_eq_append] at h hc ⊢
    have hstands := h t (by simp)
    rw [render_append, render_cons, render_nil, List.append_nil,
      List.getLast?_append_of_ne_nil _ hstands.text_ne_nil] at hc
    have hw : t.isWhitespace = false := by
      by_contra hw
      obtain ⟨u, c, hu⟩ := (List.eq_nil_or_concat t.text).resolve_left hstands.text_ne_nil
      rw [List.concat_eq_append] at hu
      have hblank := hc c (by rw [hu, List.getLast?_concat]; rfl)
      rw [isBlank_of_whitespace hstands (by simpa using hw) c (by rw [hu]; simp)] at hblank
      cases hblank
    rwa [List.map_append, render_append, List.map_singleton, collapsed_of_not_whitespace hw,
      render_cons, render_nil, List.append_nil,
      List.getLast?_append_of_ne_nil _ hstands.text_ne_nil]

end Ends

/-- the ends of a trimmed script stay while the white space in it is changed -/
theorem noOuterBlank_collapsed {s : List Char} (h : NoOuterBlank s) :
    NoOuterBlank (render ((lex s).map collapsed)) := by
  have hs : ∀ t ∈ lex s, Stands t [] := fun t ht => stands_of_mem_lex ht
  rw [← render_lex s] at h
  exact ⟨head?_collapsed hs h.1, getLast?_collapsed hs h.2⟩

/-! ### Normal form -/

/-- the script without comments, with single characters between its tokens -/
def normalizeTrivia (s : List Char) : List Char := collapseWhitespace (stripComments s)

theorem withoutComments_of_none {ts : List Token} (h : ∀ t ∈ ts, t.isComment = false) (b : Bool) :
    withoutComments b ts = ts := by
  induction ts generalizing b with
  | nil => rfl
  | cons t ts ih =>
    rw [withoutComments_token (h t List.mem_cons_self),
      ih (fun u hu => h u (List.mem_cons_of_mem t hu))]

theorem collapsed_collapsed (t : Token) : collapsed (collapsed t) = collapsed t := by
  cases hw : t.isWhitespace with
  | false => rw [collapsed_of_not_whitespace hw, collapsed_of_not_whitespace hw]
  | true =>
    have hone : collapsed t = .lineBreak ∨ collapsed t = .space := by
      rw [collapsed, if_pos hw]
      split
      · exact Or.inl rfl
      · exact Or.inr rfl
    rcases hone with he | he <;> rw [he] <;> rfl

theorem isComment_collapsed {t : Token} (h : t.isComment = false) :
    (collapsed t).isComment = false := by
  cases hw : t.isWhitespace with
  | false => rwa [collapsed_of_not_whitespace hw]
  | true => exact isComment_of_isWhitespace (by rw [isWhitespace_collapsed, hw])

theorem lex_normalizeTrivia (s : List Char) :
    lex (normalizeTrivia s) = (lex (trim (stripComments s))).map collapsed := by
  have hcomment := not_comment_trim (not_comment_stripComments s)
  rw [normalizeTrivia, collapseWhitespace,
    lex_render_of_legible (legible_map_collapsed (legible_lex _) hcomment), merged_of_chain]
  rw [List.isChain_map]
  simp only [isWhitespace_collapsed]
  exact isChain_not_whitespace_lex _

theorem normal_normalizeTrivia (s : List Char) :
    NoOuterBlank (normalizeTrivia s) ∧
      ∀ t ∈ lex (normalizeTrivia s), t.isComment = false ∧ collapsed t = t := by
  refine ⟨noOuterBlank_collapsed (noOuterBlank_trim _), fun t ht => ?_⟩
  rw [lex_normalizeTrivia] at ht
  obtain ⟨u, hu, rfl⟩ := List.mem_map.1 ht
  exact ⟨isComment_collapsed (not_comment_trim (not_comment_stripComments s) u hu),
    collapsed_collapsed u⟩

/-- **Normal form.**  The two passes leave a script in normal form alone: it has no comment, its
white space is single characters, and there is none at its ends. -/
theorem normalizeTrivia_idempotent (s : List Char) :
    (∀ t ∈ lex (normalizeTrivia s),
      t.isComment = false ∧ (t.isWhitespace = true → t = .space ∨ t = .lineBreak)) ∧
      normalizeTrivia (normalizeTrivia s) = normalizeTrivia s := by
  obtain ⟨htrim, hnormal⟩ := normal_normalizeTrivia s
  constructor
  · refine fun t ht => ⟨(hnormal t ht).1, fun hw => ?_⟩
    rw [← (hnormal t ht).2, collapsed, if_pos hw]
    split
    · exact Or.inr rfl
    · exact Or.inl rfl
  · have hstrip : stripComments (normalizeTrivia s) = normalizeTrivia s := by
      rw [stripComments, withoutComments_of_none (fun t ht => (hnormal t ht).1), render_lex]
    have hmap : (lex (normalizeTrivia s)).map collapsed = lex (normalizeTrivia s) :=
      (List.map_congr_left (fun t ht => (hnormal t ht).2)).trans (List.map_id _)
    calc normalizeTrivia (normalizeTrivia s)
        = collapseWhitespace (normalizeTrivia s) := by rw [normalizeTrivia, hstrip]
      _ = render ((lex (normalizeTrivia s)).map collapsed) := by
        rw [collapseWhitespace, trim_of_noOuterBlank htrim]
      _ = normalizeTrivia s := by rw [hmap, render_lex]

/-- a comment between two words, two line breaks, and a string that ends with white space because it
is not closed -/
def openEnd : List Char := " a/* b */c \n\n \"d  e  ".toList

theorem normalizeTrivia_idempotent_openEnd :
    normalizeTrivia openEnd = "a c\n\"d  e".toList ∧
      (.lineBreak ∈ lex (normalizeTrivia openEnd) ∧
        (Token.lineBreak = .space ∨ Token.lineBreak = .lineBreak)) ∧
      normalizeTrivia (normalizeTrivia openEnd) = normalizeTrivia openEnd := by
  obtain ⟨hnormal, hsame⟩ := normalizeTrivia_idempotent openEnd
  have hmem : .lineBreak ∈ lex (normalizeTrivia openEnd) := by decide +kernel
  exact ⟨by decide +kernel, ⟨hmem, (hnormal _ hmem).2 (by decide)⟩, hsame⟩

end EffectFusion.Script
