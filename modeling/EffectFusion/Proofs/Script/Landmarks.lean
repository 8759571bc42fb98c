import EffectFusion.Proofs.Script.Blanks
import EffectFusion.Proofs.Script.Lengths

/-!
# Landmarks of a script

Literals, brackets and separators are the landmarks of a script.  No pass touches them, though
a pass may well change how the text between them is cut: `true.x` becomes `!0.x`, where the
point goes over to the number, and three points with spaces between them become one operator.
So the landmarks are found by a walk over characters (`marks`) that does not know words, numbers
and operators at all, and that walk only minds slashes: two tokens side by side must not open a
comment (`Apart`).

* `marks_lex`             the walk finds the literals, comments, brackets and separators of a script;
* `marks_render`          it finds those of any list of clean tokens that keep apart;
* `lex_render_clean`      so they are the landmarks that are read back from its text.
-/

namespace EffectFusion.Script

open Text

/-! ### Landmarks and the walk -/

def fences : List String := ["(", ")", "[", "]", "\x7b", "\x7d", ";", ","]

/-- a bracket or a separator -/
def Token.isFence (t : Token) : Bool := t.isMarkOf fences

/-- a literal, a bracket or a separator -/
def Token.isLandmark (t : Token) : Bool := t.isLiteral || t.isFence

def fenceChars : List Char := fences.flatMap String.toList

/-- the characters that words and numbers have none of, and operators only a slash in front -/
def special : List Char := ['/', '"', '\'', '\x60'] ++ fenceChars

/-- the text opens a comment -/
def opensComment (c : Char) (next : Option Char) : Bool := c = '/' && (next = some '/' || next = some '*')

/-- the landmarks and comments of a text; any other character is passed over -/
def marks : List Char → List Token
  | [] => []
  | c :: rest =>
    if isQuote c || opensComment c rest.head? then firstToken c rest :: marks (firstSpan c rest).2.2
    else if fenceChars.contains c then ⟨.punctuation, [c]⟩ :: marks rest
    else marks rest
termination_by s => s.length
decreasing_by
  · have := firstSpan_rest_length c rest
    simp only [List.length_cons]
    omega
  · simp
  · simp

theorem marks_nil : marks [] = [] := by rw [marks]

theorem marks_taken {c : Char} {rest : List Char}
    (h : (isQuote c || opensComment c rest.head?) = true) :
    marks (c :: rest) = firstToken c rest :: marks (firstSpan c rest).2.2 := by
  rw [marks, if_pos h]

theorem marks_fence {c : Char} (h : c ∈ fenceChars) (rest : List Char) :
    marks (c :: rest) = ⟨.punctuation, [c]⟩ :: marks rest := by
  have hc : ∀ c ∈ fenceChars, (isQuote c || decide (c = '/')) = false := by decide
  have h1 : (isQuote c || opensComment c rest.head?) = false := by
    have := hc c h
    simp only [Bool.or_eq_false_iff, decide_eq_false_iff_not] at this
    simp [opensComment, this.1, this.2]
  rw [marks, h1, if_neg Bool.false_ne_true, if_pos (by simpa using h)]

theorem marks_plain {c : Char} (h : c ∉ special) (rest : List Char) :
    marks (c :: rest) = marks rest := by
  simp only [special, List.mem_append, List.mem_cons, List.not_mem_nil, or_false, not_or] at h
  obtain ⟨⟨h1, h2, h3, h4⟩, h5⟩ := h
  rw [marks]
  simp [isQuote, opensComment, h1, h2, h3, h4, h5]

theorem marks_slash {rest : List Char} (h : opensComment '/' rest.head? = false) :
    marks ('/' :: rest) = marks rest := by
  have h1 : isQuote '/' = false ∧ fenceChars.contains '/' = false := by decide
  rw [marks, h, h1.1, h1.2]
  rfl

theorem marks_append {u : List Char} (h : ∀ c ∈ u, c ∉ special) (rest : List Char) :
    marks (u ++ rest) = marks rest := by
  induction u with
  | nil => rfl
  | cons c u ih =>
    rw [List.cons_append, marks_plain (h c List.mem_cons_self)]
    exact ih (fun d hd => h d (List.mem_cons_of_mem _ hd))

/-! ### Characters between landmarks -/

theorem not_special_of_blank {c : Char} (h : isBlank c = true) : c ∉ special := by
  intro hc
  have hall : ∀ c ∈ special, isBlank c = false := by decide
  rw [hall c hc] at h
  cases h

theorem not_special_of_wordPart {c : Char} (h : isWordPart c = true) : c ∉ special := by
  intro hc
  have hall : ∀ c ∈ special, isWordPart c = false := by decide
  rw [hall c hc] at h
  cases h

theorem not_special_of_numberPart {before c : Char} (h : isNumberPart before c = true) :
    c ∉ special := by
  intro hc
  have hall : ∀ c ∈ special, isAlnum c = false ∧ c ≠ '.' ∧ c ≠ '_' ∧ c ≠ '+' ∧ c ≠ '-' := by
    decide
  rw [not_numberPart (hall c hc)] at h
  cases h

theorem special_of_isOperator {s : List Char} (h : isOperator s = true) :
    (∀ c ∈ s.tail, c ∉ special) ∧ ∀ c ∈ s.head?, c ∈ special → c = '/' := by
  have hall : ∀ op ∈ operators, (∀ c ∈ op.toList.tail, c ∉ special) ∧
      ∀ c ∈ op.toList.head?, c ∈ special → c = '/' := by decide
  obtain ⟨op, hop, rfl⟩ := (isOperator_iff s).1 h
  exact hall op hop

theorem opensComment_of_kindAt {c : Char} {next : Option Char}
    (h : kindAt c next = .lineComment ∨ kindAt c next = .blockComment) :
    opensComment c next = true := by
  by_contra hc
  have hc : ¬ (c = '/' ∧ (next = some '/' ∨ next = some '*')) := by simpa [opensComment] using hc
  have h1 : ¬ (c = '/' ∧ next = some '/') := fun hs => hc ⟨hs.1, Or.inl hs.2⟩
  have h2 : ¬ (c = '/' ∧ next = some '*') := fun hs => hc ⟨hs.1, Or.inr hs.2⟩
  unfold kindAt at h
  rw [if_neg h1, if_neg h2] at h
  split_ifs at h <;> simp_all

theorem starts_of_kindAt {k : Kind} {c : Char} {next : Option Char} (h : kindAt c next = k) :
    (k = .word → isWordStart c = true) ∧ (k = .number → isDigit c = true ∨ c = '.') ∧
      (k = .punctuation → isQuote c = false) := by
  refine ⟨?_, ?_, ?_⟩ <;> rintro rfl <;> unfold kindAt at h <;> split_ifs at h <;> simp_all
  tauto

theorem announced {k : Kind} {c : Char} {u rest : List Char} (h : Stands ⟨k, c :: u⟩ rest)
    (hk : (Token.mk k (c :: u)).isLiteral = true ∨ (Token.mk k (c :: u)).isComment = true) :
    (isQuote c || opensComment c (u ++ rest).head?) = true := by
  have hkind := ((stands_iff k c u rest).1 h).1
  rw [Bool.or_eq_true]
  rcases hk with hk | hk
  · have hk : k = .stringLiteral ∨ k = .templateLiteral := by simpa [Token.isLiteral] using hk
    exact Or.inl (isQuote_of_literal h hk)
  · have hk : k = .lineComment ∨ k = .blockComment := by simpa [Token.isComment] using hk
    rw [← hkind] at hk
    exact Or.inr (opensComment_of_kindAt hk)

/-- no token between landmarks holds a character that the walk minds -/
theorem not_special_of_stands {k : Kind} {c : Char} {u : List Char} (h : Stands ⟨k, c :: u⟩ [])
    (hk : k = .whitespace ∨ k = .word ∨ k = .number) : ∀ d ∈ c :: u, d ∉ special := by
  obtain ⟨hword, hnumber, -⟩ := starts_of_kindAt ((stands_iff k c u []).1 h).1
  rcases hk with rfl | rfl | rfl
  · exact fun d hd => not_special_of_blank (isBlank_of_whitespace h rfl d hd)
  · intro d hd
    rcases List.mem_cons.1 hd with rfl | hd
    · have hs := hword rfl
      refine not_special_of_wordPart ?_
      simp only [isWordStart, Bool.or_eq_true] at hs
      simp only [isWordPart, Bool.or_eq_true]
      tauto
    · exact not_special_of_wordPart (wordPart_of_word h d hd)
  · intro d hd
    rcases List.mem_cons.1 hd with rfl | hd
    · refine @not_special_of_numberPart ' ' _ ?_
      rcases hnumber rfl with hs | rfl
      · simp [isNumberPart, isAlnum, hs]
      · decide
    · obtain ⟨b, hb⟩ := numberPart_of_number h d hd
      exact not_special_of_numberPart hb

/-! ### The walk reads tokens -/

/-- a slash does not open a comment with the text behind it -/
def slashAlone (t : Token) (next : Option Char) : Prop :=
  t.text = ['/'] → opensComment '/' next = false

theorem isFence_iff (k : Kind) (c : Char) (u : List Char) :
    (Token.mk k (c :: u)).isFence = true ↔ k = .punctuation ∧ u = [] ∧ c ∈ fenceChars := by
  have hsingle : ∀ s ∈ fences, s.toList = [s.toList.headD ' '] := by decide
  simp only [Token.isFence, Token.isMarkOf, Token.isMark, List.any_eq_true, Bool.and_eq_true,
    decide_eq_true_eq, fenceChars, List.mem_flatMap]
  constructor
  · rintro ⟨s, hs, hk, ht⟩
    rw [hsingle s hs] at ht
    obtain ⟨rfl, rfl⟩ := List.cons.inj ht
    refine ⟨hk, rfl, s, hs, ?_⟩
    rw [hsingle s hs]
    exact List.mem_singleton_self _
  · rintro ⟨hk, rfl, s, hs, hc⟩
    refine ⟨s, hs, hk, ?_⟩
    rw [hsingle s hs] at hc ⊢
    rw [List.mem_singleton.1 hc]

theorem marks_read {k : Kind} {c : Char} {u rest : List Char} (h : Stands ⟨k, c :: u⟩ rest)
    (hc : (isQuote c || opensComment c (u ++ rest).head?) = true) :
    marks (c :: u ++ rest) = ⟨k, c :: u⟩ :: marks rest := by
  obtain ⟨hk, hs⟩ := (stands_iff k c u rest).1 h
  have hspan : firstSpan c (u ++ rest) = (k, u, rest) := by rw [firstSpan_eq, hk, hs]
  rw [List.cons_append, marks_taken hc, firstToken, hspan]

theorem isLandmark_eq_false {k : Kind} {c : Char} {u : List Char}
    (hl : k ≠ .stringLiteral ∧ k ≠ .templateLiteral) (hf : ¬ (k = .punctuation ∧ u = [] ∧ c ∈ fenceChars)) :
    (Token.mk k (c :: u)).isLandmark = false := by
  have h1 : (Token.mk k (c :: u)).isFence = false := by
    by_contra h
    exact hf ((isFence_iff k c u).1 (by simpa using h))
  simp [Token.isLandmark, Token.isLiteral, hl, h1]

theorem marks_operator {c : Char} {u : List Char} (h : Stands ⟨.punctuation, c :: u⟩ [])
    (hu : u ≠ []) (rest : List Char) : marks (c :: u ++ rest) = marks rest := by
  have hop := (isOperator_of_punctuation h).resolve_left hu
  obtain ⟨hafter, hhead⟩ := special_of_isOperator hop
  have htail : ∀ d ∈ u, d ∉ special := hafter
  rw [List.cons_append]
  by_cases hc : c ∈ special
  · obtain rfl := hhead c rfl hc
    have hopen : opensComment '/' (u ++ rest).head? = false := by
      rw [List.head?_append_of_ne_nil _ hu]
      by_contra ho
      have hk := ((stands_iff .punctuation '/' u []).1 h).1
      obtain ⟨d, v, rfl⟩ := List.exists_cons_of_ne_nil hu
      have hd : d = '/' ∨ d = '*' := by simpa [opensComment, or_iff_not_imp_left] using ho
      have hk : kindAt '/' (some d) = .punctuation := hk
      rcases hd with rfl | rfl
      · rw [kindAt_slash_slash] at hk
        cases hk
      · rw [kindAt_slash_star] at hk
        cases hk
    rw [marks_slash hopen, marks_append htail]
  · rw [marks_plain hc, marks_append htail]

theorem marks_mark {c : Char} {rest : List Char} (h : Stands ⟨.punctuation, [c]⟩ [])
    (hc : c ∉ fenceChars) (hslash : slashAlone ⟨.punctuation, [c]⟩ rest.head?) :
    marks (c :: rest) = marks rest := by
  by_cases he : c = '/'
  · subst he
    exact marks_slash (hslash rfl)
  · have hq := (starts_of_kindAt ((stands_iff .punctuation c [] []).1 h).1).2.2 rfl
    refine marks_plain ?_ rest
    simp only [isQuote, Bool.or_eq_false_iff, decide_eq_false_iff_not] at hq
    simp [special, he, hc, hq]

/-- the walk takes a token that is cut off before the rest, if it is one of those that it minds,
and passes over it otherwise -/
theorem marks_text {t : Token} {rest : List Char} (ht : Stands t [])
    (hread : t.isLiteral = true ∨ t.isComment = true → Stands t rest)
    (hslash : slashAlone t rest.head?) :
    marks (t.text ++ rest) = [t].filter (fun t => t.isLandmark || t.isComment) ++ marks rest := by
  obtain ⟨k, c, u, rfl⟩ := ht.exists_cons
  show marks (c :: u ++ rest) = _
  by_cases htaken : (Token.mk k (c :: u)).isLiteral = true ∨ (Token.mk k (c :: u)).isComment = true
  · rw [marks_read (hread htaken) (announced (hread htaken) htaken)]
    rcases htaken with h | h <;> simp [Token.isLandmark, h]
  by_cases hf : k = .punctuation ∧ u = [] ∧ c ∈ fenceChars
  · have h1 := (isFence_iff k c u).2 hf
    obtain ⟨rfl, rfl, hc⟩ := hf
    rw [List.singleton_append, marks_fence hc]
    simp [Token.isLandmark, h1]
  have hcomment : (Token.mk k (c :: u)).isComment = false := by
    by_contra h
    exact htaken (Or.inr (by simpa using h))
  have hlandmark : (Token.mk k (c :: u)).isLandmark = false := by
    refine isLandmark_eq_false ⟨?_, ?_⟩ hf
    · rintro rfl
      exact htaken (Or.inl rfl)
    · rintro rfl
      exact htaken (Or.inl rfl)
  have hpass : marks (c :: u ++ rest) = marks rest := by
    by_cases hk : k = .punctuation
    · subst hk
      by_cases hu : u = []
      · subst hu
        exact marks_mark ht (fun hc => hf ⟨rfl, rfl, hc⟩) hslash
      · exact marks_operator ht hu rest
    · refine marks_append (not_special_of_stands ht ?_) rest
      cases k <;> simp_all [Token.isComment, Token.isLiteral]
  rw [hpass]
  simp [hlandmark, hcomment]

theorem slashAlone_of_stands {t : Token} {rest : List Char} (h : Stands t rest) :
    slashAlone t rest.head? := by
  intro ht
  cases rest with
  | nil => rfl
  | cons d z =>
    have hstops := (stands_cons_iff h.alone (by rw [ht]; simp)).1 h
    simp only [Token.stopsBefore, Token.changesKind, ht, Bool.and_eq_true, Bool.not_eq_true',
      Bool.or_eq_false_iff] at hstops
    simpa [opensComment] using hstops.2.1

theorem marks_lex (s : List Char) :
    marks s = (lex s).filter (fun t => t.isLandmark || t.isComment) := by
  refine lex_induction (motive := fun s ts => marks s =
    ts.filter (fun t => t.isLandmark || t.isComment)) marks_nil (fun t ts hstands _ ih => ?_) s
  rw [marks_text hstands.alone (fun _ => hstands) (slashAlone_of_stands hstands), ih,
    ← List.filter_append, List.singleton_append]

/-! ### Clean tokens that keep apart -/

/-- side by side the two do not open a comment -/
def Apart (t u : Token) : Prop := slashAlone t u.text.head?

theorem apart_of_stands {t u : Token} (h : Stands t u.text) : Apart t u := slashAlone_of_stands h

theorem apart_whitespace_left {t : Token} (h : Clean t) (hw : t.isWhitespace = true) (u : Token) :
    Apart t u := by
  intro ht
  have hb := isBlank_of_whitespace h.stands hw '/' (by simp [ht])
  exact absurd hb (by decide)

theorem apart_whitespace_right {u : Token} (h : Clean u) (hw : u.isWhitespace = true) (t : Token) :
    Apart t u := by
  intro _
  obtain ⟨c, v, hc⟩ := List.exists_cons_of_ne_nil h.stands.text_ne_nil
  have hb := isBlank_of_whitespace h.stands hw c (by simp [hc])
  have hall : ∀ c ∈ blanks, c ≠ '/' ∧ c ≠ '*' := by decide
  have hne := hall c (mem_blanks hb)
  simp [opensComment, hc, hne]

theorem stands_literal {t : Token} (h : Clean t) (hl : t.isLiteral = true) (rest : List Char) :
    Stands t rest := by
  cases rest with
  | nil => exact h.stands
  | cons d z =>
    obtain ⟨k, c, u, rfl⟩ := h.stands.exists_cons
    have hk : k = .stringLiteral ∨ k = .templateLiteral := by simpa [Token.isLiteral] using hl
    have hquote := isQuote_of_literal h.stands hk
    have hc : c ≠ '/' ∧ c ≠ '.' := by
      constructor <;> rintro rfl <;> exact absurd hquote (by decide)
    refine (stands_cons_iff h.stands (fun hd => hc.2 (List.cons.inj hd.1).1)).2 ?_
    have hclosed := h.closed
    have hcut : (Token.mk k (c :: u)).cutBefore d = true := by
      rcases hk with rfl | rfl <;> exact hclosed
    simp [Token.stopsBefore, hcut, Token.changesKind, hc.1, hc.2]

/-- the walk over the text of clean tokens finds the landmarks among them, whatever the text is cut
into when it is read again -/
theorem marks_render {ts : List Token} (h : ∀ t ∈ ts, Clean t) (hapart : ts.IsChain Apart) :
    marks (render ts) = ts.filter Token.isLandmark := by
  induction ts with
  | nil => exact marks_nil
  | cons t ts ih =>
    have ht := h t List.mem_cons_self
    have hrest := fun u hu => h u (List.mem_cons_of_mem t hu)
    have hslash : slashAlone t (render ts).head? := by
      cases ts with
      | nil => exact fun _ => rfl
      | cons u us =>
        rw [render_cons, List.head?_append_of_ne_nil _ (hrest u List.mem_cons_self).stands.text_ne_nil]
        exact (List.isChain_cons_cons.1 hapart).1
    have hread : t.isLiteral = true ∨ t.isComment = true → Stands t (render ts) := by
      rintro (hl | hc)
      · exact stands_literal ht hl _
      · rw [ht.noComment] at hc
        cases hc
    rw [render_cons, marks_text ht.stands hread hslash, ih hrest hapart.tail, List.filter_cons,
      List.filter_cons]
    cases hl : t.isLandmark <;> simp [ht.noComment]

/-- clean tokens that keep apart are printed as a script of clean tokens with the same landmarks -/
theorem lex_render_clean {ts : List Token} (h : ∀ t ∈ ts, Clean t) (hapart : ts.IsChain Apart) :
    (∀ t ∈ lex (render ts), Clean t) ∧
      (lex (render ts)).filter Token.isLandmark = ts.filter Token.isLandmark := by
  have hmarks := marks_render h hapart
  rw [marks_lex] at hmarks
  have hsource : ∀ t ∈ lex (render ts), t.isLandmark = true ∨ t.isComment = true → t ∈ ts := by
    intro t ht hm
    have hin : t ∈ (lex (render ts)).filter (fun t => t.isLandmark || t.isComment) :=
      List.mem_filter.2 ⟨ht, by simpa using hm⟩
    rw [hmarks] at hin
    exact List.mem_of_mem_filter hin
  have hcomment : ∀ t ∈ lex (render ts), t.isComment = false := by
    intro t ht
    by_contra hc
    have hc : t.isComment = true := by simpa using hc
    rw [(h t (hsource t ht (Or.inr hc))).noComment] at hc
    cases hc
  refine ⟨fun t ht => ⟨stands_of_mem_lex ht, ?_, hcomment t ht⟩, ?_⟩
  · by_cases hl : t.isLiteral = true
    · exact (h t (hsource t ht (Or.inl (by simp [Token.isLandmark, hl])))).closed
    · have hc := hcomment t ht
      unfold Token.isClosed
      cases hk : t.kind <;> simp_all [Token.isLiteral, Token.isComment]
  · rw [← hmarks]
    refine List.filter_congr (fun t ht => ?_)
    rw [hcomment t ht, Bool.or_false]

end EffectFusion.Script
