import EffectFusion.Proofs.Script.Layout
import EffectFusion.Proofs.Script.Passes

/-!
# A script after four passes

The first four passes leave a script whose text is read back as the very tokens that were printed,
with short words, and with white space only between tokens that part.  What white space and which
comments it had before does not matter.

* `fits_shortened`   shorter words fit where the words did;
* `tidied`           the tokens after four passes.
-/

namespace EffectFusion.Script

open Text

theorem noPoints_of_orderly {a b : Token} (ha : Stands a []) (hb : Stands b [])
    (h : Orderly a b) : NoPoints a b := by
  rintro ⟨hta, htb⟩
  obtain ⟨k, u⟩ := a
  obtain ⟨l, v⟩ := b
  obtain rfl : u = ['.'] := hta
  obtain rfl : v = ['.'] := htb
  obtain rfl := kind_of_stands_point ha
  obtain rfl := kind_of_stands_point hb
  cases (h.point rfl).1

/-! ### Shorter words fit -/

/-- what the short words and the negation start with -/
def shortStarts : List Char := '!' :: abbreviations.map (fun a => a.2.toList.headD ' ')

/-- what the long words start with -/
def longStarts : List Char :=
  ['t', 'f'] ++ abbreviations.map (fun a => a.1.toList.headD ' ')

theorem stands_short {t : Token} (h : Clean t) {c d : Char} {u : List Char}
    (hs : Stands t (c :: u)) (hc : c ∈ longStarts) (hd : d ∈ shortStarts) (v : List Char) :
    Stands t (d :: v) := by
  have hlong : ∀ c ∈ longStarts, isWordPart c = true ∧ isAlnum c = true ∧ c ≠ '.' := by
    decide
  have hshort : ∀ d ∈ shortStarts, isBlank d = false ∧ isDigit d = false ∧ d ≠ '/' ∧ d ≠ '*' ∧
      d ≠ '.' ∧ ∀ op ∈ operators, d ∉ op.toList.tail := by decide
  obtain ⟨hc1, hc2, hc3⟩ := hlong c hc
  obtain ⟨hd1, hd2, hd3, hd4, hd5, hd6⟩ := hshort d hd
  have hstops := (stands_cons_iff h.stands (by rintro ⟨-, he⟩; exact hc3 he)).1 hs
  refine (stands_cons_iff h.stands (by rintro ⟨-, he⟩; exact hd5 he)).2 ?_
  simp only [Token.stopsBefore, Bool.and_eq_true, Bool.not_eq_true'] at hstops ⊢
  refine ⟨?_, by simp [Token.changesKind, hd2, hd3, hd4]⟩
  have hcut := hstops.1
  have hclosed := h.closed
  have hcomment := h.noComment
  unfold Token.cutBefore at hcut ⊢
  cases hk : t.kind with
  | whitespace => simp [hd1]
  | lineComment => simp [Token.isComment, hk] at hcomment
  | blockComment => exact hclosed
  | stringLiteral => exact hclosed
  | templateLiteral => exact hclosed
  | word => simp [hk, hc1] at hcut
  | number => simp [hk, isNumberPart, hc2] at hcut
  | punctuation =>
    have hop : isOperator (t.text ++ [d]) = false := by
      by_contra hop
      obtain ⟨op, hmem, he⟩ := (isOperator_iff _).1 (by simpa using hop)
      refine hd6 op hmem ?_
      rw [he, List.tail_append_of_ne_nil h.stands.text_ne_nil]
      simp
    simp [hop]

theorem text_of_word {s : String} (h : Stands (.name s) []) :
    (Token.name s).text ≠ ['/'] ∧ (Token.name s).text ≠ ['.'] := by
  have hkind : ∀ c, (Token.name s).text = [c] → kindAt c none = .word := by
    intro c hc
    have hs : Stands ⟨.word, [c]⟩ [] := by
      rw [← hc]
      exact h
    exact ((stands_iff .word c [] []).1 hs).1
  constructor
  · intro he
    cases (hkind '/' he).symm.trans kindAt_slash_none
  · intro he
    cases (hkind '.' he).symm.trans kindAt_point_none

theorem stands_name {s s' : String} {x : List Char} (h : Stands (.name s) x)
    (h' : Stands (.name s') []) : Stands (.name s') x := by
  cases x with
  | nil => exact h'
  | cons d v =>
    have hstops := (stands_cons_iff h.alone (fun he => (text_of_word h.alone).2 he.1)).1 h
    refine (stands_cons_iff h' (fun he => (text_of_word h').2 he.1)).2 ?_
    simp only [Token.stopsBefore, Bool.and_eq_true] at hstops ⊢
    refine ⟨hstops.1, ?_⟩
    simp [Token.changesKind, text_of_word h']

theorem mem_longStarts {x : String × String} (hx : x ∈ abbreviations) :
    ∃ c u, (Token.name x.1).text = c :: u ∧ c ∈ longStarts := by
  have hall : ∀ x ∈ abbreviations, x.1.toList = x.1.toList.headD ' ' :: x.1.toList.tail := by decide
  refine ⟨_, _, hall x hx, List.mem_append_right _ (List.mem_map.2 ⟨x, hx, rfl⟩)⟩

theorem mem_shortStarts {x : String × String} (hx : x ∈ abbreviations) :
    ∃ c u, (Token.name x.2).text = c :: u ∧ c ∈ shortStarts := by
  have hall : ∀ x ∈ abbreviations, x.2.toList = x.2.toList.headD ' ' :: x.2.toList.tail := by decide
  refine ⟨_, _, hall x hx, List.mem_cons_of_mem _ (List.mem_map.2 ⟨x, hx, rfl⟩)⟩

theorem stands_short_name {x : String × String} (hx : x ∈ abbreviations) :
    Stands (.name x.2) [] := by
  have hall : ∀ x ∈ abbreviations, lex (Token.name x.2).text = [.name x.2] := by decide +kernel
  exact (stands_nil_iff _).2 (hall x hx)

/-- the first token written for `u` may follow what `u` may follow -/
theorem stands_shortened_head {t u u' : Token} {p n : Option Token} (ht : Clean t)
    (h : Stands t u.text) (hu : (shortened p u n).head? = some u') : Stands t u'.text := by
  rcases shortened_head hu with rfl | ⟨x, hx, rfl, rfl⟩ | ⟨b, rfl, rfl⟩
  · exact h
  · obtain ⟨c, v, hc, hcm⟩ := mem_longStarts hx
    obtain ⟨d, w, hd, hdm⟩ := mem_shortStarts hx
    rw [hc] at h
    rw [hd]
    exact stands_short ht h hcm hdm w
  · have hstart : ∃ c v, (truthWord b).text = c :: v ∧ c ∈ longStarts := by
      cases b <;> exact ⟨_, _, rfl, by decide⟩
    obtain ⟨c, v, hc, hcm⟩ := hstart
    rw [hc] at h
    exact stands_short ht h hcm List.mem_cons_self []

theorem fits_shortened {t u t' u' : Token} {p n q m : Option Token} (ht : Clean t) (hu : Clean u)
    (h : Fits t u) (ho : t.isTrivia = false → u.isTrivia = false → Orderly t u)
    (ht' : (shortened p t n).getLast? = some t') (hu' : (shortened q u m).head? = some u') :
    Fits t' u' := by
  have hright := stands_shortened_head ht h.1 hu'
  rcases shortened_last ht' with rfl | ⟨x, hx, rfl, rfl⟩ | ⟨b, rfl, rfl⟩
  · refine ⟨hright, fun hp => ?_⟩
    rcases shortened_head hu' with rfl | ⟨x, hx, -, rfl⟩ | ⟨b, -, rfl⟩
    · exact h.2 hp
    · exact (text_of_word (stands_short_name hx)).2 hp.2
    · cases (List.cons.inj hp.2).1
  · have hname := stands_short_name hx
    exact ⟨stands_name hright hname, fun hp => (text_of_word hname).2 hp.1⟩
  · -- after a truth value there is white space or one of few marks
    have hpoint : (truthDigit b).text ≠ ['.'] := by cases b <;> decide
    refine ⟨?_, fun hp => hpoint hp.1⟩
    have hdigit : Clean (truthDigit b) := by
      have hall : ∀ b, lex (truthDigit b).text = [truthDigit b] := by decide +kernel
      exact clean_of_stands ((stands_nil_iff _).2 (hall b)) rfl rfl
    cases hw : u.isTrivia with
    | true =>
      rw [shortened_of_isTrivia hw] at hu'
      obtain rfl : u = u' := Option.some.inj hu'
      rw [isTrivia_eq_isWhitespace hu.noComment] at hw
      have hs := stands_whitespace hdigit rfl hu.stands hw []
      rwa [List.append_nil] at hs
    | false =>
      have hall : ∀ b, ∀ s ∈ truthFollowers, gluesCleanly (truthDigit b) (.mark s) = true := by
        decide +kernel
      obtain ⟨s, hs, rfl⟩ := mem_of_isMarkOf ((ho rfl hw).afterTruth (isTruthWord_truthWord b))
      have hsame : shortened q (.mark s) m = [.mark s] := rfl
      rw [hsame] at hu'
      obtain rfl : .mark s = u' := Option.some.inj hu'
      exact ((gluesCleanly_iff _ _).1 (hall b s hs)).1

/-! ### Four passes -/

section Passes

variable {s : List Char} {S : List Token}

theorem isChain_noPoints_of_orderly (hS : significant (lex s) = S) (ho : S.IsChain Orderly) :
    S.IsChain NoPoints := by
  refine ho.imp_of_mem_imp (fun a b ha hb hab => noPoints_of_orderly ?_ ?_ hab)
  · rw [← hS] at ha
    exact stands_of_mem_lex (mem_significant.1 ha).1
  · rw [← hS] at hb
    exact stands_of_mem_lex (mem_significant.1 hb).1

/-- the tokens that the third pass prints -/
theorem tightened_lex (h : CleanScript s) (hS : significant (lex s) = S) (ho : S.IsChain Orderly) :
    (∀ t ∈ tightened none (lex s), Clean t) ∧
      significant (tightened none (lex s)) = S ∧ (tightened none (lex s)).IsChain Fits ∧
      Laid (fun a b => parts a b = true ∧ Orderly a b) none (tightened none (lex s)) := by
  have hclean := clean_tightened h
  have hcomment : ∀ t ∈ tightened none (lex s), t.isComment = false :=
    fun t ht => (hclean t ht).noComment
  have hsame : significant (tightened none (lex s)) = S := by
    rw [significant, filter_tightened isSignificant_of_isTrivia]
    exact hS
  have hlaid := laid_tightened (isChain_not_whitespace_lex s) none
  refine ⟨hclean, hsame, ?_, ?_⟩
  · have hpoints := isChain_noPoints_of_orderly hS ho
    rw [← hsame] at hpoints
    exact isChain_fits (stands_tightened s) (isChain_stands_tightened s) hpoints
  · rw [← hsame] at ho
    exact (laid_and hlaid hcomment ho).imp (fun a b hab => ⟨parts_of_asked hab.1 hab.2, hab.2⟩)

/-- **Four passes.**  They print clean tokens that are read back, whose words are those of the
script shortened, and between which white space is left only where two tokens part. -/
theorem tidied (hS : significant (lex s) = S)
    (hclosed : ∀ t ∈ S, t.isLiteral = true → t.isClosed = true) (ho : S.IsChain Orderly) :
    ∃ us, abbreviateTokens (normalizePunctuation (collapseWhitespace (stripComments s))) = render us ∧
      lex (render us) = us ∧ (∀ u ∈ us, Clean u) ∧ significant us = shortenedAll none S ∧
      Laid (fun a b => parts a b = true) none us := by
  have hpoints := isChain_noPoints_of_orderly hS ho
  have hliterals := literals_of_significant (hS.symm ▸ hclosed)
  have h1 := (keepsLandmarks_stripComments hliterals).1
  have hS1 := (significant_lex_stripComments s).trans hS
  have h2 := (keepsLandmarks_collapseWhitespace h1).1
  have hS2 := (significant_collapseWhitespace (fun t ht _ => (h1 t ht).closed) (hS1.symm ▸ hpoints)).trans hS1
  obtain ⟨hclean, hsame, hfits, hlaid⟩ := tightened_lex h2 hS2 ho
  have hlex3 := lex_normalizePunctuation (hS2.symm ▸ hpoints)
  have hclean4 : ∀ u ∈ shortenedAll none (tightened none (lex (collapseWhitespace (stripComments s)))),
      Clean u := fun u hu => clean_shortenedAll hclean hu
  refine ⟨shortenedAll none (tightened none (lex (collapseWhitespace (stripComments s)))), ?_, ?_,
    hclean4, ?_, ?_⟩
  · rw [abbreviateTokens, hlex3]
  · refine lex_render_of_fits (fun u hu => (hclean4 u hu).stands) ?_
    have horderly := isChain_of_significant (hsame.symm ▸ ho)
    refine isChain_shortenedAll (fun b => ?_) (fun t u htu p n t' q m u' ht' hu' => ?_)
      ((isChain_and hfits horderly).imp_of_mem_imp (fun a b ha hb hab =>
        (⟨hclean a ha, hclean b hb, hab.1, hab.2⟩ : Clean a ∧ Clean b ∧ Fits a b ∧ _))) none
    · have hall : ∀ b, gluesCleanly (.mark "!") (truthDigit b) = true := by decide +kernel
      exact ⟨((gluesCleanly_iff _ _).1 (hall b)).1, fun hp => by cases (List.cons.inj hp.1).1⟩
    · exact fits_shortened htu.1 htu.2.1 htu.2.2.1 htu.2.2.2 ht' hu'
  · rw [significant_shortenedAll, hsame]
  · exact laid_shortenedAll (fun a b hab => hab) (fun t ht => (hclean t ht).noComment) hlaid
      (fun a ha => by cases ha)

end Passes

end EffectFusion.Script
