import EffectFusion.Proofs.Script.Elisions

/-!
# Five passes as one rewrite of tokens

Each pass reads anew what the one before has printed.  For an orderly script all of them together
do no more than one rewrite of the tokens that matter: words are shortened, then function
expressions become arrow functions, then comparisons with truth values are left out.  The comments
and white space between those tokens have no part in it.

* `refines`   the tokens of a compressed script, and where white space is left in it; no comment is.
-/

namespace EffectFusion.Script

open Text

/-- white space is left between the two because they part or would not stay apart -/
def Kept (a b : Token) : Prop := parts a b = true ∨ gluesCleanly a b = false

instance (a b : Token) : Decidable (Kept a b) := inferInstanceAs (Decidable (_ ∨ _))

theorem head?_respaced (ts : List Token) : (respaced ts).head? = ts.head? := by
  rcases ts with _ | ⟨t, _ | ⟨u, rest⟩⟩
  · rfl
  · rfl
  · rw [respaced]
    split <;> rfl

theorem laid_respaced {p : Option Token} {ts : List Token}
    (h : Laid (fun a b => parts a b = true) p ts) : Laid Kept p (respaced ts) := by
  induction ts generalizing p with
  | nil => trivial
  | cons t ts ih =>
    cases ts with
    | nil => exact h.imp (fun a b hab => Or.inl hab)
    | cons u rest =>
      rw [respaced]
      cases ht : t.isWhitespace with
      | true =>
        obtain ⟨⟨q, n, hq, hn, hnw, hqn⟩, hrest⟩ := (laid_gap ht).1 h
        rw [if_neg (by simp)]
        refine (laid_gap ht).2 ⟨⟨q, n, hq, ?_, hnw, Or.inl hqn⟩, ih hrest⟩
        rw [head?_respaced, hn]
      | false =>
        have hrest := ih ((laid_token ht).1 h)
        split
        · rename_i hneed
          simp only [Bool.and_eq_true, Bool.not_eq_true', Bool.not_false, true_and] at hneed
          refine (laid_token ht).2 ((laid_gap rfl).2 ⟨⟨t, u, rfl, ?_, hneed.1, Or.inr hneed.2⟩, hrest⟩)
          rw [head?_respaced]
          rfl
        · exact (laid_token ht).2 hrest

/-- what the passes make of the tokens that matter -/
def rewritten (ts : List Token) : List Token := elided [] (arrowed none (shortenedAll none ts))

theorem noPoints_shortenedAll {S : List Token} (h : S.IsChain NoPoints) :
    (shortenedAll none S).IsChain NoPoints := by
  have hnames : ∀ x ∈ abbreviations, (Token.name x.2).text ≠ ['.'] := by decide
  have hdigit : ∀ b, (truthDigit b).text ≠ ['.'] := by decide
  refine isChain_shortenedAll (fun b => noPoints_left (by decide) _) ?_ h none
  intro t u htu p n t' q m u' ht' hu'
  rcases shortened_last ht' with rfl | ⟨x, hx, -, rfl⟩ | ⟨b, -, rfl⟩
  · rcases shortened_head hu' with rfl | ⟨x, hx, -, rfl⟩ | ⟨b, -, rfl⟩
    · exact htu
    · exact noPoints_right (hnames x hx) _
    · exact noPoints_right (by decide) _
  · exact noPoints_left (hnames x hx) _
  · exact noPoints_left (hdigit b) _

theorem isChain_fits_of_spaced {ts : List Token} (h : ts.IsChain (Spaced Fits))
    (hclean : ∀ t ∈ ts, Clean t)
    (hlaid : ts.IsChain (fun a b => ¬ (a.isWhitespace = true ∧ b.isWhitespace = true))) :
    ts.IsChain Fits := by
  refine (isChain_and h hlaid).imp_of_mem_imp (fun a b ha hb hab => ?_)
  have hfits := fits_iff_of_whitespace (hclean a ha) (hclean b hb)
  rcases hab.1 with hw | hw | hs
  · exact (hfits (Or.inl hw)).2 hab.2
  · exact (hfits (Or.inr hw)).2 hab.2
  · exact hs

/-- **Five passes as one.**  `S` are the tokens that matter of an orderly script. -/
theorem refines {s : List Char} {S : List Token} (hS : significant (lex s) = S)
    (hclosed : ∀ t ∈ S, t.isLiteral = true → t.isClosed = true) (ho : S.IsChain Orderly) :
    significant (lex (throughAll passes s)) = rewritten S ∧
      Laid Kept none (lex (throughAll passes s)) ∧
      ∀ t ∈ lex (throughAll passes s), t.isComment = false := by
  obtain ⟨us, hprint, hlex, hclean, hwords, hlaid⟩ := tidied hS hclosed ho
  have hcode : throughAll passes s = reformulate (render us) := by
    rw [← hprint]
    rfl
  have hspaces : ∀ t ∈ withoutSpaces us, Clean t := fun t ht => hclean t (List.mem_of_mem_filter ht)
  have hcomment : ∀ ts : List Token, (∀ t ∈ ts, Clean t) → ∀ t ∈ ts, t.isComment = false :=
    fun ts h t ht => (h t ht).noComment
  have harrow : ∀ t ∈ arrowed none (withoutSpaces us), t.isComment = false :=
    forall_mem_arrowed (P := fun t => t.isComment = false) rfl (hcomment _ hspaces) none
  obtain ⟨hsame, hlaid⟩ :=
    elided_laid harrow (laid_arrowed (hcomment _ hspaces) (laid_withoutSpaces hlaid))
  have hS' : significant (elided [] (arrowed none (withoutSpaces us))) = rewritten S := by
    have hus : significant (withoutSpaces us) = significant us :=
      filter_withoutSpaces isSignificant_of_isTrivia us
    rw [hsame, significant_arrowed, hus, hwords, rewritten]
  have hclean := @clean_rewritten none _ hspaces
  have hsignificant : significant (respaced (elided [] (arrowed none (withoutSpaces us)))) =
      rewritten S := by
    rw [significant, filter_respaced (isSignificant_of_isTrivia _ rfl)]
    exact hS'
  have hkept := laid_respaced hlaid
  -- the last pass is read back as it was printed
  have hpoints := isChain_noPoints_of_orderly hS ho
  have hpoints' : (rewritten S).IsChain NoPoints :=
    noPoints_elided (noPoints_arrowed (noPoints_shortenedAll hpoints) none)
  rw [← hsignificant] at hpoints'
  have hglue : ∀ t u, gluesCleanly t u = true → Stands t u.text :=
    fun t u hg => ((gluesCleanly_iff t u).1 hg).1
  have hfits := isChain_fits_of_spaced
    (spaced_fits (fun t ht => (hclean t ht).stands) (spaced_respaced hglue _) hpoints') hclean
    hkept.isChain
  have hread := lex_render_of_fits (fun t ht => (hclean t ht).stands) hfits
  have hfinal : lex (throughAll passes s) =
      respaced (elided [] (arrowed none (withoutSpaces us))) := by
    rw [hcode, reformulate, hlex, hread]
  rw [hfinal]
  exact ⟨hsignificant, hkept, fun t ht => (hclean t ht).noComment⟩

end EffectFusion.Script
