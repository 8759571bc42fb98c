import EffectFusion.Proofs.Script.Blanks
import EffectFusion.Proofs.Script.Rewrites

/-!
# Neighbours through the passes

A pass prints its list of tokens, so what is read afterwards hangs on which tokens stand side by
side in that list.  The passes over trivia bring two tokens together only where nothing but trivia
was between them and white space is not needed.  `Spaced R` says of two neighbours that one of them
is white space or that `R` holds between them.

* `filter_withoutComments` …   the passes over trivia change trivia only;
* `spaced_withoutComments` …   and bring only such tokens together as were neighbours before,
                               or as glue cleanly;
* `isChain_shortenedAll`       shorter words are neighbours as the words were.
-/

namespace EffectFusion.Script

/-! ### Trivia only -/

theorem mem_withoutComments {b : Bool} {ts : List Token} {u : Token}
    (h : u ∈ withoutComments b ts) :
    (u ∈ ts ∧ u.isComment = false) ∨ u = .space ∨ u = .lineBreak := by
  induction ts generalizing b with
  | nil => cases h
  | cons t ts ih =>
    have hrest : ∀ c, u ∈ withoutComments c ts →
        (u ∈ t :: ts ∧ u.isComment = false) ∨ u = .space ∨ u = .lineBreak :=
      fun c hc => (ih hc).imp_left (fun hu => ⟨List.mem_cons_of_mem t hu.1, hu.2⟩)
    cases hc : t.isComment with
    | false =>
      rw [withoutComments_token hc] at h
      rcases List.mem_cons.1 h with rfl | h
      · exact Or.inl ⟨List.mem_cons_self, hc⟩
      · exact hrest _ h
    | true =>
      rcases withoutComments_comment hc b ts with ⟨w, hw, -, he⟩ | ⟨-, -, he⟩
      · rw [he] at h
        rcases List.mem_cons.1 h with rfl | h
        · exact Or.inr hw
        · exact hrest _ h
      · rw [he] at h
        exact hrest _ h

section Trivia

variable {p : Token → Bool}

theorem filter_withoutComments (hp : ∀ t : Token, t.isTrivia = true → p t = false) (b : Bool)
    (ts : List Token) : (withoutComments b ts).filter p = ts.filter p := by
  induction ts generalizing b with
  | nil => rfl
  | cons t ts ih =>
    cases hc : t.isComment with
    | false => rw [withoutComments_token hc, List.filter_cons, List.filter_cons, ih]
    | true =>
      have ht : ¬ p t = true := by simp [hp t (isTrivia_of_isComment hc)]
      rw [List.filter_cons_of_neg ht]
      rcases withoutComments_comment hc b ts with ⟨w, hw, -, he⟩ | ⟨-, -, he⟩
      · have hpw : ¬ p w = true := by
          simp [hp w (isTrivia_of_isWhitespace (isWhitespace_of_single hw))]
        rw [he, List.filter_cons_of_neg hpw, ih]
      · rw [he, ih]

theorem filter_eq_nil_of_whitespace (hp : ∀ t : Token, t.isTrivia = true → p t = false)
    {ts : List Token} (h : ∀ t ∈ ts, t.isWhitespace = true) : ts.filter p = [] := by
  refine List.filter_eq_nil_iff.2 (fun t ht => ?_)
  rw [hp t (by simp [Token.isTrivia, h t ht])]
  exact Bool.false_ne_true

theorem filter_trimmed (hp : ∀ t : Token, t.isTrivia = true → p t = false) (ts : List Token) :
    (trimmed ts).filter p = ts.filter p := by
  obtain ⟨before, after, hb, ha, he⟩ := eq_trimmed_append ts
  conv_rhs => rw [he]
  rw [List.filter_append, List.filter_append, filter_eq_nil_of_whitespace hp hb,
    filter_eq_nil_of_whitespace hp ha, List.nil_append, List.append_nil]

theorem collapsed_of_not_whitespace {t : Token} (h : t.isWhitespace = false) : collapsed t = t := by
  simp [collapsed, h]

theorem filter_map_collapsed (hp : ∀ t : Token, t.isTrivia = true → p t = false)
    (ts : List Token) : (ts.map collapsed).filter p = ts.filter p := by
  induction ts with
  | nil => rfl
  | cons t ts ih =>
    rw [List.map_cons, List.filter_cons, List.filter_cons, ih]
    cases hw : t.isWhitespace with
    | false => rw [collapsed_of_not_whitespace hw]
    | true =>
      have h1 : p t = false := hp t (by simp [Token.isTrivia, hw])
      have h2 : p (collapsed t) = false :=
        hp _ (by simp [Token.isTrivia, isWhitespace_collapsed, hw])
      simp [h1, h2]

theorem isWhitespace_separator {q t n gap : Token} (hw : t.isWhitespace = true)
    (h : separator? q t n = some gap) : gap.isWhitespace = true := by
  rw [eq_collapsed_of_separator h, isWhitespace_collapsed, hw]

theorem filter_tightened (hp : ∀ t : Token, t.isTrivia = true → p t = false)
    (before : Option Token) (ts : List Token) :
    (tightened before ts).filter p = ts.filter p := by
  have hwhite : ∀ t : Token, t.isWhitespace = true → p t = false :=
    fun t ht => hp t (by simp [Token.isTrivia, ht])
  induction ts generalizing before with
  | nil => rfl
  | cons t ts ih =>
    rw [List.filter_cons]
    cases hw : t.isWhitespace with
    | false => rw [tightened_token hw, List.filter_cons, ih]
    | true =>
      rw [hwhite t hw, if_neg Bool.false_ne_true]
      cases before with
      | none => rw [tightened_start hw, ih]
      | some q =>
        cases ts with
        | nil => rw [tightened_end hw]
        | cons n ts =>
          rw [tightened_gap hw]
          cases hs : separator? q t n with
          | none => exact ih (some q)
          | some gap =>
            have hgap := hwhite gap (isWhitespace_separator hw hs)
            show (gap :: tightened (some gap) (n :: ts)).filter p = _
            rw [List.filter_cons, hgap, if_neg Bool.false_ne_true, ih]

theorem filter_withoutSpaces (hp : ∀ t : Token, t.isTrivia = true → p t = false)
    (ts : List Token) : (withoutSpaces ts).filter p = ts.filter p := by
  rw [withoutSpaces, List.filter_filter]
  refine List.filter_congr (fun t _ => ?_)
  cases hw : t.isWhitespace with
  | false => simp
  | true =>
    have ht : p t = false := hp t (by simp [Token.isTrivia, hw])
    simp [ht]

theorem filter_respaced (hspace : p .space = false) (ts : List Token) :
    (respaced ts).filter p = ts.filter p := by
  fun_induction respaced ts with
  | case1 => rfl
  | case2 => rfl
  | case3 t u rest _ ih =>
    rw [List.filter_cons, List.filter_cons, hspace, if_neg Bool.false_ne_true, ih]
    exact (List.filter_cons).symm
  | case4 t u rest _ ih =>
    rw [List.filter_cons, ih]
    exact (List.filter_cons).symm

end Trivia

/-! ### Side by side -/

/-- one of the two is white space or `R` holds between them -/
def Spaced (R : Token → Token → Prop) (t u : Token) : Prop :=
  t.isWhitespace = true ∨ u.isWhitespace = true ∨ R t u

section Spaced

variable {R : Token → Token → Prop} {ts : List Token}

theorem spaced_left {t : Token} (h : t.isWhitespace = true) (u : Token) : Spaced R t u := Or.inl h

theorem spaced_right {u : Token} (h : u.isWhitespace = true) (t : Token) : Spaced R t u :=
  Or.inr (Or.inl h)

/-- `q` was printed last; it stands where a token that is no comment may follow it -/
theorem spaced_cons_withoutComments (h : ts.IsChain (Spaced R)) (q : Token)
    (hq : ∀ t ∈ ts.head?, t.isComment = false → Spaced R q t) :
    (q :: withoutComments q.isWhitespace ts).IsChain (Spaced R) := by
  induction ts generalizing q with
  | nil => exact List.isChain_singleton q
  | cons t ts ih =>
    have ih := ih h.tail
    cases hc : t.isComment with
    | false =>
      rw [withoutComments_token hc]
      exact List.isChain_cons_cons.2 ⟨hq t rfl hc, ih t (fun u hu _ => h.rel_head? hu)⟩
    | true =>
      rcases withoutComments_comment hc q.isWhitespace ts with ⟨w, hw, -, he⟩ | ⟨-, hblank, he⟩
      · have hwhite := isWhitespace_of_single hw
        have hrest := ih w (fun u _ _ => spaced_left hwhite u)
        rw [hwhite] at hrest
        rw [he]
        exact List.isChain_cons_cons.2 ⟨spaced_right hwhite q, hrest⟩
      · rw [he]
        refine ih q (fun u hu _ => ?_)
        rcases hblank with hblank | hblank
        · exact spaced_left hblank u
        · rw [Option.mem_def.1 hu] at hblank
          exact spaced_right hblank q

theorem spaced_withoutComments (h : ts.IsChain (Spaced R)) :
    (withoutComments true ts).IsChain (Spaced R) :=
  (spaced_cons_withoutComments h .space (fun u _ _ => spaced_left rfl u)).tail

theorem spaced_map_collapsed (h : ts.IsChain (Spaced R)) :
    (ts.map collapsed).IsChain (Spaced R) := by
  rw [List.isChain_map]
  refine h.imp (fun t u htu => ?_)
  cases ht : t.isWhitespace with
  | true => exact spaced_left (by rw [isWhitespace_collapsed, ht]) _
  | false =>
    cases hu : u.isWhitespace with
    | true => exact spaced_right (by rw [isWhitespace_collapsed, hu]) _
    | false => rwa [collapsed_of_not_whitespace ht, collapsed_of_not_whitespace hu]

/-- `q` was printed last -/
theorem isChain_cons_tightened (hglue : ∀ t u, gluesCleanly t u = true → R t u)
    (hgap : ∀ t w u, w.isWhitespace = true → R t w → R w u → R t (collapsed w) ∧ R (collapsed w) u)
    (h : ts.IsChain R) (q : Token) (hq : ∀ t ∈ ts.head?, R q t) :
    (q :: tightened (some q) ts).IsChain R := by
  induction ts generalizing q with
  | nil => exact List.isChain_singleton q
  | cons t ts ih =>
    have ih := ih h.tail
    cases hw : t.isWhitespace with
    | false =>
      rw [tightened_token hw]
      exact List.isChain_cons_cons.2 ⟨hq t rfl, ih t (fun u hu => h.rel_head? hu)⟩
    | true =>
      cases ts with
      | nil =>
        rw [tightened_end hw]
        exact List.isChain_singleton q
      | cons n ts =>
        rw [tightened_gap hw]
        cases hs : separator? q t n with
        | none =>
          refine ih q (fun u hu => ?_)
          obtain rfl := Option.some.inj hu
          exact hglue _ _ (glues_of_separator hs)
        | some gap =>
          obtain rfl := eq_collapsed_of_separator hs
          have hkept := hgap q t n hw (hq t rfl) (List.isChain_cons_cons.1 h).1
          refine List.isChain_cons_cons.2 ⟨hkept.1, ih (collapsed t) (fun u hu => ?_)⟩
          obtain rfl := Option.some.inj hu
          exact hkept.2

/-- the third pass keeps what holds of tokens that glue and of white space in any form -/
theorem isChain_tightened (hglue : ∀ t u, gluesCleanly t u = true → R t u)
    (hgap : ∀ t w u, w.isWhitespace = true → R t w → R w u → R t (collapsed w) ∧ R (collapsed w) u)
    (h : ts.IsChain R) : (tightened none ts).IsChain R := by
  induction ts with
  | nil => exact List.IsChain.nil
  | cons t ts ih =>
    cases hw : t.isWhitespace with
    | false =>
      rw [tightened_token hw]
      exact isChain_cons_tightened hglue hgap h.tail t (fun u hu => h.rel_head? hu)
    | true =>
      rw [tightened_start hw]
      exact ih h.tail

theorem spaced_tightened (hglue : ∀ t u, gluesCleanly t u = true → R t u)
    (h : ts.IsChain (Spaced R)) : (tightened none ts).IsChain (Spaced R) := by
  refine isChain_tightened (fun t u hg => Or.inr (Or.inr (hglue t u hg))) (fun t w u hw _ _ => ?_) h
  have hgap : (collapsed w).isWhitespace = true := by rw [isWhitespace_collapsed, hw]
  exact ⟨spaced_right hgap t, spaced_left hgap u⟩

theorem spaced_respaced (hglue : ∀ t u, gluesCleanly t u = true → R t u) (ts : List Token) :
    (respaced ts).IsChain (Spaced R) := by
  have hhead : ∀ (u : Token) (rest : List Token), ∃ more, respaced (u :: rest) = u :: more := by
    intro u rest
    cases rest with
    | nil => exact ⟨[], rfl⟩
    | cons v rest =>
      rw [respaced]
      split
      · exact ⟨_, rfl⟩
      · exact ⟨_, rfl⟩
  fun_induction respaced ts with
  | case1 => exact List.IsChain.nil
  | case2 t => exact List.isChain_singleton t
  | case3 t u rest _ ih =>
    obtain ⟨more, he⟩ := hhead u rest
    rw [he] at ih ⊢
    exact List.isChain_cons_cons.2
      ⟨spaced_right rfl t, List.isChain_cons_cons.2 ⟨spaced_left rfl u, ih⟩⟩
  | case4 t u rest hneed ih =>
    obtain ⟨more, he⟩ := hhead u rest
    rw [he] at ih ⊢
    refine List.isChain_cons_cons.2 ⟨?_, ih⟩
    simp only [Bool.and_eq_true, Bool.not_eq_true', not_and, Bool.not_eq_false] at hneed
    cases ht : t.isWhitespace with
    | true => exact spaced_left ht u
    | false =>
      cases hu : u.isWhitespace with
      | true => exact spaced_right hu t
      | false => exact Or.inr (Or.inr (hglue t u (hneed ⟨ht, hu⟩)))

end Spaced

/-! ### Words -/

/-- neighbours among shortened words, from what their neighbours were before -/
theorem isChain_shortenedAll {R S : Token → Token → Prop}
    (hmarks : ∀ b, S (.mark "!") (truthDigit b))
    (hstep : ∀ t u, R t u → ∀ p n t' q m u', (shortened p t n).getLast? = some t' →
      (shortened q u m).head? = some u' → S t' u')
    {ts : List Token} (h : ts.IsChain R) (before : Option Token) :
    (shortenedAll before ts).IsChain S := by
  have hone : ∀ p t n, (shortened p t n).IsChain S := by
    intro p t n
    rcases shortened_cases p t n with he | ⟨a, -, -, he⟩ | ⟨b, -, he⟩
    · rw [he]
      exact List.isChain_singleton t
    · rw [he]
      exact List.isChain_singleton _
    · rw [he]
      exact List.isChain_pair.2 (hmarks b)
  induction ts generalizing before with
  | nil => exact List.IsChain.nil
  | cons t ts ih =>
    rw [shortenedAll, List.isChain_append]
    refine ⟨hone _ _ _, ih h.tail _, fun t' ht' u' hu' => ?_⟩
    cases ts with
    | nil => cases hu'
    | cons u us =>
      rw [shortenedAll, List.head?_append_of_ne_nil _ (shortened_ne_nil _ _ _)] at hu'
      exact hstep t u (List.isChain_cons_cons.1 h).1 _ _ t' _ _ u' ht' hu'

end EffectFusion.Script
