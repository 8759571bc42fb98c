import EffectFusion.Proofs.Script.Landmarks
import EffectFusion.Proofs.Script.Neighbours

/-!
# No pass touches a landmark

Each pass prints clean tokens that keep apart and have the landmarks of the script that it read,
so the landmarks of what it printed are the same (`lex_render_clean`).  The first pass leaves no
comment, and all that is closed at the start stays closed.

* `mem_arrowed`, `mem_elided`   the rewrites write nothing of their own but `=>` and `!`;
* `forall_mem_rewritten`        so what holds of these and of all tokens before holds of all after;
* `KeepsLandmarks`              what is shown of each pass;
* `compress_keeps_landmarks`    the landmarks of a compressed script.
-/

namespace EffectFusion.Script

open Text

/-! ### What the rewrites write -/

theorem mem_arrowed {before : Option Token} {ts : List Token} {u : Token}
    (h : u ∈ arrowed before ts) : u ∈ ts ∨ u = .mark "=>" := by
  fun_induction arrowed before ts with
  | case1 => cases h
  | case2 before t rest v rest' ha ih =>
    have hmem : u ∈ v :: rest' ∨ u = .mark "=>" := by
      rcases List.mem_cons.1 h with rfl | h
      · exact Or.inl List.mem_cons_self
      · exact (ih h).imp_left (List.mem_cons_of_mem v)
    rcases hmem with hmem | harrow
    · exact (mem_arrow ha hmem).imp_left (List.mem_cons_of_mem t)
    · exact Or.inr harrow
  | case3 before t rest _ ih =>
    rcases List.mem_cons.1 h with rfl | h
    · exact Or.inl List.mem_cons_self
    · exact (ih h).imp_left (List.mem_cons_of_mem t)

theorem mem_elided {done ts : List Token} {u : Token} (h : u ∈ elided done ts) :
    u ∈ done ∨ u ∈ ts ∨ u = .mark "!" := by
  fun_induction elided done ts with
  | case1 done => exact Or.inl (List.mem_reverse.1 h)
  | case2 done t rest done' rest' he ih =>
    obtain ⟨negated, value, chain, before, literal, -, -, hdone, hrest, -, -, -, hdone'⟩ :=
      elision?_eq_some he
    have hmem := ih h
    have hnot : ∀ v ∈ (if value = negated then [Token.mark "!"] else []), v = .mark "!" := by
      intro v hv
      split at hv
      · exact List.mem_singleton.1 hv
      · cases hv
    rw [hdone'] at hmem
    rw [hdone, hrest]
    simp only [List.mem_append, List.mem_cons] at hmem ⊢
    rcases hmem with (hc | hn | hb) | hmem | hu
    · tauto
    · exact Or.inr (Or.inr (hnot u hn))
    · tauto
    · tauto
    · tauto
  | case3 done t rest _ ih =>
    have hmem := ih h
    simp only [List.mem_cons] at hmem ⊢
    tauto

section Written

variable {P : Token → Prop} {ts : List Token}

theorem forall_mem_arrowed (harrow : P (.mark "=>")) (h : ∀ t ∈ ts, P t) (before : Option Token) :
    ∀ u ∈ arrowed before ts, P u := by
  intro u hu
  rcases mem_arrowed hu with hu | rfl
  · exact h u hu
  · exact harrow

theorem forall_mem_elided (hnot : P (.mark "!")) (h : ∀ t ∈ ts, P t) : ∀ u ∈ elided [] ts, P u := by
  intro u hu
  rcases mem_elided hu with hu | hu | rfl
  · cases hu
  · exact h u hu
  · exact hnot

/-- what holds of all tokens still does after both rewrites if it holds of two marks -/
theorem forall_mem_rewritten (harrow : P (.mark "=>")) (hnot : P (.mark "!")) (h : ∀ t ∈ ts, P t)
    (before : Option Token) : ∀ u ∈ elided [] (arrowed before ts), P u :=
  forall_mem_elided hnot (forall_mem_arrowed harrow h before)

theorem forall_mem_respaced (hspace : P .space) (h : ∀ t ∈ ts, P t) : ∀ u ∈ respaced ts, P u := by
  fun_induction respaced ts with
  | case1 => exact h
  | case2 => exact h
  | case3 t v rest _ ih =>
    exact List.forall_mem_cons.2 ⟨h t List.mem_cons_self, List.forall_mem_cons.2
      ⟨hspace, ih (fun u hu => h u (List.mem_cons_of_mem t hu))⟩⟩
  | case4 t v rest _ ih =>
    exact List.forall_mem_cons.2 ⟨h t List.mem_cons_self,
      ih (fun u hu => h u (List.mem_cons_of_mem t hu))⟩

end Written

/-! ### Landmarks among them -/

theorem isLandmark_name (text : String) : (Token.name text).isLandmark = false := by
  simp [Token.isLandmark, Token.isLiteral, Token.isFence, Token.isMarkOf, Token.isMark, Token.name]

theorem isLandmark_of_isTrivia {t : Token} (h : t.isTrivia = true) : t.isLandmark = false := by
  obtain ⟨k, text⟩ := t
  cases k <;> simp_all [Token.isTrivia, Token.isWhitespace, Token.isComment, Token.isLandmark,
    Token.isLiteral, Token.isFence, Token.isMarkOf, Token.isMark]

theorem filter_gap {gap : List Token} (h : ∀ t ∈ gap, t.isTrivia = true) :
    gap.filter Token.isLandmark = [] := by
  refine List.filter_eq_nil_iff.2 (fun t ht => ?_)
  rw [isLandmark_of_isTrivia (h t ht)]
  exact Bool.false_ne_true

theorem filter_shortenedAll (before : Option Token) (ts : List Token) :
    (shortenedAll before ts).filter Token.isLandmark = ts.filter Token.isLandmark := by
  induction ts generalizing before with
  | nil => rfl
  | cons t ts ih =>
    have hmarks : ∀ b, (truthMarks b).filter Token.isLandmark = [] := by decide
    have ht : (shortened before t (significant? ts)).filter Token.isLandmark =
        [t].filter Token.isLandmark := by
      rcases shortened_cases before t (significant? ts) with he | ⟨a, -, rfl, he⟩ | ⟨b, rfl, he⟩
      · rw [he]
      · rw [he]
        simp [isLandmark_name]
      · rw [he, hmarks]
        simp [truthWord, isLandmark_name]
    rw [shortenedAll, List.filter_append, ih, ht, ← List.filter_append, List.singleton_append]

theorem filter_arrowed (before : Option Token) (ts : List Token) :
    (arrowed before ts).filter Token.isLandmark = ts.filter Token.isLandmark := by
  fun_induction arrowed before ts with
  | case1 => rfl
  | case2 before t rest u rest' ha ih =>
    obtain ⟨rfl, -, gap, parameters, gap', body, tail, hgap, hgap', hrest, hout, -⟩ :=
      arrow?_eq_some ha
    have harrow : (Token.mark "=>").isLandmark = false := by decide
    simp only [dite_eq_ite] at ih
    have hstep : (u :: arrowed (if u.isTrivia then before else some u) rest').filter Token.isLandmark
        = (u :: rest').filter Token.isLandmark := by
      rw [List.filter_cons, ih]
      exact (List.filter_cons).symm
    rw [hstep, hout, hrest]
    simp [isLandmark_name, harrow, filter_gap hgap, filter_gap hgap']
  | case3 before t rest _ ih =>
    simp only [dite_eq_ite] at ih
    rw [List.filter_cons, ih]
    exact (List.filter_cons).symm

theorem filter_elided (done ts : List Token) :
    (elided done ts).filter Token.isLandmark = (done.reverse ++ ts).filter Token.isLandmark := by
  fun_induction elided done ts with
  | case1 done => rw [List.append_nil]
  | case2 done t rest done' rest' he ih =>
    obtain ⟨negated, value, chain, before, literal, hc, hl, hdone, hrest, -, -, -, hdone'⟩ :=
      elision?_eq_some he
    have ht : t.isLandmark = false := by
      rcases comparison?_eq_some hc with rfl | rfl <;> cases negated <;> decide
    have hliteral : literal.filter Token.isLandmark = [] := by
      have hall : ∀ b, ∀ l ∈ spellings b, l.filter Token.isLandmark = [] := by decide
      exact hall value literal hl
    have hnot : (if value = negated then [Token.mark "!"] else []).filter Token.isLandmark = [] := by
      split
      · decide
      · rfl
    rw [ih, hdone', hdone, hrest]
    simp [ht, hliteral, hnot]
  | case3 done t rest _ ih =>
    rw [ih]
    simp

/-! ### One pass -/

def landmarks (s : List Char) : List Token := (lex s).filter Token.isLandmark

def CleanScript (s : List Char) : Prop := ∀ t ∈ lex s, Clean t

/-- on this script the pass leaves a clean script with the same landmarks -/
def KeepsLandmarks (pass : List Char → List Char) (s : List Char) : Prop :=
  CleanScript (pass s) ∧ landmarks (pass s) = landmarks s

theorem keepsLandmarks_of_render {pass : List Char → List Char} {s : List Char} {ts : List Token}
    (hp : pass s = render ts) (hclean : ∀ t ∈ ts, Clean t) (hspaced : ts.IsChain (Spaced Apart))
    (hsame : ts.filter Token.isLandmark = landmarks s) : KeepsLandmarks pass s := by
  have hapart : ts.IsChain Apart := by
    refine hspaced.imp_of_mem_imp (fun t u ht hu htu => ?_)
    rcases htu with hw | hw | htu
    · exact apart_whitespace_left (hclean t ht) hw u
    · exact apart_whitespace_right (hclean u hu) hw t
    · exact htu
  obtain ⟨h1, h2⟩ := lex_render_clean hclean hapart
  unfold KeepsLandmarks CleanScript landmarks
  rw [hp]
  exact ⟨h1, h2.trans hsame⟩

theorem isChain_apart_lex (s : List Char) : (lex s).IsChain Apart :=
  (isChain_lex s).imp (fun _ _ h => apart_of_stands h)

theorem spaced_apart_lex (s : List Char) : (lex s).IsChain (Spaced Apart) :=
  (isChain_apart_lex s).imp (fun _ _ h => Or.inr (Or.inr h))

theorem apart_of_gluesCleanly (t u : Token) (h : gluesCleanly t u = true) : Apart t u :=
  apart_of_stands ((gluesCleanly_iff t u).1 h).1

theorem isClosed_of_not_literal {t : Token} (hl : t.isLiteral = false) (hc : t.isComment = false) :
    t.isClosed = true := by
  unfold Token.isClosed
  cases hk : t.kind <;> simp_all [Token.isLiteral, Token.isComment]

theorem isClosed_of_closed_literal {t : Token} (hl : t.isLiteral = true → t.isClosed = true)
    (hc : t.isComment = false) : t.isClosed = true := by
  by_cases h : t.isLiteral = true
  · exact hl h
  · exact isClosed_of_not_literal (by simpa using h) hc

theorem clean_of_closed {t : Token} (h : Stands t []) (hl : t.isLiteral = true → t.isClosed = true)
    (hc : t.isComment = false) : Clean t :=
  ⟨h, isClosed_of_closed_literal hl hc, hc⟩

theorem clean_withoutComments {s : List Char}
    (h : ∀ t ∈ lex s, t.isLiteral = true → t.isClosed = true) :
    ∀ u ∈ withoutComments true (lex s), Clean u := by
  intro u hu
  rcases mem_withoutComments hu with ⟨hu, hc⟩ | rfl | rfl
  · exact clean_of_closed (stands_of_mem_lex hu) (h u hu) hc
  · exact clean_space
  · exact clean_lineBreak

theorem keepsLandmarks_stripComments {s : List Char}
    (h : ∀ t ∈ lex s, t.isLiteral = true → t.isClosed = true) : KeepsLandmarks stripComments s :=
  keepsLandmarks_of_render rfl (clean_withoutComments h)
    (spaced_withoutComments (spaced_apart_lex s))
    (filter_withoutComments (fun _ => isLandmark_of_isTrivia) true (lex s))

theorem mem_trimmed {ts : List Token} {t : Token} (h : t ∈ trimmed ts) : t ∈ ts := by
  obtain ⟨before, after, -, -, he⟩ := eq_trimmed_append ts
  rw [he]
  simp [h]

theorem clean_map_collapsed {s : List Char} (h : CleanScript s) :
    ∀ u ∈ (lex (trim s)).map collapsed, Clean u := by
  intro u hu
  obtain ⟨t, ht, rfl⟩ := List.mem_map.1 hu
  rw [lex_trim h] at ht
  exact clean_collapsed (h t (mem_trimmed ht))

theorem keepsLandmarks_collapseWhitespace {s : List Char} (h : CleanScript s) :
    KeepsLandmarks collapseWhitespace s := by
  refine keepsLandmarks_of_render rfl (clean_map_collapsed h)
    (spaced_map_collapsed (spaced_apart_lex (trim s))) ?_
  rw [filter_map_collapsed (fun _ => isLandmark_of_isTrivia), lex_trim h,
    filter_trimmed (fun _ => isLandmark_of_isTrivia), landmarks]

theorem mem_tightened {before : Option Token} {ts : List Token} {u : Token}
    (h : u ∈ tightened before ts) : ∃ t ∈ ts, u = t ∨ u = collapsed t := by
  induction ts generalizing before with
  | nil => cases h
  | cons t ts ih =>
    have hrest : ∀ b, u ∈ tightened b ts → ∃ v ∈ t :: ts, u = v ∨ u = collapsed v := by
      intro b hb
      obtain ⟨v, hv, he⟩ := ih hb
      exact ⟨v, List.mem_cons_of_mem t hv, he⟩
    cases hw : t.isWhitespace with
    | false =>
      rw [tightened_token hw] at h
      rcases List.mem_cons.1 h with rfl | h
      · exact ⟨u, List.mem_cons_self, Or.inl rfl⟩
      · exact hrest _ h
    | true =>
      cases before with
      | none =>
        rw [tightened_start hw] at h
        exact hrest _ h
      | some q =>
        cases ts with
        | nil =>
          rw [tightened_end hw] at h
          cases h
        | cons n ts =>
          rw [tightened_gap hw] at h
          split at h
          · rename_i gap hs
            rcases List.mem_cons.1 h with rfl | h
            · exact ⟨t, List.mem_cons_self, Or.inr (eq_collapsed_of_separator hs)⟩
            · exact hrest _ h
          · exact hrest _ h

theorem clean_tightened {s : List Char} (h : CleanScript s) :
    ∀ u ∈ tightened none (lex s), Clean u := by
  intro u hu
  obtain ⟨t, ht, rfl | rfl⟩ := mem_tightened hu
  · exact h u ht
  · exact clean_collapsed (h t ht)

theorem keepsLandmarks_normalizePunctuation {s : List Char} (h : CleanScript s) :
    KeepsLandmarks normalizePunctuation s :=
  keepsLandmarks_of_render rfl (clean_tightened h)
    (spaced_tightened apart_of_gluesCleanly (spaced_apart_lex s))
    (filter_tightened (fun _ => isLandmark_of_isTrivia) none (lex s))

/-- short names and negated digits can neither open a comment nor take part in one -/
theorem apart_shortenedAll {ts : List Token} (h : ts.IsChain Apart) (before : Option Token) :
    (shortenedAll before ts).IsChain Apart := by
  have hnames : ∀ a ∈ abbreviations, (Token.name a.2).text ≠ ['/'] ∧
      opensComment '/' (Token.name a.2).text.head? = false := by decide
  have hdigits : ∀ b, (truthDigit b).text ≠ ['/'] := by decide
  have hnot : opensComment '/' (Token.mark "!").text.head? = false := by decide
  refine isChain_shortenedAll (fun b hslash => absurd hslash (by decide)) ?_ h before
  intro t u htu p n t' q m u' ht' hu' hslash
  rcases shortened_last ht' with rfl | ⟨a, ha, -, rfl⟩ | ⟨b, -, rfl⟩
  · rcases shortened_head hu' with rfl | ⟨a, ha, -, rfl⟩ | ⟨b, -, rfl⟩
    · exact htu hslash
    · exact (hnames a ha).2
    · exact hnot
  · exact absurd hslash (hnames a ha).1
  · exact absurd hslash (hdigits b)

theorem clean_of_stands {t : Token} (h : Stands t []) (hl : t.isLiteral = false)
    (hc : t.isComment = false) : Clean t :=
  ⟨h, isClosed_of_not_literal hl hc, hc⟩

theorem clean_shortenedAll {before : Option Token} {ts : List Token} (h : ∀ t ∈ ts, Clean t)
    {u : Token} (hu : u ∈ shortenedAll before ts) : Clean u := by
  have hnames : ∀ a ∈ abbreviations, lex (Token.name a.2).text = [.name a.2] := by decide +kernel
  have hmarks : ∀ b, ∀ u ∈ truthMarks b, lex u.text = [u] ∧ u.isLiteral = false ∧
      u.isComment = false := by decide +kernel
  rcases mem_shortenedAll hu with hu | ⟨a, ha, rfl⟩ | ⟨b, hb⟩
  · exact h u hu
  · exact clean_of_stands ((stands_nil_iff _).2 (hnames a ha)) rfl rfl
  · obtain ⟨h1, h2, h3⟩ := hmarks b u hb
    exact clean_of_stands ((stands_nil_iff u).2 h1) h2 h3

theorem keepsLandmarks_abbreviateTokens {s : List Char} (h : CleanScript s) :
    KeepsLandmarks abbreviateTokens s := by
  refine keepsLandmarks_of_render rfl (fun u hu => clean_shortenedAll h hu) ?_
    (filter_shortenedAll none (lex s))
  exact (apart_shortenedAll (isChain_apart_lex s) none).imp (fun _ _ h => Or.inr (Or.inr h))

theorem clean_rewritten {before : Option Token} {ts : List Token} (h : ∀ t ∈ ts, Clean t) :
    ∀ u ∈ respaced (elided [] (arrowed before ts)), Clean u := by
  have harrow : Clean (.mark "=>") :=
    clean_of_stands ((stands_nil_iff _).2 (by decide +kernel)) rfl rfl
  have hnot : Clean (.mark "!") :=
    clean_of_stands ((stands_nil_iff _).2 (by decide +kernel)) rfl rfl
  exact forall_mem_respaced clean_space (forall_mem_rewritten harrow hnot h before)

theorem keepsLandmarks_reformulate {s : List Char} (h : CleanScript s) :
    KeepsLandmarks reformulate s := by
  refine keepsLandmarks_of_render rfl
    (clean_rewritten (fun t ht => h t (List.mem_of_mem_filter ht)))
    (spaced_respaced apart_of_gluesCleanly _) ?_
  rw [filter_respaced (isLandmark_of_isTrivia rfl), filter_elided, List.reverse_nil,
    List.nil_append, filter_arrowed, filter_withoutSpaces (fun _ => isLandmark_of_isTrivia),
    landmarks]

/-! ### All passes -/

theorem keepsLandmarks_pass {p : Pass} (hp : p ∈ passes) {s : List Char} (h : CleanScript s) :
    KeepsLandmarks p.run s := by
  simp only [passes, List.mem_cons, List.not_mem_nil, or_false] at hp
  rcases hp with rfl | rfl | rfl | rfl | rfl
  · exact keepsLandmarks_stripComments (fun t ht _ => (h t ht).closed)
  · exact keepsLandmarks_collapseWhitespace h
  · exact keepsLandmarks_normalizePunctuation h
  · exact keepsLandmarks_abbreviateTokens h
  · exact keepsLandmarks_reformulate h

theorem keepsLandmarks_throughAll {ps : List Pass} (hps : ∀ p ∈ ps, p ∈ passes) {s : List Char}
    (h : CleanScript s) : KeepsLandmarks (throughAll ps) s := by
  induction ps generalizing s with
  | nil => exact ⟨h, rfl⟩
  | cons p ps ih =>
    obtain ⟨hclean, hsame⟩ := keepsLandmarks_pass (hps p List.mem_cons_self) h
    obtain ⟨h1, h2⟩ := ih (fun q hq => hps q (List.mem_cons_of_mem p hq)) hclean
    exact ⟨h1, h2.trans hsame⟩

theorem landmarks_throughAll_take {s : List Char}
    (h : ∀ t ∈ lex s, t.isLiteral = true → t.isClosed = true) (k : Nat) :
    landmarks (throughAll (passes.take k) s) = landmarks s := by
  cases k with
  | zero => rfl
  | succ k =>
    obtain ⟨hclean, hsame⟩ := keepsLandmarks_stripComments h
    have hps : ∀ p ∈ passes.tail.take k, p ∈ passes :=
      fun p hp => List.mem_of_mem_tail (List.mem_of_mem_take hp)
    exact (keepsLandmarks_throughAll hps hclean).2.trans hsame

/-- **The landmarks of a compressed script.**  If all literals of a script are closed, it has the
same literals, brackets and separators in the same order after each pass, and so in the end. -/
theorem compress_keeps_landmarks (s : List Char)
    (h : ∀ t ∈ lex s, t.isLiteral = true → t.isClosed = true) :
    (∀ k, landmarks (throughAll (passes.take k) s) = landmarks s) ∧
      ∃ code stats, compress s = .ok (code, stats) ∧ landmarks code = landmarks s :=
  ⟨landmarks_throughAll_take h, _, _, compress_eq_ok s, landmarks_throughAll_take h 5⟩

/-- comments with brackets in them, slashes that come close and a truth value before a point -/
theorem compress_keeps_landmarks_slashes :
    ∃ code stats, compress "a = b / /*(*/ / c; // [\nf(\x7bx: '//'\x7d, true.y === false);".toList =
        .ok (code, stats) ∧
      (landmarks code).map (fun t => String.ofList t.text) =
        [";", "(", "\x7b", "'//'", "\x7d", ",", ")", ";"] := by
  have hclosed : ∀ t ∈ lex "a = b / /*(*/ / c; // [\nf(\x7bx: '//'\x7d, true.y === false);".toList,
      t.isLiteral = true → t.isClosed = true := by decide +kernel
  obtain ⟨-, code, stats, h1, h2⟩ := compress_keeps_landmarks _ hclosed
  refine ⟨code, stats, h1, ?_⟩
  rw [h2]
  decide +kernel

end EffectFusion.Script
