import EffectFusion.Proofs.Script.Refinement
import EffectFusion.Proofs.Script.Sweeps

/-!
# The last pass settles

What the last pass prints is read back as the list that it printed: two neighbours that would not
stay apart have a space between them, every other white space is a line break that was kept, and
between two of its tokens any white space may stand (`Separable`).  That list holds nothing more to
rewrite, and the spaces in it are the ones that are put back.  So the pass changes nothing the
second time.  Points in a row are left out once more, since three of them are read as one operator.

* `isChain_fits_respaced`   what is printed is read back;
* `separable_rewritten`     neighbours stay separable through both rewrites;
* `reformulate_idempotent`  the pass is idempotent and leaves nothing behind.
-/

namespace EffectFusion.Script

open Text

/-! ### Separable neighbours -/

section Separable

variable {t u : Token} {ts : List Token}

theorem separable_of_stands (h : Stands t u.text) (hu : Stands u []) : Separable t u := by
  obtain ⟨k, d, v, rfl⟩ := hu.exists_cons
  refine ⟨isClosed_of_stands_cons h, fun hk => ?_, fun hboth =>
    not_stands_whitespace hboth.1 hu hboth.2 h⟩
  have hpoint : ¬ (t.text = ['.'] ∧ d = '.') := by
    rintro ⟨ht, -⟩
    have hkind := eq_point h.alone ht
    rw [hkind] at hk
    cases hk
  have hstops := (stands_cons_iff h.alone hpoint).1 h
  rw [Token.stopsBefore, Bool.and_eq_true, Token.cutBefore, hk] at hstops
  exact congrArg some (by simpa using hstops.1)

theorem separable_lex (s : List Char) : (lex s).IsChain Separable :=
  (isChain_lex s).imp_of_mem_imp (fun _ _ _ hb hab => separable_of_stands hab (stands_of_mem_lex hb))

theorem separable_of_kind (h : t.kind = .word ∨ t.kind = .punctuation) (u : Token) :
    Separable t u := by
  have hw : t.isWhitespace = false := by rcases h with h | h <;> simp [Token.isWhitespace, h]
  refine ⟨by rcases h with h | h <;> simp [Token.isClosed, h], fun hk => ?_, fun hboth => ?_⟩
  · rw [hk] at h
    rcases h with h | h <;> cases h
  · rw [hw] at hboth
    cases hboth.1

/-- the word for a function expression and a bracket follow the same tokens -/
theorem separable_bracket (h : Separable t (.name "function")) : Separable t (.mark "(") := by
  refine ⟨h.closed, fun hk => ?_, fun hboth => by cases hboth.2⟩
  have hline := h.line hk
  revert hline
  decide

theorem isChain_withoutSpaces {R : Token → Token → Prop} (h : ts.IsChain R)
    (hskip : ∀ t w u, w.isWhitespace = true → w.breaksLine = false → R t w → R w u → R t u) :
    (withoutSpaces ts).IsChain R := by
  have hcons : ∀ (ts : List Token) (q : Token), (q :: ts).IsChain R →
      (q :: withoutSpaces ts).IsChain R := by
    intro ts
    induction ts with
    | nil => exact fun q hq => hq
    | cons t ts ih =>
      intro q hq
      obtain ⟨hqt, hrest⟩ := List.isChain_cons_cons.1 hq
      rw [withoutSpaces_cons]
      split
      · exact List.isChain_cons_cons.2 ⟨hqt, ih t hrest⟩
      · rename_i hgone
        have hgone : t.isWhitespace = true ∧ t.breaksLine = false := by simpa using hgone
        refine ih q ?_
        cases ts with
        | nil => exact List.isChain_singleton q
        | cons u us =>
          obtain ⟨htu, hus⟩ := List.isChain_cons_cons.1 hrest
          exact List.isChain_cons_cons.2 ⟨hskip q t u hgone.1 hgone.2 hqt htu, hus⟩
  induction ts with
  | nil => exact List.IsChain.nil
  | cons t ts ih =>
    rw [withoutSpaces_cons]
    split
    · exact hcons ts t h
    · exact ih h.tail

theorem breaksLine_of_head (h : u.text.head? = some '\n') : u.breaksLine = true := by
  obtain ⟨v, hv⟩ := List.head?_eq_some_iff.1 h
  simp [Token.breaksLine, hv]

theorem separable_withoutSpaces (h : ts.IsChain Separable) : (withoutSpaces ts).IsChain Separable := by
  refine isChain_withoutSpaces h (fun t w u hw hbreak htw hwu => ⟨htw.closed, fun hk => ?_, fun hboth =>
    htw.white ⟨hboth.1, hw⟩⟩)
  -- a line comment has its line break behind it
  rw [breaksLine_of_head (htw.line hk)] at hbreak
  cases hbreak

/-- neighbours stay separable through both rewrites -/
theorem separable_rewritten (h : ts.IsChain Separable) :
    (elided [] (arrowed none ts)).IsChain Separable := by
  have hmark : ∀ s u, Separable (.mark s) u := fun s u => separable_of_kind (Or.inr rfl) u
  refine isChain_elided (fun p hp => ?_) (fun w _ => hmark "!" w)
    (fun w n hw _ => separable_of_kind (Or.inl hw) n)
    (isChain_arrowed (hmark ")" _) (hmark "=>" _) (fun q hq => separable_bracket hq) h none)
  obtain ⟨s, -, rfl⟩ := mem_of_isMarkOf hp
  exact hmark s _

/-! ### Reading back -/

theorem separable_space (h : Separable t u) (hu : Stands u []) (htw : t.isWhitespace = false)
    (huw : u.isWhitespace = false) : Separable t .space ∧ Separable .space u := by
  refine ⟨⟨h.closed, fun hk => ?_, fun hboth => ?_⟩,
    ⟨rfl, (fun hk => by cases hk), fun hboth => ?_⟩⟩
  · -- a line break would be white space
    have hline := h.line hk
    obtain ⟨k, d, v, rfl⟩ := hu.exists_cons
    have hd := not_blank_head hu (by simpa [Token.isWhitespace] using huw)
    obtain rfl := Option.some.inj hline
    exact absurd hd (by decide)
  · rw [htw] at hboth
    cases hboth.1
  · rw [huw] at hboth
    cases hboth.2

/-- **Reading back.**  With the spaces that it needs a list of separable tokens fits. -/
theorem isChain_fits_respaced (hs : ∀ t ∈ ts, Stands t []) (h : ts.IsChain Separable)
    (hp : ts.IsChain NoPoints) : (respaced ts).IsChain Fits := by
  have hspace : Stands .space [] := clean_space.stands
  fun_induction respaced ts with
  | case1 => exact List.IsChain.nil
  | case2 t => exact List.isChain_singleton t
  | case3 t u rest hneed ih =>
    have ht := hs t (by simp)
    have hu := hs u (by simp)
    simp only [Bool.and_eq_true, Bool.not_eq_true'] at hneed
    obtain ⟨hleft, hright⟩ := separable_space (List.isChain_cons_cons.1 h).1 hu hneed.1.1 hneed.1.2
    have ih := ih (fun v hv => hs v (List.mem_cons_of_mem t hv)) h.tail hp.tail
    refine List.isChain_cons_cons.2 ⟨fits_of_separable hleft ht hspace (Or.inr rfl),
      ih.cons (fun v hv => ?_)⟩
    rw [head?_respaced] at hv
    rw [← Option.some.inj hv]
    exact fits_of_separable hright hspace hu (Or.inl rfl)
  | case4 t u rest hneed ih =>
    have ih := ih (fun v hv => hs v (List.mem_cons_of_mem t hv)) h.tail hp.tail
    refine ih.cons (fun v hv => ?_)
    rw [head?_respaced] at hv
    rw [← Option.some.inj hv]
    by_cases hw : t.isWhitespace = true ∨ u.isWhitespace = true
    · exact fits_of_separable (List.isChain_cons_cons.1 h).1 (hs t (by simp)) (hs u (by simp)) hw
    · have hglue : gluesCleanly t u = true := by
        by_contra hg
        rw [not_or] at hw
        simp [hw, hg] at hneed
      exact ⟨((gluesCleanly_iff t u).1 hglue).1, (List.isChain_cons_cons.1 hp).1⟩

theorem lex_render_respaced (hs : ∀ t ∈ ts, Stands t []) (h : ts.IsChain Separable)
    (hp : ts.IsChain NoPoints) : lex (render (respaced ts)) = respaced ts :=
  lex_render_of_fits (forall_mem_respaced clean_space.stands hs) (isChain_fits_respaced hs h hp)

end Separable

/-! ### The pass -/

section Pass

variable {s : List Char}

theorem lex_reformulate (hp : (significant (lex s)).IsChain NoPoints) :
    lex (reformulate s) = respaced (elided [] (arrowed none (withoutSpaces (lex s)))) := by
  have hmarks : Stands (.mark "=>") [] ∧ Stands (.mark "!") [] := by decide +kernel
  have hread : ∀ t ∈ withoutSpaces (lex s), Stands t [] := fun t ht =>
    stands_of_mem_lex (List.mem_of_mem_filter ht)
  have hstands := forall_mem_rewritten hmarks.1 hmarks.2 hread none
  have hpoints : (withoutSpaces (lex s)).IsChain NoPoints := by
    refine isChain_noPoints hread ?_
    rwa [significant, filter_withoutSpaces isSignificant_of_isTrivia]
  exact lex_render_respaced hstands
    (separable_rewritten (separable_withoutSpaces (separable_lex s)))
    (noPoints_elided (noPoints_arrowed hpoints none))

/-- without the spaces that were put back it is the list that was printed -/
theorem withoutSpaces_respaced_rewritten (s : List Char) :
    withoutSpaces (respaced (elided [] (arrowed none (withoutSpaces (lex s))))) =
      elided [] (arrowed none (withoutSpaces (lex s))) := by
  rw [withoutSpaces, filter_respaced (by decide)]
  exact List.filter_eq_self.2 (forall_mem_rewritten
    (P := fun t => (!t.isWhitespace || t.breaksLine) = true) rfl rfl
    (fun t ht => (List.mem_filter.1 ht).2) none)

/-- **The last pass settles.**  In a script in which no two points follow one another one run leaves
no function expression that could be an arrow function, no comparison that could be left out and no
space that is not needed, and a second run changes nothing. -/
theorem reformulate_idempotent (s : List Char)
    (hpoints : (significant (lex s)).IsChain
      (fun a b => ¬ (a.isMark "." = true ∧ b.isMark "." = true))) :
    (∀ us t rest, withoutSpaces (lex (reformulate s)) = us ++ t :: rest →
        arrow? (us.foldl nearest none) t rest = none ∧ elision? us.reverse t rest = none) ∧
      respaced (withoutSpaces (lex (reformulate s))) = lex (reformulate s) ∧
      reformulate (reformulate s) = reformulate s := by
  have hread := lex_reformulate (noPoints_of_marks hpoints)
  set final := elided [] (arrowed none (withoutSpaces (lex s))) with hfinal
  have hkept : withoutSpaces (lex (reformulate s)) = final := by
    rw [hread, withoutSpaces_respaced_rewritten]
  have harrows : Unarrowed [] none final := unarrowed_elided (unarrowed_arrowed none _)
  have hcompares : Unelided [] [] final := unelided_elided trivial
  refine ⟨fun us t rest hsplit => ?_, by rw [hkept, hread], ?_⟩
  · rw [hkept] at hsplit
    rw [hsplit] at harrows hcompares
    have harrow := (unarrowed_append.1 harrows).2.1
    have hcompare := (unelided_append.1 hcompares).2.1
    rw [List.append_nil] at harrow hcompare
    exact ⟨harrow, by rwa [List.append_nil] at hcompare⟩
  · rw [reformulate, hkept, arrowed_of_unarrowed harrows, elided_of_unelided hcompares]
    rfl

end Pass

/-- a function expression inside another one, and comparisons in brackets and in a choice -/
def nestedFunctions : List Char :=
  ("x = function ( a ) \x7b return function ( ) \x7b f ( p . q === true ) ; \x7d ; \x7d ;\n" ++
    "v = z == !1 ? w : ! u").toList

theorem reformulate_idempotent_nested :
    (significant (lex nestedFunctions)).IsChain
        (fun a b => ¬ (a.isMark "." = true ∧ b.isMark "." = true)) ∧
      (∀ us t rest, withoutSpaces (lex (reformulate nestedFunctions)) = us ++ t :: rest →
        arrow? (us.foldl nearest none) t rest = none ∧ elision? us.reverse t rest = none) ∧
      respaced (withoutSpaces (lex (reformulate nestedFunctions))) =
        lex (reformulate nestedFunctions) ∧
      reformulate (reformulate nestedFunctions) = reformulate nestedFunctions := by
  have hpoints : (significant (lex nestedFunctions)).IsChain
      (fun a b => ¬ (a.isMark "." = true ∧ b.isMark "." = true)) := by decide +kernel
  exact ⟨hpoints, reformulate_idempotent nestedFunctions hpoints⟩

-- the inner function is found in what the outer one became
example : reformulate "x = function ( ) \x7b return function ( ) \x7b f ( a === true ) \x7d \x7d".toList =
    "x=()=>\x7breturn()=>\x7bf(a)\x7d\x7d".toList := by decide +kernel

end EffectFusion.Script
