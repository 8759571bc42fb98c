import EffectFusion.Proofs.Script.Tidied

/-!
# Arrow functions and layout

Whether a function expression becomes an arrow function does not hang on the white space in it,
and where white space is laid between tokens that part, none is lost and none comes before the
new arrow.

* `significant_arrowed`       the tokens that matter are rewritten alike without trivia;
* `laid_arrowed`              the layout stays;
* `arrowed_append`            nothing happens before the first function expression.
-/

namespace EffectFusion.Script

/-! ### Rewriting without trivia -/

/-- without the trivia in both parts -/
def significantPair (p : List Token × List Token) : List Token × List Token :=
  (significant p.1, significant p.2)

theorem isMark_of_isTrivia {t : Token} (h : t.isTrivia = true) (text : String) :
    t.isMark text = false := by
  by_contra hm
  rw [(Token.isMark_iff t text).1 (by simpa using hm)] at h
  cases h

theorem spanGroup?_significant (opening closing : String) (depth : Nat) (ts : List Token) :
    spanGroup? opening closing depth (significant ts) =
      (spanGroup? opening closing depth ts).map significantPair := by
  induction ts generalizing depth with
  | nil => rfl
  | cons t ts ih =>
    have hcons : t.isTrivia = false → ∀ d,
        (spanGroup? opening closing d (significant ts)).map (fun p => (t :: p.1, p.2)) =
          ((spanGroup? opening closing d ts).map (fun p => (t :: p.1, p.2))).map significantPair := by
      intro ht d
      rw [ih, Option.map_map, Option.map_map]
      congr 1
      funext p
      simp [significantPair, significant_cons, ht]
    rw [significant_cons]
    cases ht : t.isTrivia with
    | true =>
      rw [if_pos rfl, spanGroup?, isMark_of_isTrivia ht, isMark_of_isTrivia ht,
        if_neg Bool.false_ne_true, if_neg Bool.false_ne_true, ih, Option.map_map]
      congr 1
      funext p
      simp [significantPair, significant_cons, ht]
    | false =>
      rw [if_neg Bool.false_ne_true, spanGroup?, spanGroup?]
      split
      · exact hcons ht _
      · split
        · split
          · simp [significantPair, significant_cons, ht, significant_nil]
          · exact hcons ht _
        · exact hcons ht _

theorem head?_significant (ts : List Token) : (significant ts).head? = significant? ts := by
  rw [significant?, significant, List.head?_filter]
  rfl

theorem head?_dropWhile (ts : List Token) :
    (ts.dropWhile Token.isTrivia).head? = significant? ts := by
  rw [← head?_significant, ← significant_dropWhile]
  cases h : ts.dropWhile Token.isTrivia with
  | nil => rfl
  | cons t us =>
    have ht : t.isTrivia = false := by
      have hhead := List.head?_dropWhile_not Token.isTrivia ts
      rw [h] at hhead
      exact hhead
    rw [significant_cons, ht, if_neg Bool.false_ne_true]
    rfl

theorem dropWhile_significant (ts : List Token) :
    (significant ts).dropWhile Token.isTrivia = significant ts := by
  cases h : significant ts with
  | nil => rfl
  | cons t us =>
    have ht : t ∈ significant ts := by rw [h]; exact List.mem_cons_self
    rw [List.dropWhile_cons, (mem_significant.1 ht).2, if_neg Bool.false_ne_true]

theorem bracketGroup?_significant (opening closing : String) (ts : List Token) :
    bracketGroup? opening closing (significant ts) =
      (bracketGroup? opening closing ts).map significantPair := by
  unfold bracketGroup?
  simp only
  rw [dropWhile_significant, head?_significant, head?_dropWhile]
  split
  · rw [← spanGroup?_significant, significant_dropWhile]
  · rfl

theorem any_isNameOf_significant (texts : List String) (ts : List Token) :
    (significant ts).any (·.isNameOf texts) = ts.any (·.isNameOf texts) := by
  induction ts with
  | nil => rfl
  | cons t ts ih =>
    rw [significant_cons]
    split
    · rename_i ht
      have hname : t.isNameOf texts = false := by
        by_contra hn
        obtain ⟨s, -, rfl⟩ := mem_of_isNameOf (by simpa using hn)
        cases ht
      rw [List.any_cons, hname, Bool.false_or, ih]
    · rw [List.any_cons, List.any_cons, ih]

theorem arrow?_significant (before : Option Token) (t : Token) (rest : List Token) :
    arrow? before t (significant rest) = (arrow? before t rest).map significant := by
  unfold arrow?
  split
  · rw [bracketGroup?_significant]
    cases bracketGroup? "(" ")" rest with
    | none => rfl
    | some p =>
      simp only [Option.map_some, significantPair]
      rw [bracketGroup?_significant]
      cases bracketGroup? "\x7b" "\x7d" p.2 with
      | none => rfl
      | some q =>
        have hcalls : (significant p.1 ++ significant q.1).any (·.isNameOf callWords) =
            (p.1 ++ q.1).any (·.isNameOf callWords) := by
          rw [← significant_append, any_isNameOf_significant]
        have hout : significant (p.1 ++ .mark "=>" :: q.1 ++ q.2) =
            significant p.1 ++ .mark "=>" :: significant q.1 ++ significant q.2 := by
          rw [significant_append, significant_append, significant_cons]
          rfl
        simp only [Option.map_some, significantPair, hcalls, significant?_significant]
        split
        · rfl
        · split
          · rw [Option.map_some, hout]
          · rfl
  · rfl

/-! ### Steps -/

/-- the token nearest to the rest that is no trivia -/
def nearest (before : Option Token) (t : Token) : Option Token := if t.isTrivia then before else some t

theorem arrowed_step {before : Option Token} {t u : Token} {rest rest' : List Token}
    (h : arrow? before t rest = some (u :: rest')) :
    arrowed before (t :: rest) = u :: arrowed (nearest before u) rest' := by
  rw [arrowed.eq_def]
  simp only
  split
  · rename_i v rest'' he
    rw [h] at he
    obtain ⟨rfl, rfl⟩ := List.cons.inj (Option.some.inj he)
    rfl
  · rename_i hno
    exact absurd h (hno u rest')

theorem arrowed_skip {before : Option Token} {t : Token} {rest : List Token}
    (h : arrow? before t rest = none) :
    arrowed before (t :: rest) = t :: arrowed (nearest before t) rest := by
  rw [arrowed.eq_def]
  simp only
  split
  · rename_i v rest'' he
    rw [h] at he
    cases he
  · rfl

theorem arrow?_eq_cons {before : Option Token} {t : Token} {rest out : List Token}
    (h : arrow? before t rest = some out) : ∃ more, out = .mark "(" :: more := by
  obtain ⟨-, -, gap, parameters, gap', body, tail, -, -, -, rfl, hhead, -⟩ := arrow?_eq_some h
  obtain ⟨more, rfl⟩ := List.head?_eq_some_iff.1 hhead
  exact ⟨_, rfl⟩

/-- the tokens that matter are rewritten alike without trivia -/
theorem significant_arrowed (before : Option Token) (ts : List Token) :
    significant (arrowed before ts) = arrowed before (significant ts) := by
  fun_induction arrowed before ts with
  | case1 before => rw [significant_nil, arrowed]
  | case2 before t rest u rest' ha ih =>
    obtain ⟨more, he⟩ := arrow?_eq_cons ha
    obtain ⟨rfl, rfl⟩ := List.cons.inj he
    obtain ⟨rfl, -⟩ := arrow?_eq_some ha
    have hsame : arrow? before (.name "function") (significant rest) =
        some (.mark "(" :: significant rest') := by
      rw [arrow?_significant, ha, Option.map_some, significant_cons]
      rfl
    rw [significant_cons, significant_cons]
    show .mark "(" :: significant _ = arrowed before (.name "function" :: significant rest)
    rw [arrowed_step hsame]
    exact congrArg _ ih
  | case3 before t rest hno ih =>
    have ha : arrow? before t rest = none := by
      cases he : arrow? before t rest with
      | none => rfl
      | some out =>
        obtain ⟨more, rfl⟩ := arrow?_eq_cons he
        exact absurd he (hno _ _)
    rw [significant_cons, significant_cons]
    cases ht : t.isTrivia with
    | true =>
      rw [ht] at ih
      rw [if_pos rfl, if_pos rfl]
      exact ih
    | false =>
      have hsame : arrow? before t (significant rest) = none := by
        rw [arrow?_significant, ha, Option.map_none]
      rw [if_neg Bool.false_ne_true, if_neg Bool.false_ne_true, if_neg Bool.false_ne_true,
        arrowed_skip hsame, nearest, ht]
      rw [ht] at ih
      exact congrArg _ ih

/-- nothing is rewritten before the first function expression -/
theorem arrowed_append {us : List Token} (h : ∀ u ∈ us, u ≠ .name "function")
    (hs : ∀ u ∈ us, u.isTrivia = false) (before : Option Token) (ts : List Token) :
    arrowed before (us ++ ts) = us ++ arrowed (us.getLast?.or before) ts := by
  induction us generalizing before with
  | nil => rfl
  | cons u us ih =>
    have ha : arrow? before u (us ++ ts) = none := by
      cases he : arrow? before u (us ++ ts) with
      | none => rfl
      | some out => exact absurd (arrow?_eq_some he).1 (h u List.mem_cons_self)
    rw [List.cons_append, arrowed_skip ha, nearest, hs u List.mem_cons_self,
      if_neg Bool.false_ne_true, ih (fun v hv => h v (List.mem_cons_of_mem u hv))
      (fun v hv => hs v (List.mem_cons_of_mem u hv)), List.cons_append, List.getLast?_cons]
    cases us.getLast? <;> rfl

/-! ### The layout stays -/

section Laid

variable {Q : Token → Token → Prop} {p : Option Token} {t : Token}

theorem laid_suffix {us ts : List Token} (ht : t.isWhitespace = false)
    (h : Laid Q p (us ++ t :: ts)) (p' : Option Token) : Laid Q p' (t :: ts) := by
  induction us generalizing p with
  | nil => exact (laid_token ht).2 ((laid_token ht).1 h)
  | cons u us ih =>
    rw [List.cons_append] at h
    cases hu : u.isWhitespace with
    | true => exact ih ((laid_gap hu).1 h).2
    | false => exact ih ((laid_token hu).1 h)

theorem laid_append {us ts : List Token} (ht : t.isWhitespace = false) :
    Laid Q p (us ++ t :: ts) ↔ Laid Q p (us ++ [t]) ∧ Laid Q (some t) ts := by
  induction us generalizing p with
  | nil =>
    rw [List.nil_append, List.nil_append, laid_token ht, laid_token ht]
    exact ⟨fun h => ⟨trivial, h⟩, fun h => h.2⟩
  | cons u us ih =>
    rw [List.cons_append, List.cons_append]
    cases hu : u.isWhitespace with
    | false => rw [laid_token hu, laid_token hu, ih]
    | true =>
      have hhead : (us ++ t :: ts).head? = (us ++ [t]).head? := by cases us <;> rfl
      rw [laid_gap hu, laid_gap hu, ih, hhead, and_assoc]

end Laid

/-- no statement ends before a function expression that becomes an arrow function -/
theorem not_parts_function {q : Token} (h : mayPrecedeArrow (some q) = true) :
    parts q (.name "function") = false := by
  have hmarks : ∀ s ∈ arrowPreceders, parts (.mark s) (.name "function") = false := by decide
  have hreturn : parts (.name "return") (.name "function") = false := by decide
  have h : (q.isMarkOf arrowPreceders || q.isName "return") = true := h
  rw [Bool.or_eq_true] at h
  rcases h with h | h
  · obtain ⟨s, hs, rfl⟩ := mem_of_isMarkOf h
    exact hmarks s hs
  · rw [(Token.isName_iff q _).1 h]
    exact hreturn

theorem head?_arrowed (before : Option Token) (n : Token) (ts : List Token) :
    (arrowed before (n :: ts)).head? = some n ∨
      (n = .name "function" ∧ mayPrecedeArrow before = true ∧
        (arrowed before (n :: ts)).head? = some (.mark "(")) := by
  cases ha : arrow? before n ts with
  | none =>
    rw [arrowed_skip ha]
    exact Or.inl rfl
  | some out =>
    obtain ⟨more, rfl⟩ := arrow?_eq_cons ha
    obtain ⟨hn, hp, -⟩ := arrow?_eq_some ha
    rw [arrowed_step ha]
    exact Or.inr ⟨hn, hp, rfl⟩

/-- one function expression: what follows its word is laid, whatever stood before it -/
theorem laid_arrow {before : Option Token} {t : Token} {rest out : List Token}
    (ha : arrow? before t rest = some out) (h : Laid (fun a b => parts a b = true) before (t :: rest)) :
    Laid (fun a b => parts a b = true) before out := by
  obtain ⟨rfl, -, gap, parameters, gap', body, tail, -, -, rfl, rfl, hopen, hclose, hbody⟩ :=
    arrow?_eq_some ha
  obtain ⟨parameters, rfl⟩ := List.getLast?_eq_some_iff.1 hclose
  obtain ⟨body, rfl⟩ := List.head?_eq_some_iff.1 hbody
  have hrest : Laid (fun a b => parts a b = true) (some (.name "function"))
      (gap ++ (parameters ++ [.mark ")"] ++ (gap' ++ (.mark "\x7b" :: body ++ tail)))) :=
    (laid_token rfl).1 h
  have hblock : Laid (fun a b => parts a b = true) (some (.mark "=>"))
      (.mark "\x7b" :: (body ++ tail)) := by
    have hsplit : gap ++ (parameters ++ [.mark ")"] ++ (gap' ++ (.mark "\x7b" :: body ++ tail))) =
        (gap ++ (parameters ++ [.mark ")"] ++ gap')) ++ .mark "\x7b" :: (body ++ tail) := by simp
    rw [hsplit] at hrest
    exact laid_suffix rfl hrest _
  have hparameters : Laid (fun a b => parts a b = true) before (parameters ++ [.mark ")"]) := by
    obtain ⟨inner, hinner⟩ := List.head?_eq_some_iff.1 hopen
    rw [hinner, List.cons_append] at hrest
    have hall := laid_suffix rfl hrest before
    rw [← List.cons_append, ← hinner, List.append_assoc, List.singleton_append] at hall
    exact ((laid_append rfl).1 hall).1
  rw [List.append_assoc, List.singleton_append]
  exact (laid_append rfl).2 ⟨hparameters, (laid_token rfl).2 hblock⟩

/-- white space between tokens that part stays between such tokens -/
theorem laid_arrowed {ts : List Token} (hcomment : ∀ t ∈ ts, t.isComment = false)
    {before : Option Token} (h : Laid (fun a b => parts a b = true) before ts) :
    Laid (fun a b => parts a b = true) before (arrowed before ts) := by
  fun_induction arrowed before ts with
  | case1 => trivial
  | case2 before t rest u rest' ha ih =>
    obtain ⟨more, he⟩ := arrow?_eq_cons ha
    obtain ⟨rfl, rfl⟩ := List.cons.inj he
    refine (laid_token rfl).2 (ih (fun v hv => ?_) ((laid_token rfl).1 (laid_arrow ha h)))
    rcases mem_arrow ha (List.mem_cons_of_mem _ hv) with hv | rfl
    · exact hcomment v (List.mem_cons_of_mem t hv)
    · rfl
  | case3 before t rest hno ih =>
    have ih := ih (fun u hu => hcomment u (List.mem_cons_of_mem t hu))
    have htrivia := isTrivia_eq_isWhitespace (hcomment t List.mem_cons_self)
    cases hw : t.isWhitespace with
    | false =>
      simp only [dite_eq_ite, htrivia, hw, Bool.false_eq_true, if_false] at ih ⊢
      exact (laid_token hw).2 (ih ((laid_token hw).1 h))
    | true =>
      simp only [dite_eq_ite, htrivia, hw, if_true] at ih ⊢
      obtain ⟨⟨q, n, rfl, hn, hnw, hqn⟩, hrest⟩ := (laid_gap hw).1 h
      refine (laid_gap hw).2 ⟨⟨q, n, rfl, ?_, hnw, hqn⟩, ih hrest⟩
      obtain ⟨us, rfl⟩ := List.head?_eq_some_iff.1 hn
      rcases head?_arrowed (some q) n us with he | ⟨rfl, hp, -⟩
      · exact he
      · rw [not_parts_function hp] at hqn
        cases hqn

/-! ### Neighbours -/

section Chain

variable {R : Token → Token → Prop} {before : Option Token}

/-- one function expression: the arrow stands between the parameters and the body -/
theorem isChain_arrow (harrow : R (.mark ")") (.mark "=>")) (hbody : R (.mark "=>") (.mark "\x7b"))
    {t : Token} {rest out : List Token} (ha : arrow? before t rest = some out)
    (h : (t :: rest).IsChain R) : out.IsChain R := by
  obtain ⟨rfl, -, gap, parameters, gap', body, tail, -, -, rfl, rfl, -, hclose, hblock⟩ :=
    arrow?_eq_some ha
  have hparameters : parameters.IsChain R := by
    refine h.infix ⟨.name "function" :: gap, gap' ++ (body ++ tail), ?_⟩
    simp
  have htail : (body ++ tail).IsChain R := by
    refine h.suffix ⟨.name "function" :: (gap ++ (parameters ++ gap')), ?_⟩
    simp
  rw [List.isChain_append]
  refine ⟨hparameters, htail.cons (fun v hv => ?_), fun v hv w hw => ?_⟩
  · obtain ⟨inner, rfl⟩ := List.head?_eq_some_iff.1 hblock
    rw [← Option.some.inj hv]
    exact hbody
  · rw [hclose] at hv
    rw [← Option.some.inj hv, ← Option.some.inj hw]
    exact harrow

/-- whatever may stand before a list may stand before the rewritten one -/
theorem isChain_cons_arrowed (hopen : ∀ q, R q (.name "function") → R q (.mark "(")) {q : Token}
    {ts : List Token} (hq : (q :: ts).IsChain R) (h : (arrowed before ts).IsChain R) :
    (q :: arrowed before ts).IsChain R := by
  refine h.cons (fun u hu => ?_)
  cases ts with
  | nil => rw [arrowed] at hu; cases hu
  | cons n us =>
    have hn := (List.isChain_cons_cons.1 hq).1
    rcases head?_arrowed before n us with he | ⟨rfl, -, he⟩
    · rw [he] at hu
      rwa [← Option.some.inj hu]
    · rw [he] at hu
      rw [← Option.some.inj hu]
      exact hopen q hn

/-- what holds between neighbours still does when it holds on both sides of an arrow and does not
tell the bracket that opens the parameters from the word before it -/
theorem isChain_arrowed (harrow : R (.mark ")") (.mark "=>"))
    (hbody : R (.mark "=>") (.mark "\x7b"))
    (hopen : ∀ q, R q (.name "function") → R q (.mark "(")) {ts : List Token} (h : ts.IsChain R)
    (before : Option Token) : (arrowed before ts).IsChain R := by
  fun_induction arrowed before ts with
  | case1 => exact List.IsChain.nil
  | case2 before t rest u rest' ha ih =>
    have hnew := isChain_arrow harrow hbody ha h
    exact isChain_cons_arrowed hopen hnew (ih hnew.tail)
  | case3 before t rest hno ih => exact isChain_cons_arrowed hopen h (ih h.tail)

end Chain

theorem noPoints_left {t : Token} (h : t.text ≠ ['.']) (u : Token) : NoPoints t u := fun hp => h hp.1

theorem noPoints_right {u : Token} (h : u.text ≠ ['.']) (t : Token) : NoPoints t u := fun hp => h hp.2

theorem noPoints_arrowed {ts : List Token} (h : ts.IsChain NoPoints) (before : Option Token) :
    (arrowed before ts).IsChain NoPoints :=
  isChain_arrowed (noPoints_left (by decide) _) (noPoints_left (by decide) _)
    (fun q _ => noPoints_right (by decide) q) h before

end EffectFusion.Script
