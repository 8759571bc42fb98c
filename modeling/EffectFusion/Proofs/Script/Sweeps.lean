import EffectFusion.Proofs.Script.Elisions
import EffectFusion.Proofs.Script.Groups

/-!
# What a sweep leaves behind

Both rewrites go through a list once, from left to right.  Behind the place where one of them has
come nothing is left for it to rewrite (`Unarrowed`, `Unelided`), and this stays so when the next
token is rewritten: a function expression that was passed over is not let through by an arrow
function near it, and a comparison does not see past a token before which another one was left out.
Leaving out comparisons lets no function expression through either.

* `unarrowed_arrowed`   a list with arrow functions holds no further one;
* `unelided_elided`     a list without comparisons holds none to leave out;
* `unarrowed_elided`    and still no function expression that could be an arrow function.
-/

namespace EffectFusion.Script

/-! ### Function expressions -/

/-- with `after` behind the list none of its tokens starts a function expression that becomes an
arrow function; `before` is the nearest token before it that is no trivia -/
def Unarrowed (after : List Token) : Option Token → List Token → Prop
  | _, [] => True
  | before, t :: us => arrow? before t (us ++ after) = none ∧ Unarrowed after (nearest before t) us

section Unarrowed

variable {before : Option Token} {after us vs : List Token}

theorem unarrowed_append :
    Unarrowed after before (us ++ vs) ↔
      Unarrowed (vs ++ after) before us ∧ Unarrowed after (us.foldl nearest before) vs := by
  induction us generalizing before with
  | nil => simp [Unarrowed]
  | cons u us ih =>
    rw [List.cons_append, Unarrowed, Unarrowed, ih, List.append_assoc, and_assoc]
    rfl

theorem arrowed_of_unarrowed (h : Unarrowed [] before us) : arrowed before us = us := by
  induction us generalizing before with
  | nil => rw [arrowed]
  | cons u us ih =>
    rw [Unarrowed, List.append_nil] at h
    rw [arrowed_skip h.1, ih h.2]

theorem foldl_nearest (h : significant? us = none) : us.foldl nearest before = before := by
  induction us with
  | nil => rfl
  | cons u us ih =>
    have hu : u.isTrivia = true := by
      have := List.find?_eq_none.1 h u List.mem_cons_self
      simpa using this
    have hrest : significant? us = none :=
      List.find?_eq_none.2 (fun v hv => List.find?_eq_none.1 h v (List.mem_cons_of_mem u hv))
    rw [List.foldl_cons, nearest, if_pos hu, ih hrest]

theorem arrow?_eq_none {t : Token} {rest : List Token}
    (h : t = .name "function" → mayPrecedeArrow before = true → ¬ Convertible rest) :
    arrow? before t rest = none := by
  rw [← Option.not_isSome_iff_eq_none, arrow?_isSome_iff]
  exact fun hsome => h hsome.1 hsome.2.1 hsome.2.2

/-- where no bracket opens behind it nothing is a function expression -/
theorem arrow?_of_head {t n : Token} {rest : List Token} (hn : rest.head? = some n)
    (ht : n.isTrivia = false) (hopen : n ≠ .mark "(") : arrow? before t rest = none := by
  refine arrow?_eq_none (fun _ _ ⟨parameters, between, body, tail, hgroup, _⟩ => ?_)
  obtain ⟨rest, rfl⟩ := List.head?_eq_some_iff.1 hn
  have hfirst : significant? (n :: rest) = some n := by simp [significant?, ht]
  rw [bracketGroup?_eq_none (by rw [hfirst]; exact fun he => hopen (Option.some.inj he))] at hgroup
  cases hgroup

/-- what was passed over stays so when something behind it is swapped; `Convertible.swap` for every
token of a list -/
theorem Unarrowed.swap (xs mid mid' : List Token) {z : Token}
    (hlast : us.foldl nearest before ≠ some (.name "function"))
    (hmid : ∀ t ∈ mid, t.isFence = false) (hmid' : ∀ t ∈ mid', t.isFence = false)
    (hcalls : mid'.any (·.isNameOf callWords) = false → mid.any (·.isNameOf callWords) = false)
    (hz : significant? (mid' ++ vs) = some z) (hbody : z ≠ .mark "\x7b")
    (hfollow : z.isMarkOf arrowFollowers = false)
    (h : Unarrowed (xs ++ (mid ++ vs)) before us) : Unarrowed (xs ++ (mid' ++ vs)) before us := by
  induction us generalizing before with
  | nil => trivial
  | cons u us ih =>
    refine ⟨arrow?_eq_none (fun hu hbefore hnew => ?_), ih hlast h.2⟩
    -- the word for the function is not the last token that matters before the swapped part
    have hus : (significant? us).isSome = true := by
      rw [Option.isSome_iff_ne_none]
      intro hnone
      rw [List.foldl_cons, foldl_nearest hnone, hu] at hlast
      exact hlast rfl
    have hsome : (significant? (us ++ xs)).isSome = true := by
      rwa [significant?_of_isSome hus]
    rw [← List.append_assoc] at hnew
    have hold := hnew.swap hsome hmid hmid' hcalls hz hbody hfollow
    rw [List.append_assoc] at hold
    have hone := arrow?_isSome_iff.2 ⟨hu, hbefore, hold⟩
    rw [h.1] at hone
    cases hone

theorem any_callWords_of_trivia {gap : List Token} (h : ∀ t ∈ gap, t.isTrivia = true) :
    gap.any (·.isNameOf callWords) = false := by
  refine List.any_eq_false.2 (fun t ht hcall => ?_)
  obtain ⟨s, -, rfl⟩ := mem_of_isNameOf hcall
  cases h _ ht

theorem isFence_of_isTrivia {t : Token} (h : t.isTrivia = true) : t.isFence = false := by
  have hlandmark := isLandmark_of_isTrivia h
  rw [Token.isLandmark, Bool.or_eq_false_iff] at hlandmark
  exact hlandmark.2

/-- **Step.**  What was passed over stays so when the token behind it becomes an arrow function. -/
theorem unarrowed_arrow {t : Token} {rest out : List Token}
    (ha : arrow? (us.foldl nearest before) t rest = some out) (h : Unarrowed (t :: rest) before us) :
    Unarrowed out before us := by
  obtain ⟨rfl, hbefore, gap, parameters, gap', body, tail, hgap, hgap', rfl, rfl, hopen, -, -⟩ :=
    arrow?_eq_some ha
  have hlast : us.foldl nearest before ≠ some (.name "function") := by
    intro he
    rw [he] at hbefore
    revert hbefore
    decide
  obtain ⟨inner, rfl⟩ := List.head?_eq_some_iff.1 hopen
  -- the word goes, and then the arrow comes for what was between parameters and body
  have hword : Unarrowed (.mark "(" :: inner ++ (gap' ++ (body ++ tail))) before us := by
    refine Unarrowed.swap [] (.name "function" :: gap) [] hlast ?_ (List.forall_mem_nil _)
      (fun _ => ?_) (z := .mark "(") rfl (by decide) (by decide) h
    · exact List.forall_mem_cons.2 ⟨by decide, fun t ht => isFence_of_isTrivia (hgap t ht)⟩
    · rw [List.any_cons, any_callWords_of_trivia hgap]
      decide
  exact Unarrowed.swap _ gap' [.mark "=>"] hlast (fun t ht => isFence_of_isTrivia (hgap' t ht))
    (by decide) (fun _ => any_callWords_of_trivia hgap') (z := .mark "=>") rfl (by decide)
    (by decide) hword

/-- **Run.**  Behind the sweep nothing is left, wherever it has come. -/
theorem unarrowed_sweep {ts : List Token} (h : Unarrowed ts before us) :
    Unarrowed [] before (us ++ arrowed (us.foldl nearest before) ts) := by
  generalize hb : us.foldl nearest before = near
  fun_induction arrowed near ts generalizing us with
  | case1 near => rwa [List.append_nil]
  | case2 near t rest u rest' ha ih =>
    subst hb
    obtain ⟨more, he⟩ := arrow?_eq_cons ha
    obtain ⟨rfl, rfl⟩ := List.cons.inj he
    have hstep := unarrowed_arrow ha h
    have hbracket : arrow? (us.foldl nearest before) (.mark "(") rest' = none :=
      arrow?_eq_none (fun hu => by cases hu)
    have hmore : Unarrowed rest' before (us ++ [.mark "("]) :=
      unarrowed_append.2 ⟨hstep, hbracket, trivial⟩
    have hrest := ih hmore (by rw [List.foldl_append]; rfl)
    rwa [List.append_assoc] at hrest
  | case3 near t rest hno ih =>
    subst hb
    have ha : arrow? (us.foldl nearest before) t rest = none := by
      cases he : arrow? (us.foldl nearest before) t rest with
      | none => rfl
      | some out =>
        obtain ⟨more, rfl⟩ := arrow?_eq_cons he
        exact absurd he (hno _ _)
    have hmore : Unarrowed rest before (us ++ [t]) := unarrowed_append.2 ⟨h, ha, trivial⟩
    have hrest := ih hmore (by rw [List.foldl_append]; rfl)
    rwa [List.append_assoc] at hrest

theorem unarrowed_arrowed (before : Option Token) (ts : List Token) :
    Unarrowed [] before (arrowed before ts) :=
  unarrowed_sweep (show Unarrowed ts before [] from trivial)

/-! ### Function expressions beside comparisons -/

theorem mem_memberChain? {ts chain rest : List Token} (h : memberChain? ts = some (chain, rest)) :
    ∀ t ∈ chain, t.kind = .word ∨ t = .mark "." := by
  fun_induction memberChain? ts generalizing chain with
  | case1 => cases h
  | case2 => cases h
  | case3 w point v more hw hv ih =>
    obtain ⟨⟨c, r⟩, hc, he⟩ := Option.map_eq_some_iff.1 h
    obtain ⟨rfl, rfl⟩ := Prod.mk.inj he
    have hpoint := (Token.isMark_iff point ".").1 hv.1
    exact List.forall_mem_cons.2 ⟨Or.inl (by simpa using hw),
      List.forall_mem_cons.2 ⟨Or.inr hpoint, ih hc⟩⟩
  | case4 w point v more hw =>
    obtain ⟨rfl, -⟩ := Prod.mk.inj (Option.some.inj h)
    exact List.forall_mem_singleton.2 (Or.inl (by simpa using hw))
  | case5 w rest _ hw =>
    obtain ⟨rfl, -⟩ := Prod.mk.inj (Option.some.inj h)
    exact List.forall_mem_singleton.2 (Or.inl hw)
  | case6 => cases h

/-- no trivia, no bracket, no comparison, and nothing that an arrow function stands before -/
structure Token.Plain (t : Token) : Prop where
  noTrivia : t.isTrivia = false
  noFence : t.isFence = false
  noComparison : comparison? t = none
  noFollower : t.isMarkOf arrowFollowers = false

theorem plain_of_word {t : Token} (h : t.kind = .word) : t.Plain := by
  have hne : t.kind ≠ .punctuation := by simp [h]
  exact ⟨by simp [Token.isTrivia, Token.isWhitespace, Token.isComment, h],
    isMarkOf_of_not_mark hne _, comparison?_of_not_mark hne, isMarkOf_of_not_mark hne _⟩

theorem plain_mark {s : String} (h : s ∈ ["!", "."]) : (Token.mark s).Plain := by
  have hall : ∀ s ∈ ["!", "."], (Token.mark s).isTrivia = false ∧ (Token.mark s).isFence = false ∧
      comparison? (.mark s) = none ∧ (Token.mark s).isMarkOf arrowFollowers = false := by decide
  obtain ⟨h1, h2, h3, h4⟩ := hall s h
  exact ⟨h1, h2, h3, h4⟩

theorem plain_of_chain {ts chain rest : List Token} (h : memberChain? ts = some (chain, rest)) :
    ∀ t ∈ chain, t.Plain := by
  intro t ht
  rcases mem_memberChain? h t ht with hw | rfl
  · exact plain_of_word hw
  · exact plain_mark (by decide)

/-- among such tokens no bracket opens behind a word -/
theorem unarrowed_of_plain {n : Token} (h : ∀ t ∈ us, t.Plain) (hn : after.head? = some n)
    (hnt : n.isTrivia = false) (hopen : n ≠ .mark "(") : Unarrowed after before us := by
  induction us generalizing before with
  | nil => trivial
  | cons u us ih =>
    refine ⟨?_, ih (fun t ht => h t (List.mem_cons_of_mem u ht))⟩
    cases us with
    | nil => exact arrow?_of_head hn hnt hopen
    | cons v us =>
      have hv := h v (by simp)
      refine arrow?_of_head rfl hv.noTrivia ?_
      rintro rfl
      cases hv.noFence

theorem unarrowed_of_before {before' : Option Token} {n : Token} (hnt : n.isTrivia = false)
    (hn : n ≠ .name "function") (h : Unarrowed after before (n :: us)) :
    Unarrowed after before' (n :: us) := by
  refine ⟨arrow?_eq_none (fun he => absurd he hn), ?_⟩
  have hrest := h.2
  rwa [nearest, hnt, if_neg Bool.false_ne_true] at hrest ⊢

theorem not_fence_of_literal {literal : List Token} {value : Bool} (h : literal ∈ spellings value) :
    (∀ t ∈ literal, t.isFence = false) ∧ literal.any (·.isNameOf callWords) = false := by
  have hall : ∀ value, ∀ literal ∈ spellings value, (∀ t ∈ literal, t.isFence = false) ∧
      literal.any (·.isNameOf callWords) = false := by decide
  exact hall value literal h

theorem not_fence_of_comparison {t : Token} {negated : Bool} (h : comparison? t = some negated) :
    t.isFence = false ∧ t.isNameOf callWords = false := by
  rcases comparison?_eq_some h with rfl | rfl <;> cases negated <;> decide

/-- a comparison that is left out, with all that is looked at: the marks on both sides, its member
with the sign that it gets, and the truth value -/
structure ElisionParts (p : Token) (sign chain : List Token) (t : Token) (literal : List Token) (n : Token) :
    Prop where
  opens : p.isMarkOf comparisonPreceders = true
  closes : n.isMarkOf comparisonFollowers = true
  plain : ∀ u ∈ sign ++ chain, u.Plain
  member : chain ≠ []
  compares : t.isFence = false ∧ t.isNameOf callWords = false
  value : (∀ u ∈ literal, u.isFence = false) ∧ literal.any (·.isNameOf callWords) = false

theorem elisionParts_of_elision {done done' rest rest' : List Token} {t : Token}
    (he : elision? done t rest = some (done', rest')) :
    ∃ left p sign chain literal n right, ElisionParts p sign chain t literal n ∧
      done.reverse = left ++ p :: chain ∧ rest = literal ++ n :: right ∧
      done'.reverse = left ++ p :: (sign ++ chain) ∧ rest' = n :: right := by
  obtain ⟨negated, value, chain, opened, literal, hcompare, hliteral, rfl, rfl, hchain, hplace,
    hfollow, rfl⟩ := elision?_eq_some he
  obtain ⟨v, hv, -⟩ := memberChain?_getLast? hchain
  have hne : chain.reverse ≠ [] := by
    intro hnil
    rw [List.reverse_eq_nil_iff.1 hnil] at hv
    cases hv
  cases opened with
  | nil => cases hplace
  | cons p opened =>
    cases rest' with
    | nil => cases hfollow
    | cons n right =>
      have hsign : ∀ u ∈ (if value = negated then [Token.mark "!"] else []), u.Plain := by
        split
        · exact List.forall_mem_singleton.2 (plain_mark (by decide))
        · exact List.forall_mem_nil _
      refine ⟨opened.reverse, p, (if value = negated then [.mark "!"] else []).reverse, chain.reverse,
        literal, n, right, ⟨hplace, hfollow, ?_, hne, not_fence_of_comparison hcompare,
          not_fence_of_literal hliteral⟩, by simp, rfl, by simp, rfl⟩
      intro u hu
      rcases List.mem_append.1 hu with hu | hu
      · exact hsign u (List.mem_reverse.1 hu)
      · exact plain_of_chain hchain u (List.mem_reverse.1 hu)

/-- **Step.**  No function expression is let through when a comparison is left out. -/
theorem unarrowed_elision {done done' rest rest' : List Token} {t : Token}
    (he : elision? done t rest = some (done', rest'))
    (h : Unarrowed [] before (done.reverse ++ t :: rest)) :
    Unarrowed [] before (done'.reverse ++ rest') := by
  obtain ⟨left, p, sign, chain, literal, n, right, hparts, hdone, rfl, hdone', rfl⟩ :=
    elisionParts_of_elision he
  obtain ⟨pm, hpm, rfl⟩ := mem_of_isMarkOf hparts.opens
  obtain ⟨nm, hnm, rfl⟩ := mem_of_isMarkOf hparts.closes
  have hfollower : ∀ s ∈ comparisonFollowers, (Token.mark s) ≠ .mark "(" := by decide
  have hmember : ∀ u ∈ chain, u.Plain := fun u hu => hparts.plain u (List.mem_append_right _ hu)
  -- the three parts: what was before the member, the member, and what follows
  have hold : Unarrowed [] before ((left ++ [.mark pm]) ++
      ((chain ++ t :: literal) ++ .mark nm :: right)) := by
    simpa [hdone] using h
  have hnew : done'.reverse ++ .mark nm :: right =
      (left ++ [.mark pm]) ++ ((sign ++ chain) ++ .mark nm :: right) := by
    simp [hdone']
  obtain ⟨hleft, hright⟩ := unarrowed_append.1 hold
  rw [hnew]
  refine unarrowed_append.2 ⟨?_, unarrowed_append.2 ⟨?_, ?_⟩⟩
  · obtain ⟨z, more, hz⟩ := List.exists_cons_of_ne_nil
      (List.append_ne_nil_of_right_ne_nil sign hparts.member)
    have hzp := hparts.plain z (by rw [hz]; exact List.mem_cons_self)
    rw [List.append_nil] at hleft ⊢
    refine Unarrowed.swap [] (chain ++ t :: literal) (sign ++ chain) (z := z) ?_ ?_
      (fun u hu => (hparts.plain u hu).noFence) ?_ ?_ ?_ hzp.noFollower hleft
    · rw [List.foldl_append]
      exact fun he => by cases Option.some.inj he
    · intro u hu
      rcases List.mem_append.1 hu with hu | hu
      · exact (hmember u hu).noFence
      · rcases List.mem_cons.1 hu with rfl | hu
        · exact hparts.compares.1
        · exact hparts.value.1 u hu
    · intro hno
      rw [List.any_append, Bool.or_eq_false_iff] at hno
      rw [List.any_append, List.any_cons, hno.2, hparts.compares.2, hparts.value.2]
      rfl
    · rw [hz, List.cons_append]
      simp [significant?, hzp.noTrivia]
    · rintro rfl
      cases hzp.noFence
  · exact unarrowed_of_plain hparts.plain rfl rfl (hfollower nm hnm)
  · exact unarrowed_of_before rfl (fun hf => by cases hf) (unarrowed_append.1 hright).2

/-- **Run.**  No function expression is let through when comparisons are left out. -/
theorem unarrowed_elided {done ts : List Token} (h : Unarrowed [] before (done.reverse ++ ts)) :
    Unarrowed [] before (elided done ts) := by
  fun_induction elided done ts with
  | case1 done => rwa [List.append_nil] at h
  | case2 done t rest done' rest' he ih => exact ih (unarrowed_elision he h)
  | case3 done t rest he ih =>
    refine ih ?_
    rwa [List.reverse_cons, List.append_assoc, List.singleton_append]

end Unarrowed

/-! ### Comparisons -/

/-- with `after` behind the list none of its comparisons is left out; `done` is what was read before
it, last token first -/
def Unelided (after : List Token) : List Token → List Token → Prop
  | _, [] => True
  | done, t :: us => elision? done t (us ++ after) = none ∧ Unelided after (t :: done) us

section Unelided

variable {after done us vs : List Token}

theorem unelided_append :
    Unelided after done (us ++ vs) ↔
      Unelided (vs ++ after) done us ∧ Unelided after (us.reverse ++ done) vs := by
  induction us generalizing done with
  | nil => simp [Unelided]
  | cons u us ih =>
    rw [List.cons_append, Unelided, Unelided, ih, List.append_assoc, and_assoc, List.reverse_cons,
      List.append_assoc]
    rfl

theorem elided_of_unelided (h : Unelided [] done us) : elided done us = done.reverse ++ us := by
  induction us generalizing done with
  | nil => rw [elided_nil, List.append_nil]
  | cons u us ih =>
    rw [Unelided, List.append_nil] at h
    rw [elided_skip h.1, ih h.2, List.reverse_cons, List.append_assoc, List.singleton_append]

theorem unelided_of_plain (h : ∀ t ∈ us, t.Plain) : Unelided after done us := by
  induction us generalizing done with
  | nil => trivial
  | cons u us ih =>
    exact ⟨elision?_of_not_comparison (h u List.mem_cons_self).noComparison done _,
      ih (fun t ht => h t (List.mem_cons_of_mem u ht))⟩

/-- no look ahead goes past a mark that a comparison may stand behind -/
theorem unelided_before_mark {p : Token} (hp : p.isMarkOf comparisonPreceders = true)
    (h : Unelided after done (us ++ [p])) (after' : List Token) :
    Unelided after' done (us ++ [p]) := by
  have hmark : ∀ after : List Token, ∀ q ∈ some p, ∀ n ∈ after.head?, comparison? q = none ∧
      q.isMark "!" = false ∧ (endsTruth q = true → n.isMarkOf comparisonFollowers = false) := by
    have hall : ∀ s ∈ comparisonPreceders, comparison? (.mark s) = none ∧
        (Token.mark s).isMark "!" = false ∧ endsTruth (.mark s) = false := by decide
    intro after q hq n _
    obtain ⟨s, hs, rfl⟩ := mem_of_isMarkOf hp
    obtain rfl := Option.some.inj hq
    obtain ⟨h1, h2, h3⟩ := hall s hs
    exact ⟨h1, h2, fun ht => absurd (h3.symm.trans ht) Bool.false_ne_true⟩
  have hlook : ∀ (t : Token) (us done after : List Token), (t :: us).getLast? = some p →
      (elision? done t (us ++ after) = none ↔ elision? done t us = none) := by
    intro t us done after hlast
    rw [elision?_append (hlast ▸ hmark after), Option.map_eq_none_iff]
  induction us generalizing done with
  | nil =>
    have hnil := (hlook p [] done after rfl).1 h.1
    exact ⟨(hlook p [] done after' rfl).2 hnil, trivial⟩
  | cons u us ih =>
    have hlast : (u :: (us ++ [p])).getLast? = some p := by
      rw [← List.cons_append, List.getLast?_concat]
    have hnone := (hlook u (us ++ [p]) done after hlast).1 h.1
    exact ⟨(hlook u (us ++ [p]) done after' hlast).2 hnone, ih h.2⟩

/-- **Step.**  Where nothing was left out before, nothing is when the next comparison has gone. -/
theorem unelided_elision {done' rest rest' : List Token} {t : Token}
    (he : elision? done t rest = some (done', rest')) (h : Unelided (t :: rest) [] done.reverse) :
    Unelided rest' [] done'.reverse := by
  obtain ⟨left, p, sign, chain, literal, n, right, hparts, hdone, rfl, hdone', rfl⟩ :=
    elisionParts_of_elision he
  rw [hdone, List.append_cons left p chain] at h
  rw [hdone', List.append_cons left p (sign ++ chain)]
  exact unelided_append.2
    ⟨unelided_before_mark hparts.opens (unelided_append.1 h).1 _, unelided_of_plain hparts.plain⟩

/-- **Run.**  Behind the sweep no comparison is left that could be left out. -/
theorem unelided_elided {ts : List Token} (h : Unelided ts [] done.reverse) :
    Unelided [] [] (elided done ts) := by
  fun_induction elided done ts with
  | case1 done => exact h
  | case2 done t rest done' rest' he ih => exact ih (unelided_elision he h)
  | case3 done t rest he ih =>
    refine ih ?_
    rw [List.reverse_cons]
    refine unelided_append.2 ⟨h, ?_, trivial⟩
    rw [List.reverse_reverse, List.append_nil]
    exact he

end Unelided

end EffectFusion.Script
