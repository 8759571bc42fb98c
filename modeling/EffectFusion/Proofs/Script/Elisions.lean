import EffectFusion.Proofs.Script.Arrows

/-!
# Comparisons side by side

Leaving out comparisons works through a list from left to right with a look back at what it has
written and a look ahead.  Neither look goes past two neighbours that are `loose`, so a list can
be cut there and its parts rewritten one by one.  White space is loose on both sides, and tokens
that part are loose as well; hence the layout does not matter.

* `elided_parts`          a list cut between loose neighbours;
* `LaidAlike.gap`         white space between tokens that part is passed;
* `elided_laid`           so the tokens that matter are rewritten alike without white space, and
                          the layout stays.
-/

namespace EffectFusion.Script

/-! ### Loose neighbours -/

/-- an operand that may be a truth value -/
def endsTruth (t : Token) : Bool :=
  t.isTruthWord || t = truthDigit true || t = truthDigit false

/-- no comparison with a truth value, as far as it is read, holds both -/
def loose (p n : Token) : Bool :=
  (comparison? p).isNone && !p.isMark "!" && !p.isMark "."
    && !(p.kind = .word && (n.isMark "." || (comparison? n).isSome))
    && !(p.isMarkOf comparisonPreceders && n.kind = .word)
    && !(endsTruth p && n.isMarkOf comparisonFollowers)

/-- the parts of `loose` -/
structure Loose (p n : Token) : Prop where
  noComparison : comparison? p = none
  noNegation : p.isMark "!" = false
  noPoint : p.isMark "." = false
  noMember : p.kind = .word → n.isMark "." = false ∧ comparison? n = none
  noStart : p.isMarkOf comparisonPreceders = true → n.kind ≠ .word
  noEnd : endsTruth p = true → n.isMarkOf comparisonFollowers = false

theorem loose_iff (p n : Token) : loose p n = true ↔ Loose p n := by
  simp only [loose, Bool.and_eq_true, Bool.not_eq_true', Option.isNone_iff_eq_none]
  constructor
  · rintro ⟨⟨⟨⟨⟨h1, h2⟩, h3⟩, h4⟩, h5⟩, h6⟩
    refine ⟨h1, h2, h3, fun h => ?_, fun h hn => ?_, fun h => ?_⟩
    · simpa [h] using h4
    · simp [h, hn] at h5
    · simpa [h] using h6
  · rintro ⟨h1, h2, h3, h4, h5, h6⟩
    refine ⟨⟨⟨⟨⟨h1, h2⟩, h3⟩, ?_⟩, ?_⟩, ?_⟩
    · by_cases h : p.kind = .word
      · simp [h, h4 h]
      · simp [h]
    · cases h : p.isMarkOf comparisonPreceders with
      | true => simp [h5 h]
      | false => rfl
    · cases h : endsTruth p with
      | true => simp [h6 h]
      | false => rfl

/-! ### Looking ahead -/

theorem truthLiteral?_append {ts us : List Token} (hne : ts ≠ [])
    (h : ∀ p ∈ ts.getLast?, p.isMark "!" = false) :
    truthLiteral? (ts ++ us) = (truthLiteral? ts).map (fun r => (r.1, r.2 ++ us)) := by
  cases ts with
  | nil => exact absurd rfl hne
  | cons t ts =>
    rw [List.cons_append, truthLiteral?, truthLiteral?]
    split
    · rfl
    split
    · rfl
    split
    · rename_i ht
      cases ts with
      | nil =>
        rw [h t rfl] at ht
        cases ht
      | cons u ts =>
        rw [List.cons_append, List.head?_cons, List.head?_cons, List.tail_cons, List.tail_cons]
        split
        · rfl
        split
        · rfl
        · rfl
    · rfl

theorem truthLiteral?_nil_right {ts : List Token} {b : Bool} (h : truthLiteral? ts = some (b, [])) :
    ∃ p, ts.getLast? = some p ∧ endsTruth p = true := by
  obtain ⟨literal, hl, rfl⟩ := truthLiteral?_eq_some h
  have hall : ∀ b, ∀ l ∈ spellings b, ∃ p, l.getLast? = some p ∧ endsTruth p = true := by
    intro b l hl
    simp only [spellings, List.mem_cons, List.not_mem_nil, or_false] at hl
    rcases hl with rfl | rfl <;> cases b <;> exact ⟨_, rfl, by decide⟩
  rw [List.append_nil]
  exact hall b literal hl

/-- a place is not seen from behind tokens that do not change what follows it -/
theorem placed_append_right {negated value : Bool} {chain before rest us : List Token}
    (h : holds (·.isMarkOf comparisonFollowers) (rest ++ us).head? =
      holds (·.isMarkOf comparisonFollowers) rest.head?) :
    placed negated value chain before (rest ++ us) =
      (placed negated value chain before rest).map (fun r => (r.1, r.2 ++ us)) := by
  unfold placed
  rw [h]
  split <;> rfl

/-- what is looked at ahead lies before a cut -/
theorem elision?_append {done ts us : List Token} {t : Token}
    (h : ∀ p ∈ (t :: ts).getLast?, ∀ n ∈ us.head?, comparison? p = none ∧ p.isMark "!" = false ∧
      (endsTruth p = true → n.isMarkOf comparisonFollowers = false)) :
    elision? done t (ts ++ us) = (elision? done t ts).map (fun r => (r.1, r.2 ++ us)) := by
  cases us with
  | nil => cases he : elision? done t ts <;> simp [he]
  | cons n us =>
    rw [elision?_eq, elision?_eq]
    cases hc : comparison? t with
    | none => rfl
    | some negated =>
      have hne : ts ≠ [] := by
        rintro rfl
        rw [(h t rfl n rfl).1] at hc
        cases hc
      have hlast : (t :: ts).getLast? = ts.getLast? := by
        obtain ⟨u, vs, rfl⟩ := List.exists_cons_of_ne_nil hne
        rw [List.getLast?_cons_cons]
      rw [hlast] at h
      rw [truthLiteral?_append hne (fun p hp => (h p hp n rfl).2.1)]
      cases hl : truthLiteral? ts with
      | none => rfl
      | some literal =>
        obtain ⟨value, rest⟩ := literal
        have hfollow : holds (·.isMarkOf comparisonFollowers) (rest ++ n :: us).head? =
            holds (·.isMarkOf comparisonFollowers) rest.head? := by
          cases rest with
          | nil =>
            obtain ⟨p, hp, htruth⟩ := truthLiteral?_nil_right hl
            exact (h p hp n rfl).2.2 htruth
          | cons v rest => rfl
        cases memberChain? done with
        | none => rfl
        | some chain => exact placed_append_right hfollow

/-! ### Looking back -/

theorem memberChain?_getLast? {ts chain rest : List Token}
    (h : memberChain? ts = some (chain, rest)) : ∃ v, chain.getLast? = some v ∧ v.kind = .word := by
  fun_induction memberChain? ts generalizing chain with
  | case1 => cases h
  | case2 => cases h
  | case3 w point v more hw hv ih =>
    obtain ⟨⟨c, r⟩, hc, he⟩ := Option.map_eq_some_iff.1 h
    obtain ⟨rfl, rfl⟩ := Prod.mk.inj he
    obtain ⟨x, hx, hk⟩ := ih hc
    refine ⟨x, ?_, hk⟩
    rw [List.getLast?_cons, List.getLast?_cons, hx]
    rfl
  | case4 w point v more hw =>
    obtain ⟨rfl, -⟩ := Prod.mk.inj (Option.some.inj h)
    exact ⟨w, rfl, by simpa using hw⟩
  | case5 w rest _ hw =>
    obtain ⟨rfl, -⟩ := Prod.mk.inj (Option.some.inj h)
    exact ⟨w, rfl, hw⟩
  | case6 => cases h

theorem memberChain?_of_not_word {w : Token} (h : w.kind ≠ .word) (ts : List Token) :
    memberChain? (w :: ts) = none := by
  rcases ts with _ | ⟨point, _ | ⟨v, more⟩⟩
  · rw [memberChain?, if_neg h]
    exact fun _ _ _ he => by cases he
  · rw [memberChain?, if_neg h]
    exact fun _ _ _ he => by cases he
  · rw [memberChain?, if_pos h]

theorem memberChain?_head? {ts chain rest : List Token}
    (h : memberChain? ts = some (chain, rest)) : ∃ w, chain.head? = some w ∧ w.kind = .word := by
  obtain ⟨v, hv, -⟩ := memberChain?_getLast? h
  have hne : chain ≠ [] := by
    rintro rfl
    cases hv
  obtain ⟨w, more, rfl⟩ := List.exists_cons_of_ne_nil hne
  refine ⟨w, rfl, ?_⟩
  by_contra hw
  rw [memberChain?_eq_some h, List.cons_append, memberChain?_of_not_word hw] at h
  cases h

theorem memberChain?_of_word {w : Token} (h : w.kind = .word) {ts : List Token}
    (hp : ∀ point v more, ts = point :: v :: more → ¬ (point.isMark "." = true ∧ v.kind = .word)) :
    memberChain? (w :: ts) = some ([w], ts) := by
  have hw : ¬ w.kind ≠ .word := fun hne => hne h
  rcases ts with _ | ⟨point, _ | ⟨v, more⟩⟩
  · rw [memberChain?, if_pos h]
    exact fun _ _ _ he => by cases he
  · rw [memberChain?, if_pos h]
    exact fun _ _ _ he => by cases he
  · rw [memberChain?, if_neg hw, if_neg (hp point v more rfl)]

/-- a chain of members does not go past a cut; both lists have their last token first -/
theorem memberChain?_append {ts us : List Token} (hne : ts ≠ [])
    (h : ∀ p ∈ us.head?, ∀ n ∈ ts.getLast?, Loose p n) :
    memberChain? (ts ++ us) = (memberChain? ts).map (fun c => (c.1, c.2 ++ us)) := by
  fun_induction memberChain? ts with
  | case1 => exact absurd rfl hne
  | case2 w point v more hw => exact memberChain?_of_not_word hw _
  | case3 w point v more hw hv ih =>
    have hlast : (w :: point :: v :: more).getLast? = (v :: more).getLast? := by
      rw [List.getLast?_cons_cons, List.getLast?_cons_cons]
    rw [hlast] at h
    rw [List.cons_append, List.cons_append, List.cons_append, memberChain?, if_neg hw, if_pos hv,
      ← List.cons_append, ih (List.cons_ne_nil v more) h, Option.map_map, Option.map_map]
    rfl
  | case4 w point v more hw hv =>
    rw [List.cons_append, List.cons_append, List.cons_append, memberChain?, if_neg hw, if_neg hv]
    rfl
  | case5 w rest hshape hw =>
    refine memberChain?_of_word hw (fun point v more he hpv => ?_)
    rcases rest with _ | ⟨x, _ | ⟨y, more'⟩⟩
    · -- the point would come right after the cut
      obtain rfl : us = point :: v :: more := he
      rw [(h point rfl w rfl).noPoint] at hpv
      cases hpv.1
    · -- the point would be the first token behind the cut, after a word before it
      obtain ⟨rfl, rfl⟩ : x = point ∧ us = v :: more := List.cons.inj he
      rw [((h v rfl x rfl).noMember hpv.2).1] at hpv
      cases hpv.1
    · exact hshape x y more' rfl
  | case6 w rest hshape hw => exact memberChain?_of_not_word hw _

theorem placed_append_left {negated value : Bool} {chain before rest us : List Token}
    (h : holds (·.isMarkOf comparisonPreceders) (before ++ us).head? =
      holds (·.isMarkOf comparisonPreceders) before.head?) :
    placed negated value chain (before ++ us) rest =
      (placed negated value chain before rest).map (fun r => (r.1 ++ us, r.2)) := by
  unfold placed
  rw [h]
  split <;> simp

/-- what stands before a chain lies behind a cut, or nothing that lets a comparison through does -/
theorem holds_before_chain {done us chain before : List Token} {n : Token}
    (h : ∀ p ∈ us.head?, Loose p n) (hchain : memberChain? (done ++ [n]) = some (chain, before)) :
    holds (·.isMarkOf comparisonPreceders) (before ++ us).head? =
      holds (·.isMarkOf comparisonPreceders) before.head? := by
  cases before with
  | cons q before => rfl
  | nil =>
    -- the chain takes everything behind the cut, and it starts with a word
    have hall := memberChain?_eq_some hchain
    obtain ⟨v, hv, hk⟩ := memberChain?_getLast? hchain
    rw [List.append_nil] at hall
    rw [← hall, List.getLast?_concat] at hv
    obtain rfl := Option.some.inj hv
    cases us with
    | nil => rfl
    | cons p us =>
      show p.isMarkOf comparisonPreceders = false
      by_contra hs
      exact (h p rfl).noStart (by simpa using hs) hk

/-- what is looked back at lies behind a cut -/
theorem elision?_cut {done us : List Token} {t : Token} {rest : List Token}
    (h : ∀ p ∈ us.head?, ∀ n ∈ (done.reverse ++ [t]).head?, Loose p n) :
    elision? (done ++ us) t rest = (elision? done t rest).map (fun r => (r.1 ++ us, r.2)) := by
  rw [elision?_eq, elision?_eq]
  cases hc : comparison? t with
  | none => rfl
  | some negated =>
    cases truthLiteral? rest with
    | none => rfl
    | some literal =>
      rcases List.eq_nil_or_concat done with rfl | ⟨done, n, rfl⟩
      · have hno : memberChain? us = none := by
          cases us with
          | nil => rfl
          | cons p us =>
            refine memberChain?_of_not_word (fun hp => ?_) us
            rw [((h p rfl t rfl).noMember hp).2] at hc
            cases hc
        rw [List.nil_append, hno]
        rfl
      · rw [List.concat_eq_append] at h ⊢
        have h : ∀ p ∈ us.head?, Loose p n := fun p hp => h p hp n (by simp)
        rw [memberChain?_append (by simp) (fun p hp m hm => by
          rw [List.getLast?_concat] at hm
          rw [← Option.some.inj hm]
          exact h p hp)]
        cases hchain : memberChain? (done ++ [n]) with
        | none => rfl
        | some chain => exact placed_append_left (holds_before_chain h hchain)

/-! ### Lists cut in parts -/

theorem elided_step {done done' : List Token} {t : Token} {rest rest' : List Token}
    (h : elision? done t rest = some (done', rest')) :
    elided done (t :: rest) = elided done' rest' := by
  rw [elided.eq_def]
  simp only
  split
  · rename_i d r he
    rw [h] at he
    obtain ⟨rfl, rfl⟩ := Prod.mk.inj (Option.some.inj he)
    rfl
  · rename_i he
    rw [h] at he
    cases he

theorem elided_skip {done : List Token} {t : Token} {rest : List Token}
    (h : elision? done t rest = none) : elided done (t :: rest) = elided (t :: done) rest := by
  rw [elided.eq_def]
  simp only
  split
  · rename_i d r he
    rw [h] at he
    cases he
  · rfl

theorem elided_nil (done : List Token) : elided done [] = done.reverse := by rw [elided]

theorem elided_over {ts : List Token} (h : ∀ t ∈ ts, comparison? t = none)
    (done rest : List Token) : elided done (ts ++ rest) = elided (ts.reverse ++ done) rest := by
  induction ts generalizing done with
  | nil => rfl
  | cons t ts ih =>
    have hskip := elision?_of_not_comparison (h t List.mem_cons_self) done (ts ++ rest)
    rw [List.cons_append, elided_skip hskip, ih (fun u hu => h u (List.mem_cons_of_mem t hu)),
      List.reverse_cons, List.append_assoc, List.singleton_append]

/-- a comparison that is left out is neither at the start nor at the end -/
theorem elision?_ends {done done' : List Token} {t : Token} {rest rest' : List Token}
    (h : elision? done t rest = some (done', rest')) :
    rest' ≠ [] ∧ rest'.getLast? = rest.getLast? ∧ done ≠ [] ∧ done'.getLast? = done.getLast? := by
  obtain ⟨negated, value, chain, before, literal, -, -, rfl, rfl, -, hbefore, hfollow, rfl⟩ :=
    elision?_eq_some h
  have h1 : rest' ≠ [] := by
    rintro rfl
    cases hfollow
  have h2 : before ≠ [] := by
    rintro rfl
    cases hbefore
  refine ⟨h1, ?_, ?_, ?_⟩
  · rw [List.getLast?_append_of_ne_nil _ h1]
  · simp [h2]
  · rw [← List.append_assoc, List.getLast?_append_of_ne_nil _ h2,
      List.getLast?_append_of_ne_nil _ h2]

theorem elided_append {done ts us : List Token}
    (h : ∀ p ∈ ts.getLast?, ∀ n ∈ us.head?, Loose p n) :
    elided done (ts ++ us) = elided (elided done ts).reverse us := by
  have hahead : ∀ {ts : List Token}, (∀ p ∈ ts.getLast?, ∀ n ∈ us.head?, Loose p n) →
      ∀ p ∈ ts.getLast?, ∀ n ∈ us.head?, comparison? p = none ∧ p.isMark "!" = false ∧
        (endsTruth p = true → n.isMarkOf comparisonFollowers = false) :=
    fun h p hp n hn => ⟨(h p hp n hn).noComparison, (h p hp n hn).noNegation, (h p hp n hn).noEnd⟩
  fun_induction elided done ts with
  | case1 done => rw [List.reverse_reverse, List.nil_append]
  | case2 done t rest done' rest' he ih =>
    obtain ⟨hne, hlast, -, -⟩ := elision?_ends he
    have hcons : (t :: rest).getLast? = rest'.getLast? := by
      rw [List.getLast?_cons, hlast]
      cases hr : rest.getLast? with
      | none =>
        rw [hr, List.getLast?_eq_none_iff] at hlast
        exact absurd hlast hne
      | some p => rfl
    have happ : elision? done t (rest ++ us) = some (done', rest' ++ us) := by
      rw [elision?_append (hahead h), he, Option.map_some]
    rw [List.cons_append, elided_step happ, ih (hcons ▸ h)]
  | case3 done t rest he ih =>
    have happ : elision? done t (rest ++ us) = none := by
      rw [elision?_append (hahead h), he, Option.map_none]
    rw [List.cons_append, elided_skip happ]
    refine ih (fun p hp => h p ?_)
    rw [Option.mem_def] at hp ⊢
    rw [List.getLast?_cons, hp]
    rfl

theorem elided_cut {done us ts : List Token}
    (h : ∀ p ∈ us.head?, ∀ n ∈ (done.reverse ++ ts).head?, Loose p n) :
    elided (done ++ us) ts = us.reverse ++ elided done ts := by
  fun_induction elided done ts with
  | case1 done => rw [elided_nil, List.reverse_append]
  | case2 done t rest done' rest' he ih =>
    obtain ⟨-, -, hne, hlast⟩ := elision?_ends he
    have hhead : ∀ xs : List Token, (done.reverse ++ xs).head? = done.getLast? := by
      intro xs
      rw [List.head?_append_of_ne_nil _ (by simpa using hne), List.head?_reverse]
    rw [hhead] at h
    have hcut : elision? (done ++ us) t rest = some (done' ++ us, rest') := by
      rw [elision?_cut (by rwa [hhead]), he, Option.map_some]
    rw [elided_step hcut]
    refine ih ?_
    have hne' : done' ≠ [] := by
      rintro rfl
      rw [List.getLast?_nil] at hlast
      exact hne (List.getLast?_eq_none_iff.1 hlast.symm)
    rwa [List.head?_append_of_ne_nil _ (by simpa using hne'), List.head?_reverse, hlast]
  | case3 done t rest he ih =>
    have hhead : (done.reverse ++ [t]).head? = (done.reverse ++ t :: rest).head? := by
      cases done.reverse <;> rfl
    have hcut : elision? (done ++ us) t rest = none := by
      rw [elision?_cut (by rwa [hhead]), he, Option.map_none]
    rw [elided_skip hcut, ← List.cons_append]
    refine ih ?_
    rwa [List.reverse_cons, List.append_assoc, List.singleton_append]

theorem getLast?_elided (done ts : List Token) :
    (elided done ts).getLast? = (done.reverse ++ ts).getLast? := by
  fun_induction elided done ts with
  | case1 done => rw [List.append_nil]
  | case2 done t rest done' rest' he ih =>
    obtain ⟨hne, hlast, -, -⟩ := elision?_ends he
    have hne' : rest ≠ [] := by
      rintro rfl
      rw [List.getLast?_nil] at hlast
      exact hne (List.getLast?_eq_none_iff.1 hlast)
    rw [ih, List.getLast?_append_of_ne_nil _ hne, hlast,
      List.getLast?_append_of_ne_nil _ (List.cons_ne_nil t rest)]
    obtain ⟨v, vs, rfl⟩ := List.exists_cons_of_ne_nil hne'
    rw [List.getLast?_cons_cons]
  | case3 done t rest he ih => rw [ih, List.reverse_cons, List.append_assoc, List.singleton_append]

theorem head?_elided (done ts : List Token) :
    (elided done ts).head? = (done.reverse ++ ts).head? := by
  fun_induction elided done ts with
  | case1 done => rw [List.append_nil]
  | case2 done t rest done' rest' he ih =>
    obtain ⟨-, -, hne, hlast⟩ := elision?_ends he
    have hne' : done' ≠ [] := by
      rintro rfl
      rw [List.getLast?_nil] at hlast
      exact hne (List.getLast?_eq_none_iff.1 hlast.symm)
    rw [ih, List.head?_append_of_ne_nil _ (by simpa using hne'), List.head?_reverse, hlast,
      List.head?_append_of_ne_nil _ (by simpa using hne), List.head?_reverse]
  | case3 done t rest he ih => rw [ih, List.reverse_cons, List.append_assoc, List.singleton_append]

/-- **Parts.**  Between loose neighbours a list can be cut, and its parts are rewritten one by
one. -/
theorem elided_parts {ts us : List Token} (h : ∀ p ∈ ts.getLast?, ∀ n ∈ us.head?, Loose p n) :
    elided [] (ts ++ us) = elided [] ts ++ elided [] us := by
  have hcut : elided ([] ++ (elided [] ts).reverse) us =
      (elided [] ts).reverse.reverse ++ elided [] us := by
    refine elided_cut ?_
    rw [List.head?_reverse, getLast?_elided, List.reverse_nil, List.nil_append]
    exact h
  rw [elided_append h, ← List.nil_append (elided [] ts).reverse, hcut, List.reverse_reverse]

/-! ### Tokens that part -/

theorem comparison?_of_not_mark {t : Token} (h : t.kind ≠ .punctuation) : comparison? t = none := by
  cases hc : comparison? t with
  | none => rfl
  | some negated =>
    rcases comparison?_eq_some hc with rfl | rfl <;> exact absurd rfl h

theorem isMarkOf_of_not_mark {t : Token} (h : t.kind ≠ .punctuation) (texts : List String) :
    t.isMarkOf texts = false := by
  by_contra hm
  obtain ⟨s, -, rfl⟩ := mem_of_isMarkOf (by simpa using hm)
  exact h rfl

theorem isMark_of_not_mark {t : Token} (h : t.kind ≠ .punctuation) (text : String) :
    t.isMark text = false := by
  by_contra hm
  rw [(Token.isMark_iff t text).1 (by simpa using hm)] at h
  exact h rfl

theorem loose_of_operands {p n : Token} (hp : endsOperand p = true) (hn : startsOperand n = true) :
    Loose p n := by
  have hcompare : ∀ t, (comparison? t).isSome = true →
      endsOperand t = false ∧ startsOperand t = false := by
    intro t ht
    obtain ⟨negated, hc⟩ := Option.isSome_iff_exists.1 ht
    rcases comparison?_eq_some hc with rfl | rfl <;> cases negated <;> decide
  have hmark : ∀ s ∈ ["!", "."], endsOperand (.mark s) = false ∧ startsOperand (.mark s) = false := by
    decide
  have hbefore : ∀ s ∈ comparisonPreceders, endsOperand (.mark s) = false := by decide
  have hafter : ∀ s ∈ comparisonFollowers, startsOperand (.mark s) = false := by decide
  have hone : ∀ s ∈ ["!", "."], p.isMark s = false ∧ n.isMark s = false := by
    intro s hs
    constructor <;> by_contra hm
    · rw [(Token.isMark_iff p s).1 (by simpa using hm), (hmark s hs).1] at hp
      cases hp
    · rw [(Token.isMark_iff n s).1 (by simpa using hm), (hmark s hs).2] at hn
      cases hn
  refine ⟨?_, (hone "!" (by simp)).1, (hone "." (by simp)).1, fun _ => ⟨(hone "." (by simp)).2, ?_⟩,
    fun h _ => ?_, fun _ => ?_⟩
  · by_contra hc
    rw [(hcompare p (Option.isSome_iff_ne_none.2 hc)).1] at hp
    cases hp
  · by_contra hc
    rw [(hcompare n (Option.isSome_iff_ne_none.2 hc)).2] at hn
    cases hn
  · obtain ⟨s, hs, rfl⟩ := mem_of_isMarkOf h
    rw [hbefore s hs] at hp
    cases hp
  · by_contra h
    obtain ⟨s, hs, rfl⟩ := mem_of_isMarkOf (by simpa using h)
    rw [hafter s hs] at hn
    cases hn

theorem loose_of_parts {p n : Token} (h : parts p n = true) : Loose p n := by
  unfold parts at h
  split at h
  · rename_i hr
    have hall : ∀ s ∈ restrictedWords, ∀ m ∈ [";", "\x7b"], loose (.name s) (.mark m) = true := by
      decide
    obtain ⟨s, hs, rfl⟩ := mem_of_isNameOf hr
    obtain ⟨m, hm, rfl⟩ := mem_of_isMarkOf h
    exact (loose_iff _ _).1 (hall s hs m hm)
  · rw [Bool.and_eq_true] at h
    exact loose_of_operands h.1 h.2

theorem loose_space_right {p n w : Token} (h : Loose p n) (hw : w.isWhitespace = true) :
    Loose p w := by
  have hk : w.kind = .whitespace := by simpa [Token.isWhitespace] using hw
  have hne : w.kind ≠ .punctuation := by simp [hk]
  exact ⟨h.noComparison, h.noNegation, h.noPoint,
    fun _ => ⟨isMark_of_not_mark hne _, comparison?_of_not_mark hne⟩, fun _ => by simp [hk],
    fun _ => isMarkOf_of_not_mark hne _⟩

theorem loose_space_left {w : Token} (hw : w.isWhitespace = true) (n : Token) : Loose w n := by
  have hk : w.kind = .whitespace := by simpa [Token.isWhitespace] using hw
  have hne : w.kind ≠ .punctuation := by simp [hk]
  have htruth : endsTruth w = false := by
    obtain ⟨k, text⟩ := w
    obtain rfl : k = .whitespace := hk
    simp [endsTruth, Token.isTruthWord, Token.isNameOf, Token.isName, truthDigit]
  refine ⟨comparison?_of_not_mark hne, isMark_of_not_mark hne _, isMark_of_not_mark hne _,
    fun h => ?_, fun h => ?_, fun h => ?_⟩
  · rw [hk] at h
    cases h
  · rw [isMarkOf_of_not_mark hne] at h
    cases h
  · rw [htruth] at h
    cases h

/-! ### Layout -/

theorem elided_of_not_comparison {t : Token} (h : comparison? t = none) : elided [] [t] = [t] := by
  rw [elided_skip (elision?_of_not_comparison h [] []), elided_nil]
  rfl

/-- a list without white space, or cut at its first white space -/
theorem cut_whitespace (ts : List Token) :
    (∀ t ∈ ts, t.isWhitespace = false) ∨
      ∃ us w vs, ts = us ++ w :: vs ∧ (∀ u ∈ us, u.isWhitespace = false) ∧ w.isWhitespace = true := by
  induction ts with
  | nil => exact Or.inl (fun t ht => by cases ht)
  | cons t ts ih =>
    cases ht : t.isWhitespace with
    | true => exact Or.inr ⟨[], t, ts, rfl, List.forall_mem_nil _, ht⟩
    | false =>
      rcases ih with h | ⟨us, w, vs, rfl, hus, hw⟩
      · exact Or.inl (List.forall_mem_cons.2 ⟨ht, h⟩)
      · exact Or.inr ⟨t :: us, w, vs, rfl, List.forall_mem_cons.2 ⟨ht, hus⟩, hw⟩

theorem laid_of_no_whitespace {Q : Token → Token → Prop} {ts : List Token}
    (h : ∀ t ∈ ts, t.isWhitespace = false) (p : Option Token) : Laid Q p ts := by
  induction ts generalizing p with
  | nil => trivial
  | cons t ts ih =>
    exact (laid_token (h t List.mem_cons_self)).2 (ih (fun u hu => h u (List.mem_cons_of_mem t hu)) _)

theorem isWhitespace_elided {ts : List Token} (h : ∀ t ∈ ts, t.isWhitespace = false) :
    ∀ u ∈ elided [] ts, u.isWhitespace = false :=
  forall_mem_elided rfl h

theorem isComment_elided {ts : List Token} (h : ∀ t ∈ ts, t.isComment = false) :
    ∀ u ∈ elided [] ts, u.isComment = false :=
  forall_mem_elided rfl h

theorem significant_of_bare {ts : List Token} (hc : ∀ t ∈ ts, t.isComment = false)
    (hw : ∀ t ∈ ts, t.isWhitespace = false) : significant ts = ts :=
  significant_of_forall (fun t ht => by rw [isTrivia_eq_isWhitespace (hc t ht), hw t ht])

section Loose

variable {q n : Token} (h : Loose q n) (us vs : List Token)

include h

theorem elided_joined :
    elided [] (us ++ [q] ++ n :: vs) = elided [] (us ++ [q]) ++ elided [] (n :: vs) := by
  refine elided_parts (fun p hp m hm => ?_)
  rw [List.getLast?_concat] at hp
  rw [← Option.some.inj hp, ← Option.some.inj hm]
  exact h

/-- white space between the two stays as it is -/
theorem elided_gap {w : Token} (hw : w.isWhitespace = true) :
    elided [] (us ++ [q] ++ w :: n :: vs) = elided [] (us ++ [q]) ++ w :: elided [] (n :: vs) := by
  have hspace : elided [] ([w] ++ n :: vs) = elided [] [w] ++ elided [] (n :: vs) :=
    elided_joined (loose_space_left hw n) [] vs
  rw [elided_of_not_comparison (loose_space_left hw w).noComparison] at hspace
  rw [elided_joined (loose_space_right h hw)]
  exact congrArg _ hspace

end Loose

/-- comparisons are left out alike without white space, and the layout stays -/
structure LaidAlike (ts : List Token) : Prop where
  alike : significant (elided [] ts) = elided [] (significant ts)
  laid : Laid (fun a b => parts a b = true) none (elided [] ts)

theorem laidAlike_of_no_whitespace {ts : List Token} (hcomment : ∀ t ∈ ts, t.isComment = false)
    (hw : ∀ t ∈ ts, t.isWhitespace = false) : LaidAlike ts := by
  have hnew := isWhitespace_elided hw
  refine ⟨?_, laid_of_no_whitespace hnew none⟩
  rw [significant_of_bare hcomment hw, significant_of_bare (isComment_elided hcomment) hnew]

/-- **Step.**  White space between two tokens that part, with none before it: the list is cut on
both sides of it, and without it as well. -/
theorem LaidAlike.gap {us vs : List Token} {q w n : Token}
    (hcomment : ∀ t ∈ us ++ [q], t.isComment = false) (hus : ∀ t ∈ us ++ [q], t.isWhitespace = false)
    (hw : w.isWhitespace = true) (hn : n.isTrivia = false) (hqn : parts q n = true)
    (h : LaidAlike (n :: vs)) : LaidAlike (us ++ [q] ++ w :: n :: vs) := by
  have hloose := loose_of_parts hqn
  have hnew := isWhitespace_elided hus
  constructor
  · have hsignificant : significant (n :: vs) = n :: significant vs := by
      rw [significant_cons, hn, if_neg Bool.false_ne_true]
    rw [elided_gap hloose us vs hw, significant_append, significant_append, significant_cons w,
      significant_cons w, if_pos (isTrivia_of_isWhitespace hw), if_pos (isTrivia_of_isWhitespace hw),
      significant_of_bare hcomment hus, significant_of_bare (isComment_elided hcomment) hnew,
      h.alike, hsignificant, elided_joined hloose]
  · have hq : q.isWhitespace = false := hus q (by simp)
    have hnw : n.isWhitespace = false := by
      by_contra hnw
      rw [isTrivia_of_isWhitespace (by simpa using hnw)] at hn
      cases hn
    have hlast : (elided [] (us ++ [q])).getLast? = some q := by
      rw [getLast?_elided, List.reverse_nil, List.nil_append, List.getLast?_concat]
    have hhead : (elided [] (n :: vs)).head? = some n := by
      rw [head?_elided]
      rfl
    obtain ⟨xs, hxs⟩ := List.getLast?_eq_some_iff.1 hlast
    obtain ⟨ys, hys⟩ := List.head?_eq_some_iff.1 hhead
    have hrest := h.laid
    rw [hxs] at hnew
    rw [hys] at hrest
    rw [elided_gap hloose us vs hw, hxs, hys, List.append_assoc, List.singleton_append,
      laid_append hq, laid_gap hw]
    refine ⟨laid_of_no_whitespace hnew none, ⟨q, n, rfl, rfl, hnw, hqn⟩, ?_⟩
    exact (laid_token hnw).2 ((laid_token hnw).1 hrest)

/-- **Run.**  From one white space to the next. -/
theorem elided_laid {ts : List Token} (hcomment : ∀ t ∈ ts, t.isComment = false)
    (h : Laid (fun a b => parts a b = true) none ts) : LaidAlike ts := by
  generalize hlen : ts.length = k
  induction k using Nat.strong_induction_on generalizing ts with
  | _ k ih =>
    rcases cut_whitespace ts with hw | ⟨us, w, vs, rfl, hus, hw⟩
    · exact laidAlike_of_no_whitespace hcomment hw
    · rcases List.eq_nil_or_concat us with rfl | ⟨us, q, rfl⟩
      · obtain ⟨⟨q, n, hq, -⟩, -⟩ := (laid_gap hw).1 h
        cases hq
      rw [List.concat_eq_append] at *
      have hq : q.isWhitespace = false := hus q (by simp)
      rw [List.append_assoc, List.singleton_append, laid_append hq, laid_gap hw] at h
      obtain ⟨-, ⟨q', n, hqq, hn, hnw, hqn⟩, hrest⟩ := h
      obtain rfl := Option.some.inj hqq
      obtain ⟨vs, rfl⟩ := List.head?_eq_some_iff.1 hn
      have hvc : ∀ t ∈ n :: vs, t.isComment = false := fun t ht =>
        hcomment t (List.mem_append_right _ (List.mem_cons_of_mem w ht))
      have hrun := ih (n :: vs).length (by rw [← hlen]; simp; omega) hvc
        ((laid_token hnw).2 ((laid_token hnw).1 hrest)) rfl
      refine hrun.gap (fun t ht => hcomment t (List.mem_append_left _ ht)) hus hw ?_ hqn
      rw [isTrivia_eq_isWhitespace (hvc n List.mem_cons_self), hnw]

/-! ### Neighbours -/

section Chain

variable {R : Token → Token → Prop} {done ts : List Token}

/-- one comparison: a negation may come before the member, and what followed the truth value comes
behind it -/
theorem isChain_elision (hbefore : ∀ p, p.isMarkOf comparisonPreceders = true → R p (.mark "!"))
    (hmember : ∀ w, w.kind = .word → R (.mark "!") w)
    (hafter : ∀ w n, w.kind = .word → n.isMarkOf comparisonFollowers = true → R w n) {t : Token}
    {done' rest rest' : List Token} (he : elision? done t rest = some (done', rest'))
    (h : (done.reverse ++ t :: rest).IsChain R) : (done'.reverse ++ rest').IsChain R := by
  obtain ⟨negated, value, chain, before, literal, -, -, rfl, rfl, hchain, hplace, hfollow, rfl⟩ :=
    elision?_eq_some he
  obtain ⟨v, hv, hvk⟩ := memberChain?_getLast? hchain
  obtain ⟨w, hw, hwk⟩ := memberChain?_head? hchain
  rw [List.reverse_append, List.append_assoc] at h
  obtain ⟨hfirst, hrest, hjoin⟩ := List.isChain_append.1 h
  obtain ⟨hinner, htail, -⟩ := List.isChain_append.1 hrest
  have hrest' : rest'.IsChain R := (List.isChain_append.1 htail.tail).2.1
  -- the member and what follows the comparison
  have hkept : (chain.reverse ++ rest').IsChain R := by
    refine List.isChain_append.2 ⟨hinner, hrest', fun a ha n hn => ?_⟩
    rw [List.getLast?_reverse, hw] at ha
    rw [Option.mem_def.1 hn] at hfollow
    rw [← Option.some.inj ha]
    exact hafter w n hwk hfollow
  have hhead : ∀ us, (chain.reverse ++ us).head? = some v := fun us => by
    rw [List.head?_append, List.head?_reverse, hv, Option.some_or]
  rw [List.reverse_append, List.reverse_append, List.append_assoc, List.append_assoc]
  split
  · rw [List.reverse_singleton, List.singleton_append]
    refine List.isChain_append.2 ⟨hfirst, hkept.cons (fun b hb => ?_), fun p hp b hb => ?_⟩
    · rw [hhead] at hb
      rw [← Option.some.inj hb]
      exact hmember v hvk
    · rw [List.getLast?_reverse] at hp
      rw [Option.mem_def.1 hp] at hplace
      rw [← Option.some.inj hb]
      exact hbefore p hplace
  · rw [List.reverse_nil, List.nil_append]
    refine List.isChain_append.2 ⟨hfirst, hkept, fun p hp b hb => hjoin p hp b ?_⟩
    rwa [hhead] at hb ⊢

/-- what holds between neighbours still does when it holds on both sides of a negation and between
a word and what may follow a comparison -/
theorem isChain_elided (hbefore : ∀ p, p.isMarkOf comparisonPreceders = true → R p (.mark "!"))
    (hmember : ∀ w, w.kind = .word → R (.mark "!") w)
    (hafter : ∀ w n, w.kind = .word → n.isMarkOf comparisonFollowers = true → R w n)
    (h : (done.reverse ++ ts).IsChain R) : (elided done ts).IsChain R := by
  fun_induction elided done ts with
  | case1 done => rwa [List.append_nil] at h
  | case2 done t rest done' rest' he ih => exact ih (isChain_elision hbefore hmember hafter he h)
  | case3 done t rest he ih =>
    refine ih ?_
    rwa [List.reverse_cons, List.append_assoc, List.singleton_append]

end Chain

theorem noPoints_elided {done ts : List Token} (h : (done.reverse ++ ts).IsChain NoPoints) :
    (elided done ts).IsChain NoPoints := by
  have hfollowers : ∀ s ∈ comparisonFollowers, (Token.mark s).text ≠ ['.'] := by decide
  refine isChain_elided (fun p _ => noPoints_right (by decide) p)
    (fun w _ => noPoints_left (by decide) w) (fun w n _ hn => ?_) h
  obtain ⟨s, hs, rfl⟩ := mem_of_isMarkOf hn
  exact noPoints_right (hfollowers s hs) w

end EffectFusion.Script
