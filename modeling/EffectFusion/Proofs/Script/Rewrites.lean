import EffectFusion.Script.Reformulation

/-!
# What one rewrite takes and what it leaves

Each step of the last pass as an equation between the tokens that it takes and the tokens that it
leaves, with the conditions under which it is made.

* `shortened_cases`    a word and its short form;
* `arrow?_eq_some`     a function expression and its arrow function;
* `elision?_eq_some`   a comparison with a truth value and the member that stays.
-/

namespace EffectFusion.Script

/-! ### Words -/

def truthWord (b : Bool) : Token := .name (if b then "true" else "false")

/-- the digit whose negation is a truth value -/
def truthDigit (b : Bool) : Token := ⟨.number, [if b then '0' else '1']⟩

/-- the negated digit for a truth value -/
def truthMarks (b : Bool) : List Token := [.mark "!", truthDigit b]

theorem shortened_cases (before : Option Token) (t : Token) (after : Option Token) :
    shortened before t after = [t] ∨
      (∃ a ∈ abbreviations, t = .name a.1 ∧ shortened before t after = [.name a.2]) ∨
      ∃ b, t = truthWord b ∧ shortened before t after = truthMarks b := by
  unfold shortened
  split
  · exact Or.inl rfl
  · split
    · rename_i short hs
      obtain ⟨a, ha, rfl⟩ := Option.map_eq_some_iff.1 hs
      have ht := List.find?_some ha
      exact Or.inr (Or.inl ⟨a, List.mem_of_find?_eq_some ha, (Token.isName_iff t a.1).1 ht, rfl⟩)
    · split
      · rename_i digit hd
        split
        · exact Or.inl rfl
        · refine Or.inr (Or.inr ?_)
          unfold truthDigit? at hd
          split at hd
          · rename_i ht
            obtain rfl := Option.some.inj hd
            exact ⟨true, (Token.isName_iff t _).1 ht, rfl⟩
          · split at hd
            · rename_i ht
              obtain rfl := Option.some.inj hd
              exact ⟨false, (Token.isName_iff t _).1 ht, rfl⟩
            · cases hd
      · exact Or.inl rfl

theorem shortened_ne_nil (before : Option Token) (t : Token) (after : Option Token) :
    shortened before t after ≠ [] := by
  rcases shortened_cases before t after with he | ⟨a, -, -, he⟩ | ⟨b, -, he⟩
  all_goals
    rw [he]
    exact List.cons_ne_nil _ _

theorem shortened_last {before : Option Token} {t t' : Token} {after : Option Token}
    (h : (shortened before t after).getLast? = some t') :
    t' = t ∨ (∃ a ∈ abbreviations, t = .name a.1 ∧ t' = .name a.2) ∨
      ∃ b, t = truthWord b ∧ t' = truthDigit b := by
  rcases shortened_cases before t after with he | ⟨a, ha, ht, he⟩ | ⟨b, ht, he⟩
  · rw [he] at h
    exact Or.inl (Option.some.inj h).symm
  · rw [he] at h
    exact Or.inr (Or.inl ⟨a, ha, ht, (Option.some.inj h).symm⟩)
  · rw [he] at h
    exact Or.inr (Or.inr ⟨b, ht, (Option.some.inj h).symm⟩)

theorem shortened_head {before : Option Token} {t t' : Token} {after : Option Token}
    (h : (shortened before t after).head? = some t') :
    t' = t ∨ (∃ a ∈ abbreviations, t = .name a.1 ∧ t' = .name a.2) ∨
      ∃ b, t = truthWord b ∧ t' = .mark "!" := by
  rcases shortened_cases before t after with he | ⟨a, ha, ht, he⟩ | ⟨b, ht, he⟩
  · rw [he] at h
    exact Or.inl (Option.some.inj h).symm
  · rw [he] at h
    exact Or.inr (Or.inl ⟨a, ha, ht, (Option.some.inj h).symm⟩)
  · rw [he] at h
    exact Or.inr (Or.inr ⟨b, ht, (Option.some.inj h).symm⟩)

theorem mem_shortened {before : Option Token} {t u : Token} {after : Option Token}
    (h : u ∈ shortened before t after) :
    u = t ∨ (∃ a ∈ abbreviations, u = .name a.2) ∨ ∃ b, u ∈ truthMarks b := by
  rcases shortened_cases before t after with he | ⟨a, ha, -, he⟩ | ⟨b, -, he⟩
  · rw [he] at h
    exact Or.inl (List.mem_singleton.1 h)
  · rw [he] at h
    exact Or.inr (Or.inl ⟨a, ha, List.mem_singleton.1 h⟩)
  · rw [he] at h
    exact Or.inr (Or.inr ⟨b, h⟩)

theorem mem_shortenedAll {before : Option Token} {ts : List Token} {u : Token}
    (h : u ∈ shortenedAll before ts) :
    u ∈ ts ∨ (∃ a ∈ abbreviations, u = .name a.2) ∨ ∃ b, u ∈ truthMarks b := by
  induction ts generalizing before with
  | nil => cases h
  | cons t ts ih =>
    rw [shortenedAll] at h
    rcases List.mem_append.1 h with h | h
    · refine (mem_shortened h).imp_left (fun he => ?_)
      rw [he]
      exact List.mem_cons_self
    · exact (ih h).imp_left (List.mem_cons_of_mem t)

/-! ### Arrow functions -/

theorem spanGroup?_getLast? {opening closing : String} {depth : Nat} {ts group rest : List Token}
    (h : spanGroup? opening closing depth ts = some (group, rest)) :
    group.getLast? = some (.mark closing) := by
  induction ts generalizing depth group with
  | nil => cases h
  | cons t ts ih =>
    have hlonger : ∀ d, (spanGroup? opening closing d ts).map (fun p => (t :: p.1, p.2)) =
        some (group, rest) → group.getLast? = some (.mark closing) := by
      intro d hd
      obtain ⟨⟨g, r⟩, hs, he⟩ := Option.map_eq_some_iff.1 hd
      obtain ⟨rfl, rfl⟩ := Prod.mk.inj he
      rw [List.getLast?_cons, ih hs]
      rfl
    rw [spanGroup?] at h
    split at h
    · exact hlonger _ h
    · split at h
      · rename_i hc
        split at h
        · obtain ⟨rfl, rfl⟩ := Prod.mk.inj (Option.some.inj h)
          rw [(Token.isMark_iff t closing).1 hc]
          rfl
        · exact hlonger _ h
      · exact hlonger _ h

theorem bracketGroup?_eq_some {opening closing : String} {ts group rest : List Token}
    (h : bracketGroup? opening closing ts = some (group, rest)) :
    (∃ gap, (∀ t ∈ gap, t.isTrivia = true) ∧ ts = gap ++ (group ++ rest)) ∧
      group.head? = some (.mark opening) ∧ group.getLast? = some (.mark closing) := by
  unfold bracketGroup? at h
  simp only at h
  split at h
  · rename_i hhead
    have happ := spanGroup?_append h
    have hlast := spanGroup?_getLast? h
    have hne : group ≠ [] := by
      rintro rfl
      cases hlast
    refine ⟨⟨ts.takeWhile Token.isTrivia, fun t ht => ?_, ?_⟩, ?_, hlast⟩
    · exact List.all_eq_true.1 (List.all_takeWhile) t ht
    · rw [happ, List.takeWhile_append_dropWhile]
    · obtain ⟨t, inner, rfl⟩ := List.exists_cons_of_ne_nil hne
      rw [← happ] at hhead
      have ht : t.isMark opening = true := hhead
      rw [(Token.isMark_iff t opening).1 ht]
      rfl
  · cases h

/-- when a function expression becomes an arrow function, and which -/
theorem arrow?_eq_some_iff {before : Option Token} {t : Token} {rest out : List Token} :
    arrow? before t rest = some out ↔ t = .name "function" ∧ mayPrecedeArrow before = true ∧
      ∃ parameters between body tail, bracketGroup? "(" ")" rest = some (parameters, between) ∧
        bracketGroup? "\x7b" "\x7d" between = some (body, tail) ∧
        (parameters ++ body).any (·.isNameOf callWords) = false ∧
        mayFollowArrow (significant? tail) = true ∧
        out = parameters ++ .mark "=>" :: body ++ tail := by
  rw [← Token.isName_iff]
  unfold arrow?
  constructor
  · intro h
    split at h
    · rename_i hf
      refine ⟨hf.1, hf.2, ?_⟩
      split at h
      · cases h
      · rename_i parameters between h1
        split at h
        · cases h
        · rename_i body tail h2
          split at h
          · cases h
          · rename_i hcalls
            split at h
            · rename_i hfollow
              exact ⟨parameters, between, body, tail, h1, h2, by simpa using hcalls, hfollow,
                (Option.some.inj h).symm⟩
            · cases h
    · cases h
  · rintro ⟨hname, hbefore, parameters, between, body, tail, h1, h2, hcalls, hfollow, rfl⟩
    simp only [if_pos (And.intro hname hbefore), h1, h2, hcalls, hfollow, if_true,
      Bool.false_eq_true, if_false]

theorem arrow?_eq_some {before : Option Token} {t : Token} {rest out : List Token}
    (h : arrow? before t rest = some out) :
    t = .name "function" ∧ mayPrecedeArrow before = true ∧
      ∃ gap parameters gap' body tail, (∀ u ∈ gap, u.isTrivia = true) ∧
        (∀ u ∈ gap', u.isTrivia = true) ∧
        rest = gap ++ (parameters ++ (gap' ++ (body ++ tail))) ∧
        out = parameters ++ .mark "=>" :: (body ++ tail) ∧
        parameters.head? = some (.mark "(") ∧ parameters.getLast? = some (.mark ")") ∧
        body.head? = some (.mark "\x7b") := by
  obtain ⟨hname, hbefore, parameters, between, body, tail, h1, h2, -, -, rfl⟩ :=
    arrow?_eq_some_iff.1 h
  obtain ⟨⟨gap, hgap, e1⟩, hopen, hclose⟩ := bracketGroup?_eq_some h1
  obtain ⟨⟨gap', hgap', e2⟩, hbody, -⟩ := bracketGroup?_eq_some h2
  exact ⟨hname, hbefore, gap, parameters, gap', body, tail, hgap, hgap', by rw [e1, e2], by simp,
    hopen, hclose, hbody⟩

theorem mem_arrow {before : Option Token} {t u : Token} {rest out : List Token}
    (h : arrow? before t rest = some out) (hu : u ∈ out) : u ∈ rest ∨ u = .mark "=>" := by
  obtain ⟨-, -, gap, parameters, gap', body, tail, -, -, rfl, rfl, -⟩ := arrow?_eq_some h
  simp only [List.mem_append, List.mem_cons] at hu ⊢
  rcases hu with hu | hu | hu | hu <;> simp [hu]

/-! ### Comparisons with a truth value -/

/-- the two spellings of a truth value -/
def spellings (b : Bool) : List (List Token) := [[truthWord b], truthMarks b]

theorem truthLiteral?_eq_some {ts rest : List Token} {b : Bool}
    (h : truthLiteral? ts = some (b, rest)) : ∃ literal ∈ spellings b, ts = literal ++ rest := by
  cases ts with
  | nil => cases h
  | cons t ts =>
    rw [truthLiteral?] at h
    split at h
    · rename_i ht
      obtain ⟨rfl, rfl⟩ := Prod.mk.inj (Option.some.inj h)
      exact ⟨_, List.mem_cons_self, by rw [(Token.isName_iff t _).1 ht]; rfl⟩
    split at h
    · rename_i ht
      obtain ⟨rfl, rfl⟩ := Prod.mk.inj (Option.some.inj h)
      exact ⟨_, List.mem_cons_self, by rw [(Token.isName_iff t _).1 ht]; rfl⟩
    split at h
    · rename_i ht
      have hdigit : ∀ (d : Token), ts.head? = some d →
          t :: ts = [.mark "!", d] ++ ts.tail := by
        intro d hd
        obtain ⟨us, rfl⟩ := List.head?_eq_some_iff.1 hd
        rw [(Token.isMark_iff t _).1 ht]
        rfl
      split at h
      · rename_i hd
        obtain ⟨rfl, rfl⟩ := Prod.mk.inj (Option.some.inj h)
        exact ⟨_, List.mem_cons_of_mem _ List.mem_cons_self, hdigit _ hd⟩
      split at h
      · rename_i hd
        obtain ⟨rfl, rfl⟩ := Prod.mk.inj (Option.some.inj h)
        exact ⟨_, List.mem_cons_of_mem _ List.mem_cons_self, hdigit _ hd⟩
      · cases h
    · cases h

theorem memberChain?_eq_some {done chain rest : List Token}
    (h : memberChain? done = some (chain, rest)) : done = chain ++ rest := by
  fun_induction memberChain? done generalizing chain with
  | case1 => cases h
  | case2 => cases h
  | case3 w point v more hw hv ih =>
    obtain ⟨⟨c, r⟩, hc, he⟩ := Option.map_eq_some_iff.1 h
    obtain ⟨rfl, rfl⟩ := Prod.mk.inj he
    rw [ih hc]
    rfl
  | case4 =>
    obtain ⟨rfl, rfl⟩ := Prod.mk.inj (Option.some.inj h)
    rfl
  | case5 =>
    obtain ⟨rfl, rfl⟩ := Prod.mk.inj (Option.some.inj h)
    rfl
  | case6 => cases h

/-- a chain without its comparison, where one may stand between `before` and `rest` -/
def placed (negated value : Bool) (chain before rest : List Token) :
    Option (List Token × List Token) :=
  if holds (·.isMarkOf comparisonPreceders) before.head?
      ∧ holds (·.isMarkOf comparisonFollowers) rest.head? then
    some (chain ++ ((if value = negated then [.mark "!"] else []) ++ before), rest)
  else none

/-- the comparison, the truth value behind it, the chain before it, and then its place -/
theorem elision?_eq (done : List Token) (t : Token) (rest : List Token) :
    elision? done t rest = (comparison? t).bind fun negated => (truthLiteral? rest).bind fun literal =>
      (memberChain? done).bind fun chain =>
        placed negated literal.1 chain.1 chain.2 literal.2 := by
  unfold elision?
  cases comparison? t with
  | none => rfl
  | some negated =>
    cases truthLiteral? rest with
    | none => rfl
    | some literal =>
      cases memberChain? done with
      | none => rfl
      | some chain =>
        show (if _ then (if literal.1 = negated then _ else _) else none) = placed _ _ _ _ _
        unfold placed
        split
        · split <;> rfl
        · rfl

theorem elision?_of_not_comparison {t : Token} (h : comparison? t = none) (done rest : List Token) :
    elision? done t rest = none := by
  rw [elision?_eq, h]
  rfl

theorem elision?_eq_some {done done' : List Token} {t : Token} {rest rest' : List Token}
    (h : elision? done t rest = some (done', rest')) :
    ∃ negated value chain before literal, comparison? t = some negated ∧
      literal ∈ spellings value ∧ done = chain ++ before ∧ rest = literal ++ rest' ∧
      memberChain? done = some (chain, before) ∧
      holds (·.isMarkOf comparisonPreceders) before.head? = true ∧
      holds (·.isMarkOf comparisonFollowers) rest'.head? = true ∧
      done' = chain ++ ((if value = negated then [.mark "!"] else []) ++ before) := by
  rw [elision?_eq] at h
  obtain ⟨negated, hn, h⟩ := Option.bind_eq_some_iff.1 h
  obtain ⟨⟨value, rest1⟩, hv, h⟩ := Option.bind_eq_some_iff.1 h
  obtain ⟨⟨chain, before⟩, hc, h⟩ := Option.bind_eq_some_iff.1 h
  obtain ⟨literal, hl, hrest⟩ := truthLiteral?_eq_some hv
  unfold placed at h
  split at h
  · rename_i hplace
    obtain ⟨rfl, rfl⟩ := Prod.mk.inj (Option.some.inj h)
    exact ⟨negated, value, chain, before, literal, hn, hl, memberChain?_eq_some hc, hrest, hc,
      hplace.1, hplace.2, rfl⟩
  · cases h

theorem comparison?_eq_some {t : Token} {negated : Bool} (h : comparison? t = some negated) :
    t = .mark (if negated then "!==" else "===") ∨ t = .mark (if negated then "!=" else "==") := by
  unfold comparison? at h
  split at h
  · rename_i ht
    obtain rfl := Option.some.inj h
    simpa [Token.isMarkOf, Token.isMark_iff] using ht
  · split at h
    · rename_i ht
      obtain rfl := Option.some.inj h
      simpa [Token.isMarkOf, Token.isMark_iff] using ht
    · cases h

end EffectFusion.Script
