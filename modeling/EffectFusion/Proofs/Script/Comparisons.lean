import EffectFusion.Proofs.Script.Conditions
import EffectFusion.Proofs.Script.Elisions

/-!
# Conditions without comparisons with truth values

Leaving out comparisons works on a list of tokens and sees no levels.  On the tokens of a condition
it does what `simplified` does on the levels: a comparison goes when it is a member or a word
compared with a truth value and no further comparison stands beside it, and what is left in its
place is an operand, so that every level is read as before.

* `value_simplified`        the value is the same for all values of the members;
* `elided_operand`          what the pass writes for an operand, and with it for every level;
* `elided_keeps_value`      a condition in brackets keeps its value.
-/

namespace EffectFusion.Script

/-! ### On the levels -/

/-- a member or a word -/
def Operand.isBare : Operand → Bool
  | .chain _ | .truth _ true => true
  | _ => false

/-- a member or a word compared with a truth value gives way to the member or its negation -/
def Equality.collapsed : Equality → Equality
  | .compare (.operand u) s (.truth b word) =>
    if u.isBare then .operand (if b = s.negated then .not u else u)
    else .compare (.operand u) s (.truth b word)
  | e => e

mutual

def Operand.simplified : Operand → Operand
  | .chain c => .chain c
  | .truth b word => .truth b word
  | .not u => .not u.simplified
  | .group c => .group c.simplified

/-- the operands simplified, the comparisons themselves kept -/
def Equality.inner : Equality → Equality
  | .operand u => .operand u.simplified
  | .compare l s r => .compare l.inner s r.simplified

def Conjunction.simplified : Conjunction → Conjunction
  | .one e => .one e.inner.collapsed
  | .both l r => .both l.simplified r.inner.collapsed

def Disjunction.simplified : Disjunction → Disjunction
  | .one c => .one c.simplified
  | .either l r => .either l.simplified r.simplified

def Condition.simplified : Condition → Condition
  | .one d => .one d.simplified
  | .choice d yes no => .choice d.simplified yes.simplified no.simplified

end

section

variable (ρ : Chain → Bool)

theorem value_collapsed (e : Equality) : e.collapsed.value ρ = e.value ρ := by
  unfold Equality.collapsed
  split
  · rename_i u s b word
    split
    · show (if b = s.negated then Operand.not u else u).value ρ = s.value (u.value ρ) b
      split
      · rename_i hb
        rw [Operand.value, hb]
        cases hs : s.negated <;> cases u.value ρ <;> simp [Sign.value, hs]
      · rename_i hb
        obtain rfl : b = !s.negated := by
          cases b <;> cases hs : s.negated <;> simp_all
        cases hs : s.negated <;> cases u.value ρ <;> simp [Sign.value, hs]
    · rfl
  · rfl

mutual

theorem Operand.value_simplified : ∀ u : Operand, u.simplified.value ρ = u.value ρ
  | .chain _ | .truth _ _ => rfl
  | .not u => congrArg (!·) u.value_simplified
  | .group c => c.value_simplified

theorem Equality.value_inner : ∀ e : Equality, e.inner.value ρ = e.value ρ
  | .operand u => u.value_simplified
  | .compare l s r => congrArg₂ s.value l.value_inner r.value_simplified

theorem Conjunction.value_simplified : ∀ c : Conjunction, c.simplified.value ρ = c.value ρ
  | .one e => (value_collapsed ρ e.inner).trans e.value_inner
  | .both l r =>
    congrArg₂ (· && ·) l.value_simplified ((value_collapsed ρ r.inner).trans r.value_inner)

theorem Disjunction.value_simplified : ∀ d : Disjunction, d.simplified.value ρ = d.value ρ
  | .one c => c.value_simplified
  | .either l r => congrArg₂ (· || ·) l.value_simplified r.value_simplified

theorem Condition.value_simplified : ∀ c : Condition, c.simplified.value ρ = c.value ρ
  | .one d => d.value_simplified
  | .choice d yes no => by
    rw [Condition.simplified, Condition.value, Condition.value, d.value_simplified,
      yes.value_simplified, no.value_simplified]

end

end

/-! ### Signs -/

theorem Sign.comparison?_token (s : Sign) : comparison? s.token = some s.negated := by
  obtain ⟨negated, strict⟩ := s
  cases negated <;> cases strict <;> rfl

theorem Sign.token_isPoint (s : Sign) : s.token.isMark "." = false :=
  Sign.forall_token (P := fun t => t.isMark "." = false) (by decide) s

/-- no comparison stands right behind a sign -/
theorem Sign.token_opens (s : Sign) : s.token.isMarkOf comparisonPreceders = false :=
  Sign.forall_token (P := fun t => t.isMarkOf comparisonPreceders = false) (by decide) s

/-- nor right before one -/
theorem Sign.token_closes (s : Sign) : s.token.isMarkOf comparisonFollowers = false :=
  Sign.forall_token (P := fun t => t.isMarkOf comparisonFollowers = false) (by decide) s

/-! ### Looking back over an operand -/

/-- the last token of a chain that may still grow at its end -/
theorem reverse_members (ws : List Word) (w : Word) (done : List Token) :
    ∃ (v : Word) (more : List Token),
      (memberTokens ws).reverse ++ w.token :: done = v.token :: more := by
  induction ws using List.reverseRecOn with
  | nil => exact ⟨w, done, rfl⟩
  | append_singleton ws v _ =>
    rw [memberTokens, List.flatMap_append, List.reverse_append]
    exact ⟨v, _, rfl⟩

theorem memberChain?_single {w : Token} (hw : w.kind = .word) {done : List Token}
    (hdone : ∀ t ∈ done.head?, t.isMark "." = false) : memberChain? (w :: done) = some ([w], done) := by
  refine memberChain?_of_word hw (fun point v more he hpoint => ?_)
  rw [hdone point (by rw [he]; rfl)] at hpoint
  cases hpoint.1

/-- a chain is found back to its first member -/
theorem memberChain?_members (ws : List Word) (w : Word) {done : List Token}
    (hdone : ∀ t ∈ done.head?, t.isMark "." = false) :
    memberChain? ((memberTokens ws).reverse ++ w.token :: done) =
      some ((memberTokens ws).reverse ++ [w.token], done) := by
  -- the search starts behind the last member, so that is the one to take off
  induction ws using List.reverseRecOn with
  | nil => exact memberChain?_single rfl hdone
  | append_singleton ws v ih =>
    have hsnoc : (memberTokens (ws ++ [v])).reverse =
        v.token :: .mark "." :: (memberTokens ws).reverse := by
      rw [memberTokens, List.flatMap_append, List.reverse_append]
      rfl
    obtain ⟨x, more, hx⟩ := reverse_members ws w done
    rw [hsnoc, List.cons_append, List.cons_append, List.cons_append, List.cons_append]
    rw [hx] at ih ⊢
    rw [memberChain?, if_neg (fun h => h rfl), if_pos ⟨rfl, rfl⟩, ih]
    rfl

theorem Operand.memberChain?_of_bare {u : Operand} (h : u.isBare = true) {done : List Token}
    (hdone : ∀ t ∈ done.head?, t.isMark "." = false) :
    memberChain? (u.tokens.reverse ++ done) = some (u.tokens.reverse, done) := by
  match u, h with
  | .chain c, _ =>
    rw [Operand.tokens, Chain.tokens, List.reverse_cons, List.append_assoc]
    exact memberChain?_members c.others c.first hdone
  | .truth b true, _ => exact memberChain?_single rfl hdone

/-- before the chain at the end of another operand there is a negation -/
theorem Operand.head_of_memberChain? {u : Operand} (h : u.isBare = false)
    {done chain before : List Token} (hchain : memberChain? (u.tokens.reverse ++ done) =
      some (chain, before)) : before.head? = some (.mark "!") := by
  match u, h with
  | .truth b false, _ =>
    have hword : (truthDigit b).kind ≠ .word := fun h => by cases h
    have hnone := memberChain?_of_not_word hword (.mark "!" :: done)
    cases hnone.symm.trans hchain
  | .group c, _ =>
    rw [Operand.tokens, List.reverse_cons, List.reverse_append, List.reverse_singleton,
      List.singleton_append, List.cons_append, List.cons_append,
      memberChain?_of_not_word (by decide)] at hchain
    cases hchain
  | .not u, _ =>
    rw [Operand.tokens, List.reverse_cons, List.append_assoc, List.singleton_append] at hchain
    cases hu : u.isBare with
    | true =>
      rw [memberChain?_of_bare hu (fun t ht => by cases ht; rfl)] at hchain
      rw [← (Prod.mk.inj (Option.some.inj hchain)).2]
      rfl
    | false => exact head_of_memberChain? hu hchain

/-- and before the chain at the end of a comparison its sign or a negation, so nothing that a
comparison may stand behind -/
theorem Equality.not_opens {e : Equality} (h : ∀ u, e = .operand u → u.isBare = false)
    {done chain before : List Token} (hchain : memberChain? (e.tokens.reverse ++ done) =
      some (chain, before)) : holds (·.isMarkOf comparisonPreceders) before.head? = false := by
  have hother : ∀ u : Operand, u.isBare = false → ∀ {rest : List Token},
      memberChain? (u.tokens.reverse ++ rest) = some (chain, before) →
        holds (·.isMarkOf comparisonPreceders) before.head? = false := by
    intro u hu rest hrest
    rw [Operand.head_of_memberChain? hu hrest]
    rfl
  match e, h with
  | .operand u, h => exact hother u (h u rfl) hchain
  | .compare l s r, _ =>
    rw [Equality.tokens, List.reverse_append, List.reverse_cons, List.append_assoc,
      List.append_assoc, List.singleton_append] at hchain
    cases hr : r.isBare with
    | true =>
      rw [Operand.memberChain?_of_bare hr (fun t ht => by cases ht; exact s.token_isPoint)] at hchain
      rw [← (Prod.mk.inj (Option.some.inj hchain)).2]
      exact s.token_opens
    | false => exact hother r hr hchain

/-! ### Looking ahead to an operand -/

theorem truthLiteral?_truth (b word : Bool) (rest : List Token) :
    truthLiteral? ((Operand.truth b word).tokens ++ rest) = some (b, rest) := by
  cases b <;> cases word <;> rfl

theorem Operand.truthLiteral?_tokens {u : Operand} (h : ∀ b word, u ≠ .truth b word)
    (rest : List Token) : truthLiteral? (u.tokens ++ rest) = none := by
  match u, h with
  | .truth b word, h => exact absurd rfl (h b word)
  | .group c, _ => rfl
  | .chain c, _ =>
    have htrue : ¬ c.first.token.isName "true" = true := fun ht =>
      c.first.token_ne_truthWord true ((Token.isName_iff _ _).1 ht)
    have hfalse : ¬ c.first.token.isName "false" = true := fun ht =>
      c.first.token_ne_truthWord false ((Token.isName_iff _ _).1 ht)
    have hmark : ¬ c.first.token.isMark "!" = true := fun ht =>
      c.first.token_ne_mark "!" ((Token.isMark_iff _ _).1 ht)
    rw [Operand.tokens, Chain.tokens, List.cons_append, truthLiteral?, if_neg htrue,
      if_neg hfalse, if_neg hmark]
  | .not u, _ =>
    have hzero : (u.tokens ++ rest).head? ≠ some ⟨.number, ['0']⟩ := u.not_digit rest true
    have hone : (u.tokens ++ rest).head? ≠ some ⟨.number, ['1']⟩ := u.not_digit rest false
    rw [Operand.tokens, List.cons_append, truthLiteral?, if_neg (by decide), if_neg (by decide),
      if_pos (Token.isMark_mark "!"), if_neg hzero, if_neg hone]

/-! ### What the pass does with the tokens -/

/-- a comparison may stand behind what was read -/
def Opens (done : List Token) : Prop := holds (·.isMarkOf comparisonPreceders) done.head? = true

/-- a comparison may stand before what follows -/
def Closes (rest : List Token) : Prop := holds (·.isMarkOf comparisonFollowers) rest.head? = true

theorem Opens.noPoint {done : List Token} (h : Opens done) :
    ∀ t ∈ done.head?, t.isMark "." = false := by
  intro t ht
  unfold Opens at h
  rw [Option.mem_def.1 ht] at h
  obtain ⟨text, hmem, rfl⟩ := mem_of_isMarkOf h
  have hall : ∀ text ∈ comparisonPreceders, (Token.mark text).isMark "." = false := by decide
  exact hall text hmem

theorem elision?_bare {u : Operand} (hu : u.isBare = true) (s : Sign) (b word : Bool)
    {done rest : List Token} (hdone : Opens done) (hrest : Closes rest) :
    elision? (u.tokens.reverse ++ done) s.token ((Operand.truth b word).tokens ++ rest) =
      some ((if b = s.negated then Operand.not u else u).tokens.reverse ++ done, rest) := by
  rw [elision?_eq, s.comparison?_token, truthLiteral?_truth,
    Operand.memberChain?_of_bare hu hdone.noPoint]
  show placed _ b _ done rest = _
  rw [placed, if_pos ⟨hdone, hrest⟩]
  split
  · rw [Operand.tokens, List.reverse_cons, List.append_assoc]
  · rfl

/-- nothing to compare with that is a truth value -/
theorem elision?_of_not_truth (s : Sign) {r : Operand} (h : ∀ b word, r ≠ .truth b word)
    (done rest : List Token) : elision? done s.token (r.tokens ++ rest) = none := by
  rw [elision?_eq, s.comparison?_token, r.truthLiteral?_tokens h]
  rfl

/-- a chain before which or a truth value behind which no comparison may stand -/
theorem elision?_of_neighbours (s : Sign) (b word : Bool) {done rest : List Token}
    (h : ∀ chain before, memberChain? done = some (chain, before) → ¬ (Opens before ∧ Closes rest)) :
    elision? done s.token ((Operand.truth b word).tokens ++ rest) = none := by
  rw [elision?_eq, s.comparison?_token, truthLiteral?_truth]
  cases hchain : memberChain? done with
  | none => rfl
  | some c =>
    exact if_neg (h c.1 c.2 hchain)

theorem elision?_of_sign (s : Sign) (r : Operand) (done : List Token) {rest : List Token}
    (h : ¬ Closes rest) : elision? done s.token (r.tokens ++ rest) = none := by
  cases r with
  | truth b word => exact elision?_of_neighbours s b word (fun _ _ _ hboth => h hboth.2)
  | chain c => exact elision?_of_not_truth s (fun _ _ he => by cases he) done rest
  | not u => exact elision?_of_not_truth s (fun _ _ he => by cases he) done rest
  | group c => exact elision?_of_not_truth s (fun _ _ he => by cases he) done rest

/-! ### Level by level -/

theorem not_closes_sign (s : Sign) (rest : List Token) : ¬ Closes (s.token :: rest) := by
  intro h
  exact Bool.false_ne_true (s.token_closes.symm.trans h)

theorem comparison?_word (w : Word) : comparison? w.token = none :=
  comparison?_of_not_mark (fun h => by cases h)

theorem comparison?_members (ws : List Word) : ∀ t ∈ memberTokens ws, comparison? t = none := by
  intro t ht
  obtain ⟨w, -, ht⟩ := List.mem_flatMap.1 ht
  simp only [List.mem_cons, List.not_mem_nil, or_false] at ht
  rcases ht with rfl | rfl
  · rfl
  · exact comparison?_word w

theorem elided_mark {m : String} (h : comparison? (.mark m) = none) (done rest : List Token) :
    elided done (.mark m :: rest) = elided (.mark m :: done) rest :=
  elided_skip (elision?_of_not_comparison h done rest)

theorem Equality.collapsed_of_not_truth (l : Equality) (s : Sign) {r : Operand}
    (h : ∀ b word, r ≠ .truth b word) : (Equality.compare l s r).collapsed = .compare l s r := by
  unfold Equality.collapsed
  split
  · rename_i u s' b word he
    cases he
    exact absurd rfl (h b word)
  · rfl

theorem Equality.collapsed_of_not_bare {l : Equality} (h : ∀ u, l = .operand u → u.isBare = false)
    (s : Sign) (r : Operand) : (Equality.compare l s r).collapsed = .compare l s r := by
  unfold Equality.collapsed
  split
  · rename_i u s' b word he
    cases he
    rw [if_neg (by rw [h u rfl]; exact Bool.false_ne_true)]
  · rfl

theorem Operand.simplified_ne_truth {r : Operand} (h : ∀ b word, r ≠ .truth b word) :
    ∀ b word, r.simplified ≠ .truth b word := by
  intro b word he
  cases r with
  | truth b' word' => exact h b' word' rfl
  | chain c => cases he
  | not u => cases he
  | group c => cases he

theorem elided_compare (l : Equality) (s : Sign) (r : Operand) {done rest : List Token}
    (hdone : Opens done) (hrest : Closes rest)
    (hright : ∀ done, elided done (r.tokens ++ rest) =
      elided (r.simplified.tokens.reverse ++ done) rest) :
    elided (l.tokens.reverse ++ done) (s.token :: (r.tokens ++ rest)) =
      elided ((Equality.compare l s r.simplified).collapsed.tokens.reverse ++ done) rest := by
  have hkept : (Equality.compare l s r.simplified).tokens.reverse ++ done =
      r.simplified.tokens.reverse ++ s.token :: (l.tokens.reverse ++ done) := by
    rw [Equality.tokens]
    simp
  by_cases htruth : ∃ b word, r = .truth b word
  · obtain ⟨b, word, rfl⟩ := htruth
    -- the place is right for a comparison, so only the left side can keep it
    by_cases hbare : ∃ u, l = .operand u ∧ u.isBare = true
    · obtain ⟨u, rfl, hu⟩ := hbare
      rw [Operand.simplified, Equality.collapsed, if_pos hu]
      exact elided_step (elision?_bare hu s b word hdone hrest)
    · have hnot : ∀ u, l = .operand u → u.isBare = false := by
        intro u hl
        exact Bool.eq_false_iff.2 (fun hu => hbare ⟨u, hl, hu⟩)
      have hskip : elision? (l.tokens.reverse ++ done) s.token
          ((Operand.truth b word).tokens ++ rest) = none := by
        refine elision?_of_neighbours s b word (fun chain before hchain hboth => ?_)
        have hno := Equality.not_opens hnot hchain
        exact Bool.false_ne_true (hno.symm.trans hboth.1)
      rw [elided_skip hskip, hright, Equality.collapsed_of_not_bare hnot, hkept]
  · have hnot : ∀ b word, r ≠ .truth b word := fun b word he => htruth ⟨b, word, he⟩
    rw [elided_skip (elision?_of_not_truth s hnot _ rest), hright,
      Equality.collapsed_of_not_truth l s (Operand.simplified_ne_truth hnot), hkept]

-- Operands need nothing of their surroundings: the brackets of a group are the right place for what
-- is inside.  All levels above need the right place, but for what stands left of a sign.
mutual

/-- **Operands are rewritten alike** wherever they stand. -/
theorem elided_operand : ∀ (u : Operand) (done rest : List Token),
    elided done (u.tokens ++ rest) = elided (u.simplified.tokens.reverse ++ done) rest
  | .chain c, done, rest => by
    refine elided_over (fun t ht => ?_) done rest
    rcases List.mem_cons.1 ht with rfl | ht
    · exact comparison?_word c.first
    · exact comparison?_members c.others t ht
  | .truth b word, done, rest => by
    have hall : ∀ b word, ∀ t ∈ (Operand.truth b word).tokens, comparison? t = none := by decide
    exact elided_over (hall b word) done rest
  | .not u, done, rest => by
    rw [Operand.tokens, List.cons_append, elided_mark rfl, elided_operand u, Operand.simplified,
      Operand.tokens, List.reverse_cons, List.append_assoc, List.singleton_append]
  | .group c, done, rest => by
    have hopens : Opens (.mark "(" :: done) := rfl
    have hcloses : Closes (.mark ")" :: rest) := rfl
    rw [Operand.tokens, List.cons_append, List.append_assoc, List.singleton_append, elided_mark rfl,
      elided_condition c hopens hcloses, elided_mark rfl, Operand.simplified, Operand.tokens]
    simp

/-- before a sign nothing of a comparison is left out -/
theorem elided_inner : ∀ (e : Equality) (done : List Token) {rest : List Token},
    ¬ Closes rest →
      elided done (e.tokens ++ rest) = elided (e.inner.tokens.reverse ++ done) rest
  | .operand u, done, rest, _ => elided_operand u done rest
  | .compare l s r, done, rest, hrest => by
    have hsign := not_closes_sign s (r.tokens ++ rest)
    rw [Equality.tokens, List.append_assoc, List.cons_append, elided_inner l done hsign,
      elided_skip (elision?_of_sign s r _ hrest), elided_operand r, Equality.inner,
      Equality.tokens]
    simp

/-- where comparisons may stand an equality is rewritten as a whole -/
theorem elided_equality : ∀ (e : Equality) {done rest : List Token}, Opens done → Closes rest →
    elided done (e.tokens ++ rest) = elided (e.inner.collapsed.tokens.reverse ++ done) rest
  | .operand u, done, rest, _, _ => elided_operand u done rest
  | .compare l s r, done, rest, hdone, hrest => by
    have hsign := not_closes_sign s (r.tokens ++ rest)
    rw [Equality.tokens, List.append_assoc, List.cons_append, elided_inner l done hsign,
      Equality.inner]
    exact elided_compare l.inner s r hdone hrest (fun done => elided_operand r done rest)

theorem elided_conjunction : ∀ (c : Conjunction) {done rest : List Token}, Opens done →
    Closes rest →
      elided done (c.tokens ++ rest) = elided (c.simplified.tokens.reverse ++ done) rest
  | .one e, _, _, hdone, hrest => elided_equality e hdone hrest
  | .both l r, done, rest, hdone, hrest => by
    have hcloses : Closes (.mark "&&" :: (r.tokens ++ rest)) := rfl
    have hopens : Opens (.mark "&&" :: (l.simplified.tokens.reverse ++ done)) := rfl
    rw [Conjunction.tokens, List.append_assoc, List.cons_append, elided_conjunction l hdone hcloses,
      elided_mark rfl, elided_equality r hopens hrest, Conjunction.simplified, Conjunction.tokens]
    simp

theorem elided_disjunction : ∀ (d : Disjunction) {done rest : List Token}, Opens done →
    Closes rest →
      elided done (d.tokens ++ rest) = elided (d.simplified.tokens.reverse ++ done) rest
  | .one c, _, _, hdone, hrest => elided_conjunction c hdone hrest
  | .either l r, done, rest, hdone, hrest => by
    have hcloses : Closes (.mark "||" :: (r.tokens ++ rest)) := rfl
    have hopens : Opens (.mark "||" :: (l.simplified.tokens.reverse ++ done)) := rfl
    rw [Disjunction.tokens, List.append_assoc, List.cons_append, elided_disjunction l hdone hcloses,
      elided_mark rfl, elided_conjunction r hopens hrest, Disjunction.simplified,
      Disjunction.tokens]
    simp

theorem elided_condition : ∀ (c : Condition) {done rest : List Token}, Opens done → Closes rest →
    elided done (c.tokens ++ rest) = elided (c.simplified.tokens.reverse ++ done) rest
  | .one d, _, _, hdone, hrest => elided_disjunction d hdone hrest
  | .choice d yes no, done, rest, hdone, hrest => by
    have hquestion : Closes (.mark "?" :: (yes.tokens ++ .mark ":" :: (no.tokens ++ rest))) := rfl
    have hyes : Opens (.mark "?" :: (d.simplified.tokens.reverse ++ done)) := rfl
    have hcolon : Closes (.mark ":" :: (no.tokens ++ rest)) := rfl
    have hno : Opens (.mark ":" :: (yes.simplified.tokens.reverse ++
        .mark "?" :: (d.simplified.tokens.reverse ++ done))) := rfl
    rw [Condition.tokens, List.append_assoc, List.cons_append, List.append_assoc, List.cons_append,
      elided_disjunction d hdone hquestion, elided_mark rfl, elided_condition yes hyes hcolon,
      elided_mark rfl, elided_condition no hno hrest, Condition.simplified, Condition.tokens]
    simp

end

theorem elided_group (c : Condition) :
    elided [] (.mark "(" :: (c.tokens ++ [.mark ")"])) =
      .mark "(" :: (c.simplified.tokens ++ [.mark ")"]) := by
  have h := elided_operand (.group c) [] []
  rw [elided_nil, List.append_nil, List.append_nil, List.reverse_reverse] at h
  exact h

/-- a condition that is one operand -/
def Operand.alone (u : Operand) : Condition := .one (.one (.one (.operand u)))

/-- **Leaving out comparisons keeps the value** of every condition for all truth values of its
members.  What is left of the tokens of a condition in brackets are those of a condition, which is
read from them by the levels of precedence, as the given one was from its own. -/
theorem elided_keeps_value (c : Condition) :
    parse? c.tokens = some c ∧
      ∃ c' : Condition, elided [] (.mark "(" :: (c.tokens ++ [.mark ")"])) = c'.tokens ∧
        parse? c'.tokens = some c' ∧ ∀ ρ, c'.value ρ = c.value ρ := by
  refine ⟨parse?_tokens c, (Operand.group c.simplified).alone, elided_group c, parse?_tokens _, ?_⟩
  intro ρ
  exact c.value_simplified ρ

end EffectFusion.Script
