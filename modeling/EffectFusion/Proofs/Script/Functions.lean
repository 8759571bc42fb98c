import EffectFusion.Proofs.Script.Sweeps

/-!
# Functions that become arrow functions

An arrow function has no `this`, `arguments`, `super` or `new` of its own: inside of it these words
mean what they mean around it.  The last pass rewrites one function expression after the other
(`ArrowStep`), from its parameters to the bracket that closes its body, and only where it finds
none of these words among the tokens of both.  A template is a single token that it does not look
into, so a word in a substitution is not found (`arrow_around_this`).

* `Token.mentions`         a token that is such a word, or a template that uses it;
* `arrowStep_iff`          one rewrite;
* `arrows_from_steps`      the pass makes all of them and does nothing else with functions.
-/

namespace EffectFusion.Script

/-! ### Words in use -/

/-- the tokens of all substitutions in the text of a template -/
def substituted : List Char → List Token
  | [] => []
  | '$' :: '\x7b' :: rest =>
    ((spanGroup? "\x7b" "\x7d" 1 (lex rest)).map (·.1)).getD (lex rest) ++ substituted rest
  | '\\' :: _ :: rest => substituted rest
  | _ :: rest => substituted rest

/-- the word itself, or a template with the word in a substitution -/
def Token.mentions (t : Token) (word : String) : Prop :=
  t = .name word ∨ t.kind = .templateLiteral ∧ .name word ∈ substituted t.text

instance (t : Token) (word : String) : Decidable (t.mentions word) :=
  inferInstanceAs (Decidable (_ ∨ _))

/-! ### One function -/

/-- a function expression among other tokens becomes an arrow function; of the words that depend on
the function around them it mentions none outside of templates -/
inductive ArrowStep : List Token → List Token → Prop
  | intro {before gap parameters gap' body after : List Token}
      (place : mayPrecedeArrow (before.foldl nearest none) = true)
      (follow : mayFollowArrow (significant? after) = true)
      (trivia : ∀ t ∈ gap ++ gap', t.isTrivia = true)
      (round : Group "(" ")" parameters)
      (curly : Group "\x7b" "\x7d" body)
      (unused : ∀ word ∈ callWords, ∀ t ∈ parameters ++ body, t.mentions word →
        t.kind = .templateLiteral) :
      ArrowStep (before ++ .name "function" :: (gap ++ (parameters ++ (gap' ++ (body ++ after)))))
        (before ++ (parameters ++ .mark "=>" :: (body ++ after)))

theorem any_callWords_eq_false_iff {ts : List Token} :
    ts.any (·.isNameOf callWords) = false ↔
      ∀ word ∈ callWords, ∀ t ∈ ts, t.mentions word → t.kind = .templateLiteral := by
  rw [List.any_eq_false]
  constructor
  · rintro h word hword t ht (rfl | hm)
    · exact absurd (List.any_eq_true.2 ⟨word, hword, Token.isName_name word⟩) (h _ ht)
    · exact hm.1
  · intro h t ht hcall
    obtain ⟨word, hword, rfl⟩ := mem_of_isNameOf hcall
    cases h word hword _ ht (Or.inl rfl)

/-- what can be rewritten behind `left` is a function that can become an arrow function -/
theorem arrowStep_iff {ts us : List Token} :
    ArrowStep ts us ↔ ∃ left t rest out, ts = left ++ t :: rest ∧ us = left ++ out ∧
      arrow? (left.foldl nearest none) t rest = some out := by
  constructor
  · rintro ⟨place, follow, trivia, round, curly, unused⟩
    rename_i before gap parameters gap' body after
    refine ⟨before, _, _, _, rfl, rfl, arrow?_eq_some_iff.2 ⟨rfl, place, parameters, _, body, after,
      (bracketGroup?_eq_some_iff (by decide)).2 ⟨gap, fun t ht => ?_, round, rfl⟩,
      (bracketGroup?_eq_some_iff (by decide)).2 ⟨gap', fun t ht => ?_, curly, rfl⟩,
      any_callWords_eq_false_iff.2 unused, follow, by simp⟩⟩
    · exact trivia t (List.mem_append_left _ ht)
    · exact trivia t (List.mem_append_right _ ht)
  · rintro ⟨left, t, rest, out, rfl, rfl, h⟩
    obtain ⟨rfl, hbefore, parameters, between, body, tail, h1, h2, hcalls, hfollow, rfl⟩ :=
      arrow?_eq_some_iff.1 h
    obtain ⟨gap, hgap, round, rfl⟩ := (bracketGroup?_eq_some_iff (by decide)).1 h1
    obtain ⟨gap', hgap', curly, rfl⟩ := (bracketGroup?_eq_some_iff (by decide)).1 h2
    rw [List.append_assoc, List.cons_append]
    exact .intro hbefore hfollow (List.forall_mem_append.2 ⟨hgap, hgap'⟩) round curly
      (any_callWords_eq_false_iff.1 hcalls)

/-! ### All of them -/

/-- **Run.**  From left to right the sweep takes one step after the other. -/
theorem arrowSteps (us ts : List Token) :
    Relation.ReflTransGen ArrowStep (us ++ ts) (us ++ arrowed (us.foldl nearest none) ts) := by
  generalize hb : us.foldl nearest none = near
  fun_induction arrowed near ts generalizing us with
  | case1 near => exact .refl
  | case2 near t rest u rest' ha ih =>
    subst hb
    have hstep : ArrowStep (us ++ t :: rest) (us ++ u :: rest') :=
      arrowStep_iff.2 ⟨us, t, rest, u :: rest', rfl, rfl, ha⟩
    have hrest := ih (us ++ [u]) (by rw [List.foldl_append]; rfl)
    rw [List.append_assoc, List.append_assoc] at hrest
    exact .head hstep hrest
  | case3 near t rest hno ih =>
    subst hb
    have hrest := ih (us ++ [t]) (by rw [List.foldl_append]; rfl)
    rwa [List.append_assoc, List.append_assoc] at hrest

theorem not_arrowStep_of_unarrowed {ts : List Token} (h : Unarrowed [] none ts) (us : List Token) :
    ¬ ArrowStep ts us := by
  intro hstep
  obtain ⟨left, t, rest, out, rfl, rfl, ha⟩ := arrowStep_iff.1 hstep
  have hnone := (unarrowed_append.1 h).2.1
  rw [List.append_nil, ha] at hnone
  cases hnone

/-- **Functions of the last pass.**  It takes such steps until none is left, and that is all that it
does with functions; what comes after leaves out comparisons and puts spaces back. -/
theorem arrows_from_steps (s : List Char) :
    ∃ us, Relation.ReflTransGen ArrowStep (withoutSpaces (lex s)) us ∧ (∀ vs, ¬ ArrowStep us vs) ∧
      reformulate s = render (respaced (elided [] us)) :=
  ⟨arrowed none (withoutSpaces (lex s)), arrowSteps [] _,
    not_arrowStep_of_unarrowed (unarrowed_arrowed none _), rfl⟩

/-- a body that uses `this` in a template -/
def templateBody : List Token :=
  [.mark "\x7b", .name "return", ⟨.templateLiteral, "\x60$\x7bthis.a\x7d\x60".toList⟩, .mark ";",
    .mark "\x7d"]

/-- a function with this body -/
def templateFunction : List Char := "x=function()\x7breturn\x60$\x7bthis.a\x7d\x60;\x7d;".toList

/-- The function becomes an arrow function although its body uses `this`. -/
theorem arrow_around_this :
    lex templateFunction = .name "x" :: .mark "=" :: .name "function" :: .mark "(" :: .mark ")" ::
        (templateBody ++ [.mark ";"]) ∧
      lex (reformulate templateFunction) = .name "x" :: .mark "=" :: .mark "(" :: .mark ")" ::
        .mark "=>" :: (templateBody ++ [.mark ";"]) ∧
      ∃ t ∈ templateBody, t.mentions "this" := by
  decide +kernel

end EffectFusion.Script
