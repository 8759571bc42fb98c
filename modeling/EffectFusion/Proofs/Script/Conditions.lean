import EffectFusion.Proofs.Script.Rewrites

/-!
# Conditions

The expressions that conditions are made of, with one type for each level of precedence: operands
are members, truth values, negations and groups in brackets; comparisons of operands join from
left to right, so do their conjunctions and then disjunctions; a choice comes last and its
branches are conditions again.  `tokens` writes a condition, `value` is its value when each member
is a truth value, and `parse?` reads it level by level.

* `readMore_step`, `readMore_stop`   joining from left to right;
* `readOperand_tokens`               operands, and with them every level above;
* `parse?_tokens`                    a condition is read from its tokens.
-/

namespace EffectFusion.Script

/-! ### The levels -/

/-- a word that is no truth value -/
structure Word where
  text : List Char
  ordinary : text ≠ "true".toList ∧ text ≠ "false".toList

/-- a chain of members `a.b.c` -/
structure Chain where
  first : Word
  others : List Word

structure Sign where
  negated : Bool
  strict : Bool
  deriving DecidableEq

mutual

/-- `truth b true` is the word for `b` and `truth b false` the negated digit -/
inductive Operand
  | chain (c : Chain)
  | truth (b word : Bool)
  | not (u : Operand)
  | group (c : Condition)

inductive Equality
  | operand (u : Operand)
  | compare (left : Equality) (sign : Sign) (right : Operand)

inductive Conjunction
  | one (e : Equality)
  | both (left : Conjunction) (right : Equality)

inductive Disjunction
  | one (c : Conjunction)
  | either (left : Disjunction) (right : Conjunction)

inductive Condition
  | one (d : Disjunction)
  | choice (test : Disjunction) (yes no : Condition)

end

/-! ### Tokens -/

def Word.token (w : Word) : Token := ⟨.word, w.text⟩

/-- members, each behind a point -/
def memberTokens (ws : List Word) : List Token := ws.flatMap (fun w => [.mark ".", w.token])

def Chain.tokens (c : Chain) : List Token := c.first.token :: memberTokens c.others

def Sign.token (s : Sign) : Token :=
  .mark (match s.negated, s.strict with
    | false, true => "==="
    | false, false => "=="
    | true, true => "!=="
    | true, false => "!=")

mutual

def Operand.tokens : Operand → List Token
  | .chain c => c.tokens
  | .truth b true => [truthWord b]
  | .truth b false => truthMarks b
  | .not u => .mark "!" :: u.tokens
  | .group c => .mark "(" :: (c.tokens ++ [.mark ")"])

def Equality.tokens : Equality → List Token
  | .operand u => u.tokens
  | .compare l s r => l.tokens ++ s.token :: r.tokens

def Conjunction.tokens : Conjunction → List Token
  | .one e => e.tokens
  | .both l r => l.tokens ++ .mark "&&" :: r.tokens

def Disjunction.tokens : Disjunction → List Token
  | .one c => c.tokens
  | .either l r => l.tokens ++ .mark "||" :: r.tokens

def Condition.tokens : Condition → List Token
  | .one d => d.tokens
  | .choice d yes no => d.tokens ++ .mark "?" :: (yes.tokens ++ .mark ":" :: no.tokens)

end

/-! ### Values -/

def Sign.value (s : Sign) (a b : Bool) : Bool := if s.negated then a != b else a == b

section

variable (ρ : Chain → Bool)

mutual

def Operand.value : Operand → Bool
  | .chain c => ρ c
  | .truth b _ => b
  | .not u => !u.value
  | .group c => c.value

def Equality.value : Equality → Bool
  | .operand u => u.value
  | .compare l s r => s.value l.value r.value

def Conjunction.value : Conjunction → Bool
  | .one e => e.value
  | .both l r => l.value && r.value

def Disjunction.value : Disjunction → Bool
  | .one c => c.value
  | .either l r => l.value || r.value

def Condition.value : Condition → Bool
  | .one d => d.value
  | .choice d yes no => if d.value then yes.value else no.value

end

end

/-! ### Reading -/

abbrev Reader (α : Type) := List Token → Option (α × List Token)

def Word.ofToken? (t : Token) : Option Word :=
  if h : t.kind = .word ∧ t.text ≠ "true".toList ∧ t.text ≠ "false".toList then
    some ⟨t.text, h.2⟩
  else none

def Sign.ofToken? (t : Token) : Option Sign :=
  if t = .mark "===" then some ⟨false, true⟩
  else if t = .mark "==" then some ⟨false, false⟩
  else if t = .mark "!==" then some ⟨true, true⟩
  else if t = .mark "!=" then some ⟨true, false⟩
  else none

def markOf? (text : String) (t : Token) : Option Unit := if t = .mark text then some () else none

/-- what follows a mark -/
def after? (text : String) : List Token → Option (List Token)
  | t :: rest => if t = .mark text then some rest else none
  | [] => none

/-- words behind points, as many as there are -/
def readMembers : List Token → List Word × List Token
  | point :: t :: rest =>
    if point = .mark "." then
      match Word.ofToken? t with
      | some w => (w :: (readMembers rest).1, (readMembers rest).2)
      | none => ([], point :: t :: rest)
    else ([], point :: t :: rest)
  | ts => ([], ts)

section

variable {α β σ : Type} (sign? : Token → Option σ) (join : α → σ → β → α) (read : Reader β)

/-- further parts, each behind a sign, joined from left to right; `fuel` bounds their number -/
def readMore : Nat → α → Reader α
  | 0, _, _ => none
  | _ + 1, a, [] => some (a, [])
  | fuel + 1, a, t :: rest =>
    match sign? t with
    | none => some (a, t :: rest)
    | some s =>
      match read rest with
      | none => none
      | some (b, rest) => readMore fuel (join a s b) rest

def readJoined (start : β → α) : Reader α := fun ts =>
  match read ts with
  | none => none
  | some (b, rest) => readMore sign? join read (rest.length + 1) (start b) rest

end

def readEquality (operand : Reader Operand) : Reader Equality :=
  readJoined Sign.ofToken? .compare operand .operand

def readConjunction (operand : Reader Operand) : Reader Conjunction :=
  readJoined (markOf? "&&") (fun l _ r => .both l r) (readEquality operand) .one

def readDisjunction (operand : Reader Operand) : Reader Disjunction :=
  readJoined (markOf? "||") (fun l _ r => .either l r) (readConjunction operand) .one

mutual

/-- an operand; `fuel` bounds the depth of negations and groups -/
def readOperand : Nat → Reader Operand
  | 0, _ => none
  | _ + 1, [] => none
  | fuel + 1, t :: rest =>
    if t = .mark "(" then do
      let (c, rest) ← readCondition fuel rest
      let rest ← after? ")" rest
      pure (.group c, rest)
    else if t = .mark "!" then
      if rest.head? = some (truthDigit true) then some (.truth true false, rest.tail)
      else if rest.head? = some (truthDigit false) then some (.truth false false, rest.tail)
      else do
        let (u, rest) ← readOperand fuel rest
        pure (.not u, rest)
    else if t = truthWord true then some (.truth true true, rest)
    else if t = truthWord false then some (.truth false true, rest)
    else do
      let w ← Word.ofToken? t
      pure (.chain ⟨w, (readMembers rest).1⟩, (readMembers rest).2)

def readCondition : Nat → Reader Condition
  | 0, _ => none
  | fuel + 1, ts => do
    let (d, rest) ← readDisjunction (readOperand fuel) ts
    match after? "?" rest with
    | none => pure (.one d, rest)
    | some rest =>
      let (yes, rest) ← readCondition fuel rest
      let rest ← after? ":" rest
      let (no, rest) ← readCondition fuel rest
      pure (.choice d yes no, rest)

end

/-- the condition that the tokens are -/
def parse? (ts : List Token) : Option Condition :=
  match readCondition (ts.length + 1) ts with
  | some (c, []) => some c
  | _ => none

/-! ### Tokens one by one -/

theorem Word.ofToken?_token (w : Word) : Word.ofToken? w.token = some w := by
  rw [ofToken?, dif_pos ⟨rfl, w.ordinary⟩]
  rfl

theorem Word.token_ne_mark (w : Word) (text : String) : w.token ≠ .mark text := by
  intro h
  cases congrArg Token.kind h

theorem Word.token_ne_truthWord (w : Word) (b : Bool) : w.token ≠ truthWord b := by
  intro h
  have htext := congrArg Token.text h
  cases b with
  | true => exact w.ordinary.1 htext
  | false => exact w.ordinary.2 htext

theorem Sign.ofToken?_token (s : Sign) : Sign.ofToken? s.token = some s := by
  obtain ⟨negated, strict⟩ := s
  cases negated <;> cases strict <;> rfl

theorem Sign.forall_token {P : Token → Prop} (h : ∀ m ∈ ["===", "==", "!==", "!="], P (.mark m))
    (s : Sign) : P s.token := by
  obtain ⟨negated, strict⟩ := s
  cases negated <;> cases strict <;> exact h _ (by decide)

theorem markOf?_mark (text : String) : markOf? text (.mark text) = some () := by
  rw [markOf?, if_pos rfl]

theorem after?_mark (text : String) (rest : List Token) :
    after? text (.mark text :: rest) = some rest := by
  rw [after?, if_pos rfl]

/-! ### What may follow -/

/-- nothing follows, or one of the marks -/
def Ends (marks : List String) (rest : List Token) : Prop :=
  ∀ t ∈ rest.head?, ∃ m ∈ marks, t = .mark m

def afterCondition : List String := [")", ":"]

def afterDisjunction : List String := "?" :: afterCondition

def afterConjunction : List String := "||" :: afterDisjunction

def afterEquality : List String := "&&" :: afterConjunction

def afterOperand : List String := "===" :: "==" :: "!==" :: "!=" :: afterEquality

theorem Ends.mono {marks marks' : List String} {rest : List Token} (h : Ends marks rest)
    (hsub : ∀ m ∈ marks, m ∈ marks') : Ends marks' rest := by
  intro t ht
  obtain ⟨m, hm, rfl⟩ := h t ht
  exact ⟨m, hsub m hm, rfl⟩

theorem ends_nil (marks : List String) : Ends marks [] := by
  intro t ht
  cases ht

theorem ends_mark {marks : List String} {m : String} (hm : m ∈ marks) (rest : List Token) :
    Ends marks (.mark m :: rest) := by
  intro t ht
  cases ht
  exact ⟨m, hm, rfl⟩

theorem ends_sign (s : Sign) (rest : List Token) : Ends afterOperand (s.token :: rest) :=
  Sign.forall_token (P := fun t => Ends afterOperand (t :: rest))
    (fun _ hm => ends_mark (List.mem_append_left afterEquality hm) rest) s

/-- a test of the first token that fails for each of the marks -/
theorem Ends.eq_none {marks : List String} {rest : List Token} {σ : Type} {sign? : Token → Option σ}
    (h : Ends marks rest) (hnone : ∀ m ∈ marks, sign? (.mark m) = none) :
    ∀ t ∈ rest.head?, sign? t = none := by
  intro t ht
  obtain ⟨m, hm, rfl⟩ := h t ht
  exact hnone m hm

theorem Ends.after?_eq_none {marks : List String} {rest : List Token} {text : String}
    (h : Ends marks rest) (hne : ∀ m ∈ marks, Token.mark m ≠ .mark text) :
    after? text rest = none := by
  cases rest with
  | nil => rfl
  | cons t rest =>
    obtain ⟨m, hm, rfl⟩ := h t rfl
    rw [after?, if_neg (hne m hm)]

/-! ### Members -/

theorem readMembers_stop {rest : List Token} (h : Ends afterOperand rest) :
    readMembers rest = ([], rest) := by
  have hpoint : ∀ m ∈ afterOperand, Token.mark m ≠ .mark "." := by decide
  rcases rest with _ | ⟨t, _ | ⟨u, rest⟩⟩
  · rfl
  · rfl
  · obtain ⟨m, hm, rfl⟩ := h t rfl
    rw [readMembers, if_neg (hpoint m hm)]

theorem readMembers_memberTokens (ws : List Word) {rest : List Token}
    (h : Ends afterOperand rest) : readMembers (memberTokens ws ++ rest) = (ws, rest) := by
  induction ws with
  | nil => exact readMembers_stop h
  | cons w ws ih =>
    show readMembers (.mark "." :: w.token :: (memberTokens ws ++ rest)) = (w :: ws, rest)
    rw [readMembers, if_pos rfl, Word.ofToken?_token, ih]

/-! ### Joining from left to right -/

section

variable {α β σ : Type} {sign? : Token → Option σ} {join : α → σ → β → α} {read : Reader β}

theorem readMore_stop {rest : List Token} (h : ∀ t ∈ rest.head?, sign? t = none) (fuel : Nat)
    (a : α) : readMore sign? join read (fuel + 1) a rest = some (a, rest) := by
  cases rest with
  | nil => rfl
  | cons t rest =>
    rw [readMore, h t rfl]

theorem readMore_step {t : Token} {s : σ} {rest rest' : List Token} {b : β}
    (hs : sign? t = some s) (hread : read rest = some (b, rest')) (fuel : Nat) (a : α) :
    readMore sign? join read (fuel + 1) a (t :: rest) =
      readMore sign? join read fuel (join a s b) rest' := by
  rw [readMore, hs]
  simp only [hread]

/-- The tokens up to `rest` were read as `a`, and there is fuel for what follows.  What is read as
`a` need not end there: a longer chain that starts with `a` goes through this state too. -/
def Reaches (sign? : Token → Option σ) (join : α → σ → β → α) (read : Reader β) (start : β → α)
    (ts : List Token) (a : α) (rest : List Token) : Prop :=
  ∃ fuel, rest.length < fuel ∧
    readJoined sign? join read start ts = readMore sign? join read fuel a rest

variable {start : β → α} {ts rest : List Token} {a : α}

theorem reaches_start {b : β} (h : read ts = some (b, rest)) :
    Reaches sign? join read start ts (start b) rest := by
  refine ⟨rest.length + 1, Nat.lt_succ_self _, ?_⟩
  rw [readJoined, h]

theorem Reaches.step {t : Token} {s : σ} {rest' : List Token} {b : β}
    (h : Reaches sign? join read start ts a (t :: rest)) (hs : sign? t = some s)
    (hread : read rest = some (b, rest')) (hle : rest'.length ≤ rest.length) :
    Reaches sign? join read start ts (join a s b) rest' := by
  obtain ⟨fuel, hfuel, he⟩ := h
  rw [List.length_cons] at hfuel
  obtain ⟨fuel, rfl⟩ : ∃ n, fuel = n + 1 := ⟨fuel - 1, by omega⟩
  exact ⟨fuel, by omega, he.trans (readMore_step hs hread fuel a)⟩

theorem Reaches.stop (h : Reaches sign? join read start ts a rest)
    (hstop : ∀ t ∈ rest.head?, sign? t = none) :
    readJoined sign? join read start ts = some (a, rest) := by
  obtain ⟨fuel, hfuel, he⟩ := h
  obtain ⟨fuel, rfl⟩ : ∃ n, fuel = n + 1 := ⟨fuel - 1, by omega⟩
  rw [he]
  exact readMore_stop hstop fuel a

end

/-! ### Conditions -/

theorem Operand.head_tokens (u : Operand) : ∃ t ts, u.tokens = t :: ts ∧ t.kind ≠ .number := by
  cases u with
  | chain c => exact ⟨c.first.token, _, rfl, fun h => by cases h⟩
  | truth b word => cases word <;> exact ⟨_, _, rfl, fun h => by cases h⟩
  | not u => exact ⟨.mark "!", _, rfl, by decide⟩
  | group c => exact ⟨.mark "(", _, rfl, by decide⟩

theorem Operand.not_digit (u : Operand) (rest : List Token) (b : Bool) :
    (u.tokens ++ rest).head? ≠ some (truthDigit b) := by
  obtain ⟨t, ts, ht, hkind⟩ := u.head_tokens
  intro h
  rw [ht] at h
  cases h
  exact hkind rfl

mutual

/-- **Operands are read as they were written**, up to a mark that ends them. -/
theorem readOperand_tokens : ∀ (u : Operand) (fuel : Nat), u.tokens.length ≤ fuel →
    ∀ rest, Ends afterOperand rest → readOperand fuel (u.tokens ++ rest) = some (u, rest)
  | u, 0, hfuel, rest, _ => by
    obtain ⟨t, ts, ht, -⟩ := u.head_tokens
    rw [ht, List.length_cons] at hfuel
    omega
  | .chain c, fuel + 1, _, rest, hrest => by
    -- no point follows, so the chain ends with its last member
    have hmembers := readMembers_memberTokens c.others hrest
    rw [Operand.tokens, Chain.tokens, List.cons_append, readOperand,
      if_neg (c.first.token_ne_mark "("), if_neg (c.first.token_ne_mark "!"),
      if_neg (c.first.token_ne_truthWord true), if_neg (c.first.token_ne_truthWord false),
      Word.ofToken?_token, hmembers]
    rfl
  | .truth true true, fuel + 1, _, rest, _ => rfl
  | .truth false true, fuel + 1, _, rest, _ => rfl
  | .truth true false, fuel + 1, _, rest, _ => rfl
  | .truth false false, fuel + 1, _, rest, _ => rfl
  | .not u, fuel + 1, hfuel, rest, hrest => by
    rw [Operand.tokens, List.length_cons] at hfuel
    have hread := readOperand_tokens u fuel (by omega) rest hrest
    rw [Operand.tokens, List.cons_append, readOperand, if_neg (by decide), if_pos rfl,
      if_neg (u.not_digit rest true), if_neg (u.not_digit rest false), hread]
    rfl
  | .group c, fuel + 1, hfuel, rest, _ => by
    rw [Operand.tokens, List.length_cons, List.length_append, List.length_singleton] at hfuel
    have hread := readCondition_tokens c fuel (by omega) (.mark ")" :: rest)
      (ends_mark (by decide) rest)
    rw [Operand.tokens, List.cons_append, List.append_assoc, List.singleton_append, readOperand,
      if_pos rfl, hread]
    show (after? ")" (.mark ")" :: rest) >>= fun rest => some (Operand.group c, rest)) = _
    rw [after?_mark]
    rfl

theorem readEquality_tokens : ∀ (e : Equality) (fuel : Nat), e.tokens.length ≤ fuel →
    ∀ rest, Ends afterOperand rest →
      Reaches Sign.ofToken? .compare (readOperand fuel) .operand (e.tokens ++ rest) e rest
  | .operand u, fuel, hfuel, rest, hrest =>
    reaches_start (readOperand_tokens u fuel hfuel rest hrest)
  | .compare l s r, fuel, hfuel, rest, hrest => by
    rw [Equality.tokens, List.length_append, List.length_cons] at hfuel
    have hleft := readEquality_tokens l fuel (by omega) (s.token :: (r.tokens ++ rest))
      (ends_sign s _)
    have hright := readOperand_tokens r fuel (by omega) rest hrest
    rw [Equality.tokens, List.append_assoc, List.cons_append]
    exact hleft.step s.ofToken?_token hright (by simp)

theorem readConjunction_tokens : ∀ (c : Conjunction) (fuel : Nat), c.tokens.length ≤ fuel →
    ∀ rest, Ends afterEquality rest →
      Reaches (markOf? "&&") (fun l _ r => .both l r) (readEquality (readOperand fuel)) .one
        (c.tokens ++ rest) c rest
  | .one e, fuel, hfuel, rest, hrest => by
    have hread := readEquality_tokens e fuel hfuel rest (hrest.mono (by decide))
    exact reaches_start (hread.stop (hrest.eq_none (by decide)))
  | .both l r, fuel, hfuel, rest, hrest => by
    rw [Conjunction.tokens, List.length_append, List.length_cons] at hfuel
    have hleft := readConjunction_tokens l fuel (by omega) (.mark "&&" :: (r.tokens ++ rest))
      (ends_mark (by decide) _)
    have hright := readEquality_tokens r fuel (by omega) rest (hrest.mono (by decide))
    rw [Conjunction.tokens, List.append_assoc, List.cons_append]
    exact hleft.step (markOf?_mark "&&") (hright.stop (hrest.eq_none (by decide))) (by simp)

theorem readDisjunction_tokens : ∀ (d : Disjunction) (fuel : Nat), d.tokens.length ≤ fuel →
    ∀ rest, Ends afterConjunction rest →
      Reaches (markOf? "||") (fun l _ r => .either l r) (readConjunction (readOperand fuel)) .one
        (d.tokens ++ rest) d rest
  | .one c, fuel, hfuel, rest, hrest => by
    have hread := readConjunction_tokens c fuel hfuel rest (hrest.mono (by decide))
    exact reaches_start (hread.stop (hrest.eq_none (by decide)))
  | .either l r, fuel, hfuel, rest, hrest => by
    rw [Disjunction.tokens, List.length_append, List.length_cons] at hfuel
    have hleft := readDisjunction_tokens l fuel (by omega) (.mark "||" :: (r.tokens ++ rest))
      (ends_mark (by decide) _)
    have hright := readConjunction_tokens r fuel (by omega) rest (hrest.mono (by decide))
    rw [Disjunction.tokens, List.append_assoc, List.cons_append]
    exact hleft.step (markOf?_mark "||") (hright.stop (hrest.eq_none (by decide))) (by simp)

theorem readCondition_tokens : ∀ (c : Condition) (fuel : Nat), c.tokens.length + 1 ≤ fuel →
    ∀ rest, Ends afterCondition rest → readCondition fuel (c.tokens ++ rest) = some (c, rest)
  | _, 0, hfuel, _, _ => by omega
  | .one d, fuel + 1, hfuel, rest, hrest => by
    have hread := readDisjunction_tokens d fuel (Nat.le_of_succ_le_succ hfuel) rest
      (hrest.mono (by decide))
    have hstop := hread.stop (hrest.eq_none (by decide))
    have hno : after? "?" rest = none := hrest.after?_eq_none (by decide)
    simp only [Condition.tokens, readCondition, readDisjunction, hstop, hno, Option.bind_eq_bind,
      Option.bind_some, Option.pure_def]
  | .choice d yes no, fuel + 1, hfuel, rest, hrest => by
    rw [Condition.tokens, List.length_append, List.length_cons, List.length_append,
      List.length_cons] at hfuel
    have htest := readDisjunction_tokens d fuel (by omega)
      (.mark "?" :: (yes.tokens ++ .mark ":" :: (no.tokens ++ rest))) (ends_mark (by decide) _)
    have hstop := htest.stop (fun t ht => by cases ht; rfl)
    have hyes := readCondition_tokens yes fuel (by omega) (.mark ":" :: (no.tokens ++ rest))
      (ends_mark (by decide) _)
    have hno := readCondition_tokens no fuel (by omega) rest hrest
    simp only [Condition.tokens, List.append_assoc, List.cons_append, readCondition,
      readDisjunction, hstop, after?_mark, hyes, hno, Option.bind_eq_bind, Option.bind_some,
      Option.pure_def]

end

/-- **A condition is read from its tokens**, so that no two conditions have the same. -/
theorem parse?_tokens (c : Condition) : parse? c.tokens = some c := by
  have hread := readCondition_tokens c (c.tokens.length + 1) (Nat.le_refl _) [] (ends_nil _)
  rw [List.append_nil] at hread
  rw [parse?, hread]

end EffectFusion.Script
