import EffectFusion.Script.Shortening

/-!
# Shorter expressions

An anonymous function that uses nothing of its own call becomes an arrow function, and the
comparison of a member with a truth value becomes the member or its negation.
-/

namespace EffectFusion.Script

/-! ### Arrow functions -/

def arrowPreceders : List String := ["(", ",", "=", ":", "?"]

def arrowFollowers : List String := [")", ",", ";", "\x7d", "]", ":"]

/-- words whose meaning depends on the function around them -/
def callWords : List String := ["this", "arguments", "super", "new"]

/-- up to the bracket that closes the one at the start; `depth` brackets are open before it -/
def spanGroup? (opening closing : String) : Nat → List Token → Option (List Token × List Token)
  | _, [] => none
  | depth, t :: rest =>
    if t.isMark opening then
      (spanGroup? opening closing (depth + 1) rest).map (fun p => (t :: p.1, p.2))
    else if t.isMark closing then
      if depth ≤ 1 then some ([t], rest)
      else (spanGroup? opening closing (depth - 1) rest).map (fun p => (t :: p.1, p.2))
    else (spanGroup? opening closing depth rest).map (fun p => (t :: p.1, p.2))

theorem spanGroup?_append {opening closing : String} {depth : Nat} {ts group rest : List Token}
    (h : spanGroup? opening closing depth ts = some (group, rest)) : group ++ rest = ts := by
  induction ts generalizing depth group with
  | nil => simp [spanGroup?] at h
  | cons t ts ih =>
    unfold spanGroup? at h
    split at h
    · simp only [Option.map_eq_some_iff, Prod.mk.injEq, Prod.exists] at h
      obtain ⟨g, r, hs, rfl, rfl⟩ := h
      simp [ih hs]
    · split at h
      · split at h
        · simp only [Option.some.injEq, Prod.mk.injEq] at h
          obtain ⟨rfl, rfl⟩ := h
          rfl
        · simp only [Option.map_eq_some_iff, Prod.mk.injEq, Prod.exists] at h
          obtain ⟨g, r, hs, rfl, rfl⟩ := h
          simp [ih hs]
      · simp only [Option.map_eq_some_iff, Prod.mk.injEq, Prod.exists] at h
        obtain ⟨g, r, hs, rfl, rfl⟩ := h
        simp [ih hs]

/-- the group in brackets that follows, trivia before it left out -/
def bracketGroup? (opening closing : String) (ts : List Token) :
    Option (List Token × List Token) :=
  let ts := ts.dropWhile Token.isTrivia
  if holds (·.isMark opening) ts.head? then spanGroup? opening closing 0 ts else none

theorem bracketGroup?_length {opening closing : String} {ts group rest : List Token}
    (h : bracketGroup? opening closing ts = some (group, rest)) :
    group.length + rest.length ≤ ts.length := by
  unfold bracketGroup? at h
  simp only at h
  split at h
  · have e := congrArg List.length (spanGroup?_append h)
    have l : (ts.dropWhile Token.isTrivia).length ≤ ts.length :=
      (List.dropWhile_sublist Token.isTrivia).length_le
    rw [List.length_append] at e
    omega
  · simp at h

/-- an arrow function may stand after this token in place of a function expression -/
def mayPrecedeArrow (t : Option Token) : Bool :=
  holds (fun t => t.isMarkOf arrowPreceders || t.isName "return") t

/-- and this token may follow it -/
def mayFollowArrow : Option Token → Bool
  | none => true
  | some t => t.isMarkOf arrowFollowers

/-- the list that starts with `t`, a function expression at its start written as an arrow
function; `before` is the nearest token before it that is no trivia -/
def arrow? (before : Option Token) (t : Token) (rest : List Token) : Option (List Token) :=
  if t.isName "function" ∧ mayPrecedeArrow before then
    match bracketGroup? "(" ")" rest with
    | none => none
    | some (parameters, rest) =>
      match bracketGroup? "\x7b" "\x7d" rest with
      | none => none
      | some (body, rest) =>
        if (parameters ++ body).any (·.isNameOf callWords) then none
        else if mayFollowArrow (significant? rest) then
          some (parameters ++ .mark "=>" :: body ++ rest)
        else none
  else none

theorem arrow?_length {before : Option Token} {t : Token} {rest out : List Token}
    (h : arrow? before t rest = some out) : out.length ≤ rest.length + 1 := by
  unfold arrow? at h
  split at h
  · split at h
    · simp at h
    · rename_i parameters rest1 h1
      split at h
      · simp at h
      · rename_i body rest2 h2
        split at h
        · simp at h
        · split at h
          · have e1 := bracketGroup?_length h1
            have e2 := bracketGroup?_length h2
            simp only [Option.some.injEq] at h
            subst h
            simp only [List.length_append, List.length_cons]
            omega
          · simp at h
  · simp at h

/-- every function expression that may, from left to right, the ones inside of a changed one
included; `before` is the nearest token before the list that is no trivia -/
def arrowed (before : Option Token) : List Token → List Token
  | [] => []
  | t :: rest =>
    match _h : arrow? before t rest with
    | some (u :: rest') => u :: arrowed (if u.isTrivia then before else some u) rest'
    | _ => t :: arrowed (if t.isTrivia then before else some t) rest
termination_by ts => ts.length
decreasing_by
  · have := arrow?_length _h
    simp only [List.length_cons] at this ⊢
    omega
  · simp

/-! ### Comparisons with a truth value -/

def comparisonPreceders : List String := ["(", "&&", "||", "?", ",", "=", ":"]

def comparisonFollowers : List String := [")", "&&", "||", "?", ",", ";", ":"]

/-- a truth value at the start, as a word or as a negated digit, and what follows it -/
def truthLiteral? : List Token → Option (Bool × List Token)
  | [] => none
  | t :: rest =>
    if t.isName "true" then some (true, rest)
    else if t.isName "false" then some (false, rest)
    else if t.isMark "!" then
      if rest.head? = some ⟨.number, ['0']⟩ then some (true, rest.tail)
      else if rest.head? = some ⟨.number, ['1']⟩ then some (false, rest.tail)
      else none
    else none

theorem truthLiteral?_length {ts rest : List Token} {b : Bool}
    (h : truthLiteral? ts = some (b, rest)) : rest.length < ts.length := by
  cases ts with
  | nil => simp [truthLiteral?] at h
  | cons t ts =>
    have l := List.length_tail (l := ts)
    simp only [truthLiteral?] at h
    rw [List.length_cons]
    split at h
    · simp_all
    split at h
    · simp_all
    split at h
    · split at h
      · simp only [Option.some.injEq, Prod.mk.injEq] at h
        rw [← h.2]
        omega
      split at h
      · simp only [Option.some.injEq, Prod.mk.injEq] at h
        rw [← h.2]
        omega
      · simp at h
    · simp at h

/-- splits off a chain of members `a.b.c` at the end of what was read; both lists have their last
token first -/
def memberChain? : List Token → Option (List Token × List Token)
  | [] => none
  | w :: point :: v :: more =>
    if w.kind ≠ .word then none
    else if point.isMark "." ∧ v.kind = .word then
      (memberChain? (v :: more)).map (fun p => (w :: point :: p.1, p.2))
    else some ([w], point :: v :: more)
  | w :: rest => if w.kind = .word then some ([w], rest) else none

/-- a comparison for equality and whether it is negated -/
def comparison? (t : Token) : Option Bool :=
  if t.isMarkOf ["===", "=="] then some false
  else if t.isMarkOf ["!==", "!="] then some true
  else none

/-- the comparison `t` with a truth value left out; `done` is what was read before it, last token
first -/
def elision? (done : List Token) (t : Token) (rest : List Token) :
    Option (List Token × List Token) :=
  match comparison? t with
  | none => none
  | some negated =>
    match truthLiteral? rest with
    | none => none
    | some (value, rest) =>
      match memberChain? done with
      | none => none
      | some (chain, done) =>
        if holds (·.isMarkOf comparisonPreceders) done.head?
            ∧ holds (·.isMarkOf comparisonFollowers) rest.head? then
          if value = negated then some (chain ++ .mark "!" :: done, rest)
          else some (chain ++ done, rest)
        else none

theorem elision?_length {done done' : List Token} {t : Token} {rest rest' : List Token}
    (h : elision? done t rest = some (done', rest')) : rest'.length < rest.length := by
  unfold elision? at h
  split at h
  · simp at h
  · split at h
    · simp at h
    · rename_i value rest1 h1
      have l := truthLiteral?_length h1
      split at h
      · simp at h
      · split at h
        · split at h <;> simp only [Option.some.injEq, Prod.mk.injEq] at h <;> rw [← h.2] <;> exact l
        · simp at h

/-- every comparison that may, from left to right; `done` has its last token first -/
def elided (done : List Token) : List Token → List Token
  | [] => done.reverse
  | t :: rest =>
    match _h : elision? done t rest with
    | some (done', rest') => elided done' rest'
    | none => elided (t :: done) rest
termination_by ts => ts.length
decreasing_by
  · have := elision?_length _h
    simp only [List.length_cons]
    omega
  · simp

/-! ### The pass -/

/-- a space between two neighbours that would not stay apart -/
def respaced : List Token → List Token
  | [] => []
  | [t] => [t]
  | t :: u :: rest =>
    if !t.isWhitespace && !u.isWhitespace && !gluesCleanly t u then
      t :: .space :: respaced (u :: rest)
    else t :: respaced (u :: rest)

/-- only line breaks stay; spaces come back where they are needed -/
def withoutSpaces (ts : List Token) : List Token :=
  ts.filter (fun t => !t.isWhitespace || t.breaksLine)

/-- the script with arrow functions and without comparisons with truth values -/
def reformulate (code : List Char) : List Char :=
  render (respaced (elided [] (arrowed none (withoutSpaces (lex code)))))

end EffectFusion.Script
