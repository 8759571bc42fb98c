import EffectFusion.Script.Token

/-!
# From text to tokens

`lex` splits a text into tokens and loses nothing: `render_lex` says that the texts of the tokens
make up the input.  A `/` is always punctuation, a literal or comment that is not closed runs to
the end of the text, and of all operators that fit the longest is taken.
-/

namespace EffectFusion.Script

open Text

/-- operators of more than one character, longer ones first -/
def operators : List String := [
  ">>>=", "===", "!==", "**=", "<<=", ">>=", ">>>", "...", "&&=", "||=", "??=", "=>", "==",
  "!=", "<=", ">=", "&&", "||", "??", "?.", "++", "--", "+=", "-=", "*=", "/=", "%=", "&=",
  "|=", "^=", "**", "<<", ">>"]

def isWordStart (c : Char) : Bool := isLetter c || c = '_' || c = '$'

def isWordPart (c : Char) : Bool := isLetter c || isNumeric c || c = '_' || c = '$'

/-! ### What belongs to a token

Each function splits a text into what still belongs to the token and the rest. -/

/-- the longest start whose characters have a property -/
def spanWhile (p : Char → Bool) (s : List Char) : List Char × List Char :=
  (s.takeWhile p, s.dropWhile p)

/-- up to the end of a block comment -/
def spanBlock : List Char → List Char × List Char
  | [] => ([], [])
  | '*' :: '/' :: rest => (['*', '/'], rest)
  | c :: rest => (c :: (spanBlock rest).1, (spanBlock rest).2)

/-- up to the closing quote; a backslash takes the next character with it -/
def spanQuoted (quote : Char) : Bool → List Char → List Char × List Char
  | _, [] => ([], [])
  | true, c :: rest => (c :: (spanQuoted quote false rest).1, (spanQuoted quote false rest).2)
  | false, c :: rest =>
    if c = '\\' then (c :: (spanQuoted quote true rest).1, (spanQuoted quote true rest).2)
    else if c = quote then ([c], rest)
    else (c :: (spanQuoted quote false rest).1, (spanQuoted quote false rest).2)

/-- a character of a number; a sign belongs to it right after the mark of an exponent -/
def isNumberPart (before c : Char) : Bool :=
  isAlnum c || c = '.' || c = '_'
    || ((c = '+' || c = '-') && (before = 'e' || before = 'E'))

/-- the rest of a number whose last character so far is `before` -/
def spanNumber (before : Char) : List Char → List Char × List Char
  | [] => ([], [])
  | c :: rest =>
    if isNumberPart before c then (c :: (spanNumber c rest).1, (spanNumber c rest).2)
    else ([], c :: rest)

/-- the rest of the longest operator that starts with `c`, of which the first character is gone -/
def spanOperator (c : Char) (rest : List Char) : List Char × List Char :=
  match operators.find? (fun op => op.toList.isPrefixOf (c :: rest)) with
  | some op => (rest.take (op.toList.length - 1), rest.drop (op.toList.length - 1))
  | none => ([], rest)

theorem spanWhile_append (p : Char → Bool) (s : List Char) :
    (spanWhile p s).1 ++ (spanWhile p s).2 = s := List.takeWhile_append_dropWhile

theorem spanBlock_append (s : List Char) : (spanBlock s).1 ++ (spanBlock s).2 = s := by
  fun_induction spanBlock s <;> simp_all

theorem spanQuoted_append (quote : Char) (escaped : Bool) (s : List Char) :
    (spanQuoted quote escaped s).1 ++ (spanQuoted quote escaped s).2 = s := by
  fun_induction spanQuoted quote escaped s <;> simp_all

theorem spanNumber_append (before : Char) (s : List Char) :
    (spanNumber before s).1 ++ (spanNumber before s).2 = s := by
  fun_induction spanNumber before s <;> simp_all

theorem spanOperator_append (c : Char) (s : List Char) :
    (spanOperator c s).1 ++ (spanOperator c s).2 = s := by
  unfold spanOperator
  split <;> simp

/-! ### The first token -/

/-- the token may start with a digit or with a point before a digit -/
def startsNumber (c : Char) (rest : List Char) : Bool :=
  isDigit c || (c = '.' && (rest.head?.map isDigit).getD false)

def isQuote (c : Char) : Bool := c = '"' || c = '\'' || c = '\x60'

/-- kind of the token that starts with `c`, the characters after `c` that belong to it, and the
rest of the text -/
def firstSpan (c : Char) (rest : List Char) : Kind × (List Char × List Char) :=
  if isBlank c then (.whitespace, spanWhile isBlank rest)
  else if c = '/' ∧ rest.head? = some '/' then (.lineComment, spanWhile (· ≠ '\n') rest)
  else if c = '/' ∧ rest.head? = some '*' then
    (.blockComment, ('*' :: (spanBlock rest.tail).1, (spanBlock rest.tail).2))
  else if isQuote c then
    (if c = '\x60' then .templateLiteral else .stringLiteral, spanQuoted c false rest)
  else if startsNumber c rest then (.number, spanNumber c rest)
  else if isWordStart c then (.word, spanWhile isWordPart rest)
  else (.punctuation, spanOperator c rest)

theorem firstSpan_append (c : Char) (rest : List Char) :
    (firstSpan c rest).2.1 ++ (firstSpan c rest).2.2 = rest := by
  unfold firstSpan
  split
  · exact spanWhile_append _ _
  split
  · exact spanWhile_append _ _
  split
  · rename_i h
    cases rest with
    | nil => simp at h
    | cons d r =>
      have hd : d = '*' := by simpa using h.2
      simp [hd, spanBlock_append r]
  split
  · exact spanQuoted_append _ _ _
  split
  · exact spanNumber_append _ _
  split
  · exact spanWhile_append _ _
  · exact spanOperator_append _ _

theorem firstSpan_rest_length (c : Char) (rest : List Char) :
    (firstSpan c rest).2.2.length ≤ rest.length := by
  have h := congrArg List.length (firstSpan_append c rest)
  rw [List.length_append] at h
  omega

/-- the token at the start of a text -/
def firstToken (c : Char) (rest : List Char) : Token :=
  ⟨(firstSpan c rest).1, c :: (firstSpan c rest).2.1⟩

def lex : List Char → List Token
  | [] => []
  | c :: rest => firstToken c rest :: lex (firstSpan c rest).2.2
termination_by s => s.length
decreasing_by
  have := firstSpan_rest_length c rest
  simp only [List.length_cons]
  omega

theorem lex_nil : lex [] = [] := by rw [lex]

theorem lex_cons (c : Char) (rest : List Char) :
    lex (c :: rest) = firstToken c rest :: lex (firstSpan c rest).2.2 := by rw [lex]

theorem render_lex (s : List Char) : render (lex s) = s := by
  fun_induction lex s with
  | case1 => rfl
  | case2 c rest ih =>
    rw [render_cons, ih]
    simp [firstToken, firstSpan_append]

/-- two tokens written without anything between them are read as these two tokens -/
def gluesCleanly (a b : Token) : Bool := lex (a.text ++ b.text) = [a, b]

end EffectFusion.Script
