import EffectFusion.Text.Class

/-!
# Tokens of a script

A token is a piece of script text with its kind.  Literals and comments are single tokens, so
whoever changes tokens never looks into them.
-/

namespace EffectFusion.Script

open Text

inductive Kind
  | whitespace
  | lineComment
  | blockComment
  | stringLiteral
  | templateLiteral
  | word
  | number
  | punctuation
  deriving DecidableEq, Repr

structure Token where
  kind : Kind
  text : List Char
  deriving DecidableEq, Repr

namespace Token

def mark (text : String) : Token := ⟨.punctuation, text.toList⟩

def name (text : String) : Token := ⟨.word, text.toList⟩

def space : Token := ⟨.whitespace, [' ']⟩

def lineBreak : Token := ⟨.whitespace, ['\n']⟩

def isWhitespace (t : Token) : Bool := t.kind = .whitespace

def isComment (t : Token) : Bool := t.kind = .lineComment || t.kind = .blockComment

/-- white space or a comment -/
def isTrivia (t : Token) : Bool := t.isWhitespace || t.isComment

def isMark (t : Token) (text : String) : Bool := t.kind = .punctuation && t.text = text.toList

def isMarkOf (t : Token) (texts : List String) : Bool := texts.any t.isMark

def isName (t : Token) (text : String) : Bool := t.kind = .word && t.text = text.toList

def isNameOf (t : Token) (texts : List String) : Bool := texts.any t.isName

def breaksLine (t : Token) : Bool := t.text.contains '\n'

theorem isMark_mark (text : String) : (mark text).isMark text = true := by
  simp [mark, isMark]

theorem isName_name (text : String) : (name text).isName text = true := by
  simp [name, isName]

theorem isMark_iff (t : Token) (text : String) : t.isMark text = true ↔ t = mark text := by
  cases t
  simp [isMark, mark]

theorem isName_iff (t : Token) (text : String) : t.isName text = true ↔ t = name text := by
  cases t
  simp [isName, name]

end Token

def render (ts : List Token) : List Char := ts.flatMap (·.text)

theorem render_nil : render [] = [] := rfl

theorem render_cons (t : Token) (ts : List Token) : render (t :: ts) = t.text ++ render ts := by
  simp [render]

theorem render_append (ts us : List Token) : render (ts ++ us) = render ts ++ render us := by
  simp [render]

end EffectFusion.Script
