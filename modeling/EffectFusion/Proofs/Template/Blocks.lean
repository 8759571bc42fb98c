import EffectFusion.Template
import EffectFusion.Proofs.Script.Edits

/-!
# Blocks as tokens

A block is written line by line, and no token goes over the end of a line.  So the tokens of a
block are those of its lines, whatever the depth at which it is written.

* `significant_writeAll`   the tokens of written blocks;
* `statement_tokensOf`     they are orderly when those of each line are.
-/

namespace EffectFusion.Template

open Text Script

/-! ### Lines -/

/-- `gluesCleanly` for tokens that can be read by themselves -/
def gluesAt (a b : Token) : Bool :=
  match b.text with
  | [] => false
  | c :: _ => !(a.text = ['.'] && c = '.') && a.stopsBefore c

/-- `orderly` for tokens that can be read by themselves -/
def orderlyAt (a b : Token) : Bool := (gluesAt a b || endsStatement a b) && mannered a b

theorem gluesAt_iff {a b : Token} (ha : Stands a []) (hb : Stands b [])
    (hdots : ¬ (a.text = ['.'] ∧ b.text.head? = some '.')) :
    gluesAt a b = true ↔ gluesCleanly a b = true := by
  obtain ⟨k, c, u, rfl⟩ := hb.exists_cons
  have hdots : ¬ (a.text = ['.'] ∧ c = '.') := fun h => hdots ⟨h.1, congrArg some h.2⟩
  have hpoint : (a.text = ['.'] && c = '.' : Bool) = false := by simpa using hdots
  have hstops := @stands_cons_iff a c u ha hdots
  have hglues : gluesAt a ⟨k, c :: u⟩ = a.stopsBefore c := by simp [gluesAt, hpoint]
  rw [gluesCleanly_iff, hglues]
  exact ⟨fun h => ⟨hstops.2 h, hb⟩, fun h => hstops.1 h.1⟩

theorem not_points {a b : Token} (ha : Stands a []) (hb : Stands b [])
    (h : mannered a b = true) : ¬ (a.text = ['.'] ∧ b.text.head? = some '.') := by
  rintro ⟨hp, hc⟩
  obtain ⟨k, text⟩ := a
  obtain rfl : text = ['.'] := hp
  obtain rfl := kind_of_stands_point ha
  obtain ⟨l, c, u, rfl⟩ := hb.exists_cons
  obtain rfl : c = '.' := Option.some.inj hc
  have hword : l = .word := by
    have hmark : (Token.mk .punctuation ['.']).isMark "." = true := by decide
    simp only [mannered, hmark, Bool.and_eq_true, Bool.or_eq_true, Bool.not_true,
      decide_eq_true_eq] at h
    exact (h.1.1.2.resolve_left Bool.false_ne_true).1
  exact absurd ((starts_of_kindAt ((stands_iff l '.' u []).1 hb).1).1 hword) (by decide)

theorem orderlyAt_iff {a b : Token} (ha : Stands a []) (hb : Stands b []) :
    orderlyAt a b = true ↔ Orderly a b := by
  rw [← orderly_iff, orderlyAt, orderly, Bool.and_eq_true, Bool.and_eq_true]
  refine and_congr_left (fun h => ?_)
  rw [Bool.or_eq_true, Bool.or_eq_true, gluesAt_iff ha hb (not_points ha hb h)]

/-- no token of the line goes on after it -/
def endsWell (text : List Char) : Bool :=
  match (lex text).getLast? with
  | none => true
  | some t => decide (Stands t ['\n'] ∧ t ≠ .mark ".")

/-- what lines end with -/
def lineEnds : List String := [";", "\x7b", "\x7d", ","]

/-- what lines start with -/
def startsLine (t : Token) : Bool := t.isMark "\x7d" || (t.kind = .word && !t.isTruthWord)

/-- a literal is closed, and a word is no short name -/
def isKnown (t : Token) : Bool := t.isClosed && !t.isNameOf (abbreviations.map (·.2))

/-- the tokens of a line or of some lines -/
structure Statement (ts : List Token) : Prop where
  starts : holds startsLine ts.head? = true
  ends : holds (·.isMarkOf lineEnds) ts.getLast? = true
  stands : ∀ t ∈ ts, Stands t []
  orderly : ts.IsChain Orderly
  known : ∀ t ∈ ts, isKnown t = true

/-- `Statement` for tokens that can be read by themselves -/
def isStatement (ts : List Token) : Bool :=
  holds startsLine ts.head? && holds (·.isMarkOf lineEnds) ts.getLast?
    && decide (ts.IsChain (fun a b => orderlyAt a b = true)) && ts.all isKnown

theorem isStatement_iff {ts : List Token} (hs : ∀ t ∈ ts, Stands t []) :
    isStatement ts = true ↔ Statement ts := by
  have hchain : ts.IsChain (fun a b => orderlyAt a b = true) ↔ ts.IsChain Orderly :=
    ⟨fun h => h.imp_of_mem_imp (fun a b ha hb => (orderlyAt_iff (hs a ha) (hs b hb)).1),
      fun h => h.imp_of_mem_imp (fun a b ha hb => (orderlyAt_iff (hs a ha) (hs b hb)).2)⟩
  simp only [isStatement, Bool.and_eq_true, decide_eq_true_eq, List.all_eq_true, hchain]
  exact ⟨fun h => ⟨h.1.1.1, h.1.1.2, hs, h.1.2, h.2⟩,
    fun h => ⟨⟨⟨h.starts, h.ends⟩, h.orderly⟩, h.known⟩⟩

theorem holds_iff {p : Token → Bool} {t : Option Token} :
    holds p t = true ↔ ∃ u, t = some u ∧ p u = true := by
  cases t <;> simp [holds]

/-- a line may start after the end of another -/
theorem orderly_line {m : String} (hm : m ∈ lineEnds) {t : Token} (ht : startsLine t = true)
    (hs : Stands t []) : Orderly (.mark m) t := by
  simp only [startsLine, Bool.or_eq_true, Bool.and_eq_true, decide_eq_true_eq,
    Bool.not_eq_true'] at ht
  rcases ht with ht | ⟨hk, htruth⟩
  · obtain rfl := (Token.isMark_iff _ _).1 ht
    have hall : ∀ m ∈ lineEnds, Orderly (.mark m) (.mark "\x7d") := by decide +kernel
    exact hall m hm
  · have hmarks : ∀ m ∈ lineEnds, Stands (.mark m) [] ∧ (Token.mark m).text ≠ ['.'] ∧
        (Token.mark m).text ≠ ['/'] ∧ m.toList.length = 1 ∧
          ∀ op ∈ operators, op.toList.head? ≠ m.toList.head? := by decide +kernel
    obtain ⟨h1, h2, h3, h4, h5⟩ := hmarks m hm
    obtain ⟨k, c, u, rfl⟩ := hs.exists_cons
    have hstands : Stands (.mark m) (c :: u) := by
      refine (stands_cons_iff h1 (fun h => h2 h.1)).2 ?_
      have hop : isOperator ((Token.mark m).text ++ [c]) = false := by
        by_contra hop
        obtain ⟨op, hmem, he⟩ := (isOperator_iff _).1 (by simpa using hop)
        obtain ⟨d, hd⟩ := List.length_eq_one_iff.1 h4
        refine h5 op hmem ?_
        rw [he, hd]
        show (m.toList ++ [c]).head? = _
        rw [hd]
        rfl
      have hcut : (Token.mark m).cutBefore c = !isOperator ((Token.mark m).text ++ [c]) := rfl
      have hkind : (Token.mark m).changesKind c = false := by simp [Token.changesKind, h2, h3]
      rw [Token.stopsBefore, hcut, hop, hkind]
      rfl
    exact orderly_mark h2 ((gluesCleanly_iff _ _).2 ⟨hstands, hs⟩) htruth

theorem Statement.append {ts us : List Token} (h : Statement ts) (h' : Statement us) :
    Statement (ts ++ us) := by
  obtain ⟨a, ha, hstart⟩ := holds_iff.1 h.starts
  obtain ⟨b, hb, hend⟩ := holds_iff.1 h.ends
  obtain ⟨c, hc, hstart'⟩ := holds_iff.1 h'.starts
  obtain ⟨d, hd, hend'⟩ := holds_iff.1 h'.ends
  refine ⟨holds_iff.2 ⟨a, ?_, hstart⟩, holds_iff.2 ⟨d, ?_, hend'⟩, fun t ht => ?_, ?_,
    fun t ht => ?_⟩
  · rw [List.head?_append, ha]
    rfl
  · rw [List.getLast?_append, hd]
    rfl
  · rcases List.mem_append.1 ht with ht | ht
    · exact h.stands t ht
    · exact h'.stands t ht
  · refine h.orderly.append h'.orderly (fun t ht u hu => ?_)
    rw [hb] at ht
    rw [hc] at hu
    obtain rfl := Option.some.inj ht
    obtain rfl := Option.some.inj hu
    obtain ⟨m, hm, rfl⟩ := mem_of_isMarkOf hend
    exact orderly_line hm hstart' (h'.stands c (List.mem_of_head? hc))
  · rcases List.mem_append.1 ht with ht | ht
    · exact h.known t ht
    · exact h'.known t ht

/-- a line is read by itself, but for the white space around it -/
theorem filter_lex_line {p : Token → Bool} (hp : ∀ t : Token, t.isWhitespace = true → p t = false)
    {text : List Char} (h : endsWell text = true) (depth : Nat) (rest : List Char) :
    (lex (List.replicate (2 * depth) ' ' ++ text ++ ['\n'] ++ rest)).filter p =
      (lex text).filter p ++ (lex rest).filter p := by
  have hspaces : ∀ c ∈ List.replicate (2 * depth) ' ', isBlank c = true := by
    intro c hc
    rw [(List.mem_replicate.1 hc).2]
    decide
  have hsplit : lex (text ++ '\n' :: rest) = lex text ++ lex ('\n' :: rest) := by
    unfold endsWell at h
    refine lex_append (fun t ht => ?_) (fun _ => by simp)
    rw [Option.mem_def.1 ht] at h
    obtain ⟨hs, -⟩ := of_decide_eq_true h
    exact hs.change (by rintro ⟨-, he⟩; cases he) rest
  have hbreak := filter_lex_blanks hp (u := ['\n']) (by decide) rest
  rw [List.append_assoc, List.append_assoc, filter_lex_blanks hp hspaces, List.singleton_append,
    hsplit, List.filter_append]
  rw [List.singleton_append] at hbreak
  rw [hbreak]

theorem significant_lex_line {text : List Char} (h : endsWell text = true) (depth : Nat)
    (rest : List Char) :
    significant (lex (List.replicate (2 * depth) ' ' ++ text ++ ['\n'] ++ rest)) =
      significant (lex text) ++ significant (lex rest) :=
  filter_lex_line (fun t ht => isSignificant_of_isTrivia t (isTrivia_of_isWhitespace ht)) h depth
    rest

/-! ### Blocks -/

/-- the tokens of a line that matter -/
def lineTokens (text : String) : List Token := significant (lex (charsOf text))

mutual

def Block.tokens : Block → List Token
  | .line text => lineTokens text
  | .blank => []
  | .nest head body tail =>
    lineTokens (head ++ " \x7b") ++ tokensOf body ++ lineTokens ("\x7d" ++ tail)

/-- the tokens of blocks that matter -/
def tokensOf : List Block → List Token
  | [] => []
  | b :: rest => b.tokens ++ tokensOf rest

end

/-- a line that is a statement or has only trivia in it -/
def soundLine (text : String) : Bool :=
  endsWell (charsOf text) && ((lineTokens text).isEmpty || isStatement (lineTokens text))

/-- a line around a block -/
def soundEdge (text : String) : Bool := endsWell (charsOf text) && isStatement (lineTokens text)

theorem stands_lineTokens {text : String} : ∀ t ∈ lineTokens text, Stands t [] :=
  fun _ ht => stands_of_mem_lex (mem_significant.1 ht).1

theorem statement_of_soundLine {text : String} (h : soundLine text = true) :
    lineTokens text = [] ∨ Statement (lineTokens text) := by
  simp only [soundLine, Bool.and_eq_true, Bool.or_eq_true, List.isEmpty_iff] at h
  exact h.2.imp_right (isStatement_iff stands_lineTokens).1

theorem statement_of_soundEdge {text : String} (h : soundEdge text = true) :
    Statement (lineTokens text) := by
  simp only [soundEdge, Bool.and_eq_true] at h
  exact (isStatement_iff stands_lineTokens).1 h.2

mutual

def Block.sound : Block → Bool
  | .line text => soundLine text
  | .blank => true
  | .nest head body tail => soundEdge (head ++ " \x7b") && sound body && soundEdge ("\x7d" ++ tail)

def sound : List Block → Bool
  | [] => true
  | b :: rest => b.sound && sound rest

end

theorem tokensOf_append (bs cs : List Block) :
    tokensOf (bs ++ cs) = tokensOf bs ++ tokensOf cs := by
  induction bs with
  | nil => rfl
  | cons b bs ih => rw [List.cons_append, tokensOf, tokensOf, ih, List.append_assoc]

theorem sound_append (bs cs : List Block) : sound (bs ++ cs) = (sound bs && sound cs) := by
  induction bs with
  | nil => rfl
  | cons b bs ih => rw [List.cons_append, sound, sound, ih, Bool.and_assoc]

theorem writeAll_append (depth : Nat) (bs cs : List Block) :
    writeAll depth (bs ++ cs) = writeAll depth bs ++ writeAll depth cs := by
  induction bs with
  | nil => rfl
  | cons b bs ih => rw [List.cons_append, writeAll, writeAll, ih, List.append_assoc]

mutual

theorem significant_write : ∀ b : Block, b.sound = true → ∀ depth rest,
    significant (lex (b.write depth ++ rest)) = b.tokens ++ significant (lex rest)
  | .line text, h, depth, rest => by
    simp only [Block.sound, soundLine, charsOf_eq, Bool.and_eq_true] at h
    rw [Block.tokens, lineTokens, charsOf_eq]
    exact significant_lex_line h.1 depth rest
  | .blank, _, depth, rest => by
    have hblank : isBlank '\n' = true := by decide
    exact significant_lex_blank hblank rest
  | .nest head body tail, h, depth, rest => by
    simp only [Block.sound, soundEdge, charsOf_eq, Bool.and_eq_true] at h
    have hhead := fun rest => significant_lex_line h.1.1.1 depth rest
    have htail := significant_lex_line h.2.1 depth rest
    rw [Block.write, Block.tokens, List.append_assoc, List.append_assoc, indent, hhead,
      significant_writeAll body h.1.2, indent, htail]
    simp only [lineTokens, charsOf_eq, List.append_assoc]

/-- **The tokens of written blocks** are those of their lines. -/
theorem significant_writeAll : ∀ bs : List Block, sound bs = true → ∀ depth rest,
    significant (lex (writeAll depth bs ++ rest)) = tokensOf bs ++ significant (lex rest)
  | [], _, _, _ => rfl
  | b :: bs, h, depth, rest => by
    simp only [sound, Bool.and_eq_true] at h
    rw [writeAll, tokensOf, List.append_assoc, List.append_assoc, significant_write b h.1,
      significant_writeAll bs h.2]

end

theorem statement_append {ts us : List Token} (h : ts = [] ∨ Statement ts)
    (h' : us = [] ∨ Statement us) : ts ++ us = [] ∨ Statement (ts ++ us) := by
  rcases h with rfl | h
  · exact h'
  · rcases h' with rfl | h'
    · rw [List.append_nil]
      exact Or.inr h
    · exact Or.inr (h.append h')

mutual

theorem statement_tokens : ∀ b : Block, b.sound = true → b.tokens = [] ∨ Statement b.tokens
  | .line _, h => statement_of_soundLine h
  | .blank, _ => Or.inl rfl
  | .nest head body tail, h => by
    simp only [Block.sound, Bool.and_eq_true] at h
    exact statement_append
      (statement_append (Or.inr (statement_of_soundEdge h.1.1)) (statement_tokensOf body h.1.2))
      (Or.inr (statement_of_soundEdge h.2))

theorem statement_tokensOf : ∀ bs : List Block, sound bs = true →
    tokensOf bs = [] ∨ Statement (tokensOf bs)
  | [], _ => Or.inl rfl
  | b :: bs, h => by
    simp only [sound, Bool.and_eq_true] at h
    exact statement_append (statement_tokens b h.1) (statement_tokensOf bs h.2)

end

end EffectFusion.Template
