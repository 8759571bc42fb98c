import EffectFusion.Proofs.Template.Lines

/-!
# The tokens of generated scripts

A generated script starts with a comment that holds no slash, so it ends where it should.  The
tokens after it are orderly, and compression edits them as `edited` says.

* `significant_header`   the comment has no token that matters;
* `significant_script`   the tokens of a script;
* `statement_script`     they are orderly;
* `refines_script`       what compression makes of them.
-/

namespace EffectFusion.Template

open Text Number Script

/-! ### The comment at the start -/

theorem closesBlock_of_no_slash {u : List Char} (h : ∀ c ∈ u, c ≠ '/') :
    closesBlock (u ++ ['*', '/']) = true := by
  induction u with
  | nil => decide
  | cons c u ih =>
    have ih := ih (fun d hd => h d (List.mem_cons_of_mem c hd))
    have hnext : (u ++ ['*', '/']).head? ≠ some '/' := by
      cases u with
      | nil => decide
      | cons d u =>
        intro he
        exact h d (by simp) (Option.some.inj he)
    rw [List.cons_append, closesBlock, if_neg (fun hc => hnext hc.2), ih]

theorem lex_comment {u : List Char} (h : ∀ c ∈ u, c ≠ '/') (rest : List Char) :
    lex ('/' :: '*' :: (u ++ ['*', '/']) ++ rest) =
      ⟨.blockComment, '/' :: '*' :: (u ++ ['*', '/'])⟩ :: lex rest := by
  have hstands : Stands ⟨.blockComment, '/' :: '*' :: (u ++ ['*', '/'])⟩ rest := by
    have hclosed := spanBlock_of_closes (closesBlock_of_no_slash h) rest
    refine (stands_iff _ _ _ _).2 ⟨kindAt_slash_star, ?_⟩
    simp only [spanAt, List.cons_append, List.tail_cons, hclosed]
  exact hstands

theorem significant_comment {u : List Char} (h : ∀ c ∈ u, c ≠ '/') (rest : List Char) :
    significant (lex ('/' :: '*' :: (u ++ ['*', '/']) ++ rest)) = significant (lex rest) := by
  have htrivia : (Token.mk .blockComment ('/' :: '*' :: (u ++ ['*', '/']))).isTrivia = true := rfl
  rw [lex_comment h, significant_cons, if_pos htrivia]

theorem no_slash_tag :
    (∀ s : Strategy, ∀ c ∈ (Tag.name s).toList, c ≠ '/') ∧
      ∀ a : AnimationType, ∀ c ∈ (Tag.name a).toList, c ≠ '/' := by
  constructor
  · intro s
    cases s <;> decide
  · intro a
    cases a <;> decide

theorem no_slash_number (n : Nat) : ∀ c ∈ (toString n).toList, c ≠ '/' := by
  have hdigits : (toString n).toList = digitsOf n := by
    show (Nat.repr n).toList = _
    rw [Nat.repr, String.toList_ofList]
    rfl
  rintro c hc rfl
  rw [hdigits] at hc
  exact absurd (isDigit_digitsOf n _ hc) (by decide)

/-- the lines of the comment between its marks -/
def headerText (f : FusedEssence Float) : List Char :=
  '*' :: '\n' :: (" * Fused visual effect.".toList ++ '\n' ::
    ((" * Strategy: " ++ Tag.name f.strategy ++ ", reconstruction level "
      ++ toString f.level.toNat ++ ", " ++ toString f.integrations.size
      ++ " integrated module(s).").toList ++ '\n' ::
    ((" * Source behaviour: " ++ Tag.name f.essence.core.animation ++ ".").toList ++ ['\n', ' '])))

theorem writeAll_header (f : FusedEssence Float) :
    writeAll 0 (header f) = '/' :: '*' :: (headerText f ++ ['*', '/']) ++ ['\n'] := by
  simp only [header, headerText, lines, List.map, writeAll, Block.write, indent]
  generalize (" * Strategy: " ++ Tag.name f.strategy ++ ", reconstruction level "
    ++ toString f.level.toNat ++ ", " ++ toString f.integrations.size
    ++ " integrated module(s).").toList = strategy
  generalize (" * Source behaviour: " ++ Tag.name f.essence.core.animation ++ ".").toList = source
  simp

theorem no_slash_header (f : FusedEssence Float) : ∀ c ∈ headerText f, c ≠ '/' := by
  have hfixed : ∀ s ∈ [" * Fused visual effect.", " * Strategy: ", ", reconstruction level ", ", ",
      " integrated module(s).", " * Source behaviour: ", "."], '/' ∉ s.toList := by decide
  have htag := no_slash_tag
  have hnumber := no_slash_number
  simp only [List.mem_cons, List.not_mem_nil, or_false, forall_eq_or_imp, forall_eq] at hfixed
  obtain ⟨h1, h2, h3, h4, h5, h6, h7⟩ := hfixed
  have hstrategy : '/' ∉ (Tag.name f.strategy).toList := fun h => htag.1 _ _ h rfl
  have hsource : '/' ∉ (Tag.name f.essence.core.animation).toList := fun h => htag.2 _ _ h rfl
  have hlevel : '/' ∉ (toString f.level.toNat).toList := fun h => hnumber _ _ h rfl
  have hsize : '/' ∉ (toString f.integrations.size).toList := fun h => hnumber _ _ h rfl
  rintro c hc rfl
  simp only [headerText, String.toList_append, List.mem_cons, List.mem_append, List.not_mem_nil,
    or_false, h1, h2, h3, h4, h5, h6, h7, hstrategy, hsource, hlevel, hsize, false_or] at hc
  revert hc
  decide

theorem significant_header (f : FusedEssence Float) (rest : List Char) :
    significant (lex (writeAll 0 (header f) ++ rest)) = significant (lex rest) := by
  rw [writeAll_header, List.append_assoc, significant_comment (no_slash_header f),
    List.singleton_append, significant_lex_blank (by decide)]

/-! ### The tokens of a script -/

/-- the tokens before the method `start` -/
def firstTokens (f : FusedEssence Float) : List Token :=
  lineTokens ("class FusedEffect" ++ " \x7b") ++ tokensOf (firstMethods f)

theorem edge_class : calm [.nest "class FusedEffect" [] ""] = true := by decide +kernel

theorem quiet_firstTokens (f : FusedEssence Float) : ∀ t ∈ firstTokens f, t.isQuiet = true := by
  have hedge := ((calm_iff _).1 edge_class).2
  have hmethods := ((calm_iff _).1 (calm_firstMethods f)).2
  intro t ht
  rcases List.mem_append.1 ht with ht | ht
  · refine hedge t ?_
    simp only [tokensOf, Block.tokens, List.append_nil]
    exact List.mem_append_left _ ht
  · exact hmethods t ht

theorem getLast?_firstTokens (f : FusedEssence Float) :
    (firstTokens f).getLast? = some (.mark "\x7d") := by
  rw [firstTokens, firstMethods, middleMethods, tokensOf_append, tokensOf_append, renderMethod,
    tokensOf_method, lineTokens_close, ← List.append_assoc, ← List.append_assoc,
    ← List.append_assoc, List.getLast?_concat]

/-- what a script consists of after its comment -/
def classBlocks (f : FusedEssence Float) : List Block :=
  [.nest "class FusedEffect" (firstMethods f ++ lastMethods) "", .blank] ++ exportBlocks

theorem script_eq (f : FusedEssence Float) : script f = header f ++ classBlocks f := by
  simp only [script, classBlocks, firstMethods, middleMethods, lastMethods, exportBlocks,
    List.append_assoc]
  rfl

theorem sound_classBlocks (f : FusedEssence Float) : sound (classBlocks f) = true := by
  have hedge := ((calm_iff _).1 edge_class).1
  have hfirst := ((calm_iff _).1 (calm_firstMethods f)).1
  obtain ⟨hlast, hexport⟩ := sound_lastMethods
  simp only [sound, Block.sound, Bool.and_true] at hedge
  simpa only [classBlocks, sound_append, sound, Block.sound, hfirst, hlast, hexport, Bool.and_true]
    using hedge

theorem tokensOf_classBlocks (f : FusedEssence Float) :
    tokensOf (classBlocks f) = firstTokens f ++ lastTokens := by
  simp only [classBlocks, tokensOf_append, tokensOf, Block.tokens, List.append_nil, firstTokens,
    lastTokens, List.append_assoc]

/-- **The tokens of a script.** -/
theorem significant_script (f : FusedEssence Float) :
    significant (lex (writeAll 0 (script f))) = firstTokens f ++ lastTokens := by
  have hblocks := significant_writeAll (classBlocks f) (sound_classBlocks f) 0 []
  rw [List.append_nil, lex_nil, significant_nil, List.append_nil, tokensOf_classBlocks] at hblocks
  rw [script_eq, writeAll_append, significant_header, hblocks]

theorem statement_script (f : FusedEssence Float) : Statement (firstTokens f ++ lastTokens) := by
  have h := statement_tokensOf (classBlocks f) (sound_classBlocks f)
  rw [tokensOf_classBlocks] at h
  refine h.resolve_left (fun hnil => ?_)
  have hlast := getLast?_firstTokens f
  rw [(List.append_eq_nil_iff.1 hnil).1] at hlast
  cases hlast

/-! ### Compression of a script -/

theorem rewritten_script (f : FusedEssence Float) :
    rewritten (firstTokens f ++ lastTokens) = edited (firstTokens f ++ lastTokens) := by
  obtain ⟨hlast, hstart, -⟩ := edited_lastTokens
  have htrivia : ∀ t ∈ firstTokens f ++ lastTokens, t.isTrivia = false := by
    intro t ht
    rw [← significant_script] at ht
    exact (mem_significant.1 ht).2
  rw [rewritten_append htrivia (statement_script f).orderly (quiet_firstTokens f)
    (getLast?_firstTokens f), hlast, edited_append (quiet_firstTokens f) (getLast?_firstTokens f)]
  intro n hn
  have hloose : loose (.mark "\x7d") (.name "start") = true := by decide
  rw [← hlast, head?_elided, List.reverse_nil, List.nil_append] at hstart
  rw [hstart] at hn
  obtain rfl := Option.some.inj hn
  exact (loose_iff _ _).1 hloose

/-- **Compression of a script** with the tokens of a generated one, whatever trivia it has. -/
theorem refines_script (f : FusedEssence Float) {s : List Char}
    (hs : significant (lex s) = significant (lex (writeAll 0 (script f)))) :
    significant (lex (throughAll passes s)) = edited (significant (lex (writeAll 0 (script f)))) ∧
      Laid Kept none (lex (throughAll passes s)) ∧
      ∀ t ∈ lex (throughAll passes s), t.isComment = false := by
  rw [significant_script] at hs ⊢
  have hstatement := statement_script f
  have hclosed : ∀ t ∈ firstTokens f ++ lastTokens, t.isLiteral = true → t.isClosed = true := by
    intro t ht _
    have hknown := hstatement.known t ht
    rw [isKnown, Bool.and_eq_true] at hknown
    exact hknown.1
  obtain ⟨htokens, hlaid⟩ := refines hs hclosed hstatement.orderly
  exact ⟨htokens.trans (rewritten_script f), hlaid⟩

end EffectFusion.Template
