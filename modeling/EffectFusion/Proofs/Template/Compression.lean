import EffectFusion.Proofs.Template.Scripts

/-!
# Compression of generated scripts

Compression changes the tokens of a generated script in the ways that `edited` lists and in no
other, whatever white space and comments stand between them.  No two words become one.

* `compress_edits`   the tokens of a compressed script.
-/

namespace EffectFusion.Template

open Text Number Script

theorem generate_eq_ok {f : FusedEssence Float}
    (h : ∀ n ∈ numbers f, Scalar.isFinite n.2 = true) :
    generate f = .ok (writeAll 0 (script f)) := by
  have hnone : firstNotFinite? f = none := by
    rw [firstNotFinite?, Option.map_eq_none_iff, List.find?_eq_none]
    intro n hn hnot
    rw [h n hn] at hnot
    cases hnot
  rw [generate, hnone]

theorem eq_of_generate {f : FusedEssence Float} {g : List Char} (h : generate f = .ok g) :
    g = writeAll 0 (script f) := by
  unfold generate at h
  split at h
  · cases h
  · exact (Except.ok.inj h).symm

theorem not_short {f : FusedEssence Float} {t : Token} (ht : t ∈ lex (writeAll 0 (script f)))
    (hk : t.kind = .word) : t.isNameOf (abbreviations.map (·.2)) = false := by
  have hmem : t ∈ firstTokens f ++ lastTokens := by
    rw [← significant_script]
    exact mem_significant.2 ⟨ht, by simp [Token.isTrivia, Token.isWhitespace, Token.isComment, hk]⟩
  have hknown := (statement_script f).known t hmem
  simp only [isKnown, Bool.and_eq_true, Bool.not_eq_true'] at hknown
  exact hknown.2

/-- **Compression of a generated script.**  A script `t` with the tokens of the generated one may
have any white space and any comments.  Its code has the same tokens with the phrases and words
replaced, and different words of the generated script stay different. -/
theorem compress_edits (f : FusedEssence Float)
    (hfinite : ∀ n ∈ numbers f, Scalar.isFinite n.2 = true) :
    ∃ g, generate f = .ok g ∧
      (∀ t, significant (lex t) = significant (lex g) →
        ∃ code stats, compress t = .ok (code, stats) ∧
          significant (lex code) = edited (significant (lex g))) ∧
      ∀ a ∈ lex g, ∀ b ∈ lex g, a.kind = .word → b.kind = .word → renamed a = renamed b → a = b := by
  refine ⟨_, generate_eq_ok hfinite, fun t ht => ?_, fun a ha b hb hak hbk hab => ?_⟩
  · exact ⟨_, _, compress_eq_ok t, (refines_script f ht).1⟩
  · exact renamed_injective (not_short ha hak) (not_short hb hbk) hab

/-- an essence with names that look like script text -/
def sample : FusedEssence Float where
  essence := {
    core := {
      animation := .particleSystem
      movements := TagSet.ofList [.random]
      visual := Keyed.ofList [("glow; this.oE = true", true), ("// \"line\"\n", false)]
      mathematics := Keyed.empty }
    dna := ⟨0.5, 0.25, 1.0, .luminous, .calming⟩
    technical := ⟨⟨60.0, .low, .medium⟩, TagSet.ofList [.canvas2d], 0.75⟩
    fusion := ⟨0.5, 0.125⟩ }
  strategy := .balanced
  level := 100
  intensity := 0.5
  enhanced := Keyed.ofList [("/* id */", ⟨.creative, 0.25, 0.5, 0.75⟩)]
  integrations := Keyed.ofList [
    ("/* id */", ⟨0, .performance, .creative, 0.5, Keyed.empty, Keyed.ofList [("`", 0.5)]⟩)]
  evolution := ⟨0.5, 0.5, 0.25, 0.75, 1.0⟩

/-- the script of the sample with a comment before it -/
theorem compress_edits_sample :
    ∃ g, generate sample = .ok g ∧
      ∃ code stats, compress ("/* copy */\n".toList ++ g) = .ok (code, stats) ∧
        significant (lex code) = edited (significant (lex g)) := by
  have hfinite : ∀ n ∈ numbers sample, Scalar.isFinite n.2 = true := by decide
  obtain ⟨g, hg, hcompress, -⟩ := compress_edits sample hfinite
  refine ⟨g, hg, hcompress _ ?_⟩
  have hcomment : ("/* copy */\n".toList : List Char) =
      '/' :: '*' :: (" copy ".toList ++ ['*', '/']) ++ ['\n'] := by decide
  rw [hcomment, List.append_assoc, significant_comment (by decide), List.singleton_append,
    significant_lex_blank (by decide)]

end EffectFusion.Template
