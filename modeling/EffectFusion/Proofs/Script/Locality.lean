import EffectFusion.Proofs.Script.Settled

/-!
# Tokens and their neighbours

Which tokens a script has is settled between neighbours.  Every token of a script is read on its own,
and two that stand side by side are read as these two when nothing else is there (`lex_local`).  The
other way round, tokens that are read on their own are read back from their text if any two
neighbours glue cleanly (`glued_read_back`).  An operator may take up to four characters, which is
more than two neighbours may have, but then it starts with a shorter one that takes the first two of
them.  Only three points are an operator while two are not, so points in a row are left out there.

* `gluesCleanly_lex`     neighbours in a script glue cleanly;
* `lineBreak_of_comment` what may stand behind a line comment;
* `lex_local`            what each token of a script is like, and each two neighbours;
* `glued_read_back`      and that this is enough to read a list of tokens back.
-/

namespace EffectFusion.Script

open Text

/-! ### From the script to its neighbours -/

theorem length_le_length_render {ts : List Token} (h : ∀ t ∈ ts, t.text ≠ []) :
    ts.length ≤ (render ts).length := by
  induction ts with
  | nil => exact Nat.le_refl 0
  | cons t ts ih =>
    have ih := ih (fun u hu => h u (List.mem_cons_of_mem t hu))
    have ht := List.length_pos_iff.2 (h t List.mem_cons_self)
    rw [render_cons, List.length_append, List.length_cons]
    omega

theorem gluesCleanly_lex (s : List Char) :
    (lex s).IsChain (fun a b => gluesCleanly a b = true) :=
  (isChain_lex s).imp_of_mem_imp (fun a b _ hb hab =>
    (gluesCleanly_iff a b).2 ⟨hab, stands_of_mem_lex hb⟩)

theorem lineBreak_of_comment {a b : Token} (h : Separable a b) (hb : Stands b [])
    (hk : a.kind = .lineComment) : b.isWhitespace = true ∧ b.text.head? = some '\n' := by
  have hline := h.line hk
  refine ⟨?_, hline⟩
  obtain ⟨k, c, u, rfl⟩ := hb.exists_cons
  obtain rfl : c = '\n' := Option.some.inj hline
  by_contra hw
  have hblank := not_blank_head hb (by simpa [Token.isWhitespace] using hw)
  exact absurd hblank (by decide)

/-- **Reading is lossless and local.**  There are no more tokens than characters, and the texts of
the tokens make up the script.  Each token has a text and is read on its own; two neighbours are
read as these two, are not both white space, and behind a line comment the line ends. -/
theorem lex_local (s : List Char) :
    (lex s).length ≤ s.length ∧ render (lex s) = s ∧
      (∀ t ∈ lex s, t.text ≠ [] ∧ lex t.text = [t]) ∧
      (lex s).IsChain (fun a b => gluesCleanly a b = true ∧
        ¬ (a.isWhitespace = true ∧ b.isWhitespace = true) ∧
        (a.kind = .lineComment → b.isWhitespace = true ∧ b.text.head? = some '\n')) := by
  have hstands : ∀ t ∈ lex s, Stands t [] := fun t ht => stands_of_mem_lex ht
  refine ⟨?_, render_lex s, fun t ht => ⟨(hstands t ht).text_ne_nil, (stands_nil_iff t).1 (hstands t ht)⟩,
    ?_⟩
  · have hlen := length_le_length_render (fun t ht => (hstands t ht).text_ne_nil)
    rwa [render_lex] at hlen
  · refine (isChain_and (gluesCleanly_lex s) (separable_lex s)).imp_of_mem_imp
      (fun a b _ hb hab => ⟨hab.1, hab.2.white, lineBreak_of_comment hab.2 (hstands b hb)⟩)

/-! ### From the neighbours to the script -/

section Glued

variable {ts : List Token}

theorem isChain_fits_of_glued (hg : ts.IsChain (fun a b => gluesCleanly a b = true))
    (hp : ts.IsChain NoPoints) : ts.IsChain Fits :=
  (isChain_and hg hp).imp (fun a b hab => ⟨((gluesCleanly_iff a b).1 hab.1).1, hab.2⟩)

theorem clean_of_significant {t : Token} (hs : Stands t []) (ht : t.isTrivia = false)
    (hl : t.isLiteral = true → t.isClosed = true) : Clean t :=
  clean_of_closed hs hl (isComment_of_not_trivia ht)

theorem filter_respaced_of_significant (h : ∀ t ∈ ts, t.isTrivia = false) :
    (respaced ts).filter (fun t => !t.isWhitespace) = ts := by
  rw [filter_respaced (by decide)]
  refine List.filter_eq_self.2 (fun t ht => ?_)
  rw [isWhitespace_of_not_trivia (h t ht), Bool.not_false]

end Glued

/-- **Neighbours are enough.**  Tokens that are read on their own are read back from their text when
all neighbours glue cleanly and no two of them are points.  Without white space and comments among
them, and with closed literals, they need not glue: with the spaces that are put between those that
do not, they are read back as well. -/
theorem glued_read_back :
    (∀ ts : List Token, (∀ t ∈ ts, lex t.text = [t]) →
        ts.IsChain (fun a b => gluesCleanly a b = true) →
        ts.IsChain (fun a b => ¬ (a.isMark "." = true ∧ b.isMark "." = true)) →
        lex (render ts) = ts) ∧
      ∀ ts : List Token, (∀ t ∈ ts, lex t.text = [t]) → (∀ t ∈ ts, t.isTrivia = false) →
        (∀ t ∈ ts, t.isLiteral = true → t.isClosed = true) →
        ts.IsChain (fun a b => ¬ (a.isMark "." = true ∧ b.isMark "." = true)) →
        lex (render (respaced ts)) = respaced ts ∧
          (lex (render (respaced ts))).filter (fun t => !t.isWhitespace) = ts := by
  have hstands : ∀ {ts : List Token}, (∀ t ∈ ts, lex t.text = [t]) → ∀ t ∈ ts, Stands t [] :=
    fun h t ht => (stands_nil_iff t).2 (h t ht)
  constructor
  · intro ts halone hglue hpoints
    have hs := hstands halone
    exact lex_render_of_fits hs
      (isChain_fits_of_glued hglue (isChain_noPoints_of_marks hs hpoints))
  · intro ts halone htrivia hclosed hpoints
    have hs := hstands halone
    have hsep : ts.IsChain Separable := hpoints.imp_of_mem_imp (fun a b ha _ _ =>
      separable_of_clean (clean_of_significant (hs a ha) (htrivia a ha) (hclosed a ha))
        (fun hboth => by simp [isWhitespace_of_not_trivia (htrivia a ha)] at hboth))
    have hread := lex_render_respaced hs hsep (isChain_noPoints_of_marks hs hpoints)
    exact ⟨hread, by rw [hread, filter_respaced_of_significant htrivia]⟩

/-- three points before a fourth, which is followed by one that belongs to a number; an open
template at the end -/
def pointed : List Token :=
  [.name "né", .mark ">>=", .mark "...", .mark ".", ⟨.number, ".5e-3".toList⟩, .space,
    ⟨.blockComment, "/*/ */".toList⟩, .mark "?", ⟨.templateLiteral, "\x60 //".toList⟩]

/-- hardly any two of these glue -/
def crowded : List Token :=
  [.mark "+", .mark "++", .mark "?", ⟨.number, ".5".toList⟩, .mark ">", .mark ">=", .mark "/",
    .mark "/", .mark "*", ⟨.number, "1e".toList⟩, .mark "-", ⟨.stringLiteral, "'a\\'b'".toList⟩]

theorem glued_read_back_pointed_crowded :
    (∀ t ∈ pointed, lex t.text = [t]) ∧
      pointed.IsChain (fun a b => gluesCleanly a b = true) ∧
      pointed.IsChain (fun a b => ¬ (a.isMark "." = true ∧ b.isMark "." = true)) ∧
      lex (render pointed) = pointed ∧
      (∀ t ∈ crowded, lex t.text = [t]) ∧ (∀ t ∈ crowded, t.isTrivia = false) ∧
      (∀ t ∈ crowded, t.isLiteral = true → t.isClosed = true) ∧
      crowded.IsChain (fun a b => ¬ (a.isMark "." = true ∧ b.isMark "." = true)) ∧
      lex (render (respaced crowded)) = respaced crowded ∧
      (lex (render (respaced crowded))).filter (fun t => !t.isWhitespace) = crowded := by
  have hp : (∀ t ∈ pointed, lex t.text = [t]) ∧
      pointed.IsChain (fun a b => gluesCleanly a b = true) ∧
      pointed.IsChain (fun a b => ¬ (a.isMark "." = true ∧ b.isMark "." = true)) := by decide +kernel
  have hc : (∀ t ∈ crowded, lex t.text = [t]) ∧ (∀ t ∈ crowded, t.isTrivia = false) ∧
      (∀ t ∈ crowded, t.isLiteral = true → t.isClosed = true) ∧
      crowded.IsChain (fun a b => ¬ (a.isMark "." = true ∧ b.isMark "." = true)) := by decide +kernel
  obtain ⟨hp1, hp2, hp3⟩ := hp
  obtain ⟨hc1, hc2, hc3, hc4⟩ := hc
  exact ⟨hp1, hp2, hp3, glued_read_back.1 pointed hp1 hp2 hp3, hc1, hc2, hc3, hc4,
    glued_read_back.2 crowded hc1 hc2 hc3 hc4⟩

-- any two of three points glue, but the three are one operator
example : gluesCleanly (.mark ".") (.mark ".") = true ∧
    lex (render [.mark ".", .mark ".", .mark "."]) = [.mark "..."] := by decide +kernel

end EffectFusion.Script
