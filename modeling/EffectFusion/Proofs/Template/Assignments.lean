import EffectFusion.Proofs.Json.Compressed
import EffectFusion.Proofs.Template.Blocks

/-!
# Lines that assign data

A line of the constructor assigns a value to a member.  Whatever the value is, the line is read as
the member, the tokens of the value and a semicolon.

* `assigned_tokens`, `assigned_plain`   the tokens of data and of a number;
* `calm_assignment`, `lineTokens_assignment`   the tokens of the line.
-/

namespace EffectFusion.Template

open Text Number Script

/-! ### Calm blocks -/

/-- sound blocks in which no phrase stands -/
def calm (bs : List Block) : Bool := sound bs && (tokensOf bs).all Token.isQuiet

theorem calm_iff (bs : List Block) :
    calm bs = true ↔ sound bs = true ∧ ∀ t ∈ tokensOf bs, t.isQuiet = true := by
  rw [calm, Bool.and_eq_true, List.all_eq_true]

theorem calm_append {bs cs : List Block} (h : calm bs = true) (h' : calm cs = true) :
    calm (bs ++ cs) = true := by
  obtain ⟨h1, h2⟩ := (calm_iff bs).1 h
  obtain ⟨h3, h4⟩ := (calm_iff cs).1 h'
  refine (calm_iff _).2 ⟨?_, fun t ht => ?_⟩
  · rw [sound_append, h1, h3]
    rfl
  · rw [tokensOf_append] at ht
    exact (List.mem_append.1 ht).elim (h2 t) (h4 t)

theorem tokensOf_method (head : String) (body : List Block) :
    tokensOf (method head body) =
      lineTokens (head ++ " \x7b") ++ tokensOf body ++ lineTokens ("\x7d" ++ "") := by
  simp [method, tokensOf, Block.tokens]

theorem calm_method {head : String} {body : List Block} (hhead : calm (method head []) = true)
    (hbody : calm body = true) : calm (method head body) = true := by
  obtain ⟨h1, h2⟩ := (calm_iff _).1 hhead
  obtain ⟨h3, h4⟩ := (calm_iff _).1 hbody
  rw [tokensOf_method, tokensOf, List.append_nil] at h2
  simp only [method, sound, Block.sound, Bool.and_true] at h1
  refine (calm_iff _).2 ⟨?_, fun t ht => ?_⟩
  · simpa only [method, sound, Block.sound, Bool.and_true, h3] using h1
  · rw [tokensOf_method, List.append_assoc] at ht
    rcases List.mem_append.1 ht with ht | ht
    · exact h2 t (List.mem_append_left _ ht)
    rcases List.mem_append.1 ht with ht | ht
    · exact h4 t ht
    · exact h2 t (List.mem_append_right _ ht)

/-- members to which a compressed script assigns structured data -/
def shortMembers : List String := ["oE", "eP", "mI", "eV"]

/-- calm blocks that assign to none of the `shortMembers` when they are compressed -/
structure Bare (bs : List Block) : Prop where
  isCalm : calm bs = true
  without : ∀ m ∈ shortMembers, Without m ((tokensOf bs).flatMap written)

instance (bs : List Block) : Decidable (Bare bs) :=
  decidable_of_iff (calm bs = true ∧ ∀ m ∈ shortMembers, Without m ((tokensOf bs).flatMap written))
    ⟨fun h => ⟨h.1, h.2⟩, fun h => ⟨h.isCalm, h.without⟩⟩

theorem Bare.append {bs cs : List Block} (h : Bare bs) (h' : Bare cs) : Bare (bs ++ cs) := by
  refine ⟨calm_append h.isCalm h'.isCalm, fun m hm => ?_⟩
  rw [tokensOf_append, List.flatMap_append]
  exact (h.without m hm).append (h'.without m hm)

/-- the last line of a block -/
theorem lineTokens_close : lineTokens ("\x7d" ++ "") = [.mark "\x7d"] := by decide +kernel

theorem bare_method {head : String} {body : List Block} (hhead : Bare (method head []))
    (hbody : Bare body) : Bare (method head body) := by
  refine ⟨calm_method hhead.isCalm hbody.isCalm, fun m hm => ?_⟩
  have hopen := hhead.without m hm
  have hclose : ∀ m, Without m (([Token.mark "\x7d"] : List Token).flatMap written) :=
    fun m => ⟨List.isChain_singleton _, by decide⟩
  rw [tokensOf_method, tokensOf, List.append_nil, List.flatMap_append] at hopen
  rw [tokensOf_method, lineTokens_close, List.flatMap_append, List.flatMap_append]
  exact (hopen.left.append (hbody.without m hm)).append (hclose m)

/-! ### Values -/

/-- a token of a value that is assigned -/
def Ordinary (t : Token) : Prop := Json.Occurs t ∨ t = .name "NaN" ∨ t = .name "inf"

theorem clean_ordinary {t : Token} (h : Ordinary t) : Clean t := by
  have hwords : ∀ w ∈ ["NaN", "inf"], lex (Token.name w).text = [.name w] := by decide +kernel
  have hword : ∀ w ∈ ["NaN", "inf"], Clean (.name w) :=
    fun w hw => clean_of_stands ((stands_nil_iff _).2 (hwords w hw)) rfl rfl
  rcases h with h | rfl | rfl
  · exact Json.clean_occurs h
  · exact hword _ (by decide)
  · exact hword _ (by decide)

theorem ordinary_traits {t : Token} (h : Ordinary t) :
    t.isTrivia = false ∧ t.isQuiet = true ∧
      t.isNameOf (abbreviations.map (·.2)) = false := by
  have hother : ∀ k u, k = .stringLiteral ∨ k = .number → (Token.mk k u).isTrivia = false ∧
      (Token.mk k u).isQuiet = true ∧
        (Token.mk k u).isNameOf (abbreviations.map (·.2)) = false := by
    intro k u hk
    have hmark : ∀ s, (Token.mk k u).isMark s = false := by
      intro s
      rcases hk with rfl | rfl <;> rfl
    have hname : ∀ s, (Token.mk k u).isName s = false := by
      intro s
      rcases hk with rfl | rfl <;> rfl
    refine ⟨?_, ?_, ?_⟩
    · rcases hk with rfl | rfl <;> rfl
    · simp [Token.isQuiet, Token.isMarkOf, hmark, hname]
    · simp [Token.isNameOf, hname]
  have hwords : ∀ w ∈ ["null", "true", "false", "NaN", "inf"], (Token.name w).isTrivia = false ∧
      (Token.name w).isQuiet = true ∧
        (Token.name w).isNameOf (abbreviations.map (·.2)) = false := by decide
  have hmarks : ∀ m ∈ Json.valueMarks, (Token.mark m).isTrivia = false ∧
      (Token.mark m).isQuiet = true ∧
        (Token.mark m).isNameOf (abbreviations.map (·.2)) = false := by decide
  rcases h with (ha | ⟨m, hm, rfl⟩) | rfl | rfl
  · cases ha with
    | text s => exact hother _ _ (Or.inl rfl)
    | number hu => exact hother _ _ (Or.inr rfl)
    | word hw => exact hwords _ (List.mem_append_left ["NaN", "inf"] hw)
  · exact hmarks m hm
  · exact hwords "NaN" (by decide)
  · exact hwords "inf" (by decide)

/-- tokens of a value that is assigned -/
structure Assigned (ts : List Token) : Prop where
  solid : (Token.mark "=" :: ts ++ [Token.mark ";"]).IsChain Json.Solid
  ordinary : ∀ t ∈ ts, Ordinary t

theorem assigned_of_whole {ts : List Token} (h : Json.Whole ts) (ho : ∀ t ∈ ts, Json.Occurs t) :
    Assigned ts := by
  obtain ⟨a, ha, hopens⟩ := h.opens
  obtain ⟨b, hb, hcloses⟩ := h.closes
  refine ⟨?_, fun t ht => Or.inl (ho t ht)⟩
  refine (h.solid.cons (fun t ht => ?_)).append (List.isChain_singleton _) (fun t ht u hu => ?_)
  · rw [Option.mem_def.1 ht] at ha
    rw [Option.some.inj ha]
    exact @Json.solid_opens "=" (by decide) _ hopens
  · obtain rfl : .mark ";" = u := Option.some.inj hu
    rw [List.getLast?_cons, hb] at ht
    obtain rfl : b = t := Option.some.inj ht
    exact Json.solid_closes (by decide) hcloses

theorem assigned_tokens (v : Json) : Assigned (Json.tokens v) :=
  assigned_of_whole (Json.solid_tokens v) (Json.occurs_tokens v)

theorem assigned_unbounded {ts : List Token}
    (h : ts ∈ [[Token.name "NaN"], [Token.mark "-", Token.name "inf"], [Token.name "inf"]]) :
    Assigned ts := by
  have hall : ∀ ts ∈ [[Token.name "NaN"], [Token.mark "-", Token.name "inf"], [Token.name "inf"]],
      (Token.mark "=" :: ts ++ [Token.mark ";"]).IsChain Json.Solid ∧
        ∀ t ∈ ts, t = Token.mark "-" ∨ t = Token.name "NaN" ∨ t = Token.name "inf" := by
    decide +kernel
  refine ⟨(hall ts h).1, fun t ht => ((hall ts h).2 t ht).imp_left ?_⟩
  rintro rfl
  exact Json.occurs_mark (by decide)

/-- a number of a script has the tokens of an assigned value, with no mark but its sign -/
theorem assigned_plain (x : Float) :
    ∃ ts, Script.render ts = (plain x).toList ∧ Assigned ts ∧
      ∀ t ∈ ts, t.kind = .punctuation → t = .mark "-" := by
  rcases plain_cases x with h | ⟨b, u, hu, he⟩
  · simp only [List.mem_cons, List.not_mem_nil, or_false] at h
    rcases h with h | h | h
    · exact ⟨[.name "NaN"], h.symm, assigned_unbounded (by simp), by decide⟩
    · exact ⟨[.mark "-", .name "inf"], h.symm, assigned_unbounded (by simp), by decide⟩
    · exact ⟨[.name "inf"], h.symm, assigned_unbounded (by simp), by decide⟩
  · rw [he]
    exact ⟨_, Json.render_numeralTokens _,
      assigned_of_whole (Json.whole_numeral hu) (Json.occurs_numeral hu),
      Json.mark_numeralTokens _⟩

/-! ### Lines -/

def dataMembers : List String :=
  ["originalEssence", "enhancedProperties", "moduleIntegrations", "evolution", "fusionIntensity"]

/-- the line that assigns a text to a member -/
def assignment (m text : String) : String := "this." ++ m ++ " = " ++ text ++ ";"

def assignmentTokens (m : String) (ts : List Token) : List Token :=
  [.name "this", .mark ".", .name m, .mark "="] ++ ts ++ [.mark ";"]

section

variable {m text : String} {ts : List Token}

theorem lex_assignment (hm : m ∈ dataMembers) (ht : Script.render ts = text.toList)
    (h : Assigned ts) :
    lex (assignment m text).toList =
      [.name "this", .mark ".", .name m, .space, .mark "=", .space] ++ (ts ++ [.mark ";"]) := by
  have hfixed : ∀ m ∈ dataMembers, ∀ t ∈ [Token.name "this", .mark ".", .name m, .space, .mark "=", .space],
      Stands t [] := by decide +kernel
  have hpairs : ∀ m ∈ dataMembers,
      [Token.name "this", .mark ".", .name m, .space, .mark "=", .space].IsChain (fun a b =>
        Stands a b.text ∧ ¬ (a.text = ['.'] ∧ b.text = ['.'])) := by decide +kernel
  have hclean : ∀ t ∈ ts ++ [.mark ";"], Clean t ∧ t.isTrivia = false := by
    have hsemicolon : lex (Token.mark ";").text = [.mark ";"] := by decide +kernel
    intro t ht
    rcases List.mem_append.1 ht with ht | ht
    · exact ⟨clean_ordinary (h.ordinary t ht), (ordinary_traits (h.ordinary t ht)).1⟩
    · rw [List.mem_singleton.1 ht]
      exact ⟨clean_of_stands ((stands_nil_iff _).2 hsemicolon) rfl rfl, rfl⟩
  have htext : (assignment m text).toList =
      Script.render ([.name "this", .mark ".", .name m, .space, .mark "=", .space] ++
        (ts ++ [.mark ";"])) := by
    rw [render_append, render_append, ht]
    simp [assignment, Script.render, Token.name, Token.mark, Token.space]
  rw [htext]
  refine lex_render_of_fits (fun t ht => ?_) ?_
  · rcases List.mem_append.1 ht with ht | ht
    · exact hfixed m hm t ht
    · exact (hclean t ht).1.stands
  · refine (hpairs m hm).append ?_ (fun a ha b hb => ?_)
    · refine (h.solid.tail).imp_of_mem_imp (fun a b ha hb hab => ?_)
      exact Json.fits_of_solid (hclean a ha).1.stands (hclean b hb).1.stands hab
    · obtain rfl : Token.space = a := Option.some.inj ha
      have hb := hclean b (List.mem_of_head? hb)
      exact fits_space_left hb.1.stands (isWhitespace_of_not_trivia hb.2) clean_space.stands rfl

theorem lineTokens_assignment (hm : m ∈ dataMembers) (ht : Script.render ts = text.toList)
    (h : Assigned ts) : lineTokens (assignment m text) = assignmentTokens m ts := by
  have hplain : significant (ts ++ [.mark ";"]) = ts ++ [.mark ";"] := by
    refine significant_of_forall (fun t ht => ?_)
    rcases List.mem_append.1 ht with ht | ht
    · exact (ordinary_traits (h.ordinary t ht)).1
    · rw [List.mem_singleton.1 ht]
      rfl
  rw [lineTokens, charsOf_eq, lex_assignment hm ht h, significant_append, hplain, assignmentTokens,
    List.append_assoc]
  rfl

theorem tokensOf_assignment (hm : m ∈ dataMembers) (ht : Script.render ts = text.toList)
    (h : Assigned ts) : tokensOf [.line (assignment m text)] = assignmentTokens m ts := by
  rw [← lineTokens_assignment hm ht h]
  exact List.append_nil _

theorem statement_assignment (hm : m ∈ dataMembers) (ht : Script.render ts = text.toList)
    (h : Assigned ts) : Statement (lineTokens (assignment m text)) := by
  have hfixed : ∀ m ∈ dataMembers, ([Token.name "this", .mark ".", .name m] ++ [Token.mark "="]).IsChain Orderly ∧
      ∀ t ∈ [Token.name "this", .mark ".", .name m, .mark "="], isKnown t = true := by decide +kernel
  obtain ⟨hchain, hknown⟩ := hfixed m hm
  have hstands : ∀ t ∈ lineTokens (assignment m text), Stands t [] := stands_lineTokens
  rw [lineTokens_assignment hm ht h] at hstands ⊢
  have hsplit : assignmentTokens m ts =
      [Token.name "this", .mark ".", .name m] ++ .mark "=" :: (ts ++ [.mark ";"]) := by
    rw [assignmentTokens, List.append_assoc]
    rfl
  refine ⟨rfl, ?_, hstands, ?_, fun t ht => ?_⟩
  · rw [assignmentTokens, List.getLast?_append]
    rfl
  · rw [hsplit]
    exact List.isChain_split.2 ⟨hchain, h.solid.imp (fun a b hab => hab.orderly)⟩
  · rw [assignmentTokens, List.append_assoc] at ht
    rcases List.mem_append.1 ht with ht | ht
    · exact hknown t ht
    rcases List.mem_append.1 ht with ht | ht
    · have htraits := ordinary_traits (h.ordinary t ht)
      rw [isKnown, (clean_ordinary (h.ordinary t ht)).closed, htraits.2.2]
      rfl
    · rw [List.mem_singleton.1 ht]
      decide

theorem calm_assignment (hm : m ∈ dataMembers) (ht : Script.render ts = text.toList)
    (h : Assigned ts) : calm [.line (assignment m text)] = true := by
  have hends : endsWell (assignment m text).toList = true := by
    have hlast : (lex (assignment m text).toList).getLast? = some (.mark ";") := by
      rw [lex_assignment hm ht h, List.getLast?_append, List.getLast?_concat]
      rfl
    have hsemicolon : decide (Stands (.mark ";") ['\n'] ∧ Token.mark ";" ≠ .mark ".") = true := by
      decide +kernel
    rw [endsWell, hlast]
    exact hsemicolon
  have hstatement := (isStatement_iff stands_lineTokens).2 (statement_assignment hm ht h)
  have htokens := tokensOf_assignment hm ht h
  refine (calm_iff _).2 ⟨?_, fun t ht => ?_⟩
  · simp only [sound, Block.sound, soundLine, charsOf_eq, hends, hstatement, Bool.or_true, Bool.and_true]
  · have hfixed : ∀ m ∈ dataMembers, ∀ t ∈ [Token.name "this", .mark ".", .name m, .mark "="],
        t.isQuiet = true := by decide
    rw [htokens, assignmentTokens, List.append_assoc] at ht
    rcases List.mem_append.1 ht with ht | ht
    · exact hfixed m hm t ht
    rcases List.mem_append.1 ht with ht | ht
    · exact (ordinary_traits (h.ordinary t ht)).2.1
    · rw [List.mem_singleton.1 ht]
      decide

end

/-! ### Compressed lines -/

/-- the tokens of a line that assigns, compressed; `m` is the short name of the member -/
def shortAssignment (m : String) (ts : List Token) : List Token :=
  assigning m ++ ts.flatMap written ++ [.mark ";"]

theorem written_assignmentTokens {m short : String} (hm : (m, short) ∈ abbreviations)
    (ts : List Token) : (assignmentTokens m ts).flatMap written = shortAssignment short ts := by
  have hfixed : ∀ a ∈ abbreviations,
      [Token.name "this", .mark ".", .name a.1, .mark "="].flatMap written = assigning a.2 := by decide
  rw [assignmentTokens, List.flatMap_append, List.flatMap_append, hfixed _ hm]
  rfl

theorem written_ordinary {t u : Token} (h : Ordinary t) (hu : u ∈ written t) {m : String}
    (hm : m ∈ shortMembers) : u ≠ .name m := by
  have hnull : ∀ m ∈ shortMembers, m ≠ "null" := by decide
  have hwords : ∀ m ∈ shortMembers, ∀ w ∈ ["NaN", "inf"], ∀ u ∈ written (.name w), u ≠ .name m := by
    decide
  rcases h with h | rfl | rfl
  · exact (Json.mem_written h hu).2 m (hnull m hm)
  · exact hwords m hm "NaN" (by decide) u hu
  · exact hwords m hm "inf" (by decide) u hu

theorem without_shortAssignment {m n : String} (hn : n ∈ shortMembers) (hne : m ≠ n) {ts : List Token}
    (h : Assigned ts) : Without n (shortAssignment m ts) := by
  have hthis : ∀ n ∈ shortMembers, n ≠ "this" := by decide
  refine without_assigning (hthis n hn) hne fun t ht => ?_
  obtain ⟨u, hu, ht⟩ := List.mem_flatMap.1 ht
  exact written_ordinary (h.ordinary u hu) ht hn

theorem joined_shortAssignment {m : String} (hm : m ∈ shortMembers) (v : Json) :
    (shortAssignment m (Json.tokens v)).IsChain (fun a b => ¬ Kept a b) := by
  have hfixed : ∀ m ∈ shortMembers,
      ([Token.name "this", .mark ".", .name m] ++ [Token.mark "="]).IsChain (fun a b => ¬ Kept a b) := by
    decide +kernel
  have hvalue : ((Token.mark "=" :: Json.tokens v ++ [Token.mark ";"]).flatMap written).IsChain
      (fun a b => ¬ Kept a b) := by
    refine Json.joined_written (assigned_tokens v).solid (fun t ht => ?_)
    rw [List.cons_append, List.mem_cons, List.mem_append] at ht
    rcases ht with rfl | ht | ht
    · exact Or.inr rfl
    · exact (Json.written_occurs (Json.occurs_tokens v t ht)).imp_right (·.1)
    · rw [List.mem_singleton.1 ht]
      exact Or.inr rfl
  have hsplit : shortAssignment m (Json.tokens v) = [Token.name "this", .mark ".", .name m] ++
      .mark "=" :: ((Json.tokens v).flatMap written ++ [.mark ";"]) := by
    simp [shortAssignment, assigning]
  have hsame : (Token.mark "=" :: Json.tokens v ++ [Token.mark ";"]).flatMap written =
      .mark "=" :: ((Json.tokens v).flatMap written ++ [.mark ";"]) := by
    rw [List.cons_append, List.flatMap_cons, List.flatMap_append]
    rfl
  rw [hsame] at hvalue
  rw [hsplit]
  exact List.isChain_split.2 ⟨hfixed m hm, hvalue⟩

theorem bare_intensity {text : String} {ts : List Token} (ht : Script.render ts = text.toList)
    (h : Assigned ts) : Bare [.line (assignment "fusionIntensity" text)] := by
  refine ⟨calm_assignment (by decide) ht h, fun m hm => ?_⟩
  have hother : ∀ m ∈ shortMembers, "fI" ≠ m := by decide
  rw [tokensOf_assignment (by decide) ht h,
    written_assignmentTokens (by decide : ("fusionIntensity", "fI") ∈ abbreviations)]
  exact without_shortAssignment hm (hother m hm) h

end EffectFusion.Template
