import EffectFusion.Proofs.Script.Nesting
import EffectFusion.Proofs.Template.Refusals

/-!
# Generated scripts are well formed

Whatever names and keys a fused essence has, no literal or comment of its script is open and its
brackets are nested.  Names and keys only stand inside of strings, and every other bracket of a
value has its partner in the value.  The scan for brackets is run on the lines that scripts share,
and on the head and the end of a block without its body, since nested tokens may stand anywhere.

* `nested_tokens`         the brackets of a value;
* `cutOff_writeAll`       no token goes on after sound blocks;
* `nested_script`         the brackets of a script;
* `generate_wellFormed`   generated scripts and what compression makes of them.
-/

namespace EffectFusion

open Text Number Script

/-! ### Values -/

namespace Json

theorem nested_of_signs {ts : List Token} (h : ∀ t ∈ ts, t.kind = .punctuation → t = .mark "-") :
    Nested ts := by
  refine nested_of_plain fun t ht => ?_
  by_cases hk : t.kind = .punctuation
  · rw [h t ht hk]
    decide
  · exact isBracket_of_kind hk

theorem isBracket_stringToken (s : String) : (stringToken s).isBracket = false :=
  isBracket_of_kind nofun

theorem nested_cons_key (k : Option String) {ts : List Token} (h : Nested ts) :
    Nested (keyToken k :: .mark ":" :: ts) := by
  obtain ⟨s, hs⟩ := keyToken_eq k
  rw [hs]
  exact .skip (isBracket_stringToken s) (.skip (by decide) h)

mutual

theorem nested_tokens : ∀ v : Json, Nested (tokens v)
  | .null => by decide
  | .bool true => by decide
  | .bool false => by decide
  | .whole n => nested_of_signs (mark_numeralTokens _)
  | .real x => by
    rw [tokens]
    split
    · decide
    · exact nested_of_signs (mark_numeralTokens _)
  | .beyond => by decide
  | .text s => .skip (isBracket_stringToken s) .nil
  | .unpaired => .skip (isBracket_stringToken "") .nil
  | .list items => .group (p := (.mark "[", .mark "]")) (by decide) (nested_itemTokens items) .nil
  | .record fields =>
    .group (p := (.mark "\x7b", .mark "\x7d")) (by decide) (nested_fieldTokens fields) .nil

theorem nested_itemTokens : ∀ vs : List Json, Nested (itemTokens vs)
  | [] => .nil
  | [v] => nested_tokens v
  | v :: w :: rest => by
    rw [itemTokens]
    exact (nested_tokens v).append (.skip (by decide) (nested_itemTokens (w :: rest)))

theorem nested_fieldTokens : ∀ fs : List (Option String × Json), Nested (fieldTokens fs)
  | [] => .nil
  | [(k, v)] => nested_cons_key k (nested_tokens v)
  | (k, v) :: f :: rest => by
    rw [fieldTokens]
    exact (nested_cons_key k (nested_tokens v)).append
      (.skip (by decide) (nested_fieldTokens (f :: rest)))

end

end Json

namespace Template

/-! ### Where tokens end -/

/-- after the text a new token starts, unless both are white space -/
def CutOff (s : List Char) : Prop :=
  ∃ ts, ∀ rest, (lex (s ++ rest)).filter (!·.isWhitespace) =
    ts ++ (lex rest).filter (!·.isWhitespace)

theorem CutOff.append {s u : List Char} (h : CutOff s) (h' : CutOff u) : CutOff (s ++ u) := by
  obtain ⟨ts, hts⟩ := h
  obtain ⟨us, hus⟩ := h'
  refine ⟨ts ++ us, fun rest => ?_⟩
  rw [List.append_assoc, hts, hus, List.append_assoc]

theorem cutOff_lineBreak : CutOff ['\n'] :=
  ⟨[], filter_lex_blanks (fun t ht => by simp [ht]) (by decide)⟩

theorem cutOff_indent {text : String} (h : endsWell text.toList = true) (depth : Nat) :
    CutOff (indent depth text) :=
  ⟨_, filter_lex_line (fun t ht => by simp [ht]) h depth⟩

mutual

theorem cutOff_write : ∀ b : Block, b.sound = true → ∀ depth, CutOff (b.write depth)
  | .line text, h, depth => by
    simp only [Block.sound, soundLine, charsOf_eq, Bool.and_eq_true] at h
    exact cutOff_indent h.1 depth
  | .blank, _, _ => cutOff_lineBreak
  | .nest head body tail, h, depth => by
    simp only [Block.sound, soundEdge, charsOf_eq, Bool.and_eq_true] at h
    exact ((cutOff_indent h.1.1.1 depth).append (cutOff_writeAll body h.1.2 (depth + 1))).append
      (cutOff_indent h.2.1 depth)

theorem cutOff_writeAll : ∀ bs : List Block, sound bs = true → ∀ depth, CutOff (writeAll depth bs)
  | [], _, _ => ⟨[], fun _ => rfl⟩
  | b :: bs, h, depth => by
    simp only [sound, Bool.and_eq_true] at h
    exact (cutOff_write b h.1 depth).append (cutOff_writeAll bs h.2 depth)

end

theorem cutOff_comment {u : List Char} (h : ∀ c ∈ u, c ≠ '/') :
    CutOff ('/' :: '*' :: (u ++ ['*', '/'])) := by
  refine ⟨[⟨.blockComment, '/' :: '*' :: (u ++ ['*', '/'])⟩], fun rest => ?_⟩
  rw [lex_comment h]
  rfl

/-- the last token is white space when what stands before the closing line is cut off -/
theorem getLast?_close {s : List Char} (h : CutOff s) :
    ∀ t ∈ (lex (s ++ indent 0 ("\x7d" ++ ""))).getLast?, t.isWhitespace = true := by
  intro t ht
  obtain ⟨ts, hts⟩ := h
  obtain ⟨us, hus⟩ := List.getLast?_eq_some_iff.1 (Option.mem_def.1 ht)
  have hclose : (lex (indent 0 ("\x7d" ++ ""))).filter (!·.isWhitespace) = [.mark "\x7d"] := by
    decide +kernel
  have hlast := hts (indent 0 ("\x7d" ++ ""))
  rw [hus, hclose, List.filter_append] at hlast
  by_contra hspace
  have ht : [t].filter (!·.isWhitespace) = [t] := by simpa using hspace
  rw [ht] at hlast
  obtain rfl : t = .mark "\x7d" := List.singleton_inj.1 (List.append_inj_right' hlast rfl)
  -- the text ends with a line break
  have htext := render_lex (s ++ indent 0 ("\x7d" ++ ""))
  have hbreak : indent 0 ("\x7d" ++ "") = ['\x7d', '\n'] := by decide
  have hrender : render [.mark "\x7d"] = ['\x7d'] := by decide
  rw [hus, render_append, hrender, hbreak] at htext
  have hend := congrArg List.getLast? htext
  rw [List.getLast?_concat, List.getLast?_append] at hend
  exact absurd (Option.some.inj hend : '\x7d' = '\n') (by decide)

theorem cutOff_header (f : FusedEssence Float) : CutOff (writeAll 0 (header f)) := by
  rw [writeAll_header]
  exact (cutOff_comment (no_slash_header f)).append cutOff_lineBreak

theorem getLast?_script (f : FusedEssence Float) :
    ∀ t ∈ (lex (writeAll 0 (script f))).getLast?, t.isWhitespace = true := by
  have hsound := sound_classBlocks f
  have hexport := sound_lastMethods.2
  rw [classBlocks, sound_append, Bool.and_eq_true] at hsound
  simp only [exportBlocks, sound, Block.sound, soundEdge, charsOf_eq, Bool.and_eq_true] at hexport
  have hcut := (((cutOff_header f).append (cutOff_writeAll _ hsound.1 0)).append
    (cutOff_indent hexport.1.1.1.1 0)).append (cutOff_writeAll _ hexport.1.1.2 1)
  have hend := getLast?_close hcut
  rw [script_eq, writeAll_append, classBlocks, writeAll_append]
  simpa only [exportBlocks, writeAll, Block.write, List.append_assoc, List.append_nil] using hend

/-! ### Brackets of a script -/

theorem nested_significant_iff {ts : List Token} : Nested (significant ts) ↔ Nested ts :=
  nested_filter_iff (by decide)

section

variable {head tail m text : String} {body bs cs : List Block} {ts : List Token}

theorem nested_tokensOf_append (h : Nested (tokensOf bs)) (h' : Nested (tokensOf cs)) :
    Nested (tokensOf (bs ++ cs)) := by
  rw [tokensOf_append]
  exact h.append h'

/-- the lines around a block are checked without what is between them -/
theorem nested_nest (hedge : Nested (tokensOf [.nest head [] tail])) (hbody : Nested (tokensOf body)) :
    Nested (tokensOf [.nest head body tail]) := by
  simp only [tokensOf, Block.tokens, List.append_nil, List.append_assoc] at hedge ⊢
  exact (nested_insert_iff hbody).2 hedge

theorem nested_assignment (hm : m ∈ dataMembers) (ht : Script.render ts = text.toList)
    (h : Assigned ts) (hts : Nested ts) : Nested (tokensOf [.line (assignment m text)]) := by
  have hmember : ∀ m ∈ dataMembers, Nested [.name "this", .mark ".", .name m, .mark "="] := by
    decide
  rw [tokensOf_assignment hm ht h, assignmentTokens]
  exact ((hmember m hm).append hts).append (by decide)

end

theorem pervades_nested : Pervades fun bs => Nested (tokensOf bs) where
  append := nested_tokensOf_append
  method := nested_nest
  animated a := by cases a <;> decide +kernel
  fixed := by decide +kernel

theorem nested_firstMethods (f : FusedEssence Float) : Nested (tokensOf (firstMethods f)) := by
  obtain ⟨ts, hts, hassigned, hsigns⟩ := assigned_plain f.intensity
  exact pervades_nested.firstMethods f
    (fun _ hm v => nested_assignment hm (Json.render_tokens_toList v) (assigned_tokens v)
      (Json.nested_tokens v))
    (nested_assignment (by decide) hts hassigned (Json.nested_of_signs hsigns))

theorem nested_script (f : FusedEssence Float) : Nested (lex (writeAll 0 (script f))) := by
  have hclass : Nested (tokensOf [.nest "class FusedEffect" [] ""]) := by decide +kernel
  have hrest : Nested (tokensOf lastMethods) ∧ Nested (tokensOf exportBlocks) := by decide +kernel
  have hblocks : Nested (tokensOf (classBlocks f)) :=
    nested_tokensOf_append
      (nested_nest hclass (nested_tokensOf_append (nested_firstMethods f) hrest.1)) hrest.2
  rwa [tokensOf_classBlocks, ← significant_script, nested_significant_iff] at hblocks

/-- **Generated scripts are well formed**, and so is what compression makes of them. -/
theorem generate_wellFormed {f : FusedEssence Float} (h : f.Finite) :
    ∃ g code stats, generate f = .ok g ∧ compress g = .ok (code, stats) ∧
      WellFormed g ∧ WellFormed code := by
  have hscript := wellFormed_of_getLast? (getLast?_script f) (nested_script f)
  obtain ⟨code, stats, hcompress, hcode⟩ := hscript.compress
  exact ⟨_, code, stats, generate_eq_ok ((finite_iff_numbers f).1 h), hcompress, hscript, hcode⟩

/-- the sample with brackets, marks of literals and comments and line breaks in its names -/
def bracketed : FusedEssence Float :=
  { sample with
    enhanced := Keyed.ofList [("\x7d)] /* \"\n", ⟨.creative, 0.25, 0.5, 0.75⟩),
      ("([\x7b // '`\r\n", ⟨.technical, 1.0, 0.5, 0.0⟩)] }

theorem generate_wellFormed_bracketed :
    ∃ g code stats, generate bracketed = .ok g ∧ compress g = .ok (code, stats) ∧
      WellFormed g ∧ WellFormed code :=
  generate_wellFormed ((finite_iff_numbers bracketed).2 (by decide +kernel))

end Template

end EffectFusion
