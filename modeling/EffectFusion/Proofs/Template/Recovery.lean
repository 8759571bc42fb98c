import EffectFusion.Proofs.Template.Compression

/-!
# Data in compressed scripts

The structured data of a fused essence can be taken back out of the compressed script.  Each value
is assigned to a member in one statement; compression renames the member, rewrites truth values and
leaves the rest of the statement alone.

* `valuesOf_script`         the tokens that are assigned to a member;
* `travels_payloads`        the data survives its text;
* `compress_carries_data`   the data comes back.
-/

namespace EffectFusion.Template

open Text Number Script

/-! ### Pieces of a script -/

/-- the structured data of a fused essence by the short name of its member -/
def shortPayloads (f : FusedEssence Float) : List (String × Json) := [
  ("oE", toJson f.essence),
  ("eP", toJson f.enhanced),
  ("mI", toJson f.integrations),
  ("eV", toJson f.evolution)]

/-- the tokens before the structured data -/
def openingTokens : List Token :=
  lineTokens ("class FusedEffect" ++ " \x7b")
    ++ (lineTokens ("constructor(canvas, options = \x7b\x7d)" ++ " \x7b") ++ tokensOf openingLines)

/-- the tokens between the structured data and the method `start` -/
def closingTokens (f : FusedEssence Float) : List Token :=
  tokensOf (closingLines f) ++ lineTokens ("\x7d" ++ "") ++ tokensOf (middleMethods f)

theorem tokensOf_lines {α : Type} (text : α → String) (xs : List α) :
    tokensOf (xs.map (fun x => .line (text x))) = xs.flatMap (fun x => lineTokens (text x)) := by
  induction xs with
  | nil => rfl
  | cons x xs ih => rw [List.map_cons, tokensOf, ih, List.flatMap_cons, Block.tokens]

theorem firstTokens_eq (f : FusedEssence Float) :
    firstTokens f = openingTokens
      ++ (payloads f).flatMap (fun p => assignmentTokens p.1 (Json.tokens p.2)) ++ closingTokens f := by
  have hlines : (payloads f).flatMap (fun p => lineTokens (assignment p.1 p.2.render)) =
      (payloads f).flatMap (fun p => assignmentTokens p.1 (Json.tokens p.2)) := by
    have hmembers : ∀ p ∈ payloads f, p.1 ∈ dataMembers := by simp [payloads, dataMembers]
    rw [List.flatMap_def, List.flatMap_def]
    congr 1
    refine List.map_congr_left (fun p hp => ?_)
    exact lineTokens_assignment (hmembers p hp) (Json.render_tokens_toList p.2)
      (assigned_tokens p.2)
  rw [firstTokens, firstMethods, tokensOf_append, constructorMethod_eq, tokensOf_method,
    tokensOf_append, tokensOf_append, tokensOf_lines, hlines]
  simp only [openingTokens, closingTokens, List.append_assoc]

/-! ### The tokens of a compressed script -/

theorem edited_script (f : FusedEssence Float) :
    edited (firstTokens f ++ lastTokens) = openingTokens.flatMap written
      ++ ((shortPayloads f).flatMap (fun p => shortAssignment p.1 (Json.tokens p.2))
      ++ ((closingTokens f).flatMap written ++ edited lastTokens)) := by
  have hnames : ((payloads f).flatMap (fun p => assignmentTokens p.1 (Json.tokens p.2))).flatMap written =
      (shortPayloads f).flatMap (fun p => shortAssignment p.1 (Json.tokens p.2)) := by
    simp only [payloads, shortPayloads, List.flatMap_cons, List.flatMap_nil, List.flatMap_append]
    rw [written_assignmentTokens (by decide : ("originalEssence", "oE") ∈ abbreviations),
      written_assignmentTokens (by decide : ("enhancedProperties", "eP") ∈ abbreviations),
      written_assignmentTokens (by decide : ("moduleIntegrations", "mI") ∈ abbreviations),
      written_assignmentTokens (by decide : ("evolution", "eV") ∈ abbreviations)]
  rw [edited_append (quiet_firstTokens f) (getLast?_firstTokens f), firstTokens_eq,
    List.flatMap_append, List.flatMap_append, hnames]
  simp only [List.append_assoc]

/-! ### What else is assigned -/

theorem without_opening : ∀ m ∈ shortMembers, Without m (openingTokens.flatMap written) := by
  decide +kernel

theorem without_closing (f : FusedEssence Float) {m : String} (hm : m ∈ shortMembers) :
    Without m ((closingTokens f).flatMap written ++ edited lastTokens) := by
  have hclose : ∀ m, Without m (([Token.mark "\x7d"] : List Token).flatMap written) :=
    fun m => ⟨List.isChain_singleton _, by decide⟩
  rw [closingTokens, lineTokens_close, List.flatMap_append, List.flatMap_append]
  exact ((((pervades_bare.closingLines f (bare_number f.intensity)).without m hm).append (hclose m)).append
    ((pervades_bare.middleMethods f).without m hm)).append (edited_lastTokens.2.2 m hm)

theorem without_assignments {m : String} (hm : m ∈ shortMembers) {ps : List (String × Json)}
    (h : ∀ p ∈ ps, p.1 ≠ m) :
    Without m (ps.flatMap (fun p => shortAssignment p.1 (Json.tokens p.2))) :=
  Without.flatMap fun p hp => without_shortAssignment hm (h p hp) (assigned_tokens p.2)

/-- what stands before and after the payload of a member belongs to other members -/
theorem exists_split {ps : List (String × Json)} (hnodup : (ps.map (·.1)).Nodup) {p : String × Json}
    (hp : p ∈ ps) : ∃ before after, ps = before ++ p :: after ∧
      (∀ q ∈ before, q.1 ≠ p.1) ∧ ∀ q ∈ after, q.1 ≠ p.1 := by
  obtain ⟨before, after, rfl⟩ := List.append_of_mem hp
  rw [List.map_append, List.map_cons] at hnodup
  obtain ⟨-, hrest, hdiffer⟩ := List.nodup_append.1 hnodup
  refine ⟨before, after, rfl, fun q hq => ?_, fun q hq he => ?_⟩
  · exact hdiffer q.1 (List.mem_map_of_mem hq) p.1 List.mem_cons_self
  · exact (List.nodup_cons.1 hrest).1 (he ▸ List.mem_map_of_mem hq)

/-- each payload is assigned once, and its tokens stay together -/
theorem valuesOf_script (f : FusedEssence Float) {p : String × Json} (hp : p ∈ shortPayloads f)
    {ts : List Token} (hlaid : Laid Kept none ts) (hcomment : ∀ t ∈ ts, t.isComment = false)
    (h : significant ts = edited (firstTokens f ++ lastTokens)) :
    valuesOf p.1 ts = [(Json.tokens p.2).flatMap written] := by
  have hmembers : (shortPayloads f).map (·.1) = shortMembers := rfl
  have hm : p.1 ∈ shortMembers := hmembers ▸ List.mem_map_of_mem hp
  have hnodup : ((shortPayloads f).map (·.1)).Nodup := by
    rw [hmembers]
    decide
  obtain ⟨before, after, hsplit, hbefore, hafter⟩ := exists_split hnodup hp
  rw [edited_script, hsplit, List.flatMap_append, List.flatMap_cons] at h
  have hleft := (without_opening p.1 hm).append (without_assignments hm hbefore)
  have hright := (without_assignments hm hafter).append (without_closing f hm)
  have hdata : ∀ t ∈ (Json.tokens p.2).flatMap written, t.isMark ";" = false ∧ t ≠ .name p.1 := by
    have hnull : ∀ m ∈ shortMembers, m ≠ "null" := by decide
    intro t ht
    obtain ⟨u, hu, ht⟩ := List.mem_flatMap.1 ht
    have hwritten := Json.mem_written (Json.occurs_tokens p.2 u hu) ht
    exact ⟨hwritten.1, hwritten.2 p.1 (hnull p.1 hm)⟩
  have hthis : ∀ m ∈ shortMembers, m ≠ "this" := by decide
  refine valuesOf_laid (hthis p.1 hm) hlaid hcomment (joined_shortAssignment hm p.2) hleft hdata
    hright ?_
  rw [h]
  simp only [shortAssignment, List.append_assoc]

/-! ### Decoding -/

theorem travels_payloads {f : FusedEssence Float}
    (hranks : ∀ m ∈ f.integrations.values, m.rank < twoTo 64)
    (hreads : ∀ n ∈ numbers f, Json.ReadsBack n.2) :
    Json.Travels f.essence ∧ Json.Travels f.enhanced ∧ Json.Travels f.integrations ∧
      Json.Travels f.evolution := by
  simp only [numbers, List.forall_mem_append, List.forall_mem_flatMap] at hreads
  obtain ⟨⟨⟨⟨hscores, hothers⟩, hevolution⟩, henhanced⟩, hintegrations⟩ := hreads
  have hessence : Json.Travels f.essence :=
    Json.travels_essence hscores (hothers ("estimated_fps", f.essence.technical.performance.fps) (by simp))
  have henhanced : Json.Travels f.enhanced := by
    refine Json.travels_keyed (fun e he => ?_)
    have hall := henhanced e he
    simp only [propertyNumbers, List.forall_mem_cons] at hall
    exact Json.travels_property hall.1 hall.2.1 hall.2.2.1
  have hintegrations : Json.Travels f.integrations := by
    refine Json.travels_keyed (fun e he => ?_)
    have hall := hintegrations e he
    simp only [integrationNumbers, List.forall_mem_cons, List.forall_mem_map, List.forall_mem_append] at hall
    exact Json.travels_integration (hranks e.2 (List.mem_map_of_mem he)) hall.1 hall.2.1 hall.2.2
  exact ⟨hessence, henhanced, hintegrations, Json.travels_evolution hevolution⟩

/-- **The data of a compressed script.**  Whatever names and keys are in it, what the code assigns to
the four members decodes to the fused data, and nothing else is assigned to them.  Ranks fit 64
bits, and the text of every number is read as that number. -/
theorem compress_carries_data (f : FusedEssence Float)
    (hfinite : ∀ n ∈ numbers f, Scalar.isFinite n.2 = true)
    (hranks : ∀ m ∈ f.integrations.values, m.rank < twoTo 64)
    (hreads : ∀ n ∈ numbers f, Json.ReadsBack n.2) :
    ∃ g code stats, generate f = .ok g ∧ compress g = .ok (code, stats) ∧
      (valuesOf "oE" (lex code)).map Json.decoded = [some f.essence] ∧
      (valuesOf "eP" (lex code)).map Json.decoded = [some f.enhanced] ∧
      (valuesOf "mI" (lex code)).map Json.decoded = [some f.integrations] ∧
      (valuesOf "eV" (lex code)).map Json.decoded = [some f.evolution] := by
  refine ⟨_, _, _, generate_eq_ok hfinite, compress_eq_ok _, ?_⟩
  obtain ⟨htokens, hlaid, hcomment⟩ := refines_script f (rfl : significant (lex (writeAll 0 (script f))) = _)
  rw [significant_script] at htokens
  obtain ⟨hessence, henhanced, hintegrations, hevolution⟩ := travels_payloads hranks hreads
  have hvalues := fun p hp => @valuesOf_script f p hp _ hlaid hcomment htokens
  refine ⟨?_, ?_, ?_, ?_⟩
  · rw [hvalues ("oE", toJson f.essence) (by simp [shortPayloads]), List.map_singleton,
      Json.decoded_tokens hessence]
  · rw [hvalues ("eP", toJson f.enhanced) (by simp [shortPayloads]), List.map_singleton,
      Json.decoded_tokens henhanced]
  · rw [hvalues ("mI", toJson f.integrations) (by simp [shortPayloads]), List.map_singleton,
      Json.decoded_tokens hintegrations]
  · rw [hvalues ("eV", toJson f.evolution) (by simp [shortPayloads]), List.map_singleton,
      Json.decoded_tokens hevolution]

theorem compress_carries_data_sample :
    ∃ g code stats, generate sample = .ok g ∧ compress g = .ok (code, stats) ∧
      (valuesOf "oE" (lex code)).map Json.decoded = [some sample.essence] ∧
      (valuesOf "eP" (lex code)).map Json.decoded = [some sample.enhanced] ∧
      (valuesOf "mI" (lex code)).map Json.decoded = [some sample.integrations] ∧
      (valuesOf "eV" (lex code)).map Json.decoded = [some sample.evolution] := by
  have hfinite : ∀ n ∈ numbers sample, Scalar.isFinite n.2 = true := by decide
  have hranks : ∀ m ∈ sample.integrations.values, m.rank < twoTo 64 := by decide
  have hreads : ∀ n ∈ numbers sample, Json.ReadsBack n.2 := by
    have hvalues : (numbers sample).map (·.2) = [0.5, 0.25, 1.0, 0.75, 0.5, 0.125, 60.0, 0.5, 0.5,
      0.5, 0.25, 0.75, 1.0, 0.25, 0.5, 0.75, 0.5, 0.5] := rfl
    have hall : ∀ x ∈ (numbers sample).map (·.2), Json.ReadsBack x := by
      rw [hvalues]
      simp only [List.forall_mem_cons]
      exact ⟨rfl, rfl, rfl, rfl, rfl, rfl, rfl, rfl, rfl, rfl, rfl, rfl, rfl, rfl, rfl, rfl, rfl, rfl,
        fun _ h => nomatch h⟩
    exact fun n hn => hall n.2 (List.mem_map_of_mem hn)
  exact compress_carries_data sample hfinite hranks hreads

end EffectFusion.Template
