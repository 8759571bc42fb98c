import EffectFusion.Proofs.Script.Refinement

/-!
# Edits of a script

What compression makes of the tokens of a generated script, said without the passes: three phrases
and a few words are replaced wherever they stand, and nothing else changes.

* `written`           the words, token by token;
* `edited`            phrases and words, from left to right;
* `edited_append`     where no phrase stands, the edits go token by token;
* `rewritten_append`  and the passes do the same there.
-/

namespace EffectFusion.Script

open Text

/-! ### Phrases and words -/

/-- phrases that become shorter; the names in them do as well -/
def phrases : List (List Token × List Token) := [
  ([.name "this", .mark ".", .name "isRunning", .mark "===", .name "true"],
    [.name "this", .mark ".", .name "iR"]),
  ([.name "self", .mark ".", .name "isRunning", .mark "===", .name "false"],
    [.mark "!", .name "self", .mark ".", .name "iR"]),
  ([.name "function", .mark "(", .name "timestamp", .mark ")", .mark "\x7b"],
    [.mark "(", .name "ts", .mark ")", .mark "=>", .mark "\x7b"])]

/-- the short form of a word; every other token is its own -/
def renamed (t : Token) : Token := (abbreviation? t).getD t

/-- what is written for a token by itself -/
def written (t : Token) : List Token :=
  match truthDigit? t with
  | some digit => [.mark "!", ⟨.number, [digit]⟩]
  | none => [renamed t]

/-- every phrase and every word replaced, from left to right -/
def edited : List Token → List Token
  | [] => []
  | t :: rest =>
    match phrases.find? (fun e => e.1.isPrefixOf (t :: rest)) with
    | some e => e.2 ++ edited (rest.drop (e.1.length - 1))
    | none => written t ++ edited rest
termination_by ts => ts.length
decreasing_by
  · simp only [List.length_drop, List.length_cons]
    omega
  · simp

/-! ### Words -/

theorem abbreviation?_of_truth {b : Bool} : abbreviation? (truthWord b) = none := by
  cases b <;> decide

theorem truthDigit?_truthWord (b : Bool) :
    truthDigit? (truthWord b) = some (if b then '0' else '1') := by
  cases b <;> rfl

theorem written_truthWord (b : Bool) : written (truthWord b) = truthMarks b := by
  cases b <;> rfl

theorem truthDigit?_eq_some {t : Token} {digit : Char} (h : truthDigit? t = some digit) :
    ∃ b, t = truthWord b := by
  unfold truthDigit? at h
  split at h
  · rename_i ht
    exact ⟨true, (Token.isName_iff _ _).1 ht⟩
  split at h
  · rename_i hf
    exact ⟨false, (Token.isName_iff _ _).1 hf⟩
  · cases h

theorem written_of_not_truth {t : Token} (h : ∀ b, t ≠ truthWord b) : written t = [renamed t] := by
  unfold written
  cases hd : truthDigit? t with
  | none => rfl
  | some digit =>
    obtain ⟨b, hb⟩ := truthDigit?_eq_some hd
    exact absurd hb (h b)

theorem renamed_cases (t : Token) :
    renamed t = t ∨ ∃ a ∈ abbreviations, t = .name a.1 ∧ renamed t = .name a.2 := by
  unfold renamed abbreviation?
  cases h : abbreviations.find? (fun a => t.isName a.1) with
  | none => exact Or.inl rfl
  | some a =>
    have ha := List.find?_some h
    exact Or.inr ⟨a, List.mem_of_find?_eq_some h, (Token.isName_iff _ _).1 ha, rfl⟩

theorem written_cases (t : Token) :
    (∃ b, t = truthWord b ∧ written t = truthMarks b) ∨ written t = [renamed t] := by
  by_cases h : ∃ b, t = truthWord b
  · obtain ⟨b, rfl⟩ := h
    exact Or.inl ⟨b, rfl, written_truthWord b⟩
  · exact Or.inr (written_of_not_truth (fun b hb => h ⟨b, hb⟩))

/-- a token among orderly ones is shortened in the same way wherever it stands -/
theorem shortened_eq_written {before after : Option Token} {t : Token}
    (hleft : ∀ p ∈ before, Orderly p t) (hright : ∀ n ∈ after, Orderly t n) :
    shortened before t after = written t := by
  rcases written_cases t with ⟨b, rfl, hw⟩ | hw
  · have hproperty : namesProperty before after = false := by
      have hbefore : holds (·.isMark ".") before = false := by
        cases before with
        | none => rfl
        | some p =>
          obtain ⟨s, hs, rfl⟩ := mem_of_isMarkOf ((hleft p rfl).truth (isTruthWord_truthWord b))
          have hall : ∀ s ∈ truthPreceders, (Token.mark s).isMark "." = false := by decide
          exact hall s hs
      have hafter : holds (·.isMark ":") after = false := by
        cases after with
        | none => rfl
        | some n =>
          obtain ⟨s, hs, rfl⟩ := mem_of_isMarkOf ((hright n rfl).afterTruth (isTruthWord_truthWord b))
          have hall : ∀ s ∈ truthFollowers, (Token.mark s).isMark ":" = false := by decide
          exact hall s hs
      rw [namesProperty, hbefore, hafter]
      rfl
    rw [hw, shortened, if_neg (fun h => h (by cases b <;> rfl)), abbreviation?_of_truth]
    cases b <;> simp [truthDigit?_truthWord, hproperty, truthMarks, truthDigit]
  · rw [hw, shortened]
    split
    · rename_i hk
      rcases renamed_cases t with h | ⟨a, -, rfl, -⟩
      · rw [h]
      · exact absurd rfl hk
    · unfold written at hw
      cases hd : truthDigit? t with
      | some digit =>
        rw [hd] at hw
        have hlength := congrArg List.length hw
        cases hlength
      | none =>
        unfold renamed
        cases abbreviation? t <;> rfl

theorem shortenedAll_eq_flatMap (before : Option Token) {ts : List Token}
    (hs : ∀ t ∈ ts, t.isTrivia = false) (h : (before.toList ++ ts).IsChain Orderly) :
    shortenedAll before ts = ts.flatMap written := by
  induction ts generalizing before with
  | nil => rfl
  | cons t ts ih =>
    have ht : t.isTrivia = false := hs t List.mem_cons_self
    have hrest : ∀ u ∈ ts, u.isTrivia = false := fun u hu => hs u (List.mem_cons_of_mem t hu)
    obtain ⟨-, htail, hleft⟩ := List.isChain_append.1 h
    have hnext : significant? ts = ts.head? := by
      rw [← head?_significant, significant_of_forall hrest]
    rw [shortenedAll, ht, if_neg Bool.false_ne_true, List.flatMap_cons, hnext,
      ih (some t) hrest htail]
    congr 1
    refine shortened_eq_written (fun p hp => ?_) (fun n hn => ?_)
    · refine hleft p ?_ t rfl
      rw [Option.mem_def.1 hp]
      rfl
    · obtain ⟨us, rfl⟩ := List.head?_eq_some_iff.1 hn
      exact (List.isChain_cons_cons.1 htail).1

/-! ### Tokens of no phrase -/

/-- no phrase that is rewritten as a whole has the token in it or starts with it -/
def Token.isQuiet (t : Token) : Bool :=
  !t.isName "function" && !t.isMarkOf ["===", "==", "!==", "!="]

theorem comparison?_of_quiet {t : Token} (h : t.isQuiet = true) : comparison? t = none := by
  cases hc : comparison? t with
  | none => rfl
  | some negated =>
    rcases comparison?_eq_some hc with rfl | rfl <;> cases negated <;> exact absurd h (by decide)

theorem quiet_written {t : Token} (h : t.isQuiet = true) : ∀ u ∈ written t, u.isQuiet = true := by
  have hmarks : ∀ b, ∀ u ∈ truthMarks b, u.isQuiet = true := by decide
  have hnames : ∀ a ∈ abbreviations, (Token.name a.2).isQuiet = true := by decide
  intro u hu
  rcases written_cases t with ⟨b, -, hw⟩ | hw
  · rw [hw] at hu
    exact hmarks b u hu
  · rw [hw] at hu
    rw [List.mem_singleton.1 hu]
    rcases renamed_cases t with hr | ⟨a, ha, -, hr⟩
    · rwa [hr]
    · rw [hr]
      exact hnames a ha

theorem isTrivia_written {t : Token} (h : t.isTrivia = false) :
    ∀ u ∈ written t, u.isTrivia = false := by
  have hmarks : ∀ b, ∀ u ∈ truthMarks b, u.isTrivia = false := by decide
  intro u hu
  rcases written_cases t with ⟨b, -, hw⟩ | hw
  · rw [hw] at hu
    exact hmarks b u hu
  · rw [hw] at hu
    rw [List.mem_singleton.1 hu]
    rcases renamed_cases t with hr | ⟨a, -, -, hr⟩
    · rwa [hr]
    · rw [hr]
      rfl

theorem not_phrase {ts us : List Token} (hquiet : ∀ t ∈ ts, t.isQuiet = true)
    (hlast : ts.getLast? = some (.mark "\x7d")) :
    phrases.find? (fun e => e.1.isPrefixOf (ts ++ us)) = none := by
  have hloud : ∀ e ∈ phrases, (∃ t ∈ e.1, t.isQuiet = false) ∧ .mark "\x7d" ∉ e.1 := by decide
  refine List.find?_eq_none.2 (fun e he hp => ?_)
  have hp : e.1 <+: ts ++ us := List.isPrefixOf_iff_prefix.1 hp
  obtain ⟨⟨t, ht, hq⟩, hbrace⟩ := hloud e he
  rcases List.prefix_or_prefix_of_prefix hp (List.prefix_append ts us) with h | h
  · rw [hquiet t (h.subset ht)] at hq
    cases hq
  · exact hbrace (h.subset (List.mem_of_getLast? hlast))

/-- where no phrase stands the edits go token by token -/
theorem edited_append {ts : List Token} (hquiet : ∀ t ∈ ts, t.isQuiet = true)
    (hlast : ts.getLast? = some (.mark "\x7d")) (us : List Token) :
    edited (ts ++ us) = ts.flatMap written ++ edited us := by
  induction ts with
  | nil => cases hlast
  | cons t ts ih =>
    have hnone := @not_phrase _ us hquiet hlast
    rw [List.cons_append] at hnone ⊢
    rw [edited, hnone, List.flatMap_cons, List.append_assoc]
    cases ts with
    | nil => rfl
    | cons v vs =>
      rw [ih (fun u hu => hquiet u (List.mem_cons_of_mem t hu)) (by rwa [List.getLast?_cons_cons] at hlast)]

theorem elided_of_quiet {done ts : List Token} (h : ∀ t ∈ ts, t.isQuiet = true) :
    elided done ts = done.reverse ++ ts := by
  have hover := elided_over (fun t ht => comparison?_of_quiet (h t ht)) done []
  rw [List.append_nil, elided_nil] at hover
  rw [hover, List.reverse_append, List.reverse_reverse]

/-- **Where no phrase stands** the passes change words only. -/
theorem rewritten_append {ts us : List Token} (hs : ∀ t ∈ ts ++ us, t.isTrivia = false)
    (ho : (ts ++ us).IsChain Orderly) (hquiet : ∀ t ∈ ts, t.isQuiet = true)
    (hlast : ts.getLast? = some (.mark "\x7d"))
    (hloose : ∀ n ∈ (arrowed (some (.mark "\x7d")) (us.flatMap written)).head?,
      Loose (.mark "\x7d") n) :
    rewritten (ts ++ us) =
      ts.flatMap written ++ elided [] (arrowed (some (.mark "\x7d")) (us.flatMap written)) := by
  have hwords : ∀ t ∈ ts.flatMap written, t.isQuiet = true := by
    intro t ht
    obtain ⟨u, hu, hw⟩ := List.mem_flatMap.1 ht
    exact quiet_written (hquiet u hu) t hw
  have hfunction : ∀ t ∈ ts.flatMap written, t ≠ .name "function" := by
    rintro t ht rfl
    exact absurd (hwords _ ht) (by decide)
  have htrivia : ∀ t ∈ ts.flatMap written, t.isTrivia = false := by
    intro t ht
    obtain ⟨u, hu, hw⟩ := List.mem_flatMap.1 ht
    exact isTrivia_written (hs u (List.mem_append_left us hu)) t hw
  have hend : (ts.flatMap written).getLast? = some (.mark "\x7d") := by
    obtain ⟨vs, rfl⟩ := List.getLast?_eq_some_iff.1 hlast
    rw [List.flatMap_append, List.getLast?_append]
    rfl
  rw [rewritten, shortenedAll_eq_flatMap none hs ho, List.flatMap_append,
    arrowed_append hfunction htrivia, hend, Option.some_or, elided_parts, elided_of_quiet hwords]
  · rfl
  · intro p hp n hn
    rw [hend] at hp
    obtain rfl := Option.some.inj hp
    exact hloose n hn

/-! ### Different words -/

theorem renamed_injective {t u : Token} (ht : t.isNameOf (abbreviations.map (·.2)) = false)
    (hu : u.isNameOf (abbreviations.map (·.2)) = false) (h : renamed t = renamed u) : t = u := by
  have hshort : ∀ a ∈ abbreviations,
      (Token.name a.2).isNameOf (abbreviations.map (·.2)) = true := by decide
  have hdiffer : ∀ a ∈ abbreviations, ∀ b ∈ abbreviations,
      Token.name a.2 = Token.name b.2 → Token.name a.1 = Token.name b.1 := by decide
  rcases renamed_cases t with htr | ⟨a, ha, rfl, htr⟩
  · rcases renamed_cases u with hur | ⟨b, hb, rfl, hur⟩
    · rwa [htr, hur] at h
    · rw [htr, hur] at h
      rw [h, hshort b hb] at ht
      cases ht
  · rcases renamed_cases u with hur | ⟨b, hb, rfl, hur⟩
    · rw [htr, hur] at h
      rw [← h, hshort a ha] at hu
      cases hu
    · rw [htr, hur] at h
      exact hdiffer a ha b hb h

end EffectFusion.Script
