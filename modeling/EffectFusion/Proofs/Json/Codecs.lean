import EffectFusion.Json.Fused
import EffectFusion.Proofs.Json.Reading

/-!
# Values that survive their text

A value travels when its structured form has a text that is read as that form, and when the form
is decoded to the value.  Tags, sets of tags and maps travel with what is in them; a record travels
with its fields.

* `Travels.text`     the text of a value is decoded to the value, and so is its pretty text;
* `travels_record`   a record, by what each of its fields does;
* `travels_keyed`    a map, by its values.
-/

namespace EffectFusion.Json

open Number

/-- the form of the value has a text and is decoded to the value -/
structure Travels {α : Type} [Written α] [Readable α] (a : α) : Prop where
  faithful : Faithful (toJson a)
  decoded : ofJson? (toJson a) = some a

theorem Travels.text {α : Type} [Written α] [Readable α] {a : α} (h : Travels a) :
    (read? (Json.render (toJson a))).bind ofJson? = some a := by
  rw [read?_render h.faithful, Option.bind_some, h.decoded]

theorem Travels.prettyText {α : Type} [Written α] [Readable α] {a : α} (h : Travels a) :
    (read? (Json.renderPretty (toJson a))).bind ofJson? = some a := by
  rw [read?_renderPretty h.faithful, Option.bind_some, h.decoded]

theorem faithfulItems_iff (vs : List Json) : FaithfulItems vs ↔ ∀ v ∈ vs, Faithful v := by
  induction vs with
  | nil => simp [FaithfulItems]
  | cons v vs ih => rw [FaithfulItems, ih, List.forall_mem_cons]

theorem faithful_fields (fs : List (String × Json)) :
    Faithful (fields fs) ↔ ∀ f ∈ fs, Faithful f.2 := by
  show FaithfulFields (fs.map (fun f => (some f.1, f.2))) ↔ _
  induction fs with
  | nil => simp [FaithfulFields]
  | cons f fs ih =>
    rw [List.map_cons, FaithfulFields, ih, List.forall_mem_cons]
    simp

/-! ### Leaves -/

/-- the names of the tags are different and every tag is listed once -/
class LawfulTag (α : Type) [Tag α] : Prop where
  ofName?_name : ∀ t : α, Tag.ofName? (Tag.name t) = some t
  nodup : (Tag.all : List α).Nodup

instance : LawfulTag AnimationType := ⟨by intro t; cases t <;> rfl, by decide⟩

instance : LawfulTag Movement := ⟨by intro t; cases t <;> rfl, by decide⟩

instance : LawfulTag Aesthetic := ⟨by intro t; cases t <;> rfl, by decide⟩

instance : LawfulTag Emotion := ⟨by intro t; cases t <;> rfl, by decide⟩

instance : LawfulTag Tier := ⟨by intro t; cases t <;> rfl, by decide⟩

instance : LawfulTag Platform := ⟨by intro t; cases t <;> rfl, by decide⟩

instance : LawfulTag Specialization := ⟨by intro t; cases t <;> rfl, by decide⟩

instance : LawfulTag Strategy := ⟨by intro t; cases t <;> rfl, by decide⟩

instance : LawfulTag Algorithm := ⟨by intro t; cases t <;> rfl, by decide⟩

theorem travels_tag {α : Type} [Tag α] [LawfulTag α] (t : α) : Travels t :=
  ⟨trivial, LawfulTag.ofName?_name t⟩

theorem travels_bool (b : Bool) : Travels b := ⟨trivial, rfl⟩

theorem travels_float {x : Float} (h : ReadsBack x) : Travels x := ⟨h, rfl⟩

theorem travels_string (s : String) : Travels s := ⟨trivial, rfl⟩

theorem travels_uint8 (n : UInt8) : Travels n := by
  have hsmall : n.toNat < 256 := n.toNat_lt
  refine ⟨?_, ?_⟩
  · show ((n.toNat : Nat) : Int).natAbs < twoTo 64
    rw [Int.natAbs_natCast]
    exact Nat.lt_trans hsmall (by decide)
  · show (if (0 : Int) ≤ (n.toNat : Nat) ∧ ((n.toNat : Nat) : Int) < 256 then
      some (UInt8.ofNat ((n.toNat : Nat) : Int).toNat) else none) = some n
    rw [if_pos ⟨Int.natCast_nonneg _, by omega⟩, Int.toNat_natCast, UInt8.ofNat_toNat]

theorem travels_int32 (n : Int32) : Travels n := by
  have hlow : -2147483648 ≤ n.toInt := n.le_toInt
  have hhigh : n.toInt < 2147483648 := n.toInt_lt
  have hwide : 2147483648 < twoTo 64 := by decide
  refine ⟨?_, ?_⟩
  · show n.toInt.natAbs < twoTo 64
    omega
  · show (if -2147483648 ≤ n.toInt ∧ n.toInt < 2147483648 then some (Int32.ofInt n.toInt) else
      none) = some n
    rw [if_pos ⟨hlow, hhigh⟩, Int32.ofInt_toInt]

theorem travels_nat {n : Nat} (h : n < twoTo 64) : Travels n := by
  refine ⟨h, ?_⟩
  show (if (0 : Int) ≤ (n : Int) then some (n : Int).toNat else none) = some n
  rw [if_pos (Int.natCast_nonneg n), Int.toNat_natCast]

/-! ### Records -/

theorem lookup_fields {fs : List (String × Json)} (h : (fs.map (·.1)).Nodup) {f : String × Json}
    (hf : f ∈ fs) : lookup (fs.map (fun f => (some f.1, f.2))) f.1 = some f.2 := by
  induction fs with
  | nil => cases hf
  | cons g fs ih =>
    rw [List.map_cons, List.nodup_cons] at h
    rw [List.map_cons, lookup, List.find?_cons]
    by_cases hg : g.1 = f.1
    · have hsame : f = g := by
        rcases List.mem_cons.1 hf with hf | hf
        · exact hf
        · exact absurd (List.mem_map.2 ⟨f, hf, hg.symm⟩) h.1
      subst hsame
      simp
    · have hf : f ∈ fs := by
        rcases List.mem_cons.1 hf with rfl | hf
        · exact absurd rfl hg
        · exact hf
      have ih := ih h.2 hf
      rw [lookup] at ih
      simpa [hg] using ih

theorem lookup_missing {fs : List (String × Json)} {name : String} (h : name ∉ fs.map (·.1)) :
    lookup (fs.map (fun f => (some f.1, f.2))) name = none := by
  rw [lookup, List.find?_map, Option.map_map, List.find?_eq_none.2, Option.map_none]
  intro f hf hname
  exact h (List.mem_map.2 ⟨f, hf, Option.some.inj (of_decide_eq_true hname)⟩)

theorem fieldValues?_names {fs : List (String × Json)} (h : (fs.map (·.1)).Nodup)
    (names : List String) : fieldValues? names (fields fs) =
      some (names.map (lookup (fs.map (fun f => (some f.1, f.2))))) := by
  have hfit : keysFit names (fs.map (fun f => (some f.1, f.2))) = true := by
    rw [keysFit, Bool.and_eq_true, List.all_eq_true, List.all_eq_true]
    refine ⟨fun g hg => ?_, fun name _ => ?_⟩
    · obtain ⟨f, -, rfl⟩ := List.mem_map.1 hg
      rfl
    · have hcount := List.nodup_iff_count.1 h name
      have hsame : (fun f : Option String × Json => decide (f.1 = some name)) ∘
          (fun f : String × Json => (some f.1, f.2)) = (fun n => n == name) ∘ (·.1) := by
        funext f
        simp [Function.comp, beq_eq_decide]
      rw [List.count, List.countP_map, ← hsame] at hcount
      rwa [decide_eq_true_eq, ← List.countP_eq_length_filter, List.countP_map]
  rw [fields, fieldValues?, if_pos hfit]

theorem fieldValues?_fields {fs : List (String × Json)} (h : (fs.map (·.1)).Nodup) :
    fieldValues? (fs.map (·.1)) (fields fs) = some (fs.map (fun f => some f.2)) := by
  rw [fieldValues?_names h, List.map_map]
  congr 1
  exact List.map_congr_left (fun f hf => lookup_fields h hf)

/-- the values of a record by its own names and the name of a field that is left out -/
theorem fieldValues?_missing {fs : List (String × Json)} (h : (fs.map (·.1)).Nodup)
    {name : String} (hname : name ∉ fs.map (·.1)) :
    fieldValues? (fs.map (·.1) ++ [name]) (fields fs) =
      some (fs.map (fun f => some f.2) ++ [none]) := by
  rw [fieldValues?_names h, List.map_append, List.map_map, List.map_singleton,
    lookup_missing hname]
  congr 2
  exact List.map_congr_left (fun f hf => lookup_fields h hf)

/-- **Records.**  The form is a list of named fields, and the value is built from what the fields
hold in their order. -/
theorem travels_record {α : Type} [Written α] [Readable α] {a : α} {fs : List (String × Json)}
    {build : List (Option Json) → Option α} (hjson : toJson a = fields fs)
    (hread : ∀ v, ofJson? v = (fieldValues? (fs.map (·.1)) v).bind build)
    (hnames : (fs.map (·.1)).Nodup) (hfaithful : ∀ f ∈ fs, Faithful f.2)
    (hbuild : build (fs.map (fun f => some f.2)) = some a) : Travels a := by
  refine ⟨?_, ?_⟩
  · rw [hjson]
    exact (faithful_fields fs).2 hfaithful
  · rw [hread, hjson, fieldValues?_fields hnames, Option.bind_some, hbuild]

/-- **Records** whose last field is left out. -/
theorem travels_record_missing {α : Type} [Written α] [Readable α] {a : α}
    {fs : List (String × Json)} (name : String) {build : List (Option Json) → Option α}
    (hjson : toJson a = fields fs)
    (hread : ∀ v, ofJson? v = (fieldValues? (fs.map (·.1) ++ [name]) v).bind build)
    (hnames : (fs.map (·.1)).Nodup) (hname : name ∉ fs.map (·.1))
    (hfaithful : ∀ f ∈ fs, Faithful f.2)
    (hbuild : build (fs.map (fun f => some f.2) ++ [none]) = some a) : Travels a := by
  refine ⟨?_, ?_⟩
  · rw [hjson]
    exact (faithful_fields fs).2 hfaithful
  · rw [hread, hjson, fieldValues?_missing hnames hname, Option.bind_some, hbuild]

theorem required_eq {α : Type} [Written α] [Readable α] {a : α} (h : Travels a) :
    required (some (toJson a)) = some a := h.decoded

theorem optional_eq {α : Type} [Written α] [Readable α] {a : α} (h : Travels a) (default : α) :
    optional default (some (toJson a)) = some a := h.decoded

theorem optional_missing {α : Type} [Readable α] (default : α) :
    optional default none = some default := rfl

/-! ### Lists, sets and maps -/

theorem mapM_map {α β : Type} {f : α → Option β} {g : β → α} {bs : List β}
    (h : ∀ b ∈ bs, f (g b) = some b) : (bs.map g).mapM f = some bs := by
  induction bs with
  | nil => rfl
  | cons b bs ih =>
    rw [List.map_cons, List.mapM_cons, h b List.mem_cons_self,
      ih (fun c hc => h c (List.mem_cons_of_mem b hc))]
    rfl

theorem travels_list {α : Type} [Written α] [Readable α] {as : List α} (h : ∀ a ∈ as, Travels a) :
    Travels as := by
  refine ⟨(faithfulItems_iff _).2 ?_, mapM_map (fun a ha => (h a ha).decoded)⟩
  intro v hv
  obtain ⟨a, ha, rfl⟩ := List.mem_map.1 hv
  exact (h a ha).faithful

theorem filter_contains {α : Type} [DecidableEq α] {ts us : List α} (h : ts.Sublist us)
    (hd : us.Nodup) : us.filter (fun t => ts.contains t) = ts := by
  induction h with
  | slnil => rfl
  | @cons ts us t h ih =>
    rw [List.nodup_cons] at hd
    have ht : t ∉ ts := fun hm => hd.1 (h.subset hm)
    rw [List.filter_cons, if_neg (by simpa using ht), ih hd.2]
  | @cons_cons ts us t h ih =>
    rw [List.nodup_cons] at hd
    have hrest : us.filter (fun u => (t :: ts).contains u) = us.filter (fun u => ts.contains u) := by
      refine List.filter_congr (fun u hu => ?_)
      have hne : u ≠ t := fun he => hd.1 (he ▸ hu)
      simp [hne]
    rw [List.filter_cons, if_pos (by simp), hrest, ih hd.2]

theorem travels_tagSet {α : Type} [Tag α] [LawfulTag α] (s : TagSet α) : Travels s := by
  have hlist : Travels s.members := travels_list (fun t _ => travels_tag t)
  have hset : TagSet.ofList s.members = s :=
    TagSet.ext (filter_contains s.inOrder LawfulTag.nodup)
  refine ⟨hlist.faithful, ?_⟩
  show ((ofJson? (toJson s.members) : Option (List α))).map TagSet.ofList = some s
  rw [hlist.decoded, Option.map_some, hset]

theorem insertEntry_last {V : Type} {k : String} {v : V} {es : List (String × V)}
    (h : ∀ e ∈ es, e.1 < k) : insertEntry k v es = es ++ [(k, v)] := by
  induction es with
  | nil => rfl
  | cons e es ih =>
    have he := h e List.mem_cons_self
    have hne : ¬ k = e.1 := by
      rintro rfl
      exact String.lt_irrefl _ he
    rw [insertEntry, if_neg (String.lt_asymm he), if_neg hne,
      ih (fun f hf => h f (List.mem_cons_of_mem e hf)), List.cons_append]

theorem entries_foldl {V : Type} {es : List (String × V)} {m : Keyed V}
    (h : Ascending (m.entries ++ es)) :
    (es.foldl (fun m e => m.insert e.1 e.2) m).entries = m.entries ++ es := by
  induction es generalizing m with
  | nil => simp
  | cons e es ih =>
    have hlast : (m.insert e.1 e.2).entries = m.entries ++ [e] := by
      rw [Keyed.entries_insert]
      refine insertEntry_last (fun f hf => ?_)
      exact (List.pairwise_append.1 h).2.2 f hf e List.mem_cons_self
    have hrest : Ascending ((m.insert e.1 e.2).entries ++ es) := by
      rw [hlast, List.append_assoc]
      exact h
    rw [List.foldl_cons, ih hrest, hlast, List.append_assoc]
    rfl

theorem ofList_entries {V : Type} (m : Keyed V) : Keyed.ofList m.entries = m :=
  Keyed.ext (entries_foldl (m := Keyed.empty) m.ascending)

theorem travels_keyed {α : Type} [Written α] [Readable α] {m : Keyed α}
    (h : ∀ e ∈ m.entries, Travels e.2) : Travels m := by
  have hentries : (m.entries.map (fun e => (some e.1, toJson e.2))).mapM
      ( entry? : Option String × Json → Option (String × α)) = some m.entries := by
    refine mapM_map (fun e he => ?_)
    simp [ entry?, (h e he).decoded]
  refine ⟨(faithful_fields _).2 ?_, ?_⟩
  · intro f hf
    obtain ⟨e, he, rfl⟩ := List.mem_map.1 hf
    exact (h e he).faithful
  · show (List.mapM entry? (List.map _ (List.map _ m.entries))).map Keyed.ofList = some m
    rw [List.map_map]
    exact (congrArg (Option.map Keyed.ofList) hentries).trans (congrArg some (ofList_entries m))

/-! ### The essence -/

theorem travels_core (c : CoreBehavior) : Travels c := by
  have h1 := travels_tag c.animation
  have h2 := travels_tagSet c.movements
  have h3 : Travels c.visual := travels_keyed (fun e _ => travels_bool e.2)
  have h4 : Travels c.mathematics := travels_keyed (fun e _ => travels_bool e.2)
  refine travels_record rfl (fun _ => rfl) ?_ ?_ ?_
  · simp
  · simp [h1.faithful, h2.faithful, h3.faithful, h4.faithful]
  · simp [required_eq h1, required_eq h2, required_eq h3, required_eq h4]

theorem travels_dna {d : CreativeDna Float} (h1 : ReadsBack d.energy) (h2 : ReadsBack d.complexity)
    (h3 : ReadsBack d.innovation) : Travels d := by
  have h1 := travels_float h1
  have h2 := travels_float h2
  have h3 := travels_float h3
  have h4 := travels_tag d.aesthetic
  have h5 := travels_tag d.emotion
  refine travels_record rfl (fun _ => rfl) ?_ ?_ ?_
  · simp
  · simp [h1.faithful, h2.faithful, h3.faithful, h4.faithful, h5.faithful]
  · simp [required_eq h1, required_eq h2, required_eq h3, required_eq h4, required_eq h5]

theorem travels_performance {p : Performance Float} (h1 : ReadsBack p.fps) : Travels p := by
  have h1 := travels_float h1
  have h2 := travels_tag p.memory
  have h3 := travels_tag p.cpu
  refine travels_record rfl (fun _ => rfl) ?_ ?_ ?_
  · simp
  · simp [h1.faithful, h2.faithful, h3.faithful]
  · simp [required_eq h1, required_eq h2, required_eq h3]

theorem travels_technical {t : TechnicalAspects Float} (h1 : ReadsBack t.performance.fps)
    (h2 : ReadsBack t.optimization) : Travels t := by
  have h1 := travels_performance h1
  have h2 := travels_float h2
  have h3 := travels_tagSet t.platforms
  refine travels_record rfl (fun _ => rfl) ?_ ?_ ?_
  · simp
  · simp [h1.faithful, h2.faithful, h3.faithful]
  · simp [required_eq h1, required_eq h2, required_eq h3]

theorem travels_receptivity {r : Receptivity Float} (h1 : ReadsBack r.flexibility)
    (h2 : ReadsBack r.receptivity) : Travels r := by
  have h1 := travels_float h1
  have h2 := travels_float h2
  refine travels_record rfl (fun _ => rfl) ?_ ?_ ?_
  · simp
  · simp [h1.faithful, h2.faithful]
  · simp [required_eq h1, required_eq h2]

theorem travels_essence {e : Essence Float} (hscores : ∀ n ∈ e.unitScores, ReadsBack n.2)
    (hfps : ReadsBack e.technical.performance.fps) : Travels e := by
  simp only [Essence.unitScores, List.forall_mem_cons] at hscores
  obtain ⟨henergy, hcomplexity, hinnovation, hoptimization, hflexibility, hreceptivity, -⟩ := hscores
  have h1 := travels_core e.core
  have h2 := travels_dna henergy hcomplexity hinnovation
  have h3 := travels_technical hfps hoptimization
  have h4 := travels_receptivity hflexibility hreceptivity
  refine travels_record rfl (fun _ => rfl) ?_ ?_ ?_
  · simp
  · simp [h1.faithful, h2.faithful, h3.faithful, h4.faithful]
  · simp [required_eq h1, required_eq h2, required_eq h3, required_eq h4]

/-! ### What the modules add -/

theorem travels_property {p : EnhancedProperty Float} (h1 : ReadsBack p.intensity)
    (h2 : ReadsBack p.aesthetic) (h3 : ReadsBack p.innovation) : Travels p := by
  have h1 := travels_float h1
  have h2 := travels_float h2
  have h3 := travels_float h3
  have h4 := travels_tag p.algorithm
  refine travels_record rfl (fun _ => rfl) ?_ ?_ ?_
  · simp
  · simp [h1.faithful, h2.faithful, h3.faithful, h4.faithful]
  · simp [required_eq h1, required_eq h2, required_eq h3, required_eq h4]

theorem travels_integration {m : Integration Float} (h1 : m.rank < twoTo 64)
    (h2 : ReadsBack m.weight) (h3 : ∀ e ∈ m.behavioral.entries, ReadsBack e.2)
    (h4 : ∀ e ∈ m.technical.entries, ReadsBack e.2) : Travels m := by
  have h1 := travels_nat h1
  have h2 := travels_float h2
  have h3 : Travels m.behavioral := travels_keyed (fun e he => travels_float (h3 e he))
  have h4 : Travels m.technical := travels_keyed (fun e he => travels_float (h4 e he))
  have h5 := travels_tag m.specialization
  have h6 := travels_tag m.algorithm
  refine travels_record rfl (fun _ => rfl) ?_ ?_ ?_
  · simp
  · simp [h1.faithful, h2.faithful, h3.faithful, h4.faithful, h5.faithful, h6.faithful]
  · simp [required_eq h1, required_eq h2, required_eq h3, required_eq h4, required_eq h5,
      required_eq h6]

theorem travels_evolution {e : Evolution Float} (h : ∀ n ∈ e.named, ReadsBack n.2) :
    Travels e := by
  simp only [Evolution.named, List.forall_mem_cons] at h
  obtain ⟨h1, h2, h3, h4, h5, -⟩ := h
  have h1 := travels_float h1
  have h2 := travels_float h2
  have h3 := travels_float h3
  have h4 := travels_float h4
  have h5 := travels_float h5
  refine travels_record rfl (fun _ => rfl) ?_ ?_ ?_
  · simp [Evolution.named]
  · simp [Evolution.named, h1.faithful, h2.faithful, h3.faithful, h4.faithful, h5.faithful]
  · simp [Evolution.named, required_eq h1, required_eq h2, required_eq h3, required_eq h4,
      required_eq h5]

end EffectFusion.Json
