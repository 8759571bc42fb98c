import EffectFusion.Proofs.Keyed
import EffectFusion.Studio

/-!
# Studios that share a history

A session is any number of studios that write to one history, and what they are asked for one
request after the other.  A studio may be replaced between requests, which is also how a moderator
that remembers earlier calls is described: for each call by the function that it then is.

One request leaves the records as they are or adds one under a free id (`step_cases`).  All else is
induction on the requests.

* `fuse_cases`            what a fusion does to its studio and the history;
* `get?_run`              no request changes or removes a record;
* `size_run`              there are as many records as requests that stored one;
* `fused_readable`        a finished fusion is found under its id;
* `history_append_only`   all of it together, with what a failure leaves untouched.
-/

namespace EffectFusion

/-! ### One fusion -/

namespace Studio

variable (s : Studio) (h : History) (source : List Char) (level : UInt8) (options : Options Float)

theorem records_drawId : (s.drawId h).2.2.records = h.records := by
  unfold drawId
  cases s.ids <;> rfl

def nextId : String := (s.drawId h).1

/-- the studio after it has drawn an id -/
def afterId : Studio := (s.drawId h).2.1

/-- the history after the studio has drawn an id -/
def historyAfterId : History := (s.drawId h).2.2

/-- a fusion fails before it draws an id, or finds its id taken, or stores its record -/
theorem fuse_cases :
    (∃ e, s.draft source level options = .error e ∧
      s.fuse h source level options = (.error e, s, h)) ∨
    (∃ d, s.draft source level options = .ok d ∧ h.records.contains (s.nextId h) = true ∧
      s.fuse h source level options =
        (.error (.duplicateId (s.nextId h)), s.afterId h, s.historyAfterId h)) ∨
    (∃ d, s.draft source level options = .ok d ∧ h.records.contains (s.nextId h) = false ∧
      s.fuse h source level options =
        (.ok (d.record (s.nextId h)).artifact, s.afterId h,
          { s.historyAfterId h with
            records := h.records.insert (s.nextId h) (d.record (s.nextId h)) })) := by
  have hrecords := s.records_drawId h
  cases hd : s.draft source level options with
  | error e => exact Or.inl ⟨e, rfl, fuse_of_draft_error s h source level options e hd⟩
  | ok d =>
    simp only [fuse, hd, nextId, afterId, historyAfterId]
    rcases hdraw : s.drawId h with ⟨id, s', h'⟩
    rw [hdraw] at hrecords
    have hsame : h'.records = h.records := hrecords
    rw [← hsame]
    cases hc : h'.records.contains id with
    | true =>
      rw [History.insert_taken hc]
      exact Or.inr (Or.inl ⟨d, rfl, rfl, rfl⟩)
    | false =>
      rw [History.insert_free hc]
      exact Or.inr (Or.inr ⟨d, rfl, rfl, rfl⟩)

end Studio

/-! ### Requests -/

inductive Request (ι : Type)
  | fuse (studio : ι) (source : List Char) (level : UInt8) (options : Options Float)
  | insert (id : String) (record : Record)
  | nextId
  /-- another studio in the place of one -/
  | bind (studio : ι) (replacement : Studio)

inductive Answer
  | fused (outcome : Except FusionError Artifact)
  | inserted (outcome : Except FusionError Unit)
  | drew (id : String)
  | bound

namespace Answer

def stored : Answer → Bool
  | .fused (.ok _) | .inserted (.ok _) => true
  | _ => false

def failed : Answer → Bool
  | .fused (.error _) | .inserted (.error _) => true
  | _ => false

theorem not_stored_of_failed {a : Answer} (h : a.failed = true) : a.stored = false := by
  match a, h with
  | .fused (.error _), _ => rfl
  | .inserted (.error _), _ => rfl

end Answer

/-- studios and the history that they share -/
structure Session (ι : Type) where
  studios : ι → Studio
  history : History

namespace Session

variable {ι : Type} [DecidableEq ι]

def step (s : Session ι) : Request ι → Answer × Session ι
  | .fuse i source level options =>
    let (outcome, studio, history) := (s.studios i).fuse s.history source level options
    (.fused outcome, ⟨Function.update s.studios i studio, history⟩)
  | .insert id record =>
    match s.history.insert id record with
    | .error e => (.inserted (.error e), s)
    | .ok history => (.inserted (.ok ()), { s with history := history })
  | .nextId => (.drew s.history.nextId.1, { s with history := s.history.nextId.2 })
  | .bind i studio => (.bound, { s with studios := Function.update s.studios i studio })

def run (s : Session ι) : List (Request ι) → List Answer × Session ι
  | [] => ([], s)
  | r :: rs => ((s.step r).1 :: ((s.step r).2.run rs).1, ((s.step r).2.run rs).2)

/-! ### What one request does -/

/-- the records stay, or there is one more under an id that was free -/
theorem step_cases (s : Session ι) (r : Request ι) :
    ((s.step r).1.stored = false ∧ (s.step r).2.history.records = s.history.records) ∨
    ∃ id record, (s.step r).1.stored = true ∧ s.history.records.contains id = false ∧
      (s.step r).2.history.records = s.history.records.insert id record ∧
      ∀ a, (s.step r).1 = .fused (.ok a) → a.id = id ∧ a = record.artifact := by
  cases r with
  | fuse i source level options =>
    have hcases := (s.studios i).fuse_cases s.history source level options
    simp only [step]
    rcases hcases with ⟨e, -, hf⟩ | ⟨d, -, -, hf⟩ | ⟨d, -, hfree, hf⟩
    · rw [hf]
      exact Or.inl ⟨rfl, rfl⟩
    · rw [hf]
      exact Or.inl ⟨rfl, (s.studios i).records_drawId s.history⟩
    · rw [hf]
      refine Or.inr ⟨_, d.record _, rfl, hfree, rfl, fun a ha => ?_⟩
      injection ha with ha
      injection ha with ha
      rw [← ha]
      exact ⟨rfl, rfl⟩
  | insert id record =>
    cases hc : s.history.records.contains id with
    | true =>
      rw [step, History.insert_taken hc]
      exact Or.inl ⟨rfl, rfl⟩
    | false =>
      rw [step, History.insert_free hc]
      exact Or.inr ⟨id, record, rfl, hc, rfl, fun a ha => by cases ha⟩
  | nextId => exact Or.inl ⟨rfl, rfl⟩
  | bind i studio => exact Or.inl ⟨rfl, rfl⟩

theorem get?_step (s : Session ι) (r : Request ι) {id : String} {record : Record}
    (h : s.history.get? id = some record) : (s.step r).2.history.get? id = some record := by
  unfold History.get? at h ⊢
  rcases s.step_cases r with ⟨-, hsame⟩ | ⟨id', record', -, hfree, hone, -⟩
  · rw [hsame, h]
  · rw [hone]
    exact Keyed.get?_insert_of_free hfree record' h

theorem size_step (s : Session ι) (r : Request ι) :
    (s.step r).2.history.size = s.history.size + if (s.step r).1.stored then 1 else 0 := by
  unfold History.size
  rcases s.step_cases r with ⟨hnot, hsame⟩ | ⟨id, record, hstored, hfree, hone, -⟩
  · rw [hnot, hsame]
    rfl
  · rw [hstored, hone, Keyed.size_insert hfree]
    rfl

theorem fused_step (s : Session ι) (r : Request ι) {a : Artifact}
    (h : (s.step r).1 = .fused (.ok a)) :
    ((s.step r).2.history.get? a.id).map (·.artifact) = some a := by
  unfold History.get?
  rcases s.step_cases r with ⟨hnot, -⟩ | ⟨id, record, -, -, hone, hartifact⟩
  · rw [h] at hnot
    cases hnot
  · obtain ⟨hid, ha⟩ := hartifact a h
    rw [hone, hid, Keyed.get?_insert_self, Option.map_some, ha]

theorem records_step_of_failed (s : Session ι) (r : Request ι) (h : (s.step r).1.failed = true) :
    (s.step r).2.history.records = s.history.records := by
  rcases s.step_cases r with ⟨-, hsame⟩ | ⟨id, record, hstored, -⟩
  · exact hsame
  · rw [Answer.not_stored_of_failed h] at hstored
    cases hstored

/-- a fusion that fails for another reason than its id has not drawn one -/
theorem step_of_fuse_error (s : Session ι) (i : ι) (source : List Char) (level : UInt8)
    (options : Options Float) {e : FusionError}
    (h : (s.step (.fuse i source level options)).1 = .fused (.error e))
    (he : ∀ id, e ≠ .duplicateId id) : (s.step (.fuse i source level options)).2 = s := by
  have hcases := (s.studios i).fuse_cases s.history source level options
  simp only [step] at h ⊢
  rcases hcases with ⟨e', -, hf⟩ | ⟨d, -, -, hf⟩ | ⟨d, -, -, hf⟩
  · rw [hf, Function.update_eq_self]
  · rw [hf] at h
    injection h with h
    injection h with h
    exact absurd h.symm (he _)
  · rw [hf] at h
    injection h with h
    cases h

/-! ### What all requests do -/

theorem get?_run (s : Session ι) (rs : List (Request ι)) {id : String} {record : Record}
    (h : s.history.get? id = some record) : (s.run rs).2.history.get? id = some record := by
  induction rs generalizing s with
  | nil => exact h
  | cons r rs ih => exact ih (s.step r).2 (s.get?_step r h)

theorem size_run (s : Session ι) (rs : List (Request ι)) :
    (s.run rs).2.history.size = s.history.size + (s.run rs).1.countP Answer.stored := by
  induction rs generalizing s with
  | nil => rfl
  | cons r rs ih =>
    have hstep := s.size_step r
    have hrest := ih (s.step r).2
    show ((s.step r).2.run rs).2.history.size = _
    rw [run, List.countP_cons]
    omega

theorem fused_readable (s : Session ι) (rs : List (Request ι)) {a : Artifact}
    (h : .fused (.ok a) ∈ (s.run rs).1) :
    ((s.run rs).2.history.get? a.id).map (·.artifact) = some a := by
  induction rs generalizing s with
  | nil => cases h
  | cons r rs ih =>
    rcases List.mem_cons.1 h with h | h
    · obtain ⟨record, hget, hrecord⟩ := Option.map_eq_some_iff.1 (s.fused_step r h.symm)
      have hkept := (s.step r).2.get?_run rs hget
      rw [run, hkept, Option.map_some, hrecord]
    · exact ih (s.step r).2 h

/-- **A history only grows.**  Through all requests a stored record stays what it is, there are as
many new records as requests that stored one, and a finished fusion is found under its own id.  A
request that fails leaves the records as they are, and a fusion that fails for another reason than
its id leaves the sequence of the history and all generators where they were. -/
theorem history_append_only (s : Session ι) (rs : List (Request ι)) :
    (∀ id record, s.history.get? id = some record →
      (s.run rs).2.history.get? id = some record) ∧
    (∀ r, ((s.run rs).2.step r).1.failed = true →
      ((s.run rs).2.step r).2.history.records = (s.run rs).2.history.records) ∧
    (∀ i source level options e,
      ((s.run rs).2.step (.fuse i source level options)).1 = .fused (.error e) →
      (∀ id, e ≠ .duplicateId id) →
      ((s.run rs).2.step (.fuse i source level options)).2 = (s.run rs).2) ∧
    (s.run rs).2.history.size = s.history.size + (s.run rs).1.countP Answer.stored ∧
    ∀ a, .fused (.ok a) ∈ (s.run rs).1 →
      ((s.run rs).2.history.get? a.id).map (·.artifact) = some a :=
  ⟨fun _ _ => s.get?_run rs, (s.run rs).2.records_step_of_failed,
    fun i source level options _ => (s.run rs).2.step_of_fuse_error i source level options,
    s.size_run rs, fun _ => s.fused_readable rs⟩

end Session

end EffectFusion
