import EffectFusion.Proofs.Session

/-!
# Fusions that overlap

Threads fuse at the same time with studios that share one history.  A fusion touches the history
twice, and each time in one indivisible step: it draws its id, and later it stores its record.
Between the two the other threads go on, so records need not be stored in the order in which their
ids were drawn, and an id that was drawn may never be used.

The moves of all threads are taken one after the other, in any order.  `Effect` says once what a
move can do; the rest is induction on the moves.

* `run_uninterrupted`   a thread that nobody interrupts does what `Studio.fuse` does;
* `mem_run_iff`         the events of a run are those of its moves;
* `get?_run_threads`    no move changes or removes a record;
* `origin_of_get?`      a record was there before, or one of the moves stored it.
-/

namespace EffectFusion

/-! ### Threads and their moves -/

/-- where a thread stands with the fusion that it was asked for -/
inductive Stage (ι : Type)
  | idle
  /-- all is done but the id -/
  | drafted (studio : ι) (draft : Draft)
  /-- the id is drawn and the record is not stored yet -/
  | named (id : String) (draft : Draft)

/-- one indivisible step -/
inductive Move (ι τ : Type)
  /-- an idle thread is asked for a fusion and makes the draft -/
  | start (thread : τ) (studio : ι) (source : List Char) (level : UInt8) (options : Options Float)
  /-- a thread draws the id of its draft, or stores the record if it has one -/
  | proceed (thread : τ)
  | nextId
  | insert (id : String) (record : Record)
  /-- another studio in the place of one -/
  | bind (studio : ι) (replacement : Studio)

/-- what a move gives back -/
inductive Event
  | drew (id : String)
  | returned (outcome : Except FusionError Artifact)
  | inserted (outcome : Except FusionError Unit)

/-- the ids drawn, in order -/
def draws (es : List Event) : List String :=
  es.filterMap fun
    | .drew id => some id
    | _ => none

theorem draws_append (es fs : List Event) : draws (es ++ fs) = draws es ++ draws fs :=
  List.filterMap_append

/-- studios with the history that they share, and where each thread stands -/
structure Threads (ι τ : Type) extends Session ι where
  stage : τ → Stage ι

namespace Stage

variable {ι : Type}

/-- the id that a thread has drawn and not used -/
def held? : Stage ι → Option String
  | .named id _ => some id
  | _ => none

def draft? : Stage ι → Option Draft
  | .idle => none
  | .drafted _ d | .named _ d => some d

end Stage

namespace Threads

variable {ι τ : Type}

/-- idle threads and a history without records -/
def fresh (studios : ι → Studio) : Threads ι τ := ⟨⟨studios, History.empty⟩, fun _ => .idle⟩

variable [DecidableEq ι] [DecidableEq τ]

def setStage (c : Threads ι τ) (t : τ) (g : Stage ι) : Threads ι τ :=
  { c with stage := Function.update c.stage t g }

def draw (c : Threads ι τ) (t : τ) (i : ι) (d : Draft) : Threads ι τ where
  studios := Function.update c.studios i ((c.studios i).afterId c.history)
  history := (c.studios i).historyAfterId c.history
  stage := Function.update c.stage t (.named ((c.studios i).nextId c.history) d)

def step (c : Threads ι τ) : Move ι τ → List Event × Threads ι τ
  | .start t i source level options =>
    match c.stage t with
    | .idle =>
      match (c.studios i).draft source level options with
      | .error e => ([.returned (.error e)], c)
      | .ok d => ([], c.setStage t (.drafted i d))
    | _ => ([], c)
  | .proceed t =>
    match c.stage t with
    | .idle => ([], c)
    | .drafted i d => ([.drew ((c.studios i).nextId c.history)], c.draw t i d)
    | .named id d =>
      match c.history.insert id (d.record id) with
      | .error e => ([.returned (.error e)], c.setStage t .idle)
      | .ok h => ([.returned (.ok (d.record id).artifact)], { c.setStage t .idle with history := h })
  | .nextId => ([.drew c.history.nextId.1], { c with history := c.history.nextId.2 })
  | .insert id record =>
    match c.history.insert id record with
    | .error e => ([.inserted (.error e)], c)
    | .ok h => ([.inserted (.ok ())], { c with history := h })
  | .bind i studio => ([], { c with studios := Function.update c.studios i studio })

def run (c : Threads ι τ) : List (Move ι τ) → List Event × Threads ι τ
  | [] => ([], c)
  | m :: ms => ((c.step m).1 ++ ((c.step m).2.run ms).1, ((c.step m).2.run ms).2)

omit [DecidableEq ι] in
theorem stage_setStage (c : Threads ι τ) (t u : τ) (g : Stage ι) :
    (c.setStage t g).stage u = if u = t then g else c.stage u := Function.update_apply _ _ _ _

theorem stage_draw (c : Threads ι τ) (t u : τ) (i : ι) (d : Draft) :
    (c.draw t i d).stage u =
      if u = t then .named ((c.studios i).nextId c.history) d else c.stage u :=
  Function.update_apply _ _ _ _

/-! ### What a move does -/

def store (c : Threads ι τ) (id : String) (record : Record) : Threads ι τ :=
  { c with history := { c.history with records := c.history.records.insert id record } }

/-- what a move can do -/
inductive Effect (c : Threads ι τ) : Move ι τ → List Event → Threads ι τ → Prop
  | busy {t : τ} {i : ι} {source : List Char} {level : UInt8} {options : Options Float} :
      c.stage t ≠ .idle → Effect c (.start t i source level options) [] c
  | refused {t : τ} {i : ι} {source : List Char} {level : UInt8} {options : Options Float}
      {e : FusionError} : c.stage t = .idle →
      (c.studios i).draft source level options = .error e →
      Effect c (.start t i source level options) [.returned (.error e)] c
  | drafted {t : τ} {i : ι} {source : List Char} {level : UInt8} {options : Options Float}
      {d : Draft} : c.stage t = .idle → (c.studios i).draft source level options = .ok d →
      Effect c (.start t i source level options) [] (c.setStage t (.drafted i d))
  | resting {t : τ} : c.stage t = .idle → Effect c (.proceed t) [] c
  | drew {t : τ} {i : ι} {d : Draft} : c.stage t = .drafted i d →
      Effect c (.proceed t) [.drew ((c.studios i).nextId c.history)] (c.draw t i d)
  | taken {t : τ} {id : String} {d : Draft} : c.stage t = .named id d →
      c.history.records.contains id = true →
      Effect c (.proceed t) [.returned (.error (.duplicateId id))] (c.setStage t .idle)
  | stored {t : τ} {id : String} {d : Draft} : c.stage t = .named id d →
      c.history.records.contains id = false →
      Effect c (.proceed t) [.returned (.ok (d.record id).artifact)]
        ((c.setStage t .idle).store id (d.record id))
  | skipped : Effect c .nextId [.drew c.history.nextId.1] { c with history := c.history.nextId.2 }
  | rejected {id : String} {record : Record} : c.history.records.contains id = true →
      Effect c (.insert id record) [.inserted (.error (.duplicateId id))] c
  | inserted {id : String} {record : Record} : c.history.records.contains id = false →
      Effect c (.insert id record) [.inserted (.ok ())] (c.store id record)
  | bound (i : ι) (studio : Studio) :
      Effect c (.bind i studio) [] { c with studios := Function.update c.studios i studio }

theorem step_drafted {c : Threads ι τ} {t : τ} {i : ι} {source : List Char} {level : UInt8}
    {options : Options Float} {d : Draft} (ht : c.stage t = .idle)
    (hd : (c.studios i).draft source level options = .ok d) :
    c.step (.start t i source level options) = ([], c.setStage t (.drafted i d)) := by
  simp only [step, ht, hd]

theorem step_drew {c : Threads ι τ} {t : τ} {i : ι} {d : Draft} (ht : c.stage t = .drafted i d) :
    c.step (.proceed t) = ([.drew ((c.studios i).nextId c.history)], c.draw t i d) := by
  simp only [step, ht]

theorem step_taken {c : Threads ι τ} {t : τ} {id : String} {d : Draft}
    (ht : c.stage t = .named id d) (hc : c.history.records.contains id = true) :
    c.step (.proceed t) = ([.returned (.error (.duplicateId id))], c.setStage t .idle) := by
  simp only [step, ht, History.insert_taken hc]

theorem step_stored {c : Threads ι τ} {t : τ} {id : String} {d : Draft}
    (ht : c.stage t = .named id d) (hc : c.history.records.contains id = false) :
    c.step (.proceed t) = ([.returned (.ok (d.record id).artifact)],
      (c.setStage t .idle).store id (d.record id)) := by
  simp only [step, ht, History.insert_free hc]
  rfl

theorem effect_step (c : Threads ι τ) (m : Move ι τ) : Effect c m (c.step m).1 (c.step m).2 := by
  cases m with
  | start t i source level options =>
    cases ht : c.stage t with
    | idle =>
      cases hd : (c.studios i).draft source level options with
      | error e =>
        simp only [step, ht, hd]
        exact .refused ht hd
      | ok d =>
        rw [step_drafted ht hd]
        exact .drafted ht hd
    | drafted | named =>
      simp only [step, ht]
      exact .busy (by simp [ht])
  | proceed t =>
    cases ht : c.stage t with
    | idle =>
      simp only [step, ht]
      exact .resting ht
    | drafted i d =>
      rw [step_drew ht]
      exact .drew ht
    | named id d =>
      cases hc : c.history.records.contains id with
      | true =>
        rw [step_taken ht hc]
        exact .taken ht hc
      | false =>
        rw [step_stored ht hc]
        exact .stored ht hc
  | nextId => exact .skipped
  | insert id record =>
    cases hc : c.history.records.contains id with
    | true =>
      simp only [step, History.insert_taken hc]
      exact .rejected hc
    | false =>
      simp only [step, History.insert_free hc]
      exact .inserted hc
  | bind i studio => exact .bound i studio

theorem records_draw (c : Threads ι τ) (t : τ) (i : ι) (d : Draft) :
    (c.draw t i d).history.records = c.history.records := (c.studios i).records_drawId c.history

variable {c c' : Threads ι τ} {m : Move ι τ} {es : List Event} {id : String} {record : Record}

/-- the records stay, or there is one more under an id that was free -/
theorem Effect.records_cases (h : Effect c m es c') :
    c'.history.records = c.history.records ∨
    ∃ id record, c.history.records.contains id = false ∧
      c'.history.records = c.history.records.insert id record ∧
      (m = .insert id record ∨ ∃ t d, c.stage t = .named id d ∧ record = d.record id ∧
        es = [.returned (.ok record.artifact)]) := by
  cases h with
  | busy | refused | drafted | resting | taken | skipped | rejected | bound => exact Or.inl rfl
  | drew => exact Or.inl (records_draw _ _ _ _)
  | stored ht hfree => exact Or.inr ⟨_, _, hfree, rfl, Or.inr ⟨_, _, ht, rfl, rfl⟩⟩
  | inserted hfree => exact Or.inr ⟨_, _, hfree, rfl, Or.inl rfl⟩

theorem Effect.get? (h : Effect c m es c') (hget : c.history.get? id = some record) :
    c'.history.get? id = some record := by
  unfold History.get? at hget ⊢
  rcases h.records_cases with hsame | ⟨id', record', hfree, hone, -⟩
  · rw [hsame, hget]
  · rw [hone]
    exact Keyed.get?_insert_of_free hfree record' hget

/-- a fusion that comes back has a thread that held its id, and its record is stored -/
theorem Effect.returned (h : Effect c m es c') {a : Artifact} (ha : .returned (.ok a) ∈ es) :
    ∃ t d, c.stage t = .named a.id d ∧ a = (d.record a.id).artifact ∧
      c'.history.get? a.id = some (d.record a.id) := by
  cases h with
  | stored ht hfree =>
    cases List.mem_singleton.1 ha
    exact ⟨_, _, ht, rfl, Keyed.get?_insert_self c.history.records _ _⟩
  | busy | drafted | resting | bound => cases ha
  | refused | drew | taken | skipped | rejected | inserted => cases List.mem_singleton.1 ha

/-! ### Runs -/

theorem run_append (c : Threads ι τ) (ms ns : List (Move ι τ)) :
    c.run (ms ++ ns) = ((c.run ms).1 ++ ((c.run ms).2.run ns).1, ((c.run ms).2.run ns).2) := by
  induction ms generalizing c with
  | nil => rfl
  | cons m ms ih =>
    rw [List.cons_append, run, ih, run, List.append_assoc]

theorem mem_run_iff (c : Threads ι τ) {ms : List (Move ι τ)} {e : Event} :
    e ∈ (c.run ms).1 ↔
      ∃ before m after, ms = before ++ m :: after ∧ e ∈ ((c.run before).2.step m).1 := by
  constructor
  · intro h
    induction ms generalizing c with
    | nil => cases h
    | cons m ms ih =>
      rcases List.mem_append.1 h with h | h
      · exact ⟨[], m, ms, rfl, h⟩
      · obtain ⟨before, m', after, rfl, he⟩ := ih (c.step m).2 h
        exact ⟨m :: before, m', after, rfl, he⟩
  · rintro ⟨before, m, after, rfl, he⟩
    rw [run_append]
    exact List.mem_append_right _ (List.mem_append_left _ he)

theorem get?_run_threads (c : Threads ι τ) (ms : List (Move ι τ))
    (h : c.history.get? id = some record) : (c.run ms).2.history.get? id = some record := by
  induction ms generalizing c with
  | nil => exact h
  | cons m ms ih => exact ih (c.step m).2 ((c.effect_step m).get? h)

/-- a fusion that came back had a thread that held its id, and is found under it ever after -/
theorem returned_run (c : Threads ι τ) {ms : List (Move ι τ)} {a : Artifact}
    (h : .returned (.ok a) ∈ (c.run ms).1) :
    ∃ before m after, ms = before ++ m :: after ∧
      ∃ t d, (c.run before).2.stage t = .named a.id d ∧ a = (d.record a.id).artifact ∧
        (c.run ms).2.history.get? a.id = some (d.record a.id) := by
  obtain ⟨before, m, after, rfl, he⟩ := c.mem_run_iff.1 h
  obtain ⟨t, d, hstage, hartifact, hget⟩ := (effect_step _ m).returned he
  refine ⟨before, m, after, rfl, t, d, hstage, hartifact, ?_⟩
  rw [run_append]
  exact get?_run_threads _ after hget

/-- a record was there before, or a move stored it -/
theorem origin_of_get? (c : Threads ι τ) {ms : List (Move ι τ)}
    (h : (c.run ms).2.history.get? id = some record) :
    c.history.get? id = some record ∨ .insert id record ∈ ms ∨
    ∃ before m after, ms = before ++ m :: after ∧
      ∃ t d, (c.run before).2.stage t = .named id d ∧ record = d.record id ∧
        ((c.run before).2.step m).1 = [.returned (.ok record.artifact)] := by
  induction ms generalizing c with
  | nil => exact Or.inl h
  | cons m ms ih =>
    rcases ih (c.step m).2 h with hbefore | hmem | ⟨before, m', after, rfl, horigin⟩
    · unfold History.get? at hbefore
      rcases (c.effect_step m).records_cases with hsame | ⟨id', record', -, hone, hnew⟩
      · rw [hsame] at hbefore
        exact Or.inl hbefore
      · rw [hone, Keyed.get?_insert] at hbefore
        split at hbefore
        · rename_i heq
          obtain rfl := heq
          obtain rfl := Option.some.inj hbefore
          rcases hnew with rfl | ⟨t, d, hstage, hrecord, hevents⟩
          · exact Or.inr (Or.inl List.mem_cons_self)
          · exact Or.inr (Or.inr ⟨[], m, ms, rfl, t, d, hstage, hrecord, hevents⟩)
        · exact Or.inl hbefore
    · exact Or.inr (Or.inl (List.mem_cons_of_mem m hmem))
    · exact Or.inr (Or.inr ⟨m :: before, m', after, rfl, horigin⟩)

/-- a thread that nobody interrupts does what `Studio.fuse` does -/
theorem run_uninterrupted (c : Threads ι τ) {t : τ} (ht : c.stage t = .idle) (i : ι)
    (source : List Char) (level : UInt8) (options : Options Float) :
    let (outcome, studio, history) := (c.studios i).fuse c.history source level options
    let after := c.run [.start t i source level options, .proceed t, .proceed t]
    .returned outcome ∈ after.1 ∧
      after.2 = ⟨⟨Function.update c.studios i studio, history⟩, c.stage⟩ := by
  have hidle : ∀ g g' : Stage ι,
      Function.update (Function.update (Function.update c.stage t g) t g') t .idle = c.stage := by
    intro g g'
    rw [Function.update_idem, Function.update_idem, ← ht, Function.update_eq_self]
  have hdraft : ∀ d : Draft, (c.setStage t (.drafted i d)).stage t = .drafted i d := by
    intro d
    rw [stage_setStage, if_pos rfl]
  have hnamed : ∀ d, ((c.setStage t (.drafted i d)).draw t i d).stage t =
      .named ((c.studios i).nextId c.history) d := by
    intro d
    rw [stage_draw, if_pos rfl]
    rfl
  have hrecords : ∀ d, ((c.setStage t (.drafted i d)).draw t i d).history.records =
      c.history.records := fun d => records_draw _ t i d
  rcases (c.studios i).fuse_cases c.history source level options with
    ⟨e, hd, hf⟩ | ⟨d, hd, hc, hf⟩ | ⟨d, hd, hc, hf⟩
  · have hrefused : c.step (.start t i source level options) = ([.returned (.error e)], c) := by
      simp only [step, ht, hd]
    have hrest : c.step (.proceed t) = ([], c) := by simp only [step, ht]
    rw [hf]
    simp only [run, hrefused, hrest, Function.update_eq_self]
    exact ⟨List.mem_cons_self, trivial⟩
  · rw [hf]
    rw [← hrecords d] at hc
    simp only [run, step_drafted ht hd, step_drew (hdraft d), step_taken (hnamed d) hc]
    refine ⟨by simp, ?_⟩
    simp only [setStage, draw, hidle]
  · rw [hf]
    rw [← hrecords d] at hc
    simp only [run, step_drafted ht hd, step_drew (hdraft d), step_stored (hnamed d) hc]
    refine ⟨by simp, ?_⟩
    show Threads.mk ⟨_, { (c.studios i).historyAfterId c.history with
      records := (((c.setStage t (.drafted i d)).draw t i d).history.records.insert _ _) }⟩ _ = _
    rw [hrecords d]
    simp only [setStage, draw, hidle]

end Threads

end EffectFusion
