import PathAcl.Proofs.Engine.Failures
import PathAcl.Proofs.Memory.Prolongations

/-! # Prolongations along a run
Prolongations and rows share a table and nothing else: whatever is granted, dropped or moved, the
prolongation that holds for a path is the one that was asked for last, of the path or else of the nearest
ancestor that ever had one. -/

namespace PathAcl

/-- A prolongation **spans its days**: there are some, and it ends so many days of 86400 seconds after it
was asked for, to the nanosecond. A leap second is not carried to the other day. -/
structure Prolongation.SpansDays (p : Prolongation) : Prop where
  some_days : 0 < p.days
  seconds : p.prolongedUntil.seconds = p.updated.seconds + p.days.toNat * secondsPerDay
  nanos : p.prolongedUntil.nanos = p.updated.nanos % 1000000000

namespace Engine

open Memory
open PathAcl.Action (Along)

variable {catalog : Catalog} {maxBatch : Nat} {s : EngineState Memory}

/-! ## What a prolongation writes -/

section Batch

variable {now till : Instant} {storage : StorageRef} {paths normals : List String} {userId : String}
  {days : UInt32}

/-- Of the records of a batch, each path has one. -/
theorem find?_reverse_recordsOf (path : String) :
    (recordsOf now storage userId days normals till).reverse.find? (fun p => p.path = path) =
      if path ∈ normals then some ⟨storage.id, path, userId, till, days, now⟩ else none := by
  by_cases asked : path ∈ normals
  · rw [if_pos asked]
    cases found : (recordsOf now storage userId days normals till).reverse.find?
        (fun p => p.path = path) with
    | none =>
        have all := List.find?_eq_none.1 found ⟨storage.id, path, userId, till, days, now⟩
          (List.mem_reverse.2 (List.mem_map_of_mem asked))
        exact absurd (decide_eq_true rfl) all
    | some p =>
        obtain ⟨q, -, rfl⟩ := List.mem_map.1 (List.mem_reverse.1 (List.mem_of_find?_eq_some found))
        have same := List.find?_some found
        obtain rfl : q = path := of_decide_eq_true same
        rfl
  · rw [if_neg asked, List.find?_eq_none]
    intro p hp same
    obtain ⟨q, hq, rfl⟩ := List.mem_map.1 (List.mem_reverse.1 hp)
    exact asked (of_decide_eq_true same ▸ hq)

/-- A batch that goes through gives each of its paths the record, and leaves those of all other paths. -/
theorem Prolongs.record?_after
    (h : Prolongs catalog maxBatch s now storage paths userId days normals till) (i : StorageId)
    (path : String) :
    (((engine catalog maxBatch).prolong now storage paths userId days).run s).state.store.record? i path =
      if i = storage.id ∧ path ∈ normals then some ⟨storage.id, path, userId, till, days, now⟩
      else s.store.record? i path := by
  obtain ⟨-, m, made, left⟩ := h.run
  rw [left, record?_of_prolong made, find?_reverse_recordsOf]
  by_cases here : i = storage.id
  · by_cases asked : path ∈ normals
    · rw [if_pos here, if_pos asked, if_pos ⟨here, asked⟩]
      rfl
    · rw [if_pos here, if_neg asked, if_neg fun both => asked both.2]
      rfl
  · rw [if_neg here, if_neg fun both => here both.1]

/-- **A batch goes through or leaves the table.** -/
theorem prolongs_or_stays (now : Instant) (storage : StorageRef) (paths : List String)
    (userId : String) (days : UInt32) :
    (∃ normals till, Prolongs catalog maxBatch s now storage paths userId days normals till) ∨
      (((engine catalog maxBatch).prolong now storage paths userId days).run s).state.store = s.store := by
  cases answered : (((engine catalog maxBatch).prolong now storage paths userId days).run s).answer with
  | error e => exact .inr (atomic_prolong now storage paths userId days s e answered)
  | ok written => exact .inl (prolongs_of_answer answered)

/-- A path that no batch that goes through names keeps its record. -/
theorem record?_prolong_of_not_mem {i : StorageId} {path : String}
    (other : ∀ normals till, Prolongs catalog maxBatch s now storage paths userId days normals till →
      i = storage.id → path ∉ normals) :
    (((engine catalog maxBatch).prolong now storage paths userId days).run s).state.store.record? i path =
      s.store.record? i path := by
  rcases @prolongs_or_stays catalog maxBatch s now storage paths userId days with
    ⟨normals, till, through⟩ | stays
  · rw [through.record?_after, if_neg]
    rintro ⟨here, asked⟩
    exact other normals till through here asked
  · rw [stays]

end Batch

/-! ## Turns -/

/-- Whether a turn asks to prolong something. -/
def Turn.prolongs : Turn → Bool
  | .call (.prolong ..) | .call (.prolongOne ..) => true
  | _ => false

/-- A turn **records** a prolongation if it asks to prolong paths and is answered: the record is of the
normal form of one of them, and says who asked, when and for how many days. -/
inductive Records {σ : Type} (e : Engine σ) (s : EngineState σ) : Turn → Prolongation → Prop
  | batch {now till : Instant} {storage : StorageRef} {paths : List String} {userId : String}
      {days : UInt32} {written : List Prolongation} {text path : String}
      (answered : ((e.prolong now storage paths userId days).run s).answer = .ok written)
      (asked : text ∈ paths) (normal : Path.normalize text = .ok path)
      (reached : now.addDays? days.toNat = some till) :
      Records e s (.call (.prolong now storage paths userId days))
        ⟨storage.id, path, userId, till, days, now⟩
  | one {now till : Instant} {storage : StorageRef} {userId : String} {days : UInt32}
      {written : Prolongation} {text path : String}
      (answered : ((e.prolongOne now storage text userId days).run s).answer = .ok written)
      (normal : Path.normalize text = .ok path) (reached : now.addDays? days.toNat = some till) :
      Records e s (.call (.prolongOne now storage text userId days))
        ⟨storage.id, path, userId, till, days, now⟩

/-- Prolonging one path is answered just if prolonging it as a batch is. -/
theorem exists_answer_prolongOne_iff {now : Instant} {storage : StorageRef} {path userId : String}
    {days : UInt32} :
    (∃ p, (((engine catalog maxBatch).prolongOne now storage path userId days).run s).answer = .ok p) ↔
      ∃ written, (((engine catalog maxBatch).prolong now storage [path] userId days).run s).answer =
        .ok written := by
  rw [prolongOne]
  constructor
  · rintro ⟨p, answered⟩
    obtain ⟨written, first, -⟩ := Action.answer_bind_eq_ok_iff.1 answered
    exact ⟨written, first⟩
  · rintro ⟨written, answered⟩
    obtain ⟨p, rfl⟩ := prolong_singleton answered
    exact ⟨p, Action.answer_bind_eq_ok_iff.2 ⟨[p], answered, rfl⟩⟩

/-- A recorded prolongation comes from a batch that went through, and the turn leaves what the batch
leaves. -/
theorem Records.exists_prolongs {turn : Turn} {p : Prolongation}
    (h : (engine catalog maxBatch).Records s turn p) :
    ∃ (storage : StorageRef) (paths normals : List String),
      Prolongs catalog maxBatch s p.updated storage paths p.userId p.days normals p.prolongedUntil ∧
      p.storageId = storage.id ∧ p.path ∈ normals ∧
      (engine catalog maxBatch).after s turn =
        (((engine catalog maxBatch).prolong p.updated storage paths p.userId p.days).run s).state := by
  cases h with
  | batch answered asked normal reached =>
      obtain ⟨normals, till, through⟩ := prolongs_of_answer answered
      obtain rfl := Option.some.inj (reached.symm.trans through.reached)
      exact ⟨_, _, normals, through, rfl, through.mem_normals_iff.2 ⟨_, asked, normal⟩, rfl⟩
  | one answered normal reached =>
      obtain ⟨written, batch⟩ := exists_answer_prolongOne_iff.1 ⟨_, answered⟩
      obtain ⟨normals, till, through⟩ := prolongs_of_answer batch
      obtain rfl := Option.some.inj (reached.symm.trans through.reached)
      have asked := through.mem_normals_iff.2 ⟨_, List.mem_singleton_self _, normal⟩
      exact ⟨_, _, normals, through, rfl, asked, state_prolongOne _ _ _ _ _⟩

/-- **A recorded prolongation is kept** for its path. -/
theorem Records.record?_after {turn : Turn} {p : Prolongation}
    (h : (engine catalog maxBatch).Records s turn p) :
    ((engine catalog maxBatch).after s turn).store.record? p.storageId p.path = some p := by
  obtain ⟨storage, paths, normals, through, here, asked, left⟩ := h.exists_prolongs
  rw [left, through.record?_after, if_pos ⟨here, asked⟩, ← here]

/-- It spans its days. -/
theorem Records.spansDays {turn : Turn} {p : Prolongation}
    (h : (engine catalog maxBatch).Records s turn p) : p.SpansDays := by
  obtain ⟨storage, paths, normals, through, -⟩ := h.exists_prolongs
  have some_days : 0 < p.days := UInt32.pos_iff_ne_zero.2 through.some_days
  obtain ⟨seconds, nanos⟩ := (Instant.addDays?_eq_some_iff (UInt32.lt_iff_toNat_lt.1 some_days)).1
    through.reached
  exact ⟨some_days, seconds, nanos⟩

/-! ## Turns that prolong nothing -/

/-- An engine keeps the prolongations. -/
def KeepsProlonged (s t : EngineState Memory) : Prop := t.store.prolonged = s.store.prolonged

instance : IsPreorder (EngineState Memory) KeepsProlonged where
  refl _ := rfl
  trans _ _ _ hst htu := htu.trans hst

/-- A table that stays keeps its prolongations. -/
theorem keepsProlonged_of_eq (s t : EngineState Memory) (same : t.store = s.store) :
    KeepsProlonged s t :=
  congrArg Memory.prolonged same

/-- The table as a store that refuses to prolong anything. -/
def lapsing : Store Memory :=
  { Memory.store with prolong := fun _ _ => .fail (.internal "lapsing") }

/-- A turn that prolongs nothing does not notice that the store refuses to. -/
theorem after_lapsing {turn : Turn} (h : turn.prolongs = false) :
    (⟨lapsing, catalog, maxBatch⟩ : Engine Memory).after s turn =
      (engine catalog maxBatch).after s turn := by
  cases turn with
  | lose question => rfl
  | call c =>
      cases c with
      | prolong | prolongOne => cases h
      | _ => rfl

/-- Every other operation of the store keeps the prolongations. -/
theorem each_lapsing_keepsProlonged :
    lapsing.Each fun a => Along KeepsProlonged (asking a) where
  register storage :=
    along_of_does keepsProlonged_of_eq (run_register · storage) fun _ _ _ made =>
      prolonged_of_register (register_eq_of_map made)
  upsert storage rows := by
    refine along_of_does keepsProlonged_of_eq (run_upsert · storage rows) fun s kept m made => ?_
    obtain ⟨-, -, rfl⟩ := upsert_eq_ok_iff.1 made
    rfl
  delete id keys := by
    refine along_of_does keepsProlonged_of_eq (run_delete · id keys) fun s dropped m made => ?_
    obtain ⟨-, -, rfl⟩ := delete_eq_ok_iff.1 made
    rfl
  deleteUnder id roots :=
    along_of_does keepsProlonged_of_eq (run_deleteUnder · id roots) fun _ _ _ made =>
      prolonged_of_deleteUnder made
  relocate id source destination :=
    along_of_does keepsProlonged_of_eq (run_relocate · id source destination) fun _ _ _ made =>
      prolonged_of_relocate made
  prolong _ _ := fun _ => rfl
  kindOf _ := fun _ => rfl
  load _ _ := fun _ => rfl
  loadHeld _ _ _ := fun _ => rfl
  storagesHolding _ := fun _ => rfl
  prolongationsAt _ _ := fun _ => rfl
  prolongations _ := fun _ => rfl
  health := fun _ => rfl

/-- **A turn that prolongs nothing keeps all prolongations**, whatever it does to the rows. -/
theorem prolonged_after {turn : Turn} (h : turn.prolongs = false) :
    ((engine catalog maxBatch).after s turn).store.prolonged = s.store.prolonged := by
  rw [← after_lapsing h]
  cases turn with
  | lose question => rfl
  | call c =>
      have follows : (⟨lapsing, catalog, maxBatch⟩ : Engine Memory).Follows KeepsProlonged :=
        follows_of_each keepsProlonged_of_eq each_lapsing_keepsProlonged rfl
      exact follows.afterCall s c

/-- **A turn that prolongs something keeps all storages**, with their rows, counts and kinds. -/
theorem storages_after {turn : Turn} (h : turn.prolongs = true) :
    ((engine catalog maxBatch).after s turn).store.storages = s.store.storages := by
  have batch : ∀ now storage paths userId days,
      (((engine catalog maxBatch).prolong now storage paths userId days).run s).state.store.storages =
        s.store.storages := by
    intro now storage paths userId days
    rcases @prolongs_or_stays catalog maxBatch s now storage paths userId days with
      ⟨normals, till, through⟩ | stays
    · obtain ⟨-, m, made, left⟩ := through.run
      obtain ⟨-, -, rfl⟩ := prolong_eq_ok_iff.1 made
      rw [left]
    · rw [stays]
  cases turn with
  | lose question => cases h
  | call c =>
      cases c with
      | prolong now storage paths userId days => exact batch now storage paths userId days
      | prolongOne now storage path userId days =>
          rw [after, afterCall, state_prolongOne]
          exact batch now storage [path] userId days
      | _ => cases h

/-- **A path that a turn does not prolong keeps its record.** -/
theorem record?_after_of_not_records {turn : Turn} {i : StorageId} {path : String}
    (other : ∀ p, (engine catalog maxBatch).Records s turn p → ¬ (p.storageId = i ∧ p.path = path)) :
    ((engine catalog maxBatch).after s turn).store.record? i path = s.store.record? i path := by
  cases h : turn.prolongs with
  | false => rw [record?, record?, prolonged_after h]
  | true =>
      cases turn with
      | lose question => cases h
      | call c =>
          cases c with
          | prolong now storage paths userId days =>
              apply record?_prolong_of_not_mem
              intro normals till through here asked
              -- a batch that names the path and goes through records it
              obtain ⟨text, htext, normal⟩ := through.mem_normals_iff.1 asked
              exact other _ (.batch through.run.1 htext normal through.reached) ⟨here.symm, rfl⟩
          | prolongOne now storage text userId days =>
              rw [after, afterCall, state_prolongOne]
              apply record?_prolong_of_not_mem
              intro normals till through here asked
              obtain ⟨p, answered⟩ := exists_answer_prolongOne_iff.2 ⟨_, through.run.1⟩
              obtain ⟨_, htext, normal⟩ := through.mem_normals_iff.1 asked
              obtain rfl := List.mem_singleton.1 htext
              exact other _ (.one answered normal through.reached) ⟨here.symm, rfl⟩
          | _ => cases h

/-! ## Runs -/

section Runs

variable {σ : Type} (e : Engine σ)

/-- A path of a storage is **prolonged** along a run if some turn records a prolongation of it. -/
def Prolonged (s : EngineState σ) (turns : List Turn) (id : StorageId) (path : String) : Prop :=
  ∃ past turn rest p, turns = past ++ turn :: rest ∧ e.Records (e.afterAll s past) turn p ∧
    p.storageId = id ∧ p.path = path

/-- A prolongation is the **latest** of its path along a run if some turn records it, and no later one
prolongs the path. -/
def Latest (s : EngineState σ) (turns : List Turn) (p : Prolongation) : Prop :=
  ∃ past turn rest, turns = past ++ turn :: rest ∧ e.Records (e.afterAll s past) turn p ∧
    ¬ e.Prolonged (e.afterAll s (past ++ [turn])) rest p.storageId p.path

variable {e} {s : EngineState σ} {turn : Turn} {turns : List Turn} {id : StorageId} {path : String}
  {p : Prolongation}

/-- Nothing is prolonged along no turns. -/
theorem not_prolonged_nil : ¬ e.Prolonged s [] id path := by
  rintro ⟨past, turn, rest, p, split, -⟩
  exact List.append_ne_nil_of_right_ne_nil past (List.cons_ne_nil turn rest) split.symm

/-- A path is prolonged by the first turn or along the others. -/
theorem prolonged_cons_iff :
    e.Prolonged s (turn :: turns) id path ↔
      (∃ p, e.Records s turn p ∧ p.storageId = id ∧ p.path = path) ∨
        e.Prolonged (e.after s turn) turns id path := by
  constructor
  · rintro ⟨past, turn', rest, p, split, records, key⟩
    cases past with
    | nil =>
        obtain ⟨rfl, -⟩ := List.cons.inj split
        exact .inl ⟨p, records, key⟩
    | cons first past =>
        obtain ⟨rfl, tails⟩ := List.cons.inj split
        exact .inr ⟨past, turn', rest, p, tails, records, key⟩
  · rintro (⟨p, records, key⟩ | ⟨past, turn', rest, p, rfl, records, key⟩)
    · exact ⟨[], turn, turns, p, rfl, records, key⟩
    · exact ⟨turn :: past, turn', rest, p, rfl, records, key⟩

/-- What is the latest along the later turns is so along all. -/
theorem Latest.cons (h : e.Latest (e.after s turn) turns p) : e.Latest s (turn :: turns) p := by
  obtain ⟨past, turn', rest, rfl, records, last⟩ := h
  exact ⟨turn :: past, turn', rest, rfl, records, last⟩

/-- A path that is prolonged has a latest prolongation. -/
theorem Prolonged.exists_latest (h : e.Prolonged s turns id path) :
    ∃ p, e.Latest s turns p ∧ p.storageId = id ∧ p.path = path := by
  induction turns generalizing s with
  | nil => exact absurd h not_prolonged_nil
  | cons turn turns ih =>
      -- only if no later turn prolongs the path the first one counts
      by_cases later : e.Prolonged (e.after s turn) turns id path
      · obtain ⟨p, latest, key⟩ := ih later
        exact ⟨p, latest.cons, key⟩
      · obtain ⟨p, records, rfl, rfl⟩ := (prolonged_cons_iff.1 h).resolve_right later
        exact ⟨p, ⟨[], turn, turns, rfl, records, later⟩, rfl, rfl⟩

end Runs

/-- A path that is not prolonged along a run keeps its record. -/
theorem record?_afterAll_of_not_prolonged {turns : List Turn} {id : StorageId} {path : String}
    (h : ¬ (engine catalog maxBatch).Prolonged s turns id path) :
    ((engine catalog maxBatch).afterAll s turns).store.record? id path = s.store.record? id path := by
  induction turns generalizing s with
  | nil => rfl
  | cons turn turns ih =>
      rw [prolonged_cons_iff, not_or] at h
      have step := record?_after_of_not_records fun p records key => h.1 ⟨p, records, key⟩
      exact (ih h.2).trans step

/-- **The latest prolongation of a path is kept.** -/
theorem Latest.record?_afterAll {turns : List Turn} {p : Prolongation}
    (h : (engine catalog maxBatch).Latest s turns p) :
    ((engine catalog maxBatch).afterAll s turns).store.record? p.storageId p.path = some p := by
  obtain ⟨past, turn, rest, rfl, records, last⟩ := h
  rw [List.append_cons, afterAll_append, record?_afterAll_of_not_prolonged last, afterAll_concat]
  exact records.record?_after

/-- **What a table keeps after a run from the empty one**: of each path the latest prolongation. -/
theorem record?_afterAll_eq_some_iff {index : Option StorageIndex} {turns : List Turn}
    {id : StorageId} {path : String} {p : Prolongation} :
    ((engine catalog maxBatch).afterAll ⟨∅, index⟩ turns).store.record? id path = some p ↔
      (engine catalog maxBatch).Latest ⟨∅, index⟩ turns p ∧ p.storageId = id ∧ p.path = path := by
  constructor
  · intro kept
    by_cases h : (engine catalog maxBatch).Prolonged ⟨∅, index⟩ turns id path
    · obtain ⟨q, latest, rfl, rfl⟩ := h.exists_latest
      obtain rfl := Option.some.inj (latest.record?_afterAll.symm.trans kept)
      exact ⟨latest, rfl, rfl⟩
    · rw [record?_afterAll_of_not_prolonged h] at kept
      cases kept
  · rintro ⟨latest, rfl, rfl⟩
    exact latest.record?_afterAll

/-- Nothing is kept of the paths that no turn prolonged. -/
theorem record?_afterAll_eq_none_iff {index : Option StorageIndex} {turns : List Turn}
    {id : StorageId} {path : String} :
    ((engine catalog maxBatch).afterAll ⟨∅, index⟩ turns).store.record? id path = none ↔
      ¬ (engine catalog maxBatch).Prolonged ⟨∅, index⟩ turns id path := by
  constructor
  · intro none_kept h
    obtain ⟨p, latest, rfl, rfl⟩ := h.exists_latest
    cases none_kept.symm.trans latest.record?_afterAll
  · exact record?_afterAll_of_not_prolonged

/-! ## The prolongation that holds -/

/-- Looking for the prolongation of a path finds the longest record of the path and its ancestors. -/
theorem answer_prolongationOf {id : StorageId} (positive : 0 < id) {text path : String}
    (normal : Path.normalize text = .ok path) :
    (((engine catalog maxBatch).prolongationOf id text).run s).answer =
      .ok (Path.longest Prolongation.path
        ((path :: Path.ancestors path).filterMap (s.store.record? id))) := by
  have taken : Request.normalPath text = .ok path := Validity.mapError_eq_ok_iff.2 normal
  rw [prolongationOf, (Action.run_ofExcept_of_ok taken).1, answer_onStore, Validity.mapError_eq_ok_iff]
  exact answer_nearestProlongation positive path

/-- **The prolongation that holds for a path is the latest one of the longest path**, among the path and
its ancestors, that was ever prolonged in the storage; there is none if none of them was. No turn but a
prolongation changes it, and a prolongation changes no storage. Every record that is kept spans its days,
and a prolongation to which there is nothing else to object fails, and then writes nothing, just if its
days lead out of the calendar. -/
theorem prolongationOf_answers_latest (settings : IndexSettings) (turns : List Turn) {id : StorageId}
    (positive : 0 < id) {text path : String} (normal : Path.normalize text = .ok path) :
    let e := engine catalog maxBatch
    let start : EngineState Memory := ⟨∅, settings.start⟩
    let s := e.afterAll start turns
    let chain := path :: Path.ancestors path
    (∃ found, ((e.prolongationOf id text).run s).answer = .ok found ∧
      (∀ p, found = some p ↔
        e.Latest start turns p ∧ p.storageId = id ∧ p.path ∈ chain ∧
          ∀ q ∈ chain, p.path.utf8ByteSize < q.utf8ByteSize → ¬ e.Prolonged start turns id q) ∧
      (found = none ↔ ∀ q ∈ chain, ¬ e.Prolonged start turns id q)) ∧
    (∀ turn : Turn, turn.prolongs = false →
      ((e.prolongationOf id text).run (e.after s turn)).answer =
        ((e.prolongationOf id text).run s).answer) ∧
    (∀ turn : Turn, turn.prolongs = true → (e.after s turn).store.storages = s.store.storages) ∧
    (∀ i q p, s.store.record? i q = some p → p.SpansDays) ∧
    ∀ now (storage : StorageRef) paths userId days, 0 < paths.length ∧ paths.length ≤ maxBatch →
      (∀ path ∈ paths, Path.Normalizable path) → Text.blank userId = false → 0 < days →
      catalog.kindOf s.store storage.id = some storage.kind → 0 < storage.id →
      let o := (e.prolong now storage paths userId days).run s
      ((∃ err, o.answer = .error err) ↔
        (Calendar.lastDay + 1) * secondsPerDay ≤ now.seconds + days.toNat * secondsPerDay) ∧
      ((∃ err, o.answer = .error err) → o.state.store = s.store) := by
  intro e start s chain
  have answer := @answer_prolongationOf catalog maxBatch
  have bound : ∀ i q p, s.store.record? i q = some p ↔
      e.Latest start turns p ∧ p.storageId = i ∧ p.path = q := fun _ _ _ => record?_afterAll_eq_some_iff
  have free : ∀ q, s.store.record? id q = none ↔ ¬ e.Prolonged start turns id q :=
    fun _ => record?_afterAll_eq_none_iff
  refine ⟨⟨_, answer positive normal, fun p => ?_, ?_⟩, fun turn stays => ?_, fun turn => storages_after,
    fun i q p kept => ?_, ?_⟩
  · rw [Path.longest_filterMap_eq_some_iff (Path.pairwise_ancestors path)
      (fun q p kept => ((bound id q p).1 kept).2.2), bound]
    constructor
    · rintro ⟨hp, ⟨latest, here, -⟩, nothing⟩
      exact ⟨latest, here, hp, fun q hq longer => (free q).1 (nothing q hq longer)⟩
    · rintro ⟨latest, here, hp, nothing⟩
      exact ⟨hp, ⟨latest, here, rfl⟩, fun q hq longer => (free q).2 (nothing q hq longer)⟩
  · rw [Path.longest_eq_none_iff, List.filterMap_eq_nil_iff]
    exact forall₂_congr fun q _ => free q
  · have same : (e.after s turn).store.record? id = s.store.record? id := by
      funext q
      rw [record?, record?, prolonged_after stays]
    rw [answer positive normal, answer positive normal, same]
  · obtain ⟨⟨past, turn, rest, -, records, -⟩, -⟩ := (bound i q p).1 kept
    exact records.spansDays
  · intro now storage paths userId days size items user some_days named known
    refine ⟨prolong_fails_iff size items user some_days named known, ?_⟩
    rintro ⟨err, failed⟩
    exact atomic_prolong now storage paths userId days s err failed

/-- Noon of the first day of 1970. -/
def noon : Instant := (Instant.ofParts? 43200 0).getD .epoch

/-- A folder and what is in it are prolonged, the folder once more at noon; then it is granted, moved away
and dropped. -/
def renewals : List Turn :=
  [.call (.register ⟨1, .s3⟩),
    .call (.prolong .epoch ⟨1, .s3⟩ ["a/b", "/a/", "a"] "u" 5),
    .call (.prolongOne noon ⟨1, .s3⟩ "a" "v" 7),
    .call (.insert noon ⟨1, .s3⟩ [⟨"a", .folder, .user "u", .read⟩]),
    .call (.move ⟨1, .s3⟩ (.folder "a") (.folder "c")),
    .call (.deleteUnder ⟨1, .s3⟩ [.folder "c"])]

/-- The state that these turns leave. -/
def renewed : EngineState Memory :=
  (engine .ofStore 10).afterAll ⟨∅, IndexSettings.default.start⟩ renewals

/-- What was asked for at noon: seven days. -/
def renewal : Prolongation := ⟨1, "a", "v", (noon.addDays? 7).getD .epoch, 7, noon⟩

/-- The folder's second prolongation holds for what has none of its own, and more days than the calendar
has cannot be had. -/
theorem prolongationOf_renewed :
    (((engine .ofStore 10).prolongationOf 1 "/a//x/y").run renewed).answer = .ok (some renewal) ∧
      (engine .ofStore 10).Latest ⟨∅, IndexSettings.default.start⟩ renewals renewal ∧
      renewal.SpansDays ∧
      (∃ err, (((engine .ofStore 10).prolong noon ⟨1, .s3⟩ ["a/b"] "v" 100000000).run
        renewed).answer = .error err) ∧
      (((engine .ofStore 10).prolong noon ⟨1, .s3⟩ ["a/b"] "v" 100000000).run renewed).state.store =
        renewed.store := by
  obtain ⟨⟨found, answered, some_iff, -⟩, -, -, spans, fails⟩ :=
    @prolongationOf_answers_latest .ofStore 10 .default renewals 1 (by decide) "/a//x/y" "a/x/y" rfl
  have here : (((engine .ofStore 10).prolongationOf 1 "/a//x/y").run renewed).answer =
      .ok (some renewal) := by
    rfl
  have latest := ((some_iff renewal).1 (Except.ok.inj (answered.symm.trans here))).1
  have items : ∀ path ∈ ["a/b"], Path.Normalizable path := by
    intro path hp
    obtain rfl := List.mem_singleton.1 hp
    exact ⟨"a/b", rfl⟩
  obtain ⟨fails_iff, unwritten⟩ := fails noon ⟨1, .s3⟩ ["a/b"] "v" 100000000 (by decide) items
    (by decide) (by decide) (by decide) (by decide)
  have days : (100000000 : UInt32).toNat = 100000000 := rfl
  rw [days] at fails_iff
  have failed := fails_iff.2 (by decide)
  exact ⟨here, latest, spans 1 "a" renewal rfl, failed, unwritten failed⟩

end Engine

end PathAcl
