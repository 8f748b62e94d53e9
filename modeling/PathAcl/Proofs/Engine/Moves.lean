import PathAcl.Proofs.Engine.Effects

/-! # Moves
A move either meets a conflict and changes nothing, or rewrites the paths of the rows that the source
governs and leaves all other rows alone. Which of the two is told by the listing. -/

namespace PathAcl.Engine

open Memory

variable {catalog : Catalog} {maxBatch : Nat} {s : EngineState Memory}

/-- What a move comes to once it is accepted: the answer of the table, and its state; a failure changes
nothing at all. -/
theorem run_move {storage : StorageRef} {source destination p q : PathRef}
    (accepted : checkMove source destination = .ok (p, q)) (apart : p ≠ q)
    (named : catalog.kindOf s.store storage.id = some storage.kind) :
    let o := ((engine catalog maxBatch).move storage source destination).run s
    (∀ e, s.store.relocate storage.id p q = .error e → o.answer = .error (.ofStore e) ∧ o.state = s) ∧
      ∀ moved m, s.store.relocate storage.id p q = .ok (moved, m) →
        o.answer = .ok moved ∧ o.state.store = m := by
  obtain ⟨confirmed, kept⟩ := @run_confirm catalog maxBatch s storage
  obtain ⟨answer, state⟩ := run_relocate s.store storage.id p q
  simp only [move]
  rw [(Action.run_ofExcept_of_ok accepted).1, (Action.run_ofExcept_of_ok accepted).2]
  simp only [if_neg apart]
  rw [(Action.run_bind_of_ok (confirmed.2 named) kept).1,
    (Action.run_bind_of_ok (confirmed.2 named) kept).2]
  have moving : (engine catalog maxBatch).store.relocate storage.id p q =
    Memory.store.relocate storage.id p q := rfl
  rw [Action.answer_bind, Action.state_bind, answer_onStore, state_onStore, moving, answer, state]
  constructor
  · intro e he
    rw [he]
    exact ⟨rfl, rfl⟩
  · intro moved m hm
    rw [hm]
    by_cases some_moved : 0 < moved
    · obtain ⟨noted, left⟩ := run_noteWrite ⟨m, s.index⟩ storage.id []
      simp only [Except.map, Except.mapError, settle, if_pos some_moved]
      rw [(Action.run_bind_of_ok noted left).1, (Action.run_bind_of_ok noted left).2]
      exact ⟨rfl, rfl⟩
    · simp only [Except.map, Except.mapError, settle, if_neg some_moved]
      exact ⟨rfl, rfl⟩

/-- A move **goes through** if its ends are accepted and differ, the storage is the one it is taken for,
and no row is where the rows would go. -/
structure GoesThrough (catalog : Catalog) (s : EngineState Memory) (storage : StorageRef)
    (source destination p q : PathRef) : Prop where
  accepted : checkMove source destination = .ok (p, q)
  apart : p ≠ q
  named : catalog.kindOf s.store storage.id = some storage.kind
  positive : 0 < storage.id
  free : ∀ row ∈ s.store.rows storage.id, ¬ q.Covers row.place

namespace GoesThrough

variable {storage : StorageRef} {source destination p q : PathRef}

/-- The ends of such a move may be stored, and are of one type. -/
theorem ends (h : GoesThrough catalog s storage source destination p q) :
    Path.check p.path = .ok () ∧ Path.check q.path = .ok () ∧ q.type = p.type := by
  obtain ⟨-, hp, hq, -⟩ := checkMove_eq_ok_iff.1 h.accepted
  exact ⟨Path.check_of_normalize (normalRef_eq_ok_iff.1 hp).1,
    Path.check_of_normalize (normalRef_eq_ok_iff.1 hq).1, type_of_checkMove h.accepted⟩

/-- What a move does that goes through: the listing is carried along, and nothing else changes. -/
theorem carries (h : GoesThrough catalog s storage source destination p q)
    (sound : s.store.Sound) (maxBatch : Nat) :
    let o := ((engine catalog maxBatch).move storage source destination).run s
    o.answer = .ok ((s.store.rows storage.id).filter fun row => p.Covers row.place).length ∧
      (o.state.store.rows storage.id).Perm
        ((s.store.rows storage.id).map (Permission.relocated p q)) ∧
      (∀ other, other ≠ storage.id → o.state.store.rows other = s.store.rows other) ∧
      o.state.store.prolonged = s.store.prolonged := by
  intro o
  obtain ⟨hp, hq, type⟩ := h.ends
  obtain ⟨m, moved, carried, -, elsewhere⟩ :=
    sound.relocate_of_free h.positive hp hq type h.free
  obtain ⟨answered, left⟩ := (@run_move catalog maxBatch s storage source destination p q
    h.accepted h.apart h.named).2 _ _ moved
  exact ⟨answered, left ▸ carried, left ▸ elsewhere, left ▸ prolonged_of_relocate moved⟩

end GoesThrough

/-- **A move goes through or leaves the state**, and then it fails unless its ends are one place. -/
theorem goesThrough_or_stays (sound : s.store.Sound) (storage : StorageRef)
    (source destination : PathRef) :
    let o := ((engine catalog maxBatch).move storage source destination).run s
    (∃ p q, GoesThrough catalog s storage source destination p q) ∨
      (o.state = s ∧ ∀ p q, checkMove source destination = .ok (p, q) → p ≠ q →
        ∃ e, o.answer = .error e) := by
  intro o
  cases accepted : checkMove source destination with
  | error e =>
      refine .inr ⟨?_, nofun⟩
      show (((engine catalog maxBatch).move storage source destination).run s).state = s
      rw [move, accepted]
      rfl
  | ok ends =>
      obtain ⟨p, q⟩ := ends
      by_cases same : p = q
      · refine .inr ⟨?_, fun p' q' h apart => ?_⟩
        · show (((engine catalog maxBatch).move storage source destination).run s).state = s
          rw [move, (Action.run_ofExcept_of_ok accepted).2]
          simp only [if_pos same]
          rfl
        · obtain ⟨rfl, rfl⟩ := Prod.mk.inj (Except.ok.inj h)
          exact absurd same apart
      by_cases named : catalog.kindOf s.store storage.id = some storage.kind
      · -- a confirmed storage lets the table decide
        have run := @run_move catalog maxBatch s storage source destination p q accepted same named
        cases moved : s.store.relocate storage.id p q with
        | error e =>
            obtain ⟨answered, left⟩ := run.1 e moved
            exact .inr ⟨left, fun _ _ _ _ => ⟨_, answered⟩⟩
        | ok both =>
            obtain ⟨n, m⟩ := both
            obtain ⟨hp, hq, free, -, writes⟩ := writes_of_relocate moved
            exact .inl ⟨p, q, accepted, same, named, writes.positive,
              sound.isTaken_eq_false_iff.1 free⟩
      · obtain ⟨confirmed, kept⟩ := @run_confirm catalog maxBatch s storage
        have refused : ∃ e, (((engine catalog maxBatch).confirm storage).run s).answer =
            .error e := by
          cases answer : (((engine catalog maxBatch).confirm storage).run s).answer with
          | error e => exact ⟨e, rfl⟩
          | ok u => exact absurd (confirmed.1 answer) named
        obtain ⟨e, refused⟩ := refused
        have stops : o.answer = .error e ∧ o.state = s := by
          simp only [o, move]
          rw [(Action.run_ofExcept_of_ok accepted).1, (Action.run_ofExcept_of_ok accepted).2]
          simp only [if_neg same]
          rw [Action.run_bind_error refused]
          exact ⟨rfl, kept⟩
        exact .inr ⟨stops.2, fun _ _ _ _ => ⟨e, stops.1⟩⟩

/-- A move that succeeds between two places went through. -/
theorem goesThrough_of_answer (sound : s.store.Sound) {storage : StorageRef}
    {source destination : PathRef} {p q : String} (hp : Path.normalize source.path = .ok p)
    (hq : Path.normalize destination.path = .ok q) (apart : p ≠ q) {moved : Nat}
    (succeeds : (((engine catalog maxBatch).move storage source destination).run s).answer =
      .ok moved) :
    GoesThrough catalog s storage source destination ⟨p, source.type⟩ ⟨q, source.type⟩ := by
  cases accepted : checkMove source destination with
  | error e =>
      rw [move, Action.answer_bind, accepted] at succeeds
      cases succeeds
  | ok ends =>
      obtain ⟨start, goal⟩ := ends
      obtain ⟨type, hstart, hgoal, -⟩ := checkMove_eq_ok_iff.1 accepted
      obtain rfl := Except.ok.inj (hstart.symm.trans
        (normalRef_eq_ok_iff.2 ⟨hp, rfl⟩ : Request.normalRef source = .ok ⟨p, source.type⟩))
      obtain rfl := Except.ok.inj (hgoal.symm.trans
        (normalRef_eq_ok_iff.2 ⟨hq, type⟩ : Request.normalRef destination = .ok ⟨q, source.type⟩))
      have distinct : (⟨p, source.type⟩ : PathRef) ≠ ⟨q, source.type⟩ :=
        fun same => apart (congrArg PathRef.path same)
      rcases @goesThrough_or_stays catalog maxBatch s sound storage source destination with
        ⟨p', q', through⟩ | ⟨-, fails⟩
      · obtain ⟨rfl, rfl⟩ := Prod.mk.inj (Except.ok.inj (through.accepted.symm.trans accepted))
        exact through
      · obtain ⟨e, failed⟩ := fails _ _ accepted distinct
        cases failed.symm.trans succeeds

/-- **A move meets a conflict and changes nothing exactly if the listing has a row that the destination
covers; else it answers how many rows the source covers and rewrites their paths**: the listing is the
old one with each covered row carried along, no two rows become one, and the listings of all other
storages stay. -/
theorem move_conflicts_or_relocates (reached : Reached catalog maxBatch s) {storage : StorageRef}
    {source destination : PathRef} {p q : String} (type : source.type = destination.type)
    (hp : Path.normalize source.path = .ok p) (hq : Path.normalize destination.path = .ok q)
    (apart : p ≠ q) (outside : source.type = .folder → ¬ Path.isBeneath q p = true)
    (named : catalog.kindOf s.store storage.id = some storage.kind)
    (positive : ∀ ask, catalog = .external ask → 0 < storage.id) :
    let o := ((engine catalog maxBatch).move storage source destination).run s
    let start : PathRef := ⟨p, source.type⟩
    let goal : PathRef := ⟨q, source.type⟩
    let rows := s.store.rows storage.id
    (o.answer = .error (.moveConflict storage.id q) ∧ o.state = s ↔
        ∃ row ∈ rows, goal.Covers row.place) ∧
      ((∀ row ∈ rows, ¬ goal.Covers row.place) →
        o.answer = .ok (rows.filter fun row => start.Covers row.place).length ∧
        (o.state.store.rows storage.id).Perm (rows.map (Permission.relocated start goal)) ∧
        ((o.state.store.rows storage.id).map Permission.key).Nodup ∧
        (∀ row ∈ rows, start.Covers row.place →
          Path.transplant row.path p q = some (row.relocated start goal).path) ∧
        ∀ other, other ≠ storage.id → o.state.store.rows other = s.store.rows other) := by
  intro o start goal rows
  have sound := reached.sound
  have accepted : checkMove source destination = .ok (start, goal) := by
    refine checkMove_eq_ok_iff.2 ⟨type, normalRef_eq_ok_iff.2 ⟨hp, rfl⟩,
      normalRef_eq_ok_iff.2 ⟨hq, type⟩, ?_⟩
    rintro ⟨folder, inside⟩
    exact outside folder inside
  have distinct : start ≠ goal := fun same => apart (congrArg PathRef.path same)
  have known : 0 < storage.id := by
    cases catalog with
    | ofStore => exact sound.positive storage.id storage.kind named
    | external ask => exact positive ask rfl
  have hs : Path.check start.path = .ok () := Path.check_of_normalize hp
  have hd : Path.check goal.path = .ok () := Path.check_of_normalize hq
  obtain ⟨fails, succeeds⟩ := run_move accepted distinct named
  have moves := @Memory.Sound.relocate_of_free s.store sound storage.id start goal known hs hd rfl
  constructor
  · constructor
    · -- a free destination lets the rows move, so the answer would be a number
      rintro ⟨conflict, -⟩
      by_contra none_covered
      obtain ⟨m, moved, -⟩ := moves fun row hrow covered => none_covered ⟨row, hrow, covered⟩
      rw [(succeeds _ _ moved).1] at conflict
      cases conflict
    · intro covered
      exact fails _ (sound.relocate_of_covered known hs hd covered)
  · intro free
    obtain ⟨m, moved, carried, keys, elsewhere⟩ := moves free
    obtain ⟨answered, left⟩ := succeeds _ _ moved
    rw [left]
    exact ⟨answered, carried, keys,
      fun row _ covered => @Permission.transplant_eq_relocated start goal row covered, elsewhere⟩

/-- A storage with a row at a folder, one beneath it and one beside it. -/
def furnished : EngineState Memory :=
  (engine .ofStore 10).afterAll ⟨∅, IndexSettings.default.start⟩
    [.call (.register ⟨1, .s3⟩),
      .call (.insert .epoch ⟨1, .s3⟩ [⟨"a", .folder, .user "u", .read⟩,
        ⟨"a/x", .file, .user "u", .write⟩, ⟨"ab", .folder, .user "u", .read⟩])]

/-- A folder is moved with the row beneath it; the one beside it stays. -/
theorem move_takes_two_of_three_rows :
    (((engine .ofStore 10).move ⟨1, .s3⟩ (.folder "a") (.folder "b")).run furnished).answer =
      .ok 2 := by
  have reached : Reached .ofStore 10 furnished := ⟨.default, _, rfl⟩
  have spec := @move_conflicts_or_relocates .ofStore 10 furnished reached ⟨1, .s3⟩ (.folder "a")
    (.folder "b") "a" "b" rfl rfl rfl (by decide) (fun _ => by decide) (by decide) nofun
  have free : ∀ row ∈ furnished.store.rows 1, ¬ (PathRef.folder "b").Covers row.place := by decide
  have two : ((furnished.store.rows 1).filter fun row =>
      (PathRef.folder "a").Covers row.place).length = 2 := by decide
  exact (spec.2 free).1.trans (congrArg Except.ok two)

end PathAcl.Engine
