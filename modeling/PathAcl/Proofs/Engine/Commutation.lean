import PathAcl.Proofs.Engine.Listings
import PathAcl.Proofs.Memory.Parts

/-! # Calls that name different storages
Whatever a call does to the table it does to the part of the storage it names, and it looks at nothing
else. So two calls that name different storages may be made in either order: each answers the same, and
the table in the end is the same. The index does depend on the order, but not what it is asked for. -/

namespace PathAcl

open Memory
open PathAcl.Action (Confined)

/-- The part of a state that belongs to a storage: that of its table. -/
def EngineState.part (s : EngineState Memory) (id : StorageId) :
    Option Bucket × Option (SortedMap String Prolongation) := s.store.part id

namespace Engine

variable {catalog : Catalog} {maxBatch : Nat} {s : EngineState Memory}

/-! ## Calls and parts -/

/-- A question to the table is confined to a part of the state if it is to that of the table. -/
theorem confined_asking {α : Type} {a : Action Memory StoreError α} {id : StorageId}
    (h : Confined part id a) : Confined EngineState.part id (asking a) where
  answers s t same := h.answers s.store t.store same
  leaves s t same := h.leaves s.store t.store same
  others s j apart := h.others s.store j apart

/-- A note to the index is confined to every part, since it changes none. -/
theorem confined_noteWrite (id : StorageId) (sids : List Sid) :
    Confined EngineState.part id (noteWrite id sids : Step Memory Unit) := by
  have answer : ∀ s : EngineState Memory, ((noteWrite id sids).run s).answer = .ok () := fun s =>
    (run_noteWrite s id sids).1
  have kept : ∀ (s : EngineState Memory) j, ((noteWrite id sids).run s).state.part j = s.part j := by
    intro s j
    rw [(run_noteWrite s id sids).2]
    rfl
  refine ⟨fun s t _ => ?_, fun s t same => ?_, fun s j _ => kept s j⟩
  · rw [answer, answer]
  · rw [kept, kept, same]

/-- **A call is confined to the part of the storage it names.** -/
theorem confined_act {c : Call} {id : StorageId} (named : c.storageId? = some id) :
    Confined EngineState.part id ((engine catalog maxBatch).act c) := by
  have meets : (engine catalog maxBatch).Meets id
      fun {ε α} (a : Action (EngineState Memory) ε α) => Confined EngineState.part id a := by
    refine ⟨Confined.closed EngineState.part id, ?_, confined_noteWrite id⟩
    exact (confined_store id).mono fun a confined => confined_asking confined
  exact meets.act named

/-! ## Either order -/

/-- **Two calls that name different storages commute.** In whichever order they are made, each answers
what it answers alone, both orders leave the same table, and whatever sids are asked for, the storages
in which they can read are then the same. -/
theorem calls_commute (reached : Reached catalog maxBatch s) {c d : Call} {i j : StorageId}
    (first : c.storageId? = some i) (second : d.storageId? = some j) (apart : i ≠ j) :
    let e := engine catalog maxBatch
    ((e.act d).run (e.afterCall s c)).answer = ((e.act d).run s).answer ∧
      ((e.act c).run (e.afterCall s d)).answer = ((e.act c).run s).answer ∧
      (e.afterCall (e.afterCall s c) d).store = (e.afterCall (e.afterCall s d) c).store ∧
      ∀ sids, ((e.readable sids).run (e.afterCall (e.afterCall s c) d)).answer =
        ((e.readable sids).run (e.afterCall (e.afterCall s d) c)).answer := by
  intro e
  have hc : Confined EngineState.part i (e.act c) := confined_act first
  have hd : Confined EngineState.part j (e.act d) := confined_act second
  simp only [← state_act]
  have tables : ((e.act d).run ((e.act c).run s).state).state.store =
      ((e.act c).run ((e.act d).run s).state).state.store :=
    ext_part (hc.part_comm hd apart s)
  refine ⟨hd.answer_after hc apart.symm s, hc.answer_after hd apart s, tables, fun sids => ?_⟩
  -- the two indexes may differ, but each agrees with the table
  have coherent : ∀ c d : Call, Coherent ((e.act d).run ((e.act c).run s).state).state := by
    intro c d
    rw [state_act, state_act]
    exact ((reached.after (.call c)).after (.call d)).coherent
  rw [(coherent c d).answer_readable, (coherent d c).answer_readable, tables]

/-- Two storages, a folder with a row in the first, and an index that remembers who reads there. -/
def twoStorages : EngineState Memory :=
  (engine .ofStore 10).afterAll ⟨∅, some ∅⟩
    [.call (.register ⟨1, .s3⟩), .call (.register ⟨2, .nfs⟩),
      .call (.insert .epoch ⟨1, .s3⟩ [⟨"a", .folder, .user "u", .read⟩]),
      .call (.readable [.user "u"])]

/-- The folder of one storage moves while a row is written to the other: one row moves and one is
written in either order, and the user reads in both storages afterwards. -/
theorem move_and_insert_commute :
    let e := engine .ofStore 10
    let move : Call := .move ⟨1, .s3⟩ (.folder "a") (.folder "b")
    let insert : Call := .insert .epoch ⟨2, .nfs⟩ [⟨"/x", .file, .user "u", .write⟩]
    ((e.act move).run (e.afterCall twoStorages insert)).answer = .ok (1 : Nat) ∧
      ((e.act insert).run (e.afterCall twoStorages move)).answer =
        .ok [⟨"x", .file, .user "u", .write, .epoch⟩] ∧
      (e.afterCall (e.afterCall twoStorages move) insert).store =
        (e.afterCall (e.afterCall twoStorages insert) move).store ∧
      ((e.readable [.user "u"]).run (e.afterCall (e.afterCall twoStorages move) insert)).answer =
        ((e.readable [.user "u"]).run (e.afterCall (e.afterCall twoStorages insert) move)).answer := by
  intro e move insert
  have reached : Reached .ofStore 10 twoStorages := ⟨⟨true, 10, 30⟩, _, rfl⟩
  have apart : (1 : StorageId) ≠ 2 := by decide
  obtain ⟨written, moved, tables, listings⟩ :=
    calls_commute reached (c := move) (d := insert) rfl rfl apart
  have alone : ((e.act move).run twoStorages).answer = .ok (1 : Nat) := by rfl
  have wrote : ((e.act insert).run twoStorages).answer =
      .ok [⟨"x", .file, .user "u", .write, .epoch⟩] := by rfl
  exact ⟨moved.trans alone, written.trans wrote, tables, listings _⟩

end Engine

end PathAcl
