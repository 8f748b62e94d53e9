import PathAcl.Proofs.Action
import PathAcl.Proofs.Memory.Batches
import PathAcl.Proofs.Store.Calls

/-! # Runs of the table
What any list of calls makes of the empty table. The counters beside the trees stay right and no row
is lost unless it is dropped, as long as no move buries rows; a move that does loses some of them. -/

namespace PathAcl.Memory

open Store

variable {m m' : Memory}

/-! ## Operations of the store -/

/-- The table after an operation: the new one or, if it failed, the old one. -/
def settle {α : Type} (m : Memory) : Except StoreError (α × Memory) → Memory
  | .error _ => m
  | .ok (_, left) => left

/-- An action **does** what a function says of the table: it answers and leaves the table that the
function gives, or fails and leaves the table as it was. -/
def Does {α : Type} (m : Memory) (a : Action Memory StoreError α)
    (r : Except StoreError (α × Memory)) : Prop :=
  (a.run m).answer = r.map Prod.fst ∧ (a.run m).state = m.settle r

/-- A requirement refuses both or neither. -/
theorem Does.require {α : Type} {check : Except Fault Unit} {a : Action Memory StoreError α}
    {r : Except StoreError (α × Memory)} (h : m.Does a r) :
    m.Does (.ofExcept (require check) >>= fun _ => a) (Memory.require check >>= fun _ => r) := by
  unfold Does
  rw [Action.answer_bind, Action.state_bind]
  cases required : Memory.require check with
  | error e => exact ⟨rfl, rfl⟩
  | ok _ => exact h

/-- The bucket of a storage is looked up in the table. -/
theorem Does.bucket {α : Type} {id : StorageId} {f : Option Bucket → Action Memory StoreError α}
    {r : Except StoreError (α × Memory)} (h : m.Does (f (m.storages.find? id)) r) :
    m.Does (bucket? id >>= f) r := h

/-- A known storage is entered without a change. -/
theorem run_enter_of_known {storage : StorageRef} {b : Bucket}
    (known : m.storages.find? storage.id = some b) : (enter storage).run m = ⟨.ok b, m, []⟩ := by
  simp only [Action.run, enter, known]

/-- A storage that is not known is entered with no rows. -/
theorem run_enter_of_unknown {storage : StorageRef}
    (unknown : m.storages.find? storage.id = none) : (enter storage).run m = ⟨.ok ⟨storage.kind, ∅⟩,
      { m with storages := m.storages.insert storage.id ⟨storage.kind, ∅⟩ }, []⟩ := by
  simp only [Action.run, enter, unknown]

/-- Making a storage known. -/
theorem run_register (m : Memory) (storage : StorageRef) :
    m.Does (store.register storage) ((m.register storage).map ((), ·)) := by
  -- the table is paired with the answer behind the requirement
  rw [register, show ∀ r : Except StoreError Memory, r.map ((), ·) = ((), ·) <$> r from fun _ => rfl,
    map_bind]
  refine Does.require (Does.bucket ?_)
  unfold Does
  cases found : m.storages.find? storage.id with
  | none =>
      simp only [Action.answer_bind, Action.state_bind, run_enter_of_unknown found]
      exact ⟨rfl, rfl⟩
  | some b =>
      cases known : requireKind storage b.kind <;> simp only [known] <;> exact ⟨rfl, rfl⟩

/-- The table that it gives is the one with the storage known. -/
theorem register_eq_of_map {storage : StorageRef} {u : Unit}
    (h : (m.register storage).map ((), ·) = .ok (u, m')) : m.register storage = .ok m' := by
  cases known : m.register storage with
  | error e =>
      rw [known] at h
      cases h
  | ok left =>
      rw [known] at h
      exact congrArg Except.ok (Prod.mk.inj (Except.ok.inj h)).2

/-- Writing rows. The storage is entered before its kind is compared, but one that was not known is
entered with the kind at hand and passes. -/
theorem run_upsert (m : Memory) (storage : StorageRef) (rows : List Permission) :
    m.Does (store.upsert storage rows) (m.upsert storage rows) := by
  refine Does.require (Does.require ?_)
  unfold Does
  simp only [Action.answer_bind, Action.state_bind]
  cases found : m.storages.find? storage.id with
  | none =>
      have accepted : requireKind storage storage.kind = .ok () := if_pos rfl
      simp only [run_enter_of_unknown found, Option.getD_none, accepted]
      refine ⟨rfl, ?_⟩
      exact congrArg (Memory.mk · m.prolonged) (m.storages.modify_insert _ _ _)
  | some b =>
      simp only [run_enter_of_known found, Option.getD_some]
      cases known : requireKind storage b.kind with
      | error e => exact ⟨rfl, rfl⟩
      | ok _ =>
          refine ⟨rfl, ?_⟩
          exact setTree_of_known found _

/-- Dropping rows. -/
theorem run_delete (m : Memory) (id : StorageId) (keys : List PermissionKey) :
    m.Does (store.delete id keys) (m.delete id keys) := by
  refine Does.require (Does.require (Does.bucket ?_))
  cases m.storages.find? id <;> exact ⟨rfl, rfl⟩

/-- Dropping rows under some roots. -/
theorem run_deleteUnder (m : Memory) (id : StorageId) (roots : List PathRef) :
    m.Does (store.deleteUnder id roots) (m.deleteUnder id roots) := by
  refine Does.require (Does.require (Does.bucket ?_))
  cases m.storages.find? id <;> exact ⟨rfl, rfl⟩

/-- Moving rows. -/
theorem run_relocate (m : Memory) (id : StorageId) (source destination : PathRef) :
    m.Does (store.relocate id source destination) (m.relocate id source destination) := by
  refine Does.require (Does.require (Does.require (Does.bucket ?_)))
  cases m.storages.find? id with
  | none => exact ⟨rfl, rfl⟩
  | some b =>
      unfold Does
      cases taken : b.tree.isTaken destination <;> simp only [taken] <;> exact ⟨rfl, rfl⟩

/-- Writing prolongations. -/
theorem run_prolong (m : Memory) (id : StorageId) (records : List Prolongation) :
    m.Does (store.prolong id records) (m.prolong id records) :=
  Does.require (Does.require ⟨rfl, rfl⟩)

/-! ## What a call can do -/

/-- The **effect** of a call: it leaves the table, or writes one tree. -/
inductive Effect (m : Memory) (call : Call) : Memory → Prop
  | nothing : Effect m call m
  | keep {id : StorageId} {m' : Memory} (writes : m.Writes id (m.tree id) m') : Effect m call m'
  | upsert {storage : StorageRef} {rows : List Permission} {m' : Memory}
      (named : ∀ row ∈ rows, Path.IsNamed row.path)
      (writes : m.Writes storage.id (rows.foldl PathTree.upsert (m.tree storage.id)) m') :
      Effect m call m'
  | delete {id : StorageId} {keys : List PermissionKey} {m' : Memory} (drops : call.drops = true)
      (writes : m.Writes id (dropKeys keys (m.tree id)).2 m') : Effect m call m'
  | deleteUnder {id : StorageId} {roots : List PathRef} {m' : Memory} (drops : call.drops = true)
      (writes : m.Writes id (dropTrees roots (m.tree id)).2 m') : Effect m call m'
  | relocate {id : StorageId} {source destination : PathRef} {m' : Memory}
      (call_eq : call = .relocate id source destination)
      (source_stored : Path.check source.path = .ok ())
      (destination_stored : Path.check destination.path = .ok ())
      (free : (m.tree id).isTaken destination = false)
      (writes : m.Writes id ((m.tree id).relocate source destination).2 m') : Effect m call m'

/-- A write of rows has an effect. -/
theorem effect_upsert (m : Memory) (call : Call) (storage : StorageRef) (rows : List Permission) :
    Effect m call (store.after m (.upsert storage rows)) := by
  rw [show store.after m (.upsert storage rows) = _ from (run_upsert m storage rows).2]
  cases h : m.upsert storage rows with
  | error e => exact .nothing
  | ok both =>
      obtain ⟨kept, left⟩ := both
      obtain ⟨rfl, accepted, writes⟩ := writes_of_upsert h
      refine .upsert (fun row hrow => ?_) writes
      exact Validity.isNamed_of_checkPermission (accepted row (mem_of_mem_keepLast hrow))

/-- A write of prolongations has no effect on the trees. -/
theorem effect_prolong (m : Memory) (call : Call) (id : StorageId) (records : List Prolongation) :
    Effect m call (store.after m (.prolong id records)) := by
  rw [show store.after m (.prolong id records) = _ from (run_prolong m id records).2]
  cases h : m.prolong id records with
  | error e => exact .nothing
  | ok both => exact .keep (writes_of_prolong h)

/-- A call that drops what is under some roots has an effect. -/
theorem effect_deleteUnder (m : Memory) {call : Call} (drops : call.drops = true) (id : StorageId)
    (roots : List PathRef) : Effect m call (store.after m (.deleteUnder id roots)) := by
  rw [show store.after m (.deleteUnder id roots) = _ from (run_deleteUnder m id roots).2]
  cases h : m.deleteUnder id roots with
  | error e => exact .nothing
  | ok both => exact .deleteUnder drops (writes_of_deleteUnder h).2

/-- **Every call** has one of these effects. -/
theorem effect_after (m : Memory) (call : Call) : Effect m call (store.after m call) := by
  cases call with
  | register storage =>
      rw [show store.after m (.register storage) = _ from (run_register m storage).2]
      cases h : m.register storage with
      | error e => exact .nothing
      | ok left => exact .keep (writes_of_register h)
  | upsert storage rows => exact effect_upsert m _ storage rows
  | upsertOne storage row =>
      rw [after_upsertOne]
      exact effect_upsert m _ storage [row]
  | delete id keys =>
      rw [show store.after m (.delete id keys) = _ from (run_delete m id keys).2]
      cases h : m.delete id keys with
      | error e => exact .nothing
      | ok both => exact .delete rfl (writes_of_delete h).2
  | deleteUnder id roots => exact effect_deleteUnder m rfl id roots
  | deleteUnderRoot id root => exact effect_deleteUnder m rfl id [root]
  | relocate id source destination =>
      rw [show store.after m (.relocate id source destination) = _ from
        (run_relocate m id source destination).2]
      cases h : m.relocate id source destination with
      | error e => exact .nothing
      | ok both =>
          obtain ⟨hs, hd, free, -, writes⟩ := writes_of_relocate h
          exact .relocate rfl hs hd free writes
  | prolong id records => exact effect_prolong m _ id records
  | prolongOne record =>
      rw [after_prolongOne]
      exact effect_prolong m _ record.storageId [record]
  | nearestProlongation id path =>
      rw [after_nearestProlongation]
      exact .nothing
  | kindOf | load | loadHeld | storagesHolding | prolongationsAt | prolongations | health =>
      exact .nothing

/-! ## Sound tables -/

/-- A table is **sound** if all its trees are, and only positive numbers name known storages. -/
structure Sound (m : Memory) : Prop where
  tree : ∀ id, (m.tree id).Sound
  positive : ∀ id kind, m.kindOf id = some kind → 0 < id

/-- The table that knows nothing is sound. -/
theorem sound_empty : Sound ∅ := ⟨fun _ => PathTree.sound_empty, fun _ _ h => nomatch h⟩

/-- A write of a sound tree keeps a table sound. -/
theorem Sound.of_writes (h : m.Sound) {id : StorageId} {new : PathTree} (w : m.Writes id new m')
    (sound : new.Sound) : m'.Sound := by
  refine ⟨fun i => ?_, fun i kind hk => ?_⟩
  · rw [w.tree]
    split
    · exact sound
    · exact h.tree i
  · rcases w.named i kind hk with hk | rfl
    · exact h.positive i kind hk
    · exact w.positive

/-- A call **buries** rows if it is an accepted move of a folder with rows to a place that is free but
lies over rows that the folder does not cover. -/
def Buries (m : Memory) (call : Call) : Prop :=
  ∃ id source destination, call = .relocate id source destination ∧ 0 < id ∧
    Path.check source.path = .ok () ∧ Path.check destination.path = .ok () ∧
    (∀ row ∈ m.rows id, ¬ destination.Covers row.place) ∧
    source.Buries destination (m.rows id)

/-- A place is free if it covers no row of the storage. -/
theorem Sound.isTaken_eq_false_iff (h : m.Sound) {id : StorageId} {place : PathRef} :
    (m.tree id).isTaken place = false ↔ ∀ row ∈ m.rows id, ¬ place.Covers row.place := by
  rw [← Bool.not_eq_true, (h.tree id).wellFormed.isTaken_iff, rows_eq]
  constructor
  · intro free row hrow covered
    exact free ⟨row, hrow, PathRef.governs_iff.2 covered⟩
  · rintro free ⟨row, hrow, governed⟩
    exact free row hrow (PathRef.governs_iff.1 governed)

/-- A move to a place that covers rows is refused. -/
theorem Sound.relocate_of_covered (h : m.Sound) {id : StorageId} {source destination : PathRef}
    (positive : 0 < id) (hs : Path.check source.path = .ok ())
    (hd : Path.check destination.path = .ok ())
    (covered : ∃ row ∈ m.rows id, destination.Covers row.place) :
    m.relocate id source destination = .error (.destinationOccupied id destination.path) := by
  have taken : (m.tree id).isTaken destination = true := by
    rw [← Bool.not_eq_false, h.isTaken_eq_false_iff]
    obtain ⟨row, hrow, covers⟩ := covered
    exact fun free => free row hrow covers
  rw [relocate_eq positive hs hd, if_pos taken]

/-- **A move to a free place of the source's type** answers how many rows the source covers. The
listing becomes the old one with these rows carried along, and the other listings stay. -/
theorem Sound.relocate_of_free (h : m.Sound) {id : StorageId} {source destination : PathRef}
    (positive : 0 < id) (hs : Path.check source.path = .ok ())
    (hd : Path.check destination.path = .ok ()) (type : destination.type = source.type)
    (free : ∀ row ∈ m.rows id, ¬ destination.Covers row.place) :
    ∃ m', m.relocate id source destination =
        .ok (((m.rows id).filter fun row => source.Covers row.place).length, m') ∧
      (m'.rows id).Perm ((m.rows id).map (Permission.relocated source destination)) ∧
      ((m'.rows id).map Permission.key).Nodup ∧
      ∀ other, other ≠ id → m'.rows other = m.rows other := by
  have wellFormed := (h.tree id).wellFormed
  have named := Path.isNamed_of_check hd
  have untaken := h.isTaken_eq_false_iff.2 free
  have moved : m.relocate id source destination =
      .ok (((m.tree id).relocate source destination).1,
        m.setTree id ((m.tree id).relocate source destination).2) := by
    rw [relocate_eq positive hs hd, if_neg (Bool.eq_false_iff.1 untaken)]
  obtain ⟨-, -, -, -, writes⟩ := writes_of_relocate moved
  refine ⟨m.setTree id ((m.tree id).relocate source destination).2, ?_, ?_, ?_,
    fun other apart => ?_⟩
  · rw [moved, wellFormed.relocate_fst, rows_eq]
    simp only [← PathRef.governs_iff, Bool.decide_eq_true]
  · rw [rows_eq, rows_eq, writes.tree, if_pos rfl]
    exact wellFormed.rows_relocate_perm named untaken
      (wellFormed.not_buries_of_type_eq type untaken)
  · rw [rows_eq, writes.tree, if_pos rfl]
    exact (wellFormed.relocate source named).nodup_keys
  · rw [rows_eq, rows_eq, writes.tree, if_neg apart]

/-- A call that buries nothing keeps a table sound. -/
theorem Sound.after (h : m.Sound) {call : Call} (shallow : ¬ m.Buries call) :
    (store.after m call).Sound := by
  have effect := effect_after m call
  generalize store.after m call = m' at effect
  cases effect with
  | nothing => exact h
  | keep writes => exact h.of_writes writes (h.tree _)
  | upsert named writes => exact h.of_writes writes ((h.tree _).upsertAll named)
  | delete drops writes => exact h.of_writes writes ((h.tree _).dropKeys _)
  | deleteUnder drops writes => exact h.of_writes writes ((h.tree _).dropTrees _)
  -- a place that is free passes the test of the table, so a move that is unsound buries rows
  | relocate call_eq hs hd free writes =>
      refine h.of_writes writes ((h.tree _).relocate hd free fun buries => shallow ?_)
      rw [← rows_eq] at buries
      exact ⟨_, _, _, call_eq, writes.positive, hs, hd, h.isTaken_eq_false_iff.1 free, buries⟩

/-! ## What is promised of a call -/

/-- What a call should leave behind: counters that agree with the listings, and no shorter listing
unless the call drops rows. -/
structure Faithful (before : Memory) (call : Call) (after : Memory) : Prop where
  counts : ∀ id, after.rowCount id = (after.rows id).length
  found : ∀ sids id, (∃ kind, ⟨id, kind⟩ ∈ after.storagesHolding sids) ↔
    ∃ row ∈ after.rows id, row.sid ∈ sids
  kept : call.drops = false → ∀ id, (before.rows id).length ≤ (after.rows id).length

/-- A sound table counts its rows. -/
theorem Sound.rowCount_eq (h : m.Sound) (id : StorageId) : m.rowCount id = (m.rows id).length := by
  rw [Memory.rowCount_eq, rows_eq, (h.tree id).counted.rowCount_eq]

/-- A sound table finds a storage for some sids exactly if one of them holds a row in it. -/
theorem Sound.mem_storagesHolding (h : m.Sound) {sids : List Sid} {storage : StorageRef} :
    storage ∈ m.storagesHolding sids ↔
      m.kindOf storage.id = some storage.kind ∧ ∃ row ∈ m.rows storage.id, row.sid ∈ sids := by
  rw [Memory.mem_storagesHolding, (h.tree storage.id).counted.holdsAny_iff, rows_eq]

/-- In a sound table rows of one key in one storage are one row. -/
theorem Sound.eq_of_key (h : m.Sound) {id : StorageId} {a b : Permission} (ha : a ∈ m.rows id)
    (hb : b ∈ m.rows id) (same : a.key = b.key) : a = b := by
  rw [rows_eq] at ha hb
  exact (h.tree id).wellFormed.eq_of_key ha hb same

/-- A storage with rows is known. -/
theorem exists_kind_of_mem_rows {id : StorageId} {row : Permission} (h : row ∈ m.rows id) :
    ∃ kind, m.kindOf id = some kind := by
  rw [rows_eq] at h
  rcases m.find?_cases id with ⟨-, -, bare⟩ | ⟨b, -, known, -⟩
  · rw [bare] at h
    exact absurd h List.not_mem_nil
  · exact ⟨b.kind, known⟩

/-- What a write does to the length of the listings. -/
theorem Writes.length_le_iff {id : StorageId} {new : PathTree} (w : m.Writes id new m') :
    (∀ i, (m.rows i).length ≤ (m'.rows i).length) ↔ (m.tree id).rows.length ≤ new.rows.length := by
  have here : m'.tree id = new := by rw [w.tree, if_pos rfl]
  constructor
  · intro hle
    have := hle id
    rwa [rows_eq, rows_eq, here] at this
  · intro hle i
    rw [rows_eq, rows_eq, w.tree]
    by_cases e : i = id
    · rw [if_pos e, e]
      exact hle
    · exact Nat.le_of_eq (by rw [if_neg e])

/-- On a sound table a call that neither drops nor buries rows shortens no listing. -/
theorem Sound.length_le_after (h : m.Sound) {call : Call} (stays : call.drops = false)
    (shallow : ¬ m.Buries call) (i : StorageId) :
    (m.rows i).length ≤ ((store.after m call).rows i).length := by
  have effect := effect_after m call
  generalize store.after m call = m' at effect
  revert i
  cases effect with
  | nothing => exact fun i => Nat.le_refl _
  | keep writes => exact writes.length_le_iff.2 (Nat.le_refl _)
  | upsert named writes => exact writes.length_le_iff.2 ((h.tree _).length_le_upsertAll named)
  | delete drops writes | deleteUnder drops writes =>
      rw [stays] at drops
      cases drops
  | relocate call_eq hs hd free writes =>
      refine writes.length_le_iff.2 (((h.tree _).length_relocate_iff hd free).2 fun buries => ?_)
      rw [← rows_eq] at buries
      exact shallow
        ⟨_, _, _, call_eq, writes.positive, hs, hd, h.isTaken_eq_false_iff.1 free, buries⟩

/-- On a sound table a call that buries rows shortens a listing. -/
theorem Sound.length_after_lt (h : m.Sound) {call : Call} (buries : m.Buries call) :
    ∃ id, ((store.after m call).rows id).length < (m.rows id).length := by
  obtain ⟨id, source, destination, rfl, positive, hs, hd, free, buries⟩ := buries
  have untaken : (m.tree id).isTaken destination = false := h.isTaken_eq_false_iff.2 free
  have moved : m.relocate id source destination =
      .ok (((m.tree id).relocate source destination).1,
        m.setTree id ((m.tree id).relocate source destination).2) := by
    rw [relocate_eq positive hs hd, if_neg (Bool.eq_false_iff.1 untaken)]
  have left : store.after m (.relocate id source destination) =
      m.setTree id ((m.tree id).relocate source destination).2 := by
    rw [show store.after m (.relocate id source destination) = _ from
      (run_relocate m id source destination).2, moved]
    rfl
  obtain ⟨-, -, -, -, writes⟩ := writes_of_relocate moved
  rw [rows_eq] at buries
  have shorter : ¬ ∀ i, (m.rows i).length ≤
      ((store.after m (.relocate id source destination)).rows i).length := by
    rw [left, writes.length_le_iff, (h.tree id).length_relocate_iff hd untaken, not_not]
    exact buries
  obtain ⟨i, hi⟩ := not_forall.1 shorter
  exact ⟨i, Nat.not_le.1 hi⟩

/-! ## Every run -/

/-- A call on a sound table is faithful exactly if it buries nothing. -/
theorem Sound.faithful_iff (h : m.Sound) (call : Call) :
    m.Faithful call (store.after m call) ↔ ¬ m.Buries call := by
  constructor
  · intro faithful buries
    obtain ⟨id, shorter⟩ := h.length_after_lt buries
    obtain ⟨id', source, destination, rfl, -⟩ := buries
    exact absurd (faithful.kept rfl id) (Nat.not_le.2 shorter)
  · intro shallow
    have sound := h.after shallow
    refine ⟨sound.rowCount_eq, fun sids id => ?_, fun stays id => h.length_le_after stays shallow id⟩
    constructor
    · rintro ⟨kind, hmem⟩
      exact (sound.mem_storagesHolding.1 hmem).2
    · rintro ⟨row, hrow, hsid⟩
      obtain ⟨kind, known⟩ := exists_kind_of_mem_rows hrow
      exact ⟨kind, sound.mem_storagesHolding.2 ⟨known, row, hrow, hsid⟩⟩

/-- **A run from the empty table is faithful, call for call, exactly if none of its calls buries
rows.** -/
theorem eachCall_faithful_iff (calls : List Call) :
    store.EachCall ∅ calls (fun m call => m.Faithful call (store.after m call)) ↔
      store.EachCall ∅ calls (fun m call => ¬ m.Buries call) :=
  eachCall_congr (fun _ h call => h.faithful_iff call) (fun _ h _ shallow => h.after shallow)
    sound_empty

/-- Two folders are granted, and one of them is moved to where the other is, but as to a file. -/
def burying : List Call :=
  let grant : String → String → Permission := fun path user =>
    ⟨path, .folder, .user user, .read, .epoch⟩
  [.upsert ⟨1, .s3⟩ [grant "a" "u", grant "b" "v"], .relocate 1 (.folder "a") (.file "b")]

/-- Not every run is faithful: after this one two rows are counted, and one is listed. -/
theorem not_eachCall_faithful :
    ¬ ∀ calls, store.EachCall ∅ calls fun m call => m.Faithful call (store.after m call) := by
  intro always
  have faithful := always burying (burying.take 1) (.relocate 1 (.folder "a") (.file "b")) [] rfl
  have counted : (store.after (store.afterAll ∅ (burying.take 1))
      (.relocate 1 (.folder "a") (.file "b"))).rowCount 1 = 2 := by decide
  have listed : ((store.after (store.afterAll ∅ (burying.take 1))
      (.relocate 1 (.folder "a") (.file "b"))).rows 1).length = 1 := by decide
  have agree := faithful.counts 1
  rw [counted, listed] at agree
  cases agree

end PathAcl.Memory
