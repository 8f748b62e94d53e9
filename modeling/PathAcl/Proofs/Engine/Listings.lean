import PathAcl.Proofs.Engine.Effects
import PathAcl.Proofs.Index.Agreement

/-! # Listings with and without an index
An engine that keeps an index lists the same storages as one that keeps none, turn for turn of the
same run. What carries this is that the index agrees with the table: every write is noted with the
sids it touched, and a move touches none, since every sid keeps its rows in the storage. -/

namespace PathAcl

open Std Memory

/-! ## What the table answers after a write -/

namespace Engine

variable {m m' : Memory} {id : StorageId} {new : PathTree}

/-- A write changes the answers to those questions alone that name a sid which gains its first row in
the storage or loses its last one there. -/
theorem holding_eq_of_writes (h : m.Sound) (h' : m'.Sound) (w : m.Writes id new m') {q : SidSet}
    (same : ∀ sid ∈ q.members,
      (∃ row ∈ new.rows, row.sid = sid) ↔ ∃ row ∈ (m.tree id).rows, row.sid = sid) :
    holding m' q = holding m q := by
  refine SortedSet.ext_mem fun storage => ?_
  rw [holding, holding, SortedSet.mem_members_ofList, SortedSet.mem_members_ofList,
    h.mem_storagesHolding, h'.mem_storagesHolding]
  have rows : (∃ row ∈ m'.rows storage.id, row.sid ∈ q.members) ↔
      ∃ row ∈ m.rows storage.id, row.sid ∈ q.members := by
    rw [rows_eq, rows_eq, w.tree]
    by_cases e : storage.id = id
    · rw [if_pos e, e]
      constructor
      · rintro ⟨row, hrow, hsid⟩
        obtain ⟨old, hold, sids⟩ := (same row.sid hsid).1 ⟨row, hrow, rfl⟩
        exact ⟨old, hold, sids ▸ hsid⟩
      · rintro ⟨row, hrow, hsid⟩
        obtain ⟨later, hlater, sids⟩ := (same row.sid hsid).2 ⟨row, hrow, rfl⟩
        exact ⟨later, hlater, sids ▸ hsid⟩
    · rw [if_neg e]
  rw [rows]
  refine and_congr_left fun held => ?_
  constructor
  · intro known
    -- a storage in which a row is held was known before, and keeps its kind
    obtain ⟨row, hrow, -⟩ := held
    obtain ⟨kind, before⟩ := exists_kind_of_mem_rows hrow
    rw [w.known storage.id kind before] at known
    rw [before, known]
  · exact w.known storage.id storage.kind

/-- Writing rows touches the sids of the rows that are written. -/
theorem holding_upsert (h : m.Sound) {storage : StorageRef} {rows written : List Permission}
    (hm : m.upsert storage rows = .ok (written, m')) (h' : m'.Sound) {q : SidSet}
    (untouched : ∀ sid ∈ q.members, sid ∉ distinctSids (written.map Permission.sid)) :
    holding m' q = holding m q := by
  obtain ⟨rfl, accepted, writes⟩ := writes_of_upsert hm
  refine holding_eq_of_writes h h' writes fun sid hsid => ?_
  have named : ∀ row ∈ Permission.keepLast rows, Path.IsNamed row.path := fun row hrow =>
    Validity.isNamed_of_checkPermission (accepted row (mem_of_mem_keepLast hrow))
  have perm := (h.tree storage.id).wellFormed.rows_foldl_upsert_perm
    (nodup_keepLast Permission.key rows) named
  have absent : ∀ row ∈ Permission.keepLast rows, row.sid ≠ sid := by
    rintro row hrow rfl
    refine untouched row.sid hsid ((SortedSet.mem_members_ofList _ _).2 ?_)
    exact List.mem_map.2 ⟨row, hrow, rfl⟩
  constructor
  · rintro ⟨row, hrow, rfl⟩
    rcases List.mem_append.1 (perm.mem_iff.1 hrow) with hrow | hrow
    · exact absurd rfl (absent row hrow)
    · exact ⟨row, (List.mem_filter.1 hrow).1, rfl⟩
  · rintro ⟨row, hrow, rfl⟩
    refine ⟨row, perm.mem_iff.2 (List.mem_append_right _ (List.mem_filter.2 ⟨hrow, ?_⟩)), rfl⟩
    refine decide_eq_true fun hmem => ?_
    obtain ⟨other, hother, key⟩ := List.mem_map.1 hmem
    exact absent other hother (congrArg PermissionKey.sid key)

/-- Dropping rows touches the sids of the keys that are dropped. -/
theorem holding_drop (h : m.Sound) (h' : m'.Sound) (w : m.Writes id new m')
    {dropped : List PermissionKey} (fewer : ∀ row ∈ new.rows, row ∈ (m.tree id).rows)
    (stays : ∀ row ∈ (m.tree id).rows, row.key ∉ dropped → row ∈ new.rows) {q : SidSet}
    (untouched : ∀ sid ∈ q.members, sid ∉ distinctSids (dropped.map PermissionKey.sid)) :
    holding m' q = holding m q := by
  refine holding_eq_of_writes h h' w fun sid hsid => ?_
  constructor
  · rintro ⟨row, hrow, rfl⟩
    exact ⟨row, fewer row hrow, rfl⟩
  · rintro ⟨row, hrow, rfl⟩
    refine ⟨row, stays row hrow fun hmem => untouched row.sid hsid ?_, rfl⟩
    exact (SortedSet.mem_members_ofList _ _).2 (List.mem_map.2 ⟨row.key, hmem, rfl⟩)

/-- Dropping keys touches the sids of those that are found. -/
theorem holding_delete (h : m.Sound) {keys dropped : List PermissionKey}
    (hm : m.delete id keys = .ok (dropped, m')) (h' : m'.Sound) {q : SidSet}
    (untouched : ∀ sid ∈ q.members, sid ∉ distinctSids (dropped.map PermissionKey.sid)) :
    holding m' q = holding m q := by
  obtain ⟨rfl, writes⟩ := writes_of_delete hm
  have mem := fun row => @mem_rows_dropKeys _ (h.tree id).wellFormed keys row
  refine holding_drop h h' writes (fun row hrow => ((mem row).1 hrow).1) ?_ untouched
  exact fun row hrow kept => (mem row).2 ⟨hrow, kept⟩

/-- Dropping subtrees touches the sids of the rows in them. -/
theorem holding_deleteUnder (h : m.Sound) {roots : List PathRef} {dropped : List PermissionKey}
    (hm : m.deleteUnder id roots = .ok (dropped, m')) (h' : m'.Sound) {q : SidSet}
    (untouched : ∀ sid ∈ q.members, sid ∉ distinctSids (dropped.map PermissionKey.sid)) :
    holding m' q = holding m q := by
  obtain ⟨rfl, writes⟩ := writes_of_deleteUnder hm
  have mem := fun row => @mem_rows_dropTrees _ (h.tree id).wellFormed roots row
  refine holding_drop h h' writes (fun row hrow => ((mem row).1 hrow).1) ?_ untouched
  exact fun row hrow kept => (mem row).2 ⟨hrow, fun hmem => kept (List.mem_map.2 ⟨row, hmem, rfl⟩)⟩

/-- A move between places of one type touches no sid. -/
theorem holding_relocate (h : m.Sound) {source destination : PathRef} {moved : Nat}
    (hm : m.relocate id source destination = .ok (moved, m')) (h' : m'.Sound)
    (type : destination.type = source.type) (q : SidSet) : holding m' q = holding m q := by
  obtain ⟨-, hd, free, -, writes⟩ := writes_of_relocate hm
  refine holding_eq_of_writes h h' writes fun sid _ => ?_
  have wellFormed := (h.tree id).wellFormed
  have perm := wellFormed.rows_relocate_perm (Path.isNamed_of_check hd) free
    (wellFormed.not_buries_of_type_eq type free)
  -- a moved row keeps its sid and its storage, so it goes on answering the same questions
  constructor
  · rintro ⟨row, hrow, rfl⟩
    obtain ⟨old, hold, rfl⟩ := List.mem_map.1 (perm.mem_iff.1 hrow)
    exact ⟨old, hold, (Permission.sid_relocated source destination old).symm⟩
  · rintro ⟨row, hrow, rfl⟩
    refine ⟨row.relocated source destination, ?_, Permission.sid_relocated source destination row⟩
    exact perm.mem_iff.2 (List.mem_map.2 ⟨row, hrow, rfl⟩)

/-! ## Coherent states -/

variable {catalog : Catalog} {maxBatch : Nat} {s t : EngineState Memory}

/-- A state is **coherent** if its table is sound and the index, if one is kept, agrees with what the
table answers. -/
structure Coherent (s : EngineState Memory) : Prop where
  sound : s.store.Sound
  agrees : ∀ x, s.index = some x → x.Agrees (holding s.store)

/-- A noted write leaves an index that agrees with the new answers. -/
theorem Coherent.noted (h : Coherent s) {m : Memory} {sids : List Sid}
    (stable : ∀ q : SidSet, (∀ sid ∈ q.members, sid ∉ sids) → holding m q = holding s.store q) :
    ∀ x, noted s.index id sids = some x → x.Agrees (holding m) := by
  intro x hx
  obtain ⟨old, hold, rfl⟩ := Option.map_eq_some_iff.1 hx
  exact (h.agrees old hold).noteWrite id sids stable

/-- If the answers stay, an index that agrees with them goes on doing so. -/
theorem Coherent.keep (h : Coherent s) {m : Memory} (same : ∀ q, holding m q = holding s.store q) :
    ∀ x, s.index = some x → x.Agrees (holding m) := by
  intro x hx
  rw [show holding m = holding s.store from funext same]
  exact h.agrees x hx

/-- **Every turn keeps a state coherent.** -/
theorem Effect.coherent (effect : Effect s t) (h : Coherent s) : Coherent t := by
  have sound := effect.sound h.sound
  refine ⟨sound, ?_⟩
  cases effect with
  | nothing => exact h.agrees
  | keep writes => exact h.keep fun q => holding_eq_of_writes h.sound sound writes fun _ _ => Iff.rfl
  | insert upsert => exact h.noted fun q => holding_upsert h.sound upsert sound
  | delete delete => exact h.noted fun q => holding_delete h.sound delete sound
  | deleteUnder delete => exact h.noted fun q => holding_deleteUnder h.sound delete sound
  | move relocate type =>
      have same := holding_relocate h.sound relocate sound type
      split
      · exact h.noted fun q _ => same q
      · exact h.keep same
  | remember index =>
      intro x hx
      obtain rfl := Option.some.inj hx
      exact (h.agrees _ index).remember _
  | lose question =>
      intro x hx
      obtain ⟨old, hold, rfl⟩ := Option.map_eq_some_iff.1 hx
      exact (h.agrees old hold).lose question

/-- A state over the empty table is coherent before its index remembers anything. -/
theorem coherent_start (settings : IndexSettings) : Coherent ⟨∅, settings.start⟩ := by
  refine ⟨sound_empty, fun x hx => ?_⟩
  rw [IndexSettings.start] at hx
  split at hx
  · obtain rfl := Option.some.inj hx
    exact StorageIndex.agrees_empty
  · cases hx

/-- A run from a coherent state keeps it coherent. -/
theorem Coherent.afterAll (h : Coherent s) (turns : List Turn) :
    Coherent ((engine catalog maxBatch).afterAll s turns) :=
  afterAll_induction _ (fun _ turn before => (effect_after turn).coherent before) h turns

/-- A reached state is coherent. -/
theorem Reached.coherent (h : Reached catalog maxBatch s) : Coherent s := by
  obtain ⟨settings, turns, rfl⟩ := h
  exact (coherent_start settings).afterAll turns

/-! ## The same answers -/

/-- A coherent state answers which storages can be read as if no index were kept. -/
theorem Coherent.answer_readable (h : Coherent s) (sids : List Sid) :
    (((engine catalog maxBatch).readable sids).run s).answer =
      .ok (if (SortedSet.ofList sids).isEmpty then ∅ else holding s.store (SortedSet.ofList sids)) := by
  rw [(run_readable sids).1]
  cases hx : remembered? s.index (SortedSet.ofList sids) with
  | none => rfl
  | some answer =>
      obtain ⟨x, index, remembered⟩ := Option.bind_eq_some_iff.1 hx
      rw [Option.getD_some, (h.agrees x index).holds _ answer remembered]

/-- Two coherent states over one table list the same, turn for turn. -/
theorem listings_eq (hs : Coherent s) (ht : Coherent t) (same : s.store = t.store)
    (turns : List Turn) :
    (engine catalog maxBatch).listings s turns = (engine catalog maxBatch).listings t turns := by
  induction turns generalizing s t with
  | nil => rfl
  | cons turn turns ih =>
      have here : (engine catalog maxBatch).listing? s turn =
          (engine catalog maxBatch).listing? t turn := by
        cases turn with
        | lose question => rfl
        | call c =>
            cases c with
            | readable sids =>
                refine congrArg some ?_
                rw [hs.answer_readable, ht.answer_readable, same]
            | _ => rfl
      -- what is left is two coherent states over one table again
      rw [listings, listings, here]
      refine congrArg (_ ++ ·) (ih ?_ ?_ (store_after_eq _ store_readable same turn))
      · exact (effect_after turn).coherent hs
      · exact (effect_after turn).coherent ht

/-- **Keeping an index makes no difference**: in every run from the empty table, whatever entries the
index loses on the way, an engine lists the same storages with an index and without. -/
theorem listings_eq_without_index (catalog : Catalog) (maxBatch : Nat) (settings : IndexSettings)
    (turns : List Turn) :
    (engine catalog maxBatch).listings ⟨∅, settings.start⟩ turns =
      (engine catalog maxBatch).listings ⟨∅, none⟩ turns := by
  have unindexed : Coherent ⟨∅, none⟩ := ⟨sound_empty, fun _ h => (nomatch h)⟩
  exact listings_eq (coherent_start settings) unindexed rfl turns

end Engine

end PathAcl
