import Mathlib.Data.List.Dedup
import PathAcl.Proofs.Engine.Effects
import PathAcl.Proofs.Mask
import PathAcl.Proofs.Resolution.Deciding

/-! # Resolution
The effective mask on a target is made of the masks of the deciding rows, one for each sid; the order
and the repeats of the sids, and all other rows, make no difference. -/

namespace PathAcl

/-- What sids are granted on a target: the masks of their deciding rows together. -/
def decidedMask (rows : List Permission) (target : PathRef) (sids : List Sid) : Mask :=
  sids.dedup.foldl (fun mask sid => mask ||| decidingMask rows target sid) .none

/-- The effective mask is that of the deciding rows, given all rows of the sids that reach the
target. -/
theorem effectiveMask_eq {rows held : List Permission} {target : PathRef} {sids : List Sid}
    (unique : ∀ a ∈ rows, ∀ b ∈ rows, a.key = b.key → a = b)
    (listed : ∀ row ∈ held, row.sid ∈ sids)
    (complete : ∀ row, row.sid ∈ sids → row.place.reaches target = true →
      (row ∈ held ↔ row ∈ rows)) :
    effectiveMask held target = decidedMask rows target sids := by
  have same : ∀ sid ∈ sids,
      (nearestMask held target sid).getD .none = decidingMask rows target sid := by
    intro sid hsid
    exact nearestMask_eq unique fun row e => complete row (e ▸ hsid)
  refine Mask.foldl_or_congr fun i => ?_
  constructor
  · rintro ⟨sid, hsid, set⟩
    obtain ⟨row, hrow, rfl⟩ := List.mem_map.1 ((SortedSet.mem_members_ofList _ _).1 hsid)
    have asked := listed row hrow
    rw [same _ asked] at set
    exact ⟨row.sid, List.mem_dedup.2 asked, set⟩
  · rintro ⟨sid, hsid, set⟩
    have asked := List.mem_dedup.1 hsid
    rw [← same sid asked] at set
    refine ⟨sid, (SortedSet.mem_members_ofList _ _).2 (List.mem_map.2 ?_), set⟩
    -- a sid that grants something has a deciding row, and this row was held
    rw [same sid asked, decidingMask] at set
    cases h : decidingRow rows target sid with
    | none =>
        rw [h] at set
        cases (Mask.bit_none i).symm.trans set
    | some row =>
        obtain ⟨⟨hrow, rfl, reaches⟩, -⟩ := of_decidingRow_eq_some h
        exact ⟨row, (complete row asked reaches).2 hrow, rfl⟩

/-! ## The resolver -/

namespace Engine

open Memory

variable {catalog : Catalog} {maxBatch : Nat} {s : EngineState Memory}

/-- The rows held for some targets make the effective mask of each of them. -/
theorem effectiveMask_rowsFor {t : PathTree} (h : t.WellFormed) {targets : List PathRef}
    {target : PathRef} (htarget : target ∈ targets) (sids : List Sid) :
    effectiveMask (t.rowsFor (SortedSet.ofList (targets.flatMap PathRef.reachedFrom)).members
      (distinctSids sids)) target = decidedMask t.rows target sids := by
  have sid_iff : ∀ sid, sid ∈ distinctSids sids ↔ sid ∈ sids := fun sid =>
    SortedSet.mem_members_ofList sids sid
  refine effectiveMask_eq (fun a ha b hb => h.eq_of_key ha hb) (fun row hrow => ?_)
    fun row hsid reaches => ?_
  · exact (sid_iff _).1 (h.mem_rowsFor.1 hrow).2.2
  · rw [h.mem_rowsFor, SortedSet.mem_members_ofList, sid_iff, List.mem_flatMap]
    constructor
    · exact And.left
    · exact fun hrow => ⟨hrow, ⟨target, htarget, PathRef.mem_reachedFrom.2 reaches⟩, hsid⟩

/-- The masks of targets in normal form are those of the deciding rows. -/
theorem answer_effectiveOf (sound : s.store.Sound) {id : StorageId} (positive : 0 < id)
    (targets : SortedSet PathRef) (sids : List Sid) :
    ∃ masks, (((engine catalog maxBatch).effectiveOf id targets sids).run s).answer = .ok masks ∧
      ∀ target ∈ targets.members,
        masks.find? target = some (decidedMask (s.store.rows id) target sids) := by
  rw [effectiveOf]
  by_cases none_asked : ((distinctSids sids).isEmpty || targets.isEmpty) = true
  · rw [if_pos none_asked]
    refine ⟨_, rfl, fun target htarget => ?_⟩
    have no_sids : sids = [] := by
      rcases Bool.or_eq_true_iff.1 none_asked with bare | bare
      · exact SortedSet.members_ofList_eq_nil_iff.1 (List.isEmpty_iff.1 bare)
      · rw [(SortedSet.isEmpty_iff _).1 bare] at htarget
        exact absurd htarget List.not_mem_nil
    rw [SortedMap.find?_foldl_insert, if_pos htarget, no_sids]
    rfl
  · rw [if_neg none_asked]
    have loaded := @loadHeld_eq s.store id positive
      (SortedSet.ofList (targets.members.flatMap PathRef.reachedFrom)).members (distinctSids sids)
    have answered : ((onStore ((engine catalog maxBatch).store.loadHeld id
        (SortedSet.ofList (targets.members.flatMap PathRef.reachedFrom)).members
        (distinctSids sids))).run s).answer = .ok ((s.store.tree id).rowsFor
          (SortedSet.ofList (targets.members.flatMap PathRef.reachedFrom)).members
          (distinctSids sids)) := congrArg (Except.mapError RequestError.ofStore) loaded
    refine ⟨_, (Action.run_bind_of_ok answered rfl).1, fun target htarget => ?_⟩
    rw [SortedMap.find?_foldl_insert, if_pos htarget,
      effectiveMask_rowsFor (sound.tree id).wellFormed htarget, rows_eq]

/-- The resolver answers the masks of the deciding rows on a target that has a normal form. -/
theorem answer_resolve (sound : s.store.Sound) {id : StorageId} (positive : 0 < id)
    {target place : PathRef} (normal : Request.normalRef target = .ok place) (sids : List Sid) :
    (((engine catalog maxBatch).resolve id target sids).run s).answer =
      .ok (decidedMask (s.store.rows id) place sids) := by
  obtain ⟨masks, answered, found⟩ := @answer_effectiveOf catalog maxBatch s sound id positive
    (SortedSet.ofList [place]) sids
  have asked : place ∈ (SortedSet.ofList [place]).members :=
    (SortedSet.mem_members_ofList _ _).2 List.mem_cons_self
  simp only [resolve]
  rw [(Action.run_ofExcept_of_ok normal).1, (Action.run_bind_of_ok answered rfl).1, found _ asked]
  rfl

/-- **The resolver answers the masks of the deciding rows**, one for each distinct sid, put together:
in every state that a run of the engine reaches, for every target that has a normal form. -/
theorem resolve_answers_decidedMask (reached : Reached catalog maxBatch s) {id : StorageId}
    (positive : 0 < id) {target : PathRef} {p : String} (hp : Path.normalize target.path = .ok p)
    (sids : List Sid) :
    (((engine catalog maxBatch).resolve id target sids).run s).answer =
      .ok (decidedMask (s.store.rows id) ⟨p, target.type⟩ sids) := by
  have normal : Request.normalRef target = .ok ⟨p, target.type⟩ :=
    normalRef_eq_ok_iff.2 ⟨hp, rfl⟩
  exact answer_resolve reached.sound positive normal sids

/-- A user with rows at a folder and at a file in it, and a group with a row at the folder alone. -/
def nested : EngineState Memory :=
  (engine .ofStore 10).afterAll ⟨∅, IndexSettings.default.start⟩
    [.call (.register ⟨1, .s3⟩),
      .call (.insert .epoch ⟨1, .s3⟩ [⟨"a", .folder, .user "u", .read⟩,
        ⟨"a/x", .file, .user "u", .write⟩, ⟨"a", .folder, .group "g", .execute⟩])]

/-- At the file the user has what the file row grants, and the group what the folder row does. -/
theorem resolve_nested : (((engine .ofStore 10).resolve 1 (.file "/a//x")
    [.group "g", .user "u", .group "g"]).run nested).answer = .ok (.write ||| .execute) := by
  have reached : Reached .ofStore 10 nested := ⟨.default, _, rfl⟩
  have normal : Path.normalize (PathRef.file "/a//x").path = .ok "a/x" := rfl
  rw [resolve_answers_decidedMask reached (by decide) normal]
  exact congrArg Except.ok (by decide)

end Engine

end PathAcl
