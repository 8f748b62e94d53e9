import PathAcl.Engine.Requests
import PathAcl.Proofs.Engine.Demands
import PathAcl.Proofs.Engine.Resolution

/-! # Resolution of a batch
A request for many masks asks the store once for all its items, under their normal forms, and then looks
each item up again. The answer is nevertheless the one each item would get alone: rows that were fetched
for another item are sorted out, and items that are spelled differently meet under one normal form. -/

namespace PathAcl

/-- A reference is refused if its path has no normal form. -/
theorem exists_normalRef_eq_error_iff {r : PathRef} :
    (∃ e, Request.normalRef r = .error e) ↔ ¬ Path.Normalizable r.path := by
  cases taken : Request.normalRef r with
  | ok normal =>
      apply iff_of_false
      · rintro ⟨e, h⟩
        cases h
      · intro bad
        exact bad ⟨normal.path, (Engine.normalRef_eq_ok_iff.1 taken).1⟩
  | error e =>
      apply iff_of_true ⟨e, rfl⟩
      rintro ⟨path, good⟩
      have found : Request.normalRef r = .ok ⟨path, r.type⟩ :=
        Engine.normalRef_eq_ok_iff.2 ⟨good, rfl⟩
      cases taken.symm.trans found

namespace Engine

open Memory

variable {catalog : Catalog} {maxBatch : Nat} {s : EngineState Memory}

/-! ## The request -/

/-- What a request for masks is answered: the first item without a normal form fails it, and without such
an item each gets the mask of its deciding rows. -/
theorem answer_answerResolve (sound : s.store.Sound) {r : ResolveRequest} (positive : 0 < r.storageId)
    (sids : List Sid) :
    (((engine catalog maxBatch).answerResolve r (.ok sids)).run s).answer =
      (r.items.mapM Request.normalRef).map fun places => places.map fun place =>
        ⟨place.path, place.type, decidedMask (s.store.rows r.storageId) place sids⟩ := by
  have keeps := @state_resolveAll catalog maxBatch s r.storageId r.items sids
  rw [answerResolve, (Action.run_ofExcept_of_ok rfl).1]
  cases mapped : r.items.mapM Request.normalRef with
  | error e =>
      have failed : (((engine catalog maxBatch).resolveAll r.storageId r.items sids).run s).answer =
          .error e := by
        rw [resolveAll, mapped]
        rfl
      rw [Action.answer_bind, failed]
      rfl
  | ok places =>
      obtain ⟨masks, answered, found⟩ := @answer_effectiveOf catalog maxBatch s sound r.storageId
        positive (SortedSet.ofList places) sids
      have asked : (((engine catalog maxBatch).resolveAll r.storageId r.items sids).run s).answer =
          .ok masks := by
        rw [resolveAll, mapped, (Action.run_ofExcept_of_ok rfl).1, answered]
      rw [(Action.run_bind_of_ok asked keeps).1]
      -- every place was asked for, so none of the look-ups misses
      show Except.ok (places.map fun t => (⟨t.path, t.type, (masks.find? t).getD .none⟩ : ResolvedMask)) =
        .ok _
      apply congrArg Except.ok
      apply List.map_congr_left
      intro place hplace
      rw [found place ((SortedSet.mem_members_ofList _ _).2 hplace)]
      rfl

/-- Asking for masks keeps the state, whether it is answered or not. -/
theorem state_answerResolve (r : ResolveRequest) (caller : Except RequestError (List Sid)) :
    (((engine catalog maxBatch).answerResolve r caller).run s).state = s := by
  refine Action.state_bind_of_keeps (p := (· = s)) rfl rfl fun sids _ => ?_
  refine Action.state_bind_of_keeps (p := (· = s)) (state_resolveAll r.storageId r.items sids) rfl
    fun masks _ => ?_
  refine Action.state_bind_of_keeps (p := (· = s)) rfl rfl fun _ _ => ?_
  exact Action.state_bind_of_keeps (p := (· = s)) rfl rfl fun _ _ => rfl

/-- An answer belongs to an item of a request for masks: it names the item's normal form and its type, and
has the mask that the item gets if it is resolved alone. -/
structure AnswersItem (catalog : Catalog) (maxBatch : Nat) (s : EngineState Memory) (id : StorageId)
    (sids : List Sid) (item : PathRef) (result : ResolvedMask) : Prop where
  path : Path.normalize item.path = .ok result.path
  type : result.type = item.type
  mask : (((engine catalog maxBatch).resolve id item sids).run s).answer = .ok result.mask

/-- **A batch is resolved item by item**, in every state that a run of the engine reaches and for all
sids: it fails just if some item has no normal form, and otherwise gives one answer for each item, in the
order of the items. Nothing is written either way. A caller whose sids cannot be told gets that failure. -/
theorem answerResolve_item_by_item (reached : Reached catalog maxBatch s) {r : ResolveRequest}
    (positive : 0 < r.storageId) (sids : List Sid) :
    ((∃ e, (((engine catalog maxBatch).answerResolve r (.ok sids)).run s).answer = .error e) ↔
        ∃ item ∈ r.items, ¬ Path.Normalizable item.path) ∧
      (∀ results, (((engine catalog maxBatch).answerResolve r (.ok sids)).run s).answer = .ok results →
        List.Forall₂ (AnswersItem catalog maxBatch s r.storageId sids) r.items results) ∧
      (∀ e, (((engine catalog maxBatch).answerResolve r (.error e)).run s).answer = .error e) ∧
      ∀ caller, (((engine catalog maxBatch).answerResolve r caller).run s).state = s := by
  have answer := @answer_answerResolve catalog maxBatch s reached.sound r positive sids
  refine ⟨?_, ?_, fun e => rfl, state_answerResolve r⟩
  · have refused : (∃ e, r.items.mapM Request.normalRef = .error e) ↔
        ∃ item ∈ r.items, ¬ Path.Normalizable item.path := by
      rw [mapM_eq_error_iff]
      simp only [exists_normalRef_eq_error_iff]
    rw [answer, ← refused]
    cases r.items.mapM Request.normalRef with
    | error e => exact iff_of_true ⟨e, rfl⟩ ⟨e, rfl⟩
    | ok places => exact iff_of_false nofun nofun
  · intro results answered
    rw [answer] at answered
    cases mapped : r.items.mapM Request.normalRef with
    | error e =>
        rw [mapped] at answered
        cases answered
    | ok places =>
        rw [mapped] at answered
        obtain rfl := Except.ok.inj answered
        rw [List.forall₂_map_right_iff]
        apply (mapM_eq_ok_iff_forall₂.1 mapped).imp
        intro item place normal
        obtain ⟨path, type⟩ := normalRef_eq_ok_iff.1 normal
        exact ⟨path, type, answer_resolve reached.sound positive normal sids⟩

/-- Two spellings of one file, the folder of its name, and the folder they are in. -/
def mixedItems : ResolveRequest := ⟨1, [.file "/a//x", .folder "a/x", .folder "a", .file "a/x"]⟩

/-- The file has its own mask under both spellings, and the folders have what the folder row grants. -/
theorem answerResolve_mixedItems :
    (((engine .ofStore 10).answerResolve mixedItems (.ok [.group "g", .user "u"])).run nested).answer =
        .ok [⟨"a/x", .file, .write ||| .execute⟩, ⟨"a/x", .folder, .read ||| .execute⟩,
          ⟨"a", .folder, .read ||| .execute⟩, ⟨"a/x", .file, .write ||| .execute⟩] ∧
      List.Forall₂ (AnswersItem .ofStore 10 nested 1 [.group "g", .user "u"]) mixedItems.items
        [⟨"a/x", .file, .write ||| .execute⟩, ⟨"a/x", .folder, .read ||| .execute⟩,
          ⟨"a", .folder, .read ||| .execute⟩, ⟨"a/x", .file, .write ||| .execute⟩] := by
  have reached : Reached .ofStore 10 nested := ⟨.default, _, rfl⟩
  have answered : (((engine .ofStore 10).answerResolve mixedItems
      (.ok [.group "g", .user "u"])).run nested).answer =
      .ok [⟨"a/x", .file, .write ||| .execute⟩, ⟨"a/x", .folder, .read ||| .execute⟩,
        ⟨"a", .folder, .read ||| .execute⟩, ⟨"a/x", .file, .write ||| .execute⟩] := by
    rw [answer_answerResolve reached.sound (by decide)]
    decide
  exact ⟨answered, (answerResolve_item_by_item reached (by decide) _).2.1 _ answered⟩

end Engine

end PathAcl
