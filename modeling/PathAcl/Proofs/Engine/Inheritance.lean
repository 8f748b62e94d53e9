import PathAcl.Proofs.Engine.Moves
import PathAcl.Proofs.Engine.Resolution
import PathAcl.Proofs.Resolution.Inheritance

/-! # Resolution across a move
A folder takes its own grants along when it moves, and leaves behind what it inherited. What the
resolver answers after the move is told by what it answered before. -/

namespace PathAcl.Engine

open Memory

variable {catalog : Catalog} {maxBatch : Nat} {s : EngineState Memory}

/-- What one sid is granted is the mask of its deciding row. -/
theorem decidedMask_singleton (rows : List Permission) (target : PathRef) (sid : Sid) :
    decidedMask rows target [sid] = decidingMask rows target sid := by
  have alone : decidedMask rows target [sid] = .none ||| decidingMask rows target sid := rfl
  rw [alone]
  refine Mask.ext_bit fun i => ?_
  rw [Mask.bit_or, Mask.bit_none, Bool.false_or]

/-- The resolver answers one sid the mask of its deciding row. -/
theorem answer_resolve_singleton (sound : s.store.Sound) {id : StorageId} (positive : 0 < id)
    {target place : PathRef} (normal : Request.normalRef target = .ok place) (sid : Sid) :
    (((engine catalog maxBatch).resolve id target [sid]).run s).answer =
      .ok (decidingMask (s.store.rows id) place sid) := by
  rw [answer_resolve sound positive normal, decidedMask_singleton]

/-- A target without a normal form is refused in every state alike. -/
theorem answer_resolve_malformed {target : PathRef} {e : RequestError}
    (malformed : Request.normalRef target = .error e) (id : StorageId) (sids : List Sid) :
    (((engine catalog maxBatch).resolve id target sids).run s).answer = .error e := by
  simp only [resolve]
  rw [Action.answer_bind, malformed]
  rfl

/-- A folder move that goes through moves the folder in the listing. -/
theorem GoesThrough.folderMoved {storage : StorageRef} {source destination : PathRef} {p q : String}
    (h : GoesThrough catalog s storage source destination ⟨p, .folder⟩ ⟨q, .folder⟩)
    (reached : Reached catalog maxBatch s) :
    FolderMoved p q (s.store.rows storage.id)
      ((((engine catalog maxBatch).move storage source destination).run s).state.store.rows
        storage.id) := by
  have reachedLater := reached.after (.call (.move storage source destination))
  obtain ⟨-, listing, -⟩ := h.carries reached.sound maxBatch
  refine ⟨fun a ha b hb => reached.sound.eq_of_key ha hb,
    fun a ha b hb => reachedLater.sound.eq_of_key ha hb, fun row => ?_,
    fun row hrow => h.free row hrow, ?_⟩
  · rw [listing.mem_iff, List.mem_map]
  · obtain ⟨-, -, -, apart⟩ := checkMove_eq_ok_iff.1 h.accepted
    intro inside
    have atOrBeneath := Path.isAtOrBeneath_iff.2 inside
    rw [Path.isAtOrBeneath, Bool.or_eq_true, beq_iff_eq] at atOrBeneath
    rcases atOrBeneath with same | beneath
    · exact h.apart (congrArg (PathRef.mk · .folder) same.symm)
    · exact apart ⟨rfl, beneath⟩

/-- **What the resolver answers after a folder moved from `p` to `q`**, for one sid, a type and a suffix
`r` of paths. Where a row of the sid in the folder reached `p ++ r`, it is granted at `q ++ r` what it
was granted at `p ++ r`, else what it was granted at `q ++ r` itself. At `p ++ r` it is left with the
mask of its folder row nearest above `p`. Neither at or under `p` nor at or under `q` anything
changes. -/
theorem resolve_after_folder_move (reached : Reached catalog maxBatch s) {storage : StorageRef}
    {source destination : PathRef} {p q : String} (folder : source.type = .folder)
    (hp : Path.normalize source.path = .ok p) (hq : Path.normalize destination.path = .ok q)
    (apart : p ≠ q) {moved : Nat}
    (succeeds : (((engine catalog maxBatch).move storage source destination).run s).answer =
      .ok moved) (sid : Sid) (type : PathType) {r : String}
    (suffix : r = "" ∨ ∃ rest, r = String.singleton Path.separator ++ rest) :
    let later := (((engine catalog maxBatch).move storage source destination).run s).state
    let resolved := fun (s : EngineState Memory) (target : PathRef) =>
      (((engine catalog maxBatch).resolve storage.id target [sid]).run s).answer
    let granted := decidingMask (s.store.rows storage.id)
    let inFolder := ∃ row ∈ s.store.rows storage.id, row.sid = sid ∧
      Path.isAtOrBeneath row.path p = true ∧ row.place.reaches ⟨p ++ r, type⟩ = true
    (∀ target place, Request.normalRef target = .ok place →
        resolved s target = .ok (granted place sid)) ∧
      (∀ target, Request.normalRef target = .ok ⟨q ++ r, type⟩ →
        (inFolder → resolved later target = .ok (granted ⟨p ++ r, type⟩ sid)) ∧
          (¬ inFolder → resolved later target = resolved s target)) ∧
      (∀ target, Request.normalRef target = .ok ⟨p ++ r, type⟩ →
        resolved later target = .ok (inheritedMask (s.store.rows storage.id) p sid)) ∧
      ∀ target, (∀ place, Request.normalRef target = .ok place →
          Path.isAtOrBeneath place.path p = false ∧ Path.isAtOrBeneath place.path q = false) →
        resolved later target = resolved s target := by
  intro later resolved granted inFolder
  have through := goesThrough_of_answer reached.sound hp hq apart succeeds
  rw [folder] at through
  have listings := through.folderMoved reached
  have reachedLater : Reached catalog maxBatch later :=
    reached.after (.call (.move storage source destination))
  have before : ∀ target place, Request.normalRef target = .ok place →
      resolved s target = .ok (granted place sid) := fun target place normal =>
    answer_resolve_singleton reached.sound through.positive normal sid
  have after : ∀ target place, Request.normalRef target = .ok place →
      resolved later target = .ok (decidingMask (later.store.rows storage.id) place sid) :=
    fun target place normal =>
      answer_resolve_singleton reachedLater.sound through.positive normal sid
  -- the suffix adds the same segments behind both paths
  obtain ⟨behind, adds⟩ := Path.exists_segments_append suffix
  have there : Path.segments (⟨p ++ r, type⟩ : PathRef).path = Path.segments p ++ behind := adds p
  have here : Path.segments (⟨q ++ r, type⟩ : PathRef).path = Path.segments q ++ behind := adds q
  have inFolder_iff : inFolder ↔ ∃ row ∈ s.store.rows storage.id, row.sid = sid ∧
      Path.segments p <+: Path.segments row.path ∧ row.place.reaches ⟨p ++ r, type⟩ = true := by
    simp only [inFolder, Path.isAtOrBeneath_iff]
  refine ⟨before, fun target normal => ⟨fun held => ?_, fun held => ?_⟩, fun target normal => ?_,
    fun target outside => ?_⟩
  · rw [after target _ normal]
    exact congrArg Except.ok
      (listings.decidingMask_carried there here rfl (inFolder_iff.1 held))
  · rw [after target _ normal, before target _ normal]
    exact congrArg Except.ok
      (listings.decidingMask_inherited there here rfl fun row => held (inFolder_iff.2 row))
  · rw [after target _ normal]
    exact congrArg Except.ok (listings.decidingMask_left ⟨behind, there.symm⟩)
  · cases normal : Request.normalRef target with
    | error e =>
        have refused : ∀ t : EngineState Memory, resolved t target = .error e :=
          fun t => answer_resolve_malformed normal storage.id [sid]
        rw [refused, refused]
    | ok place =>
        obtain ⟨notOld, notNew⟩ := outside place normal
        rw [after target place normal, before target place normal]
        refine congrArg Except.ok (listings.decidingMask_elsewhere ?_ ?_)
        · exact fun under => Bool.eq_false_iff.1 notOld (Path.isAtOrBeneath_iff.2 under)
        · exact fun under => Bool.eq_false_iff.1 notNew (Path.isAtOrBeneath_iff.2 under)

/-- After a folder moved its file grants at the new path what it granted at the old one, and nothing is
left there. -/
theorem resolve_file_of_moved_folder :
    let later := (((engine .ofStore 10).move ⟨1, .s3⟩ (.folder "/a") (.folder "b")).run furnished).state
    (((engine .ofStore 10).resolve 1 (.file "b/x") [.user "u"]).run later).answer = .ok .write ∧
      (((engine .ofStore 10).resolve 1 (.file "a/x") [.user "u"]).run later).answer = .ok .none := by
  intro later
  have reached : Reached .ofStore 10 furnished := ⟨.default, _, rfl⟩
  have succeeds : (((engine .ofStore 10).move ⟨1, .s3⟩ (.folder "/a") (.folder "b")).run
      furnished).answer = .ok 2 := by rfl
  have suffix : "/x" = "" ∨ ∃ rest, "/x" = String.singleton Path.separator ++ rest :=
    .inr ⟨"x", by decide⟩
  obtain ⟨-, moved, left, -⟩ := resolve_after_folder_move reached rfl
    (show Path.normalize (PathRef.folder "/a").path = .ok "a" from rfl)
    (show Path.normalize (PathRef.folder "b").path = .ok "b" from rfl)
    (by decide) succeeds (.user "u") .file suffix
  have held : ∃ row ∈ furnished.store.rows 1, row.sid = .user "u" ∧
      Path.isAtOrBeneath row.path "a" = true ∧ row.place.reaches ⟨"a" ++ "/x", .file⟩ = true := by
    decide
  refine ⟨((moved (.file "b/x") rfl).1 held).trans (congrArg Except.ok (by decide)), ?_⟩
  exact (left (.file "a/x") rfl).trans (congrArg Except.ok (by decide))

end PathAcl.Engine
