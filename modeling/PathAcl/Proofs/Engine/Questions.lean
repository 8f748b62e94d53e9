import PathAcl.Proofs.Engine.BatchResolution
import PathAcl.Proofs.Engine.Sessions

/-! # What the resolver asks
The masks of many targets come from one question to the store. A database is told in it every place
whose grants reach one of the targets, and every sid; a place that were missing would not be noticed in
the answer, since rows that are never returned look like rows that are not there. The question is the
same however the targets and the sids are arranged, repeated or spelled. -/

namespace PathAcl

namespace Database

/-- What a peer replies to the next statement, if the statement reaches a database that replies. -/
def Peer.reply? : Peer → Option Reply
  | .script replies => some (replies.headD (.answered [] 0))
  | .closed | .silent => none

/-- A statement as it stands in the record, once it was sent to a peer. -/
def Peer.heard (peer : Peer) (statement : Statement) : List Exchange :=
  peer.reply?.toList.map fun reply => ⟨statement, some reply⟩

/-- A query says its statement and nothing else. -/
theorem sent_queryRows (statement : Statement) (context : String) (peer : Peer) :
    ((queryRows statement context).hold peer).sent = peer.heard statement := by
  cases peer with
  | closed => rfl
  | silent => rfl
  | script replies =>
      rw [queryRows, queryRequest, Dialogue.request, Dialogue.hold_bind, Dialogue.hold_ask_script,
        Spoken.andThen_after]
      cases reply : replies.headD (.answered [] 0) <;>
        simp only [Peer.heard, Peer.reply?, reply] <;> rfl

/-- A statement **asks for rows** at places and of holders: it binds the storage, and then columns that
are the places and the holders when they are put side by side. -/
structure AsksForRows (statement : Statement) (id : StorageId) (places : List PathRef)
    (holders : List Sid) : Prop where
  sql : statement.sql = Sql.rowsHeld
  bound : ∃ paths types names kinds,
    statement.params = [.bigint id, .texts paths, .texts types, .texts names, .texts kinds] ∧
      (paths.length = types.length ∧ paths.zip types = places.map fun p => (p.path, p.type.name)) ∧
      names.length = kinds.length ∧ names.zip kinds = holders.map fun s => (s.name, s.type.name)

/-- The columns of places and sids ask for their rows. -/
theorem asksForRows_columns (id : StorageId) (places : List PathRef) (holders : List Sid) :
    AsksForRows (about Sql.rowsHeld id (placeColumns places ++ sidColumns holders)) id places holders := by
  refine ⟨rfl, _, _, _, _, rfl, ⟨?_, ?_⟩, ?_, ?_⟩
  · rw [List.length_map, List.length_map]
  · rw [List.zip_map']
  · rw [List.length_map, List.length_map]
  · rw [List.zip_map']

/-- The members of a set are distinct and in order. -/
theorem distinct_members {κ : Type} [Ord κ] [Std.TransOrd κ] [Std.LawfulEqOrd κ] [DecidableEq κ]
    (s : SortedSet κ) : distinct s.members = s.members := by
  rw [distinct, SortedSet.ofList_members]

end Database

namespace Connection

open Database

/-- A dialogue that is held and timed adds what is said in it to the record. -/
theorem sent_timed {α : Type} {operation : Operation} {limit : Connection → Span}
    {measures : QueryStatus → List Measure} {d : Dialogue α} (c : Connection) :
    ((timed operation limit measures d).run c).state.sent = c.sent ++ (d.hold c.peer).sent := by
  have held : ((hold d).run c).answer = .ok (d.hold c.peer).result := rfl
  rw [timed, Action.state_bind, held]
  cases (d.hold c.peer).result with
  | none => rfl
  | some result => cases result <;> rfl

/-- Rows are asked for with one statement, whatever becomes of it. -/
theorem sent_loadHeld {id : StorageId} (positive : 0 < id) {places : List PathRef} {sids : List Sid}
    (somewhere : places ≠ []) (someone : sids ≠ []) (c : Connection) :
    ((loadHeld id places sids).run c).state.sent = c.sent ++ c.peer.heard
      (about Sql.rowsHeld id (placeColumns (distinct places) ++ sidColumns (distinct sids))) := by
  have valid : (Validity.checkStorageId id).mapError StoreError.ofFault = .ok () := by
    rw [Validity.checkStorageId_eq_ok_iff.2 positive]
    rfl
  have some_asked : ¬ (places.isEmpty || sids.isEmpty) = true := by
    simp [somewhere, someone]
  rw [loadHeld, require, (Action.run_ofExcept_of_ok valid).2, if_neg some_asked, Action.state_bind]
  -- the rows are read after they were returned, and nothing is said for that
  have asked := @sent_timed _ .loadHeld readLimit (fun s => [.queryTime .loadHeld s])
    (Database.loadHeld id places sids) c
  rw [Database.loadHeld, sent_queryRows] at asked
  cases ((reading .loadHeld (Database.loadHeld id places sids)).run c).answer with
  | error e => exact asked
  | ok rows => exact asked

end Connection

namespace Engine

open Database

variable {catalog : Catalog} {maxBatch : Nat}

/-- The places that a resolver asks about: those whose grants reach one of the targets. -/
def placesFor (targets : List PathRef) : SortedSet PathRef :=
  .ofList ((SortedSet.ofList targets).members.flatMap PathRef.reachedFrom)

/-- A place is asked about if it is in the chain of a target. -/
theorem mem_placesFor {targets : List PathRef} {place : PathRef} :
    place ∈ (placesFor targets).members ↔ ∃ target ∈ targets, place ∈ target.reachedFrom := by
  simp only [placesFor, SortedSet.mem_members_ofList, List.mem_flatMap]

/-- Masks of no targets, or of no sids, are not asked for. -/
theorem state_effectiveOf_nothing {id : StorageId} {targets : List PathRef} {sids : List Sid}
    (nothing : targets = [] ∨ sids = []) (s : EngineState Connection) :
    (((Connection.engine catalog maxBatch).effectiveOf id (.ofList targets) sids).run s).state = s := by
  have bare : ((distinctSids sids).isEmpty || (SortedSet.ofList targets).isEmpty) = true := by
    rw [Bool.or_eq_true, SortedSet.isEmpty_iff, SortedSet.members_ofList_eq_nil_iff,
      List.isEmpty_iff, distinctSids, SortedSet.members_ofList_eq_nil_iff]
    exact nothing.symm
  rw [effectiveOf, if_pos bare]
  rfl

/-- Masks of some targets and sids are asked for with one statement. -/
theorem sent_effectiveOf {id : StorageId} (positive : 0 < id) {targets : List PathRef}
    {sids : List Sid} (somewhere : targets ≠ []) (someone : sids ≠ []) (s : EngineState Connection) :
    (((Connection.engine catalog maxBatch).effectiveOf id (.ofList targets) sids).run s).state.store.sent =
      s.store.sent ++ s.store.peer.heard (about Sql.rowsHeld id
        (placeColumns (placesFor targets).members ++ sidColumns (distinctSids sids))) := by
  have sids_asked : distinctSids sids ≠ [] := mt SortedSet.members_ofList_eq_nil_iff.1 someone
  have targets_asked : (SortedSet.ofList targets).members ≠ [] :=
    mt SortedSet.members_ofList_eq_nil_iff.1 somewhere
  have asks : ¬ ((distinctSids sids).isEmpty || (SortedSet.ofList targets).isEmpty) = true := by
    rw [Bool.or_eq_true, SortedSet.isEmpty_iff, List.isEmpty_iff]
    exact not_or.2 ⟨sids_asked, targets_asked⟩
  -- every target is in its own chain
  have places_asked : (placesFor targets).members ≠ [] := by
    obtain ⟨target, first⟩ := List.exists_mem_of_ne_nil targets somewhere
    exact List.ne_nil_of_mem (mem_placesFor.2 ⟨target, first, List.mem_cons_self⟩)
  have sent := Connection.sent_loadHeld positive places_asked sids_asked s.store
  rw [distinct_members, distinctSids, distinct_members] at sent
  rw [effectiveOf, if_neg asks, ← placesFor, Action.state_bind]
  cases ((onStore ((Connection.engine catalog maxBatch).store.loadHeld id
      (placesFor targets).members (distinctSids sids))).run s).answer with
  | error e => exact sent
  | ok rows => exact sent

/-- What a resolver does for targets that all have a normal form. -/
theorem resolveAll_eq {σ : Type} (e : Engine σ) {id : StorageId} {targets places : List PathRef}
    {sids : List Sid} (normal : targets.mapM Request.normalRef = .ok places) :
    e.resolveAll id targets sids = e.effectiveOf id (.ofList places) sids := by
  rw [resolveAll, normal, Action.ofExcept_ok_bind]

/-- The **normal forms** of targets. -/
def NormalForm (targets : List PathRef) (place : PathRef) : Prop :=
  ∃ target ∈ targets, Path.normalize target.path = .ok place.path ∧ place.type = target.type

/-- **The resolver asks one question**, for any targets that have normal forms and any sids. Nothing is
sent if there are no targets or no sids. Otherwise just one statement is, and it asks for the rows at
the places whose grants reach the normal form of some target, and of the sids: each of them once, in
order. Targets with the same normal forms and sids that are the same but for order and repeats are
handled alike. -/
theorem resolveAll_asks_once {id : StorageId} (positive : 0 < id) {targets : List PathRef}
    (normal : ∀ target ∈ targets, Path.Normalizable target.path) (sids : List Sid) :
    (targets = [] ∨ sids = [] → ∀ s,
      (((Connection.engine catalog maxBatch).resolveAll id targets sids).run s).state = s) ∧
    (targets ≠ [] → sids ≠ [] → ∃ statement places holders,
      AsksForRows statement id places holders ∧
      (places.Pairwise fun a b => compare a b = .lt) ∧
      (∀ place, place ∈ places ↔ ∃ form, NormalForm targets form ∧ place ∈ form.reachedFrom) ∧
      (holders.Pairwise fun a b => compare a b = .lt) ∧ (∀ sid, sid ∈ holders ↔ sid ∈ sids) ∧
      ∀ s, (((Connection.engine catalog maxBatch).resolveAll id targets sids).run s).state.store.sent =
        s.store.sent ++ s.store.peer.heard statement) ∧
    ∀ targets' sids', (∀ target ∈ targets', Path.Normalizable target.path) →
      (∀ place, NormalForm targets' place ↔ NormalForm targets place) →
      (∀ sid, sid ∈ sids' ↔ sid ∈ sids) →
      (Connection.engine catalog maxBatch).resolveAll id targets' sids' =
        (Connection.engine catalog maxBatch).resolveAll id targets sids := by
  have read : ∀ {targets : List PathRef}, (∀ target ∈ targets, Path.Normalizable target.path) →
      ∃ places, targets.mapM Request.normalRef = .ok places ∧
        ∀ place, place ∈ places ↔ NormalForm targets place := by
    intro targets normal
    obtain ⟨places, taken, -⟩ := exists_mapM_eq_ok (p := fun _ => True) fun target htarget =>
      (Request.exists_normalRef (normal target htarget)).imp fun _ h => ⟨h.1, trivial⟩
    refine ⟨places, taken, fun place => ?_⟩
    rw [mem_mapM_iff taken]
    simp only [normalRef_eq_ok_iff, NormalForm]
  obtain ⟨forms, taken, mem_forms⟩ := read normal
  rw [resolveAll_eq _ taken]
  have forms_eq_nil : forms = [] ↔ targets = [] := by
    rw [mapM_eq_ok_iff_forall₂] at taken
    rw [← List.length_eq_zero_iff, ← taken.length_eq, List.length_eq_zero_iff]
  refine ⟨fun nothing s => ?_, fun somewhere someone => ?_, fun targets' sids' normal' same same_sids => ?_⟩
  · exact state_effectiveOf_nothing (nothing.imp_left forms_eq_nil.2) s
  · refine ⟨_, _, _, asksForRows_columns id (placesFor forms).members (distinctSids sids), ?_⟩
    refine ⟨(placesFor forms).pairwise_members, fun place => ?_, SortedSet.pairwise_members _,
      SortedSet.mem_members_ofList sids, fun s => ?_⟩
    · simp only [mem_placesFor, mem_forms]
    · exact sent_effectiveOf positive (mt forms_eq_nil.1 somewhere) someone s
  · obtain ⟨forms', taken', mem_forms'⟩ := read normal'
    have same_forms : SortedSet.ofList forms' = SortedSet.ofList forms := by
      refine SortedSet.ext_mem fun place => ?_
      rw [SortedSet.mem_members_ofList, SortedSet.mem_members_ofList, mem_forms', mem_forms, same]
    have same_holders : distinctSids sids' = distinctSids sids := by
      refine congrArg SortedSet.members (SortedSet.ext_mem fun sid => ?_)
      rw [SortedSet.mem_members_ofList, SortedSet.mem_members_ofList, same_sids]
    rw [resolveAll_eq _ taken', same_forms, effectiveOf, effectiveOf, same_holders]

/-- Two spellings of a file and a folder beside it; and the same once more, in another order. -/
def spelledTwice : List PathRef := [.file "/a//x", .folder "b", .file "a/x/"]

/-- The two files have one normal form, and the folder is its own. -/
theorem normalForm_spelledTwice {place : PathRef} :
    NormalForm spelledTwice place ↔ place = .file "a/x" ∨ place = .folder "b" := by
  have file : Path.normalize "/a//x" = .ok "a/x" := rfl
  have again : Path.normalize "a/x/" = .ok "a/x" := rfl
  have folder : Path.normalize "b" = .ok "b" := rfl
  obtain ⟨path, type⟩ := place
  simp only [NormalForm, spelledTwice, PathRef.file, PathRef.folder, List.mem_cons, List.not_mem_nil,
    or_false, exists_eq_or_imp, exists_eq_left, file, again, folder, Except.ok.injEq, PathRef.mk.injEq]
  grind

/-- They are asked about in one question, which names the folder above the file too, and each sid once;
asking for them in another order, without repeats, is the same. -/
theorem resolveAll_spelledTwice :
    (((Connection.engine .ofStore 10).resolveAll 1 spelledTwice [.user "u", .group "g", .user "u"]).run
        ⟨.plain (.script []), none⟩).state.store.sent =
      [⟨⟨Sql.rowsHeld, [.bigint 1, .texts ["a", "a/x", "b"], .texts ["FOLDER", "FILE", "FOLDER"],
        .texts ["g", "u"], .texts ["GROUP", "USER"]]⟩, some (.answered [] 0)⟩] ∧
    (Connection.engine .ofStore 10).resolveAll 1 [.folder "b", .file "a/x"] [.group "g", .user "u"] =
      (Connection.engine .ofStore 10).resolveAll 1 spelledTwice [.user "u", .group "g", .user "u"] := by
  have normal : ∀ target ∈ spelledTwice, Path.Normalizable target.path := by
    simp only [spelledTwice, List.forall_mem_cons]
    exact ⟨⟨"a/x", rfl⟩, ⟨"b", rfl⟩, ⟨"a/x", rfl⟩, fun _ h => absurd h List.not_mem_nil⟩
  have normal' : ∀ target ∈ [PathRef.folder "b", .file "a/x"], Path.Normalizable target.path := by
    simp only [List.forall_mem_cons]
    exact ⟨⟨"b", rfl⟩, ⟨"a/x", rfl⟩, fun _ h => absurd h List.not_mem_nil⟩
  refine ⟨by decide +kernel, ?_⟩
  refine (resolveAll_asks_once (by decide) normal _).2.2 _ _ normal' (fun place => ?_) fun sid => ?_
  · rw [normalForm_spelledTwice]
    have file : Path.normalize "a/x" = .ok "a/x" := rfl
    have folder : Path.normalize "b" = .ok "b" := rfl
    obtain ⟨path, type⟩ := place
    simp only [NormalForm, PathRef.file, PathRef.folder, List.mem_cons, List.not_mem_nil, or_false,
      exists_eq_or_imp, exists_eq_left, file, folder, Except.ok.injEq, PathRef.mk.injEq]
    grind
  · simp only [List.mem_cons, List.not_mem_nil, or_false]
    grind

end Engine

end PathAcl
