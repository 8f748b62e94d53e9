import PathAcl.Proofs.Engine.Walks
import PathAcl.Proofs.Memory.Calls
import PathAcl.Settings

/-! # The engine over the table
What a turn of an engine over the table in memory can do to the table and to the index: each operation
is walked through once, and every invariant is read off the effects. -/

namespace PathAcl

/-- The engine over the table in memory. -/
def Memory.engine (catalog : Catalog) (maxBatch : Nat) : Engine Memory := ⟨store, catalog, maxBatch⟩

/-- What a catalog tells of a storage, over a table. -/
def Catalog.tell (c : Catalog) (m : Memory) (id : StorageId) :
    Except RequestError (Option StorageKind) :=
  match c with
  | .ofStore => .ok (m.kindOf id)
  | .external ask => ask id

/-- The kind of a storage that exists, over a table; none if the catalog fails to tell. -/
def Catalog.kindOf (c : Catalog) (m : Memory) (id : StorageId) : Option StorageKind :=
  (c.tell m id).toOption.join

namespace Engine

open PathAcl.Action (Along state_bind_of_keeps)
open Memory

variable {catalog : Catalog} {maxBatch : Nat} {s : EngineState Memory}

/-- What the table answers to a question: the storages in which one of the sids holds a row. -/
def holding (m : Memory) (question : SidSet) : SortedSet StorageRef :=
  SortedSet.ofList (m.storagesHolding question.members)

/-- The **effect** of a turn on the table and the index. -/
inductive Effect (s : EngineState Memory) : EngineState Memory → Prop
  | nothing : Effect s s
  | keep {id : StorageId} {m : Memory} (writes : s.store.Writes id (s.store.tree id) m) :
      Effect s ⟨m, s.index⟩
  | insert {storage : StorageRef} {rows written : List Permission} {m : Memory}
      (upsert : s.store.upsert storage rows = .ok (written, m)) :
      Effect s ⟨m, noted s.index storage.id (distinctSids (written.map Permission.sid))⟩
  | delete {id : StorageId} {keys dropped : List PermissionKey} {m : Memory}
      (delete : s.store.delete id keys = .ok (dropped, m)) :
      Effect s ⟨m, noted s.index id (distinctSids (dropped.map PermissionKey.sid))⟩
  | deleteUnder {id : StorageId} {roots : List PathRef} {dropped : List PermissionKey} {m : Memory}
      (delete : s.store.deleteUnder id roots = .ok (dropped, m)) :
      Effect s ⟨m, noted s.index id (distinctSids (dropped.map PermissionKey.sid))⟩
  | move {id : StorageId} {source destination : PathRef} {moved : Nat} {m : Memory}
      (relocate : s.store.relocate id source destination = .ok (moved, m))
      (type : destination.type = source.type) :
      Effect s ⟨m, if 0 < moved then noted s.index id [] else s.index⟩
  | remember {question : SidSet} {x : StorageIndex} (index : s.index = some x) :
      Effect s ⟨s.store, some (x.remember question (holding s.store question) x.writes).2⟩
  | lose (question : SidSet) : Effect s (lose s question)

/-- A turn that keeps the state has no effect. -/
theorem Effect.of_eq {t : EngineState Memory} (h : t = s) : Effect s t := h ▸ .nothing

/-! ## Steps of the operations -/

/-- A look-up in the catalog answers what it tells and keeps the state. -/
theorem run_lookup (id : StorageId) :
    (((engine catalog maxBatch).lookup id).run s).answer = catalog.tell s.store id ∧
      (((engine catalog maxBatch).lookup id).run s).state = s := by
  cases catalog <;> exact ⟨rfl, rfl⟩

/-- The check of a storage passes exactly if the catalog has it under its kind, and keeps the state. -/
theorem run_confirm (storage : StorageRef) :
    ((((engine catalog maxBatch).confirm storage).run s).answer = .ok () ↔
        catalog.kindOf s.store storage.id = some storage.kind) ∧
      (((engine catalog maxBatch).confirm storage).run s).state = s := by
  obtain ⟨answer, state⟩ := @run_lookup catalog maxBatch s storage.id
  rw [confirm, Action.answer_bind, Action.state_bind, answer, state, Catalog.kindOf]
  cases catalog.tell s.store storage.id with
  | error e => exact ⟨iff_of_false nofun nofun, rfl⟩
  | ok kind? =>
      cases kind? with
      | none => exact ⟨iff_of_false nofun nofun, rfl⟩
      | some kind =>
          by_cases same : kind = storage.kind
          · simp only [if_pos same]
            exact ⟨iff_of_true rfl (congrArg some same), rfl⟩
          · simp only [if_neg same]
            exact ⟨iff_of_false nofun fun h => same (Option.some.inj h), rfl⟩

/-- What a step of the store answers to a request. -/
theorem answer_onStore {α : Type} (a : Action Memory StoreError α) :
    ((onStore a).run s).answer = ((a.run s.store).answer).mapError RequestError.ofStore := rfl

/-- What a step of the store leaves. -/
theorem state_onStore {α : Type} (a : Action Memory StoreError α) :
    ((onStore a).run s).state = ⟨(a.run s.store).state, s.index⟩ := rfl

/-- An operation on the table and what the engine does after it. -/
theorem state_onStore_bind {α β : Type} {p : EngineState Memory → Prop}
    {a : Action Memory StoreError α} {r : Except StoreError (α × Memory)} {f : α → Step Memory β}
    (does : s.store.Does a r)
    (stay : p s) (go : ∀ x m, r = .ok (x, m) → p ((f x).run ⟨m, s.index⟩).state) :
    p ((onStore a >>= f).run s).state := by
  rw [Action.state_bind, answer_onStore, state_onStore, does.1, does.2]
  cases r with
  | error e => exact stay
  | ok both => exact go both.1 both.2 rfl

/-- A note to the index and a report after an operation on the table. -/
theorem state_noteWrite_bind {β : Type} {id : StorageId} {sids : List Sid}
    {f : Unit → Step Memory β} (quiet : ∀ t, ((f ()).run t).state = t) :
    ((noteWrite id sids >>= f).run s).state = ⟨s.store, noted s.index id sids⟩ := by
  obtain ⟨answer, state⟩ := run_noteWrite s id sids
  rw [Action.state_bind, answer, state]
  exact quiet _

section Batches

variable {α β : Type} {p : EngineState Memory → Prop} {storage : StorageRef}
  {size : Except RequestError Unit} {items : Except RequestError β}
  {write : β → Action Memory StoreError α} {sids : α → List Sid} {event : β → α → Event}

/-- A batch of writes leaves the state that was there, or what is left once its checks have passed. -/
theorem state_writeBatch_of_checked (stay : p s)
    (go : ∀ b, items = .ok b → p ((onStore (write b) >>= fun x => noteWrite storage.id (sids x) >>=
      fun _ => .log (event b x) >>= fun _ => pure x).run s).state) :
    p (((engine catalog maxBatch).writeBatch storage size items write sids event).run s).state := by
  refine state_bind_of_keeps (p := p) rfl stay fun _ _ => ?_
  refine state_bind_of_keeps (p := p) rfl stay fun b taken => ?_
  exact state_bind_of_keeps (p := p) (run_confirm storage).2 stay fun _ _ => go b taken

/-- So it leaves the state that was there, or one that the store has written to and the index has taken
note of. -/
theorem state_writeBatch {r : β → Except StoreError (α × Memory)}
    (does : ∀ b, s.store.Does (write b) (r b)) (stay : p s)
    (go : ∀ b x m, items = .ok b → r b = .ok (x, m) → p ⟨m, noted s.index storage.id (sids x)⟩) :
    p (((engine catalog maxBatch).writeBatch storage size items write sids event).run s).state := by
  refine state_writeBatch_of_checked stay fun b taken => ?_
  refine state_onStore_bind (p := p) (does b) stay fun x m wrote => ?_
  rw [state_noteWrite_bind fun _ => rfl]
  exact go b x m taken wrote

end Batches

/-! ## The effects of the operations -/

/-- Writing rows. -/
theorem effect_insert (now : Instant) (storage : StorageRef) (requests : List GrantRequest) :
    Effect s (((engine catalog maxBatch).insert now storage requests).run s).state :=
  state_writeBatch (run_upsert s.store storage) .nothing fun _ _ _ _ wrote => .insert wrote

/-- Dropping rows. -/
theorem effect_delete (storage : StorageRef) (keys : List PermissionKey) :
    Effect s (((engine catalog maxBatch).delete storage keys).run s).state :=
  state_writeBatch (run_delete s.store storage.id) .nothing fun _ _ _ _ dropped => .delete dropped

/-- Dropping subtrees. -/
theorem effect_deleteUnder (storage : StorageRef) (roots : List PathRef) :
    Effect s (((engine catalog maxBatch).deleteUnder storage roots).run s).state :=
  state_writeBatch (run_deleteUnder s.store storage.id) .nothing fun _ _ _ _ dropped =>
    .deleteUnder dropped

/-- A reference in normal form: the path is, and the type is as it was. -/
theorem normalRef_eq_ok_iff {r normal : PathRef} :
    Request.normalRef r = .ok normal ↔
      Path.normalize r.path = .ok normal.path ∧ normal.type = r.type := by
  rw [Request.normalRef, Validity.mapError_eq_ok_iff, PathRef.normalize]
  cases Path.normalize r.path with
  | error why => exact iff_of_false nofun fun h => nomatch h.1
  | ok path =>
      constructor
      · intro h
        obtain rfl := Except.ok.inj h
        exact ⟨rfl, rfl⟩
      · rintro ⟨same, type⟩
        rw [Except.ok.inj same, ← type]
        rfl

/-- The ends of a move that is accepted: they are of one type and have normal forms, and a folder is
not moved into itself. -/
theorem checkMove_eq_ok_iff {source destination p q : PathRef} :
    checkMove source destination = .ok (p, q) ↔
      source.type = destination.type ∧ Request.normalRef source = .ok p ∧
        Request.normalRef destination = .ok q ∧
        ¬ (p.type = .folder ∧ Path.isBeneath q.path p.path = true) := by
  rw [checkMove]
  by_cases type : source.type = destination.type
  · rw [if_neg (not_not.2 type)]
    cases Request.normalRef source with
    | error why => exact iff_of_false nofun fun h => nomatch h.2.1
    | ok p' =>
        cases Request.normalRef destination with
        | error why => exact iff_of_false nofun fun h => nomatch h.2.2.1
        | ok q' =>
            by_cases inside : p'.type = .folder ∧ Path.isBeneath q'.path p'.path = true
            · refine iff_of_false ?_ ?_
              · simp only [bind, Except.bind, if_pos inside]
                exact nofun
              · rintro ⟨-, hp, hq, outside⟩
                cases hp
                cases hq
                exact outside inside
            · simp only [bind, Except.bind, if_neg inside]
              constructor
              · intro h
                cases h
                exact ⟨type, rfl, rfl, inside⟩
              · rintro ⟨-, hp, hq, -⟩
                cases hp
                cases hq
                rfl
  · rw [if_pos type]
    exact iff_of_false nofun fun h => type h.1

/-- The ends of an accepted move are of one type. -/
theorem type_of_checkMove {source destination p q : PathRef}
    (h : checkMove source destination = .ok (p, q)) : q.type = p.type := by
  obtain ⟨type, hp, hq, -⟩ := checkMove_eq_ok_iff.1 h
  rw [(normalRef_eq_ok_iff.1 hp).2, (normalRef_eq_ok_iff.1 hq).2, type]

/-- Moving rows. -/
theorem effect_move (storage : StorageRef) (source destination : PathRef) :
    Effect s (((engine catalog maxBatch).move storage source destination).run s).state := by
  refine state_bind_of_keeps rfl .nothing fun ends hends => ?_
  obtain ⟨p, q⟩ := ends
  have type := type_of_checkMove hends
  -- a move onto itself is reported, and nothing else
  by_cases same : p = q
  · simp only [if_pos same]
    exact .nothing
  · simp only [if_neg same]
    refine state_bind_of_keeps (run_confirm storage).2 .nothing fun _ _ => ?_
    refine state_onStore_bind (run_relocate s.store storage.id p q) .nothing fun moved m h => ?_
    have effect := Effect.move h type
    by_cases some_moved : 0 < moved
    · simp only [if_pos some_moved] at effect ⊢
      rw [state_noteWrite_bind fun _ => rfl]
      exact effect
    · simp only [if_neg some_moved] at effect ⊢
      exact effect

/-- Making a storage known. -/
theorem effect_register (storage : StorageRef) :
    Effect s (((engine catalog maxBatch).register storage).run s).state := by
  have state : (((engine catalog maxBatch).register storage).run s).state =
      ⟨s.store.settle ((s.store.register storage).map ((), ·)), s.index⟩ :=
    congrArg (EngineState.mk · s.index) (run_register s.store storage).2
  rw [state]
  cases h : s.store.register storage with
  | error e => exact .nothing
  | ok left => exact .keep (writes_of_register h)

/-- Prolonging paths. -/
theorem effect_prolong (now : Instant) (storage : StorageRef) (paths : List String)
    (userId : String) (days : UInt32) :
    Effect s (((engine catalog maxBatch).prolong now storage paths userId days).run s).state := by
  refine state_bind_of_keeps rfl .nothing fun _ _ => ?_
  by_cases zero : days = 0
  · simp only [if_pos zero]
    exact .nothing
  by_cases blank : Text.blank userId = true
  · simp only [if_neg zero, if_pos blank]
    exact .nothing
  simp only [if_neg zero, if_neg blank]
  refine state_bind_of_keeps rfl .nothing fun paths _ => ?_
  refine state_bind_of_keeps rfl .nothing fun till _ => ?_
  refine state_bind_of_keeps (run_confirm storage).2 .nothing fun _ _ => ?_
  refine state_onStore_bind (run_prolong s.store storage.id _) .nothing fun written m h => ?_
  exact .keep (writes_of_prolong h)

/-- Prolonging one path leaves what prolonging it as a batch leaves. -/
theorem state_prolongOne (now : Instant) (storage : StorageRef) (path userId : String)
    (days : UInt32) :
    (((engine catalog maxBatch).prolongOne now storage path userId days).run s).state =
      (((engine catalog maxBatch).prolong now storage [path] userId days).run s).state := by
  rw [prolongOne, Action.state_bind]
  split
  · rfl
  next written _ => cases written.getLast? <;> rfl

/-- Prolonging one path. -/
theorem effect_prolongOne (now : Instant) (storage : StorageRef) (path userId : String)
    (days : UInt32) :
    Effect s (((engine catalog maxBatch).prolongOne now storage path userId days).run s).state := by
  rw [state_prolongOne]
  exact effect_prolong now storage [path] userId days

/-! ## Questions -/

/-- Reading rows keeps the state. -/
theorem state_load (storage : StorageRef) (places : List PathRef) :
    (((engine catalog maxBatch).load storage places).run s).state = s := by
  refine state_bind_of_keeps (p := (· = s)) rfl rfl fun _ _ => ?_
  refine state_bind_of_keeps (p := (· = s)) rfl rfl fun places _ => ?_
  refine state_bind_of_keeps (p := (· = s)) (run_confirm storage).2 rfl fun _ _ => ?_
  exact state_bind_of_keeps (p := (· = s)) rfl rfl fun _ _ => rfl

/-- Looking for the nearest prolongation keeps the state. -/
theorem state_prolongationOf (id : StorageId) (path : String) :
    (((engine catalog maxBatch).prolongationOf id path).run s).state = s := by
  refine state_bind_of_keeps (p := (· = s)) rfl rfl fun path _ => ?_
  rw [state_onStore]
  have keeps := @Store.after_nearestProlongation _ Memory.store s.store id path
  exact congrArg (EngineState.mk · s.index) keeps

/-- Effective masks of targets in normal form keep the state. -/
theorem state_effectiveOf (id : StorageId) (targets : SortedSet PathRef) (sids : List Sid) :
    (((engine catalog maxBatch).effectiveOf id targets sids).run s).state = s := by
  rw [effectiveOf]
  split
  · rfl
  · exact state_bind_of_keeps (p := (· = s)) rfl rfl fun _ _ => rfl

/-- The effective mask of one target keeps the state. -/
theorem state_resolve (id : StorageId) (target : PathRef) (sids : List Sid) :
    (((engine catalog maxBatch).resolve id target sids).run s).state = s := by
  refine state_bind_of_keeps (p := (· = s)) rfl rfl fun target _ => ?_
  exact state_bind_of_keeps (p := (· = s)) (state_effectiveOf id _ sids) rfl fun _ _ => rfl

/-- The effective masks of many targets keep the state. -/
theorem state_resolveAll (id : StorageId) (targets : List PathRef) (sids : List Sid) :
    (((engine catalog maxBatch).resolveAll id targets sids).run s).state = s := by
  refine state_bind_of_keeps (p := (· = s)) rfl rfl fun targets _ => ?_
  exact state_effectiveOf id _ sids

/-! ## The index -/

/-- Which storages can be read: none for no sid, else what the index remembers, else what the table
answers, and if an index is kept this is remembered. -/
theorem run_readable (sids : List Sid) :
    (((engine catalog maxBatch).readable sids).run s).answer =
        .ok (if (SortedSet.ofList sids).isEmpty then ∅
          else (remembered? s.index (SortedSet.ofList sids)).getD
            (holding s.store (SortedSet.ofList sids))) ∧
      ((((engine catalog maxBatch).readable sids).run s).state = s ∨
        ∃ x question, s.index = some x ∧ (((engine catalog maxBatch).readable sids).run s).state =
          ⟨s.store, some (x.remember question (holding s.store question) x.writes).2⟩) := by
  rw [readable]
  by_cases none_asked : (SortedSet.ofList sids).isEmpty = true
  · simp only [if_pos none_asked]
    exact ⟨rfl, .inl rfl⟩
  simp only [if_neg none_asked]
  obtain ⟨m, index⟩ := s
  cases index with
  | none => exact ⟨rfl, .inl rfl⟩
  | some x =>
      have consulted : ((consult (SortedSet.ofList sids)).run ⟨m, some x⟩).answer =
          .ok (x.answer? (SortedSet.ofList sids)) := rfl
      have kept : ((consult (SortedSet.ofList sids)).run ⟨m, some x⟩).state = ⟨m, some x⟩ := rfl
      rw [Action.answer_bind, Action.state_bind, consulted, kept,
        show remembered? (some x) (SortedSet.ofList sids) = x.answer? (SortedSet.ofList sids) from rfl]
      cases x.answer? (SortedSet.ofList sids) with
      | some answer => exact ⟨rfl, .inl rfl⟩
      | none => exact ⟨rfl, .inr ⟨x, SortedSet.ofList sids, rfl, rfl⟩⟩

/-- Asking which storages can be read leaves the table. -/
theorem store_readable (sids : List Sid) (s : EngineState Memory) :
    (((engine catalog maxBatch).readable sids).run s).state.store = s.store := by
  rcases (@run_readable catalog maxBatch s sids).2 with state | ⟨x, question, -, state⟩
  all_goals rw [state]

/-- Asking which storages can be read. -/
theorem effect_readable (sids : List Sid) :
    Effect s (((engine catalog maxBatch).readable sids).run s).state := by
  rcases (@run_readable catalog maxBatch s sids).2 with state | ⟨x, question, index, state⟩
  · exact .of_eq state
  · rw [state]
    exact .remember index

/-- Laying grants over a listing leaves what asking for the storages leaves. -/
theorem effect_overlay (sids : List Sid) (base : List ListedStorage) :
    Effect s (((engine catalog maxBatch).overlay sids base).run s).state := by
  have effect := @effect_readable catalog maxBatch s sids
  rw [overlay, Action.state_bind]
  split <;> exact effect

/-! ## Engines over stores that do less -/

section Less

variable {R : EngineState Memory → EngineState Memory → Prop}
  (stays : ∀ s t : EngineState Memory, t.store = s.store → R s t)

include stays

/-- An operation on the table goes along a relation if the table it gives does: a failure leaves the one
that was there. -/
theorem along_of_does {α : Type} {a : Action Memory StoreError α}
    {r : Memory → Except StoreError (α × Memory)} (does : ∀ m : Memory, m.Does a (r m))
    (made : ∀ s x m, r s.store = .ok (x, m) → R s ⟨m, s.index⟩) : Along R (asking a) := by
  intro s
  have left : ((asking a).run s).state = ⟨s.store.settle (r s.store), s.index⟩ :=
    congrArg (EngineState.mk · s.index) (does s.store).2
  rw [left]
  cases result : r s.store with
  | error e => exact stays s _ rfl
  | ok both => exact made s both.1 both.2 result

/-- An engine over a store that lists as the table does follows what the operations of the store go
along. -/
theorem follows_of_each {S : Store Memory} (each : S.Each fun a => Along R (asking a))
    (lists : S.storagesHolding = Memory.store.storagesHolding) :
    (⟨S, catalog, maxBatch⟩ : Engine Memory).Follows R := by
  refine ⟨each, fun id sids t => ?_, fun sids t => ?_⟩
  · apply stays
    rw [(run_noteWrite t id sids).2]
  · have same : (⟨S, catalog, maxBatch⟩ : Engine Memory).readable sids =
        (engine catalog maxBatch).readable sids := by
      simp only [readable, askReadable, lists]
      rfl
    rw [same]
    exact stays _ _ (store_readable sids t)

end Less

/-! ## Every turn -/

/-- **Every turn** has one of the effects. -/
theorem effect_after (turn : Turn) : Effect s ((engine catalog maxBatch).after s turn) := by
  cases turn with
  | lose question => exact .lose question
  | call c =>
      cases c with
      | register storage => exact effect_register storage
      | insert now storage requests => exact effect_insert now storage requests
      | delete storage keys => exact effect_delete storage keys
      | deleteUnder storage roots => exact effect_deleteUnder storage roots
      | deleteUnderRoot storage root => exact effect_deleteUnder storage [root]
      | move storage source destination => exact effect_move storage source destination
      | prolong now storage paths userId days => exact effect_prolong now storage paths userId days
      | prolongOne now storage path userId days =>
          exact effect_prolongOne now storage path userId days
      | readable sids => exact effect_readable sids
      | overlay sids base => exact effect_overlay sids base
      | health | prolongations => exact .nothing
      | lookup id => exact .of_eq (run_lookup id).2
      | confirm storage => exact .of_eq (run_confirm storage).2
      | load storage places => exact .of_eq (state_load storage places)
      | prolongationOf id path => exact .of_eq (state_prolongationOf id path)
      | resolve id target sids => exact .of_eq (state_resolve id target sids)
      | resolveAll id targets sids => exact .of_eq (state_resolveAll id targets sids)

/-! ## The table of an engine -/

/-- An engine never buries rows, so no turn makes its table unsound. -/
theorem Effect.sound {t : EngineState Memory} (effect : Effect s t) (h : s.store.Sound) :
    t.store.Sound := by
  cases effect with
  | nothing | remember index | lose question => exact h
  | keep writes => exact h.of_writes writes (h.tree _)
  | insert upsert =>
      obtain ⟨rfl, accepted, writes⟩ := writes_of_upsert upsert
      refine h.of_writes writes ((h.tree _).upsertAll fun row hrow => ?_)
      exact Validity.isNamed_of_checkPermission (accepted row (mem_of_mem_keepLast hrow))
  | delete delete => exact h.of_writes (writes_of_delete delete).2 ((h.tree _).dropKeys _)
  | deleteUnder delete => exact h.of_writes (writes_of_deleteUnder delete).2 ((h.tree _).dropTrees _)
  | move relocate type =>
      obtain ⟨-, hd, free, -, writes⟩ := writes_of_relocate relocate
      refine h.of_writes writes ((h.tree _).relocate hd free fun buries => ?_)
      exact (h.tree _).wellFormed.not_buries_of_type_eq type free buries

/-- A run from the empty table keeps it sound. -/
theorem sound_afterAll (index : Option StorageIndex) (turns : List Turn) :
    ((engine catalog maxBatch).afterAll ⟨∅, index⟩ turns).store.Sound :=
  afterAll_induction (engine catalog maxBatch) (p := fun s => s.store.Sound)
    (fun _ turn before => (effect_after turn).sound before) sound_empty turns

/-- A state is **reached** if some run of the engine leads to it from the empty table. -/
def Reached (catalog : Catalog) (maxBatch : Nat) (s : EngineState Memory) : Prop :=
  ∃ (settings : IndexSettings) (turns : List Turn),
    s = (engine catalog maxBatch).afterAll ⟨∅, settings.start⟩ turns

/-- A turn of a reached state reaches another. -/
theorem Reached.after (h : Reached catalog maxBatch s) (turn : Turn) :
    Reached catalog maxBatch ((engine catalog maxBatch).after s turn) := by
  obtain ⟨settings, turns, rfl⟩ := h
  exact ⟨settings, turns ++ [turn], (afterAll_concat _ _ turns turn).symm⟩

/-- The table of a reached state is sound. -/
theorem Reached.sound (h : Reached catalog maxBatch s) : s.store.Sound := by
  obtain ⟨settings, turns, rfl⟩ := h
  exact sound_afterAll settings.start turns

end Engine

end PathAcl
