import PathAcl.Engine.Effective
import PathAcl.Engine.Lifecycle
import PathAcl.Engine.Listing
import PathAcl.Engine.Rows
import PathAcl.Engine.Subtree
import PathAcl.Memory
import PathAcl.Proofs.Action
import PathAcl.Proofs.Store.Calls

/-! # Calls of an engine
An engine is used by calling its operations one after the other, whatever they answer. In between the
index may lose entries that it was not asked to drop. A call that names a storage consists of questions
to the store about that storage and of notes of writes to it, so it has every property that these have
and that parts hand on. One such property is to be blind to the index: what is answered and what becomes
of the store is the same whether an index is kept, and whatever it remembers. -/

namespace PathAcl

namespace Engine

variable {σ ε α β : Type}

/-! ## Runs -/

/-- A **call** of an engine, one for each of its operations. -/
inductive Call
  | register (storage : StorageRef)
  | health
  | lookup (id : StorageId)
  | confirm (storage : StorageRef)
  | insert (now : Instant) (storage : StorageRef) (requests : List GrantRequest)
  | delete (storage : StorageRef) (keys : List PermissionKey)
  | load (storage : StorageRef) (places : List PathRef)
  | deleteUnder (storage : StorageRef) (roots : List PathRef)
  | deleteUnderRoot (storage : StorageRef) (root : PathRef)
  | move (storage : StorageRef) (source destination : PathRef)
  | prolong (now : Instant) (storage : StorageRef) (paths : List String) (userId : String)
      (days : UInt32)
  | prolongOne (now : Instant) (storage : StorageRef) (path userId : String) (days : UInt32)
  | prolongationOf (id : StorageId) (path : String)
  | prolongations (id : StorageId)
  | resolve (id : StorageId) (target : PathRef) (sids : List Sid)
  | resolveAll (id : StorageId) (targets : List PathRef) (sids : List Sid)
  | readable (sids : List Sid)
  | overlay (sids : List Sid) (base : List ListedStorage)

/-- The storage that a call names, if it concerns one. -/
def Call.storageId? : Call → Option StorageId
  | .register storage | .confirm storage | .insert _ storage _ | .delete storage _ | .load storage _
  | .deleteUnder storage _ | .deleteUnderRoot storage _ | .move storage _ _ | .prolong _ storage _ _ _
  | .prolongOne _ storage _ _ _ => some storage.id
  | .lookup id | .prolongationOf id _ | .prolongations id | .resolve id _ _ | .resolveAll id _ _ =>
      some id
  | .health | .readable _ | .overlay _ _ => none

/-- What a call fails with. -/
def Call.Failure : Call → Type
  | .register .. | .health | .prolongations .. => StoreError
  | _ => RequestError

/-- What a call answers. -/
def Call.Answer : Call → Type
  | .register .. | .confirm .. => Unit
  | .health => Health
  | .lookup .. => Option StorageKind
  | .insert .. | .load .. => List Permission
  | .delete .. | .deleteUnder .. | .deleteUnderRoot .. => List PermissionKey
  | .move .. => Nat
  | .prolong .. | .prolongations .. => List Prolongation
  | .prolongOne .. => Prolongation
  | .prolongationOf .. => Option Prolongation
  | .resolve .. => Mask
  | .resolveAll .. => SortedMap PathRef Mask
  | .readable .. => SortedSet StorageRef
  | .overlay .. => List ListedStorage

/-- A **turn** of a run: a call, or the loss of an entry that the index was not asked to drop. -/
inductive Turn
  | call (c : Call)
  | lose (question : SidSet)

/-- The state without the remembered answer to a question. -/
def lose (s : EngineState σ) (question : SidSet) : EngineState σ :=
  { s with index := s.index.map fun x => { x with answers := x.answers.erase question } }

variable (e : Engine σ)

/-- What a call makes an engine do. -/
def act : (c : Call) → Action (EngineState σ) c.Failure c.Answer
  | .register storage => e.register storage
  | .health => e.health
  | .lookup id => e.lookup id
  | .confirm storage => e.confirm storage
  | .insert now storage requests => e.insert now storage requests
  | .delete storage keys => e.delete storage keys
  | .load storage places => e.load storage places
  | .deleteUnder storage roots => e.deleteUnder storage roots
  | .deleteUnderRoot storage root => e.deleteUnderRoot storage root
  | .move storage source destination => e.move storage source destination
  | .prolong now storage paths userId days => e.prolong now storage paths userId days
  | .prolongOne now storage path userId days => e.prolongOne now storage path userId days
  | .prolongationOf id path => e.prolongationOf id path
  | .prolongations id => e.prolongations id
  | .resolve id target sids => e.resolve id target sids
  | .resolveAll id targets sids => e.resolveAll id targets sids
  | .readable sids => e.readable sids
  | .overlay sids base => e.overlay sids base

/-- The state a call leaves, whether it answers or fails. -/
def afterCall (s : EngineState σ) : Call → EngineState σ
  | .register storage => ((e.register storage).run s).state
  | .health => (e.health.run s).state
  | .lookup id => ((e.lookup id).run s).state
  | .confirm storage => ((e.confirm storage).run s).state
  | .insert now storage requests => ((e.insert now storage requests).run s).state
  | .delete storage keys => ((e.delete storage keys).run s).state
  | .load storage places => ((e.load storage places).run s).state
  | .deleteUnder storage roots => ((e.deleteUnder storage roots).run s).state
  | .deleteUnderRoot storage root => ((e.deleteUnderRoot storage root).run s).state
  | .move storage source destination => ((e.move storage source destination).run s).state
  | .prolong now storage paths userId days =>
      ((e.prolong now storage paths userId days).run s).state
  | .prolongOne now storage path userId days =>
      ((e.prolongOne now storage path userId days).run s).state
  | .prolongationOf id path => ((e.prolongationOf id path).run s).state
  | .prolongations id => ((e.prolongations id).run s).state
  | .resolve id target sids => ((e.resolve id target sids).run s).state
  | .resolveAll id targets sids => ((e.resolveAll id targets sids).run s).state
  | .readable sids => ((e.readable sids).run s).state
  | .overlay sids base => ((e.overlay sids base).run s).state

/-- It is the state that what the call does leaves. -/
theorem state_act (s : EngineState σ) (c : Call) : ((e.act c).run s).state = e.afterCall s c := by
  cases c <;> rfl

/-- The state a turn leaves. -/
def after (s : EngineState σ) : Turn → EngineState σ
  | .call c => e.afterCall s c
  | .lose question => lose s question

/-- The state a list of turns leaves. -/
def afterAll (s : EngineState σ) (turns : List Turn) : EngineState σ := turns.foldl e.after s

/-- Turns after turns are one list of turns. -/
theorem afterAll_append (s : EngineState σ) (past rest : List Turn) :
    e.afterAll s (past ++ rest) = e.afterAll (e.afterAll s past) rest :=
  List.foldl_append

/-- The last turn starts where the turns before it end. -/
theorem afterAll_concat (s : EngineState σ) (past : List Turn) (turn : Turn) :
    e.afterAll s (past ++ [turn]) = e.after (e.afterAll s past) turn :=
  e.afterAll_append s past [turn]

/-- What every turn keeps, all turns keep. -/
theorem afterAll_induction {p : EngineState σ → Prop} (step : ∀ s turn, p s → p (e.after s turn))
    {s : EngineState σ} (start : p s) (turns : List Turn) : p (e.afterAll s turns) :=
  List.foldlRecOn turns e.after start fun s before turn _ => step s turn before

/-- What a turn answers if it asks which storages can be read. -/
def listing? (s : EngineState σ) : Turn → Option (Except RequestError (SortedSet StorageRef))
  | .call (.readable sids) => some ((e.readable sids).run s).answer
  | _ => none

/-- What a list of turns answers where it asks which storages can be read. -/
def listings (s : EngineState σ) : List Turn → List (Except RequestError (SortedSet StorageRef))
  | [] => []
  | turn :: turns => (e.listing? s turn).toList ++ listings (e.after s turn) turns

/-! ## What a call consists of -/

/-- The form of a **batch of writes**: the number of the items and each item are checked and the storage
is confirmed; then the store is asked once, and what it wrote is noted and reported. -/
def writeBatch (storage : StorageRef) (size : Except RequestError Unit)
    (items : Except RequestError β) (write : β → Action σ StoreError α) (sids : α → List Sid)
    (event : β → α → Event) : Step σ α := do
  .ofExcept size
  let b ← .ofExcept items
  e.confirm storage
  let written ← onStore (write b)
  noteWrite storage.id (sids written)
  .log (event b written)
  pure written

/-- Questions to the store in a row are one question. -/
theorem asking_bind {a : Action σ StoreError α} {f : α → Action σ StoreError β} :
    asking (a >>= f) = asking a >>= fun x => asking (f x) := by
  funext s
  simp only [asking, Action.onPart, bind, Action.andThen]
  cases (a s.store).answer <;> rfl

/-- An engine **meets** a closed property at a storage if every question to the store about the storage
has it, and every note of a write to it. -/
structure Meets (i : StorageId) (p : ∀ {ε α : Type}, Action (EngineState σ) ε α → Prop) : Prop where
  closed : Action.Closed p
  asks : e.store.EachAt i fun a => p (asking a)
  notes : ∀ sids, p (noteWrite i sids : Step σ Unit)

namespace Meets

open PathAcl.Action (Closed.ite)

variable {e} {p : ∀ {ε α : Type}, Action (EngineState σ) ε α → Prop} {i : StorageId}

/-- A question on behalf of a request has the property if the question has. -/
theorem onStore (h : e.Meets i p) {a : Action σ StoreError α} (ha : p (asking a)) : p (onStore a) :=
  h.closed.mapError RequestError.ofStore ha

/-- A look-up in the catalog has it. -/
theorem lookup (h : e.Meets i p) : p (e.lookup i) := by
  unfold Engine.lookup
  split
  · exact h.onStore h.asks.kindOf
  · exact h.closed.ofExcept _

section Naming

variable {storage : StorageRef} (h : e.Meets storage.id p)

include h

/-- The check of a storage has it. -/
theorem confirm : p (e.confirm storage) := by
  refine h.closed.bind h.lookup fun kind? => ?_
  split
  · exact h.closed.fail _
  · exact Closed.ite _ (h.closed.answer _) (h.closed.fail _)

/-- A batch of writes has it if what the store is asked has. -/
theorem writeBatch {size : Except RequestError Unit} {items : Except RequestError β}
    {write : β → Action σ StoreError α} {sids : α → List Sid} {event : β → α → Event}
    (asked : ∀ b, p (asking (write b))) :
    p (e.writeBatch storage size items write sids event) := by
  refine h.closed.bind (h.closed.ofExcept _) fun _ => h.closed.bind (h.closed.ofExcept _) fun b => ?_
  refine h.closed.bind h.confirm fun _ => h.closed.bind (h.onStore (asked b)) fun written => ?_
  refine h.closed.bind (h.notes _) fun _ => ?_
  exact h.closed.bind (h.closed.log _) fun _ => h.closed.answer _

/-- Writing rows has it. -/
theorem insert (now : Instant) (requests : List GrantRequest) :
    p (e.insert now storage requests) :=
  h.writeBatch fun rows => h.asks.upsert storage.kind rows

/-- Dropping rows has it. -/
theorem delete (keys : List PermissionKey) : p (e.delete storage keys) :=
  h.writeBatch fun keys => h.asks.delete keys

/-- Reading rows has it. -/
theorem load (places : List PathRef) : p (e.load storage places) := by
  refine h.closed.bind (h.closed.ofExcept _) fun _ => h.closed.bind (h.closed.ofExcept _) fun _ => ?_
  refine h.closed.bind h.confirm fun _ => ?_
  refine h.closed.bind (h.onStore (h.asks.load _)) fun rows => ?_
  exact h.closed.bind (h.closed.log _) fun _ => h.closed.answer _

/-- Dropping subtrees has it. -/
theorem deleteUnder (roots : List PathRef) : p (e.deleteUnder storage roots) :=
  h.writeBatch fun roots => h.asks.deleteUnder roots

/-- Moving rows has it. -/
theorem move (source destination : PathRef) : p (e.move storage source destination) := by
  refine h.closed.bind (h.closed.ofExcept _) fun ends => ?_
  refine Closed.ite _ (h.closed.bind (h.closed.log _) fun _ => h.closed.answer _) ?_
  refine h.closed.bind h.confirm fun _ => ?_
  refine h.closed.bind (h.onStore (h.asks.relocate _ _)) fun moved => ?_
  -- a move that moved nothing is not noted
  refine Closed.ite _ (h.closed.bind (h.notes _) fun _ => ?_) ?_
  all_goals exact h.closed.bind (h.closed.log _) fun _ => h.closed.answer _

/-- Prolonging paths has it. -/
theorem prolong (now : Instant) (paths : List String) (userId : String) (days : UInt32) :
    p (e.prolong now storage paths userId days) := by
  refine h.closed.bind (h.closed.ofExcept _) fun _ => ?_
  refine Closed.ite _ (h.closed.bind (h.closed.fail _) fun _ => ?_) ?_
  all_goals refine Closed.ite _ (h.closed.bind (h.closed.fail _) fun _ => ?_) ?_
  all_goals refine h.closed.bind (h.closed.ofExcept _) fun _ => ?_
  all_goals refine h.closed.bind (h.closed.ofExcept _) fun _ => ?_
  all_goals refine h.closed.bind h.confirm fun _ => ?_
  all_goals refine h.closed.bind (h.onStore (h.asks.prolong _)) fun written => ?_
  all_goals exact h.closed.bind (h.closed.log _) fun _ => h.closed.answer _

/-- Prolonging one path has it. -/
theorem prolongOne (now : Instant) (path userId : String) (days : UInt32) :
    p (e.prolongOne now storage path userId days) := by
  refine h.closed.bind (h.prolong now [path] userId days) fun written => ?_
  split
  · exact h.closed.answer _
  · exact h.closed.fail _

end Naming

variable (h : e.Meets i p)

include h

/-- Looking for the nearest prolongation has it: it is picked from one answer of the store. -/
theorem prolongationOf (path : String) : p (e.prolongationOf i path) := by
  refine h.closed.bind (h.closed.ofExcept _) fun path => h.onStore ?_
  rw [Store.nearestProlongation, asking_bind]
  exact h.closed.bind (h.asks.prolongationsAt _) fun _ => h.closed.answer _

/-- Effective masks of targets in normal form have it. -/
theorem effectiveOf (targets : SortedSet PathRef) (sids : List Sid) :
    p (e.effectiveOf i targets sids) := by
  refine Closed.ite _ (h.closed.answer _) ?_
  refine h.closed.bind (h.onStore (h.asks.loadHeld _ _)) fun rows => ?_
  exact h.closed.bind (h.closed.log _) fun _ => h.closed.answer _

/-- The effective mask of one target has it. -/
theorem resolve (target : PathRef) (sids : List Sid) : p (e.resolve i target sids) := by
  refine h.closed.bind (h.closed.ofExcept _) fun target => ?_
  exact h.closed.bind (h.effectiveOf _ sids) fun _ => h.closed.answer _

/-- The effective masks of many targets have it. -/
theorem resolveAll (targets : List PathRef) (sids : List Sid) : p (e.resolveAll i targets sids) :=
  h.closed.bind (h.closed.ofExcept _) fun _ => h.effectiveOf _ sids

/-- **A call that names a storage has every property that the engine meets there.** -/
theorem act {c : Call} (named : c.storageId? = some i) : p (e.act c) := by
  cases c with
  | health | readable | overlay => cases named
  | register storage =>
      cases named
      exact h.asks.register storage.kind
  | lookup id =>
      cases named
      exact h.lookup
  | confirm storage =>
      cases named
      exact h.confirm
  | insert now storage requests =>
      cases named
      exact h.insert now requests
  | delete storage keys =>
      cases named
      exact h.delete keys
  | load storage places =>
      cases named
      exact h.load places
  | deleteUnder storage roots =>
      cases named
      exact h.deleteUnder roots
  | deleteUnderRoot storage root =>
      cases named
      exact h.deleteUnder [root]
  | move storage source destination =>
      cases named
      exact h.move source destination
  | prolong now storage paths userId days =>
      cases named
      exact h.prolong now paths userId days
  | prolongOne now storage path userId days =>
      cases named
      exact h.prolongOne now path userId days
  | prolongationOf id path =>
      cases named
      exact h.prolongationOf path
  | prolongations id =>
      cases named
      exact h.asks.prolongations
  | resolve id target sids =>
      cases named
      exact h.resolve target sids
  | resolveAll id targets sids =>
      cases named
      exact h.resolveAll targets sids

end Meets

/-! ## Blind actions -/

/-- An action is **blind** if its answer and the store it leaves do not depend on the index. -/
def Blind (a : Action (EngineState σ) ε α) : Prop :=
  ∀ s t, s.store = t.store →
    (a.run s).answer = (a.run t).answer ∧ (a.run s).state.store = (a.run t).state.store

/-- **Blindness is closed.** -/
theorem closed_blind : Action.Closed (fun {ε α} (a : Action (EngineState σ) ε α) => Blind a) where
  ofExcept _ _ _ same := ⟨rfl, same⟩
  log _ _ _ same := ⟨rfl, same⟩
  mapError f ha s t same := by
    obtain ⟨answers, stores⟩ := ha s t same
    exact ⟨congrArg (Except.mapError f) answers, stores⟩
  bind := by
    intro ε α β a f ha hf s t same
    obtain ⟨answers, stores⟩ := ha s t same
    rw [Action.answer_bind, Action.answer_bind, Action.state_bind, Action.state_bind, answers]
    cases (a.run t).answer with
    | error e => exact ⟨rfl, stores⟩
    | ok x => exact hf x _ _ stores

/-- A question to the store is blind. -/
theorem blind_asking (a : Action σ StoreError α) : Blind (asking a) := by
  intro s t same
  constructor
  · show (a s.store).answer = (a t.store).answer
    rw [same]
  · show (a s.store).state = (a t.store).state
    rw [same]

/-- A note to the index is blind. -/
theorem blind_noteWrite (id : StorageId) (sids : List Sid) :
    Blind (noteWrite id sids : Step σ Unit) := by
  intro s t same
  simp only [Action.run, Engine.noteWrite, onIndex]
  cases s.index <;> cases t.index <;> exact ⟨rfl, same⟩

/-- Whatever a store does, an engine over it meets blindness. -/
theorem meets_blind (i : StorageId) :
    e.Meets i fun {ε α} (a : Action (EngineState σ) ε α) => Blind a := by
  refine ⟨closed_blind, ?_, fun sids => blind_noteWrite i sids⟩
  constructor <;> intros <;> exact blind_asking _

/-- Laying grants over a listing leaves the store as asking for the storages does. -/
theorem store_overlay (sids : List Sid) (base : List ListedStorage) (s : EngineState σ) :
    ((e.overlay sids base).run s).state.store = ((e.readable sids).run s).state.store := by
  rw [overlay, Action.state_bind]
  split <;> rfl

/-- If listing leaves the store, then no turn makes the store depend on the index. -/
theorem store_after_eq
    (kept : ∀ (sids : List Sid) (s : EngineState σ), ((e.readable sids).run s).state.store = s.store)
    {s t : EngineState σ} (same : s.store = t.store) (turn : Turn) :
    (e.after s turn).store = (e.after t turn).store := by
  cases turn with
  | lose question => exact same
  | call c =>
      rw [after, after]
      cases named : c.storageId? with
      | some i =>
          have blind := (e.meets_blind i).act named
          rw [← state_act, ← state_act]
          exact (blind s t same).2
      | none =>
          cases c with
          | health => exact (blind_asking e.store.health s t same).2
          | readable sids => exact (kept sids s).trans (same.trans (kept sids t).symm)
          | overlay sids base =>
              rw [afterCall, afterCall, store_overlay, store_overlay, kept, kept, same]
          | _ => cases named

end Engine

end PathAcl
