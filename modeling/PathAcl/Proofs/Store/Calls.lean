import PathAcl.Store

/-! # Calls of a store
A store is used by calling its operations one after the other, whatever they answer. -/

namespace PathAcl.Store

variable {σ : Type}

/-- A **call** of a store, one for each of its operations. -/
inductive Call
  | register (storage : StorageRef)
  | kindOf (id : StorageId)
  | upsert (storage : StorageRef) (rows : List Permission)
  | upsertOne (storage : StorageRef) (row : Permission)
  | delete (id : StorageId) (keys : List PermissionKey)
  | load (id : StorageId) (places : List PathRef)
  | loadHeld (id : StorageId) (places : List PathRef) (sids : List Sid)
  | deleteUnder (id : StorageId) (roots : List PathRef)
  | deleteUnderRoot (id : StorageId) (root : PathRef)
  | relocate (id : StorageId) (source destination : PathRef)
  | storagesHolding (sids : List Sid)
  | prolong (id : StorageId) (records : List Prolongation)
  | prolongOne (record : Prolongation)
  | prolongationsAt (id : StorageId) (paths : List String)
  | nearestProlongation (id : StorageId) (path : String)
  | prolongations (id : StorageId)
  | health

/-- Whether a call is one that drops rows. -/
def Call.drops : Call → Bool
  | .delete .. | .deleteUnder .. | .deleteUnderRoot .. => true
  | _ => false

/-- What a call answers. -/
def Call.Answer : Call → Type
  | .register .. => Unit
  | .kindOf .. => Option StorageKind
  | .upsert .. | .load .. | .loadHeld .. => List Permission
  | .upsertOne .. => Permission
  | .delete .. | .deleteUnder .. | .deleteUnderRoot .. => List PermissionKey
  | .relocate .. => Nat
  | .storagesHolding .. => List StorageRef
  | .prolong .. | .prolongationsAt .. | .prolongations .. => List Prolongation
  | .prolongOne .. => Prolongation
  | .nearestProlongation .. => Option Prolongation
  | .health => Health

variable (S : Store σ)

/-- What a call makes a store do. -/
def act : (c : Call) → Action σ StoreError c.Answer
  | .register storage => S.register storage
  | .kindOf id => S.kindOf id
  | .upsert storage rows => S.upsert storage rows
  | .upsertOne storage row => S.upsertOne storage row
  | .delete id keys => S.delete id keys
  | .load id places => S.load id places
  | .loadHeld id places sids => S.loadHeld id places sids
  | .deleteUnder id roots => S.deleteUnder id roots
  | .deleteUnderRoot id root => S.deleteUnderRoot id root
  | .relocate id source destination => S.relocate id source destination
  | .storagesHolding sids => S.storagesHolding sids
  | .prolong id records => S.prolong id records
  | .prolongOne record => S.prolongOne record
  | .prolongationsAt id paths => S.prolongationsAt id paths
  | .nearestProlongation id path => S.nearestProlongation id path
  | .prolongations id => S.prolongations id
  | .health => S.health

/-- The state a call leaves, whether it answers or fails. -/
def after (s : σ) : Call → σ
  | .register storage => ((S.register storage).run s).state
  | .kindOf id => ((S.kindOf id).run s).state
  | .upsert storage rows => ((S.upsert storage rows).run s).state
  | .upsertOne storage row => ((S.upsertOne storage row).run s).state
  | .delete id keys => ((S.delete id keys).run s).state
  | .load id places => ((S.load id places).run s).state
  | .loadHeld id places sids => ((S.loadHeld id places sids).run s).state
  | .deleteUnder id roots => ((S.deleteUnder id roots).run s).state
  | .deleteUnderRoot id root => ((S.deleteUnderRoot id root).run s).state
  | .relocate id source destination => ((S.relocate id source destination).run s).state
  | .storagesHolding sids => ((S.storagesHolding sids).run s).state
  | .prolong id records => ((S.prolong id records).run s).state
  | .prolongOne record => ((S.prolongOne record).run s).state
  | .prolongationsAt id paths => ((S.prolongationsAt id paths).run s).state
  | .nearestProlongation id path => ((S.nearestProlongation id path).run s).state
  | .prolongations id => ((S.prolongations id).run s).state
  | .health => (S.health.run s).state

/-- It is the state that what the call does leaves. -/
theorem state_act (s : σ) (c : Call) : ((S.act c).run s).state = S.after s c := by
  cases c <;> rfl

/-- The state a list of calls leaves. -/
def afterAll (s : σ) (calls : List Call) : σ := calls.foldl S.after s

/-- What every call keeps, all calls keep. -/
theorem afterAll_induction {p : σ → Prop} (step : ∀ s call, p s → p (S.after s call)) {s : σ}
    (start : p s) (calls : List Call) : p (S.afterAll s calls) :=
  List.foldlRecOn calls S.after start fun s before call _ => step s call before

/-- Every operation of a store has a property. -/
structure Each (p : ∀ {α : Type}, Action σ StoreError α → Prop) : Prop where
  register : ∀ storage, p (S.register storage)
  kindOf : ∀ id, p (S.kindOf id)
  upsert : ∀ storage rows, p (S.upsert storage rows)
  delete : ∀ id keys, p (S.delete id keys)
  load : ∀ id places, p (S.load id places)
  loadHeld : ∀ id places sids, p (S.loadHeld id places sids)
  deleteUnder : ∀ id roots, p (S.deleteUnder id roots)
  relocate : ∀ id source destination, p (S.relocate id source destination)
  storagesHolding : ∀ sids, p (S.storagesHolding sids)
  prolong : ∀ id records, p (S.prolong id records)
  prolongationsAt : ∀ id paths, p (S.prolongationsAt id paths)
  prolongations : ∀ id, p (S.prolongations id)
  health : p S.health

/-- Every operation that concerns one storage has a property where it concerns the storage `i`. -/
structure EachAt (i : StorageId) (p : ∀ {α : Type}, Action σ StoreError α → Prop) : Prop where
  register : ∀ kind, p (S.register ⟨i, kind⟩)
  kindOf : p (S.kindOf i)
  upsert : ∀ kind rows, p (S.upsert ⟨i, kind⟩ rows)
  delete : ∀ keys, p (S.delete i keys)
  load : ∀ places, p (S.load i places)
  loadHeld : ∀ places sids, p (S.loadHeld i places sids)
  deleteUnder : ∀ roots, p (S.deleteUnder i roots)
  relocate : ∀ source destination, p (S.relocate i source destination)
  prolong : ∀ records, p (S.prolong i records)
  prolongationsAt : ∀ paths, p (S.prolongationsAt i paths)
  prolongations : p (S.prolongations i)

/-- Every operation has at a storage what follows from a property that it has there. -/
theorem EachAt.mono {S : Store σ} {i : StorageId} {p q : ∀ {α : Type}, Action σ StoreError α → Prop}
    (h : S.EachAt i p) (le : ∀ {α : Type} (a : Action σ StoreError α), p a → q a) : S.EachAt i q where
  register kind := le _ (h.register kind)
  kindOf := le _ h.kindOf
  upsert kind rows := le _ (h.upsert kind rows)
  delete keys := le _ (h.delete keys)
  load places := le _ (h.load places)
  loadHeld places sids := le _ (h.loadHeld places sids)
  deleteUnder roots := le _ (h.deleteUnder roots)
  relocate source destination := le _ (h.relocate source destination)
  prolong records := le _ (h.prolong records)
  prolongationsAt paths := le _ (h.prolongationsAt paths)
  prolongations := le _ h.prolongations

/-- What every operation has it has wherever it concerns a storage. -/
theorem Each.at {S : Store σ} {p : ∀ {α : Type}, Action σ StoreError α → Prop} (h : S.Each p)
    (i : StorageId) : S.EachAt i p where
  register kind := h.register ⟨i, kind⟩
  kindOf := h.kindOf i
  upsert kind rows := h.upsert ⟨i, kind⟩ rows
  delete keys := h.delete i keys
  load places := h.load i places
  loadHeld places sids := h.loadHeld i places sids
  deleteUnder roots := h.deleteUnder i roots
  relocate source destination := h.relocate i source destination
  prolong records := h.prolong i records
  prolongationsAt paths := h.prolongationsAt i paths
  prolongations := h.prolongations i

/-- Every operation has what follows from a property that every operation has. -/
theorem Each.mono {S : Store σ} {p q : ∀ {α : Type}, Action σ StoreError α → Prop} (h : S.Each p)
    (le : ∀ {α : Type} (a : Action σ StoreError α), p a → q a) : S.Each q where
  register storage := le _ (h.register storage)
  kindOf id := le _ (h.kindOf id)
  upsert storage rows := le _ (h.upsert storage rows)
  delete id keys := le _ (h.delete id keys)
  load id places := le _ (h.load id places)
  loadHeld id places sids := le _ (h.loadHeld id places sids)
  deleteUnder id roots := le _ (h.deleteUnder id roots)
  relocate id source destination := le _ (h.relocate id source destination)
  storagesHolding sids := le _ (h.storagesHolding sids)
  prolong id records := le _ (h.prolong id records)
  prolongationsAt id paths := le _ (h.prolongationsAt id paths)
  prolongations id := le _ (h.prolongations id)
  health := le _ h.health

/-- A property of each call of a list and the state it is made in. -/
def EachCall (s : σ) (calls : List Call) (p : σ → Call → Prop) : Prop :=
  ∀ past call rest, calls = past ++ call :: rest → p (S.afterAll s past) call

variable {S} {s : σ} {p q : σ → Call → Prop}

/-- The first call is made in the first state, the others in what it leaves. -/
theorem eachCall_cons {call : Call} {calls : List Call} :
    S.EachCall s (call :: calls) p ↔ p s call ∧ S.EachCall (S.after s call) calls p := by
  constructor
  · intro h
    refine ⟨h [] call calls rfl, fun past c rest hsplit => ?_⟩
    exact h (call :: past) c rest (by rw [hsplit]; rfl)
  · rintro ⟨first, later⟩ past c rest hsplit
    cases past with
    | nil =>
        obtain ⟨rfl, -⟩ := List.cons.inj hsplit
        exact first
    | cons c' past =>
        obtain ⟨rfl, tails⟩ := List.cons.inj hsplit
        exact later past c rest tails

/-- Two properties that agree wherever an invariant holds hold of the same runs, if either of them
lets the invariant live on. -/
theorem eachCall_congr {inv : σ → Prop} (agree : ∀ s, inv s → ∀ call, p s call ↔ q s call)
    (step : ∀ s, inv s → ∀ call, q s call → inv (S.after s call)) {calls : List Call} (h : inv s) :
    S.EachCall s calls p ↔ S.EachCall s calls q := by
  induction calls generalizing s with
  | nil =>
      have none_made : ∀ r : σ → Call → Prop, S.EachCall s [] r := fun r past call rest hsplit =>
        absurd hsplit.symm (List.append_ne_nil_of_right_ne_nil past (List.cons_ne_nil call rest))
      exact iff_of_true (none_made p) (none_made q)
  | cons call calls ih =>
      rw [eachCall_cons, eachCall_cons, agree s h call]
      exact and_congr_right fun hq => ih (step s h call hq)

/-- Writing one row leaves what writing it as a batch leaves. -/
theorem after_upsertOne (s : σ) (storage : StorageRef) (row : Permission) :
    S.after s (.upsertOne storage row) = S.after s (.upsert storage [row]) := by
  simp only [after, upsertOne]
  cases h : ((S.upsert storage [row]).run s).answer with
  | error e => rw [Action.run_bind_error h]
  | ok stored =>
      rw [Action.run_bind_ok h]
      cases stored.getLast? <;> rfl

/-- Writing one prolongation leaves what writing it as a batch leaves. -/
theorem after_prolongOne (s : σ) (record : Prolongation) :
    S.after s (.prolongOne record) = S.after s (.prolong record.storageId [record]) := by
  simp only [after, prolongOne]
  cases h : ((S.prolong record.storageId [record]).run s).answer with
  | error e => rw [Action.run_bind_error h]
  | ok stored =>
      rw [Action.run_bind_ok h]
      cases stored.getLast? <;> rfl

/-- Looking for the nearest prolongation leaves what looking at its paths leaves. -/
theorem after_nearestProlongation (s : σ) (id : StorageId) (path : String) :
    S.after s (.nearestProlongation id path) =
      S.after s (.prolongationsAt id (path :: Path.ancestors path)) := by
  simp only [after, nearestProlongation]
  cases h : ((S.prolongationsAt id (path :: Path.ancestors path)).run s).answer with
  | error e => rw [Action.run_bind_error h]
  | ok found =>
      rw [Action.run_bind_ok h]
      rfl

end PathAcl.Store
