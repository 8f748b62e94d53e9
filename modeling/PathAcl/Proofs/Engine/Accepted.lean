import PathAcl.Proofs.Engine.Lifecycle
import PathAcl.Proofs.Memory.Prolongations
import PathAcl.Proofs.Store.Refusals

/-! # What reaches a store
An engine and its store check a demand one after the other. The checks of the engine imply those of the
store for every kind of demand, so what reaches the store is never refused there for its arguments. The
days of a prolongation are limited by the calendar alone, and it ends before 31 bits of days do. -/

namespace PathAcl

open Memory (bind_eq_ok_iff)

/-! ## Days -/

/-- Records that are asked for fit the column of days: their end is in the calendar. -/
theorem Engine.days_le_of_asked {now : Instant} {storage : StorageRef} {paths : List String}
    {userId : String} {days : UInt32} {records : List Prolongation}
    (asked : askedRecords now storage paths userId days = .ok records) :
    ∀ record ∈ records, (record.days.toNat : Int) ≤ Int32.maxValue.toInt := by
  obtain ⟨-, normals, till, -, reached, rfl⟩ := askedRecords_eq_ok_iff.1 asked
  intro record hrecord
  obtain ⟨path, -, rfl⟩ := List.mem_map.1 hrecord
  exact Instant.le_of_addDays? reached

/-! ## Calls -/

/-- A store **accepts** a call if neither its checks nor those of its columns find a fault. -/
structure Store.Call.Accepted (c : Store.Call) : Prop where
  arguments : c.check = .ok ()
  days : c.checkDays = .ok ()

/-- What is accepted is refused neither by the table nor by the database before it sends anything. -/
theorem Store.Call.Accepted.not_refused {c : Store.Call} (h : c.Accepted) (message : String) :
    (∀ m, ((Memory.store.act c).run m).answer ≠ .error (.invalidInput message)) ∧
      ∀ k, ((Connection.store.act c).run k).answer = .error (.invalidInput message) →
        ((Connection.store.act c).run k).state.sent ≠ k.sent := by
  constructor
  · intro m refused
    obtain ⟨fault, found, -⟩ := (Memory.refuses_act c m message).1 ⟨refused, trivial⟩
    cases h.arguments.symm.trans found
  · intro k refused silent
    obtain ⟨fault, found, -⟩ := (Connection.refuses_act c k message).1 ⟨refused, silent⟩
    rw [h.arguments] at found
    cases h.days.symm.trans found

namespace Engine

variable {σ : Type}

/-- A step that only **takes notes** answers, and leaves the store alone. -/
def TakesNotes (f : Step σ Unit) : Prop :=
  ∀ s, (f.run s).answer = .ok () ∧ (f.run s).state.store = s.store

/-- Noting a write and reporting it is taking notes. -/
theorem takesNotes_noted (id : StorageId) (sids : List Sid) (event : Event) :
    TakesNotes (σ := σ) (noteWrite id sids >>= fun _ => .log event) := by
  intro s
  obtain ⟨noted, left⟩ := run_noteWrite s id sids
  rw [(Action.run_bind_of_ok noted left).1, (Action.run_bind_of_ok noted left).2]
  exact ⟨rfl, rfl⟩

/-- Reporting alone is. -/
theorem takesNotes_log (event : Event) : TakesNotes (σ := σ) (.log event) := fun _ => ⟨rfl, rfl⟩

namespace Demand

/-- The storage that a demand names by its id and kind. -/
def storage? : Demand → Option StorageRef
  | insert _ storage _ | delete storage _ | load storage _ | deleteUnder storage _
  | move storage _ _ | prolong _ storage _ _ _ => some storage
  | resolveAll .. | readable .. => none

/-- A demand is **settled aside** if engines of a batch limit give it one answer whatever their store, and
change nothing. -/
def SettledAside (limit : Nat) (d : Demand) (answer : Except RequestError Unit) : Prop :=
  ∀ (σ : Type) (e : Engine σ), e.maxBatch = limit → ∀ s,
    ((d.step e).run s).answer = answer ∧ ((d.step e).run s).state = s

/-- A demand **comes to a call** if engines of a batch limit confirm the storage, call their store so,
and then only take notes. -/
def ComesTo (limit : Nat) (d : Demand) (storage : StorageRef) (c : Store.Call) : Prop :=
  ∀ (σ : Type) (e : Engine σ), e.maxBatch = limit → ∃ notes : c.Answer → Step σ Unit,
    (∀ x, TakesNotes (notes x)) ∧
      d.step e = (e.confirm storage >>= fun _ => onStore (e.store.act c) >>= notes)

variable {limit : Nat} {d : Demand} {storage : StorageRef}

/-- What becomes of a demand that names a storage. -/
inductive Verdict (limit : Nat) (d : Demand) (storage : StorageRef) : Prop
  /-- The engine refuses it by its own checks. -/
  | refused (error : RequestError) (aside : d.SettledAside limit (.error error))
  /-- It moves something to where it is. -/
  | nowhere (source destination place : PathRef) (same : d = .move storage source destination)
      (here : Request.normalRef source = .ok place)
      (there : Request.normalRef destination = .ok place) (aside : d.SettledAside limit (.ok ()))
  /-- It comes to a call, which is accepted if the storage can exist. -/
  | calls (c : Store.Call) (comes : d.ComesTo limit storage c)
      (accepted : 0 < storage.id → c.Accepted)

/-- A demand whose size and items are checked in front is refused, or comes to the call that is made of
its items. -/
theorem verdict_of_steps {β : Type} {size : Except RequestError Unit}
    {items : Except RequestError β} {call : β → Store.Call}
    (steps : ∀ (σ : Type) (e : Engine σ), e.maxBatch = limit →
      ∃ notes : ∀ b, (call b).Answer → Step σ Unit, (∀ b x, TakesNotes (notes b x)) ∧
        d.step e = (.ofExcept size >>= fun _ => .ofExcept items >>= fun b =>
          e.confirm storage >>= fun _ => onStore (e.store.act (call b)) >>= notes b))
    (accepted : ∀ b, items = .ok b → 0 < storage.id → (call b).Accepted) :
    d.Verdict limit storage := by
  cases size with
  | error why =>
      refine .refused why fun σ e fits s => ?_
      obtain ⟨notes, -, same⟩ := steps σ e fits
      rw [same]
      exact ⟨rfl, rfl⟩
  | ok u =>
      cases items with
      | error why =>
          refine .refused why fun σ e fits s => ?_
          obtain ⟨notes, -, same⟩ := steps σ e fits
          rw [same]
          exact ⟨rfl, rfl⟩
      | ok b =>
          refine .calls (call b) (fun σ e fits => ?_) (accepted b rfl)
          obtain ⟨notes, quiet, same⟩ := steps σ e fits
          exact ⟨notes b, quiet b, same⟩

/-! ## The demands one by one -/

/-- Writing rows. -/
theorem verdict_insert (now : Instant) (requests : List GrantRequest) :
    (insert now storage requests).Verdict limit storage := by
  apply @verdict_of_steps limit _ storage _ (Request.checkSize limit requests.length)
    (requests.mapM (Request.toRow now)) fun rows => .upsert storage rows
  · rintro σ e rfl
    refine ⟨fun rows (written : List Permission) =>
      noteWrite storage.id (distinctSids (written.map Permission.sid)) >>= fun _ =>
        .log (.inserted storage.id written.length), fun _ _ => takesNotes_noted _ _ _, ?_⟩
    simp only [step, Engine.insert, bind_assoc, pure_bind, bind_pure_unit]
    rfl
  · intro rows taken positive
    refine ⟨Validity.andThen_eq_ok_iff.2 ⟨Validity.checkStorageId_eq_ok_iff.2 positive, ?_⟩, rfl⟩
    refine Validity.checkAll_eq_ok_iff.2 fun row hrow => ?_
    obtain ⟨r, -, made⟩ := (mem_mapM_iff taken).1 hrow
    exact Request.checkPermission_of_toRow made

/-- Dropping rows. -/
theorem verdict_delete (keys : List PermissionKey) :
    (delete storage keys).Verdict limit storage := by
  apply @verdict_of_steps limit _ storage _ (Request.checkSize limit keys.length)
    (keys.mapM Request.toKey) fun keys => .delete storage.id keys
  · rintro σ e rfl
    refine ⟨fun keys (dropped : List PermissionKey) =>
      noteWrite storage.id (distinctSids (dropped.map PermissionKey.sid)) >>= fun _ =>
        .log (.deleted storage.id dropped.length), fun _ _ => takesNotes_noted _ _ _, ?_⟩
    simp only [step, Engine.delete, bind_assoc, pure_bind, bind_pure_unit]
    rfl
  · intro taken made positive
    refine ⟨Validity.andThen_eq_ok_iff.2 ⟨Validity.checkStorageId_eq_ok_iff.2 positive, ?_⟩, rfl⟩
    refine Validity.checkAll_eq_ok_iff.2 fun key hkey => ?_
    obtain ⟨k, -, normal⟩ := (mem_mapM_iff made).1 hkey
    exact Request.checkKey_of_toKey normal

/-- Reading rows. -/
theorem verdict_load (places : List PathRef) : (load storage places).Verdict limit storage := by
  apply @verdict_of_steps limit _ storage _ (Request.checkSize limit places.length)
    (places.mapM Request.normalRef) fun places => .load storage.id (SortedSet.ofList places).members
  · rintro σ e rfl
    refine ⟨fun _ (rows : List Permission) => .log (.loaded storage.id rows.length),
      fun _ _ => takesNotes_log _, ?_⟩
    simp only [step, Engine.load, bind_assoc, pure_bind, bind_pure_unit]
    rfl
  · intro _ _ positive
    exact ⟨Validity.checkStorageId_eq_ok_iff.2 positive, rfl⟩

/-- Dropping subtrees. -/
theorem verdict_deleteUnder (roots : List PathRef) :
    (deleteUnder storage roots).Verdict limit storage := by
  apply @verdict_of_steps limit _ storage _ (Request.checkSize limit roots.length)
    (roots.mapM Request.normalRef) fun roots => .deleteUnder storage.id roots
  · rintro σ e rfl
    refine ⟨fun roots (dropped : List PermissionKey) =>
      noteWrite storage.id (distinctSids (dropped.map PermissionKey.sid)) >>= fun _ =>
        .log (.deletedTrees storage.id roots.length dropped.length),
      fun _ _ => takesNotes_noted _ _ _, ?_⟩
    simp only [step, Engine.deleteUnder, bind_assoc, pure_bind, bind_pure_unit]
    rfl
  · intro taken made positive
    refine ⟨Validity.andThen_eq_ok_iff.2 ⟨Validity.checkStorageId_eq_ok_iff.2 positive, ?_⟩, rfl⟩
    refine Validity.checkAll_eq_ok_iff.2 fun root hroot => ?_
    obtain ⟨r, -, normal⟩ := (mem_mapM_iff made).1 hroot
    exact Request.checkPath_of_normalRef normal

/-- Prolonging paths. -/
theorem verdict_prolong (now : Instant) (paths : List String) (userId : String) (days : UInt32) :
    (prolong now storage paths userId days).Verdict limit storage := by
  apply @verdict_of_steps limit _ storage _ (Request.checkSize limit paths.length)
    (askedRecords now storage paths userId days) fun records => .prolong storage.id records
  · rintro σ e rfl
    refine ⟨fun _ (written : List Prolongation) => .log (.prolonged storage.id written.length days),
      fun _ _ => takesNotes_log _, ?_⟩
    simp only [step, prolong_eq, bind_assoc, pure_bind, bind_pure_unit]
    rfl
  · intro records asked positive
    refine ⟨Validity.andThen_eq_ok_iff.2 ⟨Validity.checkStorageId_eq_ok_iff.2 positive, ?_⟩, ?_⟩
    · exact Validity.checkAll_eq_ok_iff.2 (stored_of_asked asked)
    · -- the last record of each path was asked for too
      have fit : ∀ p ∈ Prolongation.keepLast records, p.days.toNat ≤ Int32.maxValue.toInt :=
        fun p hp => days_le_of_asked asked p (mem_of_mem_keepLast hp)
      obtain ⟨column, fits⟩ := Database.daysColumn_eq_ok_iff.2 fit
      exact bind_eq_ok_iff.2 ⟨column, fits, rfl⟩

/-- Moving rows. -/
theorem verdict_move (source destination : PathRef) :
    (move storage source destination).Verdict limit storage := by
  cases ends : checkMove source destination with
  | error why =>
      refine .refused why fun σ e fits s => ?_
      simp only [step, Engine.move, ends]
      exact ⟨rfl, rfl⟩
  | ok both =>
      obtain ⟨p, q⟩ := both
      obtain ⟨-, hp, hq, -⟩ := checkMove_eq_ok_iff.1 ends
      by_cases same : p = q
      · subst same
        refine .nowhere source destination p rfl hp hq fun σ e fits s => ?_
        simp only [step, Engine.move, ends, Action.ofExcept_ok_bind, if_pos]
        exact ⟨rfl, rfl⟩
      · refine .calls (.relocate storage.id p q) (fun σ e fits => ?_) fun positive => ?_
        · let report (moved : Nat) : Step σ Unit := .log (.moved storage.id p.path q.path moved)
          let notes (moved : Nat) : Step σ Unit :=
            if 0 < moved then noteWrite storage.id [] >>= fun _ => report moved else report moved
          refine ⟨notes, fun (moved : Nat) => ?_, ?_⟩
          · show TakesNotes (if 0 < moved then _ else _)
            split
            · exact takesNotes_noted _ _ _
            · exact takesNotes_log _
          · simp only [step, Engine.move, ends, Action.ofExcept_ok_bind, if_neg same, bind_assoc]
            refine bind_congr fun _ => bind_congr fun (moved : Nat) => ?_
            show _ = if 0 < moved then _ else _
            split
            · simp only [bind_assoc, pure_bind, bind_pure_unit]
              rfl
            · simp only [bind_assoc, pure_bind, bind_pure_unit]
              rfl
        · refine ⟨Validity.andThen_eq_ok_iff.2 ⟨Validity.checkStorageId_eq_ok_iff.2 positive, ?_⟩, rfl⟩
          exact Validity.andThen_eq_ok_iff.2
            ⟨Request.checkPath_of_normalRef hp, Request.checkPath_of_normalRef hq⟩

/-- **What becomes of a demand**, whatever it is. -/
theorem verdict (named : d.storage? = some storage) : d.Verdict limit storage := by
  cases d with
  | insert now other requests =>
      obtain rfl := Option.some.inj named
      exact verdict_insert now requests
  | delete other keys =>
      obtain rfl := Option.some.inj named
      exact verdict_delete keys
  | load other places =>
      obtain rfl := Option.some.inj named
      exact verdict_load places
  | deleteUnder other roots =>
      obtain rfl := Option.some.inj named
      exact verdict_deleteUnder roots
  | move other source destination =>
      obtain rfl := Option.some.inj named
      exact verdict_move source destination
  | prolong now other paths userId days =>
      obtain rfl := Option.some.inj named
      exact verdict_prolong now paths userId days
  | resolveAll id targets sids => cases named
  | readable sids => cases named

/-- **What an engine asks of a store passes the checks of the store.** A demand on a storage that can exist
is refused by the engine's own checks, or it moves something to where it is: then no store is asked. Or it
comes to a call, and no check of arguments finds a fault with it, nor is there one day too many for the
database. So the call is refused neither by the table nor, before it sends anything, by the database. -/
theorem store_accepts_calls (named : d.storage? = some storage) (positive : 0 < storage.id) :
    (∃ error, d.SettledAside limit (.error error)) ∨
      (∃ source destination place, d = .move storage source destination ∧
        Request.normalRef source = .ok place ∧ Request.normalRef destination = .ok place ∧
          d.SettledAside limit (.ok ())) ∨
      ∃ c, d.ComesTo limit storage c ∧ c.check = .ok () ∧ c.checkDays = .ok () ∧
        ∀ message, (∀ m, ((Memory.store.act c).run m).answer ≠ .error (.invalidInput message)) ∧
          ∀ k, ((Connection.store.act c).run k).answer = .error (.invalidInput message) →
            ((Connection.store.act c).run k).state.sent ≠ k.sent := by
  cases @verdict limit d storage named with
  | refused error aside => exact .inl ⟨error, aside⟩
  | nowhere source destination place same here there aside =>
      exact .inr (.inl ⟨source, destination, place, same, here, there, aside⟩)
  | calls c comes accepted =>
      obtain ⟨arguments, days⟩ := accepted positive
      exact .inr (.inr ⟨c, comes, arguments, days, (accepted positive).not_refused⟩)

/-- A prolongation by ninety million days; the calendar reaches that far. -/
def prolongFar : Demand := .prolong .epoch ⟨1, .s3⟩ ["a"] "u" 90000000

/-- It comes to a call that a store accepts. -/
theorem store_accepts_prolongFar :
    ∃ c, prolongFar.ComesTo 10 ⟨1, .s3⟩ c ∧ c.check = .ok () ∧ c.checkDays = .ok () := by
  -- over a table it is answered, and a record is kept
  let e := Memory.engine (.external fun _ => .ok (some .s3)) 10
  have answered : ((prolongFar.step e).run ⟨∅, none⟩).answer = .ok () := by decide +kernel
  have kept : (((prolongFar.step e).run ⟨∅, none⟩).state.store.record? 1 "a").isSome = true := by
    decide +kernel
  have named : prolongFar.storage? = some ⟨1, .s3⟩ := rfl
  rcases @store_accepts_calls 10 _ _ named (by decide) with
    ⟨error, aside⟩ | ⟨source, destination, place, -, -, -, aside⟩ | ⟨c, comes, arguments, days, -⟩
  · cases answered.symm.trans (aside Memory e rfl ⟨∅, none⟩).1
  · rw [(aside Memory e rfl ⟨∅, none⟩).2] at kept
    cases kept
  · exact ⟨c, comes, arguments, days⟩

end Demand

end Engine

end PathAcl
