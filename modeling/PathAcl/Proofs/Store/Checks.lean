import PathAcl.Proofs.Action
import PathAcl.Proofs.Database.Rows
import PathAcl.Proofs.Store.Calls

/-! # Checks of arguments
A store goes through the arguments of a call before it does anything, and refuses the call with the
first fault it finds. What is refused so can be told apart from all other failures, and put together from
the checks in the order in which they are made. -/

namespace PathAcl

open Database
open PathAcl.Action (Answers)

/-! ## Actions that refuse -/

namespace Action

variable {σ α β : Type}

/-- An action **refuses** by a check if it fails with a fault of an argument, in the states that a
relation ties to the first, just if the check finds a fault, and with this fault. -/
def Refuses (tied : σ → σ → Prop) (check : Except Fault Unit) (a : Action σ StoreError α) : Prop :=
  ∀ s message, (a.run s).answer = .error (.invalidInput message) ∧ tied s (a.run s).state ↔
    ∃ fault, check = .error fault ∧ message = fault.message

/-- An action that never fails with a fault of an argument. -/
def Harmless (a : Action σ StoreError α) : Prop :=
  ∀ s message, (a.run s).answer ≠ .error (.invalidInput message)

/-- What always answers is harmless. -/
theorem harmless_of_answers {a : Action σ StoreError α} (h : Answers a) : Harmless a := by
  intro s message failed
  obtain ⟨x, answered⟩ := h s
  cases answered.symm.trans failed

/-- That a store contradicts itself is no fault of an argument. -/
theorem harmless_internal (text : String) :
    Harmless (.fail (.internal text) : Action σ StoreError α) := by
  intro s message failed
  cases failed

/-- Two harmless actions in a row are harmless. -/
theorem Harmless.bind {a : Action σ StoreError α} {f : α → Action σ StoreError β} (ha : Harmless a)
    (hf : ∀ x, Harmless (f x)) : Harmless (a >>= f) := by
  intro s message
  rw [answer_bind]
  cases answered : (a.run s).answer with
  | error e =>
      intro failed
      exact ha s message (answered.trans (congrArg Except.error (Except.error.inj failed)))
  | ok x => exact hf x _ message

/-- A choice of harmless actions is harmless. -/
theorem Harmless.ite {a b : Action σ StoreError α} (c : Prop) [Decidable c] (ha : Harmless a)
    (hb : Harmless b) : Harmless (if c then a else b) := by
  split
  · exact ha
  · exact hb

variable {tied : σ → σ → Prop} {check rest : Except Fault Unit} {a : Action σ StoreError α}

/-- No fault is found by a check that passes. -/
theorem not_refused_ok (message : String) :
    ¬ ∃ fault, (.ok () : Except Fault Unit) = .error fault ∧ message = fault.message := by
  rintro ⟨fault, same, -⟩
  cases same

/-- A harmless action refuses nothing. -/
theorem Harmless.refuses (h : Harmless a) : a.Refuses tied (.ok ()) :=
  fun s message => iff_of_false (fun refused => h s message refused.1) (not_refused_ok message)

/-- A check in front is made first, and what it finds is handed on. -/
theorem Refuses.after_check {δ : Type} {check : Except Fault δ} {rest : δ → Except Fault Unit}
    {f : δ → Action σ StoreError α} (here : ∀ s, tied s s) (h : ∀ x, (f x).Refuses tied (rest x)) :
    Refuses tied (check >>= rest) (.ofExcept (check.mapError StoreError.ofFault) >>= f) := by
  cases check with
  | ok x => exact h x
  | error fault =>
      intro s message
      constructor
      · rintro ⟨failed, -⟩
        exact ⟨fault, rfl, (StoreError.invalidInput.inj (Except.error.inj failed)).symm⟩
      · rintro ⟨found, same, rfl⟩
        obtain rfl := Except.error.inj same
        exact ⟨rfl, here s⟩

/-- After a single check nothing more is refused. -/
theorem Refuses.after_last_check (here : ∀ s, tied s s) (h : a.Refuses tied (.ok ())) :
    Refuses tied check (.ofExcept (check.mapError StoreError.ofFault) >>= fun _ => a) := by
  cases check with
  | ok u => exact h
  | error fault =>
      have refused : Refuses tied (.error fault >>= fun _ : Unit => .ok ())
          (.ofExcept (.mapError StoreError.ofFault (.error fault)) >>= fun _ : Unit => a) :=
        .after_check here fun _ => h
      exact refused

/-- What is made of an answer refuses nothing more. -/
theorem Refuses.before_harmless {f : α → Action σ StoreError β} (h : a.Refuses tied check)
    (harmless : ∀ x, Harmless (f x)) : (a >>= f).Refuses tied check := by
  intro s message
  rw [← h s message, answer_bind, state_bind]
  cases answered : (a.run s).answer with
  | error e =>
      rw [Except.error.injEq, Except.error.injEq]
  | ok x =>
      exact iff_of_false (fun refused => harmless x _ message refused.1) fun refused => nomatch refused.1

end Action

/-! ## What is made of other operations -/

namespace Store

section Derived

open PathAcl.Action

variable {σ : Type} {S : Store σ} {tied : σ → σ → Prop} {check : Except Fault Unit}

/-- Writing one row refuses what writing rows refuses: that none comes back is the store's own fault. -/
theorem refuses_upsertOne {storage : StorageRef} {row : Permission}
    (h : (S.upsert storage [row]).Refuses tied check) :
    (S.upsertOne storage row).Refuses tied check := by
  refine h.before_harmless fun stored => ?_
  split
  · exact harmless_of_answers (answers_pure _)
  · exact harmless_internal _

/-- So does writing one prolongation. -/
theorem refuses_prolongOne {record : Prolongation}
    (h : (S.prolong record.storageId [record]).Refuses tied check) :
    (S.prolongOne record).Refuses tied check := by
  refine h.before_harmless fun stored => ?_
  split
  · exact harmless_of_answers (answers_pure _)
  · exact harmless_internal _

/-- Looking for the nearest prolongation refuses what looking for prolongations refuses. -/
theorem refuses_nearestProlongation {id : StorageId} {path : String}
    (h : (S.prolongationsAt id (path :: Path.ancestors path)).Refuses tied check) :
    (S.nearestProlongation id path).Refuses tied check :=
  h.before_harmless fun _ => harmless_of_answers (answers_pure _)

end Derived

/-! ## What is checked -/

/-- What both stores check of the arguments of a call, in this order. -/
def Call.check : Call → Except Fault Unit
  | .register storage => Validity.checkStorageId storage.id
  | .upsert storage rows => do
    Validity.checkStorageId storage.id
    Validity.checkAll Validity.checkPermission rows
  | .upsertOne storage row => do
    Validity.checkStorageId storage.id
    Validity.checkAll Validity.checkPermission [row]
  | .delete id keys => do
    Validity.checkStorageId id
    Validity.checkAll Validity.checkKey keys
  | .deleteUnder id roots => do
    Validity.checkStorageId id
    Validity.checkAll (fun r => Validity.checkPath r.path) roots
  | .deleteUnderRoot id root => do
    Validity.checkStorageId id
    Validity.checkAll (fun r => Validity.checkPath r.path) [root]
  | .relocate id source destination => do
    Validity.checkStorageId id
    Validity.checkPath source.path
    Validity.checkPath destination.path
  | .prolong id records => do
    Validity.checkStorageId id
    Validity.checkAll (Validity.checkProlongation id) records
  | .prolongOne record => do
    Validity.checkStorageId record.storageId
    Validity.checkAll (Validity.checkProlongation record.storageId) [record]
  | .load id _ | .loadHeld id _ _ | .prolongationsAt id _ | .nearestProlongation id _
  | .prolongations id => Validity.checkStorageId id
  | .kindOf _ | .storagesHolding _ | .health => .ok ()

/-- The prolongations that a call writes. -/
def Call.prolongs : Call → List Prolongation
  | .prolong _ records => Prolongation.keepLast records
  | .prolongOne record => Prolongation.keepLast [record]
  | _ => []

/-- What the database checks besides: that the days fit their column. -/
def Call.checkDays (c : Call) : Except Fault Unit := daysColumn c.prolongs >>= fun _ => .ok ()

/-- A call is **overlong** if there is nothing else to object to and it would write a prolongation of
more than 31 bits of days. -/
def Call.Overlong (c : Call) : Prop :=
  c.check = .ok () ∧ ∃ p ∈ c.prolongs, Int32.maxValue.toInt < p.days.toNat

/-- The days do not fit if one of the records that are written has too many, and then the first of these
is named. -/
theorem Call.checkDays_eq_error {c : Call}
    (long : ∃ p ∈ c.prolongs, Int32.maxValue.toInt < p.days.toNat) :
    ∃ p ∈ c.prolongs, Int32.maxValue.toInt < p.days.toNat ∧
      c.checkDays = .error (.daysOutOfRange p.days) := by
  rw [checkDays]
  -- The column is made record by record, of whatever records the call writes.
  generalize c.prolongs = records at long ⊢
  induction records with
  | nil =>
      obtain ⟨p, hp, -⟩ := long
      exact absurd hp List.not_mem_nil
  | cons first records ih =>
      rw [daysColumn]
      by_cases fits : (first.days.toNat : Int) ≤ Int32.maxValue.toInt
      · have later : ∃ p ∈ records, Int32.maxValue.toInt < p.days.toNat := by
          obtain ⟨p, hp, more⟩ := long
          rcases List.mem_cons.1 hp with rfl | hp
          · exact absurd fits (Int.not_le.2 more)
          · exact ⟨p, hp, more⟩
        obtain ⟨p, hp, more, refused⟩ := ih later
        refine ⟨p, List.mem_cons_of_mem first hp, more, ?_⟩
        rw [if_pos fits]
        cases column : daysColumn records with
        | ok days =>
            rw [column] at refused
            cases refused
        | error fault =>
            rw [column] at refused
            exact refused
      · refine ⟨first, List.mem_cons_self, Int.not_le.1 fits, ?_⟩
        rw [if_neg fits]
        rfl

/-- A call that is not overlong is refused by what is checked of it and by nothing else. -/
theorem Call.check_bind_checkDays {c : Call} (fits : ¬ c.Overlong) :
    (c.check >>= fun _ => c.checkDays) = c.check := by
  cases checked : c.check with
  | error fault => rfl
  | ok u =>
      have short : ∀ p ∈ c.prolongs, (p.days.toNat : Int) ≤ Int32.maxValue.toInt := by
        intro p hp
        by_contra long
        exact fits ⟨checked, p, hp, Int.not_le.1 long⟩
      obtain ⟨days, column⟩ := daysColumn_eq_ok_iff.2 short
      have fine : c.checkDays = .ok () := by
        rw [checkDays, column]
        rfl
      exact fine

end Store

end PathAcl
