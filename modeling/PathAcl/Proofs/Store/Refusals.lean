import PathAcl.Proofs.Database.Refusals
import PathAcl.Proofs.Memory.Refusals

/-! # Refused calls
Table and database go through the same checks in the same order. But the database has no room for more
than 31 bits of days, so there is one check more that it makes alone, after all others and on the records
that it would write. -/

namespace PathAcl.Store

/-- **Table and database refuse the same calls, and for the same faults, exactly as far as calls are not
overlong**: whatever is called, with whatever arguments, of whatever table and on whatever connection. An
overlong call is refused by the database alone, before anything is sent. -/
theorem refusals_agree_iff (c : Call) (m : Memory) (k : Connection) :
    let table := (Memory.store.act c).run m
    let database := (Connection.store.act c).run k
    ((∀ message, table.answer = .error (.invalidInput message) ↔
        database.answer = .error (.invalidInput message) ∧ database.state.sent = k.sent) ↔
      ¬ c.Overlong) ∧
      (c.Overlong → (∀ message, table.answer ≠ .error (.invalidInput message)) ∧
        ∃ p ∈ c.prolongs, Int32.maxValue.toInt < p.days.toNat ∧
          database.answer = .error (.invalidInput (Fault.daysOutOfRange p.days).message) ∧
          database.state.sent = k.sent) := by
  intro table database
  -- The table's states do not matter to a refusal, so it is told by the answer alone.
  have inTable : ∀ message, table.answer = .error (.invalidInput message) ↔
      ∃ fault, c.check = .error fault ∧ message = fault.message := fun message =>
    (and_iff_left trivial).symm.trans (Memory.refuses_act c m message)
  have inDatabase := Connection.refuses_act c k
  have overlong : c.Overlong → (∀ message, table.answer ≠ .error (.invalidInput message)) ∧
      ∃ p ∈ c.prolongs, Int32.maxValue.toInt < p.days.toNat ∧
        database.answer = .error (.invalidInput (Fault.daysOutOfRange p.days).message) ∧
        database.state.sent = k.sent := by
    rintro ⟨checked, long⟩
    obtain ⟨p, hp, more, refused⟩ := Call.checkDays_eq_error long
    refine ⟨fun message failed => ?_, p, hp, more, (inDatabase _).2 ⟨.daysOutOfRange p.days, ?_, rfl⟩⟩
    · obtain ⟨fault, found, -⟩ := (inTable message).1 failed
      cases checked.symm.trans found
    · rw [checked]
      exact refused
  -- An overlong call is what they differ on; for any other both refuse by the same check.
  refine ⟨⟨fun agree long => ?_, fun fits message => ?_⟩, overlong⟩
  · obtain ⟨accepted, p, -, -, refused⟩ := overlong long
    exact accepted _ ((agree _).2 refused)
  · rw [inTable, inDatabase, Call.check_bind_checkDays fits]

/-- A prolongation by one day more than fits 31 bits. -/
def prolongTooFar : Call :=
  .prolong 1 [⟨1, "a", "u", .epoch, 2147483648, .epoch⟩]

/-- **Not every call is refused by both stores or by neither**: the table takes such a prolongation, the
database refuses it. -/
theorem not_refusals_agree : ¬ ∀ (c : Call) (m : Memory) (k : Connection) (message : String),
    ((Memory.store.act c).run m).answer = .error (.invalidInput message) ↔
      ((Connection.store.act c).run k).answer = .error (.invalidInput message) ∧
        ((Connection.store.act c).run k).state.sent = k.sent := by
  intro agree
  let k := Connection.plain (.script [])
  have refused : ((Connection.store.act prolongTooFar).run k).answer =
      .error (.invalidInput (Fault.daysOutOfRange 2147483648).message) := by rfl
  have silent : ((Connection.store.act prolongTooFar).run k).state.sent = k.sent := by rfl
  have failed := (agree prolongTooFar ∅ k _).2 ⟨refused, silent⟩
  have answered : ∃ kept, ((Memory.store.act prolongTooFar).run ∅).answer = .ok kept := ⟨_, rfl⟩
  obtain ⟨kept, taken⟩ := answered
  cases taken.symm.trans failed

end PathAcl.Store
