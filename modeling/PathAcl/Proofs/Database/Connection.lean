import PathAcl.Database
import PathAcl.Proofs.Action
import PathAcl.Proofs.Store.Calls

/-! # What an operation says
What an operation says on a connection, told together with how it ends. Nothing that was said is ever
taken out of the record. -/

namespace PathAcl.Connection

open Database

variable {α β : Type}

/-- An operation **tells** `p` if `p` relates what it says on a connection to how it ends. -/
def Tells (p : List Exchange → Except StoreError α → Prop)
    (a : Action Connection StoreError α) : Prop :=
  ∀ c, ∃ said, (a.run c).state.sent = c.sent ++ said ∧ p said (a.run c).answer

namespace Tells

variable {p : List Exchange → Except StoreError α → Prop}
  {q : List Exchange → Except StoreError β → Prop} {a : Action Connection StoreError α}

/-- An operation tells whatever follows from what it tells. -/
theorem mono (h : Tells p a) {r : List Exchange → Except StoreError α → Prop}
    (le : ∀ said result, p said result → r said result) : Tells r a := by
  intro c
  obtain ⟨said, sent, told⟩ := h c
  exact ⟨said, sent, le _ _ told⟩

/-- A computation says nothing. -/
theorem ofExcept {r : Except StoreError α} (told : p [] r) : Tells p (.ofExcept r) :=
  fun c => ⟨[], (List.append_nil c.sent).symm, told⟩

/-- An answer says nothing. -/
theorem answer {x : α} (told : p [] (.ok x)) : Tells p (pure x) :=
  fun c => ⟨[], (List.append_nil c.sent).symm, told⟩

/-- Two operations in a row say what both say, one after the other. -/
theorem bind (h : Tells p a) {f : α → Action Connection StoreError β}
    (failed : ∀ said e, p said (.error e) → q said (.error e))
    (answered : ∀ x, Tells (fun later result => ∀ said, p said (.ok x) → q (said ++ later) result)
      (f x)) : Tells q (a >>= f) := by
  intro c
  obtain ⟨said, sent, told⟩ := h c
  rw [Action.state_bind, Action.answer_bind]
  cases hx : (a.run c).answer with
  | error e =>
      rw [hx] at told
      exact ⟨said, sent, failed said e told⟩
  | ok x =>
      rw [hx] at told
      obtain ⟨later, more, then_told⟩ := answered x (a.run c).state
      refine ⟨said ++ later, ?_, then_told said told⟩
      rw [← List.append_assoc, ← sent]
      exact more

/-- A computation in front says nothing. -/
theorem ofExcept_bind {r : Except StoreError α} {f : α → Action Connection StoreError β}
    (failed : ∀ e, r = .error e → q [] (.error e)) (answered : ∀ x, r = .ok x → Tells q (f x)) :
    Tells q (.ofExcept r >>= f) := by
  intro c
  cases r with
  | error e => exact ⟨[], (List.append_nil c.sent).symm, failed e rfl⟩
  | ok x => exact answered x rfl c

/-- A report in front says nothing. -/
theorem log_bind {e : Event} {f : Unit → Action Connection StoreError α} (h : Tells p (f ())) :
    Tells p (.log e >>= f) := h

/-- A choice tells what both sides tell. -/
theorem ite {b : Action Connection StoreError α} (c : Prop) [Decidable c] (ha : Tells p a)
    (hb : Tells p b) : Tells p (if c then a else b) := by
  split
  · exact ha
  · exact hb

/-- A dialogue that is held and timed says what is said in it, and ends as it does; if the peer never
answers it runs out of time. -/
theorem timedOut {operation : Operation} {limit : Connection → Span}
    {measures : QueryStatus → List Measure} {d : Dialogue α}
    (ended : ∀ peer r, (d.hold peer).result = some r → p (d.hold peer).sent r)
    (unanswered : ∀ peer span, (d.hold peer).result = none →
      p (d.hold peer).sent (.error (.timeout operation.name span))) :
    Tells p (timed operation limit measures d) := by
  intro c
  refine ⟨(d.hold c.peer).sent, ?_⟩
  have held : ((hold d).run c).answer = .ok (d.hold c.peer).result := rfl
  rw [Connection.timed, Action.state_bind, Action.answer_bind, held]
  cases h : (d.hold c.peer).result with
  | none => exact ⟨rfl, unanswered c.peer _ h⟩
  | some r =>
      cases r with
      | error e => exact ⟨rfl, ended c.peer _ h⟩
      | ok x => exact ⟨rfl, ended c.peer _ h⟩

/-- If the peer never answers it fails. -/
theorem timed {operation : Operation} {limit : Connection → Span}
    {measures : QueryStatus → List Measure} {d : Dialogue α}
    (ended : ∀ peer r, (d.hold peer).result = some r → p (d.hold peer).sent r)
    (unanswered : ∀ peer e, (d.hold peer).result = none → p (d.hold peer).sent (.error e)) :
    Tells p (timed operation limit measures d) :=
  timedOut ended fun peer _ h => unanswered peer _ h

end Tells

/-! ## The record only grows -/

/-- An operation that takes nothing out of the record. -/
abbrev Appends (a : Action Connection StoreError α) : Prop := Tells (fun _ _ => True) a

/-- Two operations in a row take nothing out. -/
theorem Appends.bind {a : Action Connection StoreError α} {f : α → Action Connection StoreError β}
    (ha : Appends a) (hf : ∀ x, Appends (f x)) : Appends (a >>= f) :=
  Tells.bind ha (fun _ _ _ => trivial) fun x => (hf x).mono fun _ _ _ _ _ => trivial

/-- Nor does a dialogue that is held and timed. -/
theorem appends_timed {operation : Operation} {limit : Connection → Span}
    {measures : QueryStatus → List Measure} {d : Dialogue α} :
    Appends (timed operation limit measures d) :=
  .timed (fun _ _ _ => trivial) fun _ _ _ => trivial

/-- Nor does a computation. -/
theorem appends_ofExcept (r : Except StoreError α) : Appends (.ofExcept r) := .ofExcept trivial

/-- Nor does a report. -/
theorem appends_log (e : Event) : Appends (.log e) :=
  fun c => ⟨[], (List.append_nil c.sent).symm, trivial⟩

/-- Nor does looking at the connection. -/
theorem appends_get : Appends .get := fun c => ⟨[], (List.append_nil c.sent).symm, trivial⟩

/-- Nor does an answer. -/
theorem appends_answer (x : α) : Appends (pure x) := .answer trivial

/-- Nor does a choice. -/
theorem Appends.ite {a b : Action Connection StoreError α} {c : Prop} [Decidable c]
    (ha : Appends a) (hb : Appends b) : Appends (if c then a else b) := Tells.ite c ha hb

/-- **No operation takes anything out of the record**; each only appends to it. -/
theorem appends_store : store.Each Appends where
  register storage := .bind (appends_ofExcept _) fun _ => appends_timed
  kindOf id := by
    refine .bind appends_timed fun text? => ?_
    split
    · exact appends_answer _
    · exact .bind (appends_ofExcept _) fun _ => appends_answer _
  upsert storage rows :=
    .bind (appends_ofExcept _) fun _ => .bind (appends_ofExcept _) fun _ =>
      .bind appends_timed fun _ => appends_answer _
  delete id keys :=
    .bind (appends_ofExcept _) fun _ => .bind (appends_ofExcept _) fun _ =>
      .ite (appends_answer _) (.bind appends_timed fun _ => appends_ofExcept _)
  load id places :=
    .bind (appends_ofExcept _) fun _ =>
      .ite (appends_answer _) (.bind appends_timed fun _ => appends_ofExcept _)
  loadHeld id places sids :=
    .bind (appends_ofExcept _) fun _ =>
      .ite (appends_answer _) (.bind appends_timed fun _ => appends_ofExcept _)
  deleteUnder id roots :=
    .bind (appends_ofExcept _) fun _ => .bind (appends_ofExcept _) fun _ =>
      .ite (appends_answer _) (.bind appends_timed fun _ =>
        .bind (appends_log _) fun _ => appends_ofExcept _)
  relocate id source destination :=
    .bind (appends_ofExcept _) fun _ => .bind (appends_ofExcept _) fun _ =>
      .bind (appends_ofExcept _) fun _ => .bind appends_timed fun _ =>
        .bind (appends_log _) fun _ => appends_answer _
  storagesHolding sids :=
    .ite (appends_answer _) (.bind appends_timed fun _ => appends_ofExcept _)
  prolong id records :=
    .bind (appends_ofExcept _) fun _ => .bind (appends_ofExcept _) fun _ =>
      .ite (appends_answer _) (.bind (appends_ofExcept _) fun _ =>
        .bind appends_timed fun _ => appends_answer _)
  prolongationsAt id paths :=
    .bind (appends_ofExcept _) fun _ =>
      .ite (appends_answer _) (.bind appends_timed fun _ => appends_ofExcept _)
  prolongations id :=
    .bind (appends_ofExcept _) fun _ => .bind appends_timed fun _ => appends_ofExcept _
  health := .bind appends_timed fun _ => .bind appends_get fun _ => appends_answer _

end PathAcl.Connection
