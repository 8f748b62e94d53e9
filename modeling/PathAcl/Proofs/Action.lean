import Mathlib.Order.Defs.Unbundled
import PathAcl.Action

/-! # Actions in a row
The answer and the state of one action after another, told by the answer of the first; and properties
that pass from the parts of an action to the whole. -/

namespace PathAcl

namespace Action

variable {σ ε α β : Type}

/-- The answer of two actions in a row. -/
theorem answer_bind (a : Action σ ε α) (f : α → Action σ ε β) (s : σ) :
    ((a >>= f).run s).answer =
      match (a.run s).answer with
      | .error e => .error e
      | .ok x => ((f x).run (a.run s).state).answer := by
  cases h : (a.run s).answer with
  | error e => rw [run_bind_error h]
  | ok x => rw [run_bind_ok h]

/-- The state that two actions in a row leave. -/
theorem state_bind (a : Action σ ε α) (f : α → Action σ ε β) (s : σ) :
    ((a >>= f).run s).state =
      match (a.run s).answer with
      | .error _ => (a.run s).state
      | .ok x => ((f x).run (a.run s).state).state := by
  cases h : (a.run s).answer with
  | error e => rw [run_bind_error h]
  | ok x => rw [run_bind_ok h]

/-- Two actions in a row answer if the second answers after the first. -/
theorem answer_bind_eq_ok_iff {a : Action σ ε α} {f : α → Action σ ε β} {s : σ} {y : β} :
    ((a >>= f).run s).answer = .ok y ↔
      ∃ x, (a.run s).answer = .ok x ∧ ((f x).run (a.run s).state).answer = .ok y := by
  rw [answer_bind]
  cases (a.run s).answer with
  | error e => exact iff_of_false nofun fun ⟨_, h, _⟩ => nomatch h
  | ok x => exact ⟨fun h => ⟨x, rfl, h⟩, fun ⟨_, same, h⟩ => Except.ok.inj same ▸ h⟩

/-- After an answer the rest runs from the state that is left. -/
theorem run_bind_of_ok {a : Action σ ε α} {f : α → Action σ ε β} {s t : σ} {x : α}
    (answer : (a.run s).answer = .ok x) (state : (a.run s).state = t) :
    ((a >>= f).run s).answer = ((f x).run t).answer ∧
      ((a >>= f).run s).state = ((f x).run t).state := by
  rw [run_bind_ok answer, state]
  exact ⟨rfl, rfl⟩

/-- After a computation that gives an answer the rest runs from the same state. -/
theorem run_ofExcept_of_ok {r : Except ε α} {f : α → Action σ ε β} {s : σ} {x : α}
    (answer : r = .ok x) :
    ((ofExcept r >>= f).run s).answer = ((f x).run s).answer ∧
      ((ofExcept r >>= f).run s).state = ((f x).run s).state :=
  run_bind_of_ok answer rfl

/-- A computation that gives an answer may be left out. -/
theorem ofExcept_ok_bind {x : α} {f : α → Action σ ε β} : (ofExcept (.ok x) >>= f) = f x := rfl

/-- After an action that keeps the state the rest runs from there, if there is an answer. -/
theorem state_bind_of_keeps {p : σ → Prop} {a : Action σ ε α} {f : α → Action σ ε β} {s : σ}
    (keeps : (a.run s).state = s) (stay : p s)
    (go : ∀ x, (a.run s).answer = .ok x → p ((f x).run s).state) : p ((a >>= f).run s).state := by
  rw [state_bind]
  cases h : (a.run s).answer with
  | error e => exact keeps.symm ▸ stay
  | ok x =>
      rw [keeps]
      exact go x h

/-- **Actions obey the laws of a monad.** -/
instance : LawfulMonad (Action σ ε) := by
  refine LawfulMonad.mk' _ (fun a => ?_) (fun x f => rfl) fun a f g => ?_
  · funext s
    show (a >>= fun x => pure x).run s = a.run s
    cases answered : (a.run s).answer with
    | error e => rw [run_bind_error answered, ← answered]
    | ok x => rw [run_bind_ok answered, run_pure, ← answered, List.append_nil]
  · funext s
    show (a >>= f >>= g).run s = (a >>= fun x => f x >>= g).run s
    cases first : (a.run s).answer with
    | error e =>
        have both : ((a >>= f).run s).answer = .error e := by rw [run_bind_error first]
        rw [run_bind_error both, run_bind_error first, run_bind_error first]
    | ok x =>
        have both := run_bind_ok (f := f) first
        rw [run_bind_ok first]
        cases second : ((f x).run (a.run s).state).answer with
        | error e =>
            rw [second] at both
            rw [run_bind_error second, run_bind_error (congrArg Outcome.answer both), both]
        | ok y =>
            rw [second] at both
            rw [run_bind_ok second, run_bind_ok (congrArg Outcome.answer both), both,
              List.append_assoc]

/-- An action for each item of a list: after the first has answered, the others follow. -/
theorem run_mapM_cons_of_ok {f : α → Action σ ε β} {x : α} {xs : List α} {y : β} {ys : List β}
    {s t : σ} (answer : ((f x).run s).answer = .ok y) (state : ((f x).run s).state = t)
    (answers : ((xs.mapM f).run t).answer = .ok ys) :
    (((x :: xs).mapM f).run s).answer = .ok (y :: ys) ∧
      (((x :: xs).mapM f).run s).state = ((xs.mapM f).run t).state := by
  rw [List.mapM_cons, (run_bind_of_ok answer state).1, (run_bind_of_ok answer state).2,
    (run_bind_of_ok answers rfl).1, (run_bind_of_ok answers rfl).2]
  exact ⟨rfl, rfl⟩

/-! ## Properties that parts hand on -/

/-- A property of actions is **closed** if the parts of an action hand it on to the whole: it holds of
all that neither reads nor writes the state, and of actions in a row if it holds of each. -/
structure Closed (p : ∀ {ε α : Type}, Action σ ε α → Prop) : Prop where
  ofExcept : ∀ {ε α : Type} (r : Except ε α), p (.ofExcept r : Action σ ε α)
  log : ∀ {ε : Type} (e : Event), p (.log e : Action σ ε Unit)
  mapError : ∀ {ε ζ α : Type} {a : Action σ ε α} (f : ε → ζ), p a → p (a.mapError f)
  bind : ∀ {ε α β : Type} {a : Action σ ε α} {f : α → Action σ ε β}, p a → (∀ x, p (f x)) →
    p (a >>= f)

namespace Closed

variable {p : ∀ {ε α : Type}, Action σ ε α → Prop} (h : Closed p)

include h

/-- An answer has a closed property. -/
theorem answer (x : α) : p (pure x : Action σ ε α) := h.ofExcept (.ok x)

/-- So has a failure. -/
theorem fail (e : ε) : p (.fail e : Action σ ε α) := h.ofExcept (.error e)

omit h in
/-- So has a choice if both sides have it. -/
theorem ite {a b : Action σ ε α} (c : Prop) [Decidable c] (ha : p a) (hb : p b) :
    p (if c then a else b) := by
  split
  · exact ha
  · exact hb

end Closed

/-! ## Along a preorder -/

/-- An action goes **along** a relation if the relation holds from each state to the one it leaves. -/
def Along (R : σ → σ → Prop) (a : Action σ ε α) : Prop := ∀ s, R s (a.run s).state

namespace Along

variable {R : σ → σ → Prop} [IsPreorder σ R]

/-- An action that keeps the state goes along. -/
theorem of_keeps {a : Action σ ε α} (h : ∀ s, (a.run s).state = s) : Along R a := by
  intro s
  rw [h s]
  exact Std.Refl.refl s

/-- **Going along a preorder is closed.** -/
theorem closed : Closed (fun {ε α} (a : Action σ ε α) => Along R a) where
  ofExcept _ := of_keeps fun _ => rfl
  log _ := of_keeps fun _ => rfl
  mapError _ ha := ha
  bind := by
    intro ε α β a f ha hf s
    rw [state_bind]
    cases (a.run s).answer with
    | error e => exact ha s
    | ok x => exact IsTrans.trans _ _ _ (ha s) (hf x _)

end Along

/-! ## Confined actions -/

/-- An action is **confined** to one part of the state: the part alone tells what is answered and what
becomes of the part, and every other part stays. -/
structure Confined {ι π : Type} (part : σ → ι → π) (i : ι) (a : Action σ ε α) : Prop where
  answers : ∀ s t, part s i = part t i → (a.run s).answer = (a.run t).answer
  leaves : ∀ s t, part s i = part t i → part (a.run s).state i = part (a.run t).state i
  others : ∀ s j, j ≠ i → part (a.run s).state j = part s j

namespace Confined

variable {ι π : Type} {part : σ → ι → π} {i j : ι}

/-- An action that keeps the state is confined if it answers by one part. -/
theorem of_keeps {a : Action σ ε α} (keeps : ∀ s, (a.run s).state = s)
    (answers : ∀ s t, part s i = part t i → (a.run s).answer = (a.run t).answer) :
    Confined part i a := by
  refine ⟨answers, fun s t same => ?_, fun s j _ => ?_⟩
  · rw [keeps, keeps]
    exact same
  · rw [keeps]

/-- **Confinement to a part is closed.** -/
theorem closed (part : σ → ι → π) (i : ι) :
    Closed (fun {ε α} (a : Action σ ε α) => Confined part i a) where
  ofExcept _ := of_keeps (fun _ => rfl) fun _ _ _ => rfl
  log _ := of_keeps (fun _ => rfl) fun _ _ _ => rfl
  mapError f ha :=
    ⟨fun s t same => congrArg (Except.mapError f) (ha.answers s t same), ha.leaves, ha.others⟩
  bind := by
    intro ε α β a f ha hf
    refine ⟨fun s t same => ?_, fun s t same => ?_, fun s j apart => ?_⟩
    · rw [answer_bind, answer_bind, ha.answers s t same]
      cases (a.run t).answer with
      | error e => rfl
      | ok x => exact (hf x).answers _ _ (ha.leaves s t same)
    · rw [state_bind, state_bind, ha.answers s t same]
      cases (a.run t).answer with
      | error e => exact ha.leaves s t same
      | ok x => exact (hf x).leaves _ _ (ha.leaves s t same)
    · rw [state_bind]
      cases (a.run s).answer with
      | error e => exact ha.others s j apart
      | ok x => exact ((hf x).others _ j apart).trans (ha.others s j apart)

variable {a : Action σ ε α} {ζ : Type} {b : Action σ ζ β}

/-- What an action answers is not touched by what goes on in another part. -/
theorem answer_after (ha : Confined part i a) (hb : Confined part j b) (apart : i ≠ j) (s : σ) :
    (a.run (b.run s).state).answer = (a.run s).answer :=
  ha.answers _ _ (hb.others s i apart)

/-- **Actions confined to different parts commute**: either order leaves the same parts. -/
theorem part_comm (ha : Confined part i a) (hb : Confined part j b) (apart : i ≠ j) (s : σ) (k : ι) :
    part (b.run (a.run s).state).state k = part (a.run (b.run s).state).state k := by
  -- each side is what the one action that works on `k` makes of it
  by_cases hi : k = i
  · subst hi
    rw [hb.others _ k apart, ha.leaves _ s (hb.others s k apart)]
  · rw [ha.others _ k hi]
    by_cases hj : k = j
    · subst hj
      exact hb.leaves _ s (ha.others s k hi)
    · rw [hb.others _ k hj, hb.others _ k hj, ha.others _ k hi]

end Confined

/-! ## Atomic actions -/

/-- An action **never fails**. -/
def Answers (a : Action σ ε α) : Prop := ∀ s, ∃ x, (a.run s).answer = .ok x

/-- An answer never fails. -/
theorem answers_pure (x : α) : Answers (pure x : Action σ ε α) := fun _ => ⟨x, rfl⟩

/-- Nor does a report. -/
theorem answers_log (e : Event) : Answers (.log e : Action σ ε Unit) := fun _ => ⟨(), rfl⟩

/-- Actions in a row never fail if none of them does. -/
theorem Answers.bind {a : Action σ ε α} {f : α → Action σ ε β} (ha : Answers a)
    (hf : ∀ x, Answers (f x)) : Answers (a >>= f) := by
  intro s
  obtain ⟨x, answered⟩ := ha s
  rw [answer_bind, answered]
  exact hf x _

/-- An action is **atomic** in a part of the state if the part stays whenever the action fails. -/
def Atomic {ρ : Type} (part : σ → ρ) (a : Action σ ε α) : Prop :=
  ∀ s e, (a.run s).answer = .error e → part (a.run s).state = part s

namespace Atomic

variable {ρ : Type} {part : σ → ρ} {a : Action σ ε α} {f : α → Action σ ε β}

/-- What never touches the part is atomic. -/
theorem of_keeps (keeps : ∀ s, part (a.run s).state = part s) : Atomic part a :=
  fun s _ _ => keeps s

/-- An atomic action may come after one that does not touch the part. -/
theorem after_keeps (keeps : ∀ s, part (a.run s).state = part s) (hf : ∀ x, Atomic part (f x)) :
    Atomic part (a >>= f) := by
  intro s e failed
  rw [answer_bind] at failed
  rw [state_bind]
  cases answered : (a.run s).answer with
  | error _ => exact keeps s
  | ok x =>
      rw [answered] at failed
      exact (hf x _ e failed).trans (keeps s)

/-- An atomic action may come before one that does not fail after it. -/
theorem before_answer (ha : Atomic part a)
    (hf : ∀ s x, (a.run s).answer = .ok x → ∃ y, ((f x).run (a.run s).state).answer = .ok y) :
    Atomic part (a >>= f) := by
  intro s e failed
  rw [answer_bind] at failed
  rw [state_bind]
  cases answered : (a.run s).answer with
  | error e' => exact ha s e' answered
  | ok x =>
      obtain ⟨y, goes_on⟩ := hf s x answered
      rw [answered] at failed
      exact absurd (goes_on.symm.trans failed) nofun

/-- So it may before one that never fails. -/
theorem before_answers (ha : Atomic part a) (hf : ∀ x, Answers (f x)) : Atomic part (a >>= f) :=
  ha.before_answer fun _ x _ => hf x _

end Atomic

end Action

end PathAcl
