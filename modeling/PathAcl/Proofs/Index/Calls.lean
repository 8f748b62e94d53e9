import PathAcl.Proofs.Index.Registration

/-! # Runs of the index
The index is used by calls with any arguments, and at any time it may lose answers that nobody asked it
to forget. Whatever the run, every answer it still remembers is registered in both directories, so a
write that is noted leaves no answer that it may have changed. -/

namespace PathAcl.StorageIndex

/-- A **turn** of an index: one of its calls, or the loss of an answer. -/
inductive Turn
  | ask (question : SidSet)
  | remember (question : SidSet) (answer : SortedSet StorageRef) (asked : UInt64)
  | forget (question : SidSet)
  | noteWrite (id : StorageId) (sids : List Sid)
  /-- An answer is gone because it was too old, or because room was needed. -/
  | lose (question : SidSet)

/-- The index a turn leaves. -/
def after (x : StorageIndex) : Turn → StorageIndex
  | .ask _ => x
  | .remember question answer asked => (x.remember question answer asked).2
  | .forget question => x.forget question
  | .noteWrite id sids => (x.noteWrite id sids).2
  | .lose question => { x with answers := x.answers.erase question }

/-- The index some turns leave. -/
def afterAll (x : StorageIndex) (turns : List Turn) : StorageIndex := turns.foldl after x

variable {x : StorageIndex}

/-- **Every turn leaves the answers registered.** -/
theorem Registered.after (h : x.Registered) (turn : Turn) : (x.after turn).Registered := by
  cases turn with
  | ask question => exact h
  | remember question answer asked => exact h.remember question answer asked
  | forget question => exact h.forget question
  | noteWrite id sids => exact h.noteWrite id sids
  | lose question => exact h.lose question

/-- All that is remembered after any turns is registered. -/
theorem registered_afterAll (turns : List Turn) : (afterAll ∅ turns).Registered :=
  List.foldlRecOn turns StorageIndex.after registered_empty fun _ h turn _ => h.after turn

/-- A noted write forgets the answers to questions that name a sid it touched. -/
theorem Registered.answer?_noteWrite_of_sid (h : x.Registered) {id : StorageId} {sids : List Sid}
    {q : SidSet} {sid : Sid} (asks : sid ∈ q.members) (touched : sid ∈ sids) :
    (x.noteWrite id sids).2.answer? q = none := by
  cases found : (x.noteWrite id sids).2.answer? q with
  | none => rfl
  | some answer =>
      obtain ⟨-, -, untouched, -⟩ := h.of_noteWrite found
      exact absurd touched (untouched sid asks)

/-- It forgets the answers that name its storage. -/
theorem Registered.answer?_noteWrite_of_storage (h : x.Registered) {storage : StorageRef}
    {sids : List Sid} {q : SidSet} {answer : SortedSet StorageRef} (known : x.answer? q = some answer)
    (names : storage ∈ answer.members) : (x.noteWrite storage.id sids).2.answer? q = none := by
  cases found : (x.noteWrite storage.id sids).2.answer? q with
  | none => rfl
  | some left =>
      -- what is left was there before, so it is the answer that names the storage
      obtain ⟨old, -, -, elsewhere⟩ := h.of_noteWrite found
      obtain rfl := Option.some.inj (known.symm.trans old)
      exact absurd rfl (elsewhere storage names)

/-- An answer is remembered if no write came since its question, and only then. -/
theorem remember_fst_iff {question : SidSet} {answer : SortedSet StorageRef} {asked : UInt64} :
    (x.remember question answer asked).1 = true ↔ asked = x.writes := by
  rw [remember]
  by_cases current : x.writes = asked
  · rw [if_pos current]
    exact iff_of_true rfl current.symm
  · rw [if_neg current]
    exact iff_of_false Bool.false_ne_true (Ne.symm current)

/-- **After any turns** every remembered question is listed under each of its sids, and under each
storage that its answer names. So right after a noted write nothing is remembered for the questions that
name a touched sid, nor where the answer named the storage; and an answer is kept just if its question
was asked after the last write, and leaves none behind if it is not kept. -/
theorem finds_what_a_write_concerns (turns : List Turn) :
    (∀ q answer, (afterAll ∅ turns).answer? q = some answer →
      (∀ sid ∈ q.members, q ∈ ((afterAll ∅ turns).bySid.listed sid).members) ∧
        ∀ storage ∈ answer.members, q ∈ ((afterAll ∅ turns).byStorage.listed storage.id).members) ∧
    (∀ id sids q, (∃ sid ∈ q.members, sid ∈ sids) ∨
        (∃ answer, (afterAll ∅ turns).answer? q = some answer ∧
          ∃ storage ∈ answer.members, storage.id = id) →
      ((afterAll ∅ turns).noteWrite id sids).2.answer? q = none) ∧
    ∀ question answer asked,
      (((afterAll ∅ turns).remember question answer asked).1 = true ↔
        asked = (afterAll ∅ turns).writes) ∧
      ((afterAll ∅ turns).remember question answer asked).2.answer? question =
        if asked = (afterAll ∅ turns).writes then some answer else none := by
  have registered := registered_afterAll turns
  refine ⟨fun q answer found => ?_, fun id sids q concerned => ?_, fun question answer asked => ?_⟩
  · exact ⟨registered.bySid q answer found, registered.byStorage q answer found⟩
  · obtain ⟨sid, asks, touched⟩ | ⟨answer, known, storage, names, rfl⟩ := concerned
    · exact registered.answer?_noteWrite_of_sid asks touched
    · exact registered.answer?_noteWrite_of_storage known names
  · refine ⟨remember_fst_iff, ?_⟩
    rw [answer?_remember, if_pos rfl]
    simp only [eq_comm]

end PathAcl.StorageIndex
