import PathAcl.Proofs.SortedMap
import PathAcl.StorageIndex

/-! # Registration of the index
Every answer that the index remembers is **registered**: its question is listed under each of its sids,
and under each storage that the answer names. The directories may list more than that. A write finds
through them every answer it may have changed, so what is remembered after a write was noted names
neither its storage nor a sid it touched. -/

namespace PathAcl

open Std

/-! ## Directories -/

namespace Directory

variable {κ : Type} [Ord κ] [TransOrd κ] [LawfulEqOrd κ] [DecidableEq κ]

/-- The questions listed under a key once another list is bound to some key. -/
theorem listed_insert (d : Directory κ) (k : κ) (questions : SortedSet SidSet) (j : κ) :
    listed (d.insert k questions) j = if j = k then questions else listed d j := by
  rw [listed, SortedMap.find?_insert]
  by_cases e : j = k
  · rw [if_pos e, if_pos e, Option.getD_some]
  · rw [if_neg e, if_neg e]
    rfl

/-- A question is listed under the keys it is entered under. -/
theorem mem_listed_enter (d : Directory κ) (question : SidSet) (ks : List κ) (j : κ) (q : SidSet) :
    q ∈ (listed (enter d question ks) j).members ↔
      (q = question ∧ j ∈ ks) ∨ q ∈ (listed d j).members := by
  induction ks generalizing d with
  | nil => simp [enter]
  | cons k ks ih =>
      have step : q ∈ (listed (d.insert k ((listed d k).add question)) j).members ↔
          (q = question ∧ j = k) ∨ q ∈ (listed d j).members := by
        rw [listed_insert]
        by_cases e : j = k
        · simp [e]
        · simp [e]
      rw [show enter d question (k :: ks) =
        enter (d.insert k ((listed d k).add question)) question ks from rfl, ih, step, List.mem_cons,
        and_or_left, or_assoc]
      exact or_left_comm

/-- Striking a question leaves all others listed where they are. -/
theorem mem_listed_strike (d : Directory κ) (question : SidSet) (ks : List κ) (j : κ) {q : SidSet}
    (apart : q ≠ question) :
    q ∈ (listed (strike d question ks) j).members ↔ q ∈ (listed d j).members := by
  induction ks generalizing d with
  | nil => rfl
  | cons k ks ih =>
      refine (ih (d.modify k fun questions => questions.erase question)).trans ?_
      rw [listed, listed, SortedMap.find?_modify]
      by_cases e : j = k
      · rw [if_pos e, e]
        cases d.find? k with
        | none => rfl
        | some questions =>
            rw [Option.map_some, Option.getD_some, Option.getD_some, SortedSet.mem_members_erase]
            exact and_iff_right apart
      · rw [if_neg e]

omit [TransOrd κ] in
/-- Nothing is listed under an erased key. -/
theorem listed_erase (d : Directory κ) (k j : κ) :
    listed (d.erase k) j = if j = k then ∅ else listed d j := by
  rw [listed, SortedMap.find?_erase]
  by_cases e : j = k
  · rw [if_pos e, if_pos e]
    rfl
  · rw [if_neg e, if_neg e]
    rfl

omit [TransOrd κ] in
/-- The keys erased one after the other list nothing, all others what they did. -/
theorem mem_listed_foldl_erase (ks : List κ) (d : Directory κ) (j : κ) (q : SidSet) :
    q ∈ (listed (ks.foldl SortedMap.erase d) j).members ↔ j ∉ ks ∧ q ∈ (listed d j).members := by
  induction ks generalizing d with
  | nil => exact (and_iff_right List.not_mem_nil).symm
  | cons k ks ih =>
      rw [List.foldl_cons, ih, listed_erase, List.mem_cons, not_or]
      by_cases e : j = k
      · rw [if_pos e]
        exact iff_of_false (fun both => List.not_mem_nil both.2) fun both => both.1.1 e
      · rw [if_neg e, and_iff_right e]

end Directory

namespace StorageIndex

variable {x : StorageIndex}

/-! ## What each operation remembers -/

/-- Forgetting a question leaves the answers to all others. -/
theorem answer?_forget (question q : SidSet) :
    (x.forget question).answer? q = if q = question then none else x.answer? q :=
  SortedMap.find?_erase ..

/-- After an answer is put in, or refused, the answers to all other questions are as before. -/
theorem answer?_remember (question : SidSet) (answer : SortedSet StorageRef) (asked : UInt64)
    (q : SidSet) : (x.remember question answer asked).2.answer? q =
      if q = question then if x.writes = asked then some answer else none else x.answer? q := by
  have kept : (x.answers.insert question answer).find? q =
      if q = question then some answer else x.answer? q := SortedMap.find?_insert ..
  rw [StorageIndex.remember]
  by_cases current : x.writes = asked
  · rw [if_pos current, if_pos current]
    exact kept
  · rw [if_neg current, if_neg current, answer?_forget]
    by_cases e : q = question
    · rw [if_pos e, if_pos e]
    · rw [if_neg e, if_neg e]
      exact kept.trans (if_neg e)

/-- The questions that a write concerns: those listed under its storage or under one of its sids. -/
theorem mem_concerned {id : StorageId} {sids : List Sid} {q : SidSet} :
    q ∈ (x.concerned id sids).members ↔ q ∈ (x.byStorage.listed id).members ∨
      ∃ sid ∈ sids, q ∈ (x.bySid.listed sid).members := by
  rw [concerned]
  generalize x.byStorage.listed id = questions
  induction sids generalizing questions with
  | nil => simp
  | cons sid sids ih =>
      rw [List.foldl_cons, ih, SortedSet.mem_members_union, or_assoc]
      simp only [List.mem_cons, exists_eq_or_imp]

/-- Forgetting questions leaves the answers to all others, and where these are listed. -/
theorem foldl_forget (questions : List SidSet) (x : StorageIndex) (q : SidSet) :
    ((questions.foldl forget x).answer? q = if q ∈ questions then none else x.answer? q) ∧
      (q ∉ questions → ∀ sid, q ∈ ((questions.foldl forget x).bySid.listed sid).members ↔
        q ∈ (x.bySid.listed sid).members) ∧
      (questions.foldl forget x).byStorage = x.byStorage := by
  induction questions generalizing x with
  | nil => exact ⟨(if_neg List.not_mem_nil).symm, fun _ _ => Iff.rfl, rfl⟩
  | cons question questions ih =>
      obtain ⟨answers, listed, storages⟩ := ih (x.forget question)
      refine ⟨?_, fun hq sid => ?_, storages⟩
      · rw [List.foldl_cons, answers]
        rw [show (x.forget question).answer? q = (x.answers.erase question).find? q from rfl,
          SortedMap.find?_erase]
        simp only [List.mem_cons]
        by_cases later : q ∈ questions
        · simp [later]
        · by_cases here : q = question
          · simp [here]
          · simp [later, here, answer?]
      · rw [List.mem_cons, not_or] at hq
        exact (listed hq.2 sid).trans (Directory.mem_listed_strike _ _ _ _ hq.1)

/-- A noted write forgets the answers to the questions it concerns. -/
theorem answer?_noteWrite (id : StorageId) (sids : List Sid) (q : SidSet) :
    (x.noteWrite id sids).2.answer? q =
      if q ∈ (x.concerned id sids).members then none else x.answer? q := (foldl_forget _ _ q).1

/-- Putting an answer in counts no write. -/
theorem writes_remember (question : SidSet) (answer : SortedSet StorageRef) (asked : UInt64) :
    (x.remember question answer asked).2.writes = x.writes := by
  rw [StorageIndex.remember]
  split <;> rfl

/-- A noted write is counted. -/
theorem writes_noteWrite (id : StorageId) (sids : List Sid) :
    (x.noteWrite id sids).2.writes = x.writes + 1 := by
  have kept : ∀ (questions : List SidSet) (y : StorageIndex),
      (questions.foldl forget y).writes = y.writes := by
    intro questions
    induction questions with
    | nil => exact fun y => rfl
    | cons question questions ih => exact fun y => ih (y.forget question)
  exact kept _ _

/-- What is remembered after an entry was lost was remembered before. -/
theorem answer?_of_lost {question q : SidSet} {answer : SortedSet StorageRef}
    (h : { x with answers := x.answers.erase question }.answer? q = some answer) :
    x.answer? q = some answer := by
  rw [answer?, SortedMap.find?_erase] at h
  by_cases e : q = question
  · rw [if_pos e] at h
    cases h
  · rwa [if_neg e] at h

/-! ## Registered answers -/

/-- Every remembered answer is **registered** where a write that may change it will look. -/
structure Registered (x : StorageIndex) : Prop where
  bySid : ∀ q answer, x.answer? q = some answer → ∀ sid ∈ q.members,
    q ∈ (x.bySid.listed sid).members
  byStorage : ∀ q answer, x.answer? q = some answer → ∀ storage ∈ answer.members,
    q ∈ (x.byStorage.listed storage.id).members

/-- An index that remembers nothing has registered it all. -/
theorem registered_empty : Registered ∅ := ⟨fun _ _ h => (nomatch h), fun _ _ h => (nomatch h)⟩

/-- A lost entry leaves the others registered. -/
theorem Registered.lose (h : x.Registered) (question : SidSet) :
    { x with answers := x.answers.erase question }.Registered :=
  ⟨fun q answer hq => h.bySid q answer (answer?_of_lost hq),
    fun q answer hq => h.byStorage q answer (answer?_of_lost hq)⟩

/-- Forgetting a question leaves the other answers registered: only this question is struck. -/
theorem Registered.forget (h : x.Registered) (question : SidSet) : (x.forget question).Registered := by
  have apart : ∀ {q : SidSet} {answer : SortedSet StorageRef},
      (x.forget question).answer? q = some answer → q ≠ question ∧ x.answer? q = some answer := by
    intro q answer hq
    rw [answer?_forget] at hq
    by_cases e : q = question
    · rw [if_pos e] at hq
      cases hq
    · rw [if_neg e] at hq
      exact ⟨e, hq⟩
  refine ⟨fun q answer hq sid hsid => ?_, fun q answer hq storage hs => ?_⟩
  all_goals obtain ⟨other, old⟩ := apart hq
  · exact (Directory.mem_listed_strike _ _ _ _ other).2 (h.bySid q answer old sid hsid)
  · exact h.byStorage q answer old storage hs

/-- An answer that is put in and listed, under each sid of its question and each storage that it names,
is registered with the others. -/
theorem Registered.enter (h : x.Registered) (question : SidSet) (answer : SortedSet StorageRef) :
    { x with
      answers := x.answers.insert question answer
      bySid := x.bySid.enter question question.members
      byStorage := x.byStorage.enter question (answer.members.map StorageRef.id) }.Registered := by
  refine ⟨fun q found hq sid hsid => ?_, fun q found hq storage hs => ?_⟩
  all_goals
    rw [answer?, SortedMap.find?_insert] at hq
    rw [Directory.mem_listed_enter]
    by_cases e : q = question
  · exact .inl ⟨e, e ▸ hsid⟩
  · rw [if_neg e] at hq
    exact .inr (h.bySid q found hq sid hsid)
  · rw [if_pos e] at hq
    obtain rfl := Option.some.inj hq
    exact .inl ⟨e, List.mem_map.2 ⟨storage, hs, rfl⟩⟩
  · rw [if_neg e] at hq
    exact .inr (h.byStorage q found hq storage hs)

/-- **An answer is registered as it is put in**, whatever the question, the answer and the count of
writes; one that is refused is not remembered. -/
theorem Registered.remember (h : x.Registered) (question : SidSet) (answer : SortedSet StorageRef)
    (asked : UInt64) : (x.remember question answer asked).2.Registered := by
  have kept := h.enter question answer
  rw [StorageIndex.remember]
  by_cases current : x.writes = asked
  · rw [if_pos current]
    exact kept
  · rw [if_neg current]
    exact kept.forget question

/-- **What is remembered after a write was noted** was remembered before, asks for none of the sids
the write touched, and does not name its storage. -/
theorem Registered.of_noteWrite (h : x.Registered) {id : StorageId} {sids : List Sid} {q : SidSet}
    {answer : SortedSet StorageRef} (hq : (x.noteWrite id sids).2.answer? q = some answer) :
    x.answer? q = some answer ∧ q ∉ (x.concerned id sids).members ∧
      (∀ sid ∈ q.members, sid ∉ sids) ∧ ∀ storage ∈ answer.members, storage.id ≠ id := by
  rw [answer?_noteWrite] at hq
  by_cases stale : q ∈ (x.concerned id sids).members
  · rw [if_pos stale] at hq
    cases hq
  rw [if_neg stale] at hq
  refine ⟨hq, stale, fun sid hsid touched => ?_, fun storage hs same => ?_⟩
  · exact stale (mem_concerned.2 (.inr ⟨sid, touched, h.bySid q answer hq sid hsid⟩))
  · exact stale (mem_concerned.2 (.inl (same ▸ h.byStorage q answer hq storage hs)))

/-- A noted write leaves what is still remembered registered. -/
theorem Registered.noteWrite (h : x.Registered) (id : StorageId) (sids : List Sid) :
    (x.noteWrite id sids).2.Registered := by
  refine ⟨fun q answer hq sid hsid => ?_, fun q answer hq storage hs => ?_⟩
  all_goals obtain ⟨old, fresh, untouched, elsewhere⟩ := h.of_noteWrite hq
  · refine ((foldl_forget _ _ q).2.1 fresh sid).2 ?_
    exact (Directory.mem_listed_foldl_erase ..).2
      ⟨untouched sid hsid, h.bySid q answer old sid hsid⟩
  · rw [StorageIndex.noteWrite, (foldl_forget _ _ q).2.2, Directory.listed_erase,
      if_neg (elsewhere storage hs)]
    exact h.byStorage q answer old storage hs

end StorageIndex

end PathAcl
