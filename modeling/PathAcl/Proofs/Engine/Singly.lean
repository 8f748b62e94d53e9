import PathAcl.Proofs.Engine.Accepted
import PathAcl.Proofs.Engine.Addresses
import PathAcl.Proofs.Memory.Shown

/-! # Batches and single calls
A batch of rows is written at once and one of keys is dropped at once, with repeats among them, in
whatever spelling. What is left is what the same items leave if each comes in a call of its own. -/

namespace PathAcl

open Memory

/-! ## Items -/

/-- A wish for a row **becomes** an entry if this is the wish with its path in normal form. -/
structure GrantRequest.Becomes (r : GrantRequest) (n : PermissionEntry) : Prop where
  names : r.key.Names n.key
  mask : n.mask = r.mask

namespace Request

variable {now : Instant} {r : GrantRequest} {row : Permission}

/-- A limit that lets a batch through lets a single item through. -/
theorem limit_pos_of_checkSize {limit size : Nat} (h : checkSize limit size = .ok ()) : 0 < limit :=
  Nat.lt_of_lt_of_le (checkSize_eq_ok_iff.1 h).1 (checkSize_eq_ok_iff.1 h).2

/-- A wish that is taken is taken at any time, and no more than the date depends on it. -/
theorem toRow_at (taken : toRow now r = .ok row) (later : Instant) :
    r.Becomes row.entry ∧ toRow later r = .ok (row.entry.dated later) := by
  obtain ⟨key, grants, mask, -⟩ := toRow_eq_ok_iff.1 taken
  exact ⟨⟨names_of_toKey key, mask⟩, toRow_eq_ok_iff.2 ⟨key, grants, mask, rfl⟩⟩

/-- Wishes that are taken at one time are taken each at a time of its own, as rows that show the
same. -/
theorem exists_toRow_at {ι : Type} {wish : ι → GrantRequest} {items : List ι}
    {rows : List Permission} (time : ι → Instant)
    (taken : List.Forall₂ (fun i row => toRow now (wish i) = .ok row) items rows) :
    ∃ others, List.Forall₂ (fun i row => toRow (time i) (wish i) = .ok row) items others ∧
      others.map Permission.entry = rows.map Permission.entry := by
  induction taken with
  | nil => exact ⟨[], .nil, rfl⟩
  | @cons i row _ _ first _ ih =>
      obtain ⟨others, rest, same⟩ := ih
      refine ⟨row.entry.dated (time i) :: others, .cons (toRow_at first _).2 rest, ?_⟩
      rw [List.map_cons, List.map_cons, same]
      rfl

end Request

/-- A catalog that goes by the table has what it had if the table knows what it knew. -/
theorem Catalog.kindOf_congr {m m' : Memory} (kinds : ∀ id, m'.kindOf id = m.kindOf id)
    (catalog : Catalog) (id : StorageId) : catalog.kindOf m' id = catalog.kindOf m id := by
  cases catalog with
  | ofStore => exact kinds id
  | external => rfl

namespace Engine

variable {catalog : Catalog} {maxBatch : Nat} {s : EngineState Memory} {storage : StorageRef}

section Singly

variable {σ : Type} (e : Engine σ)

/-- Writes rows one call at a time, each at a time of its own. -/
def insertSingly (storage : StorageRef) (items : List (Instant × GrantRequest)) :
    Step σ (List (List Permission)) :=
  items.mapM fun item => e.insert item.1 storage [item.2]

/-- Drops rows one call at a time. -/
def deleteSingly (storage : StorageRef) (keys : List PermissionKey) :
    Step σ (List (List PermissionKey)) :=
  keys.mapM fun key => e.delete storage [key]

end Singly

/-! ## Writing -/

/-- A table **takes** rows of a storage if its id may be one, the catalog has it under its kind and the
table does not have it under another. -/
structure Takes (catalog : Catalog) (m : Memory) (storage : StorageRef) : Prop where
  positive : 0 < storage.id
  named : catalog.kindOf m storage.id = some storage.kind
  fits : ∀ kind, m.kindOf storage.id = some kind → kind = storage.kind

/-- A table that takes rows still does so after a batch. -/
theorem Takes.after {m m' : Memory} (h : Takes catalog m storage) {rows kept : List Permission}
    (upserted : Upserted m storage rows kept m') : Takes catalog m' storage := by
  have known : m'.kindOf storage.id = some storage.kind := by rw [upserted.kinds, if_pos rfl]
  refine ⟨h.positive, ?_, fun kind found => Option.some.inj (found.symm.trans known)⟩
  cases catalog with
  | ofStore => exact known
  | external => exact h.named

section Insert

variable {now : Instant} {requests : List GrantRequest} {rows : List Permission}

/-- A batch of rows that the table takes is answered with the last row of each key, and written. -/
theorem run_insert_of_takes (sound : s.store.Sound)
    (size : Request.checkSize maxBatch requests.length = .ok ())
    (mapped : requests.mapM (Request.toRow now) = .ok rows)
    (takes : Takes catalog s.store storage) :
    let o := ((engine catalog maxBatch).insert now storage requests).run s
    o.answer = .ok (Permission.keepLast rows) ∧ o.state.store.Sound ∧
      Upserted s.store storage rows (Permission.keepLast rows) o.state.store := by
  have valid : ∀ row ∈ rows, Validity.checkPermission row = .ok () := by
    intro row hrow
    obtain ⟨r, -, taken⟩ := (mem_mapM_iff mapped).1 hrow
    exact Request.checkPermission_of_toRow taken
  have made := (@upsert_eq_ok_iff s.store _ storage rows _).2
    ⟨⟨takes.positive, valid, takes.fits⟩, rfl, rfl⟩
  obtain ⟨answer, state⟩ := run_upsert s.store storage rows
  rw [made] at answer state
  refine ⟨?_, (effect_insert now storage requests).sound sound, ?_⟩
  · rw [insert_eq_writeBatch]
    exact (run_writeBatch_of_ok size mapped takes.named answer).1
  · rw [insert_eq_writeBatch, (run_writeBatch_of_ok size mapped takes.named answer).2, state]
    exact sound.wellFormed.upserted made

/-- A batch of rows that is answered had the right size and was taken. -/
theorem takes_of_insert {written : List Permission}
    (answered : (((engine catalog maxBatch).insert now storage requests).run s).answer =
      .ok written) :
    Request.checkSize maxBatch requests.length = .ok () ∧ Takes catalog s.store storage ∧
      ∃ rows, requests.mapM (Request.toRow now) = .ok rows := by
  rw [insert_eq_writeBatch, answer_writeBatch_eq_ok_iff] at answered
  obtain ⟨size, rows, mapped, named, wrote⟩ := answered
  rw [(run_upsert s.store storage rows).1] at wrote
  obtain ⟨m', made, -⟩ := (map_fst_eq_ok_iff s.store).1 wrote
  obtain ⟨⟨positive, -, fits⟩, -⟩ := upsert_eq_ok_iff.1 made
  exact ⟨size, ⟨positive, named, fits⟩, rows, mapped⟩

/-- Single calls are answered each with its row, and bind these one after the other. -/
theorem run_insertSingly (some_item : 0 < maxBatch) {items : List (Instant × GrantRequest)}
    (taken : List.Forall₂ (fun i row => Request.toRow i.1 i.2 = .ok row) items rows)
    (sound : s.store.Sound) (takes : Takes catalog s.store storage) :
    let o := ((engine catalog maxBatch).insertSingly storage items).run s
    o.answer = .ok (rows.map fun row => [row]) ∧ o.state.store.Sound ∧
      s.store.Binds storage.id rows o.state.store := by
  unfold insertSingly
  induction taken generalizing s with
  | nil => exact ⟨rfl, sound, .nil⟩
  | @cons item row items rows first _ ih =>
      have one : Request.checkSize maxBatch [item.2].length = .ok () :=
        Request.checkSize_eq_ok_iff.2 ⟨Nat.one_pos, some_item⟩
      obtain ⟨answer, soundNext, upserted⟩ := run_insert_of_takes sound one
        (mapM_singleton_eq_ok_iff.2 ⟨row, first, rfl⟩) takes
      obtain ⟨answers, soundLast, binds⟩ := ih soundNext (takes.after upserted)
      let single (item : Instant × GrantRequest) :=
        (engine catalog maxBatch).insert item.1 storage [item.2]
      obtain ⟨all, left⟩ :=
        Action.run_mapM_cons_of_ok (f := single) (x := item) answer rfl answers
      refine ⟨all, ?_⟩
      rw [left]
      exact ⟨soundLast, (Binds.of_upserted upserted).append binds⟩

/-- What is kept of a batch: each key in order of first occurrence, with its last entry. -/
theorem keepLast_of_toRow (mapped : requests.mapM (Request.toRow now) = .ok rows) :
    ∃ normal, List.Forall₂ GrantRequest.Becomes requests normal ∧
      (Permission.keepLast rows).map Permission.key = (normal.map GrantRequest.key).eraseDups ∧
      ∀ row ∈ Permission.keepLast rows,
        normal.reverse.find? (fun n => n.key = row.key) = some row.entry := by
  refine ⟨rows.map Permission.entry, ?_, ?_, fun row hrow => ?_⟩
  · rw [List.forall₂_map_right_iff]
    exact (mapM_eq_ok_iff_forall₂.1 mapped).imp fun _ _ taken => (Request.toRow_at taken now).1
  · rw [Permission.keepLast, map_key_keepLast, List.map_map]
    rfl
  · rw [← map_entry_lastOf, mem_keepLast_iff.1 hrow]
    rfl

end Insert

/-! ## Dropping -/

section Delete

variable {keys normal dropped : List PermissionKey}

/-- A batch of keys is answered and dropped, once its checks have passed. -/
theorem run_delete_of_named (sound : s.store.Sound)
    (size : Request.checkSize maxBatch keys.length = .ok ())
    (mapped : keys.mapM Request.toKey = .ok normal)
    (named : catalog.kindOf s.store storage.id = some storage.kind) (positive : 0 < storage.id) :
    let o := ((engine catalog maxBatch).delete storage keys).run s
    ∃ dropped, o.answer = .ok dropped ∧ o.state.store.Sound ∧
      Deleted s.store storage.id normal dropped o.state.store := by
  have valid : ∀ key ∈ normal, Validity.checkKey key = .ok () := by
    intro key hkey
    obtain ⟨k, -, taken⟩ := (mem_mapM_iff mapped).1 hkey
    exact Request.checkKey_of_toKey taken
  have points := sound.wellFormed.actsOnPoints
  obtain ⟨dropped, answer⟩ := (points.delete_accepts storage.id normal).2 ⟨positive, valid⟩
  refine ⟨dropped, ?_, (effect_delete storage keys).sound sound, ?_⟩
  · rw [delete_eq_writeBatch]
    exact (run_writeBatch_of_ok size mapped named answer).1
  · rw [delete_eq_writeBatch, (run_writeBatch_of_ok size mapped named answer).2]
    exact points.delete storage.id normal dropped answer

/-- A batch of keys that is answered had passed its checks. -/
theorem named_of_delete
    (answered : (((engine catalog maxBatch).delete storage keys).run s).answer = .ok dropped) :
    Request.checkSize maxBatch keys.length = .ok () ∧
      (catalog.kindOf s.store storage.id = some storage.kind ∧ 0 < storage.id) ∧
        ∃ normal, keys.mapM Request.toKey = .ok normal := by
  rw [delete_eq_writeBatch, answer_writeBatch_eq_ok_iff] at answered
  obtain ⟨size, normal, mapped, named, wrote⟩ := answered
  rw [(run_delete s.store storage.id normal).1] at wrote
  obtain ⟨m', made, -⟩ := (map_fst_eq_ok_iff s.store).1 wrote
  obtain ⟨⟨positive, -⟩, -⟩ := delete_eq_ok_iff.1 made
  exact ⟨size, ⟨named, positive⟩, normal, mapped⟩

/-- Single calls are answered, and drop the keys one after the other. -/
theorem run_deleteSingly (some_item : 0 < maxBatch)
    (taken : List.Forall₂ (fun k key => Request.toKey k = .ok key) keys normal)
    (sound : s.store.Sound) (named : catalog.kindOf s.store storage.id = some storage.kind)
    (positive : 0 < storage.id) :
    let o := ((engine catalog maxBatch).deleteSingly storage keys).run s
    ∃ answers, o.answer = .ok answers ∧ o.state.store.Sound ∧
      Deleted s.store storage.id normal answers.flatten o.state.store := by
  unfold deleteSingly
  induction taken generalizing s with
  | nil => exact ⟨[], rfl, sound, .nil⟩
  | @cons k key keys normal first _ ih =>
      have one : Request.checkSize maxBatch [k].length = .ok () :=
        Request.checkSize_eq_ok_iff.2 ⟨Nat.one_pos, some_item⟩
      obtain ⟨dropped, answer, soundNext, deleted⟩ := run_delete_of_named sound one
        (mapM_singleton_eq_ok_iff.2 ⟨key, first, rfl⟩) named positive
      have namedNext := (catalog.kindOf_congr deleted.kinds storage.id).trans named
      obtain ⟨answers, each, soundLast, others⟩ := ih soundNext namedNext
      let single (key : PermissionKey) := (engine catalog maxBatch).delete storage [key]
      obtain ⟨all, left⟩ := Action.run_mapM_cons_of_ok (f := single) (x := k) answer rfl each
      refine ⟨dropped :: answers, all, ?_⟩
      rw [left]
      exact ⟨soundLast, deleted.append others⟩

end Delete

/-! ## Batches and their items -/

/-- Rows that were written again, with other dates, show as after the first time. -/
theorem map_entry_lastOf_append {rows again : List Permission}
    (same : again.map Permission.entry = rows.map Permission.entry) (key : PermissionKey) :
    (lastOf (rows ++ again) key).map Permission.entry = (lastOf rows key).map Permission.entry := by
  rw [map_entry_lastOf, map_entry_lastOf, List.map_append, same, List.reverse_append,
    List.find?_append, Option.or_self]

/-- **A batch does what its items do one at a time.** The items of an insertion that is answered may come
in calls of their own, at any times: the table then shows the same rows and counts as many. The answer has
each key, in normal form, once and where it first occurs, with the mask of its last occurrence, and these
rows are listed; to insert the batch again changes nothing that is shown. The keys of a deletion may come in
calls of their own too: the rows left are the same, none of them has a key that is answered, and the answers
follow each other. -/
theorem batch_equals_singles (reached : Reached catalog maxBatch s) (storage : StorageRef) :
    let e := engine catalog maxBatch
    (∀ now (items : List (Instant × GrantRequest)) written,
      let batch := (e.insert now storage (items.map Prod.snd)).run s
      let singly := (e.insertSingly storage items).run s
      batch.answer = .ok written →
        (∃ answers, singly.answer = .ok answers) ∧ batch.state.store.ShowsSame singly.state.store ∧
        (∃ normal, List.Forall₂ GrantRequest.Becomes (items.map Prod.snd) normal ∧
          written.map Permission.key = (normal.map GrantRequest.key).eraseDups ∧
          ∀ row ∈ written, normal.reverse.find? (fun n => n.key = row.key) = some row.entry) ∧
        (∀ row ∈ written, row ∈ batch.state.store.rows storage.id) ∧
        ∀ later,
          let again := (e.insert later storage (items.map Prod.snd)).run batch.state
          (∃ answer, again.answer = .ok answer) ∧ batch.state.store.ShowsSame again.state.store) ∧
    ∀ keys dropped,
      let batch := (e.delete storage keys).run s
      let singly := (e.deleteSingly storage keys).run s
      batch.answer = .ok dropped →
        (∃ answers, singly.answer = .ok answers ∧ dropped = answers.flatten) ∧
        (∀ row ∈ batch.state.store.rows storage.id, row.key ∉ dropped) ∧
        ∀ id, batch.state.store.rows id = singly.state.store.rows id ∧
          batch.state.store.rowCount id = singly.state.store.rowCount id := by
  have sound := reached.sound
  intro e
  constructor
  · intro now items written batch singly answered
    obtain ⟨size, takes, rows, mapped⟩ := takes_of_insert answered
    have some_item := Request.limit_pos_of_checkSize size
    have each := mapM_eq_ok_iff_forall₂.1 mapped
    obtain ⟨answer, soundBatch, upserted⟩ := run_insert_of_takes sound size mapped takes
    have bound := Binds.of_upserted upserted
    obtain rfl := Except.ok.inj (answered.symm.trans answer)
    obtain ⟨singles, taken, same⟩ :=
      Request.exists_toRow_at Prod.fst (List.forall₂_map_left_iff.1 each)
    obtain ⟨answers, soundSingly, boundSingly⟩ := run_insertSingly some_item taken sound takes
    refine ⟨⟨_, answers⟩, soundBatch.showsSame soundSingly (bound.shown?_eq boundSingly ?_),
      keepLast_of_toRow mapped, fun row => upserted.mem_rows soundBatch.wellFormed, fun later => ?_⟩
    · intro key
      rw [map_entry_lastOf, map_entry_lastOf, same]
    · obtain ⟨others, takenAgain, sameAgain⟩ := Request.exists_toRow_at (fun _ => later) each
      obtain ⟨answerAgain, soundAgain, upsertedAgain⟩ := run_insert_of_takes soundBatch size
        (mapM_eq_ok_iff_forall₂.2 takenAgain) (takes.after upserted)
      have boundAgain := bound.append (Binds.of_upserted upsertedAgain)
      refine ⟨⟨_, answerAgain⟩, soundBatch.showsSame soundAgain (bound.shown?_eq boundAgain ?_)⟩
      exact fun key => (map_entry_lastOf_append sameAgain key).symm
  · intro keys dropped batch singly answered
    obtain ⟨size, ⟨named, positive⟩, normal, mapped⟩ := named_of_delete answered
    have some_item := Request.limit_pos_of_checkSize size
    obtain ⟨found, answer, soundBatch, deleted⟩ :=
      run_delete_of_named sound size mapped named positive
    obtain rfl := Except.ok.inj (answered.symm.trans answer)
    obtain ⟨answers, answerEach, soundSingly, deletedSingly⟩ :=
      run_deleteSingly some_item (mapM_eq_ok_iff_forall₂.1 mapped) sound named positive
    obtain ⟨follow, same⟩ := deleted.unique deletedSingly soundBatch soundSingly
    exact ⟨⟨answers, answerEach, follow⟩,
      fun row hrow => deleted.key_not_mem hrow soundBatch.wellFormed, same⟩

/-- A folder is granted twice, in two spellings, and a file in between. -/
def respelled : List (Instant × GrantRequest) :=
  [(.epoch, ⟨"/a//", .folder, .user "u", .write⟩), (.epoch, ⟨"b", .file, .user "v", .read⟩),
    (.epoch, ⟨" a", .folder, .user "u", .read ||| .write⟩)]

/-- One at a time these grants come to the same rows, one of which was there with another mask; and the
folder is dropped but once, in either spelling. -/
theorem batch_equals_singles_respelled :
    (((engine .ofStore 10).insert .epoch ⟨1, .s3⟩ (respelled.map Prod.snd)).run
        furnished).state.store.ShowsSame
      (((engine .ofStore 10).insertSingly ⟨1, .s3⟩ respelled).run furnished).state.store ∧
    ∃ answers, (((engine .ofStore 10).deleteSingly ⟨1, .s3⟩
        [⟨"a", .folder, .user "u"⟩, ⟨"a/", .folder, .user "u"⟩]).run furnished).answer =
          .ok answers ∧ answers.flatten = [⟨"a", .folder, .user "u"⟩] := by
  have reached : Reached .ofStore 10 furnished := ⟨.default, _, rfl⟩
  obtain ⟨inserts, deletes⟩ := @batch_equals_singles .ofStore 10 furnished reached ⟨1, .s3⟩
  have inserted : (((engine .ofStore 10).insert .epoch ⟨1, .s3⟩ (respelled.map Prod.snd)).run
      furnished).answer = .ok [⟨"a", .folder, .user "u", .read ||| .write, .epoch⟩,
        ⟨"b", .file, .user "v", .read, .epoch⟩] := by
    rfl
  have dropped : (((engine .ofStore 10).delete ⟨1, .s3⟩
      [⟨"a", .folder, .user "u"⟩, ⟨"a/", .folder, .user "u"⟩]).run furnished).answer =
        .ok [⟨"a", .folder, .user "u"⟩] := by
    rfl
  obtain ⟨answers, answered, same⟩ := (deletes _ _ dropped).1
  exact ⟨(inserts .epoch respelled _ inserted).2.1, answers, answered, same.symm⟩

end Engine

end PathAcl
