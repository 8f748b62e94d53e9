import PathAcl.Proofs.Engine.Acceptable
import PathAcl.Proofs.Engine.Containment
import PathAcl.Proofs.Engine.Demands
import PathAcl.Proofs.Engine.Failures
import PathAcl.Proofs.Path.NormalForm

/-! # Rows under the paths they are reported by
A caller is answered the paths of rows in the form in which they are stored, and may send them back.
What is sent is brought into normal form before the table is asked, so a row answers to the path it is
reported by only if this path is its own normal form. A run of the engine stores nothing but straight
paths, so a path can fail to be one in two ways: a blank stands at one of its ends, or a move made it
too long. -/

namespace PathAcl

/-! ## Straight rows -/

/-- A move to a straight path keeps rows straight. -/
theorem Permission.isStraight_relocated {row : Permission} {source destination : PathRef}
    (straight : Path.IsStraight row.path) (goal : Path.IsStraight destination.path) :
    Path.IsStraight (row.relocated source destination).path := by
  by_cases covered : source.Covers row.place
  · obtain ⟨rest, split⟩ := prefix_of_governs (PathRef.governs_iff.2 covered)
    rw [Permission.relocated, if_pos covered, Path.IsStraight, segments_carried split.symm]
    intro s hs
    rcases List.mem_append.1 hs with hs | hs
    · exact goal s hs
    · exact straight s (split ▸ List.mem_append_right _ hs)
  · rw [Permission.relocated, if_neg covered]
    exact straight

namespace Engine

open Memory

variable {catalog : Catalog} {maxBatch : Nat} {s : EngineState Memory} {p : Permission → Prop}

/-- Whether a call takes rows in or moves them. -/
def Call.makesRows : Call → Bool
  | .insert .. | .move .. => true
  | _ => false

/-- Any other call does not notice that the store takes no rows in and moves none. -/
theorem afterCall_mute {c : Call} (h : c.makesRows = false) :
    (⟨mute, catalog, maxBatch⟩ : Engine Memory).afterCall s c =
      (engine catalog maxBatch).afterCall s c := by
  cases c with
  | insert | move => cases h
  | _ => rfl

/-- Rows that are taken in have normal forms for paths, so they are straight. -/
theorem straight_insert (sound : s.store.Sound)
    (held : s.store.Holds fun row => Path.IsStraight row.path) (now : Instant)
    (storage : StorageRef) (requests : List GrantRequest) :
    (((engine catalog maxBatch).insert now storage requests).run s).state.store.Holds
      fun row => Path.IsStraight row.path := by
  have wellFormed := sound.wellFormed
  refine state_writeBatch
    (p := fun t : EngineState Memory => t.store.Holds fun row => Path.IsStraight row.path)
    (run_upsert s.store storage) held fun rows written m mapped made => ?_
  have left : m.WellFormed := ((Effect.insert made).sound sound).wellFormed
  have upserted := wellFormed.upserted made
  refine held.of_rows upserted.prolonged fun id row hrow => ?_
  by_cases here : id = storage.id
  · subst here
    rw [left.mem_rows_iff, upserted.bound, Option.or_eq_some_iff] at hrow
    rcases hrow with last | ⟨-, before⟩
    · have hmem : row ∈ rows := List.mem_reverse.1 (List.mem_of_find?_eq_some last)
      obtain ⟨r, -, taken⟩ := (mem_mapM_iff mapped).1 hmem
      exact Path.isStraight_of_normalize (Request.names_of_toRow taken).path
    · exact held.rows storage.id row (wellFormed.mem_rows_iff.2 before)
  · rw [upserted.others id here] at hrow
    exact held.rows id row hrow

/-- Every turn keeps the rows straight. -/
theorem straight_after (sound : s.store.Sound)
    (held : s.store.Holds fun row => Path.IsStraight row.path) (turn : Turn) :
    ((engine catalog maxBatch).after s turn).store.Holds fun row => Path.IsStraight row.path := by
  cases turn with
  | lose question => exact held
  | call c =>
      cases makes : c.makesRows with
      | false =>
          -- A store that makes no rows would be left in the same state, and it keeps any property.
          have furnished : Furnished (fun row => Path.IsStraight row.path) s.store :=
            ⟨sound.wellFormed, held⟩
          have follows : (⟨mute, catalog, maxBatch⟩ : Engine Memory).Follows
              (KeepsFurnished fun row => Path.IsStraight row.path) :=
            follows_of_each keepsFurnished_of_eq each_mute_keepsFurnished rfl
          have after := follows.afterCall s c furnished
          rw [afterCall_mute makes] at after
          exact after.2
      | true =>
          cases c with
          | insert now storage requests => exact straight_insert sound held now storage requests
          | move storage source destination =>
              rcases @goesThrough_or_stays catalog maxBatch s sound storage source destination with
                ⟨start, goal, through⟩ | ⟨stays, -⟩
              · refine through.holds sound held fun row hrow => ?_
                obtain ⟨-, -, hgoal, -⟩ := checkMove_eq_ok_iff.1 through.accepted
                exact Permission.isStraight_relocated (held.rows storage.id row hrow)
                  (Path.isStraight_of_normalize (normalRef_eq_ok_iff.1 hgoal).1)
              · have same : ((engine catalog maxBatch).after s
                    (.call (.move storage source destination))) = s := stays
                rw [same]
                exact held
          | _ => cases makes

/-- What every turn keeps holds of the tables that are reached. -/
theorem Reached.holds (h : Reached catalog maxBatch s)
    (step : ∀ (t : EngineState Memory) (turn : Turn), t.store.Sound → t.store.Holds p →
      ((engine catalog maxBatch).after t turn).store.Holds p) : s.store.Holds p := by
  obtain ⟨settings, turns, rfl⟩ := h
  induction turns using List.reverseRecOn with
  | nil => exact holds_empty p
  | append_singleton past turn ih =>
      rw [afterAll_concat]
      exact step _ turn (sound_afterAll settings.start past) ih

/-- **A stored path is its own normal form** if it is bare and not too long, and only then. -/
theorem Reached.normalize_row_iff (h : Reached catalog maxBatch s) {id : StorageId}
    {row : Permission} (hrow : row ∈ s.store.rows id) :
    Path.normalize row.path = .ok row.path ↔
      Path.IsBare row.path ∧ row.path.utf8ByteSize ≤ Path.maxBytes := by
  have straight := (h.holds fun _ turn sound held => straight_after sound held turn).rows id row hrow
  have presentable : row.Presentable :=
    (h.holds fun _ turn sound held => presentable_after sound held turn).rows id row hrow
  rw [Path.normalize_eq_self_iff, Path.check_eq_ok_iff]
  constructor
  · exact fun all => ⟨all.2.2, all.1.2.1⟩
  · exact fun both => ⟨⟨presentable.full, both.2, presentable.named⟩, straight, both.1⟩

/-! ## Batches of writes -/

section Batches

variable {α β : Type} {storage : StorageRef} {size : Except RequestError Unit}
  {items : Except RequestError β} {write : β → Action Memory StoreError α} {sids : α → List Sid}
  {event : β → α → Event} {b : β} {x : α}

/-- Writing rows asks the store once. -/
theorem insert_eq_writeBatch (now : Instant) (storage : StorageRef) (requests : List GrantRequest) :
    (engine catalog maxBatch).insert now storage requests =
      (engine catalog maxBatch).writeBatch storage (Request.checkSize maxBatch requests.length)
        (requests.mapM (Request.toRow now)) (Memory.store.upsert storage)
        (fun written => distinctSids (written.map Permission.sid))
        (fun _ written => .inserted storage.id written.length) := rfl

/-- Dropping rows asks the store once. -/
theorem delete_eq_writeBatch (storage : StorageRef) (keys : List PermissionKey) :
    (engine catalog maxBatch).delete storage keys =
      (engine catalog maxBatch).writeBatch storage (Request.checkSize maxBatch keys.length)
        (keys.mapM Request.toKey) (Memory.store.delete storage.id)
        (fun dropped => distinctSids (dropped.map PermissionKey.sid))
        (fun _ dropped => .deleted storage.id dropped.length) := rfl

/-- Once its checks have passed, a batch of writes answers what the table answers, and leaves the table
that this leaves. -/
theorem run_writeBatch_of_ok (checked : size = .ok ()) (taken : items = .ok b)
    (named : catalog.kindOf s.store storage.id = some storage.kind)
    (wrote : ((write b).run s.store).answer = .ok x) :
    let o := ((engine catalog maxBatch).writeBatch storage size items write sids event).run s
    o.answer = .ok x ∧ o.state.store = ((write b).run s.store).state := by
  obtain ⟨confirmed, kept⟩ := @run_confirm catalog maxBatch s storage
  have asked : ((onStore (write b)).run s).answer = .ok x := Validity.mapError_eq_ok_iff.2 wrote
  obtain ⟨noted, left⟩ := run_noteWrite ((onStore (write b)).run s).state storage.id (sids x)
  intro o
  simp only [o, writeBatch]
  rw [(Action.run_ofExcept_of_ok checked).1, (Action.run_ofExcept_of_ok checked).2,
    (Action.run_ofExcept_of_ok taken).1, (Action.run_ofExcept_of_ok taken).2,
    (Action.run_bind_of_ok (confirmed.2 named) kept).1,
    (Action.run_bind_of_ok (confirmed.2 named) kept).2, (Action.run_bind_of_ok asked rfl).1,
    (Action.run_bind_of_ok asked rfl).2, (Action.run_bind_of_ok noted left).1,
    (Action.run_bind_of_ok noted left).2]
  exact ⟨rfl, rfl⟩

/-- A batch of writes answers what the table answers, once its checks have passed. -/
theorem answer_writeBatch_eq_ok_iff :
    (((engine catalog maxBatch).writeBatch storage size items write sids event).run s).answer =
        .ok x ↔
      size = .ok () ∧ ∃ b, items = .ok b ∧ catalog.kindOf s.store storage.id = some storage.kind ∧
        ((write b).run s.store).answer = .ok x := by
  constructor
  · intro answered
    obtain ⟨u, checked, h⟩ := Action.answer_bind_eq_ok_iff.1 answered
    obtain ⟨b, taken, h⟩ := Action.answer_bind_eq_ok_iff.1 h
    obtain ⟨v, passed, h⟩ := Action.answer_bind_eq_ok_iff.1 h
    obtain ⟨y, wrote, -⟩ := Action.answer_bind_eq_ok_iff.1 h
    obtain ⟨confirmed, kept⟩ := @run_confirm catalog maxBatch s storage
    have named := confirmed.1 passed
    have wrote : ((onStore (write b)).run
        (((engine catalog maxBatch).confirm storage).run s).state).answer = .ok y := wrote
    rw [kept, answer_onStore, Validity.mapError_eq_ok_iff] at wrote
    -- what comes after the write does not change the answer
    obtain rfl : y = x := Except.ok.inj
      ((run_writeBatch_of_ok checked taken named wrote).1.symm.trans answered)
    exact ⟨checked, b, taken, named, wrote⟩
  · rintro ⟨checked, b, taken, named, wrote⟩
    exact (run_writeBatch_of_ok checked taken named wrote).1

end Batches

/-! ## Operations on one row -/

/-- A look-up of places answers the rows at their normal forms, once its checks have passed. -/
theorem answer_load_eq_ok_iff {storage : StorageRef} {places : List PathRef}
    {rows : List Permission} :
    (((engine catalog maxBatch).load storage places).run s).answer = .ok rows ↔
      Request.checkSize maxBatch places.length = .ok () ∧
        ∃ normal, places.mapM Request.normalRef = .ok normal ∧
          catalog.kindOf s.store storage.id = some storage.kind ∧ 0 < storage.id ∧
          rows = (SortedSet.ofList normal).members.flatMap (s.store.tree storage.id).rowsAt := by
  obtain ⟨confirmed, kept⟩ := @run_confirm catalog maxBatch s storage
  constructor
  · intro answered
    obtain ⟨u, size, answered⟩ := Action.answer_bind_eq_ok_iff.1 answered
    obtain ⟨normal, mapped, answered⟩ := Action.answer_bind_eq_ok_iff.1 answered
    obtain ⟨v, passed, answered⟩ := Action.answer_bind_eq_ok_iff.1 answered
    have passed : (((engine catalog maxBatch).confirm storage).run s).answer = .ok () := passed
    obtain ⟨found, loaded, answered⟩ := Action.answer_bind_eq_ok_iff.1 answered
    obtain rfl : found = rows := Except.ok.inj answered
    have loaded : ((onStore (Memory.store.load storage.id (SortedSet.ofList normal).members)).run
        (((engine catalog maxBatch).confirm storage).run s).state).answer = .ok found := loaded
    rw [kept, answer_onStore, Validity.mapError_eq_ok_iff] at loaded
    exact ⟨size, normal, mapped, confirmed.1 passed, load_eq_ok_iff.1 loaded⟩
  · rintro ⟨size, normal, mapped, named, found⟩
    have asked : ((onStore (Memory.store.load storage.id (SortedSet.ofList normal).members)).run
        s).answer = .ok rows := Validity.mapError_eq_ok_iff.2 (load_eq_ok_iff.2 found)
    have size : Request.checkSize (engine catalog maxBatch).maxBatch places.length = .ok () := size
    rw [load, (Action.run_ofExcept_of_ok size).1, (Action.run_ofExcept_of_ok mapped).1,
      (Action.run_bind_of_ok (confirmed.2 named) kept).1]
    exact (Action.run_bind_of_ok asked rfl).1

section Row

variable {storage : StorageRef} {row : Permission}

/-- A storage that lists a row has a positive id. -/
theorem positive_of_mem_rows (sound : s.store.Sound) (hrow : row ∈ s.store.rows storage.id) :
    0 < storage.id := by
  obtain ⟨kind, known⟩ := exists_kind_of_mem_rows hrow
  exact sound.positive storage.id kind known

/-- A row is dropped under its own key exactly if its path is its own normal form. -/
theorem delete_own_key_iff (sound : s.store.Sound) (some_item : 0 < maxBatch)
    (named : catalog.kindOf s.store storage.id = some storage.kind)
    (hrow : row ∈ s.store.rows storage.id) (sid : Validity.checkSid row.sid = .ok ()) :
    (((engine catalog maxBatch).delete storage [row.key]).run s).answer = .ok [row.key] ↔
      Path.normalize row.path = .ok row.path := by
  have wellFormed := sound.wellFormed
  have points := wellFormed.actsOnPoints
  rw [delete_eq_writeBatch, answer_writeBatch_eq_ok_iff]
  constructor
  · rintro ⟨-, keys, mapped, -, dropped⟩
    obtain ⟨key, taken, rfl⟩ := mapM_singleton_eq_ok_iff.1 mapped
    -- Only a key that was given is answered, so the row's own key was given.
    have answered := (points.delete storage.id [key] [row.key] dropped).answered
    have given : row.key ∈ [key] := by
      have listed : row.key ∈ [row.key] := List.mem_cons_self
      rw [answered, List.mem_eraseDups] at listed
      exact (List.mem_filter.1 listed).1
    obtain rfl := List.mem_singleton.1 given
    exact (Request.names_of_toKey taken).path
  · intro normal
    have taken : Request.toKey row.key = .ok row.key :=
      Request.toKey_eq_ok_iff.2 ⟨⟨normal, rfl, rfl⟩, sid⟩
    have stored : Validity.checkKey row.key = .ok () := Request.checkKey_of_toKey taken
    refine ⟨Request.checkSize_eq_ok_iff.2 ⟨Nat.one_pos, some_item⟩, [row.key],
      mapM_singleton_eq_ok_iff.2 ⟨row.key, taken, rfl⟩, named, ?_⟩
    obtain ⟨dropped, answered⟩ := (points.delete_accepts storage.id [row.key]).2
      ⟨positive_of_mem_rows sound hrow, fun key hkey => List.mem_singleton.1 hkey ▸ stored⟩
    have listed : (s.store.row? storage.id row.key).isSome = true := by
      rw [wellFormed.mem_rows_iff.1 hrow]
      rfl
    have all := (points.delete storage.id [row.key] dropped answered).answered
    rw [List.filter_singleton, listed] at all
    rw [answered, all]
    rfl

/-- A place is taken as it is exactly if its path is its own normal form. -/
theorem normalRef_self_iff {place : PathRef} :
    Request.normalRef place = .ok place ↔ Path.normalize place.path = .ok place.path :=
  normalRef_eq_ok_iff.trans (and_iff_left rfl)

/-- A row is found at its own place exactly if its path is its own normal form. -/
theorem load_own_place_iff (sound : s.store.Sound) (some_item : 0 < maxBatch)
    (named : catalog.kindOf s.store storage.id = some storage.kind)
    (hrow : row ∈ s.store.rows storage.id) :
    (∃ rows, (((engine catalog maxBatch).load storage [row.place]).run s).answer = .ok rows ∧
        row ∈ rows) ↔
      Path.normalize row.path = .ok row.path := by
  have wellFormed : (s.store.tree storage.id).WellFormed := (sound.tree storage.id).wellFormed
  refine Iff.trans ?_ (@normalRef_self_iff row.place)
  constructor
  · rintro ⟨rows, answered, hmem⟩
    obtain ⟨-, normal, mapped, -, -, rfl⟩ := answer_load_eq_ok_iff.1 answered
    obtain ⟨place, taken, rfl⟩ := mapM_singleton_eq_ok_iff.1 mapped
    obtain ⟨looked, asked, held⟩ := List.mem_flatMap.1 hmem
    -- The one place that was looked at is the place of the row.
    have only : looked = place :=
      List.mem_singleton.1 ((SortedSet.mem_members_ofList _ _).1 asked)
    have own : row.place = place := (wellFormed.mem_rowsAt.1 held).2.trans only
    rw [← own] at taken
    exact taken
  · intro taken
    have size : Request.checkSize maxBatch [row.place].length = .ok () :=
      Request.checkSize_eq_ok_iff.2 ⟨Nat.one_pos, some_item⟩
    have mapped : [row.place].mapM Request.normalRef = .ok [row.place] :=
      mapM_singleton_eq_ok_iff.2 ⟨row.place, taken, rfl⟩
    refine ⟨(SortedSet.ofList [row.place]).members.flatMap (s.store.tree storage.id).rowsAt, ?_, ?_⟩
    · exact answer_load_eq_ok_iff.2
        ⟨size, [row.place], mapped, named, positive_of_mem_rows sound hrow, rfl⟩
    · refine List.mem_flatMap.2 ⟨row.place, ?_, wellFormed.mem_rowsAt.2 ⟨?_, rfl⟩⟩
      · exact (SortedSet.mem_members_ofList _ _).2 List.mem_cons_self
      · exact rows_eq s.store storage.id ▸ hrow

/-- A move **starts** at a place if it is the place itself that goes wherever it may go. -/
def StartsAt (place : PathRef) : Prop :=
  ∀ destination goal, Request.normalRef destination = .ok goal → place.type = destination.type →
    ¬ (place.type = .folder ∧ Path.isBeneath goal.path place.path = true) →
      checkMove place destination = .ok (place, goal)

/-- A move starts at a place exactly if the path there is its own normal form. -/
theorem startsAt_iff {place : PathRef} :
    StartsAt place ↔ Path.normalize place.path = .ok place.path := by
  rw [← normalRef_self_iff]
  constructor
  · intro starts
    -- Nothing of one segment is beneath another path, so every place may move to it.
    have outside : ¬ Path.isBeneath "a" place.path = true := by
      intro beneath
      obtain ⟨rest, some, split⟩ := Path.isBeneath_iff.1 beneath
      have count := congrArg List.length split
      rw [List.length_append] at count
      have one : (Path.segments "a").length = 1 := by decide
      have front := List.length_pos_iff.2 (Path.segments_ne_nil place.path)
      have back := List.length_pos_iff.2 some
      omega
    have accepted := starts ⟨"a", place.type⟩ ⟨"a", place.type⟩
      (normalRef_self_iff.2 (show Path.normalize "a" = .ok "a" from rfl)) rfl
      fun both => outside both.2
    exact (checkMove_eq_ok_iff.1 accepted).2.1
  · intro taken destination goal hgoal type outside
    exact checkMove_eq_ok_iff.2 ⟨type, taken, hgoal, outside⟩

/-- The row of a sid at a place decides there: no row that reaches the place has a longer path. -/
theorem decidedMask_own (sound : s.store.Sound) (hrow : row ∈ s.store.rows storage.id) :
    decidedMask (s.store.rows storage.id) row.place [row.sid] = row.mask := by
  have reaches : row.place.reaches row.place = true := PathRef.reaches_iff.2 (.inl rfl)
  have decides : decidingRow (s.store.rows storage.id) row.place row.sid = some row := by
    cases found : decidingRow (s.store.rows storage.id) row.place row.sid with
    | none => exact absurd reaches (not_reaches_of_decidingRow_eq_none found hrow rfl)
    | some other =>
        obtain ⟨⟨hother, -, otherReaches⟩, longer⟩ := of_decidingRow_eq_some found
        have notLonger : other.path.utf8ByteSize ≤ row.path.utf8ByteSize := by
          rcases PathRef.reaches_iff.1 otherReaches with here | ⟨-, above⟩
          · exact Nat.le_of_eq (congrArg (fun r : PathRef => r.path.utf8ByteSize) here)
          · exact Nat.le_of_lt
              (Path.utf8ByteSize_lt_of_isBeneath (Path.isBeneath_iff_mem_above.2 above))
        rcases longer row hrow rfl reaches with same | shorter
        · rw [sound.eq_of_key hother hrow same.symm]
        · exact absurd shorter (Nat.not_lt.2 notLonger)
  have alone : Mask.none ||| row.mask = row.mask := Mask.ext_bit fun i => by
    rw [Mask.bit_or, Mask.bit_none, Bool.false_or]
  rw [decidedMask, (List.nodup_singleton row.sid).dedup, List.foldl_cons, List.foldl_nil, decidingMask,
    decides]
  exact alone

end Row

/-- **A row answers to the path it is reported by exactly if this path is bare and not too long**: then,
and only then, the path drops the row, finds it and lets it be moved, and then it resolves to what the
row grants. For a normal form is its own normal form only if it is bare. -/
theorem answers_to_reported_path_iff (some_item : 0 < maxBatch) :
    (∀ text path, Path.normalize text = .ok path →
      (Path.normalize path = .ok path ↔ Path.IsBare path)) ∧
    ∀ s, Reached catalog maxBatch s → ∀ storage : StorageRef,
      catalog.kindOf s.store storage.id = some storage.kind → ∀ row ∈ s.store.rows storage.id,
        let e := engine catalog maxBatch
        let fit := Path.IsBare row.path ∧ row.path.utf8ByteSize ≤ Path.maxBytes
        (((e.delete storage [row.key]).run s).answer = .ok [row.key] ↔ fit) ∧
          ((∃ rows, ((e.load storage [row.place]).run s).answer = .ok rows ∧ row ∈ rows) ↔ fit) ∧
          (StartsAt row.place ↔ fit) ∧
          (fit → ((e.resolve storage.id row.place [row.sid]).run s).answer = .ok row.mask) := by
  refine ⟨fun text path normal => Path.normalize_normal_iff normal, ?_⟩
  intro s reached storage named row hrow e fit
  have sound := reached.sound
  have presentable : row.Presentable := (reached.holds fun _ turn sound held =>
    presentable_after sound held turn).rows storage.id row hrow
  have normal : Path.normalize row.path = .ok row.path ↔ fit := reached.normalize_row_iff hrow
  refine ⟨(delete_own_key_iff sound some_item named hrow presentable.sid).trans normal,
    (load_own_place_iff sound some_item named hrow).trans normal, startsAt_iff.trans normal, ?_⟩
  intro fits
  have taken : Request.normalRef row.place = .ok row.place := normalRef_self_iff.2 (normal.2 fits)
  rw [answer_resolve sound (positive_of_mem_rows sound hrow) taken, decidedMask_own sound hrow]

/-- Two files are granted: one with a blank behind its first separator, and one without. -/
def strayed : EngineState Memory :=
  (engine .ofStore 10).afterAll ⟨∅, IndexSettings.default.start⟩
    [.call (.register ⟨1, .s3⟩),
      .call (.insert .epoch ⟨1, .s3⟩ [⟨"/ a", .file, .user "u", .read⟩,
        ⟨"/b", .file, .user "u", .write⟩])]

/-- The second row is dropped under the path it is reported by, the first is not. -/
theorem strayed_row_is_not_dropped :
    (((engine .ofStore 10).delete ⟨1, .s3⟩ [⟨"b", .file, .user "u"⟩]).run strayed).answer =
        .ok [⟨"b", .file, .user "u"⟩] ∧
      (((engine .ofStore 10).delete ⟨1, .s3⟩ [⟨" a", .file, .user "u"⟩]).run strayed).answer ≠
        .ok [⟨" a", .file, .user "u"⟩] := by
  have reached : Reached .ofStore 10 strayed := ⟨.default, _, rfl⟩
  have answers := (@answers_to_reported_path_iff .ofStore 10 (by decide)).2 strayed reached ⟨1, .s3⟩
    (by decide)
  have bare := (answers ⟨"b", .file, .user "u", .write, .epoch⟩ (by decide)).1
  have stray := (answers ⟨" a", .file, .user "u", .read, .epoch⟩ (by decide)).1
  exact ⟨bare.2 (by decide), fun dropped => absurd (stray.1 dropped).1 (by decide)⟩

/-- **A normal form need not be its own normal form**: the blank that a separator hid is cut off when
the normal form is taken again. -/
theorem not_normalize_idempotent :
    ¬ ∀ text path, Path.normalize text = .ok path → Path.normalize path = .ok path := by
  intro always
  have once : Path.normalize "/ a" = .ok " a" := rfl
  have twice : Path.normalize " a" = .ok "a" := rfl
  have same : "a" = " a" := Except.ok.inj (twice.symm.trans (always "/ a" " a" once))
  exact absurd same (by decide)

end Engine

end PathAcl
