import Mathlib.Data.List.Induction
import PathAcl.Proofs.Engine.Moves
import PathAcl.Proofs.Memory.Acceptable

/-! # Whether what is stored is accepted as input
Whatever a request puts into the table has been checked, and so have the two ends of a move. The rows
that a folder takes along have not: each becomes longer by what the destination is longer than the
source, and no check stands between it and the table. So a table holds only rows that are accepted as
input until a move stretches a row beyond the limit, and what is wrong with a row then is its length
alone. -/

namespace PathAcl.Engine

open Memory
open PathAcl.Action (Along)

variable {catalog : Catalog} {maxBatch : Nat} {s : EngineState Memory} {p : Permission → Prop}

/-! ## Calls that move nothing -/

/-- The table as a store that refuses to move anything. -/
def still : Store Memory := { Memory.store with relocate := fun _ _ _ => .fail (.internal "still") }

/-- Whether a call is a move. -/
def Call.isMove : Call → Bool
  | .move .. => true
  | _ => false

/-- A call that is no move does not notice that the store moves nothing. -/
theorem afterCall_still {c : Call} (h : c.isMove = false) :
    (⟨still, catalog, maxBatch⟩ : Engine Memory).afterCall s c =
      (engine catalog maxBatch).afterCall s c := by
  cases c with
  | move => cases h
  | _ => rfl

/-- An engine keeps its table furnished. -/
def KeepsFurnished (p : Permission → Prop) (s t : EngineState Memory) : Prop :=
  Furnished p s.store → Furnished p t.store

instance : IsPreorder (EngineState Memory) (KeepsFurnished p) where
  refl _ h := h
  trans _ _ _ hst htu h := htu (hst h)

/-- A table that stays is as furnished as it was. -/
theorem keepsFurnished_of_eq (s t : EngineState Memory) (same : t.store = s.store) :
    KeepsFurnished p s t :=
  fun held => same ▸ held

/-- The table as a store that refuses to take rows in as well. -/
def mute : Store Memory := { still with upsert := fun _ _ => .fail (.internal "mute") }

/-- Operations that neither take rows in nor move them keep a table furnished. -/
theorem each_mute_keepsFurnished : mute.Each fun a => Along (KeepsFurnished p) (asking a) where
  register storage :=
    along_of_does keepsFurnished_of_eq (run_register · storage) fun _ _ _ made held =>
      held.register (register_eq_of_map made)
  delete id keys :=
    along_of_does keepsFurnished_of_eq (run_delete · id keys) fun _ _ _ made held => held.delete made
  deleteUnder id roots :=
    along_of_does keepsFurnished_of_eq (run_deleteUnder · id roots) fun _ _ _ made held =>
      held.deleteUnder made
  prolong id records :=
    along_of_does keepsFurnished_of_eq (run_prolong · id records) fun _ _ _ made held =>
      held.prolong made
  upsert _ _ := fun _ h => h
  relocate _ _ _ := fun _ h => h
  kindOf _ := fun _ h => h
  load _ _ := fun _ h => h
  loadHeld _ _ _ := fun _ h => h
  storagesHolding _ := fun _ h => h
  prolongationsAt _ _ := fun _ h => h
  prolongations _ := fun _ h => h
  health := fun _ h => h

/-- Every operation of the store but a move keeps a table furnished with accepted rows. -/
theorem each_still_keepsFurnished (fine : ∀ row, Validity.checkPermission row = .ok () → p row) :
    still.Each fun a => Along (KeepsFurnished p) (asking a) :=
  { each_mute_keepsFurnished with
    upsert := fun storage rows =>
      along_of_does keepsFurnished_of_eq (run_upsert · storage rows) fun _ _ _ made held =>
        held.upsert fine made }

/-- A call that is no move keeps a table furnished with accepted rows. -/
theorem furnished_afterCall (fine : ∀ row, Validity.checkPermission row = .ok () → p row)
    {c : Call} (h : c.isMove = false) (held : Furnished p s.store) :
    Furnished p ((engine catalog maxBatch).afterCall s c).store := by
  rw [← afterCall_still h]
  have follows : (⟨still, catalog, maxBatch⟩ : Engine Memory).Follows (KeepsFurnished p) :=
    follows_of_each keepsFurnished_of_eq (each_still_keepsFurnished fine) rfl
  exact follows.afterCall s c held

/-! ## Moves -/

/-- A move that goes through leaves rows of a kind if it makes such of those that are there. -/
theorem GoesThrough.holds {storage : StorageRef} {source destination start goal : PathRef}
    (h : GoesThrough catalog s storage source destination start goal) (sound : s.store.Sound)
    (held : s.store.Holds p)
    (carried : ∀ row ∈ s.store.rows storage.id, p (row.relocated start goal)) :
    (((engine catalog maxBatch).move storage source destination).run s).state.store.Holds p := by
  obtain ⟨-, listing, elsewhere, prolonged⟩ := h.carries sound maxBatch
  refine held.of_rows prolonged fun id row hrow => ?_
  by_cases here : id = storage.id
  · subst here
    obtain ⟨old, hold, rfl⟩ := List.mem_map.1 (listing.mem_iff.1 hrow)
    exact carried old hold
  · rw [elsewhere id here] at hrow
    exact held.rows id row hrow

/-- **A turn keeps a property that every accepted row has**, if a move that goes through does. -/
theorem holds_after (fine : ∀ row, Validity.checkPermission row = .ok () → p row)
    (sound : s.store.Sound) (held : s.store.Holds p) {turn : Turn}
    (carried : ∀ storage source destination start goal,
      turn = .call (.move storage source destination) →
      GoesThrough catalog s storage source destination start goal →
      ∀ row ∈ s.store.rows storage.id, p (row.relocated start goal)) :
    ((engine catalog maxBatch).after s turn).store.Holds p := by
  cases turn with
  | lose question => exact held
  | call c =>
      cases isMove : c.isMove with
      | false =>
          exact (furnished_afterCall fine isMove ⟨sound.wellFormed, held⟩).2
      | true =>
          cases c with
          | move storage source destination =>
              rcases @goesThrough_or_stays catalog maxBatch s sound storage source destination with
                ⟨start, goal, through⟩ | ⟨stays, -⟩
              · exact through.holds sound held (carried _ _ _ start goal rfl through)
              · have same : ((engine catalog maxBatch).after s
                    (.call (.move storage source destination))) = s := stays
                rw [same]
                exact held
          | _ => cases isMove

/-- A turn **stretches** a row if it is a move that goes through and takes the row to a path that is too
long to be stored. -/
def Stretches (catalog : Catalog) (s : EngineState Memory) (turn : Turn) : Prop :=
  ∃ storage source destination start goal, turn = .call (.move storage source destination) ∧
    GoesThrough catalog s storage source destination start goal ∧
    ∃ row ∈ s.store.rows storage.id, start.Covers row.place ∧
      Path.maxBytes + start.path.utf8ByteSize < row.path.utf8ByteSize + goal.path.utf8ByteSize

/-- Every turn keeps the rows presentable. -/
theorem presentable_after (sound : s.store.Sound) (held : s.store.Holds Permission.Presentable)
    (turn : Turn) :
    ((engine catalog maxBatch).after s turn).store.Holds Permission.Presentable := by
  refine holds_after (fun row accepted => (Permission.check_eq_ok_iff.1 accepted).1) sound held ?_
  intro storage source destination start goal _ through row hrow
  exact (held.rows storage.id row hrow).relocated through.ends.2.1

/-- A turn that stretches no row keeps a table valid. -/
theorem valid_after (sound : s.store.Sound) (valid : s.store.Valid) {turn : Turn}
    (short : ¬ Stretches catalog s turn) :
    ((engine catalog maxBatch).after s turn).store.Valid := by
  refine holds_after (fun row accepted => accepted) sound valid ?_
  intro storage source destination start goal call_eq through row hrow
  obtain ⟨presentable, fits⟩ := Permission.check_eq_ok_iff.1 (valid.rows storage.id row hrow)
  refine Permission.check_eq_ok_iff.2 ⟨presentable.relocated through.ends.2.1, ?_⟩
  by_cases covered : start.Covers row.place
  · have size := @Permission.utf8ByteSize_relocated start goal row covered
    by_contra long
    refine short ⟨storage, source, destination, start, goal, call_eq, through, row, hrow, covered, ?_⟩
    omega
  · rw [Permission.relocated, if_neg covered]
    exact fits

/-- A turn that stretches a row leaves a table that is not valid. -/
theorem not_valid_after (sound : s.store.Sound) {turn : Turn} (long : Stretches catalog s turn) :
    ¬ ((engine catalog maxBatch).after s turn).store.Valid := by
  obtain ⟨storage, source, destination, start, goal, rfl, through, row, hrow, covered, size⟩ := long
  intro valid
  obtain ⟨-, listing, -⟩ := through.carries sound maxBatch
  have listed := listing.mem_iff.2 (List.mem_map.2 ⟨row, hrow, rfl⟩)
  have fits := (Permission.check_eq_ok_iff.1 (valid.rows storage.id _ listed)).2
  have grown := @Permission.utf8ByteSize_relocated start goal row covered
  omega

/-! ## Runs -/

/-- **The table holds only what is accepted as input, all along a run, exactly if no turn of the run
stretches a row**: all rows in every state pass the check of rows, and all prolongations theirs. In any
case all prolongations pass, and no row fails but for the length of its path. -/
theorem valid_throughout_iff (settings : IndexSettings) (turns : List Turn) :
    let run := (engine catalog maxBatch).afterAll ⟨∅, settings.start⟩
    ((∀ past, past <+: turns → (run past).store.Valid) ↔
        ∀ past turn, past ++ [turn] <+: turns → ¬ Stretches catalog (run past) turn) ∧
      (run turns).store.Holds Permission.Presentable := by
  intro run
  have sound : ∀ past, (run past).store.Sound := fun past => sound_afterAll settings.start past
  have next : ∀ past turn,
      run (past ++ [turn]) = (engine catalog maxBatch).after (run past) turn := by
    intro past turn
    simp only [run, afterAll, List.foldl_append, List.foldl_cons, List.foldl_nil]
  refine ⟨⟨fun valid past turn step long => ?_, fun short past => ?_⟩, ?_⟩
  · have after := valid (past ++ [turn]) step
    rw [next] at after
    exact not_valid_after (sound past) long after
  · induction past using List.reverseRecOn with
    | nil => exact fun _ => holds_empty _
    | append_singleton past turn ih =>
        intro step
        rw [next]
        have before : past <+: turns := (List.prefix_append past [turn]).trans step
        exact valid_after (sound past) (ih before) (short past turn step)
  · induction turns using List.reverseRecOn with
    | nil => exact holds_empty _
    | append_singleton past turn ih =>
        rw [next]
        exact presentable_after (sound past) ih turn

/-! ## A long name -/

/-- A name with so many letters. -/
def nameOfLength (n : Nat) : String := String.ofList (List.replicate n 'b')

/-- It takes as many bytes as it has letters. -/
theorem utf8ByteSize_nameOfLength (n : Nat) : (nameOfLength n).utf8ByteSize = n := by
  induction n with
  | zero => rfl
  | succ n ih =>
      have letter : (String.ofList ['b']).utf8ByteSize = 1 := by decide
      rw [nameOfLength, List.replicate_add, String.ofList_append, String.utf8ByteSize_append,
        ← nameOfLength, ih]
      exact congrArg (n + ·) letter

/-- It is one segment. -/
theorem segments_nameOfLength (n : Nat) : Path.segments (nameOfLength n) = [nameOfLength n] := by
  have segment : Path.IsSegment (nameOfLength n) := by
    rw [Path.IsSegment, nameOfLength, String.toList_ofList]
    intro separated
    exact absurd (List.eq_of_mem_replicate separated) (by decide)
  have alone : Path.join [nameOfLength n] = nameOfLength n := String.intercalate_singleton
  have split := Path.segments_join (List.cons_ne_nil (nameOfLength n) [])
    (fun s hs => List.mem_singleton.1 hs ▸ segment)
  rw [alone] at split
  exact split

/-- It has no blanks around it. -/
theorem trim_nameOfLength (n : Nat) : Text.trim (List.replicate n 'b') = List.replicate n 'b' := by
  have start : Text.trimStart (List.replicate n 'b') = List.replicate n 'b' := by
    cases n with
    | zero => rfl
    | succ n => rfl
  rw [Text.trim, start, List.reverse_replicate, start, List.reverse_replicate]

/-- A name that is not too long is its own normal form. -/
theorem normalize_nameOfLength {n : Nat} (some_letter : 0 < n) (fits : n ≤ Path.maxBytes) :
    Path.normalize (nameOfLength n) = .ok (nameOfLength n) := by
  have size := utf8ByteSize_nameOfLength n
  have apart : ∀ s : String, s.toList.head? ≠ some 'b' → nameOfLength n ≠ s := by
    rintro s head rfl
    rw [nameOfLength, String.toList_ofList, List.head?_replicate,
      if_neg (Nat.ne_of_gt some_letter)] at head
    exact head rfl
  have named : Path.namedSegments (nameOfLength n) = [nameOfLength n] := by
    have full : (nameOfLength n != "") = true := bne_iff_ne.2 (apart "" nofun)
    rw [Path.namedSegments, show (nameOfLength n).toList = List.replicate n 'b' from
      String.toList_ofList, trim_nameOfLength, ← nameOfLength, segments_nameOfLength]
    exact List.filter_eq_self.2 fun s hs => List.mem_singleton.1 hs ▸ full
  have alone : Path.join [nameOfLength n] = nameOfLength n := String.intercalate_singleton
  have stored : Path.check (nameOfLength n) = .ok () := by
    refine Path.check_eq_ok_iff.2 ⟨?_, size.symm ▸ fits, fun s hs => ?_⟩
    · rw [Text.blank, nameOfLength, String.toList_ofList]
      obtain ⟨m, rfl⟩ := Nat.exists_eq_add_one_of_ne_zero (Nat.ne_of_gt some_letter)
      rfl
    · rw [segments_nameOfLength, List.mem_singleton] at hs
      rw [hs]
      have here : nameOfLength n ∈ Path.segments (nameOfLength n) := by
        rw [segments_nameOfLength]
        exact List.mem_cons_self
      exact ⟨apart "" nofun, Path.isSegment_of_mem_segments here⟩
  have straight : ([nameOfLength n].any fun s => s == "." || s == "..") = false := by
    simp [apart "." (by decide), apart ".." (by decide)]
  simp only [Path.normalize, named, alone, stored, straight]
  rfl

/-- There is a name that takes one byte less than a stored path may. -/
theorem exists_long_name : ∃ name : String, name.utf8ByteSize = 4095 ∧
    Path.normalize name = .ok name ∧ Path.segments name = [name] :=
  ⟨nameOfLength 4095, utf8ByteSize_nameOfLength 4095,
    normalize_nameOfLength (by decide) (by decide), segments_nameOfLength 4095⟩

/-- **Not every table that is reached is valid**: a folder of one letter is moved to a name of 4095
letters, and the path of the file in it is now longer than a stored path may be. -/
theorem not_valid_of_reached : ¬ ∀ (catalog : Catalog) (maxBatch : Nat) (s : EngineState Memory),
    Reached catalog maxBatch s → s.store.Valid := by
  intro always
  obtain ⟨name, size, normal, alone⟩ := exists_long_name
  have apart : ∀ s : String, s.utf8ByteSize ≠ 4095 → name ≠ s := by
    rintro s other rfl
    exact other size
  have listed : ∀ row ∈ furnished.store.rows 1,
      (Path.segments row.path).head? = some "a" ∨ (Path.segments row.path).head? = some "ab" := by
    decide
  have through : GoesThrough .ofStore furnished ⟨1, .s3⟩ (.folder "a") (.folder name)
      (.folder "a") (.folder name) := by
    refine ⟨checkMove_eq_ok_iff.2 ⟨rfl, rfl, normalRef_eq_ok_iff.2 ⟨normal, rfl⟩, ?_⟩, ?_, by decide,
      by decide, ?_⟩
    · rintro ⟨-, inside⟩
      obtain ⟨rest, some_rest, split⟩ := Path.isBeneath_iff.1 inside
      rw [show (PathRef.folder name).path = name from rfl, alone] at split
      exact some_rest (List.cons.inj split).2.symm
    · exact fun same => apart "a" (by decide) (congrArg PathRef.path same).symm
    · rintro row hrow ⟨rest, split⟩
      rw [show (PathRef.folder name).path = name from rfl, alone] at split
      have head : (Path.segments row.path).head? = some name := congrArg List.head? split.symm
      rcases listed row hrow with first | first
      · exact apart "a" (by decide) (Option.some.inj (head.symm.trans first))
      · exact apart "ab" (by decide) (Option.some.inj (head.symm.trans first))
  have long : Stretches .ofStore furnished
      (.call (.move ⟨1, .s3⟩ (.folder "a") (.folder name))) := by
    refine ⟨_, _, _, _, _, rfl, through, ⟨"a/x", .file, .user "u", .write, .epoch⟩, by decide,
      by decide, ?_⟩
    show 4096 + ("a").utf8ByteSize < ("a/x").utf8ByteSize + name.utf8ByteSize
    rw [size]
    decide
  have reached : Reached .ofStore 10 furnished := ⟨.default, _, rfl⟩
  exact not_valid_after reached.sound long (always .ofStore 10 _ (reached.after _))

end PathAcl.Engine
