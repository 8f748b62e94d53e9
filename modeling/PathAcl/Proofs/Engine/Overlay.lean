import PathAcl.Proofs.Engine.Listings
import PathAcl.Proofs.Mask

/-! # Grants laid over a listing
What a listing shows once the grants inside the storages are laid over it, told by the rows of the
table. A storage is shown if its own mask lets read or if one of the sids holds a row in it; the grants
add nothing but reading, and a file system that is not mounted keeps nothing but reading. -/

namespace PathAcl

open Memory

variable {m : Memory} {sids : List Sid} {b : ListedStorage}

/-! ## What is shown -/

/-- A storage is **held** by some sids if it is known under this kind and one of them has a row in it. -/
def Memory.HeldBy (m : Memory) (sids : List Sid) (storage : StorageRef) : Prop :=
  m.kindOf storage.id = some storage.kind ∧ ∃ row ∈ m.rows storage.id, row.sid ∈ sids

instance (m : Memory) (sids : List Sid) (storage : StorageRef) : Decidable (m.HeldBy sids storage) :=
  inferInstanceAs (Decidable (_ ∧ _))

namespace ListedStorage

/-- A storage is **visible** if its mask lets read or if it is held. -/
def Visible (m : Memory) (sids : List Sid) (b : ListedStorage) : Prop :=
  b.mask.contains .read = true ∨ m.HeldBy sids b.storage

instance (m : Memory) (sids : List Sid) (b : ListedStorage) : Decidable (b.Visible m sids) :=
  inferInstanceAs (Decidable (_ ∨ _))

/-- The mask with what the grants inside the storage add. -/
def raised (m : Memory) (sids : List Sid) (b : ListedStorage) : Mask :=
  if m.HeldBy sids b.storage then b.mask ||| .read else b.mask

/-- What is left of a mask: a file system that is not mounted keeps nothing but reading. -/
def limited (b : ListedStorage) (mask : Mask) : Mask :=
  if b.mountDisabled = true ∧ b.storage.kind = .nfs then mask &&& .read else mask

/-- The storage as it is **shown**: all is as it was but the mask, which is raised and then limited. -/
def shown (m : Memory) (sids : List Sid) (b : ListedStorage) : ListedStorage :=
  { b with mask := b.limited (b.raised m sids) }

/-- The limit takes nothing from reading. -/
theorem contains_limited (b : ListedStorage) (mask : Mask) :
    (b.limited mask).contains .read = mask.contains .read := by
  unfold limited
  split
  · rw [Bool.eq_iff_iff, Mask.contains_read_iff, Mask.contains_read_iff, Mask.bit_and, Mask.bit_read]
    simp
  · rfl

/-- It takes the same twice as once. -/
theorem limited_limited (b : ListedStorage) (mask : Mask) :
    b.limited (b.limited mask) = b.limited mask := by
  unfold limited
  split
  · exact Mask.and_read_and_read mask
  · rfl

/-- It adds nothing. -/
theorem bit_of_bit_limited {mask : Mask} {i : Nat} (set : (b.limited mask).bit i = true) :
    mask.bit i = true := by
  unfold limited at set
  split at set
  · rw [Mask.bit_and, Bool.and_eq_true] at set
    exact set.1
  · exact set

/-- The raised mask lets read exactly if the storage is visible. -/
theorem contains_raised_iff : (b.raised m sids).contains .read = true ↔ b.Visible m sids := by
  unfold raised Visible
  by_cases held : m.HeldBy sids b.storage
  · rw [if_pos held, Mask.contains_read_iff, Mask.bit_or, Mask.bit_read]
    simp [held]
  · rw [if_neg held]
    simp [held]

/-- So does the mask that is shown: the limit hides no storage and surfaces none. -/
theorem contains_shown_iff : (b.shown m sids).mask.contains .read = true ↔ b.Visible m sids := by
  have same : (b.shown m sids).mask.contains .read = (b.raised m sids).contains .read :=
    b.contains_limited _
  rw [same, contains_raised_iff]

/-- A storage is shown with no capability that it had not, but reading. -/
theorem bit_of_bit_shown {i : Nat} (set : (b.shown m sids).mask.bit i = true) :
    b.mask.bit i = true ∨ Mask.read.bit i = true := by
  have raised : (b.raised m sids).bit i = true := bit_of_bit_limited set
  unfold ListedStorage.raised at raised
  split at raised
  · rw [Mask.bit_or, Bool.or_eq_true] at raised
    exact raised
  · exact .inl raised

/-- A visible storage that is shown is shown as it is. -/
theorem shown_shown (visible : b.Visible m sids) :
    (b.shown m sids).shown m sids = b.shown m sids := by
  have lets : (b.shown m sids).mask.contains .read = true := contains_shown_iff.2 visible
  -- nothing is left to raise
  have raised : (b.shown m sids).raised m sids = (b.shown m sids).mask := by
    unfold ListedStorage.raised
    split
    · exact Mask.or_read_of_contains lets
    · rfl
  have mask : ((b.shown m sids).shown m sids).mask = (b.shown m sids).mask := by
    calc ((b.shown m sids).shown m sids).mask
      _ = b.limited ((b.shown m sids).raised m sids) := rfl
      _ = b.limited (b.shown m sids).mask := by rw [raised]
      _ = b.limited (b.limited (b.raised m sids)) := rfl
      _ = (b.shown m sids).mask := b.limited_limited _
  exact congrArg (fun mask : Mask => { b with mask }) mask

end ListedStorage

/-- A **listing** as it should be: the visible storages of a list, in its order, as they are shown. -/
def Memory.listing (m : Memory) (sids : List Sid) (base : List ListedStorage) : List ListedStorage :=
  (base.filter fun b => b.Visible m sids).map (ListedStorage.shown m sids)

/-- The listing of a listing is that listing. -/
theorem Memory.listing_listing (m : Memory) (sids : List Sid) (base : List ListedStorage) :
    m.listing sids (m.listing sids base) = m.listing sids base := by
  have visible : ∀ l ∈ m.listing sids base, l.Visible m sids ∧ l.shown m sids = l := by
    intro l hl
    obtain ⟨b, hb, rfl⟩ := List.mem_map.1 hl
    have visible : b.Visible m sids := of_decide_eq_true (List.mem_filter.1 hb).2
    have lets : (b.shown m sids).mask.contains .read = true :=
      ListedStorage.contains_shown_iff.2 visible
    exact ⟨.inl lets, ListedStorage.shown_shown visible⟩
  generalize m.listing sids base = listed at visible
  unfold listing
  rw [List.filter_eq_self.2 fun l hl => decide_eq_true (visible l hl).1]
  exact (List.map_congr_left fun l hl => (visible l hl).2).trans (List.map_id listed)

/-- The storage as if it were mounted. -/
def ListedStorage.mounted (b : ListedStorage) : ListedStorage := { b with mountDisabled := false }

/-- Mounting what a list names changes no storage of its listing. -/
theorem Memory.map_storage_listing_mounted (m : Memory) (sids : List Sid) (base : List ListedStorage) :
    (m.listing sids (base.map .mounted)).map (·.storage) =
      (m.listing sids base).map (·.storage) := by
  unfold listing
  rw [List.filter_map, List.map_map, List.map_map, List.map_map]
  rfl

namespace Engine

variable {catalog : Catalog} {maxBatch : Nat} {s : EngineState Memory}

/-! ## The answer -/

/-- If the storages that can be read are those that are held, laying them over a list gives the
listing. -/
theorem overlay_eq_listing {readable : SortedSet StorageRef}
    (held : ∀ storage, readable.contains storage = true ↔ m.HeldBy sids storage)
    (base : List ListedStorage) : ListedStorage.overlay base readable = m.listing sids base := by
  have shows : (fun b : ListedStorage => (b.surface readable).clamp) = ListedStorage.shown m sids := by
    funext b
    have surface : b.surface readable = { b with mask := b.raised m sids } := by
      unfold ListedStorage.surface ListedStorage.raised
      by_cases h : readable.contains b.storage = true
      · rw [if_pos h, if_pos ((held b.storage).1 h)]
      · rw [if_neg h, if_neg (mt (held b.storage).2 h)]
    have fileSystem : b.storage.kind.isFileSystem = true ↔ b.storage.kind = .nfs := by
      cases b.storage.kind <;> decide
    rw [surface]
    unfold ListedStorage.clamp ListedStorage.shown ListedStorage.limited
    simp only [Bool.and_eq_true, fileSystem]
    split <;> rfl
  have lets : (fun b : ListedStorage => b.mask.contains .read) ∘ ListedStorage.shown m sids =
      fun b => decide (b.Visible m sids) := by
    funext b
    rw [Bool.eq_iff_iff, decide_eq_true_iff]
    exact ListedStorage.contains_shown_iff
  -- to keep what is shown with reading is to show what is visible
  rw [ListedStorage.overlay, shows, List.filter_map, lets, Memory.listing]

/-- In a coherent state a storage can be read exactly if it is held. -/
theorem Coherent.contains_readable_iff (h : Coherent s) {readable : SortedSet StorageRef}
    (answer : (((engine catalog maxBatch).readable sids).run s).answer = .ok readable)
    (storage : StorageRef) : readable.contains storage = true ↔ s.store.HeldBy sids storage := by
  rw [SortedSet.contains_iff]
  rw [h.answer_readable] at answer
  cases answer
  split
  case isTrue none =>
    -- no sid is asked about, so none holds a row
    obtain rfl := SortedSet.members_ofList_eq_nil_iff.1 ((SortedSet.isEmpty_iff _).1 none)
    refine iff_of_false List.not_mem_nil ?_
    rintro ⟨-, row, -, hsid⟩
    exact List.not_mem_nil hsid
  case isFalse =>
    rw [holding, SortedSet.mem_members_ofList, h.sound.mem_storagesHolding]
    simp only [SortedSet.mem_members_ofList]
    rfl

/-- A reached state answers the listing. -/
theorem Coherent.answer_overlay (h : Coherent s) (sids : List Sid) (base : List ListedStorage) :
    (((engine catalog maxBatch).overlay sids base).run s).answer =
      .ok (s.store.listing sids base) := by
  have answer : (((engine catalog maxBatch).readable sids).run s).answer = _ :=
    h.answer_readable sids
  have held := h.contains_readable_iff answer
  rw [overlay, Action.answer_bind, answer]
  exact congrArg Except.ok (overlay_eq_listing held base)

/-- **What is listed.** In every reached state the storages that are listed are those of the base list
that its mask lets read or that hold a row of one of the sids, in their order, each as it is shown. So
laying the grants over once more changes nothing, mounting all file systems neither hides nor surfaces
a storage, and no capability is added but reading. -/
theorem overlay_answers_listing (reached : Reached catalog maxBatch s) (sids : List Sid)
    (base : List ListedStorage) :
    let e := engine catalog maxBatch
    let listed := s.store.listing sids base
    ((e.overlay sids base).run s).answer = .ok listed ∧
      ((e.overlay sids listed).run (e.afterCall s (.overlay sids base))).answer = .ok listed ∧
      (∃ mounted, ((e.overlay sids (base.map .mounted)).run s).answer = .ok mounted ∧
        mounted.map (·.storage) = listed.map (·.storage)) ∧
      ∀ l ∈ listed, ∃ b ∈ base, l = { b with mask := l.mask } ∧
        ∀ i, l.mask.bit i = true → b.mask.bit i = true ∨ Mask.read.bit i = true := by
  intro e listed
  have coherent : Coherent s := reached.coherent
  refine ⟨coherent.answer_overlay sids base, ?_, ?_, ?_⟩
  · -- the question may be answered from the index now, but over the same table
    have left : Coherent (e.afterCall s (.overlay sids base)) :=
      (reached.after (.call (.overlay sids base))).coherent
    have same : (e.afterCall s (.overlay sids base)).store = s.store :=
      (e.store_overlay sids base s).trans (store_readable sids s)
    rw [left.answer_overlay, same]
    exact congrArg Except.ok (s.store.listing_listing sids base)
  · exact ⟨_, coherent.answer_overlay sids _, s.store.map_storage_listing_mounted sids base⟩
  · intro l hl
    obtain ⟨b, hb, rfl⟩ := List.mem_map.1 hl
    exact ⟨b, (List.mem_filter.1 hb).1, rfl, fun i set => ListedStorage.bit_of_bit_shown set⟩

/-- A state in which one principal may write a folder of a file system. -/
def homeGranted : EngineState Memory :=
  (engine .ofStore 10).afterAll ⟨∅, IndexSettings.default.start⟩
    [.call (.register ⟨1, .s3⟩), .call (.register ⟨2, .nfs⟩),
      .call (.insert .epoch ⟨2, .nfs⟩ [⟨"home", .folder, .user "u", .write⟩])]

/-- The file system is surfaced by the grant in it, but lets do no more than read while it is not
mounted; it is not meant by another kind, and a storage that can only be written stays hidden. -/
theorem overlay_surfaces_home :
    (((engine .ofStore 10).overlay [.user "u"]
      [⟨⟨1, .s3⟩, .write, false⟩, ⟨⟨2, .nfs⟩, .write, true⟩, ⟨⟨2, .s3⟩, .write, true⟩,
        ⟨⟨3, .gcs⟩, .read ||| .write, true⟩]).run homeGranted).answer =
      .ok [⟨⟨2, .nfs⟩, .read, true⟩, ⟨⟨3, .gcs⟩, .read ||| .write, true⟩] := by
  have reached : Reached .ofStore 10 homeGranted := ⟨.default, _, rfl⟩
  have spec := (overlay_answers_listing reached [.user "u"]
    [⟨⟨1, .s3⟩, .write, false⟩, ⟨⟨2, .nfs⟩, .write, true⟩, ⟨⟨2, .s3⟩, .write, true⟩,
      ⟨⟨3, .gcs⟩, .read ||| .write, true⟩]).1
  rw [spec]
  decide

end Engine

end PathAcl
