import PathAcl.Proofs.Settings.Layers

/-! # Settings one by one
Every setting is a field of a section, with a usual value and a type of its own. Settings are read from
what sources gave just if each of them is read from the fields of its section. -/

namespace PathAcl

/-- A **setting**, by the type of its values. -/
inductive Setting : Type → Type
  | backend : Setting String
  | databaseUrl : Setting (Option String)
  | poolSize : Setting UInt32
  | connectSeconds : Setting UInt64
  | querySeconds : Setting UInt64
  | maxBatch : Setting UInt64
  | indexEnabled : Setting Bool
  | indexCapacity : Setting UInt64
  | indexSeconds : Setting UInt64
  | level : Setting String
  | json : Setting Bool

namespace Setting

variable {α : Type}

/-- The heading of its section. -/
def heading : Setting α → String
  | backend | databaseUrl | poolSize | connectSeconds | querySeconds => "storage"
  | maxBatch => "limits"
  | indexEnabled | indexCapacity | indexSeconds => "index_cache"
  | level | json => "logging"

/-- The name of its field. -/
def field : Setting α → String
  | backend => "backend"
  | databaseUrl => "database_url"
  | poolSize => "pool_size"
  | connectSeconds => "connection_timeout_secs"
  | querySeconds => "query_timeout_secs"
  | maxBatch => "max_batch_size"
  | indexEnabled => "enabled"
  | indexCapacity => "max_capacity"
  | indexSeconds => "ttl_secs"
  | level => "level"
  | json => "json"

/-- Its value among settings. -/
def of (c : Settings) : Setting α → α
  | backend => c.storage.backend
  | databaseUrl => c.storage.databaseUrl
  | poolSize => c.storage.poolSize
  | connectSeconds => c.storage.connectSeconds
  | querySeconds => c.storage.querySeconds
  | maxBatch => c.limits.maxBatch
  | indexEnabled => c.index.enabled
  | indexCapacity => c.index.capacity
  | indexSeconds => c.index.seconds
  | level => c.logging.level
  | json => c.logging.json

/-- The value it has if no source gives one. -/
def usual (s : Setting α) : α := s.of .default

variable (lib : ConfigLibrary)

/-- Its value as a source gives it; nothing if what is given does not convert. -/
def read (v : lib.Value) : Setting α → Option α
  | backend | level => lib.convert? .text v
  | databaseUrl => lib.optionalText? v
  | poolSize => lib.convert? .word32 v
  | connectSeconds | querySeconds | maxBatch | indexCapacity | indexSeconds => lib.convert? .word64 v
  | indexEnabled | json => lib.convert? .truth v

/-- The value that it is written as. -/
def write (x : α) : Setting α → lib.Value
  | backend | level => lib.write .text x
  | databaseUrl => Option.elim x lib.null (lib.write .text)
  | poolSize => lib.write .word32 x
  | connectSeconds | querySeconds | maxBatch | indexCapacity | indexSeconds => lib.write .word64 x
  | indexEnabled | json => lib.write .truth x

/-- Its value as what can be seen of it; what has parts fits no field. -/
def ofSeen (s : Setting α) : Seen lib.Value → Option α
  | .single v => s.read lib v
  | .parts => none

/-- Its value in a section; nothing if one is given that does not fit. -/
def inFields (fs : List (String × lib.Value)) (s : Setting α) : Option α :=
  lib.fieldOf fs s.field s.usual fun v => s.read lib v

/-- What a text spells for it. -/
def Spells (text : String) : Setting α → α → Prop
  | backend, x | level, x => ConfigLibrary.Spells .text text x
  | databaseUrl, x => ∃ url, ConfigLibrary.Spells .text text url ∧ x = some url
  | poolSize, x => ConfigLibrary.Spells .word32 text x
  | connectSeconds, x | querySeconds, x | maxBatch, x | indexCapacity, x | indexSeconds, x =>
    ConfigLibrary.Spells .word64 text x
  | indexEnabled, x | json, x => ConfigLibrary.Spells .truth text x

/-- Headings and fields are plain names. -/
theorem isWord_heading (s : Setting α) : SettingName.isWord s.heading := by
  cases s <;> decide +kernel

theorem isWord_field (s : Setting α) : SettingName.isWord s.field := by
  cases s <;> decide +kernel

variable {lib} (documented : lib.Documented)

include documented

/-- What a field sees of a value is all that counts. -/
theorem ofSeen_seen (s : Setting α) (v : lib.Value) : s.ofSeen lib (lib.seen v) = s.read lib v := by
  cases plain : lib.isPlain v with
  | true =>
      rw [ConfigLibrary.seen, plain]
      rfl
  | false =>
      have none {β : Type} (type : FieldType β) := documented.convert?_parts type v plain
      have absent : lib.optionalText? v = Option.none := by
        unfold ConfigLibrary.optionalText?
        split
        · rename_i null
          rw [ConfigLibrary.isPlain, null] at plain
          cases plain
        · rw [none]
          rfl
      rw [ConfigLibrary.seen_eq_parts plain]
      cases s <;> first | exact (none _).symm | exact absent.symm

theorem inFields_eq (fs : List (String × lib.Value)) (s : Setting α) :
    s.inFields lib fs =
      ((fs.lookup s.field).map lib.seen).elim (some s.usual) fun seen => s.ofSeen lib seen := by
  unfold inFields ConfigLibrary.fieldOf
  cases fs.lookup s.field with
  | none => rfl
  | some v => exact (s.ofSeen_seen documented v).symm

/-- The usual value is read back from what it is written as. -/
theorem ofSeen_write_usual (s : Setting α) :
    s.ofSeen lib (lib.seen (s.write lib s.usual)) = some s.usual := by
  rw [s.ofSeen_seen documented]
  cases s with
  | backend | level | indexEnabled | json | poolSize => exact documented.convert?_write _ _ trivial
  | databaseUrl =>
      have null : lib.optionalText? lib.null = some none := by
        rw [ConfigLibrary.optionalText?, documented.shape_null]
      exact null
  | connectSeconds | querySeconds | maxBatch | indexCapacity | indexSeconds =>
      exact documented.convert?_write FieldType.word64 _ (by decide +kernel)

/-- What a text spells for a setting is read from it. -/
theorem read_of_spells {s : Setting α} {text : String} {x : α} (h : s.Spells text x) :
    s.read lib (lib.write .text text) = some x := by
  cases s with
  | databaseUrl =>
      obtain ⟨url, spells, rfl⟩ := h
      have given : lib.optionalText? (lib.write .text text) = some (some url) := by
        rw [ConfigLibrary.optionalText?, documented.shape_write,
          documented.convert?_text .text text url spells]
        rfl
      exact given
  | backend | level | poolSize | connectSeconds | querySeconds | maxBatch | indexCapacity
  | indexSeconds | indexEnabled | json => exact documented.convert?_text _ text x h

/-- What is usual says the usual value of each setting. -/
theorem lastSaid_written (s : Setting α) :
    lib.lastSaid s.heading s.field (Settings.default.written lib) =
      some (lib.seen (s.write lib s.usual)) := by
  have said (key : String) (word : SettingName.isWord key) (es : List (String × lib.Value)) :
      lib.saying s.heading s.field (key, lib.table es) = _ :=
    ConfigLibrary.saying_table documented word s.field es
  have storage := said "storage" (by decide +kernel)
  have limits := said "limits" (by decide +kernel)
  have index := said "index_cache" (by decide +kernel)
  have logging := said "logging" (by decide +kernel)
  have lower : ∀ name ∈ ["backend", "database_url", "pool_size", "connection_timeout_secs",
      "query_timeout_secs", "max_batch_size", "enabled", "max_capacity", "ttl_secs", "level", "json"],
      lib.lowerCase name = name := by
    intro name m
    refine ConfigLibrary.lowerCase_of_isWord documented ?_
    revert name m
    decide +kernel
  simp only [List.forall_mem_cons, List.not_mem_nil, false_imp_iff, implies_true, and_true] at lower
  simp only [ConfigLibrary.lastSaid, Settings.written, List.reverse_cons, List.reverse_nil,
    List.nil_append, List.cons_append, List.findSome?_cons, storage, limits, index, logging]
  cases s <;> simp [heading, field, ConfigLibrary.under?, lower, write, usual, of]

end Setting

namespace ConfigLibrary

variable {lib : ConfigLibrary} {config : lib.Config} {c : Settings}

/-- A section with fields is read from them. -/
theorem fieldsOf_of_fields? {heading : String} {fs : List (String × lib.Value)}
    (h : lib.fields? config heading = some fs) (names : List String) (needed : Nat) :
    lib.fieldsOf config heading names needed = some fs := by
  unfold fields? at h
  unfold fieldsOf
  cases found : lib.find? config heading with
  | none =>
      rw [found] at h
      exact h
  | some v =>
      rw [found] at h
      unfold isTable entries at h
      dsimp only at h
      rw [Option.map_some]
      cases shape : lib.shape v with
      | table es =>
          rw [shape] at h
          exact h
      | null | single | list items => simp [shape] at h

section Sections

open Setting

variable {fs : List (String × lib.Value)}

theorem storeSettings?_eq_some_iff {x : StoreSettings}
    (h : lib.fields? config "storage" = some fs) :
    lib.storeSettings? config = some x ↔
      backend.inFields lib fs = some x.backend ∧
      databaseUrl.inFields lib fs = some x.databaseUrl ∧
      poolSize.inFields lib fs = some x.poolSize ∧
      connectSeconds.inFields lib fs = some x.connectSeconds ∧
      querySeconds.inFields lib fs = some x.querySeconds := by
  have opened : lib.storeSettings? config = (do
      pure ⟨← backend.inFields lib fs, ← databaseUrl.inFields lib fs, ← poolSize.inFields lib fs,
        ← connectSeconds.inFields lib fs, ← querySeconds.inFields lib fs⟩) := by
    rw [storeSettings?, fieldsOf_of_fields? h]
    rfl
  simp only [opened, Option.bind_eq_bind, Option.bind_eq_some_iff]
  constructor
  · rintro ⟨_, ha, _, hb, _, hc, _, hd, _, he, same⟩
    obtain rfl := Option.some.inj same
    exact ⟨ha, hb, hc, hd, he⟩
  · rintro ⟨ha, hb, hc, hd, he⟩
    exact ⟨_, ha, _, hb, _, hc, _, hd, _, he, rfl⟩

theorem limitSettings?_eq_some_iff {x : LimitSettings}
    (h : lib.fields? config "limits" = some fs) :
    lib.limitSettings? config = some x ↔ maxBatch.inFields lib fs = some x.maxBatch := by
  have opened : lib.limitSettings? config = (do pure ⟨← maxBatch.inFields lib fs⟩) := by
    rw [limitSettings?, fieldsOf_of_fields? h]
    rfl
  simp only [opened, Option.bind_eq_bind, Option.bind_eq_some_iff]
  constructor
  · rintro ⟨_, ha, same⟩
    obtain rfl := Option.some.inj same
    exact ha
  · intro ha
    exact ⟨_, ha, rfl⟩

theorem indexSettings?_eq_some_iff {x : IndexSettings}
    (h : lib.fields? config "index_cache" = some fs) :
    lib.indexSettings? config = some x ↔
      indexEnabled.inFields lib fs = some x.enabled ∧
      indexCapacity.inFields lib fs = some x.capacity ∧
      indexSeconds.inFields lib fs = some x.seconds := by
  have opened : lib.indexSettings? config = (do
      pure ⟨← indexEnabled.inFields lib fs, ← indexCapacity.inFields lib fs,
        ← indexSeconds.inFields lib fs⟩) := by
    rw [indexSettings?, fieldsOf_of_fields? h]
    rfl
  simp only [opened, Option.bind_eq_bind, Option.bind_eq_some_iff]
  constructor
  · rintro ⟨_, ha, _, hb, _, hc, same⟩
    obtain rfl := Option.some.inj same
    exact ⟨ha, hb, hc⟩
  · rintro ⟨ha, hb, hc⟩
    exact ⟨_, ha, _, hb, _, hc, rfl⟩

theorem logSettings?_eq_some_iff {x : LogSettings} (h : lib.fields? config "logging" = some fs) :
    lib.logSettings? config = some x ↔
      level.inFields lib fs = some x.level ∧ json.inFields lib fs = some x.json := by
  have opened : lib.logSettings? config = (do
      pure ⟨← level.inFields lib fs, ← json.inFields lib fs⟩) := by
    rw [logSettings?, fieldsOf_of_fields? h]
    rfl
  simp only [opened, Option.bind_eq_bind, Option.bind_eq_some_iff]
  constructor
  · rintro ⟨_, ha, _, hb, same⟩
    obtain rfl := Option.some.inj same
    exact ⟨ha, hb⟩
  · rintro ⟨ha, hb⟩
    exact ⟨_, ha, _, hb, rfl⟩

theorem settings?_eq_some_iff :
    lib.settings? config = some c ↔
      lib.storeSettings? config = some c.storage ∧ lib.limitSettings? config = some c.limits ∧
      lib.indexSettings? config = some c.index ∧ lib.logSettings? config = some c.logging := by
  simp only [settings?, Option.bind_eq_bind, Option.bind_eq_some_iff]
  constructor
  · rintro ⟨_, ha, _, hb, _, hc, _, hd, same⟩
    obtain rfl := Option.some.inj same
    exact ⟨ha, hb, hc, hd⟩
  · rintro ⟨ha, hb, hc, hd⟩
    exact ⟨_, ha, _, hb, _, hc, _, hd, rfl⟩

end Sections

/-- Settings that were read have the values in the fields of their sections. -/
theorem inFields_of_settings?_eq_some {α : Type} {fs : List (String × lib.Value)}
    (h : lib.settings? config = some c) (s : Setting α)
    (table : lib.fields? config s.heading = some fs) : s.inFields lib fs = some (s.of c) := by
  obtain ⟨storage, limits, index, logging⟩ := settings?_eq_some_iff.1 h
  cases s with
  | backend => exact ((storeSettings?_eq_some_iff table).1 storage).1
  | databaseUrl => exact ((storeSettings?_eq_some_iff table).1 storage).2.1
  | poolSize => exact ((storeSettings?_eq_some_iff table).1 storage).2.2.1
  | connectSeconds => exact ((storeSettings?_eq_some_iff table).1 storage).2.2.2.1
  | querySeconds => exact ((storeSettings?_eq_some_iff table).1 storage).2.2.2.2
  | maxBatch => exact (limitSettings?_eq_some_iff table).1 limits
  | indexEnabled => exact ((indexSettings?_eq_some_iff table).1 index).1
  | indexCapacity => exact ((indexSettings?_eq_some_iff table).1 index).2.1
  | indexSeconds => exact ((indexSettings?_eq_some_iff table).1 index).2.2
  | level => exact ((logSettings?_eq_some_iff table).1 logging).1
  | json => exact ((logSettings?_eq_some_iff table).1 logging).2

/-- Settings whose values are all in the fields of their sections are what is read. -/
theorem settings?_eq_some_of_inFields
    (each : ∀ {α : Type} (s : Setting α), ∃ fs, lib.fields? config s.heading = some fs ∧
      s.inFields lib fs = some (s.of c)) : lib.settings? config = some c := by
  have same {α β : Type} {s : Setting α} {t : Setting β} {fs : List (String × lib.Value)}
      (table : lib.fields? config s.heading = some fs) (heading : t.heading = s.heading) :
      t.inFields lib fs = some (t.of c) := by
    obtain ⟨fs', table', value⟩ := each t
    rw [heading, table] at table'
    cases table'
    exact value
  obtain ⟨_, storage, _⟩ := each .backend
  obtain ⟨_, limits, _⟩ := each .maxBatch
  obtain ⟨_, index, _⟩ := each .indexEnabled
  obtain ⟨_, logging, _⟩ := each .level
  exact settings?_eq_some_iff.2
    ⟨(storeSettings?_eq_some_iff storage).2
      ⟨same storage rfl, same storage rfl, same storage rfl, same storage rfl, same storage rfl⟩,
    (limitSettings?_eq_some_iff limits).2 (same limits rfl),
    (indexSettings?_eq_some_iff index).2 ⟨same index rfl, same index rfl, same index rfl⟩,
    (logSettings?_eq_some_iff logging).2 ⟨same logging rfl, same logging rfl⟩⟩

end ConfigLibrary

end PathAcl
