import Mathlib.Data.List.Nodup
import PathAcl.Proofs.Settings.Fields
import PathAcl.Proofs.Settings.Reader

/-! # Where the value of a setting comes from
A setting has the value of the variable that names it, else the value in the document, else its
usual value. A value that does not convert is never passed over: no settings are loaded then. This holds
with every library of configurations that does what it is documented to do. -/

namespace PathAcl

/-! ## Sources -/

namespace Setting

variable {α : Type} (lib : ConfigLibrary)

/-- Whether a variable is spelled for the setting, in whatever case. -/
def isSpelled (s : Setting α) (v : String) : Bool :=
  lib.lowerCase v = "pathgrant_" ++ s.heading ++ "__" ++ s.field ∨
    lib.lowerCase v = "pathgrant_" ++ s.heading ++ "." ++ s.field

/-- The text of the variable that is spelled for it. -/
def inEnvironment? (s : Setting α) (environment : List (String × String)) : Option String :=
  (environment.find? fun v => s.isSpelled lib v.1).map (·.2)

/-- What one entry of a document gives for it, if the entry gives its section. -/
def inSection? (s : Setting α) (e : String × lib.Value) : Option lib.Value :=
  if lib.lowerCase e.1 = s.heading then lib.under? s.field (lib.entries e.2) else none

/-- The last value that a document gives for it. -/
def inDocument? (s : Setting α) (es : List (String × lib.Value)) : Option lib.Value :=
  es.reverse.findSome? (s.inSection? lib)

/-- Its **effective** value: that of its variable, else that in the document, else the usual one.
There is none if the source that counts gives something that does not convert. -/
def effective (s : Setting α) (es : List (String × lib.Value)) (environment : List (String × String)) :
    Option α :=
  match s.inEnvironment? lib environment, s.inDocument? lib es with
  | some text, _ => s.read lib (lib.write .text text)
  | none, some v => s.read lib v
  | none, none => some s.usual

section Documented

variable {lib} (documented : lib.Documented) {environment : List (String × String)}
  {es : List (String × lib.Value)}

include documented

/-! ### Variables -/

/-- A variable has the key of a setting just if it is spelled for it. -/
theorem engineKey?_eq_iff (s : Setting α) (v : String) :
    lib.engineKey? v = some (s.heading ++ "." ++ s.field) ↔ s.isSpelled lib v := by
  have ascii : ("PATHGRANT" ++ "_").toList.all fun c => c.toNat < 128 := by decide +kernel
  have lead : lib.lowerCase ("PATHGRANT" ++ "_") = "pathgrant_" := by
    rw [documented.lowerCase_eq _ fun c m => of_decide_eq_true (List.all_eq_true.1 ascii c m)]
    decide +kernel
  rw [ConfigLibrary.engineKey?, ConfigLibrary.variableKey?, lead, isSpelled, decide_eq_true_iff]
  constructor
  · intro key
    have whole : '.' ∉ s.heading.toList := by cases s <;> decide +kernel
    have whole' : '.' ∉ s.field.toList := by cases s <;> decide +kernel
    exact SettingName.eq_of_keyBehind?_eq key whole whole'
  · rintro (spelled | spelled)
    · rw [spelled]
      cases s <;> decide +kernel
    · rw [spelled]
      cases s <;> decide +kernel

/-- Among variables with keys of their own the one that is spelled for a setting is found. -/
theorem inEnvironment?_eq_some {s : Setting α}
    (keys : (environment.filterMap fun v => lib.engineKey? v.1).Nodup) {v : String × String}
    (m : v ∈ environment) (spelled : s.isSpelled lib v.1) :
    s.inEnvironment? lib environment = some v.2 := by
  rw [List.Nodup, List.pairwise_filterMap] at keys
  unfold inEnvironment?
  induction keys with
  | nil => cases m
  | @cons first rest apart _ ih =>
      rw [List.find?_cons]
      by_cases it : s.isSpelled lib first.1
      · rw [it]
        obtain rfl | later := List.mem_cons.1 m
        · rfl
        · -- The first would have the key of a later one.
          have key := (s.engineKey?_eq_iff documented _).2 it
          have key' := (s.engineKey?_eq_iff documented _).2 spelled
          exact absurd rfl (apart v later _ key _ key')
      · rw [Bool.not_eq_true] at it
        rw [it]
        obtain rfl | later := List.mem_cons.1 m
        · rw [spelled] at it
          cases it
        · exact ih later

/-- The key of a setting is read as its name, and no other key of a variable is. -/
theorem path_eq_iff (s : Setting α) {v key : String} (it : lib.engineKey? v = some key) :
    lib.path key = ⟨s.heading, [.field s.field]⟩ ↔ s.isSpelled lib v := by
  have lower :=
    SettingName.inLowerCase_of_keyBehind?_eq_some (documented.inLowerCase_lowerCase v) it
  rw [documented.path_eq_field_iff key s.heading s.field s.isWord_heading s.isWord_field lower,
    ← s.engineKey?_eq_iff documented, it, Option.some.injEq]

/-- What variables say of a setting is the text of its own, or one of them names something below
it. -/
theorem lastSaid_ofEnvironment (s : Setting α)
    (keys : (environment.filterMap fun v => lib.engineKey? v.1).Nodup) :
    lib.lastSaid s.heading s.field (Settings.ofEnvironment lib environment) =
        (s.inEnvironment? lib environment).map (fun text => .single (lib.write .text text)) ∨
      (∃ v ∈ environment, ∃ key, lib.engineKey? v.1 = some key ∧ ∃ rest, rest ≠ [] ∧
          lib.path key = ⟨s.heading, .field s.field :: rest⟩) ∧
        lib.lastSaid s.heading s.field (Settings.ofEnvironment lib environment) = some .parts := by
  cases last : lib.lastSaid s.heading s.field (Settings.ofEnvironment lib environment) with
  | some given =>
      obtain ⟨v, m, key, it, path, rfl⟩ | ⟨below, rfl⟩ :=
        ConfigLibrary.lastSaid_ofEnvironment documented keys last
      · rw [inEnvironment?_eq_some documented keys m ((s.path_eq_iff documented it).1 path)]
        exact .inl rfl
      · exact .inr ⟨below, rfl⟩
  | none =>
      -- The variable of the setting would have said something.
      have unnamed : s.inEnvironment? lib environment = none := by
        unfold inEnvironment?
        rw [Option.map_eq_none_iff, List.find?_eq_none]
        intro v m spelled
        have key := (s.engineKey?_eq_iff documented _).2 spelled
        have path := (s.path_eq_iff documented key).2 spelled
        have here := (documented.mem_environment_iff _ _ _ _ keys _).2 ⟨v, m, _, key, rfl⟩
        have silent := List.findSome?_eq_none_iff.1 last _ (List.mem_reverse.2 here)
        simp [ConfigLibrary.saying, path] at silent
      rw [unnamed]
      exact .inl rfl

/-! ### Documents -/

/-- What a section of a document says of a setting is what it gives for it, or its heading leads to
something below the setting. -/
theorem saying_section (s : Setting α) {e : String × lib.Value} (given : lib.isSection e.2) :
    lib.saying s.heading s.field e = (s.inSection? lib e).map lib.seen ∨
      (∃ rest, lib.path e.1 = ⟨s.heading, .field s.field :: rest⟩) ∧
        lib.saying s.heading s.field e = some .parts := by
  have parts := ConfigLibrary.seen_eq_parts
    (ConfigLibrary.isPlain_of_isTable (ConfigLibrary.isTable_of_isSection given))
  have whole := documented.path_eq_heading_iff e.1 s.heading s.isWord_heading
  rw [ConfigLibrary.saying, inSection?]
  generalize lib.path e.1 = name at whole ⊢
  obtain ⟨heading', steps⟩ := name
  by_cases here : heading' = s.heading
  · subst here
    rw [if_pos rfl]
    cases steps with
    | nil =>
        rw [if_pos (whole.1 rfl)]
        exact .inl rfl
    | cons step rest =>
        -- A heading with a step below it is no plain name.
        have other : lib.lowerCase e.1 ≠ s.heading := by
          intro same
          cases whole.2 same
        rw [if_neg other]
        cases step with
        | item i => exact .inl rfl
        | field name =>
            by_cases it : name = s.field
            · subst it
              refine .inr ⟨⟨rest, rfl⟩, ?_⟩
              cases rest <;> simp [parts]
            · refine .inl ?_
              cases rest <;> simp [it]
  · rw [if_neg here, if_neg fun same => here (SettingName.mk.inj (whole.2 same)).1]
    exact .inl rfl

/-- What a document says of a setting is the last value that it gives for it, or one of its headings
leads to something below the setting. -/
theorem lastSaid_document (s : Setting α) (sections : ∀ e ∈ es, lib.isSection e.2) :
    lib.lastSaid s.heading s.field es = (s.inDocument? lib es).map lib.seen ∨
      (∃ e ∈ es, ∃ rest, lib.path e.1 = ⟨s.heading, .field s.field :: rest⟩) ∧
        lib.lastSaid s.heading s.field es = some .parts := by
  rw [ConfigLibrary.lastSaid, inDocument?]
  have back e : e ∈ es ↔ e ∈ es.reverse := List.mem_reverse.symm
  simp only [back] at sections ⊢
  generalize es.reverse = es at sections ⊢
  induction es with
  | nil => exact .inl rfl
  | cons e es ih =>
      obtain ⟨given, sections⟩ := List.forall_mem_cons.1 sections
      simp only [List.findSome?_cons]
      obtain said | ⟨⟨rest, below⟩, said⟩ := s.saying_section documented given
      · rw [said]
        cases s.inSection? lib e with
        | some v => exact .inl rfl
        | none =>
            obtain told | ⟨⟨e', m, below⟩, last⟩ := ih sections
            · exact .inl told
            · exact .inr ⟨⟨e', .tail _ m, below⟩, last⟩
      · rw [said]
        exact .inr ⟨⟨e, .head _, rest, below⟩, rfl⟩

end Documented

end Setting

/-! ## Sections -/

namespace Settings

variable (lib : ConfigLibrary) {heading : String} {es : List (String × lib.Value)}
  {environment : List (String × String)}

/-- Sources give a section **field by field** if none gives it as a whole, or for its items. -/
structure Fieldwise (heading : String) (es : List (String × lib.Value))
    (environment : List (String × String)) : Prop where
  headings : ∀ e ∈ es, (lib.path e.1).heading = heading → ¬ (lib.path e.1).isOfItem
  names : ∀ v ∈ environment, ∀ key ∈ lib.engineKey? v.1, (lib.path key).heading = heading →
    (lib.path key).isOfField

/-- Sources give a section **plainly** if they name nothing of it but the section in the document
and fields in the environment. -/
structure Plain (heading : String) (es : List (String × lib.Value))
    (environment : List (String × String)) : Prop where
  headings : ∀ e ∈ es, (lib.path e.1).heading = heading → (lib.path e.1).steps = []
  names : ∀ v ∈ environment, ∀ key ∈ lib.engineKey? v.1, (lib.path key).heading = heading →
    (lib.path key).isOfField ∧ (lib.path key).steps.length = 1

variable {lib}

/-- What is given plainly is given field by field. -/
theorem Plain.fieldwise (h : Plain lib heading es environment) :
    Fieldwise lib heading es environment where
  headings e m here := by
    rw [SettingName.isOfItem, h.headings e m here]
    exact Bool.false_ne_true
  names v m key it here := (h.names v m key it here).1

/-- A document leaves its fields to a section if no heading leads to one of its items. -/
theorem Fieldwise.isFieldwise_document (h : Fieldwise lib heading es environment)
    (sections : ∀ e ∈ es, lib.isSection e.2) : ∀ e ∈ es, lib.isFieldwise heading e := by
  intro e m
  have noItem := h.headings e m
  unfold SettingName.isOfItem at noItem
  unfold ConfigLibrary.isFieldwise
  by_cases here : (lib.path e.1).heading = heading
  · cases steps : (lib.path e.1).steps with
    | nil => simp [sections e m]
    | cons step more =>
        cases step with
        | field name => simp [sections e m]
        | item i => simp [steps, here] at noItem
  · simp [here]

end Settings

/-! ## Loading -/

section Loading

variable {α : Type} {lib : ConfigLibrary} {text : String} {es : List (String × lib.Value)}
  {environment : List (String × String)}

/-- The sources of settings, when a document is there. -/
def Settings.sources (lib : ConfigLibrary) (es : List (String × lib.Value))
    (environment : List (String × String)) : List (List (String × lib.Value)) :=
  [default.written lib, es, ofEnvironment lib environment]

theorem Settings.load_text (readable : lib.document? text = some es) :
    load lib (.text text) environment = ofSources lib (sources lib es environment) := by
  rw [load, readable]
  rfl

theorem Settings.verdict_eq_ok_iff {c d : Settings} :
    c.verdict = .ok d ↔ c = d ∧ c.check = .ok () := by
  unfold verdict
  split
  · rename_i fault bad
    simp [bad]
  · rename_i good
    simp [good]

/-- What sources give is loaded just if it was read and passes its check. -/
theorem Settings.ofSources_eq_ok_iff {all : List (List (String × lib.Value))} {c : Settings} :
    ofSources lib all = .ok c ↔ lib.settings? (lib.build all) = some c ∧ c.check = .ok () := by
  unfold ofSources
  cases lib.settings? (lib.build all) with
  | none => exact iff_of_false nofun nofun
  | some d =>
      dsimp only
      rw [verdict_eq_ok_iff, Option.some.injEq]
      exact and_congr_right fun same => by rw [same]

section Documented

variable (documented : lib.Documented)

include documented

/-- What is usual leaves its fields to every section. -/
theorem Settings.isFieldwise_written (c : Settings) (heading : String) :
    ∀ e ∈ c.written lib, lib.isFieldwise heading e := by
  have plain {β : Type} (type : FieldType β) (x : β) := ConfigLibrary.isPlain_write documented type x
  have url : lib.isPlain (c.storage.databaseUrl.elim lib.null (lib.write .text)) := by
    cases c.storage.databaseUrl with
    | none => exact ConfigLibrary.isPlain_null documented
    | some url => exact plain .text url
  have whole {key : String} (word : SettingName.isWord key) {f : String × lib.Value}
      {fs : List (String × lib.Value)} (each : ∀ g ∈ f :: fs, lib.isPlain g.2) :=
    ConfigLibrary.isFieldwise_of_isSection documented word heading
      (ConfigLibrary.isSection_table documented each)
  unfold written
  simp only [List.forall_mem_cons, List.not_mem_nil, false_imp_iff, implies_true, and_true]
  refine ⟨whole (by decide +kernel) ?_, whole (by decide +kernel) ?_, whole (by decide +kernel) ?_,
    whole (by decide +kernel) ?_⟩ <;>
    simp [plain, url]

variable (sections : ∀ e ∈ es, lib.isSection e.2)
  (keys : (environment.filterMap fun v => lib.engineKey? v.1).Nodup)

include sections keys

/-- In a section that is given field by field a setting has its effective value, unless something
is given below it. -/
theorem Setting.inFields_of_fieldwise (s : Setting α)
    (h : Settings.Fieldwise lib s.heading es environment) :
    ∃ fs, lib.fields? (lib.build (Settings.sources lib es environment)) s.heading = some fs ∧
      (s.inFields lib fs = s.effective lib es environment ∨
        s.inFields lib fs = none ∧ ¬ Settings.Plain lib s.heading es environment) := by
  have each : ∀ source ∈ Settings.sources lib es environment, ∀ e ∈ source,
      lib.isFieldwise s.heading e := by
    simp only [Settings.sources, List.forall_mem_cons, List.not_mem_nil, false_imp_iff,
      implies_true, and_true]
    exact ⟨Settings.isFieldwise_written documented _ _, h.isFieldwise_document sections,
      ConfigLibrary.isFieldwise_ofEnvironment documented keys h.names⟩
  obtain ⟨fs, fields, said⟩ := ConfigLibrary.fields?_build documented each
  refine ⟨fs, fields, ?_⟩
  have flat : (Settings.sources lib es environment).flatten =
      Settings.default.written lib ++ es ++ Settings.ofEnvironment lib environment := by
    simp [Settings.sources]
  rw [s.inFields_eq documented, said, flat, ConfigLibrary.lastSaid_append,
    ConfigLibrary.lastSaid_append, s.lastSaid_written documented]
  obtain same | ⟨⟨v, m, key, it, rest, more, path⟩, below⟩ :=
    s.lastSaid_ofEnvironment documented keys
  · rw [same, Setting.effective]
    cases s.inEnvironment? lib environment with
    | some text => exact .inl rfl
    | none =>
        rw [Option.map_none, Option.none_or]
        obtain told | ⟨⟨e, m, rest, path⟩, below⟩ := s.lastSaid_document documented sections
        · rw [told]
          cases s.inDocument? lib es with
          | none => exact .inl (s.ofSeen_write_usual documented)
          | some v => exact .inl (s.ofSeen_seen documented v)
        · -- What lies below a field fits no field, and a plain heading leads to no field at all.
          rw [below]
          refine .inr ⟨rfl, fun plain => ?_⟩
          have none := plain.headings e m (by rw [path])
          rw [path] at none
          cases none
  · rw [below]
    refine .inr ⟨rfl, fun plain => ?_⟩
    have alone := (plain.names v m key it (by rw [path])).2
    rw [path] at alone
    exact more (List.length_eq_zero_iff.1 (Nat.succ.inj alone))

/-- Settings that were read have their effective values, as far as their sections are given field by
field. -/
theorem Setting.effective_of_settings?_eq_some {c : Settings}
    (it : lib.settings? (lib.build (Settings.sources lib es environment)) = some c) (s : Setting α)
    (h : Settings.Fieldwise lib s.heading es environment) :
    s.effective lib es environment = some (s.of c) := by
  obtain ⟨fs, fields, same | ⟨none, -⟩⟩ := s.inFields_of_fieldwise documented sections keys h
  · exact same.symm.trans (ConfigLibrary.inFields_of_settings?_eq_some it s fields)
  · cases none.symm.trans (ConfigLibrary.inFields_of_settings?_eq_some it s fields)

/-- Effective values are what is read, where all sections are given plainly. -/
theorem Setting.settings?_of_effective {c : Settings}
    (plain : ∀ {α : Type} (s : Setting α), Settings.Plain lib s.heading es environment)
    (each : ∀ {α : Type} (s : Setting α), s.effective lib es environment = some (s.of c)) :
    lib.settings? (lib.build (Settings.sources lib es environment)) = some c := by
  refine ConfigLibrary.settings?_eq_some_of_inFields fun s => ?_
  obtain ⟨fs, fields, same | ⟨-, spoilt⟩⟩ :=
    s.inFields_of_fieldwise documented sections keys (plain s).fieldwise
  · exact ⟨fs, fields, same.trans (each s)⟩
  · exact absurd (plain s) spoilt

end Documented

/-- **The settings that are loaded** pass their check, and in each section that is given field by field
every setting has its effective value; where one has none, nothing is loaded. Where all sections are
given plainly, effective values are loaded as soon as they pass. What the text that counts spells is the
effective value of its setting. A document that gives nothing changes nothing, and of one that cannot be
read nothing is loaded. -/
theorem Settings.load_follows_sources (documented : lib.Documented)
    (keys : (environment.filterMap fun v => lib.engineKey? v.1).Nodup) (text : String) :
    (lib.document? text = none → load lib (.text text) environment = .error .unreadable) ∧
    load lib (.text "") environment = load lib .none environment ∧
    ∀ es, lib.document? text = some es → (∀ e ∈ es, lib.isSection e.2) →
      (∀ c, load lib (.text text) environment = .ok c → c.check = .ok () ∧
        ∀ {α : Type} (s : Setting α), Fieldwise lib s.heading es environment →
          s.effective lib es environment = some (s.of c)) ∧
      (∀ {α : Type} (s : Setting α), Fieldwise lib s.heading es environment →
        s.effective lib es environment = none →
          load lib (.text text) environment = .error .unreadable) ∧
      ((∀ {α : Type} (s : Setting α), Plain lib s.heading es environment) →
        ∀ c, (∀ {α : Type} (s : Setting α), s.effective lib es environment = some (s.of c)) →
          load lib (.text text) environment = c.verdict) ∧
      (∀ {α : Type} (s : Setting α) (word : String) (x : α), s.Spells word x →
        (s.inEnvironment? lib environment = some word ∨ s.inEnvironment? lib environment = none ∧
          s.inDocument? lib es = some (lib.write .text word)) →
            s.effective lib es environment = some x) ∧
      (es = [] → load lib (.text text) environment = load lib .none environment) := by
  have bare {t : String} (nothing : lib.document? t = some []) :
      load lib (.text t) environment = load lib .none environment := by
    rw [load_text nothing, load, sources, ofSources, ofSources, documented.build_eq,
      documented.build_eq]
    rfl
  refine ⟨fun unreadable => ?_, bare documented.document?_empty, fun es readable sections => ?_⟩
  · rw [load, unreadable]
  refine ⟨fun c loaded => ?_, fun s h none => ?_, fun plain c each => ?_,
    fun s word x spells given => ?_, fun nothing => ?_⟩
  · rw [load_text readable] at loaded
    obtain ⟨it, good⟩ := ofSources_eq_ok_iff.1 loaded
    exact ⟨good, fun s h => s.effective_of_settings?_eq_some documented sections keys it h⟩
  · rw [load_text readable, ofSources]
    cases it : lib.settings? (lib.build (sources lib es environment)) with
    | none => rfl
    | some c =>
        cases none.symm.trans (s.effective_of_settings?_eq_some documented sections keys it h)
  · rw [load_text readable, ofSources,
      Setting.settings?_of_effective documented sections keys plain each]
  · rw [Setting.effective]
    obtain given | ⟨none, given⟩ := given
    · rw [given]
      exact s.read_of_spells documented spells
    · rw [none, given]
      exact s.read_of_spells documented spells
  · subst nothing
    exact bare readable

theorem Settings.load_hides_document :
    reader.Documented ∧
    ([("PATHGRANT_LIMITS__MAX_BATCH_SIZE", "500")].filterMap fun v =>
      reader.engineKey? v.1).Nodup ∧
    load reader (.text "limits:\n  max_batch_size: 100\nlogging:\n  level: debug\n")
        [("PATHGRANT_LIMITS__MAX_BATCH_SIZE", "500")] =
      .ok { Settings.default with limits := ⟨500⟩, logging := ⟨"debug", false⟩ } ∧
    ∃ es,
      reader.document? "limits:\n  max_batch_size: 100\nlogging:\n  level: debug\n" = some es ∧
      (∀ e ∈ es, reader.isSection e.2) ∧
      Setting.maxBatch.effective reader es [("PATHGRANT_LIMITS__MAX_BATCH_SIZE", "500")] =
        some 500 ∧
      Setting.level.effective reader es [("PATHGRANT_LIMITS__MAX_BATCH_SIZE", "500")] =
        some "debug" := by
  have keys : ([("PATHGRANT_LIMITS__MAX_BATCH_SIZE", "500")].filterMap fun v =>
      reader.engineKey? v.1).Nodup := by decide +kernel
  have loaded : load reader (.text "limits:\n  max_batch_size: 100\nlogging:\n  level: debug\n")
      [("PATHGRANT_LIMITS__MAX_BATCH_SIZE", "500")] =
        .ok { Settings.default with limits := ⟨500⟩, logging := ⟨"debug", false⟩ } := by
    decide +kernel
  have known : (reader.document?
      "limits:\n  max_batch_size: 100\nlogging:\n  level: debug\n").any fun es =>
        (∀ e ∈ es, reader.isSection e.2) ∧ ∀ e ∈ es, ¬ (reader.path e.1).isOfItem := by
    decide +kernel
  obtain ⟨es, readable, fits⟩ := (Option.any_eq_true _ _).1 known
  obtain ⟨sections, headings⟩ := of_decide_eq_true fits
  obtain ⟨-, values⟩ :=
    ((load_follows_sources reader_documented keys _).2.2 es readable sections).1 _ loaded
  exact ⟨reader_documented, keys, loaded, es, readable, sections,
    values .maxBatch ⟨fun e m _ => headings e m, by decide +kernel⟩,
    values .level ⟨fun e m _ => headings e m, by decide +kernel⟩⟩

/-- Not only variables with underscores count: an item of a section counts, and a point may stand
in place of two underscores. -/
theorem Settings.load_heeds_other_names :
    reader.Documented ∧
    (reader.document? "limits:\n  max_batch_size: 100\n").any (fun es =>
      (∀ e ∈ es, reader.isSection e.2) ∧
        (Setting.maxBatch.inDocument? reader es).bind (reader.convert? .word64) = some 100) ∧
    ∀ v ∈ ["PATHGRANT_LIMITS[0]", "PATHGRANT_LIMITS.MAX_BATCH_SIZE"],
      ([(v, "500")].filterMap fun v => reader.engineKey? v.1).Nodup ∧
      reader.lowerCase v ≠ "pathgrant_limits__max_batch_size" ∧
      load reader (.text "limits:\n  max_batch_size: 100\n") [(v, "500")] =
        .ok { Settings.default with limits := ⟨500⟩ } :=
  ⟨reader_documented, by decide +kernel, by decide +kernel⟩

end Loading

end PathAcl
