import Mathlib.Data.List.Forall2
import Mazewalk.Level.File
import Mazewalk.Settings

/-!
# What documents say

A reader gives the fields of a document, and what they say is taken from them: the settings from a
settings file, a level file from the text of one.  A field says something by its value alone.  One
with a default may be missing, and what the others are called makes no difference.
-/

namespace Mazewalk

namespace Toml

/-! ### Values -/

namespace Value

/-- The value stands for a name: as a text, or as the only key of a table that holds nothing. -/
inductive Names : Value → String → Prop
  | text (name : String) : Names (.text name) name
  | list (origin : Origin) (name : String) : Names (.table origin [(name, .array [])]) name
  | table (origin inner : Origin) (name : String) :
      Names (.table origin [(name, .table inner [])]) name

/-- The value is a list of these items, in brackets or as tables under one header. -/
inductive Lists : Value → List Value → Prop
  | array (items : List Value) : Lists (.array items) items
  | tables (earlier : List Fields) (last : Fields) :
      Lists (.tables earlier last) ((earlier ++ [last]).map (.table .defined))

variable {value : Value}

theorem natBelow?_eq_some_iff {bound n : Nat} :
    value.natBelow? bound = some n ↔ value = .integer n ∧ n < bound := by
  unfold natBelow?
  split
  · rename_i i
    rw [Value.integer.injEq]
    split
    · rw [Option.some.injEq]
      omega
    · refine iff_of_false nofun ?_
      omega
  · rename_i hne
    exact iff_of_false nofun fun h => hne _ h.1

/-- An integer is read as an element of a type that has one for each number below the bound. -/
theorem map_natBelow?_eq_some_iff {α : Type} {bound : Nat} {ofNat : Nat → α} {toNat : α → Nat}
    (hlt : ∀ a, toNat a < bound) (hof : ∀ a, ofNat (toNat a) = a)
    (hto : ∀ n, n < bound → toNat (ofNat n) = n) {a : α} :
    (value.natBelow? bound).map ofNat = some a ↔ value = .integer (toNat a) := by
  simp only [Option.map_eq_some_iff, natBelow?_eq_some_iff]
  constructor
  · rintro ⟨n, ⟨rfl, hn⟩, rfl⟩
    rw [hto n hn]
  · rintro rfl
    exact ⟨_, ⟨rfl, hlt a⟩, hof a⟩

theorem uint32?_eq_some_iff {n : UInt32} : value.uint32? = some n ↔ value = .integer n.toNat :=
  map_natBelow?_eq_some_iff UInt32.toNat_lt (fun _ => UInt32.ofNat_toNat)
    fun _ h => UInt32.toNat_ofNat_of_lt' h

theorem uint64?_eq_some_iff {n : UInt64} : value.uint64? = some n ↔ value = .integer n.toNat :=
  map_natBelow?_eq_some_iff UInt64.toNat_lt (fun _ => UInt64.ofNat_toNat)
    fun _ h => UInt64.toNat_ofNat_of_lt' h

theorem text?_eq_some_iff {text : String} : value.text? = some text ↔ value = .text text := by
  unfold text?
  split <;> simp_all

theorem name?_eq_some_iff {name : String} : value.name? = some name ↔ value.Names name := by
  constructor
  · intro h
    unfold name? at h
    split at h
    · cases h
      exact .text name
    · rename_i content
      split at h
      · rename_i he
        cases h
        unfold isEmpty at he
        split at he
        · rw [List.isEmpty_iff] at he
          subst he
          exact .list _ name
        · rw [List.isEmpty_iff] at he
          subst he
          exact .table _ _ name
        · cases he
      · cases h
    · cases h
  · intro h
    cases h <;> rfl

theorem items?_eq_some_iff {items : List Value} :
    value.items? = some items ↔ value.Lists items := by
  constructor
  · intro h
    unfold items? at h
    split at h
    · cases h
      exact .array items
    · cases h
      exact .tables _ _
    · cases h
  · intro h
    cases h <;> rfl

end Value

/-! ### Fields -/

namespace Fields

variable {α : Type} {fields : Fields} {key : String} {decode? : Value → Option α} {a default : α}

theorem read?_eq_some_iff :
    fields.read? key decode? = some a ↔
      ∃ value, fields.lookup key = some value ∧ decode? value = some a :=
  Option.bind_eq_some_iff

theorem readOr?_eq_some_iff :
    fields.readOr? key default decode? = some a ↔
      (∃ value, fields.lookup key = some value ∧ decode? value = some a) ∨
        fields.lookup key = none ∧ a = default := by
  unfold readOr?
  split
  · rename_i value hv
    simp [hv]
  · rename_i hv
    simp [hv, eq_comm]

end Fields

theorem mapM_eq_some_iff {α β : Type} {f : α → Option β} {l : List α} {r : List β} :
    l.mapM f = some r ↔ List.Forall₂ (fun a b => f a = some b) l r := by
  induction l generalizing r with
  | nil => simp [eq_comm]
  | cons a l ih =>
    rw [List.mapM_cons, List.forall₂_cons_left_iff]
    simp only [Option.bind_eq_bind, Option.bind_eq_some_iff, Option.pure_def, Option.some.injEq, ih]
    constructor
    · rintro ⟨b, hb, bs, hbs, rfl⟩
      exact ⟨b, bs, hb, hbs, rfl⟩
    · rintro ⟨b, bs, hb, hbs, rfl⟩
      exact ⟨b, hb, bs, hbs, rfl⟩

end Toml

/-! ### Settings files -/

namespace Settings

/-- The delay is in the fields, or else it is 400 milliseconds; the directory is in the fields, or
else there is none. -/
structure Tells (fields : Toml.Fields) (settings : Settings) : Prop where
  tickMs : fields.lookup "tick_ms" = some (.integer settings.tickMs.toNat) ∨
    fields.lookup "tick_ms" = none ∧ settings.tickMs = 400
  levelsDir : (∃ dir, fields.lookup "levels_dir" = some (.text dir) ∧
      settings.levelsDir? = some dir) ∨
    fields.lookup "levels_dir" = none ∧ settings.levelsDir? = none

/-- The document says the settings. -/
def Says (toml : Toml.Reader) (text : String) (settings : Settings) : Prop :=
  ∃ fields, toml text = some fields ∧ Tells fields settings

theorem directory?_eq_some_iff {value : Toml.Value} {levelsDir? : Option String} :
    directory? value = some levelsDir? ↔ ∃ dir, value = .text dir ∧ levelsDir? = some dir := by
  simp only [directory?, Option.map_eq_some_iff, Toml.Value.text?_eq_some_iff]
  exact exists_congr fun dir => and_congr_right fun _ => eq_comm

/-- **Settings are read as the fields tell them.** -/
theorem ofFields?_eq_some_iff {fields : Toml.Fields} {settings : Settings} :
    ofFields? fields = some settings ↔ Tells fields settings := by
  simp only [ofFields?, Option.bind_eq_bind, Option.bind_eq_some_iff,
    Toml.Fields.readOr?_eq_some_iff, Toml.Value.uint64?_eq_some_iff, directory?_eq_some_iff,
    exists_eq_right]
  constructor
  · rintro ⟨_, ht, _, hd, h⟩
    cases h
    refine ⟨ht, hd.imp_left ?_⟩
    rintro ⟨value, hv, dir, rfl, he⟩
    exact ⟨dir, hv, he⟩
  · rintro ⟨ht, hd⟩
    refine ⟨_, ht, _, hd.imp_left ?_, rfl⟩
    rintro ⟨dir, hv, he⟩
    exact ⟨_, hv, dir, rfl, he⟩

theorem bind_ofFields?_eq_some_iff {toml : Toml.Reader} {text : String} {settings : Settings} :
    (toml text).bind ofFields? = some settings ↔ Says toml text settings := by
  rw [Option.bind_eq_some_iff]
  exact exists_congr fun fields => and_congr_right fun _ => ofFields?_eq_some_iff

end Settings

/-! ### Level files -/

/-- If everything is found under its name, it is found under no other one. -/
theorem find?_name_eq_some_iff {α : Type} {all : List α} {name : α → String}
    (h : ∀ a, (all.find? fun b => name b == name a) = some a) {text : String} {a : α} :
    (all.find? fun b => name b == text) = some a ↔ text = name a := by
  constructor
  · intro hf
    have hn := List.find?_some hf
    rw [beq_iff_eq] at hn
    exact hn.symm
  · rintro rfl
    exact h a

theorem Heading.ofName?_eq_some_iff {text : String} {heading : Heading} :
    ofName? text = some heading ↔ text = heading.name :=
  find?_name_eq_some_iff ofName?_name

theorem Block.ofName?_eq_some_iff {text : String} {block : Block} :
    ofName? text = some block ↔ text = block.name :=
  find?_name_eq_some_iff ofName?_name

namespace Level

/-- The parts of the file are in the fields, the numbers as integers and the kinds of instruction by
their names.  Without a field the description is empty, and the walker faces right. -/
structure File.Tells (fields : Toml.Fields) (file : File) : Prop where
  id : fields.lookup "id" = some (.integer file.id.toNat)
  name : fields.lookup "name" = some (.text file.name)
  description : fields.lookup "description" = some (.text file.description) ∨
    fields.lookup "description" = none ∧ file.description = ""
  par : fields.lookup "par" = some (.integer file.par.toNat)
  facing : (∃ value, fields.lookup "facing" = some value ∧ value.Names file.heading.name) ∨
    fields.lookup "facing" = none ∧ file.heading = .right
  allowed : ∃ value items, fields.lookup "allowed" = some value ∧ value.Lists items ∧
    List.Forall₂ (fun item block => item.Names block.name) items file.allowed
  map : fields.lookup "map" = some (.text file.map)

/-- The document says what is in the level file. -/
def File.Says (toml : Toml.Reader) (text : String) (file : File) : Prop :=
  ∃ fields, toml text = some fields ∧ Tells fields file

theorem File.heading?_eq_some_iff {value : Toml.Value} {heading : Heading} :
    File.heading? value = some heading ↔ value.Names heading.name := by
  simp [File.heading?, Option.bind_eq_some_iff, Toml.Value.name?_eq_some_iff,
    Heading.ofName?_eq_some_iff]

theorem File.block?_eq_some_iff {value : Toml.Value} {block : Block} :
    File.block? value = some block ↔ value.Names block.name := by
  simp [File.block?, Option.bind_eq_some_iff, Toml.Value.name?_eq_some_iff,
    Block.ofName?_eq_some_iff]

theorem File.blocks?_eq_some_iff {value : Toml.Value} {blocks : List Block} :
    File.blocks? value = some blocks ↔
      ∃ items, value.Lists items ∧ List.Forall₂ (fun item block => item.Names block.name) items
        blocks := by
  simp only [File.blocks?, Option.bind_eq_some_iff, Toml.Value.items?_eq_some_iff,
    Toml.mapM_eq_some_iff, File.block?_eq_some_iff]

/-- **A level file is read as the fields tell it.** -/
theorem File.ofFields?_eq_some_iff {fields : Toml.Fields} {file : File} :
    ofFields? fields = some file ↔ Tells fields file := by
  simp only [ofFields?, Option.bind_eq_bind, Option.bind_eq_some_iff,
    Toml.Fields.read?_eq_some_iff, Toml.Fields.readOr?_eq_some_iff,
    Toml.Value.uint32?_eq_some_iff, Toml.Value.uint64?_eq_some_iff, Toml.Value.text?_eq_some_iff,
    heading?_eq_some_iff, blocks?_eq_some_iff, exists_eq_right]
  constructor
  · rintro ⟨_, hi, _, hn, _, hd, _, hp, _, hh, _, ⟨value, ha, items, hl, hall⟩, _, hm, h⟩
    cases h
    exact ⟨hi, hn, hd, hp, hh, ⟨value, items, ha, hl, hall⟩, hm⟩
  · rintro ⟨hi, hn, hd, hp, hh, ⟨value, items, ha, hl, hall⟩, hm⟩
    exact ⟨_, hi, _, hn, _, hd, _, hp, _, hh, _, ⟨value, ha, items, hl, hall⟩, _, hm, rfl⟩

/-- The file at the path can be read, it says what is in a level file, and that is the level. -/
def Loads (toml : Toml.Reader) (files : Files) (path : String) (level : Level) : Prop :=
  ∃ text file, files.read path = .ok text ∧ File.Says toml text file ∧ ofFile file = .ok level

/-- Why there is no level at the path. -/
inductive FailsToLoad (toml : Toml.Reader) (files : Files) (path : String) : Error → Prop
  | unreadable {error : Files.Error} (hr : files.read path = .error error) :
      FailsToLoad toml files path (.unreadable path error)
  | document {text : String} (hr : files.read path = .ok text)
      (hn : ∀ file, ¬ File.Says toml text file) : FailsToLoad toml files path .document
  | faulty {text : String} {file : File} {error : Error} (hr : files.read path = .ok text)
      (hs : File.Says toml text file) (he : ofFile file = .error error) :
      FailsToLoad toml files path error

variable {toml : Toml.Reader} {files : Files} {path text : String}

theorem ofText_of_decoded {file : File} (hs : File.Says toml text file) :
    ofText toml text = ofFile file := by
  obtain ⟨fields, hf, ht⟩ := hs
  simp only [ofText, hf, Option.bind_some, File.ofFields?_eq_some_iff.2 ht]

theorem ofText_of_not_decoded (hn : ∀ file, ¬ File.Says toml text file) :
    ofText toml text = .error .document := by
  have hnone : (toml text).bind File.ofFields? = none := by
    refine Option.eq_none_iff_forall_ne_some.2 fun file h => hn file ?_
    obtain ⟨fields, hf, ht⟩ := Option.bind_eq_some_iff.1 h
    exact ⟨fields, hf, File.ofFields?_eq_some_iff.1 ht⟩
  simp only [ofText, hnone]

theorem Loads.load_eq {level : Level} (h : Loads toml files path level) :
    load toml files path = .ok level := by
  obtain ⟨text, file, hr, hs, hl⟩ := h
  simp only [load, hr, ofText_of_decoded hs, hl]

theorem FailsToLoad.load_eq {error : Error} (h : FailsToLoad toml files path error) :
    load toml files path = .error error := by
  cases h with
  | unreadable hr => simp only [load, hr]
  | document hr hn => simp only [load, hr, ofText_of_not_decoded hn]
  | faulty hr hs he => simp only [load, hr, ofText_of_decoded hs, he]

/-- **There is a level at a path, or a reason why there is none.** -/
theorem loads_or_failsToLoad (toml : Toml.Reader) (files : Files) (path : String) :
    (∃ level, Loads toml files path level) ∨ ∃ error, FailsToLoad toml files path error := by
  cases hr : files.read path with
  | error error => exact Or.inr ⟨_, .unreadable hr⟩
  | ok text =>
    by_cases hs : ∃ file, File.Says toml text file
    · obtain ⟨file, hs⟩ := hs
      cases hl : ofFile file with
      | error error => exact Or.inr ⟨_, .faulty hr hs hl⟩
      | ok level => exact Or.inl ⟨level, text, file, hr, hs, hl⟩
    · exact Or.inr ⟨_, .document hr fun file h => hs ⟨file, h⟩⟩

end Level

end Mazewalk
