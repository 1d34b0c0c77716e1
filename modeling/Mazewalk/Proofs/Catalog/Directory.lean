import Mathlib.Data.Finset.Dedup
import Mathlib.Data.List.Pairwise
import Mazewalk.Proofs.Catalog.Merging
import Mazewalk.Proofs.Level.Validation
import Mazewalk.Toml.Document

/-!
# Directories of level files

A directory gives its entries in any order, and the level files among them are read in that order,
up to the first one that cannot be read or that repeats an id.  So which error is reported may
depend on the order.  Whether there is one does not, nor do the levels that are had.

The order is gone as soon as one says what a success is (`loadNames_eq_ok_iff`): every level file
is read, no two of them have one id, and the levels are those in the files, arranged by their ids.
The errors are followed along the order, each in the light of the files before it
(`gather_eq_error_iff`), which is how a repeated id leads to two files (`Stops`).
-/

namespace Mazewalk

/-! ### Names -/

namespace Files

theorem splitOn_of_not_mem {l : List Char} (h : '.' ∉ l) : l.splitOn '.' = [l] :=
  List.splitOnP_eq_singleton fun _ hc => beq_eq_false_iff_ne.2 fun he => h (he ▸ hc)

theorem splitOn_eq_singleton_nil {l : List Char} (h : l.splitOn '.' = [[]]) : l = [] := by
  have hl : ['.'].intercalate (l.splitOn '.') = l := List.intercalate_splitOn '.'
  rw [← hl, h]
  rfl

/-- **What stands behind the last dot** of a name counts if something stands in front of it. -/
theorem extension?_append {ending : List Char} (h : '.' ∉ ending) (stem : List Char) :
    extension? (String.ofList (stem ++ '.' :: ending)) =
      if stem = [] then none else some (String.ofList ending) := by
  have hsplit : (stem ++ '.' :: ending).splitOn '.' = stem.splitOn '.' ++ [ending] := by
    rw [← splitOn_of_not_mem h]
    exact List.splitOnP_append_cons stem ending (beq_self_eq_true '.')
  obtain hnil | ⟨pieces, piece, hp⟩ := List.eq_nil_or_concat (stem.splitOn '.')
  · exact absurd hnil (List.splitOnP_ne_nil _ stem)
  · have hrev : (stem.splitOn '.' ++ [ending]).reverse = ending :: piece :: pieces.reverse := by
      simp [hp]
    have hempty : (pieces.reverse.isEmpty && piece.isEmpty) = true ↔ stem = [] := by
      rw [Bool.and_eq_true, List.isEmpty_iff, List.isEmpty_iff, List.reverse_eq_nil_iff]
      constructor
      · rintro ⟨rfl, rfl⟩
        exact splitOn_eq_singleton_nil hp
      · rintro rfl
        have hl : [] ++ [[]] = pieces ++ [piece] := by rwa [List.concat_eq_append] at hp
        obtain ⟨h, h'⟩ := List.append_inj' hl rfl
        exact ⟨h.symm, (List.singleton_inj.1 h').symm⟩
    rw [extension?, String.toList_ofList, hsplit, hrev]
    simp only [hempty]

theorem extension?_of_not_mem {name : List Char} (h : '.' ∉ name) :
    extension? (String.ofList name) = none := by
  rw [extension?, String.toList_ofList, splitOn_of_not_mem h]
  rfl

theorem nodup_eraseDups (names : List String) : names.eraseDups.Nodup := by
  induction hn : names.length using Nat.strongRecOn generalizing names with
  | ind n ih =>
    cases names with
    | nil => exact List.nodup_nil
    | cons name names =>
      have hlt : (names.filter fun other => !other == name).length < n := by
        rw [← hn, List.length_cons]
        exact Nat.lt_succ_of_le (List.length_filter_le _ _)
      rw [List.eraseDups_cons, List.nodup_cons, List.mem_eraseDups, List.mem_filter]
      exact ⟨fun hm => by simp at hm, ih _ hlt _ rfl⟩

/-- **A directory lists its entries once each.** -/
theorem nodup_list {files : Files} {path : String} {names : List String}
    (h : files.list path = .ok names) : names.Nodup := by
  unfold list at h
  obtain ⟨resolved, -, h⟩ := bind_eq_ok_iff.1 h
  split at h
  · cases h
    exact nodup_eraseDups _
  · split at h
    · cases h
    · cases h

end Files

namespace Catalog

/-- The name has something in front of the ending of a level file. -/
def IsLevelName (name : String) : Prop :=
  ∃ stem, stem ≠ "" ∧ name = stem ++ ".toml"

theorem isLevelFile_iff {name : String} : isLevelFile name = true ↔ IsLevelName name := by
  rw [isLevelFile, beq_iff_eq]
  constructor
  · intro h
    by_cases hdot : '.' ∈ name.toList.reverse
    · -- the last dot of the name is the first one from behind
      obtain ⟨ending, stem, hn, hlast⟩ := List.eq_append_cons_of_mem hdot
      have hname : name = String.ofList (stem.reverse ++ '.' :: ending.reverse) := by
        rw [← String.ofList_toList (s := name), ← List.reverse_reverse name.toList, hn]
        simp
      rw [hname, Files.extension?_append (by rwa [List.mem_reverse])] at h
      split at h
      · cases h
      · rename_i hs
        refine ⟨String.ofList stem.reverse, fun he => hs (String.ofList_eq_empty_iff.1 he), ?_⟩
        have htoml : '.' :: ending.reverse = ".toml".toList := by
          rw [← String.toList_ofList (l := ending.reverse), Option.some.inj h]
          rfl
        rw [hname, htoml, String.ofList_append, String.ofList_toList]
    · rw [List.mem_reverse] at hdot
      rw [← String.ofList_toList (s := name), Files.extension?_of_not_mem hdot] at h
      cases h
  · rintro ⟨stem, hs, rfl⟩
    have hname : stem ++ ".toml" = String.ofList (stem.toList ++ '.' :: "toml".toList) := by
      rw [String.ofList_append, String.ofList_toList]
      rfl
    rw [hname, Files.extension?_append (by decide), if_neg, String.ofList_toList]
    rwa [String.toList_eq_nil_iff]

/-! ### Reading one file after another -/

section

variable {load : String → Except Level.Error Level} {names : List String} {name : String}
  {roster r : Roster Level} {e : Level.Error}

/-- The levels in the files that can be read, in the order of the files. -/
def readable (load : String → Except Level.Error Level) (names : List String) : List Level :=
  names.filterMap fun name => (load name).toOption

/-- A file stops the reading if it cannot be read, or if its level has an id that is held or that a
file before it has. -/
def Stops (load : String → Except Level.Error Level) (roster : Roster Level)
    (before : List String) (name : String) (e : Level.Error) : Prop :=
  load name = .error e ∨ ∃ level, load name = .ok level ∧ e = .duplicateId level.id ∧
    ((roster.get? level.id).isSome = true ∨
      ∃ earlier ∈ before, ∃ other, load earlier = .ok other ∧ other.id = level.id)

theorem gather_cons_error {names : List String} (h : load name = .error e) :
    gather ((name :: names).map load) roster = .error e := by
  rw [List.map_cons, h]
  rfl

theorem gather_cons_ok {level : Level} (h : load name = .ok level) :
    gather ((name :: names).map load) roster =
      if (roster.get? level.id).isSome then .error (.duplicateId level.id)
      else gather (names.map load) (roster.insert level.id level) := by
  rw [List.map_cons, h]
  rfl

theorem readable_cons_ok {level : Level} (h : load name = .ok level) :
    readable load (name :: names) = level :: readable load names := by
  rw [readable, List.filterMap_cons_some (by rw [h]; rfl)]
  rfl

theorem get?_insert_eq_none_iff {level : Level} {id : LevelId} :
    (roster.insert level.id level).get? id = none ↔ id ≠ level.id ∧ roster.get? id = none := by
  rw [Roster.get?_insert]
  split
  · rename_i he
    exact iff_of_false (Option.some_ne_none level) fun h => h.1 he
  · rename_i hne
    exact (and_iff_right hne).symm

/-- **A reading succeeds** if every file is read and all ids are different, from each other and from
those held before. -/
theorem gather_eq_ok_iff :
    gather (names.map load) roster = .ok r ↔
      (∀ name ∈ names, ∃ level, load name = .ok level) ∧
        ((readable load names).map Level.id).Nodup ∧
        (∀ level ∈ readable load names, roster.get? level.id = none) ∧
        r = roster.insertAll (keyed (readable load names)) := by
  induction names generalizing roster with
  | nil => simp [gather, readable, keyed, Roster.insertAll, eq_comm]
  | cons name names ih =>
    cases hl : load name with
    | error e =>
      rw [gather_cons_error hl]
      refine iff_of_false ?_ fun h => ?_
      · intro h
        cases h
      · obtain ⟨level, hok⟩ := h.1 name List.mem_cons_self
        rw [hl] at hok
        cases hok
    | ok level =>
      rw [gather_cons_ok hl, readable_cons_ok hl, List.forall_mem_cons, List.forall_mem_cons,
        List.map_cons, List.nodup_cons]
      split
      · rename_i hheld
        refine iff_of_false ?_ fun h => ?_
        · intro h
          cases h
        · rw [h.2.2.1.1] at hheld
          cases hheld
      · rename_i hheld
        rw [Bool.not_eq_true, Option.isSome_eq_false_iff, Option.isNone_iff_eq_none] at hheld
        rw [ih]
        simp only [get?_insert_eq_none_iff]
        constructor
        · rintro ⟨hok, hd, hfresh, hr⟩
          refine ⟨⟨⟨level, hl⟩, hok⟩, ⟨fun hm => ?_, hd⟩,
            ⟨hheld, fun other ho => (hfresh other ho).2⟩, hr⟩
          obtain ⟨other, ho, he⟩ := List.mem_map.1 hm
          exact (hfresh other ho).1 he
        · rintro ⟨⟨-, hok⟩, ⟨hne, hd⟩, ⟨-, hfresh⟩, hr⟩
          refine ⟨hok, hd, fun other ho => ⟨fun he => hne ?_, hfresh other ho⟩, hr⟩
          rw [← he]
          exact List.mem_map_of_mem ho

theorem stops_nil_error_iff {d : Level.Error} (h : load name = .error d) :
    Stops load roster [] name e ↔ d = e := by
  simp [Stops, h]

theorem stops_nil_ok_iff {level : Level} (h : load name = .ok level) :
    Stops load roster [] name e ↔
      e = .duplicateId level.id ∧ (roster.get? level.id).isSome = true := by
  simp [Stops, h]

/-- A file that has been read holds its id against the files after it. -/
theorem stops_cons {level : Level} (h : load name = .ok level) :
    (fun before => Stops load roster (name :: before)) =
      Stops load (roster.insert level.id level) := by
  funext before other e
  refine propext (or_congr_right (exists_congr fun found => and_congr_right fun _ =>
    and_congr_right fun _ => ?_))
  have hname : (∃ o, load name = .ok o ∧ o.id = found.id) ↔ found.id = level.id := by
    rw [h]
    simp [eq_comm]
  rw [Roster.get?_insert, List.exists_mem_cons_iff, hname]
  split
  · rename_i he
    simp [he]
  · rename_i hne
    simp [hne]

/-- **A reading fails** with the first file that stops it. -/
theorem gather_eq_error_iff :
    gather (names.map load) roster = .error e ↔ FirstBad (Stops load roster) names e := by
  induction names generalizing roster with
  | nil => exact iff_of_false nofun not_firstBad_nil
  | cons name names ih =>
    rw [firstBad_cons]
    cases hl : load name with
    | error d =>
      rw [gather_cons_error hl, stops_nil_error_iff hl, Except.error.injEq]
      refine ⟨Or.inl, fun h => h.resolve_right fun h => ?_⟩
      exact h.1 d ((stops_nil_error_iff hl).2 rfl)
    | ok level =>
      rw [gather_cons_ok hl, stops_cons hl]
      simp only [stops_nil_ok_iff hl]
      split
      · rename_i hheld
        rw [Except.error.injEq]
        refine ⟨fun h => Or.inl ⟨h.symm, hheld⟩, fun h => ?_⟩
        exact (h.resolve_right fun h => h.1 _ ⟨rfl, hheld⟩).1.symm
      · rename_i hheld
        rw [ih]
        exact ⟨fun h => Or.inr ⟨fun _ hb => hheld hb.2, h⟩,
          fun h => (h.resolve_left fun hb => hheld hb.2).2⟩

theorem toOption_eq_some_iff {x : Except Level.Error Level} {level : Level} :
    x.toOption = some level ↔ x = .ok level := by
  cases x <;> simp [Except.toOption]

theorem mem_readable_iff {level : Level} :
    level ∈ readable load names ↔ ∃ name ∈ names, load name = .ok level := by
  simp only [readable, List.mem_filterMap, toOption_eq_some_iff]

/-- The ids are different if no two files have levels with one id. -/
theorem nodup_ids_readable_iff (hd : names.Nodup) :
    ((readable load names).map Level.id).Nodup ↔
      ∀ name ∈ names, ∀ other ∈ names, ∀ level level', load name = .ok level →
        load other = .ok level' → level.id = level'.id → name = other := by
  rw [List.Nodup, List.pairwise_map, readable, List.pairwise_filterMap]
  simp only [toOption_eq_some_iff]
  constructor
  · intro h name hm other ho level level' hl hl' hid
    by_contra hne
    have : Std.Symm fun a b => ∀ l, load a = .ok l → ∀ l', load b = .ok l' → l.id ≠ l'.id :=
      ⟨fun a b hab l hl l' hl' => (hab l' hl' l hl).symm⟩
    exact h.forall hm ho hne level hl level' hl' hid
  · intro h
    refine hd.pairwise_of_forall_ne fun name hm other ho hne level hl level' hl' hid => ?_
    exact hne (h name hm other ho level level' hl hl' hid)

end

/-! ### The entries of a directory -/

/-- The names are all entries of a directory, each once and in some order. -/
def Enumerates (names : List String) (entries : Finset String) : Prop :=
  names.Nodup ∧ ∀ name, name ∈ names ↔ name ∈ entries

/-- The entry is a level file by its name, and this is the level in it. -/
structure Defines (toml : Toml.Reader) (files : Files) (dir : String) (entries : Finset String)
    (name : String) (level : Level) : Prop where
  mem : name ∈ entries
  named : IsLevelName name
  load : Level.load toml files (Files.join dir name) = .ok level

/-- Every level file among the entries holds a level, and no two hold levels with one id. -/
structure Sound (toml : Toml.Reader) (files : Files) (dir : String) (entries : Finset String) :
    Prop where
  valid : ∀ name ∈ entries, IsLevelName name → ∃ level, Defines toml files dir entries name level
  distinct : ∀ name other level level', Defines toml files dir entries name level →
    Defines toml files dir entries other level' → level.id = level'.id → name = other

/-- Reads the level file with this name. -/
def loadName (toml : Toml.Reader) (files : Files) (dir name : String) : Except Level.Error Level :=
  Level.load toml files (Files.join dir name)

section

variable {toml : Toml.Reader} {files : Files} {dir : String} {entries : Finset String}
  {order : List String} {levels : List Level} {level : Level} {name : String} {e : Level.Error}

theorem loadNames_eq_map (toml : Toml.Reader) (files : Files) (dir : String) (order : List String) :
    loadNames toml files dir order =
      (gather ((order.filter isLevelFile).map (loadName toml files dir)) .empty).map
        Roster.values := by
  have hload : loadNames toml files dir order =
      gather ((order.filter isLevelFile).map (loadName toml files dir)) .empty >>=
        fun roster => .ok roster.values := rfl
  rw [hload]
  cases gather ((order.filter isLevelFile).map (loadName toml files dir)) .empty <;> rfl

theorem defines_iff (ho : Enumerates order entries) :
    Defines toml files dir entries name level ↔
      name ∈ order.filter isLevelFile ∧ loadName toml files dir name = .ok level := by
  rw [List.mem_filter, ho.2, isLevelFile_iff]
  exact ⟨fun h => ⟨⟨h.mem, h.named⟩, h.load⟩, fun h => ⟨h.1.1, h.1.2, h.2⟩⟩

theorem sound_iff (ho : Enumerates order entries) :
    Sound toml files dir entries ↔
      (∀ name ∈ order.filter isLevelFile, ∃ level, loadName toml files dir name = .ok level) ∧
      ((readable (loadName toml files dir) (order.filter isLevelFile)).map Level.id).Nodup := by
  rw [nodup_ids_readable_iff (ho.1.filter isLevelFile)]
  constructor
  · rintro ⟨hvalid, hdistinct⟩
    refine ⟨fun name hm => ?_, fun name hm other hm' level level' hl hl' => ?_⟩
    · have hm' := hm
      rw [List.mem_filter, ho.2, isLevelFile_iff] at hm'
      obtain ⟨level, hd⟩ := hvalid name hm'.1 hm'.2
      exact ⟨level, hd.load⟩
    · exact hdistinct name other level level' ((defines_iff ho).2 ⟨hm, hl⟩)
        ((defines_iff ho).2 ⟨hm', hl'⟩)
  · rintro ⟨hvalid, hdistinct⟩
    refine ⟨fun name hm hn => ?_, fun name other level level' hd hd' => ?_⟩
    · obtain ⟨level, hl⟩ := hvalid name
        (List.mem_filter.2 ⟨(ho.2 name).2 hm, isLevelFile_iff.2 hn⟩)
      exact ⟨level, hm, hn, hl⟩
    · obtain ⟨hm, hl⟩ := (defines_iff ho).1 hd
      obtain ⟨hm', hl'⟩ := (defines_iff ho).1 hd'
      exact hdistinct name hm other hm' level level' hl hl'

/-- **What is had from a directory** does not mention the order of the entries. -/
theorem loadNames_eq_ok_iff (ho : Enumerates order entries) :
    loadNames toml files dir order = .ok levels ↔
      Sound toml files dir entries ∧ (levels.Pairwise fun a b => a.id < b.id) ∧
        ∀ level, level ∈ levels ↔ ∃ name, Defines toml files dir entries name level := by
  have hmem : ∀ level, level ∈ readable (loadName toml files dir) (order.filter isLevelFile) ↔
      ∃ name, Defines toml files dir entries name level := by
    intro level
    simp only [mem_readable_iff, defines_iff ho]
  have hget : ∀ id, (Roster.empty : Roster Level).get? id = none := fun _ => rfl
  rw [loadNames_eq_map, map_eq_ok_iff, sound_iff ho]
  simp only [gather_eq_ok_iff, hget, implies_true, true_and]
  constructor
  · rintro ⟨_, ⟨hvalid, hd, rfl⟩, rfl⟩
    refine ⟨⟨hvalid, hd⟩, pairwise_arranged _, fun level => ?_⟩
    rw [← hmem, ← isLast_iff_mem hd]
    exact mem_arranged_iff
  · rintro ⟨⟨hvalid, hd⟩, hascending, hlevels⟩
    refine ⟨_, ⟨hvalid, hd, rfl⟩, eq_of_ascending (pairwise_arranged _) hascending fun level => ?_⟩
    rw [hlevels, ← hmem, ← isLast_iff_mem hd]
    exact mem_arranged_iff

theorem exists_loadNames_iff (ho : Enumerates order entries) :
    (∃ levels, loadNames toml files dir order = .ok levels) ↔ Sound toml files dir entries := by
  constructor
  · rintro ⟨levels, h⟩
    exact ((loadNames_eq_ok_iff ho).1 h).1
  · intro h
    obtain ⟨hvalid, hd⟩ := (sound_iff ho).1 h
    rw [loadNames_eq_map]
    exact ⟨_, map_eq_ok_iff.2 ⟨_, gather_eq_ok_iff.2 ⟨hvalid, hd, fun _ _ => rfl, rfl⟩, rfl⟩⟩

/-- No level file says of itself that its id is taken. -/
theorem load_ne_duplicateId (toml : Toml.Reader) (files : Files) (path : String) (id : LevelId) :
    Level.load toml files path ≠ .error (.duplicateId id) := by
  intro h
  unfold Level.load at h
  split at h
  · rename_i text _
    unfold Level.ofText at h
    split at h
    · rw [Level.ofFile_eq_error_iff] at h
      obtain ⟨_, -, h⟩ | ⟨-, ⟨-, h⟩ | ⟨-, -, h⟩⟩ := h <;> cases h
    · cases h
  · cases h

/-- **A repeated id is found in two entries.** -/
theorem exists_defines_of_duplicateId (ho : Enumerates order entries) {id : LevelId}
    (h : loadNames toml files dir order = .error (.duplicateId id)) :
    ∃ name other level level', name ≠ other ∧ Defines toml files dir entries name level ∧
      Defines toml files dir entries other level' ∧ level.id = id ∧ level'.id = id := by
  rw [loadNames_eq_map, map_eq_error_iff, gather_eq_error_iff] at h
  obtain ⟨before, name, after, hsplit, -, hstops⟩ := h
  have hd := ho.1.filter isLevelFile
  obtain he | ⟨level, hl, he, hnone | ⟨other, hm, level', hl', hid⟩⟩ := hstops
  · exact absurd he (load_ne_duplicateId toml files _ id)
  · cases hnone
  · obtain rfl : id = level.id := Level.Error.duplicateId.inj he
    rw [hsplit, List.nodup_append] at hd
    refine ⟨name, other, level, level', fun hn => ?_, (defines_iff ho).2 ⟨?_, hl⟩,
      (defines_iff ho).2 ⟨?_, hl'⟩, rfl, hid⟩
    · exact hd.2.2 other hm name List.mem_cons_self hn.symm
    · rw [hsplit]
      exact List.mem_append_right before List.mem_cons_self
    · rw [hsplit]
      exact List.mem_append_left _ hm

/-- **The order of the entries makes no difference.**  In whatever order a directory gives its
entries, reading it succeeds or fails alike, and a success has the same levels.  It succeeds if and
only if every entry that is a level file by its name holds a level and the ids are different.  The
levels are then those in the level files, in order of their ids.  If an id is reported as repeated,
two of the entries have it.  And a directory gives each of its entries once. -/
theorem loadNames_anyOrder (toml : Toml.Reader) (files : Files) (dir : String)
    {entries : Finset String} {order order' : List String} (ho : Enumerates order entries)
    (ho' : Enumerates order' entries) :
    (∀ levels, loadNames toml files dir order = .ok levels ↔
      loadNames toml files dir order' = .ok levels) ∧
    ((∃ levels, loadNames toml files dir order = .ok levels) ↔ Sound toml files dir entries) ∧
    (∀ levels, loadNames toml files dir order = .ok levels →
      (levels.Pairwise fun a b => a.id < b.id) ∧
        ∀ level, level ∈ levels ↔ ∃ name, Defines toml files dir entries name level) ∧
    (∀ id, loadNames toml files dir order = .error (.duplicateId id) →
      ∃ name other level level', name ≠ other ∧ Defines toml files dir entries name level ∧
        Defines toml files dir entries other level' ∧ level.id = id ∧ level'.id = id) ∧
    ∀ listed, files.list dir = .ok listed →
      Enumerates listed listed.toFinset ∧
        loadDirectory toml files dir = loadNames toml files dir listed := by
  refine ⟨fun levels => ?_, exists_loadNames_iff ho, fun levels h => ?_,
    fun id h => exists_defines_of_duplicateId ho h, fun listed h => ⟨⟨?_, ?_⟩, ?_⟩⟩
  · rw [loadNames_eq_ok_iff ho, loadNames_eq_ok_iff ho']
  · exact ((loadNames_eq_ok_iff ho).1 h).2
  · exact Files.nodup_list h
  · exact fun name => List.mem_toFinset.symm
  · rw [loadDirectory, h]

end

/-- The text of a level file. -/
def hallText (id : String) : String :=
  "id = " ++ id ++ "\nname = \"Hall\"\npar = 1\nallowed = [\"forward\"]\nmap = \"ST GO\""

/-- A directory with two level files among other things, and one where two have the same id. -/
def shelves : Files :=
  ⟨[(["upper", "notes.txt"], .file none), (["upper", "b.toml"], .file (some (hallText "2"))),
    (["upper", ".toml"], .directory), (["upper", "a.toml"], .file (some (hallText "9"))),
    (["lower", "c.toml"], .file (some (hallText "5"))), (["lower", "d.TOML"], .file none),
    (["lower", "b.toml"], .file (some (hallText "5")))]⟩

def upperNames : List String := ["notes.txt", "b.toml", ".toml", "a.toml"]

def lowerNames : List String := ["c.toml", "d.TOML", "b.toml"]

theorem enumerates_toFinset {names : List String} (h : names.Nodup) :
    Enumerates names names.toFinset ∧ Enumerates names.reverse names.toFinset := by
  refine ⟨⟨h, fun name => List.mem_toFinset.symm⟩, List.nodup_reverse.2 h, fun name => ?_⟩
  rw [List.mem_reverse, List.mem_toFinset]

/-- What is no level file by its name is not looked at. -/
theorem loadNames_anyOrder_shelves :
    Enumerates upperNames upperNames.toFinset ∧
      Enumerates upperNames.reverse upperNames.toFinset ∧
      (∃ levels, loadNames Toml.read? shelves "upper" upperNames = .ok levels ∧
        loadNames Toml.read? shelves "upper" upperNames.reverse = .ok levels ∧
        levels.Pairwise fun a b => a.id < b.id) ∧
      shelves.list "upper" = .ok upperNames ∧
      loadDirectory Toml.read? shelves "upper" = loadNames Toml.read? shelves "upper" upperNames ∧
      Enumerates lowerNames lowerNames.toFinset ∧
      loadNames Toml.read? shelves "lower" lowerNames = .error (.duplicateId 5) ∧
      ∃ name other level level', name ≠ other ∧
        Defines Toml.read? shelves "lower" lowerNames.toFinset name level ∧
        Defines Toml.read? shelves "lower" lowerNames.toFinset other level' ∧
        level.id = 5 ∧ level'.id = 5 := by
  obtain ⟨hu, hu'⟩ := enumerates_toFinset (show upperNames.Nodup by decide)
  obtain ⟨hl, hl'⟩ := enumerates_toFinset (show lowerNames.Nodup by decide)
  obtain ⟨hsame, -, hlevels, -, hlisted⟩ := loadNames_anyOrder Toml.read? shelves "upper" hu hu'
  obtain ⟨-, -, -, hrepeated, -⟩ := loadNames_anyOrder Toml.read? shelves "lower" hl hl'
  have hlist : shelves.list "upper" = .ok upperNames := by decide +kernel
  have herror : loadNames Toml.read? shelves "lower" lowerNames = .error (.duplicateId 5) := by
    decide +kernel
  have hok : (loadNames Toml.read? shelves "upper" upperNames).toOption.isSome = true := by
    decide +kernel
  refine ⟨hu, hu', ?_, hlist, (hlisted _ hlist).2, hl, herror, hrepeated 5 herror⟩
  cases hload : loadNames Toml.read? shelves "upper" upperNames with
  | error e =>
    rw [hload] at hok
    cases hok
  | ok levels => exact ⟨levels, rfl, (hsame levels).1 hload, (hlevels levels hload).1⟩

end Catalog

end Mazewalk
