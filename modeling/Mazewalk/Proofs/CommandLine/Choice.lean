import Mazewalk.Proofs.Catalog.Directory
import Mazewalk.Proofs.CommandLine.Stages
import Mazewalk.Proofs.Session.Fairness
import Mazewalk.Toml.Document

/-!
# The level that is played first

With a directory of levels in the settings, the level to begin with is looked up in the levels of
the game merged with those of the directory.  The lookup takes the first place with the id that is
asked for.  As a merged catalog has its ids in order, there is no other place with that id
(`Starts`), and as the directory is merged in behind the game's own levels, it is the directory's
level that is found there if the directory has one.
-/

namespace Mazewalk

namespace CommandLine

open Catalog (Merges merge)

/-- The place of a catalog with this id, which is the only one.  A level of the directory with this
id is the level at this place. -/
structure Starts (extra catalog : List Level) (id : LevelId) (current : Nat) : Prop where
  found : ∃ level, catalog[current]? = some level ∧ level.id = id
  only : ∀ place level, catalog[place]? = some level → level.id = id → place = current
  own : ∀ level ∈ extra, level.id = id → catalog[current]? = some level

section

variable {toml : Toml.Reader} {arguments : Arguments} {files : Files} {dir : String}
  {base extra catalog : List Level} {current : Nat}

/-- A directory gives its levels in order of their ids. -/
theorem ascending_of_loadDirectory (h : Catalog.loadDirectory toml files dir = .ok extra) :
    extra.Pairwise fun a b => a.id < b.id := by
  unfold Catalog.loadDirectory at h
  split at h
  · cases h
  · rename_i names hn
    exact ((Catalog.loadNames_eq_ok_iff ⟨Files.nodup_list hn, fun _ => List.mem_toFinset.symm⟩).1
      h).2.1

/-- The place of an id in a merged catalog. -/
theorem starts_of_findIdx? {id : LevelId} (hm : Merges base extra catalog)
    (he : extra.Pairwise fun a b => a.id < b.id)
    (hf : (catalog.findIdx? fun level => level.id == id) = some current) :
    Starts extra catalog id current := by
  obtain ⟨hlt, hid, -⟩ := List.findIdx?_eq_some_iff_getElem.1 hf
  have hl : catalog[current]? = some catalog[current] := List.getElem?_eq_getElem hlt
  rw [beq_iff_eq] at hid
  refine ⟨⟨_, hl, hid⟩, fun place level hp h => ?_, fun own ho h => ?_⟩
  · exact Level.place_eq (Catalog.nodup_ids_of_ascending hm.ascending) hp hl (h.trans hid.symm)
  · have hd := Catalog.nodup_ids_of_ascending he
    rw [hl, hm.eq_of_mem hd (List.mem_of_getElem? hl) ho (h.trans hid.symm)]

/-- With a directory that cannot be read there is nothing to play. -/
theorem exists_loadDirectory_of_levels {start : List Level × Nat}
    (hp : arguments.levelFile? = none) (h : levels toml arguments files (some dir) = .ok start) :
    ∃ extra, Catalog.loadDirectory toml files dir = .ok extra := by
  obtain ⟨base, hb⟩ := exists_builtin
  cases he : Catalog.loadDirectory toml files dir with
  | ok extra => exact ⟨extra, rfl⟩
  | error error =>
    rw [levels, hp] at h
    simp only [hb, he] at h
    cases h

/-- **The lookup** finds every id that the catalog has, and no other. -/
theorem exists_levels_iff {dir? : Option String} (hp : arguments.levelFile? = none)
    (hc : Catalogued toml files dir? catalog) :
    (∃ start, levels toml arguments files dir? = .ok start) ↔
      arguments.level ∈ catalog.map Level.id := by
  rw [levels_of_catalogued hp hc, List.mem_map]
  cases hf : catalog.findIdx? fun level => level.id == arguments.level with
  | none =>
    refine iff_of_false ?_ ?_
    · rintro ⟨start, h⟩
      cases h
    · rintro ⟨level, hm, hid⟩
      exact beq_eq_false_iff_ne.1 (List.findIdx?_eq_none_iff.1 hf level hm) hid
  | some current =>
    obtain ⟨hlt, hid, -⟩ := List.findIdx?_eq_some_iff_getElem.1 hf
    exact iff_of_true ⟨_, rfl⟩ ⟨_, List.getElem_mem hlt, beq_iff_eq.1 hid⟩

/-- **There is a level to begin with** if the directory can be read, and the level that is asked for
is in it or in the game. -/
theorem exists_start_iff (hp : arguments.levelFile? = none) (hb : Catalog.builtin = .ok base) :
    (∃ start, levels toml arguments files (some dir) = .ok start) ↔
      ∃ extra, Catalog.loadDirectory toml files dir = .ok extra ∧
        (arguments.level ∈ base.map Level.id ∨ arguments.level ∈ extra.map Level.id) := by
  constructor
  · intro h
    obtain ⟨extra, he⟩ := h.elim fun start hs => exists_loadDirectory_of_levels hp hs
    rw [exists_levels_iff hp (.merged hb he), (Catalog.merges_merge base extra).ids] at h
    exact ⟨extra, he, h⟩
  · rintro ⟨extra, he, hid⟩
    rwa [exists_levels_iff hp (.merged hb he), (Catalog.merges_merge base extra).ids]

theorem starts_of_levels (hp : arguments.levelFile? = none) (hb : Catalog.builtin = .ok base)
    (he : Catalog.loadDirectory toml files dir = .ok extra)
    (h : levels toml arguments files (some dir) = .ok (catalog, current)) :
    catalog = merge base extra ∧ Starts extra catalog arguments.level current := by
  rw [levels_of_catalogued hp (.merged hb he)] at h
  split at h
  · rename_i hf
    cases h
    exact ⟨rfl, starts_of_findIdx? (Catalog.merges_merge base extra)
      (ascending_of_loadDirectory he) hf⟩
  · cases h

/-- **A catalog of two lists** has their ids, each once and in order, and the last level with each,
so that it makes no difference how several catalogs are merged, and nothing is changed by merging
nothing, or the same levels again.  With the levels of a directory merged into those of the game,
there is a level to begin with if and only if the directory can be read and one of the two lists has
the id that is asked for.  The place of the level is then the only one with that id, and if the
directory has a level with that id, it is that one. -/
theorem merged_start :
    ((∀ base extra, Merges base extra (merge base extra)) ∧
      (∀ base extra more, merge (merge base extra) more = merge base (merge extra more)) ∧
      ∀ base extra, merge (merge base extra) [] = merge base extra ∧
        merge [] (merge base extra) = merge base extra ∧
        merge (merge base extra) extra = merge base extra) ∧
    ∃ base, Catalog.builtin = .ok base ∧
      ∀ arguments : Arguments, arguments.levelFile? = none → ∀ toml files dir,
        ((∃ start, levels toml arguments files (some dir) = .ok start) ↔
          ∃ extra, Catalog.loadDirectory toml files dir = .ok extra ∧
            (arguments.level ∈ base.map Level.id ∨ arguments.level ∈ extra.map Level.id)) ∧
        ∀ extra catalog current, Catalog.loadDirectory toml files dir = .ok extra →
          levels toml arguments files (some dir) = .ok (catalog, current) →
            catalog = merge base extra ∧ Starts extra catalog arguments.level current := by
  obtain ⟨base, hb⟩ := exists_builtin
  refine ⟨⟨Catalog.merges_merge, Catalog.merge_assoc, fun base extra =>
    ⟨Catalog.merge_nil_merge base extra, Catalog.nil_merge_merge base extra,
      Catalog.merge_merge_self base extra⟩⟩, base, hb,
    fun arguments hp toml files dir => ⟨exists_start_iff hp hb, ?_⟩⟩
  exact fun extra catalog current he h => starts_of_levels hp hb he h

end

/-- Asks for the second level. -/
def secondArguments : Arguments where
  code? := some "forward"
  level := 2

/-- The second level of the game gives way to one from the directory. -/
theorem merged_start_shelves :
    secondArguments.levelFile? = none ∧
      ∃ extra catalog current,
        Catalog.loadDirectory Toml.read? Catalog.shelves "upper" = .ok extra ∧
        levels Toml.read? secondArguments Catalog.shelves (some "upper") = .ok (catalog, current) ∧
        Starts extra catalog 2 current ∧ current = 1 ∧
        ∃ own ∈ extra, own.id = 2 ∧ catalog[current]? = some own := by
  obtain ⟨-, base, hb, h⟩ := merged_start
  obtain ⟨hfound, hstarts⟩ := h secondArguments rfl Toml.read? Catalog.shelves "upper"
  have hsecond : ((Catalog.loadDirectory Toml.read? Catalog.shelves "upper").toOption.getD []).any
      (fun own => own.id == 2) = true := by decide +kernel
  have hplace : (levels Toml.read? secondArguments Catalog.shelves (some "upper")).toOption.map
      Prod.snd = some 1 := by decide +kernel
  cases he : Catalog.loadDirectory Toml.read? Catalog.shelves "upper" with
  | error error =>
    rw [he] at hsecond
    cases hsecond
  | ok extra =>
    rw [he] at hsecond
    obtain ⟨own, ho, hid⟩ := List.any_eq_true.1 hsecond
    rw [beq_iff_eq] at hid
    obtain ⟨⟨catalog, current⟩, hl⟩ :=
      hfound.2 ⟨extra, he, Or.inr (List.mem_map.2 ⟨own, ho, hid⟩)⟩
    obtain ⟨-, hs⟩ := hstarts extra catalog current he hl
    rw [hl] at hplace
    exact ⟨rfl, extra, catalog, current, rfl, hl, hs, Option.some.inj hplace, own, ho, hid,
      hs.own own ho hid⟩

end CommandLine

end Mazewalk
