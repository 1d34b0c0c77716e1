import Mathlib.Data.List.Induction
import Mazewalk.Catalog
import Mazewalk.Proofs.Roster.Lookup

/-!
# Merged catalogs

Merging puts levels in order of their ids and keeps the last of several with one id.  It treats
two lists as one behind the other, so that all there is to merging is what is done to a single list
(`merge_eq_arranged`).

What comes out is `arranged`.  Its ids increase strictly (`pairwise_arranged`), and a level is in it
if it is the last one with its id in the list (`mem_arranged_iff`).  Of two lists `Merges` says the
same, and `merges_merge` that merging does it.  A list that has been arranged stands for the list
that it was made of, in front of another one and behind it (`arranged_arranged_append`,
`arranged_append_arranged`).  That is why it makes no difference in what order three catalogs are
merged.
-/

namespace Mazewalk.Catalog

/-- The level is the last one with its id in the list. -/
def IsLast (levels : List Level) (level : Level) : Prop :=
  ∃ before after, levels = before ++ level :: after ∧ ∀ other ∈ after, other.id ≠ level.id

/-- The levels under their ids. -/
def rosterOf (levels : List Level) : Roster Level :=
  Roster.empty.insertAll (keyed levels)

/-- The levels in order of their ids, and of several with one id the last one. -/
def arranged (levels : List Level) : List Level :=
  (rosterOf levels).values

variable {levels base extra : List Level} {level other : Level} {id : LevelId}

/-! ### The last level with an id -/

theorem isLast_concat_iff :
    IsLast (levels ++ [other]) level ↔
      level = other ∨ IsLast levels level ∧ other.id ≠ level.id := by
  constructor
  · rintro ⟨before, after, h, hlast⟩
    obtain rfl | ⟨after, final, rfl⟩ := List.eq_nil_or_concat after
    · exact Or.inl (List.singleton_inj.1 (List.append_inj_right' h rfl)).symm
    · rw [List.concat_eq_append] at h hlast
      rw [← List.cons_append, ← List.append_assoc] at h
      obtain ⟨rfl, hfinal⟩ := List.append_inj' h rfl
      obtain rfl := List.singleton_inj.1 hfinal
      rw [List.forall_mem_append, List.forall_mem_singleton] at hlast
      exact Or.inr ⟨⟨before, after, rfl, hlast.1⟩, hlast.2⟩
  · rintro (rfl | ⟨⟨before, after, rfl, hlast⟩, hne⟩)
    · exact ⟨levels, [], rfl, fun _ h => absurd h List.not_mem_nil⟩
    · refine ⟨before, after ++ [other], List.append_assoc _ _ _, ?_⟩
      rw [List.forall_mem_append, List.forall_mem_singleton]
      exact ⟨hlast, hne⟩

theorem IsLast.mem (h : IsLast levels level) : level ∈ levels := by
  obtain ⟨before, after, rfl, -⟩ := h
  exact List.mem_append_right before List.mem_cons_self

/-- In a list with different ids every level is the last one with its id. -/
theorem isLast_iff_mem (hd : (levels.map Level.id).Nodup) :
    IsLast levels level ↔ level ∈ levels := by
  refine ⟨IsLast.mem, fun h => ?_⟩
  obtain ⟨before, after, rfl⟩ := List.append_of_mem h
  rw [List.map_append, List.map_cons, List.nodup_append, List.nodup_cons] at hd
  refine ⟨before, after, rfl, fun other ho he => hd.2.1.1 ?_⟩
  rw [← he]
  exact List.mem_map_of_mem ho

/-- A level of the list behind takes the place of one in front. -/
theorem IsLast.append_left (h : IsLast extra level) (base : List Level) :
    IsLast (base ++ extra) level := by
  obtain ⟨before, after, rfl, hlast⟩ := h
  exact ⟨base ++ before, after, (List.append_assoc _ _ _).symm, hlast⟩

/-- Every id of a list has a last level. -/
theorem exists_isLast (h : id ∈ levels.map Level.id) :
    ∃ level, IsLast levels level ∧ level.id = id := by
  induction levels using List.reverseRecOn with
  | nil => cases h
  | append_singleton levels final ih =>
    by_cases hf : final.id = id
    · exact ⟨final, isLast_concat_iff.2 (Or.inl rfl), hf⟩
    · rw [List.map_append, List.mem_append, List.map_singleton, List.mem_singleton] at h
      obtain ⟨level, hl, rfl⟩ := ih (h.resolve_right (Ne.symm hf))
      exact ⟨level, isLast_concat_iff.2 (Or.inr ⟨hl, hf⟩), rfl⟩

/-! ### The roster of some levels -/

theorem rosterOf_append (base extra : List Level) :
    rosterOf (base ++ extra) = (rosterOf base).insertAll (keyed extra) := by
  rw [rosterOf, keyed, List.map_append]
  exact List.foldl_append

/-- **A roster of levels** has the last level with each id. -/
theorem get?_rosterOf_eq_some_iff :
    (rosterOf levels).get? id = some level ↔ IsLast levels level ∧ level.id = id := by
  induction levels using List.reverseRecOn with
  | nil =>
    refine iff_of_false (fun h => ?_) fun h => absurd h.1.mem List.not_mem_nil
    cases h
  | append_singleton levels final ih =>
    have hconcat : rosterOf (levels ++ [final]) = (rosterOf levels).insert final.id final :=
      rosterOf_append levels [final]
    rw [hconcat, Roster.get?_insert, isLast_concat_iff]
    split
    · rename_i he
      rw [Option.some_inj]
      constructor
      · rintro rfl
        exact ⟨Or.inl rfl, he.symm⟩
      · rintro ⟨rfl | ⟨-, hne⟩, hid⟩
        · rfl
        · exact absurd (he.symm.trans hid.symm) hne
    · rename_i hne
      rw [ih]
      constructor
      · rintro ⟨hl, rfl⟩
        exact ⟨Or.inr ⟨hl, Ne.symm hne⟩, rfl⟩
      · rintro ⟨rfl | ⟨hl, -⟩, hid⟩
        · exact absurd hid.symm hne
        · exact ⟨hl, hid⟩

/-- There is one last level with an id. -/
theorem IsLast.unique (h : IsLast levels level) (h' : IsLast levels other)
    (hid : level.id = other.id) : level = other := by
  have hl := get?_rosterOf_eq_some_iff.2 ⟨h, hid⟩
  have ho := get?_rosterOf_eq_some_iff.2 ⟨h', rfl⟩
  exact Option.some.inj (hl.symm.trans ho)

theorem id_eq_of_mem_entries {entry : LevelId × Level} (h : entry ∈ (rosterOf levels).entries) :
    entry.2.id = entry.1 :=
  (get?_rosterOf_eq_some_iff.1 (Roster.mem_entries.1 h)).2

/-- A roster of levels says no more than its levels do. -/
theorem keyed_arranged (levels : List Level) :
    keyed (arranged levels) = (rosterOf levels).entries := by
  have hentry : ∀ entry ∈ (rosterOf levels).entries, (entry.2.id, entry.2) = entry :=
    fun entry hm => Prod.ext (id_eq_of_mem_entries hm) rfl
  rw [keyed, arranged, Roster.values, List.map_map]
  exact (List.map_congr_left hentry).trans (List.map_id _)

/-! ### Arranged levels -/

theorem pairwise_arranged (levels : List Level) :
    (arranged levels).Pairwise fun a b => a.id < b.id := by
  rw [arranged, Roster.values, List.pairwise_map]
  refine (rosterOf levels).ordered.imp_of_mem fun ha hb h => ?_
  rwa [id_eq_of_mem_entries ha, id_eq_of_mem_entries hb]

theorem mem_arranged_iff : level ∈ arranged levels ↔ IsLast levels level := by
  rw [arranged, Roster.values, List.mem_map]
  constructor
  · rintro ⟨entry, hm, rfl⟩
    exact (get?_rosterOf_eq_some_iff.1 (Roster.mem_entries.1 hm)).1
  · intro h
    exact ⟨(level.id, level), Roster.mem_entries.2 (get?_rosterOf_eq_some_iff.2 ⟨h, rfl⟩), rfl⟩

theorem mem_ids_arranged_iff :
    id ∈ (arranged levels).map Level.id ↔ id ∈ levels.map Level.id := by
  constructor
  · intro h
    obtain ⟨level, hm, rfl⟩ := List.mem_map.1 h
    exact List.mem_map_of_mem (mem_arranged_iff.1 hm).mem
  · intro h
    obtain ⟨level, hl, rfl⟩ := exists_isLast h
    exact List.mem_map_of_mem (mem_arranged_iff.2 hl)

/-- Lists in order of their ids are the same if they have the same levels. -/
theorem eq_of_ascending {levels levels' : List Level}
    (h : levels.Pairwise fun a b => a.id < b.id) (h' : levels'.Pairwise fun a b => a.id < b.id)
    (hm : ∀ level, level ∈ levels ↔ level ∈ levels') : levels = levels' := by
  have hd : ∀ {l : List Level}, (l.Pairwise fun a b => a.id < b.id) → l.Nodup := fun hl =>
    hl.imp fun hlt he => UInt32.ne_of_lt hlt (congrArg Level.id he)
  refine ((List.perm_ext_iff_of_nodup (hd h) (hd h')).2 hm).eq_of_pairwise ?_ h h'
  intro a b _ _ hab hba
  exact absurd (UInt32.lt_trans hab hba) (UInt32.lt_irrefl _)

/-- **What has been arranged stands for what it was made of**, in front of other levels. -/
theorem arranged_arranged_append (base extra : List Level) :
    arranged (arranged base ++ extra) = arranged (base ++ extra) := by
  have hbase : rosterOf (arranged base) = rosterOf base := by
    rw [rosterOf, keyed_arranged, Roster.insertAll_entries]
  rw [arranged, rosterOf_append, hbase, ← rosterOf_append, ← arranged]

/-- **What has been arranged stands for what it was made of**, behind other levels. -/
theorem arranged_append_arranged (base extra : List Level) :
    arranged (base ++ arranged extra) = arranged (base ++ extra) := by
  have hextra : ∀ id, (keyed (arranged extra)).reverse.lookup id =
      (keyed extra).reverse.lookup id := by
    intro id
    have hget : (rosterOf extra).get? id = (keyed extra).reverse.lookup id := by
      rw [rosterOf, Roster.get?_insertAll]
      exact Option.or_none
    rw [keyed_arranged, Roster.lookup_reverse ((rosterOf extra).ordered.imp UInt32.ne_of_lt),
      ← hget, Roster.get?]
  have hroster : rosterOf (base ++ arranged extra) = rosterOf (base ++ extra) := by
    refine Roster.ext_get? fun id => ?_
    rw [rosterOf_append, rosterOf_append, Roster.get?_insertAll, Roster.get?_insertAll, hextra]
  rw [arranged, hroster, ← arranged]

theorem arranged_append_self (base extra : List Level) :
    arranged (base ++ extra ++ extra) = arranged (base ++ extra) := by
  have hroster : rosterOf (base ++ extra ++ extra) = rosterOf (base ++ extra) := by
    refine Roster.ext_get? fun id => ?_
    rw [rosterOf_append (base ++ extra), rosterOf_append base, Roster.get?_insertAll,
      Roster.get?_insertAll, ← Option.or_assoc, Option.or_self]
  rw [arranged, hroster, ← arranged]

/-! ### Merging -/

/-- A catalog that is made of two lists of levels: it has all their ids, each once and in order, and
with each id the last of the levels that have it. -/
structure Merges (base extra catalog : List Level) : Prop where
  ascending : catalog.Pairwise fun a b => a.id < b.id
  ids : ∀ id, id ∈ catalog.map Level.id ↔ id ∈ base.map Level.id ∨ id ∈ extra.map Level.id
  last : ∀ level, level ∈ catalog ↔ IsLast (base ++ extra) level

/-- **Merging is arranging** the two lists as one. -/
theorem merge_eq_arranged (base extra : List Level) :
    merge base extra = arranged (base ++ extra) := by
  rw [arranged, rosterOf_append]
  rfl

theorem merges_merge (base extra : List Level) : Merges base extra (merge base extra) := by
  rw [merge_eq_arranged]
  refine ⟨pairwise_arranged _, fun id => ?_, fun level => mem_arranged_iff⟩
  rw [mem_ids_arranged_iff, List.map_append, List.mem_append]

/-- In a catalog that increases an id is that of one level. -/
theorem nodup_ids_of_ascending (h : levels.Pairwise fun a b => a.id < b.id) :
    (levels.map Level.id).Nodup :=
  List.pairwise_map.2 (h.imp UInt32.ne_of_lt)

/-- A level of the list behind is the one with its id, if that list has one of each. -/
theorem Merges.eq_of_mem {catalog : List Level} {own : Level} (h : Merges base extra catalog)
    (hd : (extra.map Level.id).Nodup) (hl : level ∈ catalog) (ho : own ∈ extra)
    (hid : own.id = level.id) : own = level :=
  (((isLast_iff_mem hd).2 ho).append_left base).unique ((h.last level).1 hl) hid

theorem merge_assoc (base extra more : List Level) :
    merge (merge base extra) more = merge base (merge extra more) := by
  simp only [merge_eq_arranged]
  rw [arranged_arranged_append, arranged_append_arranged, List.append_assoc]

theorem merge_nil_merge (base extra : List Level) :
    merge (merge base extra) [] = merge base extra := by
  rw [merge_eq_arranged, merge_eq_arranged, arranged_arranged_append, List.append_nil]

theorem nil_merge_merge (base extra : List Level) :
    merge [] (merge base extra) = merge base extra := by
  rw [merge_eq_arranged, merge_eq_arranged, arranged_append_arranged, List.nil_append]

theorem merge_merge_self (base extra : List Level) :
    merge (merge base extra) extra = merge base extra := by
  rw [merge_eq_arranged, merge_eq_arranged, arranged_arranged_append, arranged_append_self]

end Mazewalk.Catalog
