/-!
# Rosters

A roster keeps one value for each of some level ids, in increasing order of the ids.  Catalogs
and progress are rosters.  Inserting replaces what was there, so of several values for one id
the last one stays.
-/

namespace Mazewalk

/-- The number by which a level is known. -/
abbrev LevelId := UInt32

namespace Roster

/-- Puts a value into a list that is ordered by id. -/
def put {α : Type} (id : LevelId) (value : α) : List (LevelId × α) → List (LevelId × α)
  | [] => [(id, value)]
  | (other, held) :: rest =>
      if id < other then (id, value) :: (other, held) :: rest
      else if id = other then (id, value) :: rest
      else (other, held) :: put id value rest

theorem mem_put {α : Type} {id : LevelId} {value : α} {entries : List (LevelId × α)}
    {entry : LevelId × α} (h : entry ∈ put id value entries) :
    entry = (id, value) ∨ entry ∈ entries := by
  induction entries with
  | nil => simpa [put] using h
  | cons head rest ih => grind [put]

theorem pairwise_put {α : Type} (id : LevelId) (value : α) {entries : List (LevelId × α)}
    (h : entries.Pairwise (·.1 < ·.1)) : (put id value entries).Pairwise (·.1 < ·.1) := by
  induction entries with
  | nil => simp [put]
  | cons head rest ih =>
      obtain ⟨other, held⟩ := head
      rw [List.pairwise_cons] at h
      unfold put
      split
      · rename_i less
        refine List.pairwise_cons.2 ⟨fun entry mem => ?_, List.pairwise_cons.2 h⟩
        rcases List.mem_cons.1 mem with rfl | mem
        · exact less
        · exact UInt32.lt_trans less (h.1 entry mem)
      · split
        · rename_i same
          subst same
          exact List.pairwise_cons.2 h
        · rename_i notLess different
          refine List.pairwise_cons.2 ⟨fun entry mem => ?_, ih h.2⟩
          rcases mem_put mem with rfl | mem
          · exact UInt32.lt_of_le_of_ne (UInt32.not_lt.1 notLess) (Ne.symm different)
          · exact h.1 entry mem

end Roster

/-- One value for each of some level ids, in increasing order of the ids. -/
structure Roster (α : Type) where
  entries : List (LevelId × α)
  ordered : entries.Pairwise (·.1 < ·.1)
  deriving DecidableEq, Repr

namespace Roster

variable {α : Type}

def empty : Roster α := ⟨[], .nil⟩

def get? (roster : Roster α) (id : LevelId) : Option α :=
  roster.entries.lookup id

/-- The roster with a value for an id, in place of the one held before. -/
def insert (roster : Roster α) (id : LevelId) (value : α) : Roster α :=
  ⟨put id value roster.entries, pairwise_put id value roster.ordered⟩

/-- Inserts a list of entries, the first one first. -/
def insertAll (roster : Roster α) (entries : List (LevelId × α)) : Roster α :=
  entries.foldl (fun roster entry => roster.insert entry.1 entry.2) roster

/-- The values in order of their ids. -/
def values (roster : Roster α) : List α :=
  roster.entries.map Prod.snd

end Roster

end Mazewalk
