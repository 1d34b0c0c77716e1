import Mazewalk.Level

/-!
# Progress

Progress says for each level whether it is unlocked and how many stars its best run earned.
The first level of a catalog is unlocked from the start, and passing a level unlocks the one
that follows it.  Nothing ever locks a level again or takes a star away.
-/

namespace Mazewalk

/-- The standing of one level. -/
structure Standing where
  unlocked : Bool := false
  stars : UInt8 := 0
  deriving DecidableEq, Repr, Inhabited

/-- The standings of the levels that have one. -/
structure Progress where
  standings : Roster Standing
  deriving DecidableEq, Repr

namespace Progress

/-- The standing of a level.  Without an entry it is locked and has no stars. -/
def get (progress : Progress) (id : LevelId) : Standing :=
  (progress.standings.get? id).getD {}

def isUnlocked (progress : Progress) (id : LevelId) : Bool :=
  (progress.get id).unlocked

/-- The sum of the best stars over all levels. -/
def totalStars (progress : Progress) : Nat :=
  (progress.standings.values.map fun standing => standing.stars.toNat).foldr (· + ·) 0

def put (progress : Progress) (id : LevelId) (standing : Standing) : Progress :=
  ⟨progress.standings.insert id standing⟩

def unlock (progress : Progress) (id : LevelId) : Progress :=
  progress.put id { progress.get id with unlocked := true }

/-- Unlocks a level.  The answer says whether it was locked before. -/
def unlockAnnounced (progress : Progress) (id : LevelId) : Bool × Progress :=
  (!progress.isUnlocked id, progress.unlock id)

/-- The progress of a new player, with the first level unlocked. -/
def start (catalog : List Level) : Progress :=
  match catalog with
  | [] => ⟨.empty⟩
  | first :: _ => (⟨.empty⟩ : Progress).unlock first.id

/-- The level that follows the first one with an id. -/
def successor? (catalog : List Level) (id : LevelId) : Option LevelId :=
  match catalog.dropWhile fun level => level.id != id with
  | _ :: next :: _ => some next.id
  | _ => none

/-- Counts a passing run: its level is unlocked and keeps the better star count. -/
def credit (progress : Progress) (id : LevelId) (stars : UInt8) : Progress :=
  progress.put id ⟨true, max (progress.get id).stars stars⟩

/-- Records the outcome of a run.  The answer is the level that this unlocked, if any.  A run
that failed changes nothing. -/
def record (progress : Progress) (catalog : List Level) (outcome : Level.Outcome) :
    Option LevelId × Progress :=
  if outcome.success then
    let credited := progress.credit outcome.levelId outcome.stars
    match successor? catalog outcome.levelId with
    | some next =>
        (if credited.isUnlocked next then none else some next, credited.unlock next)
    | none => (none, credited)
  else (none, progress)

end Progress

end Mazewalk
