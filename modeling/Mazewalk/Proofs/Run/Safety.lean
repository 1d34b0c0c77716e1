import Mazewalk.Proofs.Run.Checks
import Mazewalk.Proofs.Run.Replay
import Mazewalk.Proofs.World.Paths

/-!
# Walkers stay off the walls

A walker that starts on a cell it can stand on never stands on a wall or outside the maze, whatever
its program and however far the run is stepped (`Run.safe_advance`).  The maze changes while the
run goes on, since items are picked up, but its walls do not, and so the same holds in the maze of
the beginning.  No cell is jumped over either: from one step of the trace to the next the walker
stays where it is or goes to the cell it faces, and only a step forward does that.

One action does no more than this (`World.moves_act`), and the trace is the record of the actions,
so what is left is an induction on the record.  Nothing here asks that the grid have all its
cells: where a cell is missing nobody can stand.  Nor does a position need a cell of its own: those
that share one are all passable or none of them is, and this does not change.
-/

namespace Mazewalk

/-- The step leaves a walker where it was, or is a step forward to the cell it faced. -/
def Step.Moves (g : Grid Tile) (before : Walker) (e : Step) : Prop :=
  e.walker.position = before.position ∨
    e.action = .forward ∧ e.walker.heading = before.heading ∧
      g.neighbor? before.position before.heading = some e.walker.position

namespace World

theorem moves_act (w : World) {e : Step} (he : e.walker = (w.act e.action).walker) :
    e.Moves w.grid w.walker := by
  obtain h | ⟨ha, hn⟩ := w.position_act e.action
  · exact Or.inl (by rw [he, h])
  · refine Or.inr ⟨ha, ?_, ?_⟩
    · rw [he, ha, heading_act_forward]
    · rw [he]
      exact (Option.filter_eq_some_iff.1 hn).1

/-- **Along a record** every step moves the walker that the one before it shows. -/
theorem Records.moves {es : List Step} {w : World} (h : w.Records es) {k : Nat} {before : Walker}
    {e : Step} (hb : (w.walker :: es.map Step.walker)[k]? = some before) (he : es[k]? = some e) :
    e.Moves w.grid before := by
  induction es generalizing w k with
  | nil => cases he
  | cons d es ih =>
    obtain ⟨hd, hr⟩ := h
    cases k with
    | zero =>
      obtain rfl : w.walker = before := Option.some.inj hb
      obtain rfl : d = e := Option.some.inj he
      exact w.moves_act hd
    | succ k =>
      rw [List.map_cons, List.getElem?_cons_succ, hd] at hb
      have hm := ih hr hb he
      unfold Step.Moves at hm ⊢
      rwa [neighbor?_act] at hm

end World

namespace Run

/-- The walker of a run stands on no wall, of the maze as it is and of the maze `w` in which the
run began, and the trace has led it there cell by cell. -/
structure Safe (w : World) (r : Run) : Prop where
  now : r.world.grid.passable r.world.walker.position = true
  first : w.grid.passable r.world.walker.position = true
  moves : ∀ (k : Nat) (before : Walker) (e : Step),
    (w.walker :: r.trace.toList.map Step.walker)[k]? = some before →
      r.trace[k]? = some e → e.Moves w.grid before

theorem RecordsFrom.safe {w : World} {r : Run} (h : r.RecordsFrom w)
    (hp : w.grid.passable w.walker.position = true) : r.Safe w := by
  have hn := World.passable_position_actAll (r.trace.toList.map Step.action) hp
  rw [← h.world] at hn
  have hf := hn
  rw [h.world, World.passable_actAll, ← h.world] at hf
  refine ⟨hn, hf, fun k before e hk he => h.records.moves hk ?_⟩
  rwa [Array.getElem?_toList]

/-- **A walker never comes to stand on a wall or outside the maze**, and never jumps, with checks
or without. -/
theorem safe_advance (program : Program) (world : World)
    (h : world.grid.passable world.walker.position = true) (n : Nat) :
    ((Run.start program world).advance n).Safe world ∧
      ∀ r, (Run.start program world).checkedAdvance n = .ok r → r.Safe world := by
  have hs := ((recordsFrom_start program world).advance n).safe h
  refine ⟨hs, fun r hr => ?_⟩
  rw [← advance_of_checked hr]
  exact hs

/-- A walker in a rectangle of three huge rows, of which the first two cells are all there is. -/
def gallery : World :=
  ⟨⟨⟨1, 0⟩, .down, false⟩, ⟨wordSize - 1, 3, #[⟨.path, true⟩, ⟨.start, false⟩]⟩⟩

/-- The program goes down, takes what is there, and goes on. -/
def descent : Program :=
  [.act .forward, .act .pickup, .act .forward]

/-- The position below the walker has the number of a word too many and so shares the first cell.
Without checks the walker goes there, takes the item of that cell and finds the way on barred by a
missing cell; with checks the first step breaks off. -/
theorem safe_advance_gallery :
    gallery.grid.passable gallery.walker.position = true ∧
      ((start descent gallery).advance 3).Safe gallery ∧
      ((start descent gallery).advance 3).world.walker = ⟨⟨1, 1⟩, .down, true⟩ ∧
      (start descent gallery).checkedStep = .error .sum ∧
      ∃ r, (start descent gallery).checkedAdvance 0 = .ok r ∧ r.Safe gallery := by
  have h : gallery.grid.passable gallery.walker.position = true := by decide
  have hstep : (start descent gallery).checkedStep = .error .sum := by
    rw [checkedStep_of_act rfl]
    rfl
  exact ⟨h, (safe_advance descent gallery h 3).1, by decide +kernel, hstep, _, rfl,
    (safe_advance descent gallery h 0).2 _ rfl⟩

end Run

end Mazewalk
