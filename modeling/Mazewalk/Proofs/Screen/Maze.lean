import Mazewalk.Proofs.Level.Validation
import Mazewalk.Proofs.Run.Items
import Mazewalk.Proofs.Run.Safety
import Mazewalk.Proofs.Session.Pacing
import Mazewalk.Proofs.World.Sight
import Mazewalk.Screen

/-!
# The maze on the screen

What is drawn of the maze is compared here with the maze of the level, which no run changes, and
with the steps that the walker has made since the run last began (`Session.made`).  The lines have
one symbol for each tile, with a blank behind it.  There is one arrow among them, and every other
symbol says what lies on its tile, an item or the bare ground (`Shows`).

Three things have to come together.  The lines are cut from the cells of the grid, and the symbol at
column `2 * x` of line `y` is that of the tile at `⟨x, y⟩` if the grid is well formed
(`cell?_mapLines`).  The grid that is drawn differs from that of the level by the items that have
been picked up, and the steps account for these (`shows_mapLines`).  And the world that is drawn is
that of the run, at whatever time the session is looked at (`Paced.made_world`).
-/

namespace Mazewalk

/-- A maze and another one on the same ground have tiles of one terrain at every position. -/
theorem Grid.SameGround.exists_tiles {g g' : Grid Tile} (h : g.SameGround g') (hg : g.WellFormed)
    {p : Position} (hp : g.Contains p) :
    ∃ tile tile', g.get? p = some tile ∧ g'.get? p = some tile' ∧
      tile'.terrain = tile.terrain := by
  have ht := get?_of_contains hp
  rw [Array.getElem?_eq_getElem (index_lt hg hp)] at ht
  have ht' := h.map_get? p
  rw [ht, Option.map_some, Option.map_eq_some_iff] at ht'
  obtain ⟨tile', ht', hterrain⟩ := ht'
  exact ⟨_, tile', ht, ht', hterrain⟩

/-! ### Lines with blanks -/

namespace Screen

theorem length_flatMap_pair (row : List Cell) (filler : Cell) :
    (row.flatMap fun cell => [cell, filler]).length = 2 * row.length := by
  induction row with
  | nil => rfl
  | cons cell row ih =>
    rw [List.flatMap_cons, List.length_append, ih, List.length_cons, List.length_cons,
      List.length_cons, List.length_nil]
    omega

theorem getElem?_flatMap_pair (row : List Cell) (filler : Cell) (x : Nat) :
    (row.flatMap fun cell => [cell, filler])[2 * x]? = row[x]? ∧
      (row.flatMap fun cell => [cell, filler])[2 * x + 1]? = row[x]?.map fun _ => filler := by
  induction row generalizing x with
  | nil => exact ⟨rfl, rfl⟩
  | cons cell row ih =>
    cases x with
    | zero => exact ⟨rfl, rfl⟩
    | succ x => exact ih x

/-- The cell at a row and a column of some lines. -/
def cell? (lines : List Line) (row column : Nat) : Option Cell :=
  lines[row]?.bind fun cells => cells[column]?

section

variable {world : World}

theorem getElem?_mapLines (world : World) (y : Nat) :
    (mapLines world)[y]? = world.grid.rows[y]?.map fun row =>
      (row.zipIdx.map fun (tile, x) => cellAt world.walker ⟨x, y⟩ tile).flatMap
        fun cell => [cell, blank] := by
  rw [mapLines, mapCells, List.getElem?_map, List.getElem?_map, List.getElem?_zipIdx,
    Option.map_map, Option.map_map, Nat.zero_add]
  rfl

/-- **The tile at a position** is drawn at twice its column, and a blank behind it. -/
theorem cell?_mapLines (hg : world.grid.WellFormed) (x y : Nat) :
    cell? (mapLines world) y (2 * x) =
        (world.grid.get? ⟨x, y⟩).map (cellAt world.walker ⟨x, y⟩) ∧
      cell? (mapLines world) y (2 * x + 1) = (world.grid.get? ⟨x, y⟩).map fun _ => blank := by
  rw [cell?, cell?, getElem?_mapLines, Grid.get?_ofRows (Grid.ofRows_rows hg)]
  cases world.grid.rows[y]? with
  | none => exact ⟨rfl, rfl⟩
  | some row =>
    have hrow : (row.zipIdx.map fun (tile, x) => cellAt world.walker ⟨x, y⟩ tile)[x]? =
        row[x]?.map (cellAt world.walker ⟨x, y⟩) := by
      rw [List.getElem?_map, List.getElem?_zipIdx, Option.map_map, Nat.zero_add]
      rfl
    obtain ⟨heven, hodd⟩ := getElem?_flatMap_pair
      (row.zipIdx.map fun (tile, x) => cellAt world.walker ⟨x, y⟩ tile) blank x
    rw [hrow] at heven hodd
    refine ⟨heven, ?_⟩
    rw [Option.map_map] at hodd
    exact hodd

/-- The lines are as many as the rows of the maze, and twice as long. -/
theorem size_mapLines (hg : world.grid.WellFormed) :
    (mapLines world).length = world.grid.height ∧
      ∀ line ∈ mapLines world, line.length = 2 * world.grid.width := by
  constructor
  · rw [mapLines, mapCells, List.length_map, List.length_map, List.length_zipIdx,
      Grid.length_rows hg]
  · intro line hl
    obtain ⟨y, hy⟩ := List.mem_iff_getElem?.1 hl
    rw [getElem?_mapLines, Option.map_eq_some_iff] at hy
    obtain ⟨row, hr, rfl⟩ := hy
    rw [length_flatMap_pair, List.length_map, List.length_zipIdx,
      Grid.length_of_mem_rows hg row (List.mem_of_getElem? hr)]

/-! ### What is shown -/

/-- The character is an arrow that points this way. -/
inductive Points : Char → Heading → Prop
  | up : Points '^' .up
  | right : Points '>' .right
  | down : Points 'v' .down
  | left : Points '<' .left

/-- The symbol of the bare ground. -/
def groundSymbol : Terrain → Char
  | .wall => '#'
  | .goal => 'G'
  | .start => 's'
  | .path => '.'

/-- The lines show a maze with a walker, and with the items that some steps have left in it. -/
structure Shows (maze : Grid Tile) (es : List Step) (walker : Walker) (lines : List Line) :
    Prop where
  height : lines.length = maze.height
  width : ∀ line ∈ lines, line.length = 2 * maze.width
  /-- Behind the symbol of a tile there is a blank. -/
  gap : ∀ x y, maze.Contains ⟨x, y⟩ → cell? lines y (2 * x + 1) = some blank
  /-- At the position of the walker there is an arrow that points the way it faces. -/
  arrow : ∃ cell, cell? lines walker.position.y (2 * walker.position.x) = some cell ∧
    Points cell.char walker.heading
  /-- There is no other arrow. -/
  only : ∀ row column cell heading, cell? lines row column = some cell →
    Points cell.char heading → row = walker.position.y ∧ column = 2 * walker.position.x
  /-- The walker stands on no wall. -/
  passable : maze.passable walker.position = true
  /-- Elsewhere there is an item if the maze has one that no step has picked up, and the bare
  ground if not. -/
  symbol : ∀ p, maze.Contains p → p ≠ walker.position → ∃ tile cell, maze.get? p = some tile ∧
    cell? lines p.y (2 * p.x) = some cell ∧
    (cell.char = '*' ↔ tile.item = true ∧ ∀ e ∈ es, ¬ e.PicksAt p) ∧
    (cell.char ≠ '*' → cell.char = groundSymbol tile.terrain)

theorem char_tileCell (tile : Tile) :
    (tileCell tile).char = if tile.item then '*' else groundSymbol tile.terrain := by
  unfold tileCell
  split
  · rfl
  · cases tile.terrain <;> rfl

theorem groundSymbol_ne_star (terrain : Terrain) : groundSymbol terrain ≠ '*' := by
  cases terrain <;> decide

theorem points_arrow (heading : Heading) : Points heading.arrow heading := by
  cases heading <;> constructor

/-- No tile looks like a walker. -/
theorem not_points_tileCell (tile : Tile) (heading : Heading) :
    ¬ Points (tileCell tile).char heading := by
  intro h
  rw [char_tileCell] at h
  split at h
  · cases h
  · cases ht : tile.terrain <;> rw [ht] at h <;> cases h

/-- An arrow is drawn where the walker is, and nowhere else. -/
theorem eq_of_points (hg : world.grid.WellFormed) {row column : Nat} {cell : Cell}
    {heading : Heading} (hc : cell? (mapLines world) row column = some cell)
    (ha : Points cell.char heading) :
    row = world.walker.position.y ∧ column = 2 * world.walker.position.x := by
  obtain ⟨heven, hodd⟩ := cell?_mapLines hg (column / 2) row
  obtain hcolumn | hcolumn : column = 2 * (column / 2) ∨ column = 2 * (column / 2) + 1 := by omega
  · rw [hcolumn, heven, Option.map_eq_some_iff] at hc
    obtain ⟨tile, -, rfl⟩ := hc
    unfold cellAt at ha
    split at ha
    · rename_i hp
      rw [hp]
      exact ⟨rfl, hcolumn⟩
    · exact absurd ha (not_points_tileCell tile heading)
  · rw [hcolumn, hodd, Option.map_eq_some_iff] at hc
    obtain ⟨tile, -, rfl⟩ := hc
    cases ha

/-- **The lines of a world** show the maze in which it began, if the steps since then account for
what has become of the items. -/
theorem shows_mapLines {first : World} {es : List Step} (hg : first.grid.WellFormed)
    (ha : first.Accounts es world)
    (hp : first.grid.passable world.walker.position = true) :
    Shows first.grid es world.walker (mapLines world) := by
  have hw := ha.ground.wellFormed hg
  obtain ⟨hheight, hwidth⟩ := size_mapLines hw
  rw [ha.ground.height] at hheight
  rw [ha.ground.width] at hwidth
  refine ⟨hheight, hwidth, fun x y hc => ?_, ?_, fun _ _ _ _ => eq_of_points hw, hp,
    fun p hc hne => ?_⟩
  · obtain ⟨tile, drawn, -, hd, -⟩ := ha.ground.exists_tiles hg hc
    rw [(cell?_mapLines hw x y).2, hd, Option.map_some]
  · obtain ⟨tile, drawn, -, hd, -⟩ := ha.ground.exists_tiles hg (Grid.contains_of_passable hp)
    refine ⟨walkerCell world.walker, ?_, points_arrow _⟩
    rw [(cell?_mapLines hw _ _).1, hd, Option.map_some, cellAt, if_pos rfl]
  · obtain ⟨tile, drawn, ht, hd, hterrain⟩ := ha.ground.exists_tiles hg hc
    have hitem := ha.items hg.separates p
    rw [Grid.hasItem_eq_item ht, Grid.hasItem_eq_item hd] at hitem
    refine ⟨tile, tileCell drawn, ht, ?_, ?_, ?_⟩
    · rw [(cell?_mapLines hw _ _).1, hd, Option.map_some, cellAt, if_neg (Ne.symm hne)]
    · rw [← hitem, char_tileCell]
      split
      · rename_i h
        exact iff_of_true rfl h
      · rename_i h
        exact iff_of_false (groundSymbol_ne_star _) h
    · rw [char_tileCell, ← hterrain]
      split
      · exact fun h => absurd rfl h
      · exact fun _ => rfl

end

end Screen

/-! ### The run that is shown -/

namespace Session

/-- The steps of the current run so far, also when it has been scored. -/
def made (s : Session) : List Step :=
  match s.run? with
  | some run => run.trace.toList
  | none => (s.outcome?.map fun outcome => outcome.trace.toList).getD []

theorem trace_runAt (s : Session) (n : Nat) :
    (s.runAt n).trace.toList = (s.level.play s.program).trace.toList.take n :=
  Run.trace_advance_start s.program s.level.world n

/-- **What has been made and what is drawn** belong to one moment of the run, which is that of the
last tick as long as there are actions left. -/
theorem Paced.made_world {s : Session} {k : Nat} (h : s.Paced k) :
    s.made = (s.runAt (min k s.steps)).trace.toList ∧
      s.world = (s.runAt (min k s.steps)).world := by
  obtain ⟨hk, hr, -, hw⟩ | ⟨hk, hr, ho, hw⟩ := h
  · rw [made, hr, Nat.min_eq_left hk]
    exact ⟨rfl, hw⟩
  · rw [made, hr, ho, Nat.min_eq_right (Nat.le_of_lt hk), trace_runAt]
    exact ⟨(List.take_of_length_le (Nat.le_refl _)).symm, hw⟩

/-- As many steps have been made as there have been ticks, until the play is over. -/
theorem Paced.made_eq_take {s : Session} {k : Nat} (h : s.Paced k) :
    s.made = (s.level.play s.program).trace.toList.take k := by
  rw [h.made_world.1, trace_runAt]
  exact List.take_eq_take_min.symm

/-- The walker of the last step that has been made is the one that is drawn. -/
theorem Paced.getLast?_made {s : Session} {k : Nat} (h : s.Paced k) :
    (s.level.start :: s.made.map Step.walker).getLast? = some s.world.walker := by
  obtain ⟨hm, hw⟩ := h.made_world
  have hlist : s.level.start :: s.made.map Step.walker =
      (s.level.start :: (s.level.play s.program).trace.toList.map Step.walker).take
        (min k s.steps + 1) := by
    rw [hm, trace_runAt, List.take_succ_cons, List.map_take]
  rw [hlist, List.getLast?_take, if_neg (Nat.succ_ne_zero _), Nat.add_sub_cancel,
    walker_runAt (Nat.min_le_right _ _), hw]
  rfl

/-- What a session shows of the maze `k` ticks after it began to play a program on a level. -/
structure ShowsMaze (s : Session) (level : Level) (program : Program) (k : Nat) : Prop where
  /-- The steps made are those of the play, one for each tick. -/
  made : s.made = (level.play program).trace.toList.take k
  /-- The walker drawn is that of the last of these steps, or the one at the start. -/
  walker : (level.start :: s.made.map Step.walker).getLast? = some s.world.walker
  lines : Screen.Shows level.grid s.made s.world.walker (Screen.mapLines s.world)

theorem Paced.showsMaze {s : Session} {k : Nat} (h : s.Paced k) (hg : s.level.grid.WellFormed) :
    s.ShowsMaze s.level s.program k := by
  refine ⟨h.made_eq_take, h.getLast?_made, ?_⟩
  obtain ⟨hm, hw⟩ := h.made_world
  have ha := Run.accounts_advance s.program s.level.world (Nat.zero_le (min k s.steps))
  have hp := ((Run.recordsFrom_start s.program s.level.world).advance (min k s.steps)).safe
    s.level.passable_start
  rw [hm, hw]
  exact Screen.shows_mapLines hg ha hp.first

end Session

/-- **The screen shows the true maze.**  Whatever happens after the start of a session on levels
that were read from files, it is at one of these levels, and has made as many steps of the play
there as there have been ticks.  What is drawn shows the maze of that level, the items that the
steps have not picked up, and the walker of the last step, or the one at the start. -/
theorem showsMaze_after (levels : List Level) (first : Nat) (program : Program)
    (h : first < levels.length)
    (hf : ∀ level ∈ levels, ∃ file, Level.ofFile file = .ok level) (events : List Event) :
    ∃ level, levels[((Session.start levels first program h).after events).current]? = some level ∧
      ((Session.start levels first program h).after events).ShowsMaze level program
        ((Session.start levels first program h).ticks events) := by
  have hp := (Session.paced_restart _ : (Session.start levels first program h).Paced 0).after events
  have hc := Session.getElem?_current ((Session.start levels first program h).after events)
  rw [Session.levels_after] at hc
  obtain ⟨file, hfile⟩ := hf _ (List.mem_of_getElem? hc)
  have hs := hp.showsMaze (Level.describes_of_ofFile hfile).wellFormed
  rw [Session.program_after] at hs
  exact ⟨_, hc, hs⟩

/-- Goes around the wall and picks up the item behind it. -/
def fetchItem : Program :=
  [.act .forward, .act .turnLeft, .act .forward, .act .pickup, .act .forward]

/-- The run is begun twice, and ticked until it has been scored. -/
def fetchEvents : List Event :=
  [.tick, .restart, .tick, .tick, .tick, .tick, .tick, .tick, .next]

/-- A session in the level of `Level.sketchFile`. -/
def Session.fetching : Session :=
  start [Level.sketch] 0 fetchItem (by decide)

/-- The item behind the wall has been picked up, and the other one is still there. -/
theorem showsMaze_after_fetching :
    0 < [Level.sketch].length ∧
      (∀ level ∈ [Level.sketch], ∃ file, Level.ofFile file = .ok level) ∧
      (∃ level, [Level.sketch][(Session.fetching.after fetchEvents).current]? = some level ∧
        (Session.fetching.after fetchEvents).ShowsMaze level fetchItem
          (Session.fetching.ticks fetchEvents)) ∧
      (Screen.mapLines (Session.fetching.after fetchEvents).world).map
          (fun line => String.ofList (line.map Screen.Cell.char)) = ["s # * ", ". . > "] := by
  have hf : ∀ level ∈ [Level.sketch], ∃ file, Level.ofFile file = .ok level :=
    List.forall_mem_singleton.2 ⟨Level.sketchFile, by decide⟩
  exact ⟨by decide, hf, showsMaze_after [Level.sketch] 0 fetchItem (by decide) hf fetchEvents,
    by decide +kernel⟩

end Mazewalk
