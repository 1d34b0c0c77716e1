import Mathlib.Logic.Function.Iterate
import Mathlib.Logic.Relation
import Mazewalk.Proofs.World.Actions

/-!
# Paths through a maze

Two cells are linked when they are neighbours, above or beside each other, and neither is a wall;
they are connected when a chain of links leads from one to the other.  Both say nothing of
walkers.  This file joins them to actions: an action follows a link or stays (`linked_act`), so
actions never leave the connected part of the maze (`connected_actAll`), and along every chain
there are actions that take the walker to its end and change nothing else but its heading
(`exists_actAll_of_connected`).
-/

namespace Mazewalk

/-- The two cells are above or beside each other. -/
def Position.Adjacent (p q : Position) : Prop :=
  (p.x = q.x ∧ (p.y + 1 = q.y ∨ q.y + 1 = p.y)) ∨ (p.y = q.y ∧ (p.x + 1 = q.x ∨ q.x + 1 = p.x))

instance (p q : Position) : Decidable (p.Adjacent q) :=
  inferInstanceAs (Decidable (_ ∨ _))

theorem Position.Adjacent.symm {p q : Position} (h : p.Adjacent q) : q.Adjacent p := by
  unfold Adjacent at *
  omega

/-- Where a step leads, without subtractions. -/
theorem Position.next?_eq_some_iff {p q : Position} {h : Heading} :
    p.next? h = some q ↔
      match h with
      | .up => q.x = p.x ∧ q.y + 1 = p.y
      | .right => q.x = p.x + 1 ∧ q.y = p.y
      | .down => q.x = p.x ∧ q.y = p.y + 1
      | .left => q.x + 1 = p.x ∧ q.y = p.y := by
  obtain ⟨x, y⟩ := p
  obtain ⟨u, v⟩ := q
  cases h <;>
    simp only [next?, Option.ite_none_left_eq_some, Option.some.injEq, mk.injEq] <;> omega

/-- The adjacent cells are those one step away. -/
theorem Position.adjacent_iff {p q : Position} : p.Adjacent q ↔ ∃ h, p.next? h = some q := by
  simp only [Adjacent, next?_eq_some_iff]
  constructor
  · rintro (⟨hx, hy | hy⟩ | ⟨hy, hx | hx⟩)
    · exact ⟨.down, hx.symm, hy.symm⟩
    · exact ⟨.up, hx.symm, hy⟩
    · exact ⟨.right, hx.symm, hy.symm⟩
    · exact ⟨.left, hx, hy.symm⟩
  · rintro ⟨h, hn⟩
    cases h <;> simp only at hn <;> omega

namespace Grid

/-- The two cells are adjacent and neither is a wall. -/
def Linked (g : Grid Tile) (p q : Position) : Prop :=
  p.Adjacent q ∧ g.passable p = true ∧ g.passable q = true

instance (g : Grid Tile) (p q : Position) : Decidable (g.Linked p q) :=
  inferInstanceAs (Decidable (_ ∧ _))

/-- A chain of links leads from one cell to the other. -/
def Connected (g : Grid Tile) : Position → Position → Prop :=
  Relation.ReflTransGen g.Linked

variable {g g' : Grid Tile}

theorem Linked.symm {p q : Position} (h : g.Linked p q) : g.Linked q p :=
  ⟨h.1.symm, h.2.2, h.2.1⟩

theorem Connected.symm {p q : Position} (h : g.Connected p q) : g.Connected q p := by
  induction h with
  | refl => exact .refl
  | tail _ hl ih => exact .head hl.symm ih

theorem Connected.trans {p q r : Position} (h : g.Connected p q) (h' : g.Connected q r) :
    g.Connected p r :=
  Relation.ReflTransGen.trans h h'

theorem Connected.of_passable_eq {p q : Position} (h : g.Connected p q)
    (he : ∀ r, g'.passable r = g.passable r) : g'.Connected p q := by
  have hle : g.Linked ≤ g'.Linked := by
    intro a b hl
    exact ⟨hl.1, by rw [he, hl.2.1], by rw [he, hl.2.2]⟩
  exact Relation.ReflTransGen.mono hle _ _ h

theorem neighbor?_eq_some_iff {α : Type} {g : Grid α} {p q : Position} {h : Heading} :
    g.neighbor? p h = some q ↔ p.next? h = some q ∧ g.Contains q := by
  rw [neighbor?, Option.filter_eq_some_iff, decide_eq_true_eq]

theorem contains_of_passable {p : Position} (h : g.passable p = true) : g.Contains p := by
  refine Decidable.byContradiction fun hp => ?_
  rw [passable, get?, if_neg hp] at h
  cases h

end Grid

namespace World

theorem wayAhead?_eq_some_iff {w : World} {q : Position} :
    w.wayAhead? = some q ↔
      w.walker.position.next? w.walker.heading = some q ∧ w.grid.passable q = true := by
  rw [wayAhead?, Grid.neighbor?, Option.filter_eq_some_iff, Option.filter_eq_some_iff]
  constructor
  · rintro ⟨⟨hn, -⟩, hp⟩
    exact ⟨hn, hp⟩
  · rintro ⟨hn, hp⟩
    exact ⟨⟨hn, by simpa using Grid.contains_of_passable hp⟩, hp⟩

/-! ### Actions stay on the paths -/

/-- An action follows a link or leaves the walker where it is. -/
theorem linked_act (w : World) (a : Action) (hp : w.grid.passable w.walker.position = true) :
    (w.act a).walker.position = w.walker.position ∨
      w.grid.Linked w.walker.position (w.act a).walker.position := by
  obtain h | ⟨-, h⟩ := w.position_act a
  · exact Or.inl h
  · obtain ⟨hn, hq⟩ := wayAhead?_eq_some_iff.1 h
    exact Or.inr ⟨Position.adjacent_iff.2 ⟨_, hn⟩, hp, hq⟩

theorem passable_position_act (w : World) (a : Action)
    (hp : w.grid.passable w.walker.position = true) :
    (w.act a).grid.passable (w.act a).walker.position = true := by
  rw [passable_act]
  obtain h | h := w.linked_act a hp
  · rw [h, hp]
  · exact h.2.2

theorem passable_actAll (as : List Action) {w : World} (q : Position) :
    (w.actAll as).grid.passable q = w.grid.passable q := by
  induction as generalizing w with
  | nil => rfl
  | cons a as ih => rw [actAll_cons, ih, passable_act]

theorem passable_position_actAll (as : List Action) {w : World}
    (hp : w.grid.passable w.walker.position = true) :
    (w.actAll as).grid.passable (w.actAll as).walker.position = true := by
  induction as generalizing w with
  | nil => exact hp
  | cons a as ih => exact ih (w.passable_position_act a hp)

/-- Connected to where the walker is after an action means connected to where it was. -/
theorem connected_of_act {w : World} {a : Action} {p : Position}
    (hp : w.grid.passable w.walker.position = true)
    (h : (w.act a).grid.Connected (w.act a).walker.position p) :
    w.grid.Connected w.walker.position p := by
  have h' : w.grid.Connected (w.act a).walker.position p :=
    h.of_passable_eq fun q => (w.passable_act a q).symm
  obtain he | hl := w.linked_act a hp
  · rwa [he] at h'
  · exact .head hl h'

/-- **Actions never leave the connected part of the maze.** -/
theorem connected_actAll (as : List Action) {w : World}
    (hp : w.grid.passable w.walker.position = true) :
    w.grid.Connected w.walker.position (w.actAll as).walker.position := by
  induction as generalizing w with
  | nil => exact .refl
  | cons a as ih => exact connected_of_act hp (ih (w.passable_position_act a hp))

/-- **What a walker carries it had before or has found on the way**, in the connected part of the
maze. -/
theorem carrying_actAll (as : List Action) {w : World}
    (hp : w.grid.passable w.walker.position = true)
    (hc : (w.actAll as).walker.carrying = true) :
    w.walker.carrying = true ∨
      ∃ p, w.grid.Connected w.walker.position p ∧ w.grid.hasItem p = true := by
  induction as generalizing w with
  | nil => exact Or.inl hc
  | cons a as ih =>
    obtain h | ⟨p, hpath, hi⟩ := ih (w.passable_position_act a hp) hc
    · rw [carrying_act, Bool.or_eq_true, Bool.and_eq_true] at h
      obtain h | ⟨-, hi⟩ := h
      · exact Or.inl h
      · exact Or.inr ⟨_, .refl, hi⟩
    · exact Or.inr ⟨p, connected_of_act hp hpath, w.hasItem_of_act a hi⟩

/-! ### Actions that follow a path -/

/-- The world with its walker put down somewhere else. -/
def place (w : World) (p : Position) (h : Heading) : World :=
  { w with walker := { w.walker with position := p, heading := h } }

theorem actAll_turnRight (w : World) (n : Nat) :
    w.actAll (List.replicate n .turnRight) =
      w.place w.walker.position (Heading.turnRight^[n] w.walker.heading) := by
  induction n generalizing w with
  | zero => rfl
  | succ n ih =>
    rw [List.replicate_succ, actAll_cons, ih]
    rfl

theorem exists_turnRight (h h' : Heading) : ∃ n, Heading.turnRight^[n] h = h' := by
  have : ∃ n < 4, Heading.turnRight^[n] h = h' := by
    cases h <;> cases h' <;> decide
  obtain ⟨n, -, hn⟩ := this
  exact ⟨n, hn⟩

/-- Along a link there are actions, some turns and a step. -/
theorem exists_actAll_of_linked {w : World} {q : Position}
    (h : w.grid.Linked w.walker.position q) :
    ∃ actions heading, w.actAll actions = w.place q heading := by
  obtain ⟨hq, -, hp⟩ := h
  obtain ⟨heading, hn⟩ := Position.adjacent_iff.1 hq
  obtain ⟨n, ht⟩ := exists_turnRight w.walker.heading heading
  have hw : (w.place w.walker.position heading).wayAhead? = some q :=
    wayAhead?_eq_some_iff.2 ⟨hn, hp⟩
  refine ⟨List.replicate n .turnRight ++ [.forward], heading, ?_⟩
  rw [actAll_append, actAll_turnRight, ht, actAll_cons, actAll_nil, act_forward, hw]
  rfl

/-- **Along a chain of links there are actions** that take the walker to its end and change
nothing else but its heading. -/
theorem exists_actAll_of_connected {w : World} {q : Position}
    (h : w.grid.Connected w.walker.position q) :
    ∃ actions heading, w.actAll actions = w.place q heading := by
  induction h with
  | refl => exact ⟨[], w.walker.heading, rfl⟩
  | @tail p q _ hl ih =>
    obtain ⟨as, heading, has⟩ := ih
    have hl' : (w.actAll as).grid.Linked (w.actAll as).walker.position q := by
      rw [has]
      exact hl
    obtain ⟨bs, heading', hbs⟩ := exists_actAll_of_linked hl'
    refine ⟨as ++ bs, heading', ?_⟩
    rw [actAll_append, hbs, has]
    rfl

/-- **An item on the way** can be fetched and brought along. -/
theorem exists_actAll_fetch {w : World} {p q : Position}
    (hp : w.grid.Connected w.walker.position p) (hi : w.grid.hasItem p = true)
    (hq : w.grid.Connected w.walker.position q) :
    ∃ actions, (w.actAll actions).walker.position = q ∧
      (w.actAll actions).walker.carrying = true := by
  obtain ⟨as, heading, has⟩ := exists_actAll_of_connected hp
  have hv : ((w.place p heading).act .pickup).walker.position = p :=
    position_act_pickup (w.place p heading)
  have hc : ((w.place p heading).act .pickup).walker.carrying = true := by
    have hi' : (w.place p heading).grid.hasItem (w.place p heading).walker.position = true := hi
    rw [carrying_act, hi']
    simp
  have hl : ((w.place p heading).act .pickup).grid.Connected
      ((w.place p heading).act .pickup).walker.position q := by
    rw [hv]
    exact (hp.symm.trans hq).of_passable_eq fun r => passable_act _ _ r
  obtain ⟨bs, heading', hbs⟩ := exists_actAll_of_connected hl
  refine ⟨as ++ .pickup :: bs, ?_⟩
  rw [actAll_append, has, actAll_cons, hbs]
  exact ⟨rfl, hc⟩

end World

end Mazewalk
