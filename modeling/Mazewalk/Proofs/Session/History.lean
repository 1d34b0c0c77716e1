import Mazewalk.Session

/-!
# Histories of a session

A session is driven from outside: it is told to tick, to restart, to go on to the next level or
to quit, at any time and in any order.  An `Event` is one such call, `Session.after` is the
session after a history of them, and `Session.ticks` counts the ticks of a history since a run
last began.  A run begins with a restart, and with a `next` that really goes on to another level.

No event changes the levels or the program (`levels_after`, `program_after`).
-/

namespace Mazewalk

/-- What a session can be told. -/
inductive Event where
  | restart
  | tick
  | next
  | quit
  deriving DecidableEq, Repr

namespace Session

/-- The session after one event. -/
def apply (s : Session) : Event → Session
  | .restart => s.restart
  | .tick => s.tick
  | .next => s.next
  | .quit => s.quit

/-- The session after some events, the first one first. -/
def after (s : Session) (events : List Event) : Session :=
  events.foldl apply s

@[simp] theorem after_nil (s : Session) : s.after [] = s := rfl

@[simp] theorem after_cons (s : Session) (e : Event) (events : List Event) :
    s.after (e :: events) = (s.apply e).after events := rfl

/-- The number of ticks since a run last began, one event later. -/
def ticksAfter (s : Session) (k : Nat) : Event → Nat
  | .restart => 0
  | .tick => k + 1
  | .next => if s.next.current = s.current then k else 0
  | .quit => k

/-- The number of ticks since a run last began, some events later. -/
def ticksFrom (s : Session) (k : Nat) : List Event → Nat
  | [] => k
  | e :: events => (s.apply e).ticksFrom (s.ticksAfter k e) events

/-- The number of ticks since a run last began, in a history of a session that has just begun
one. -/
def ticks (s : Session) (events : List Event) : Nat :=
  s.ticksFrom 0 events

/-! ### What the events do -/

theorem getElem?_current (s : Session) : s.levels[s.current]? = some s.level :=
  List.getElem?_eq_getElem s.current_lt

/-- Where `next` leads: the beginning of the next level if there is one and it is unlocked, and
otherwise nowhere but for the notice. -/
theorem next_cases (s : Session) :
    (∃ h : s.current + 1 < s.levels.length,
      s.progress.isUnlocked s.levels[s.current + 1].id = true ∧
        s.next = ({ s with current := s.current + 1, current_lt := h } : Session).restart) ∨
    (∀ h : s.current + 1 < s.levels.length,
        s.progress.isUnlocked s.levels[s.current + 1].id = false) ∧
      ∃ n, s.next = { s with notice := n } := by
  unfold next
  by_cases h : s.current + 1 < s.levels.length
  · rw [dif_pos h]
    by_cases hu : s.progress.isUnlocked s.levels[s.current + 1].id = true
    · rw [if_pos hu]
      exact Or.inl ⟨h, hu, rfl⟩
    · rw [if_neg hu]
      exact Or.inr ⟨fun _ => by simpa using hu, _, rfl⟩
  · rw [dif_neg h]
    exact Or.inr ⟨fun h' => absurd h' h, _, rfl⟩

/-- What `tick` does: nothing, one more step of the run, or the score of the whole run. -/
theorem tick_cases (s : Session) :
    (s.run? = none ∧ s.tick = s) ∨
    (∃ r e t, s.run? = some r ∧ r.step = (some e, t) ∧
      s.tick = { s with run? := some t, world := t.world }) ∨
    ∃ r t, s.run? = some r ∧ r.step = (none, t) ∧ s.tick = s.scored t := by
  unfold tick
  split
  · rename_i hr
    exact Or.inl ⟨hr, rfl⟩
  · rename_i r hr
    split
    · rename_i e t h
      exact Or.inr (Or.inl ⟨r, e, t, hr, h, rfl⟩)
    · rename_i t h
      exact Or.inr (Or.inr ⟨r, t, hr, h, rfl⟩)

/-! ### What no event changes -/

theorem levels_apply (s : Session) (e : Event) : (s.apply e).levels = s.levels := by
  cases e with
  | restart => rfl
  | quit => rfl
  | tick =>
    show s.tick.levels = s.levels
    obtain ⟨-, h⟩ | ⟨_, _, _, -, -, h⟩ | ⟨_, _, -, -, h⟩ := s.tick_cases <;> rw [h]
    rfl
  | next =>
    show s.next.levels = s.levels
    obtain ⟨_, -, h⟩ | ⟨-, _, h⟩ := s.next_cases <;> rw [h]
    rfl

theorem program_apply (s : Session) (e : Event) : (s.apply e).program = s.program := by
  cases e with
  | restart => rfl
  | quit => rfl
  | tick =>
    show s.tick.program = s.program
    obtain ⟨-, h⟩ | ⟨_, _, _, -, -, h⟩ | ⟨_, _, -, -, h⟩ := s.tick_cases <;> rw [h]
    rfl
  | next =>
    show s.next.program = s.program
    obtain ⟨_, -, h⟩ | ⟨-, _, h⟩ := s.next_cases <;> rw [h]
    rfl

@[simp] theorem levels_after (s : Session) (events : List Event) :
    (s.after events).levels = s.levels := by
  induction events generalizing s with
  | nil => rfl
  | cons e events ih => rw [after_cons, ih, levels_apply]

@[simp] theorem program_after (s : Session) (events : List Event) :
    (s.after events).program = s.program := by
  induction events generalizing s with
  | nil => rfl
  | cons e events ih => rw [after_cons, ih, program_apply]

end Session

end Mazewalk
