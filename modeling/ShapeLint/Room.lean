/-!
# Room to go down

Reading a pattern goes down into what is nested in it, and so does matching it. Both go down on a
stack, and where that stack ends has nothing to do with what is read or matched. So it is fixed
nowhere: how far one may go down is given from outside, as a `Room`.

A room is a tree. Either there is no room, or there is some, and then so much is left inside every
step that one can take from here. Steps may take different amounts, and what is left after several
steps may depend on all of them. `Room.onStack` is the case in which they just add up.
-/

namespace ShapeLint

/-- How far one may go down by steps of some kinds: not at all, or by each step as far as the room
inside it goes. A room has an end on every way down. -/
inductive Room (Step : Type) where
  | none
  | more (inside : Step → Room Step)

/-- The room on a stack with so many free places, of which a step takes as many as it costs and at
least one. -/
def Room.onStack {Step : Type} (cost : Step → Nat) : Nat → Room Step
  | 0 => .none
  | places + 1 => .more fun step => onStack cost (places + 1 - max 1 (cost step))
termination_by places => places
decreasing_by omega

end ShapeLint
