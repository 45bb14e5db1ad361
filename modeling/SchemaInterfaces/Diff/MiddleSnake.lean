/-!
# Middle snakes

Where to split two texts so that both halves can be compared on their own. Shortest edit paths are
grown from both ends at once, one more edit in every round, and the split is where two of them
first meet. A path is known by its diagonal, the difference of its positions in the two texts; on
each diagonal only the farthest one counts.
-/
namespace SchemaInterfaces.Diff

/-- The farthest position in the old text on every diagonal. -/
structure Frontier where
  reach : Array Nat
  offset : Nat

namespace Frontier

def empty (rounds : Nat) : Frontier := ⟨Array.replicate (2 * rounds + 2) 0, rounds⟩

def get (frontier : Frontier) (diagonal : Int) : Nat :=
  frontier.reach.getD (diagonal + frontier.offset).toNat 0

def set (frontier : Frontier) (diagonal : Int) (position : Nat) : Frontier :=
  { frontier with
    reach := frontier.reach.setIfInBounds (diagonal + frontier.offset).toNat position }

/-- Where the path on a diagonal starts in round `round`: one step from the better neighbour. -/
def start (frontier : Frontier) (round diagonal : Int) : Nat :=
  if diagonal = -round ∨
      (diagonal ≠ round ∧ frontier.get (diagonal - 1) < frontier.get (diagonal + 1)) then
    frontier.get (diagonal + 1)
  else frontier.get (diagonal - 1) + 1

end Frontier

/-- How many lines agree from the given positions on, at most `limit`. -/
def agreeing (a b : Array String) (i j : Nat) : Nat → Nat
  | 0 => 0
  | limit + 1 =>
    match a[i]?, b[j]? with
    | some x, some y => if x = y then agreeing a b (i + 1) (j + 1) limit + 1 else 0
    | _, _ => 0

/-- The diagonals of a round, from the topmost down in steps of two. -/
def diagonals (round : Nat) : List Int :=
  (List.range (round + 1)).map fun (step : Nat) => (round : Int) - 2 * step

/-- Grows the paths from one end, on the given diagonals. Stops at the first path that meets one
from the other end, with the two positions where the last step of it began and ended. -/
def growPaths (a b : Array String) (round : Nat) (meets : Int → Nat → Bool) :
    List Int → Frontier → Except ((Nat × Nat) × (Nat × Nat)) Frontier
  | [], frontier => .ok frontier
  | diagonal :: rest, frontier =>
    let x := frontier.start round diagonal
    let y := ((x : Int) - diagonal).toNat
    let advance := agreeing a b x y a.size
    let frontier := frontier.set diagonal (x + advance)
    if meets diagonal (x + advance) then .error ((x, y), (x + advance, y + advance))
    else growPaths a b round meets rest frontier

/-- The rounds of the search, at most `rounds` from `round` on. `ra` and `rb` are the texts read
from their ends. -/
def searchRounds (a b ra rb : Array String) :
    Nat → Nat → Frontier → Frontier → Option (Nat × Nat)
  | 0, _, _, _ => none
  | rounds + 1, round, forward, backward =>
    let delta : Int := (a.size : Int) - b.size
    let odd := delta % 2 ≠ 0
    let meetsBackward (diagonal : Int) (position : Nat) : Bool :=
      odd && ((diagonal - delta).natAbs : Int) ≤ round - 1
        && a.size ≤ position + backward.get (delta - diagonal)
    match growPaths a b round meetsBackward (diagonals round) forward with
    | .error (first, _) => some first
    | .ok forward =>
      let meetsForward (diagonal : Int) (position : Nat) : Bool :=
        !odd && (diagonal - delta).natAbs ≤ round
          && a.size ≤ position + forward.get (delta - diagonal)
      match growPaths ra rb round meetsForward (diagonals round) backward with
      | .error (_, last) => some (a.size - last.1, b.size - last.2)
      | .ok backward => searchRounds a b ra rb rounds (round + 1) forward backward

/-- The numbers of lines of the old and the new text to put into the first half. -/
def middleSnake (old new : List String) : Option (Nat × Nat) :=
  let a := old.toArray
  let b := new.toArray
  let rounds := (a.size + b.size + 1) / 2 + 1
  searchRounds a b a.reverse b.reverse rounds 0 (.empty (rounds + 1)) (.empty (rounds + 1))

end SchemaInterfaces.Diff
