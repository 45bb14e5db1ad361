import SchemaInterfaces.Diff.Edit

/-!
# Compacting a script

Insertions slide over kept lines where that changes nothing, first up and then down, so that edits
that belong together come to stand together; deletions and insertions side by side change places,
and edits of one kind are merged. Sliding moves the line numbers of an edit along; changing places
leaves them as they are.
-/
namespace SchemaInterfaces.Diff

/-- An edit of a script with the edits before it, the nearest first, and those after it. -/
structure Focus where
  before : List Edit
  here : Edit
  after : List Edit

/-- The size of a list of edits. Every step of a slide takes some of it away from the side that the
edit slides to. -/
def weight (edits : List Edit) : Nat :=
  edits.foldr (fun edit total => edit.lines.length + 1 + total) 0

/-- Adds lines to the front of a kept edit, or puts a new one in front. -/
def keepInFront (oldStart newStart : Nat) (lines : List String) : List Edit → List Edit
  | next :: rest =>
    if next.kind = .keep then
      { next with
        oldStart := next.oldStart - lines.length
        newStart := next.newStart - lines.length
        lines := lines ++ next.lines } :: rest
    else ⟨.keep, oldStart, newStart, lines⟩ :: next :: rest
  | [] => [⟨.keep, oldStart, newStart, lines⟩]

/-- Adds lines to the end of a kept edit, or puts a new one behind. -/
def keepBehind (oldStart newStart : Nat) (lines : List String) : List Edit → List Edit
  | previous :: rest =>
    if previous.kind = .keep then { previous with lines := previous.lines ++ lines } :: rest
    else ⟨.keep, oldStart, newStart, lines⟩ :: previous :: rest
  | [] => [⟨.keep, oldStart, newStart, lines⟩]

/-- The lines over which an edit can slide up: only insertions slide. -/
def upwardSlide (here previous : Edit) : Nat :=
  if here.kind = .insert then commonEnd previous.lines here.lines else 0

/-- The lines over which an edit can slide down. -/
def downwardSlide (here next : Edit) : Nat :=
  if here.kind = .insert then commonStart next.lines here.lines else 0

/-- Slides an edit up as far as it goes. -/
def slideUp (before : List Edit) (here : Edit) (after : List Edit) : Focus :=
  match before with
  | [] => ⟨[], here, after⟩
  | previous :: rest =>
    if previous.kind = .keep then
      let count := min (upwardSlide here previous) previous.lines.length
      if count = 0 then
        if previous.lines = [] then slideUp rest here after else ⟨previous :: rest, here, after⟩
      else
        let kept := previous.lines.take (previous.lines.length - count)
        let moved := previous.lines.drop (previous.lines.length - count)
        let after :=
          keepInFront (previous.oldStart + previous.lines.length - count)
            (here.newStart + here.lines.length - count) moved after
        let here := { here with
          oldStart := here.oldStart - count
          newStart := here.newStart - count
          lines := moved ++ here.lines.take (here.lines.length - count) }
        if kept = [] then slideUp rest here after
        else slideUp ({ previous with lines := kept } :: rest) here after
    else if previous.kind = here.kind then
      slideUp rest { previous with lines := previous.lines ++ here.lines } after
    else slideUp rest here (previous :: after)
termination_by weight before
decreasing_by
  all_goals simp_all [weight]
  all_goals omega

/-- Slides an edit down as far as it goes. -/
def slideDown (before : List Edit) (here : Edit) (after : List Edit) : Focus :=
  match after with
  | [] => ⟨before, here, []⟩
  | next :: rest =>
    if next.kind = .keep then
      let count := min (downwardSlide here next) next.lines.length
      if count = 0 then
        if next.lines = [] then slideDown before here rest else ⟨before, here, next :: rest⟩
      else
        let moved := next.lines.take count
        let kept := next.lines.drop count
        let before := keepBehind next.oldStart here.newStart moved before
        let here := { here with
          oldStart := here.oldStart + count
          newStart := here.newStart + count
          lines := here.lines.drop count ++ moved }
        if kept = [] then slideDown before here rest
        else
          slideDown before here ({ next with
            oldStart := next.oldStart + count
            newStart := next.newStart + count
            lines := kept } :: rest)
    else if next.kind = here.kind then
      slideDown before { here with lines := here.lines ++ next.lines } rest
    else slideDown (next :: before) here rest
termination_by weight after
decreasing_by
  all_goals simp_all [weight]
  all_goals omega

/-- Walks down a script and slides every edit of one kind up and then down. -/
def slideAll (kind : EditKind) : Nat → List Edit → List Edit → List Edit
  | 0, before, after => before.reverse ++ after
  | _ + 1, before, [] => before.reverse
  | steps + 1, before, here :: after =>
    if here.kind = kind then
      let up := slideUp before here after
      let down := slideDown up.before up.here up.after
      slideAll kind steps (down.here :: down.before) down.after
    else slideAll kind steps (here :: before) after

/-- Slides all edits of one kind. A walk has far fewer steps than the square of the size. -/
def slideKind (kind : EditKind) (script : List Edit) : List Edit :=
  slideAll kind ((weight script + 1) * (weight script + 1)) [] script

/-- Compacts a script: deletions first, then insertions. -/
def compact (script : List Edit) : List Edit :=
  slideKind .insert (slideKind .delete script)

end SchemaInterfaces.Diff
