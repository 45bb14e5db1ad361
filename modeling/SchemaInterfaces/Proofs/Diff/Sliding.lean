import Mathlib.Logic.Relation
import SchemaInterfaces.Diff.Compaction
import SchemaInterfaces.Proofs.Diff.Script

/-!
# The steps of a slide

An edit slides past one neighbour after the other. What can happen on the way is said once, for
sliding up (`Rises`) and for sliding down (`Sinks`): an empty kept edit goes, an insertion trades
lines with a kept edit that it has in common with it, edits of one kind are merged, a deletion and
an insertion change places. What every step preserves holds after a slide, and what every slide
preserves holds after all edits of a kind have slid (`slideKind_preserves`).
-/
namespace SchemaInterfaces.Diff

open Relation

/-- The script in which an edit stands. -/
def Focus.script (focus : Focus) : List Edit :=
  focus.before.reverse ++ focus.here :: focus.after

theorem Focus.script_cons (previous here : Edit) (before after : List Edit) :
    Focus.script ⟨previous :: before, here, after⟩ =
      before.reverse ++ previous :: here :: after := by
  simp [Focus.script]

/-- Puts an edit in front of others, unless it has no lines. -/
def consUnlessEmpty (edit : Edit) (edits : List Edit) : List Edit :=
  if edit.lines = [] then edits else edit :: edits

/-- One step up. -/
inductive Rises : Focus → Focus → Prop
  | passEmpty {previous here : Edit} {rest after : List Edit} (keeps : previous.kind = .keep)
    (empty : previous.lines = []) :
    Rises ⟨previous :: rest, here, after⟩ ⟨rest, here, after⟩
  | pass {previous here : Edit} {rest after : List Edit} {kept moved stay : List String}
    (keeps : previous.kind = .keep) (inserts : here.kind = .insert)
    (whole : previous.lines = kept ++ moved) (whole' : here.lines = stay ++ moved)
    (some : moved ≠ []) (a b c d : Nat) (stands : c = previous.oldStart + kept.length) :
    Rises ⟨previous :: rest, here, after⟩
      ⟨consUnlessEmpty { previous with lines := kept } rest,
        ⟨here.kind, a, b, moved ++ stay⟩, keepInFront c d moved after⟩
  | join {previous here : Edit} {rest after : List Edit} (changes : previous.kind ≠ .keep)
    (same : previous.kind = here.kind) :
    Rises ⟨previous :: rest, here, after⟩
      ⟨rest, { previous with lines := previous.lines ++ here.lines }, after⟩
  | swap {previous here : Edit} {rest after : List Edit} (changes : previous.kind ≠ .keep)
    (changes' : here.kind ≠ .keep) (differ : previous.kind ≠ here.kind) :
    Rises ⟨previous :: rest, here, after⟩ ⟨rest, here, previous :: after⟩

/-- One step down. -/
inductive Sinks : Focus → Focus → Prop
  | passEmpty {here next : Edit} {before rest : List Edit} (keeps : next.kind = .keep)
    (empty : next.lines = []) :
    Sinks ⟨before, here, next :: rest⟩ ⟨before, here, rest⟩
  | pass {here next : Edit} {before rest : List Edit} {kept moved stay : List String}
    (keeps : next.kind = .keep) (inserts : here.kind = .insert)
    (whole : next.lines = moved ++ kept) (whole' : here.lines = moved ++ stay)
    (some : moved ≠ []) (a b d e f : Nat) (stands : e = next.oldStart + moved.length) :
    Sinks ⟨before, here, next :: rest⟩
      ⟨keepBehind next.oldStart d moved before, ⟨here.kind, a, b, stay ++ moved⟩,
        consUnlessEmpty ⟨next.kind, e, f, kept⟩ rest⟩
  | join {here next : Edit} {before rest : List Edit} (changes : next.kind ≠ .keep)
    (same : next.kind = here.kind) :
    Sinks ⟨before, here, next :: rest⟩
      ⟨before, { here with lines := here.lines ++ next.lines }, rest⟩
  | swap {here next : Edit} {before rest : List Edit} (changes : here.kind ≠ .keep)
    (changes' : next.kind ≠ .keep) (differ : next.kind ≠ here.kind) :
    Sinks ⟨before, here, next :: rest⟩ ⟨next :: before, here, rest⟩

theorem Rises.kind_eq {first second : Focus} (h : Rises first second) :
    second.here.kind = first.here.kind := by
  cases h with
  | passEmpty | pass | swap => rfl
  | join _ same => exact same

theorem Sinks.kind_eq {first second : Focus} (h : Sinks first second) :
    second.here.kind = first.here.kind := by
  cases h <;> rfl

section

variable {before after : List Edit} {here previous next : Edit} {count : Nat}

/-- An edit that slides up inserts, and ends in the lines over which it slides. -/
theorem upwardSlide_spec (some : count ≠ 0) (h : count ≤ upwardSlide here previous) :
    here.kind = .insert ∧ here.lines = here.lines.take (here.lines.length - count) ++
      previous.lines.drop (previous.lines.length - count) := by
  unfold upwardSlide at h
  split at h
  next inserts =>
    refine ⟨inserts, ?_⟩
    rw [drop_eq_of_le_commonEnd h, List.take_append_drop]
  next => omega

/-- An edit that slides down inserts, and begins with the lines over which it slides. -/
theorem downwardSlide_spec (some : count ≠ 0) (h : count ≤ downwardSlide here next) :
    here.kind = .insert ∧ here.lines = next.lines.take count ++ here.lines.drop count := by
  unfold downwardSlide at h
  split at h
  next inserts =>
    refine ⟨inserts, ?_⟩
    rw [take_eq_of_le_commonStart h, List.take_append_drop]
  next => omega

/-- The step over as many lines as an edit can slide up. -/
theorem rises_pass {rest : List Edit} (keeps : previous.kind = .keep) (some : count ≠ 0)
    (slides : count ≤ upwardSlide here previous) (fits : count ≤ previous.lines.length)
    (a b d : Nat) :
    Rises ⟨previous :: rest, here, after⟩
      ⟨consUnlessEmpty
          { previous with lines := previous.lines.take (previous.lines.length - count) } rest,
        ⟨here.kind, a, b, previous.lines.drop (previous.lines.length - count) ++
          here.lines.take (here.lines.length - count)⟩,
        keepInFront (previous.oldStart + previous.lines.length - count) d
          (previous.lines.drop (previous.lines.length - count)) after⟩ := by
  obtain ⟨inserts, whole⟩ := upwardSlide_spec some slides
  refine .pass keeps inserts (List.take_append_drop _ _).symm whole ?_ a b _ d ?_
  · rw [Ne, List.drop_eq_nil_iff]
    omega
  · rw [List.length_take]
    omega

/-- The step over as many lines as an edit can slide down. -/
theorem sinks_pass {rest : List Edit} (keeps : next.kind = .keep) (some : count ≠ 0)
    (slides : count ≤ downwardSlide here next) (fits : count ≤ next.lines.length)
    (a b d f : Nat) :
    Sinks ⟨before, here, next :: rest⟩
      ⟨keepBehind next.oldStart d (next.lines.take count) before,
        ⟨here.kind, a, b, here.lines.drop count ++ next.lines.take count⟩,
        consUnlessEmpty ⟨next.kind, next.oldStart + count, f, next.lines.drop count⟩ rest⟩ := by
  obtain ⟨inserts, whole⟩ := downwardSlide_spec some slides
  refine .pass keeps inserts (List.take_append_drop _ _).symm whole ?_ a b d _ f ?_
  · rw [Ne, List.take_eq_nil_iff]
    rintro (none | none)
    · exact some none
    · simp only [none, List.length_nil, Nat.le_zero] at fits
      exact some fits
  · rw [List.length_take_of_le fits]

/-- An edit that changes something slides up step by step. -/
theorem rises_slideUp (changes : here.kind ≠ .keep) :
    ReflTransGen Rises ⟨before, here, after⟩ (slideUp before here after) := by
  fun_induction slideUp before here after with
  | case1 here after => exact .refl
  | case2 here after previous rest keeps count none empty ih =>
    exact .head (.passEmpty keeps empty) (ih changes)
  | case3 => exact .refl
  | case4 here after previous rest keeps count some kept moved after' here' empty ih =>
    have step : Rises ⟨previous :: rest, here, after⟩
        ⟨consUnlessEmpty { previous with lines := kept } rest, here', after'⟩ :=
      rises_pass keeps some (Nat.min_le_left _ _) (Nat.min_le_right _ _) _ _ _
    rw [consUnlessEmpty, if_pos empty] at step
    exact .head step (ih changes)
  | case5 here after previous rest keeps count some kept moved after' here' full ih =>
    have step : Rises ⟨previous :: rest, here, after⟩
        ⟨consUnlessEmpty { previous with lines := kept } rest, here', after'⟩ :=
      rises_pass keeps some (Nat.min_le_left _ _) (Nat.min_le_right _ _) _ _ _
    rw [consUnlessEmpty, if_neg full] at step
    exact .head step (ih changes)
  | case6 here after previous rest changes' same ih =>
    exact .head (.join changes' same) (ih changes')
  | case7 here after previous rest changes' differ ih =>
    exact .head (.swap changes' changes differ) (ih changes)

/-- An edit that changes something slides down step by step. -/
theorem sinks_slideDown (changes : here.kind ≠ .keep) :
    ReflTransGen Sinks ⟨before, here, after⟩ (slideDown before here after) := by
  fun_induction slideDown before here after with
  | case1 before here => exact .refl
  | case2 before here next rest keeps count none empty ih =>
    exact .head (.passEmpty keeps empty) (ih changes)
  | case3 => exact .refl
  | case4 before here next rest keeps count some moved kept before' here' empty ih =>
    have step : Sinks ⟨before, here, next :: rest⟩
        ⟨before', here', consUnlessEmpty ⟨next.kind, next.oldStart + count, 0, kept⟩ rest⟩ :=
      sinks_pass keeps some (Nat.min_le_left _ _) (Nat.min_le_right _ _) _ _ _ _
    rw [consUnlessEmpty, if_pos empty] at step
    exact .head step (ih changes)
  | case5 before here next rest keeps count some moved kept before' here' full ih =>
    have step : Sinks ⟨before, here, next :: rest⟩
        ⟨before', here', consUnlessEmpty
          ⟨next.kind, next.oldStart + count, next.newStart + count, kept⟩ rest⟩ :=
      sinks_pass keeps some (Nat.min_le_left _ _) (Nat.min_le_right _ _) _ _ _ _
    rw [consUnlessEmpty, if_neg full] at step
    exact .head step (ih changes)
  | case6 before here next rest changes' same ih =>
    exact .head (.join changes' same) (ih changes)
  | case7 before here next rest changes' differ ih =>
    exact .head (.swap changes changes' differ) (ih changes)

/-- A slide down ends at the end of the script or in front of a kept edit with which the edit has no
line in common. -/
theorem stopped_slideDown {rest : List Edit}
    (ends : (slideDown before here after).after = next :: rest) :
    next.kind = .keep ∧ downwardSlide (slideDown before here after).here next = 0 := by
  fun_induction slideDown before here after with
  | case1 before here => cases ends
  | case3 before here first others keeps count none full =>
    cases ends
    obtain stuck | empty := Nat.min_eq_zero_iff.mp none
    · exact ⟨keeps, stuck⟩
    · exact absurd (List.length_eq_zero_iff.mp empty) full
  | case2 | case4 | case5 | case6 | case7 =>
    rename_i ih
    exact ih ends

end

/-- What every step preserves holds after all of them. -/
theorem holds_of_steps {step : Focus → Focus → Prop} {P : Focus → Prop} {first last : Focus}
    (preserves : ∀ first second, step first second → P first → P second)
    (steps : ReflTransGen step first last) (holds : P first) : P last := by
  induction steps with
  | refl => exact holds
  | tail _ one ih => exact preserves _ _ one ih

/-- The slide of one edit, up and then down. -/
def Focus.slide (focus : Focus) : Focus :=
  let up := slideUp focus.before focus.here focus.after
  slideDown up.before up.here up.after

/-- What the steps of the edits of one kind preserve holds after a slide. -/
theorem slide_preserves {kind : EditKind} {P : Focus → Prop} (changes : kind ≠ .keep)
    (rises : ∀ first second, first.here.kind = kind → Rises first second → P first → P second)
    (sinks : ∀ first second, first.here.kind = kind → Sinks first second → P first → P second)
    {focus : Focus} (same : focus.here.kind = kind) (holds : P focus) : P focus.slide := by
  let up := slideUp focus.before focus.here focus.after
  have raised : up.here.kind = kind ∧ P up :=
    holds_of_steps (P := fun focus => focus.here.kind = kind ∧ P focus)
      (fun _ _ step reached => ⟨step.kind_eq.trans reached.1, rises _ _ reached.1 step reached.2⟩)
      (rises_slideUp (same ▸ changes)) ⟨same, holds⟩
  have sunk : focus.slide.here.kind = kind ∧ P focus.slide :=
    holds_of_steps (P := fun focus => focus.here.kind = kind ∧ P focus)
      (fun _ _ step reached => ⟨step.kind_eq.trans reached.1, sinks _ _ reached.1 step reached.2⟩)
      (sinks_slideDown (raised.1 ▸ changes)) raised
  exact sunk.2

/-- What the slide of every edit of one kind preserves holds after all of them have slid. -/
theorem slideKind_preserves {kind : EditKind} {P : List Edit → Prop}
    (slides : ∀ focus : Focus, focus.here.kind = kind → P focus.script → P focus.slide.script)
    {script : List Edit} (holds : P script) : P (slideKind kind script) := by
  have walks (steps : Nat) (before after : List Edit) (holds : P (before.reverse ++ after)) :
      P (slideAll kind steps before after) := by
    induction steps generalizing before after with
    | zero => exact holds
    | succ steps ih =>
      cases after with
      | nil => simpa [slideAll] using holds
      | cons here after =>
        rw [slideAll]
        split
        next same =>
          refine ih _ _ ?_
          have slid := slides ⟨before, here, after⟩ same holds
          simpa [Focus.script, Focus.slide] using slid
        next => exact ih (here :: before) after (by simpa using holds)
  exact walks _ [] script holds

end SchemaInterfaces.Diff
