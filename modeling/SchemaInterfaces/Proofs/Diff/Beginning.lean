import SchemaInterfaces.Proofs.Diff.Placement

/-!
# Where a script begins

A compacted script that begins with an insertion either deletes something before it keeps a line, or
that insertion says that it stands at the beginning of the old text (`inPlace_compact`). An
insertion that has slid up to the beginning may say anything for a while, but then it has slid over
kept lines and slides down over them again.
-/
namespace SchemaInterfaces.Diff

/-- There is a deletion before any kept line. -/
def DeletesFirst : List Edit → Prop
  | [] => False
  | edit :: rest => edit.kind = .delete ∨ edit.kind = .insert ∧ DeletesFirst rest

/-- A script that inserts first does so at the beginning, unless a deletion is near. -/
def BeginsInPlace (script : List Edit) : Prop :=
  DeletesFirst script ∨ ∀ edit ∈ script.head?, edit.kind = .insert → edit.oldStart = 0

/-- An edit at the beginning of a script that can slide down over the kept edit behind it. -/
def Focus.IsRaised (focus : Focus) : Prop :=
  focus.before = [] ∧
    ∃ next rest, focus.after = next :: rest ∧ next.kind = .keep ∧ downwardSlide focus.here next ≠ 0

theorem DeletesFirst.within {middle middle' : List Edit}
    (h : DeletesFirst middle → DeletesFirst middle') (front : List Edit) :
    DeletesFirst (front ++ middle) → DeletesFirst (front ++ middle') := by
  induction front with
  | nil => exact h
  | cons edit front ih => exact Or.imp_right (And.imp_right ih)

theorem not_deletesFirst_of_keep {edit : Edit} (keeps : edit.kind = .keep) (rest : List Edit) :
    ¬ DeletesFirst (edit :: rest) := by
  simp [DeletesFirst, keeps]

theorem beginsInPlace_of_keep {edit : Edit} (keeps : edit.kind = .keep) (rest : List Edit) :
    BeginsInPlace (edit :: rest) :=
  .inr fun first member inserts => by
    rw [← Option.some.inj member, keeps] at inserts
    cases inserts

/-- The edits at the end of a script may be replaced. -/
theorem BeginsInPlace.within {front middle middle' : List Edit}
    (h : BeginsInPlace (front ++ middle)) (deletes : DeletesFirst middle → DeletesFirst middle')
    (begins : front = [] → BeginsInPlace middle → BeginsInPlace middle') :
    BeginsInPlace (front ++ middle') := by
  cases front with
  | nil => exact begins rfl h
  | cons edit front => exact h.imp_left (DeletesFirst.within deletes (edit :: front))

/-- Behind other edits, those that do not delete first may be replaced by anything. -/
theorem BeginsInPlace.withinPlain {front middle middle' : List Edit}
    (h : BeginsInPlace (front ++ middle)) (plain : ¬ DeletesFirst middle)
    (begins : front = [] → BeginsInPlace middle') : BeginsInPlace (front ++ middle') :=
  h.within (fun deletes => absurd deletes plain) fun none _ => begins none

theorem DeletesFirst.merge {previous here : Edit} {back : List Edit}
    (same : previous.kind = here.kind) (h : DeletesFirst (previous :: here :: back)) :
    DeletesFirst ({ previous with lines := previous.lines ++ here.lines } :: back) := by
  obtain deletes | ⟨inserts, deletes | ⟨_, deletes⟩⟩ := h
  · exact .inl deletes
  · exact .inl (same.trans deletes)
  · exact .inr ⟨inserts, deletes⟩

theorem BeginsInPlace.merge {front back : List Edit} {previous here : Edit}
    (h : BeginsInPlace (front ++ previous :: here :: back)) (same : previous.kind = here.kind) :
    BeginsInPlace
      (front ++ { previous with lines := previous.lines ++ here.lines } :: back) := by
  refine h.within (.merge same) fun _ begins => ?_
  obtain deletes | begins := begins
  · exact .inl (deletes.merge same)
  · exact .inr fun first member inserts => by
      cases member
      exact begins previous rfl inserts

/-- Of a deletion and an insertion one deletes. -/
theorem deletesFirst_swap {previous here : Edit} (changes : previous.kind ≠ .keep)
    (changes' : here.kind ≠ .keep) (differ : previous.kind ≠ here.kind) (back : List Edit) :
    DeletesFirst (here :: previous :: back) := by
  cases kind : previous.kind <;> cases kind' : here.kind <;> simp_all [DeletesFirst]

theorem BeginsInPlace.swap {front back : List Edit} {previous here : Edit}
    (h : BeginsInPlace (front ++ previous :: here :: back)) (changes : previous.kind ≠ .keep)
    (changes' : here.kind ≠ .keep) (differ : previous.kind ≠ here.kind) :
    BeginsInPlace (front ++ here :: previous :: back) :=
  h.within (fun _ => deletesFirst_swap changes changes' differ back) fun _ _ =>
    .inl (deletesFirst_swap changes changes' differ back)

theorem commonStart_append (moved a b : List String) :
    commonStart (moved ++ a) (moved ++ b) = moved.length + commonStart a b := by
  induction moved with
  | nil => simp
  | cons line moved ih =>
    simp only [List.cons_append, commonStart, if_true, ih, List.length_cons]
    omega

/-- Kept lines in front of edits make a kept edit that begins with these lines. -/
theorem exists_keepInFront (c d : Nat) (lines : List String) (edits : List Edit) :
    ∃ next rest more, keepInFront c d lines edits = next :: rest ∧ next.kind = .keep ∧
      next.lines = lines ++ more := by
  fun_cases keepInFront c d lines edits with
  | case1 next rest keeps => exact ⟨_, rest, next.lines, rfl, keeps, rfl⟩
  | case2 next rest _ => exact ⟨_, _, [], rfl, rfl, (List.append_nil _).symm⟩
  | case3 => exact ⟨_, _, [], rfl, rfl, (List.append_nil _).symm⟩

theorem Rises.not_isRaised {first second : Focus} (h : Rises first second) : ¬ first.IsRaised := by
  rintro ⟨lowest, _⟩
  cases h <;> cases lowest

/-- A step up to the beginning of a script leaves kept lines behind that the edit also has. -/
theorem Rises.beginsInPlace {first second : Focus} (h : Rises first second)
    (full : ∀ edit ∈ first.script, edit.lines ≠ [])
    (begins : BeginsInPlace first.script ∨ first.IsRaised) :
    BeginsInPlace second.script ∨ second.IsRaised := by
  replace begins := begins.resolve_right h.not_isRaised
  cases h with
  | @passEmpty previous here rest after _ empty =>
    exact absurd empty (full previous (by simp [Focus.script]))
  | @pass previous here rest after kept moved stay keeps inserts whole whole' some a b c d stands =>
    rw [Focus.script_cons] at begins
    rw [Focus.script, consUnlessEmpty]
    split
    next =>
      by_cases lowest : rest = []
      · obtain ⟨next, others, more, front, keeps', more'⟩ := exists_keepInFront c d moved after
        refine .inr ⟨lowest, next, others, front, keeps', ?_⟩
        rw [downwardSlide, if_pos inserts, more', commonStart_append]
        have := List.length_pos_iff.mpr some
        omega
      · exact .inl (begins.withinPlain (not_deletesFirst_of_keep keeps _) fun none =>
          absurd (List.reverse_eq_nil_iff.mp none) lowest)
    next =>
      rw [List.reverse_cons, List.append_assoc]
      exact .inl (begins.withinPlain (not_deletesFirst_of_keep keeps _) fun _ =>
        beginsInPlace_of_keep (by exact keeps) _)
  | @join previous here rest after _ same =>
    rw [Focus.script_cons] at begins
    exact .inl (begins.merge same)
  | @swap previous here rest after changes changes' differ =>
    rw [Focus.script_cons] at begins
    exact .inl (begins.swap changes changes' differ)

/-- A step down from the beginning over kept lines leaves kept lines there. -/
theorem Sinks.beginsInPlace {first second : Focus} (h : Sinks first second)
    (begins : BeginsInPlace first.script ∨ first.IsRaised) :
    BeginsInPlace second.script ∨ second.IsRaised := by
  cases h with
  | @passEmpty here next before rest keeps empty =>
    have deletes : DeletesFirst (here :: next :: rest) → DeletesFirst (here :: rest) :=
      Or.imp_right fun ⟨_, later⟩ => absurd later (not_deletesFirst_of_keep keeps rest)
    obtain begins | ⟨_, _, _, behind, _, slides⟩ := begins
    · exact .inl (begins.within deletes fun _ => Or.imp_left deletes)
    · cases behind
      simp [downwardSlide, empty, commonStart] at slides
  | @pass here next before rest kept moved stay keeps inserts whole whole' some a b d e f stands =>
    left
    rw [Focus.script]
    fun_cases keepBehind next.oldStart d moved before with
    | case1 previous others keeps' =>
      replace begins := begins.resolve_right fun raised => List.cons_ne_nil _ _ raised.1
      rw [Focus.script_cons] at begins
      rw [List.reverse_cons, List.append_assoc]
      exact begins.withinPlain (not_deletesFirst_of_keep keeps' _) fun _ =>
        beginsInPlace_of_keep (by exact keeps') _
    | case2 previous others _ =>
      replace begins := begins.resolve_right fun raised => List.cons_ne_nil _ _ raised.1
      rw [Focus.script] at begins
      rw [List.reverse_cons, List.append_assoc]
      refine begins.withinPlain ?_ fun _ => beginsInPlace_of_keep (by rfl) _
      simp [DeletesFirst, inserts, keeps]
    | case3 => exact beginsInPlace_of_keep rfl _
  | @join here next before rest changes same =>
    obtain begins | ⟨_, _, _, behind, keeps, _⟩ := begins
    · exact .inl (begins.merge same.symm)
    · cases behind
      exact absurd keeps changes
  | @swap here next before rest changes changes' differ =>
    left
    rw [Focus.script_cons]
    obtain begins | ⟨_, _, _, behind, keeps, _⟩ := begins
    · exact begins.swap changes changes' differ.symm
    · cases behind
      exact absurd keeps changes'

/-- A script in order that begins in place. -/
structure InPlace (script : List Edit) : Prop where
  inOrder : InOrder 0 script
  begins : BeginsInPlace script

/-- A slide ends where the edit cannot slide down any more. -/
theorem InPlace.slide {focus : Focus} (h : InPlace focus.script)
    (changes : focus.here.kind ≠ .keep) : InPlace focus.slide.script := by
  have slid : InOrder 0 focus.slide.script ∧
      (BeginsInPlace focus.slide.script ∨ focus.slide.IsRaised) :=
    slide_preserves
      (P := fun focus => InOrder 0 focus.script ∧ (BeginsInPlace focus.script ∨ focus.IsRaised))
      changes
      (fun _ _ _ step h => ⟨step.inOrder h.1, step.beginsInPlace h.1.full h.2⟩)
      (fun _ _ _ step h => ⟨step.inOrder h.1, step.beginsInPlace h.2⟩) rfl
      ⟨h.inOrder, .inl h.begins⟩
  refine ⟨slid.1, slid.2.resolve_right fun ⟨_, next, rest, behind, _, slides⟩ => ?_⟩
  exact slides (stopped_slideDown behind).2

theorem InPlace.slideKind {script : List Edit} (h : InPlace script) {kind : EditKind}
    (changes : kind ≠ .keep) : InPlace (slideKind kind script) :=
  slideKind_preserves (fun _ same h => h.slide (same ▸ changes)) h

theorem inPlace_compareLines (old new : List String) : InPlace (compareLines old new) where
  inOrder := (isComparison_compareFrom _ 0 0 old new).toInOrder
  begins := .inr fun edit member _ => (isComparison_compareFrom _ 0 0 old new).starts edit member

/-- A compacted comparison is in order and begins in place. -/
theorem inPlace_compact (old new : List String) : InPlace (compact (compareLines old new)) :=
  ((inPlace_compareLines old new).slideKind (by decide)).slideKind (by decide)

end SchemaInterfaces.Diff
