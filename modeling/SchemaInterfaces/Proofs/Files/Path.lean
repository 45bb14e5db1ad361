import SchemaInterfaces.Files.Path

/-!
# Paths and their steps

A path put together from steps has just these steps (`steps_join`). So the path of a directory, and
a path with an extension behind it, have all steps but the last from the path that they were made
of, and the text of the directory's path is part of the text of the path (`parent_sublist`).
-/
namespace SchemaInterfaces.Path

theorem splitParts_eq_splitOn (text : List Char) : splitParts text = text.splitOn '/' := by
  induction text with
  | nil => rfl
  | cons c rest ih =>
    rw [splitParts, List.splitOn_cons_eq_if_modifyHead, ih]
    by_cases slash : c = '/'
    · simp [slash]
    · cases parts : rest.splitOn '/' with
      | nil => exact absurd parts (List.splitOn_ne_nil _ _)
      | cons part parts => simp [slash]

/-- A part of a path that leads somewhere. -/
def isStep (part : String) : Bool := part ≠ "" ∧ part ≠ "."

theorem steps_eq (path : String) : steps path = (parts path).filter isStep := rfl

theorem slash_not_mem_of_mem_splitParts {text part : List Char} (member : part ∈ splitParts text) :
    '/' ∉ part := by
  induction text generalizing part with
  | nil =>
    rw [List.mem_singleton.mp member]
    exact List.not_mem_nil
  | cons c rest ih =>
    rw [splitParts] at member
    split at member
    · rcases List.mem_cons.mp member with rfl | later
      · exact List.not_mem_nil
      · exact ih later
    next other =>
      cases split : splitParts rest with
      | nil =>
        rw [split] at member
        rw [List.mem_singleton.mp member, List.mem_singleton]
        exact Ne.symm other
      | cons first later =>
        rw [split] at member ih
        rcases List.mem_cons.mp member with rfl | member
        · rw [List.mem_cons, not_or]
          exact ⟨Ne.symm other, ih List.mem_cons_self⟩
        · exact ih (List.mem_cons_of_mem _ member)

theorem slash_not_mem_of_mem_parts {path part : String} (member : part ∈ parts path) :
    '/' ∉ part.toList := by
  obtain ⟨text, inside, rfl⟩ := List.mem_map.mp member
  rw [String.toList_ofList]
  exact slash_not_mem_of_mem_splitParts inside

/-! ### Paths made of steps -/

theorem toList_join (absolute : Bool) (steps : List String) :
    (join absolute steps).toList =
      (if absolute then ['/'] else []) ++ ['/'].intercalate (steps.map String.toList) := by
  rw [join, String.toList_append, String.toList_intercalate]
  cases absolute <;> rfl

theorem splitParts_intercalate {steps : List String} (free : ∀ step ∈ steps, '/' ∉ step.toList)
    (nonempty : steps ≠ []) :
    splitParts (['/'].intercalate (steps.map String.toList)) = steps.map String.toList := by
  rw [splitParts_eq_splitOn, List.splitOn_intercalate]
  · simpa using free
  · simpa using nonempty

theorem parts_join {steps : List String} (free : ∀ step ∈ steps, '/' ∉ step.toList)
    (nonempty : steps ≠ []) (absolute : Bool) :
    parts (join absolute steps) = if absolute then "" :: steps else steps := by
  have ofList : (steps.map String.toList).map String.ofList = steps := by
    simp [Function.comp_def]
  rw [parts, toList_join]
  cases absolute with
  | false =>
    rw [if_neg (by decide), List.nil_append, splitParts_intercalate free nonempty, ofList]
    rfl
  | true =>
    rw [if_pos rfl, List.singleton_append, splitParts, if_pos rfl,
      splitParts_intercalate free nonempty, List.map_cons, ofList]
    rfl

/-- A path put together from steps has just these steps. -/
theorem steps_join {steps : List String} (free : ∀ step ∈ steps, '/' ∉ step.toList)
    (proper : ∀ step ∈ steps, isStep step = true) (absolute : Bool) :
    Path.steps (join absolute steps) = steps := by
  by_cases nonempty : steps = []
  · subst nonempty
    cases absolute <;> rfl
  · rw [steps_eq, parts_join free nonempty]
    have kept := List.filter_eq_self.mpr proper
    cases absolute with
    | false => exact kept
    | true => rw [if_pos rfl, List.filter_cons_of_neg (by decide), kept]

/-- A path put together from steps starts where it is made to start. -/
theorem isAbsolute_join {steps : List String} (free : ∀ step ∈ steps, '/' ∉ step.toList)
    (proper : ∀ step ∈ steps, isStep step = true) (absolute : Bool) :
    isAbsolute (join absolute steps) = absolute := by
  cases absolute with
  | true => simp [isAbsolute, toList_join]
  | false =>
    cases steps with
    | nil => rfl
    | cons first rest =>
      have free := free first List.mem_cons_self
      have proper := proper first List.mem_cons_self
      obtain ⟨c, tail, spelled⟩ : ∃ c tail, first.toList = c :: tail := by
        refine List.exists_cons_of_ne_nil fun empty => ?_
        rw [String.toList_eq_nil_iff.mp empty] at proper
        cases proper
      have noSlash : c ≠ '/' := by
        rintro rfl
        exact free (spelled ▸ List.mem_cons_self)
      have begins : (join false (first :: rest)).toList.head? = some c := by
        rw [toList_join, if_neg (by decide), List.nil_append, List.map_cons, spelled]
        cases rest with
        | nil => rfl
        | cons => rw [List.map_cons, List.intercalate_cons_of_ne_nil (by simp)]; rfl
      rw [isAbsolute, begins]
      simpa using noSlash

theorem slash_not_mem_of_mem_steps {path step : String} (member : step ∈ steps path) :
    '/' ∉ step.toList :=
  slash_not_mem_of_mem_parts (List.mem_filter.mp member).1

theorem isStep_of_mem_steps {path step : String} (member : step ∈ steps path) :
    isStep step = true :=
  (List.mem_filter.mp member).2

theorem steps_parent (path : String) : steps (parent path) = (steps path).dropLast :=
  steps_join (fun _ member => slash_not_mem_of_mem_steps (List.dropLast_subset _ member))
    (fun _ member => isStep_of_mem_steps (List.dropLast_subset _ member)) _

theorem isAbsolute_parent (path : String) : isAbsolute (parent path) = isAbsolute path :=
  isAbsolute_join
    (fun _ member => slash_not_mem_of_mem_steps (List.dropLast_subset _ member))
    (fun _ member => isStep_of_mem_steps (List.dropLast_subset _ member)) _

/-- What is written behind a path goes to its last step. -/
theorem join_append (absolute : Bool) (front : List String) (last behind : String) :
    join absolute (front ++ [last]) ++ behind = join absolute (front ++ [last ++ behind]) := by
  apply String.toList_injective
  rw [String.toList_append, toList_join, toList_join, List.append_assoc]
  congr 1
  induction front with
  | nil => simp
  | cons step front ih =>
    rw [List.cons_append, List.cons_append, List.map_cons, List.map_cons,
      List.intercalate_cons_of_ne_nil (by simp), List.intercalate_cons_of_ne_nil (by simp),
      List.append_assoc, ih]

/-! ### A path with an extension behind it -/

theorem ne_empty_of_mem_steps {path step : String} (member : step ∈ steps path) :
    step.toList ≠ [] := by
  intro empty
  have proper := isStep_of_mem_steps member
  rw [String.toList_eq_nil_iff.mp empty] at proper
  cases proper

theorem getLast?_steps {path last : String} (named : fileName? path = some last) :
    (steps path).getLast? = some last := by
  rw [fileName?] at named
  split at named
  · cases named
  · exact named

section

variable {path last behind : String}

/-- A name with an extension has three characters at least, so it is no dot or dots. -/
theorem length_append_extension (member : last ∈ steps path) (nonempty : behind ≠ "") :
    3 ≤ (last ++ "." ++ behind).toList.length := by
  have name := List.length_pos_iff.mpr (ne_empty_of_mem_steps member)
  have behind := List.length_pos_iff.mpr (mt String.toList_eq_nil_iff.mp nonempty)
  have dot : ".".toList.length = 1 := rfl
  rw [String.toList_append, String.toList_append, List.length_append, List.length_append, dot]
  omega

/-- A path with an extension behind it is put together from steps as well. -/
theorem normal_append_eq_join (named : fileName? path = some last) (nonempty : behind ≠ "")
    (free : '/' ∉ behind.toList) :
    ∃ steps', normal path ++ "." ++ behind = join (isAbsolute path) steps' ∧
      steps' = (steps path).dropLast ++ [last ++ "." ++ behind] ∧
      (∀ step ∈ steps', '/' ∉ step.toList) ∧ ∀ step ∈ steps', isStep step = true := by
  obtain ⟨front, split⟩ := List.getLast?_eq_some_iff.mp (getLast?_steps named)
  have inside (step : String) (member : step ∈ front) : step ∈ steps path := by
    rw [split]
    exact List.mem_append_left _ member
  have ends : last ∈ steps path := by
    rw [split]
    exact List.mem_append_right _ List.mem_cons_self
  have long := length_append_extension ends nonempty
  refine ⟨front ++ [last ++ "." ++ behind], ?_, ?_,
    List.forall_mem_append.mpr ⟨?_, List.forall_mem_singleton.mpr ?_⟩,
    List.forall_mem_append.mpr ⟨?_, List.forall_mem_singleton.mpr ?_⟩⟩
  · rw [normal, split, String.append_assoc, join_append, ← String.append_assoc]
  · rw [split, List.dropLast_concat]
  · exact fun step member => slash_not_mem_of_mem_steps (inside step member)
  · simpa [free] using slash_not_mem_of_mem_steps ends
  · exact fun step member => isStep_of_mem_steps (inside step member)
  · rw [isStep, decide_eq_true_iff]
    constructor <;> intro short <;> rw [short] at long <;> exact absurd long (by decide)

theorem steps_normal_append (named : fileName? path = some last) (nonempty : behind ≠ "")
    (free : '/' ∉ behind.toList) :
    steps (normal path ++ "." ++ behind) = (steps path).dropLast ++ [last ++ "." ++ behind] := by
  obtain ⟨steps', spelled, same, noSlash, proper⟩ := normal_append_eq_join named nonempty free
  rw [spelled, steps_join noSlash proper, same]

theorem isAbsolute_normal_append (named : fileName? path = some last) (nonempty : behind ≠ "")
    (free : '/' ∉ behind.toList) :
    isAbsolute (normal path ++ "." ++ behind) = isAbsolute path := by
  obtain ⟨steps', spelled, _, noSlash, proper⟩ := normal_append_eq_join named nonempty free
  rw [spelled, isAbsolute_join noSlash proper]

theorem cutAtLastDot_append (stem : List Char) {extension : List Char} (plain : '.' ∉ extension) :
    cutAtLastDot (stem ++ '.' :: extension) = some (stem, extension) := by
  have after : ((stem ++ '.' :: extension).reverse.takeWhile (· ≠ '.')).reverse = extension := by
    rw [List.reverse_append, List.reverse_cons, List.append_assoc, List.takeWhile_append_of_pos]
    · simp
    · intro c inside
      rw [decide_eq_true_iff]
      rintro rfl
      exact plain (List.mem_reverse.mp inside)
  have before : (stem ++ '.' :: extension).take
      ((stem ++ '.' :: extension).length - extension.length) = stem ++ ['.'] := by
    have length :
        (stem ++ '.' :: extension).length - extension.length = (stem ++ ['.']).length := by
      simp only [List.length_append, List.length_cons, List.length_nil]
      omega
    rw [length, List.append_cons stem '.' extension, List.take_left]
  rw [cutAtLastDot, after, before]
  simp

theorem extension?_normal_append (named : fileName? path = some last) (nonempty : behind ≠ "")
    (free : '/' ∉ behind.toList) (plain : '.' ∉ behind.toList) :
    extension? (normal path ++ "." ++ behind) = some behind := by
  have ends : last ∈ steps path := List.mem_of_getLast? (getLast?_steps named)
  have long := length_append_extension ends nonempty
  have name : fileName? (normal path ++ "." ++ behind) = some (last ++ "." ++ behind) := by
    rw [fileName?, steps_normal_append named nonempty free, List.getLast?_concat]
    split
    next up =>
      rw [Option.some.inj up] at long
      exact absurd long (by decide)
    next => rfl
  have spelled : (last ++ "." ++ behind).toList = last.toList ++ '.' :: behind.toList := by
    simp
  rw [extension?, name]
  simp [spelled, cutAtLastDot_append _ plain, ne_empty_of_mem_steps ends]

end

/-! ### The text of a directory's path -/

theorem intercalate_parts (path : String) :
    ['/'].intercalate ((parts path).map String.toList) = path.toList := by
  have toList : (parts path).map String.toList = path.toList.splitOn '/' := by
    rw [parts, List.map_map, ← splitParts_eq_splitOn]
    exact List.map_id'' (fun part => String.toList_ofList) _
  rw [toList, List.intercalate_splitOn]

theorem intercalate_sublist {α : Type} {between : List α} {some all : List (List α)}
    (sublist : some.Sublist all) :
    (between.intercalate some).Sublist (between.intercalate all) := by
  induction sublist with
  | slnil => exact .slnil
  | @cons some all item sublist ih =>
    by_cases last : all = []
    · subst last
      rw [List.sublist_nil.mp sublist]
      exact List.nil_sublist _
    · rw [List.intercalate_cons_of_ne_nil last]
      exact ih.trans (List.sublist_append_right _ _)
  | @cons_cons some all item sublist ih =>
    by_cases last : some = []
    · subst last
      by_cases single : all = []
      · subst single
        exact .refl _
      · rw [List.intercalate_cons_of_ne_nil single, List.intercalate_singleton, List.append_assoc]
        exact List.sublist_append_left _ _
    · have more : all ≠ [] := fun none => last (List.sublist_nil.mp (none ▸ sublist))
      rw [List.intercalate_cons_of_ne_nil last, List.intercalate_cons_of_ne_nil more]
      exact ih.append_left _

/-- Steps that come from a path in order are written with characters of the path. -/
theorem intercalate_steps_sublist {path : String} {some : List String}
    (sublist : some.Sublist (steps path)) :
    (['/'].intercalate (some.map String.toList)).Sublist path.toList := by
  rw [← intercalate_parts path]
  exact intercalate_sublist ((sublist.trans List.filter_sublist).map _)

/-- The directory's path is written with characters of the path, in order. -/
theorem parent_sublist (path : String) : (parent path).toList.Sublist path.toList := by
  rw [parent, toList_join]
  cases absolute : isAbsolute path with
  | false => exact intercalate_steps_sublist (List.dropLast_sublist _)
  | true =>
    -- The steps of an absolute path are those of the text behind its first slash.
    obtain ⟨rest, slash⟩ : ∃ rest, path.toList = '/' :: rest := by
      rw [isAbsolute, beq_iff_eq] at absolute
      exact List.head?_eq_some_iff.mp absolute
    have same : steps path = steps (String.ofList rest) := by
      rw [steps_eq, steps_eq, parts, parts, slash, splitParts, if_pos rfl, List.map_cons,
        List.filter_cons_of_neg (by decide), String.toList_ofList]
    rw [if_pos rfl, List.singleton_append, slash, same]
    have behind := intercalate_steps_sublist (List.dropLast_sublist (steps (String.ofList rest)))
    rw [String.toList_ofList] at behind
    exact behind.cons_cons _

end SchemaInterfaces.Path
