import SchemaInterfaces.Proofs.NameCollision
import SchemaInterfaces.Proofs.Text.Capital

/-!
# Names of names

A name has no underscore, and if it is not empty it begins with a capital. A text of this form is a
single piece that already begins as its name does, so it is its own name, and no other text is
(`nameOf_nameOf`). Which script the name is in does not matter, nor that the first character of a
piece may become several.
-/
namespace SchemaInterfaces.KeyPath

/-- The form of a name: no underscore, and a capital first. -/
structure IsName (name : List Char) : Prop where
  noUnderscore : '_' ∉ name
  capital : ∀ first ∈ name.head?, Text.IsCapital first

/-! ### Names have the form -/

/-- A fragment with its first character in upper case has the form of a name. -/
theorem isName_upperFirst {fragment : List Char} (noUnderscore : '_' ∉ fragment) :
    IsName (upperFirst fragment) := by
  cases fragment with
  | nil => exact ⟨noUnderscore, by simp [upperFirst]⟩
  | cons c rest =>
    obtain ⟨other, inRest⟩ := List.ne_and_not_mem_of_not_mem_cons noUnderscore
    obtain ⟨first, more, upper, capital, noneInForm⟩ := Text.uppercase_eq_cons c
    rw [upperFirst, upper]
    refine ⟨List.not_mem_append (noneInForm other.symm) inRest, fun d begins => ?_⟩
    rwa [← Option.some.inj begins]

theorem IsName.append {front back : List Char} (first : IsName front) (second : IsName back) :
    IsName (front ++ back) := by
  refine ⟨List.not_mem_append first.noUnderscore second.noUnderscore, ?_⟩
  cases front with
  | nil => exact second.capital
  | cons c front => exact first.capital

theorem isName_flatMap {fragments : List (List Char)}
    (noUnderscore : ∀ fragment ∈ fragments, '_' ∉ fragment) :
    IsName (fragments.flatMap upperFirst) := by
  induction fragments with
  | nil => exact ⟨List.not_mem_nil, by simp⟩
  | cons fragment fragments ih =>
    rw [List.flatMap_cons]
    exact (isName_upperFirst (noUnderscore _ (.head _))).append
      (ih fun f member => noUnderscore f (.tail _ member))

theorem isName_nameOf (keys : List String) : IsName (nameOf keys).toList := by
  rw [nameOf, String.toList_ofList]
  refine isName_flatMap fun fragment member => ?_
  obtain ⟨key, _, ofKey⟩ := List.mem_flatMap.mp member
  exact fun inside => (mem_of_mem_splitUnderscore (List.mem_filter.mp ofKey).1 _ inside).2 rfl

/-! ### Texts of the form are names -/

theorem upperFirst_of_isName {name : List Char} (form : IsName name) : upperFirst name = name := by
  cases name with
  | nil => rfl
  | cons first rest =>
    have capital : Text.uppercase first = [first] := form.capital first rfl
    rw [upperFirst, capital, List.singleton_append]

theorem flatMap_fragmentsOf_of_isName {name : List Char} (form : IsName name) :
    (fragmentsOf name).flatMap upperFirst = name := by
  rw [fragmentsOf, splitUnderscore_of_not_mem form.noUnderscore]
  cases name with
  | nil => rfl
  | cons first rest =>
    have kept : ([first :: rest].filter fun piece => !piece.isEmpty) = [first :: rest] := rfl
    rw [kept, List.flatMap_singleton, upperFirst_of_isName form]

theorem nameOf_of_isName {name : String} (form : IsName name.toList) : nameOf [name] = name := by
  rw [nameOf, fragments, List.flatMap_singleton, flatMap_fragmentsOf_of_isName form,
    String.ofList_toList]

/-- The name of a name is the name itself, and it has no underscore. The texts that are their own
name are those without an underscore that begin with a capital or are empty. -/
theorem nameOf_nameOf :
    (∀ keys : List String,
      nameOf [nameOf keys] = nameOf keys ∧ '_' ∉ (nameOf keys).toList) ∧
    ∀ name : String, nameOf [name] = name ↔ IsName name.toList := by
  refine ⟨fun keys => ?_, fun name => ⟨fun same => ?_, nameOf_of_isName⟩⟩
  · have form := isName_nameOf keys
    exact ⟨nameOf_of_isName form, form.noUnderscore⟩
  · rw [← same]
    exact isName_nameOf [name]

example : nameOf ["ßeta_x", "ŉ_ﬁx", "ᾳ"] = "SSetaXʼNFIxΑΙ" := by
  decide +kernel

end SchemaInterfaces.KeyPath
