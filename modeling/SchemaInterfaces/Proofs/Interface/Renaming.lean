import Mathlib.Data.List.Forall2
import SchemaInterfaces.Proofs.Interface.Provenance
import SchemaInterfaces.Proofs.KeyPath

/-!
# Hoisting under another name

Where an object stands enters its interfaces only as the beginning of their names. Hoisted at two
paths, the same properties lead to the same interfaces with the same fields; the name of each
interface, and each name that a field refers to, begins with the name of the path and goes on in a
way that the properties alone decide (`ofObject_isRenamed`). That holds whether or not the names
that come out are different from each other.
-/
namespace SchemaInterfaces

/-- The same field of two interfaces whose names begin with `first` and with `second`: it has one
name, one description, and one type unless the type is the name of an interface. -/
structure Field.IsRenamed (first second : String) (field other : Field) : Prop where
  name : other.name = field.name
  description : other.description = field.description
  type : (field.type.references = [] ∧ other.type = field.type) ∨
    ∃ ending, field.type = .named (first ++ ending) ∧ other.type = .named (second ++ ending)

/-- The same interface under names that begin with `first` and with `second`. -/
structure Interface.IsRenamed (first second : String) (declared other : Interface) : Prop where
  name : ∃ ending, declared.name = first ++ ending ∧ other.name = second ++ ending
  description : other.description = declared.description
  fields : List.Forall₂ (Field.IsRenamed first second) declared.fields other.fields

/-- Two maps of one list are related where they are related at each item. -/
theorem forall₂_map_map {α β γ : Type} {R : β → γ → Prop} {f : α → β} {g : α → γ} {l : List α}
    (related : ∀ a, R (f a) (g a)) : List.Forall₂ R (l.map f) (l.map g) := by
  apply List.forall₂_map_left_iff.mpr
  apply List.forall₂_map_right_iff.mpr
  exact List.forall₂_same.mpr fun a _ => related a

namespace Hoisted

/-- The interfaces of an object are those of the definitions that expand below it, and its own. -/
theorem interfaces_ofObject (path : KeyPath) (properties : List (String × Document))
    (description : Option String) :
    (ofObject path (Definition.ofEntries properties) description).interfaces =
      ((underKeys expansions properties).map fun found =>
        interfaceOf (path.keys ++ found.1) found.2) ++
      [⟨path.interfaceName, description, properties.map (fieldOf path.keys)⟩] := by
  rw [Definition.ofEntries_eq_map, ofObject_ofDocument]
  simp only [underKeys, List.map_flatMap, List.map_map]
  congr 1
  apply List.flatMap_congr
  intro entry _
  rw [interfaces_eq_map_expansions]
  simp [KeyPath.child]

section

variable (first second : KeyPath) (below : List String)

theorem nameOf_below (path : KeyPath) :
    KeyPath.nameOf (path.keys ++ below) = path.interfaceName ++ KeyPath.nameOf below :=
  KeyPath.nameOf_append path.keys below

theorem fieldOf_isRenamed (property : String × Document) :
    (fieldOf (first.keys ++ below) property).IsRenamed first.interfaceName second.interfaceName
      (fieldOf (second.keys ++ below) property) where
  name := rfl
  description := rfl
  type := by
    unfold fieldOf
    cases property.2.isExpanding with
    | false => exact .inl ⟨FieldType.references_inline _, rfl⟩
    | true =>
      have child (path : KeyPath) : KeyPath.nameOf (path.keys ++ below ++ [property.1]) =
          path.interfaceName ++ KeyPath.nameOf (below ++ [property.1]) := by
        rw [List.append_assoc, nameOf_below]
      exact .inr ⟨_, congrArg FieldType.named (child first),
        congrArg FieldType.named (child second)⟩

theorem fields_isRenamed (properties : List (String × Document)) :
    List.Forall₂ (Field.IsRenamed first.interfaceName second.interfaceName)
      (properties.map (fieldOf (first.keys ++ below)))
      (properties.map (fieldOf (second.keys ++ below))) :=
  forall₂_map_map (fieldOf_isRenamed first second below)

theorem interfaceOf_isRenamed (definition : Document) :
    (interfaceOf (first.keys ++ below) definition).IsRenamed first.interfaceName
      second.interfaceName (interfaceOf (second.keys ++ below) definition) where
  name := ⟨KeyPath.nameOf below, nameOf_below below first, nameOf_below below second⟩
  description := rfl
  fields := fields_isRenamed first second below definition.properties

end

/-- Hoisting the same properties at another path changes nothing but what the names begin with. -/
theorem ofObject_isRenamed (properties : List (String × Document)) (description : Option String) :
    ∃ endings : List String, ∀ first second : KeyPath,
      let one := ofObject first (Definition.ofEntries properties) description
      let other := ofObject second (Definition.ofEntries properties) description
      one.type = .named first.interfaceName ∧ other.type = .named second.interfaceName ∧
      one.interfaces.map (·.name) = endings.map (first.interfaceName ++ ·) ∧
      other.interfaces.map (·.name) = endings.map (second.interfaceName ++ ·) ∧
      List.Forall₂ (Interface.IsRenamed first.interfaceName second.interfaceName)
        one.interfaces other.interfaces := by
  have names (path : KeyPath) :
      (ofObject path (Definition.ofEntries properties) description).interfaces.map (·.name) =
        ((underKeys expansions properties).map (fun found => KeyPath.nameOf found.1) ++ [""]).map
          (path.interfaceName ++ ·) := by
    rw [interfaces_ofObject]
    simp [interfaceOf, nameOf_below]
  refine ⟨_, fun first second => ⟨rfl, rfl, names first, names second, ?_⟩⟩
  rw [interfaces_ofObject, interfaces_ofObject]
  apply List.rel_append
  · exact forall₂_map_map fun found => interfaceOf_isRenamed first second found.1 found.2
  · have fields := fields_isRenamed first second [] properties
    rw [List.append_nil, List.append_nil] at fields
    exact .cons ⟨⟨"", by simp, by simp⟩, rfl, fields⟩ .nil

end Hoisted

end SchemaInterfaces
