import SchemaInterfaces.Proofs.Schema.Properties
import SchemaInterfaces.Proofs.Text.Blank

/-!
# What a definition says

The description and the content of a definition, told by what stands under its keys and without any
reference to how definitions are classified. The classification finds just these: the description
(`isDescribed_iff`), the properties (`Content.isOf_iff_object`), and for a definition without
properties all that its type says (`Content.isOf_iff_plain`).
-/
namespace SchemaInterfaces

/-- What a definition says besides its description; `α` stands for what its properties amount to.
An object has at least one property here, any other counts as opaque. -/
inductive Content (α : Type) where
  | text
  | choice (members : List String)
  | number
  | list (element : Element)
  | object (first : String × α) (rest : List (String × α))
  | opaqueObject

namespace Document

/-- The text under `description` without the blank characters at its ends; there is no description
where no text stands there or nothing is left of it. -/
inductive IsDescribed (definition : Document) : Option String → Prop where
  | some {text description : String} (held : definition.get? "description" = some (.text text))
      (trimmed : Text.IsTrimmed text.toList description.toList) (nonempty : description ≠ "") :
      IsDescribed definition (some description)
  | none (nothing : ∀ text, definition.get? "description" = some (.text text) →
      Text.IsTrimmed text.toList []) : IsDescribed definition none

def HasType (definition : Document) (label : String) : Prop :=
  definition.get? "type" = some (.text label)

/-- The type of the items of a list. -/
def HasItemType (definition : Document) (label : String) : Prop :=
  ∃ items, definition.get? "items" = some items ∧ items.HasType label

/-- What a list definition says about its items. -/
inductive HasElement (definition : Document) : Element → Prop where
  | any (noType : ∀ label, ¬ definition.HasItemType label) : HasElement definition .any
  | text (type : definition.HasItemType "string") : HasElement definition (.primitive .text)
  | number {label : String} (type : definition.HasItemType label)
      (known : label = "integer" ∨ label = "number") : HasElement definition (.primitive .number)
  | label {name : String} (type : definition.HasItemType name)
      (other : name ∉ ["string", "integer", "number"]) : HasElement definition (.label name)

end Document

/-- The content of a definition, where `relates` says what its properties amount to. -/
inductive Content.IsOf {α : Type} (relates : α → Document → Prop) :
    Content α → Document → Prop where
  | text {definition : Document} (type : definition.HasType "string")
      (plain : ∀ members, definition.get? "enum" ≠ some (.sequence members)) :
      IsOf relates .text definition
  /-- Members of an `enum` that are no texts are left out. -/
  | choice {definition : Document} {members : List Document} (type : definition.HasType "string")
      (listed : definition.get? "enum" = some (.sequence members)) :
      IsOf relates (.choice (members.filterMap Document.text?)) definition
  | number {definition : Document} {label : String} (type : definition.HasType label)
      (known : label = "integer" ∨ label = "number") : IsOf relates .number definition
  | list {definition : Document} {element : Element} (type : definition.HasType "array")
      (items : definition.HasElement element) : IsOf relates (.list element) definition
  | object {definition : Document} {properties : List (String × Document)}
      {first : String × α} {rest : List (String × α)} (type : definition.HasType "object")
      (held : definition.get? "properties" = some (.mapping properties))
      (keys : (first :: rest).map Prod.fst = properties.map Prod.fst)
      (inside : List.Forall₂ relates ((first :: rest).map Prod.snd) (properties.map Prod.snd)) :
      IsOf relates (.object first rest) definition
  | opaqueObject {definition : Document}
      (other : ∀ label ∈ ["string", "integer", "number", "array"], ¬ definition.HasType label)
      (noProperties : definition.HasType "object" → ∀ first rest,
        definition.get? "properties" ≠ some (.mapping (first :: rest))) :
      IsOf relates .opaqueObject definition

/-! ### What classification finds -/

/-- The content of a definition that has no properties. -/
def Content.plain {α β : Type} : Shape α → Content β
  | .primitive .text => text
  | .primitive .number => number
  | .choice members => choice members
  | .list element => list element
  | .object _ => opaqueObject
  | .opaqueObject => opaqueObject

section

variable {definition : Document}

theorem isDescribed_iff (definition : Document) (description : Option String) :
    definition.IsDescribed description ↔ description = descriptionOf definition := by
  unfold descriptionOf
  cases label : Shape.label? definition "description" with
  | none =>
    have nothing (text : String) : definition.get? "description" ≠ some (.text text) := by
      rw [Ne, ← Document.label?_eq_some_iff, label]
      simp
    constructor
    · rintro (⟨held, _, _⟩ | _)
      · exact absurd held (nothing _)
      · rfl
    · rintro rfl
      exact .none fun text held => absurd held (nothing text)
  | some text =>
    have held := (Document.label?_eq_some_iff definition "description" text).mp label
    have own {other : String} (h : definition.get? "description" = some (.text other)) :
        other = text := by
      rw [held] at h
      cases h
      rfl
    have trimmed : Text.IsTrimmed text.toList (Text.trim text).toList := by
      rw [Text.trim, String.toList_ofList]
      exact Text.isTrimmed_dropBlankEnds _
    have unique {left : List Char} (h : Text.IsTrimmed text.toList left) :
        left = (Text.trim text).toList :=
      ((Text.isTrimmed_iff _ _).mp h).trans ((Text.isTrimmed_iff _ _).mp trimmed).symm
    dsimp only
    constructor
    · rintro (⟨held', trimmed', nonempty⟩ | nothing)
      · obtain rfl := own held'
        rw [String.toList_injective (unique trimmed')] at nonempty ⊢
        rw [if_neg (by simpa using nonempty)]
      · have empty : Text.trim text = "" := String.toList_injective (unique (nothing _ held)).symm
        rw [empty]
        rfl
    · rintro rfl
      split
      next empty =>
        refine .none fun other h => ?_
        obtain rfl := own h
        rwa [String.isEmpty_iff.mp empty] at trimmed
      next nonempty => exact .some held trimmed (by simpa using nonempty)

theorem hasItemType_iff (definition : Document) (label : String) :
    definition.HasItemType label ↔
      (definition.get? "items").bind (Shape.label? · "type") = some label := by
  simp only [Document.HasItemType, Document.HasType, Option.bind_eq_some_iff,
    Document.label?_eq_some_iff]

theorem hasElement_iff (definition : Document) (element : Element) :
    definition.HasElement element ↔ element = Shape.element definition := by
  unfold Shape.element
  cases label : (definition.get? "items").bind (Shape.label? · "type") with
  | none =>
    have noType (name : String) : ¬ definition.HasItemType name := by
      rw [hasItemType_iff, label]
      simp
    constructor
    · intro h
      cases h with
      | any => rfl
      | text type | number type | label type => exact absurd type (noType _)
    · rintro rfl
      exact .any noType
  | some name =>
    have type := (hasItemType_iff definition name).mpr label
    have own {other : String} (h : definition.HasItemType other) : other = name := by
      rw [hasItemType_iff, label] at h
      exact (Option.some.inj h).symm
    constructor
    · intro h
      cases h with
      | any noType => exact absurd type (noType _)
      | text type =>
        obtain rfl := own type
        rfl
      | number type known =>
        obtain rfl := own type
        rcases known with rfl | rfl <;> rfl
      | label type other =>
        obtain rfl := own type
        simp only [List.mem_cons, List.not_mem_nil, or_false, not_or] at other
        simp [Primitive.ofLabel?, other]
    · rintro rfl
      by_cases isText : name = "string"
      · subst isText
        exact .text type
      · by_cases isNumber : name = "integer" ∨ name = "number"
        · simp only [Primitive.ofLabel?, isText, isNumber, if_true, if_false]
          exact .number type isNumber
        · simp only [Primitive.ofLabel?, isText, isNumber, if_false]
          exact .label type (by simp [isText, not_or.mp isNumber])

theorem content_plain_ne_object {α β : Type} (shape : Shape α) (first : String × β)
    (rest : List (String × β)) : Content.plain shape ≠ .object first rest := by
  cases shape with
  | primitive kind => cases kind <;> simp [Content.plain]
  | choice members => simp [Content.plain]
  | list element => simp [Content.plain]
  | object properties => simp [Content.plain]
  | opaqueObject => simp [Content.plain]

theorem enum_eq_some_iff (definition : Document) (members : List Document) :
    (definition.get? "enum").bind Document.sequence? = some members ↔
      definition.get? "enum" = some (.sequence members) := by
  rw [Option.bind_eq_some_iff]
  constructor
  · rintro ⟨value, held, same⟩
    cases value with
    | sequence items => rwa [← Option.some.inj same]
    | _ => cases same
  · intro held
    exact ⟨_, held, rfl⟩

/-- A definition without properties is what its classification says. -/
theorem Content.isOf_iff_plain {α : Type} (relates : α → Document → Prop) (content : Content α)
    (noProperties : definition.properties = []) :
    content.IsOf relates definition ↔ content = .plain (Shape.ofDocument definition) := by
  have label (key text : String) := Document.label?_eq_some_iff definition key text
  have noEntry (type : definition.HasType "object") (first : String × Document)
      (rest : List (String × Document)) :
      definition.get? "properties" ≠ some (.mapping (first :: rest)) := by
    intro held
    rw [(Document.properties_eq_cons_iff definition first rest).mpr ⟨type, held⟩] at noProperties
    cases noProperties
  unfold Shape.ofDocument Shape.ofParts
  constructor
  · intro h
    cases h with
    | text type plain =>
      rw [(label _ _).mpr type]
      cases listed : (definition.get? "enum").bind Document.sequence? with
      | none => rfl
      | some members => exact absurd ((enum_eq_some_iff definition members).mp listed) (plain _)
    | choice type listed =>
      rw [(label _ _).mpr type, listed]
      rfl
    | number type known => rcases known with rfl | rfl <;> rw [(label _ _).mpr type] <;> rfl
    | list type items =>
      rw [(label _ _).mpr type, (hasElement_iff definition _).mp items]
      rfl
    | @object _ properties _ _ type held keys inside =>
      cases properties with
      | nil => cases keys
      | cons property others => exact absurd held (noEntry type property others)
    | opaqueObject other =>
      split
      next type => exact absurd ((label _ _).mp type) (other _ (by simp))
      next type => exact absurd ((label _ _).mp type) (other _ (by simp))
      next type => exact absurd ((label _ _).mp type) (other _ (by simp))
      next type => exact absurd ((label _ _).mp type) (other _ (by simp))
      next => split <;> rfl
      next => rfl
  · rintro rfl
    split
    next type =>
      split
      next members listed =>
        exact .choice ((label _ _).mp type) ((enum_eq_some_iff definition members).mp listed)
      next unlisted =>
        refine .text ((label _ _).mp type) fun members held => ?_
        rw [(enum_eq_some_iff definition members).mpr held] at unlisted
        cases unlisted
    next type => exact .number ((label _ _).mp type) (.inl rfl)
    next type => exact .number ((label _ _).mp type) (.inr rfl)
    next type => exact .list ((label _ _).mp type) ((hasElement_iff definition _).mpr rfl)
    next type =>
      have opaqueHere : (Content.opaqueObject : Content α).IsOf relates definition := by
        refine .opaqueObject (fun other member type' => ?_) noEntry
        cases ((label _ _).mpr type').symm.trans type
        simp at member
      split
      · exact opaqueHere
      · exact opaqueHere
    next noText noInteger noNumber noArray noObject =>
      refine .opaqueObject (fun other member type => ?_) noEntry
      have type := (label _ _).mpr type
      simp only [List.mem_cons, List.not_mem_nil, or_false] at member
      rcases member with rfl | rfl | rfl | rfl
      · exact noText type
      · exact noInteger type
      · exact noNumber type
      · exact noArray type

/-- The content of a definition with properties is an object with what these amount to. -/
theorem Content.isOf_iff_object {α : Type} (relates : α → Document → Prop) (content : Content α)
    (expands : definition.properties ≠ []) :
    content.IsOf relates definition ↔ ∃ first rest, content = .object first rest ∧
      (first :: rest).map Prod.fst = definition.properties.map Prod.fst ∧
      List.Forall₂ relates ((first :: rest).map Prod.snd)
        (definition.properties.map Prod.snd) := by
  obtain ⟨property, others, properties⟩ := List.exists_cons_of_ne_nil expands
  obtain ⟨type, held⟩ := (Document.properties_eq_cons_iff definition property others).mp properties
  have isObject {label : String} (other : definition.HasType label) : label = "object" := by
    rw [Document.HasType, type] at other
    cases other
    rfl
  constructor
  · intro h
    cases h with
    | text type | choice type | list type => exact absurd (isObject type) (by decide)
    | number type known =>
      rcases known with rfl | rfl <;> exact absurd (isObject type) (by decide)
    | object _ held' keys inside =>
      rw [held] at held'
      cases held'
      exact ⟨_, _, rfl, properties ▸ keys, properties ▸ inside⟩
    | opaqueObject _ noProperties => exact absurd held (noProperties type _ _)
  · rintro ⟨first, rest, rfl, keys, inside⟩
    exact .object type held (properties ▸ keys) (properties ▸ inside)

end

end SchemaInterfaces
