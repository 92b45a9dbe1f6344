import Mathlib.Data.Char
import Mathlib.Data.List.Lex
import Mathlib.Data.Prod.Lex
import Masthead.Path
import Masthead.Proofs.Text.Split

/-!
# Paths by their components

Paths are ordered as the lists of their components are, so that paths of one place in the order are paths with the
same components. A name that is put below a path is one more component.
-/

namespace Masthead

/-! ## The order -/

theorem cons_le_cons_iff_ite {α : Type*} [LinearOrder α] (first second : α) (rest others : List α) :
    first :: rest ≤ second :: others ↔ if first = second then rest ≤ others else first < second := by
  rw [← not_lt, List.cons_lt_cons_iff]
  split
  · next same => simp [same]
  · next different => simp [Ne.symm different, lt_iff_le_and_ne, different]

theorem nil_le_list {α : Type*} [LinearOrder α] (list : List α) : [] ≤ list :=
  not_lt.mp (List.not_lt_nil list)

theorem Text.lessOrEqual_iff {text other : Text} : Text.lessOrEqual text other = true ↔ text ≤ other := by
  induction text generalizing other with
  | nil => simp [Text.lessOrEqual, nil_le_list]
  | cons first text inductionHypothesis =>
    cases other with
    | nil => simp [Text.lessOrEqual]
    | cons second other =>
      rw [Text.lessOrEqual, cons_le_cons_iff_ite]
      split
      · exact inductionHypothesis
      · exact decide_eq_true_iff

namespace PathComponent

/-- The place of a component in the order: its kind first, and then what it says. -/
def place (component : PathComponent) : Nat ×ₗ Text :=
  match component with
  | name text => toLex (component.rank, text)
  | _ => toLex (component.rank, [])

theorem place_injective : Function.Injective place := by
  intro component other same
  cases component <;> cases other <;> simp_all [place, rank]

theorem lessOrEqual_iff {component other : PathComponent} :
    component.lessOrEqual other = true ↔ component.place ≤ other.place := by
  cases component <;> cases other <;>
    simp [lessOrEqual, place, rank, Prod.Lex.toLex_le_toLex, Text.lessOrEqual_iff]

end PathComponent

namespace Path

/-- The place of a path in the order. -/
def place (path : Path) : List (Nat ×ₗ Text) :=
  path.components.map PathComponent.place

theorem place_eq_iff {path other : Path} : path.place = other.place ↔ path.components = other.components :=
  (List.map_injective_iff.mpr PathComponent.place_injective).eq_iff

theorem same_iff {path other : Path} : path.same other = true ↔ path.place = other.place := by
  rw [same, beq_iff_eq, place_eq_iff]

theorem lessOrEqualComponents_iff {components others : List PathComponent} :
    lessOrEqualComponents components others = true ↔
      components.map PathComponent.place ≤ others.map PathComponent.place := by
  induction components generalizing others with
  | nil => simp [lessOrEqualComponents, nil_le_list]
  | cons first components inductionHypothesis =>
    cases others with
    | nil => simp [lessOrEqualComponents]
    | cons second others =>
      rw [lessOrEqualComponents, List.map_cons, List.map_cons, cons_le_cons_iff_ite]
      by_cases same : first = second
      · simp [same, inductionHypothesis]
      · have apart : first.place ≠ second.place := PathComponent.place_injective.ne same
        rw [if_neg same, if_neg apart, PathComponent.lessOrEqual_iff, le_iff_lt_or_eq, or_iff_left apart]

theorem lessOrEqual_iff {path other : Path} : path.lessOrEqual other = true ↔ path.place ≤ other.place :=
  lessOrEqualComponents_iff

/-- Whether a path stands before another in the order, and has other components. -/
def Precedes (path other : Path) : Prop :=
  path.lessOrEqual other = true ∧ path.components ≠ other.components

theorem precedes_iff {path other : Path} : path.Precedes other ↔ path.place < other.place := by
  rw [Precedes, lessOrEqual_iff, ne_eq, ← place_eq_iff, lt_iff_le_and_ne]

/-! ## Names below a path -/

/-- Whether a text is the name of a file or folder, and not a part of a path that says something else. -/
def IsName (text : Text) : Prop :=
  text ≠ [] ∧ text ≠ ['.'] ∧ text ≠ ['.', '.'] ∧ '/' ∉ text

/-- The components that the parts of a path say. -/
theorem components_eq (path : Path) :
    path.components
      = (if isAbsolute path then [PathComponent.root]
          else if (Text.splitOn '/' path).head? = some ['.'] then [PathComponent.here] else []) ++
        (Text.splitOn '/' path).filterMap componentOf? := by
  rw [components]
  split
  · rfl
  · split <;> rfl

/-- A part behind a stroke is one more component, if it says anything. -/
theorem components_append_stroke (front : Path) {last : Text} (absent : '/' ∉ last) :
    (front ++ '/' :: last).components = (front ++ ['/']).components ++ (componentOf? last).toList := by
  have parts (last : Text) (absent : '/' ∉ last) :
      Text.splitOn '/' (front ++ '/' :: last) = Text.splitOn '/' front ++ [last] := by
    rw [Text.splitOn_append_cons, Text.splitOn_of_not_mem absent]
  have absolute : isAbsolute (front ++ '/' :: last) = isAbsolute (front ++ ['/']) := by
    cases front <;> rfl
  have nonempty := Text.splitOn_ne_nil '/' front
  rw [components_eq, components_eq, parts last absent, parts [] List.not_mem_nil, absolute,
    List.head?_append_of_ne_nil _ nonempty, List.head?_append_of_ne_nil _ nonempty, List.filterMap_append,
    List.filterMap_append]
  have silent : componentOf? [] = none := rfl
  cases said : componentOf? last <;> simp [said, silent]

theorem components_append_last_stroke {path : Path} (nonempty : path ≠ []) :
    (path ++ ['/']).components = path.components := by
  obtain ⟨first, rest, rfl⟩ := List.exists_cons_of_ne_nil nonempty
  have parts : Text.splitOn '/' (first :: rest ++ ['/']) = Text.splitOn '/' (first :: rest) ++ [[]] :=
    Text.splitOn_append_cons '/' (first :: rest) []
  have absolute : isAbsolute (first :: rest ++ ['/']) = isAbsolute (first :: rest) := rfl
  rw [components_eq, components_eq, parts, absolute,
    List.head?_append_of_ne_nil _ (Text.splitOn_ne_nil '/' (first :: rest)), List.filterMap_append]
  simp [componentOf?]

theorem components_join {base : Path} {name : Text} (nonempty : base ≠ []) (isName : IsName name) :
    (join base name).components = base.components ++ [.name name] := by
  obtain ⟨visible, notHere, notParent, noStroke⟩ := isName
  have said : componentOf? name = some (.name name) := by simp [componentOf?, visible, notHere, notParent]
  have relative : isAbsolute name = false := by
    obtain ⟨first, rest, rfl⟩ := List.exists_cons_of_ne_nil visible
    have different : first ≠ '/' := (List.ne_of_not_mem_cons noStroke).symm
    simp [isAbsolute, different]
  rw [join, relative]
  -- A stroke is put between the two unless there is one.
  by_cases ended : base.getLast? = some '/'
  · obtain ⟨front, rfl⟩ := List.getLast?_eq_some_iff.mp ended
    have isEnded : (List.isEmpty (front ++ ['/']) || (front ++ ['/']).getLast? == some '/') = true := by simp
    rw [if_neg Bool.false_ne_true, if_pos isEnded, List.append_assoc, List.singleton_append,
      components_append_stroke front noStroke, said, Option.toList_some]
  · have isOpen : ¬ (List.isEmpty base || base.getLast? == some '/') = true := by simp [nonempty, ended]
    rw [if_neg Bool.false_ne_true, if_neg isOpen, components_append_stroke base noStroke,
      components_append_last_stroke nonempty, said, Option.toList_some]

theorem join_ne_nil {base : Path} {name : Text} (nonempty : base ≠ []) (isName : IsName name) :
    join base name ≠ [] := by
  intro empty
  have named := components_join nonempty isName
  rw [empty] at named
  exact List.append_ne_nil_of_right_ne_nil _ (List.cons_ne_nil _ _) named.symm

/-- Names put below a path one after the other. -/
theorem components_foldl_join {base : Path} {names : List Text} (nonempty : base ≠ [])
    (areNames : ∀ name ∈ names, IsName name) :
    (names.foldl join base).components = base.components ++ names.map .name := by
  induction names generalizing base with
  | nil => simp
  | cons name names inductionHypothesis =>
    have isName := areNames name List.mem_cons_self
    rw [List.foldl_cons, inductionHypothesis (join_ne_nil nonempty isName) fun other member =>
      areNames other (List.mem_cons_of_mem _ member), components_join nonempty isName]
    simp

end Path

end Masthead
