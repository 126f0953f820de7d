/-
This file shows that a description gives away what its tree shows, and nothing else.
-/

import ExprTree.Proofs.Literal.RoundTrip
import ExprTree.Proofs.Node.Match
import ExprTree.Proofs.Node.Subtree
import ExprTree.Proofs.Text.Tells
import ExprTree.Session.Command

namespace ExprTree
open Session (Kind)

namespace Binary64

/-- Values are written as numerals or with the letters of the words for infinity and NaN. -/
def alphabet : List Char := Numeral.alphabet ++ "infNaN".toList

theorem textAlphabet (value : Float) : text value ⊆ alphabet := by
  rcases Nat.lt_trichotomy (magnitude value) infinity with finite | infinite | beyond
  · rcases Nat.eq_zero_or_pos (magnitude value) with none | positive
    · rw [textZero value none]
      cases isNegative value <;> decide
    · obtain ⟨numeral, written, _⟩ := textRounds value positive finite
      rw [← written]
      exact List.subset_append_of_subset_left _ numeral.textAlphabet
  · rw [textInfinity value infinite]
    cases isNegative value <;> decide
  · rw [textNotANumber value beyond]
    decide

theorem textInjective {first second : Float} (same : text first = text second) :
    first = second := by
  have read := textReads first
  rw [same, textReads second] at read
  exact (Except.ok.inj read).symm

/-- The text of a value ends where a foreign character follows it. -/
theorem tellsText (first second : Float) {mark : Char} (foreign : mark ∉ alphabet) :
    Text.Tells (first = second) (text first ++ [mark]) (text second ++ [mark]) := by
  have bare : ∀ value, mark ∉ text value := fun value => mt (@textAlphabet value mark) foreign
  exact (Text.tellsUntil (bare first) (bare second)).imp textInjective

end Binary64

/-- A list with separators is its first part, and every other part after a separator. -/
theorem Text.separated (separator part : List Char) (parts : List (List Char)) :
    separator.intercalate (part :: parts) = part ++ parts.flatMap (separator ++ ·) := by
  induction parts generalizing part with
  | nil => rw [List.intercalate_singleton, List.flatMap_nil, List.append_nil]
  | cons next parts ih =>
      rw [List.intercalate_cons_cons, ih, List.flatMap_cons, List.append_assoc, List.append_assoc]

namespace Session.Kind

/-- A description starts with the kind of the root. -/
def start : Kind → List Char
  | .number => "Number(Number(".toList
  | .variableLeaf => "Variable(Variable \x7b slot: Cell \x7b value: ".toList
  | .negation => "Negation(Negation \x7b operand: ".toList
  | .operator => "Operator(Operator \x7b op: 0x".toList
  | .function => "Function(Function \x7b name: ".toList

def separator : Kind → List Char
  | .operator => ", right: ".toList
  | _ => ", ".toList

def closing : Kind → List Char
  | .number => ")".toList
  | .variableLeaf => "\x7d \x7d)".toList
  | .negation | .operator => " \x7d)".toList
  | .function => "] \x7d)".toList

def isLeaf : Kind → Bool
  | .number | .variableLeaf => true
  | _ => false

theorem startsApart (first second : Kind) :
    first = second ∨ Text.Apart first.start second.start := by
  cases first <;> cases second <;> decide

/-- The children end where no separator follows. -/
theorem separatorApart (kind : Kind) : Text.Apart kind.separator kind.closing := by
  cases kind <;> decide

/-- A row of children under one kind of node tells every child. -/
theorem tellsChildren {Item Other : Type} {related : Item → Other → Prop}
    {write : Item → List Char} {writeOther : Other → List Char} (kind : Kind)
    {items : List Item} {others : List Other} (alike : items = [] ↔ others = [])
    (each : ∀ item ∈ items, ∀ other ∈ others,
      Text.Tells (related item other) (write item) (writeOther other)) :
    Text.Tells (List.Forall₂ related items others)
      (kind.separator.intercalate (items.map write) ++ kind.closing)
      (kind.separator.intercalate (others.map writeOther) ++ kind.closing) := by
  have apart : ∀ (text rest after : List Char),
      (kind.separator ++ text) ++ rest ≠ kind.closing ++ after := by
    intro text rest after
    rw [List.append_assoc]
    exact kind.separatorApart.append _ _
  cases items with
  | nil =>
      rw [alike.mp rfl]
      exact (Text.tellsSame _).imp fun _ => .nil
  | cons item items =>
      cases others with
      | nil => cases alike.mpr rfl
      | cons other others =>
          rw [List.map_cons, List.map_cons, Text.separated, Text.separated, List.append_assoc,
            List.append_assoc, List.flatMap_map, List.flatMap_map]
          have rest := Text.tellsList
            (fun item member other memberOther =>
              Text.tellsAppend (Text.tellsSame kind.separator) fun _ =>
                each item (List.mem_cons_of_mem _ member) other
                  (List.mem_cons_of_mem _ memberOther))
            (fun item => apart (write item)) (fun other => apart (writeOther other))
          apply (Text.tellsAppend (each item List.mem_cons_self other List.mem_cons_self)
            fun _ => rest).imp
          rintro ⟨head, tail⟩
          exact .cons head (tail.imp fun _ _ told => told.2)

end Session.Kind

/-- The face of a node is what its description shows of it beside its children. -/
inductive Face where
  | number (value : Float)
  | var (content : Float)
  | negation
  | operator (address : Nat)
  | function (name : String)

namespace Face

def kind : Face → Kind
  | .number _ => .number
  | .var _ => .variableLeaf
  | .negation => .negation
  | .operator _ => .operator
  | .function _ => .function

/-- The value of a leaf, an address or the name of a function stands after the kind. -/
def detail : Face → List Char
  | .number value => Binary64.text value ++ [')']
  | .var content => Binary64.text content ++ [' ']
  | .negation => []
  | .operator address => Text.hexadecimal address ++ [','] ++ " left: ".toList
  | .function name => Text.quote name ++ ", arguments: [".toList

theorem tellsDetail (first second : Face) (same : first.kind = second.kind) :
    Text.Tells (first = second) first.detail second.detail := by
  cases first with
  | number value =>
      cases second with
      | number other =>
          exact (Binary64.tellsText value other (by decide)).imp (congrArg number)
      | _ => cases same
  | var content =>
      cases second with
      | var other => exact (Binary64.tellsText content other (by decide)).imp (congrArg var)
      | _ => cases same
  | negation =>
      cases second with
      | negation => exact (Text.tellsSame _).imp fun _ => rfl
      | _ => cases same
  | operator address =>
      cases second with
      | operator other =>
          have bare : ∀ code, ',' ∉ Text.hexadecimal code :=
            fun code => Text.hexadecimalBare code (by decide)
          have digits := Text.tellsUntil (bare address) (bare other)
          exact (Text.tellsAppend digits fun _ => Text.tellsSame _).imp
            fun told => congrArg operator (Text.hexadecimalInjective told.1)
      | _ => cases same
  | function name =>
      cases second with
      | function other =>
          exact (Text.tellsAppend (Text.tellsQuote name other) fun _ => Text.tellsSame _).imp
            fun told => congrArg function told.1
      | _ => cases same

/-- The beginning of a description tells the face of the root. -/
theorem tellsFace (first second : Face) :
    Text.Tells (first = second) (first.kind.start ++ first.detail)
      (second.kind.start ++ second.detail) := by
  rcases first.kind.startsApart second.kind with same | apart
  · rw [same]
    exact (Text.tellsAppend (Text.tellsSame _) fun _ => tellsDetail first second same).imp And.right
  · exact Text.tellsApart apart _ _

end Face

namespace Node
variable {Hidden Other : Type} (addresses others : Addresses) (world : World Hidden)
  (elsewhere : World Other)

/-- A variable shows the value of its slot, and an operator the address of its operation. -/
def face : Node Hidden → Face
  | .number value => .number value
  | .var slot => .var (world.read slot)
  | .negation _ => .negation
  | .operator operation _ _ => .operator (addresses operation)
  | .unary name _ _ | .binary name _ _ _ | .ternary name _ _ _ _ => .function name

theorem kindLeaf (node : Node Hidden) :
    (node.face addresses world).kind.isLeaf = node.isLeaf := by
  cases node <;> rfl

/-- Nodes with equal faces both have children or both have none. -/
theorem faceChildren {first : Node Hidden} {second : Node Other}
    (same : first.face addresses world = second.face others elsewhere) :
    first.children = [] ↔ second.children = [] := by
  rw [← isLeafChildren, ← isLeafChildren, ← kindLeaf addresses world, same, kindLeaf]

theorem describeLast (separator : List Char) (node : Node Hidden) (rest : List Char) :
    node.describeBefore addresses world rest =
      separator.intercalate [node.describe addresses world] ++ rest := by
  rw [describeBeforeEq, List.intercalate_singleton]

theorem describeNext (separator : List Char) (node : Node Hidden) (next : List Char)
    (row : List (List Char)) (rest : List Char) :
    node.describeBefore addresses world
        (separator ++ (separator.intercalate (next :: row) ++ rest)) =
      separator.intercalate (node.describe addresses world :: next :: row) ++ rest := by
  rw [describeBeforeEq, List.intercalate_cons_cons, List.append_assoc, List.append_assoc]

/-- A function encloses the row of its arguments. -/
theorem describeFunctionRow (name : String) (arguments : List Char → List Char)
    (row : List Char) (law : ∀ rest, arguments rest = row ++ rest) :
    describeFunction name arguments [] =
      (Kind.function.start ++ (Face.function name).detail) ++ (row ++ Kind.function.closing) := by
  have parts : describeFunction name arguments [] =
      Kind.function.start ++ Text.quote name ++ ", arguments: [".toList ++
        arguments (Kind.function.closing ++ []) := rfl
  rw [parts, law, List.append_nil, List.append_assoc Kind.function.start]
  rfl

/-- The row of the children stands between the face of the root and its closing. -/
theorem describeFace (node : Node Hidden) :
    node.describe addresses world =
      ((node.face addresses world).kind.start ++ (node.face addresses world).detail) ++
        ((node.face addresses world).kind.separator.intercalate
          (node.children.map (describe addresses world)) ++
            (node.face addresses world).kind.closing) := by
  cases node with
  | number value =>
      change Kind.number.start ++ Binary64.text value ++ "))".toList ++ [] = _
      rw [List.append_nil, List.append_assoc, List.append_assoc]
      exact congrArg (_ ++ ·) (List.append_assoc _ [')'] Kind.number.closing).symm
  | var slot =>
      change Kind.variableLeaf.start ++ Binary64.text (world.read slot) ++
        " \x7d \x7d)".toList ++ [] = _
      rw [List.append_nil, List.append_assoc, List.append_assoc]
      exact congrArg (_ ++ ·) (List.append_assoc _ [' '] Kind.variableLeaf.closing).symm
  | negation operand =>
      change Kind.negation.start ++
        operand.describeBefore addresses world (Kind.negation.closing ++ []) = _
      rw [describeLast addresses world Kind.negation.separator, List.append_nil]
      exact congrArg (· ++ _) (List.append_nil _).symm
  | operator operation left right =>
      change Kind.operator.start ++ Text.hexadecimal (addresses operation) ++ ", left: ".toList ++
        left.describeBefore addresses world (Kind.operator.separator ++
          right.describeBefore addresses world (Kind.operator.closing ++ [])) = _
      rw [describeLast addresses world Kind.operator.separator right, describeNext, List.append_nil,
        List.append_assoc Kind.operator.start]
      exact congrArg (fun detail => Kind.operator.start ++ detail ++ _)
        (List.append_assoc _ [','] " left: ".toList).symm
  | unary name body argument =>
      exact describeFunctionRow name _ _
        (describeLast addresses world Kind.function.separator argument)
  | binary name body first second =>
      refine describeFunctionRow name (fun rest => first.describeBefore addresses world
        (Kind.function.separator ++ second.describeBefore addresses world rest)) _ fun rest => ?_
      rw [describeLast addresses world Kind.function.separator second, describeNext]
      rfl
  | ternary name body condition first second =>
      refine describeFunctionRow name (fun rest => condition.describeBefore addresses world
        (Kind.function.separator ++ first.describeBefore addresses world
          (Kind.function.separator ++ second.describeBefore addresses world rest))) _ fun rest => ?_
      rw [describeLast addresses world Kind.function.separator second, describeNext, describeNext]
      rfl

/-- A node shows its face and the number of its children. -/
def shown (node : Node Hidden) : Face × Nat := (node.face addresses world, node.children.length)

theorem tellsDescription (first : Node Hidden) (second : Node Other) :
    Text.Tells (Matches (shown addresses world) (shown others elsewhere) first second)
      (first.describe addresses world) (second.describe others elsewhere) := by
  induction first using childInduction generalizing second with
  | step first ih =>
      rw [describeFace, describeFace]
      have root := Face.tellsFace (first.face addresses world) (second.face others elsewhere)
      apply (Text.tellsAppend root fun same => ?row).imp ?all
      case row =>
        rw [← same]
        exact Kind.tellsChildren _ (faceChildren addresses others world elsewhere same)
          fun child member other _ => ih child member other
      case all =>
        rintro ⟨same, children⟩
        exact (matchesChildren _ _ _ _).mpr ⟨Prod.ext same children.length_eq, children⟩

/-- Trees that show the same are described alike. -/
theorem matchesDescription (first : Node Hidden) (second : Node Other)
    (same : Matches (shown addresses world) (shown others elsewhere) first second) :
    first.describe addresses world = second.describe others elsewhere := by
  induction first using childInduction generalizing second with
  | step first ih =>
      obtain ⟨root, below⟩ := (matchesChildren _ _ _ _).mp same
      have parts : first.children.map (describe addresses world) =
          second.children.map (describe others elsewhere) := by
        rw [← List.forall₂_eq_eq_eq, List.forall₂_map_left_iff, List.forall₂_map_right_iff]
        apply ((List.forall₂_and_left _ _).mpr ⟨ih, below⟩).imp
        rintro child other ⟨equal, below⟩
        exact equal other below
      rw [describeFace, describeFace, (Prod.mk.inj root).1, parts]

end Node

/--
Two descriptions are equal exactly when the trees have nodes of the same kinds at the same
positions, functions with equal names and as many arguments, leaves with equal values and
operators with operations at equal addresses. All that is not a number is one value. No description
is a proper prefix of another one.
-/
theorem descriptionsDetermineTrees {Hidden Other : Type} (addresses others : Node.Addresses)
    (world : World Hidden) (elsewhere : World Other) (first : Node Hidden) (second : Node Other) :
    (first.describe addresses world = second.describe others elsewhere ↔
      Node.Matches (Node.shown addresses world) (Node.shown others elsewhere) first second) ∧
    (first.describe addresses world <+: second.describe others elsewhere ↔
      first.describe addresses world = second.describe others elsewhere) := by
  have tells := Node.tellsDescription addresses others world elsewhere first second
  refine ⟨⟨fun same => ?_,
    Node.matchesDescription addresses others world elsewhere first second⟩, ?_, ?_⟩
  · exact (tells [] [] (congrArg (· ++ []) same)).1
  · rintro ⟨rest, longer⟩
    obtain ⟨-, done⟩ := tells rest [] (longer.trans (List.append_nil _).symm)
    rw [← longer, done, List.append_nil]
  · intro same
    exact same ▸ List.prefix_rfl

end ExprTree
