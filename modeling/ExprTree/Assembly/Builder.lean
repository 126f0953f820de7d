/-
This file assembles numbers and functions and refuses faulty parts.
-/

import ExprTree.Assembly.Diagnostic
import ExprTree.Assembly.Error
import ExprTree.Node.Basic

namespace ExprTree

/-- A literal that cannot be read is reported and kept untrimmed in the error. -/
def readNumber (text : String) : Reported (Except AssemblyError Float) :=
  match Literal.read text with
  | .ok literal => .silent (.ok literal.value)
  | .error fault => ⟨.error (.rejectedLiteral text fault), [.rejectedLiteral text]⟩

/-- A builder is a function that waits for its arguments. -/
structure Builder (Hidden : Type) where
  name : String
  callable : Callable Hidden

namespace Builder

def arity {Hidden : Type} (builder : Builder Hidden) : Nat := builder.callable.arity

/-- A function exists only with as many arguments as its body takes. -/
def assemble? {Hidden : Type} (builder : Builder Hidden) (arguments : List (Node Hidden)) :
    Option (Node Hidden) :=
  match builder.callable, arguments with
  | .unary body, [argument] => some (.unary builder.name body argument)
  | .binary body, [first, second] => some (.binary builder.name body first second)
  | .ternary body, [condition, first, second] =>
      some (.ternary builder.name body condition first second)
  | _, _ => none

/-- All parameters are present, or the first absent one has a position counted from `position`. -/
def presentFrom {Parameter : Type} (position : Nat) :
    List (Option Parameter) → Except Nat (List Parameter)
  | [] => .ok []
  | none :: _ => .error position
  | some parameter :: rest => (presentFrom (position + 1) rest).map (parameter :: ·)

theorem presentLength {Parameter : Type} (position : Nat) (parameters : List (Option Parameter))
    (arguments : List Parameter) (present : presentFrom position parameters = .ok arguments) :
    parameters = arguments.map some := by
  induction parameters generalizing position arguments with
  | nil =>
      cases present
      rfl
  | cons parameter rest ih =>
      cases parameter with
      | none => cases present
      | some parameter =>
          simp only [presentFrom] at present
          cases tail : presentFrom (position + 1) rest with
          | error absent => simp [tail, Except.map] at present
          | ok remaining =>
              simp only [tail, Except.map, Except.ok.injEq] at present
              subst present
              simp [ih (position + 1) remaining tail]

/-- A list as long as the arity always makes a function. -/
theorem assembleSome {Hidden : Type} (builder : Builder Hidden) (arguments : List (Node Hidden))
    (fits : arguments.length = builder.arity) : (builder.assemble? arguments).isSome := by
  obtain ⟨name, callable⟩ := builder
  cases callable <;> simp only [arity, Callable.arity] at fits
  · match arguments, fits with
    | [_], _ => rfl
  · match arguments, fits with
    | [_, _], _ => rfl
  · match arguments, fits with
    | [_, _, _], _ => rfl

/--
The count is checked before the presence of each parameter.
No check evaluates a parameter.
-/
def setParameters {Hidden : Type} (builder : Builder Hidden)
    (parameters : List (Option (Node Hidden))) : Reported (Except AssemblyError (Node Hidden)) :=
  let assigning :=
    Diagnostic.assigningParameters builder.name builder.arity parameters.length
  if fits : parameters.length = builder.arity then
    match present : presentFrom 1 parameters with
    | .ok arguments =>
        ⟨.ok ((builder.assemble? arguments).get (builder.assembleSome arguments (by
          rw [presentLength 1 parameters arguments present, List.length_map] at fits
          exact fits))), [assigning]⟩
    | .error position =>
        ⟨.error (.missingArgument builder.name position),
          [assigning, .missingArgument position]⟩
  else
    ⟨.error (.wrongCount builder.name builder.arity parameters.length), [assigning, .wrongCount]⟩

end Builder

end ExprTree
