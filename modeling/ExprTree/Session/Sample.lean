/-
This file holds sample operations and sample bodies with side effects.
-/

import ExprTree.Binary64.Truth
import ExprTree.Node.Basic

namespace ExprTree.Session

/-- Sample operations are plain functions of two operands. -/
inductive SampleOperation where
  | first
  | second
  | distance
deriving DecidableEq, Repr

def SampleOperation.apply : SampleOperation → Float → Float → Float
  | .first, left, _ => left
  | .second, _, right => right
  | .distance, left, right => (left - right).abs

/-- Sample bodies pass values on, keep a trace, count their calls or act on a variable. -/
inductive SampleBody (Target : Type) where
  | identity
  | double
  | record
  | counter
  | setVariable (target : Target)
  | addVariable (target : Target)
  | difference
  | recordBoth
  | pickOrAverage
  | recordChoice
deriving DecidableEq, Repr

/-- A counter keeps its count in the given cell. -/
def SampleBody.callable (cell : Cell) : SampleBody Slot → Callable Nat
  | .identity => .unary fun x => .done x
  | .double => .unary fun x => .done (2.0 * x)
  | .record => .unary fun x => .record x (.done x)
  | .counter => .unary fun x =>
      .load cell fun content =>
        let count := content.getD 0 + 1
        .store cell count (.done (x + count.toFloat))
  | .setVariable slot => .unary fun x => .write slot x (.done x)
  | .addVariable slot => .unary fun x =>
      .read slot fun old => .write slot (old + x) (.done (old + x))
  | .difference => .binary fun a b => .done (a - b)
  | .recordBoth => .binary fun a b => .record a (.record b (.done b))
  | .pickOrAverage => .ternary fun c a b => .done (if c then a else (a + b) / 2.0)
  | .recordChoice => .ternary fun c a b =>
      .record (Binary64.ofBool c) (.record a (.record b (.done (if c then a else b))))

end ExprTree.Session
