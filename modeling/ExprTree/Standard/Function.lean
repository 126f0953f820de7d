/-
This file holds the standard functions under their names.
-/

import ExprTree.Assembly.Builder
import ExprTree.Binary64.Elementary

namespace ExprTree

namespace Callable

/-- A body without side effects only answers. -/
def ofUnary {Hidden : Type} (function : Float → Float) : Callable Hidden :=
  .unary fun argument => .done (function argument)

def ofBinary {Hidden : Type} (function : Float → Float → Float) : Callable Hidden :=
  .binary fun first second => .done (function first second)

def ofTernary {Hidden : Type} (function : Bool → Float → Float → Float) : Callable Hidden :=
  .ternary fun condition first second => .done (function condition first second)

end Callable

namespace Standard

def unaryFunctions : List (String × (Float → Float)) :=
  [("abs", Float.abs), ("sqrt", Float.sqrt), ("cbrt", Float.cbrt), ("exp", Float.exp),
    ("ln", Float.log), ("log10", Float.log10), ("log2", Float.log2), ("sin", Float.sin),
    ("cos", Float.cos), ("tan", Float.tan), ("asin", Float.asin), ("acos", Float.acos),
    ("atan", Float.atan), ("sinh", Float.sinh), ("cosh", Float.cosh), ("tanh", Float.tanh),
    ("floor", Float.floor), ("ceil", Float.ceil), ("round", Float.round),
    ("trunc", Binary64.truncate), ("sign", Binary64.sign)]

def binaryFunctions : List (String × (Float → Float → Float)) :=
  [("min", Binary64.minimum), ("max", Binary64.maximum), ("pow", Float.pow),
    ("atan2", Float.atan2), ("hypot", Binary64.hypotenuse), ("log", Binary64.logarithm)]

def choose (condition : Bool) (first second : Float) : Float :=
  if condition then first else second

def ternaryFunctions : List (String × (Bool → Float → Float → Float)) := [("if", choose)]

/-- Functions of fewer arguments come first. -/
def builders {Hidden : Type} : List (Builder Hidden) :=
  unaryFunctions.map (fun entry => ⟨entry.1, .ofUnary entry.2⟩) ++
    binaryFunctions.map (fun entry => ⟨entry.1, .ofBinary entry.2⟩) ++
    ternaryFunctions.map (fun entry => ⟨entry.1, .ofTernary entry.2⟩)

def names : List String := (builders : List (Builder Empty)).map Builder.name

def builder? {Hidden : Type} (name : String) : Option (Builder Hidden) :=
  builders.find? fun builder => builder.name == name

def arityOf? (name : String) : Option Nat :=
  (builder? name : Option (Builder Empty)).map Builder.arity

end Standard

end ExprTree
