/-
This file lists what can be asked of a session and what it answers.
-/

import ExprTree.Assembly.Error
import ExprTree.Evaluation.Strategy
import ExprTree.Session.Sample
import ExprTree.Standard.BinaryOp

namespace ExprTree.Session

inductive TemplateSource where
  | standard (op : BinaryOp)
  | sample (operation : SampleOperation)
deriving DecidableEq, Repr

/-- Commands push trees, combine them, act on variables or ask about the top tree. -/
inductive Command where
  | pushNumber (value : Float)
  | pushLiteral (text : String)
  | pushAbsent
  | pushVariable (name : String)
  | bind (name : String) (value : Float)
  | link (name target : String)
  | assign (name : String) (value : Float)
  | get (name : String)
  | shares (first second : String)
  | negate (times : Nat)
  | combine (op : BinaryOp)
  | storeTemplate (name : String) (source : TemplateSource)
  | useTemplate (name : String)
  | spine (op : BinaryOp) (value : Float) (growsLeft : Bool) (times : Nat)
  | call (name : String) (count : Nat)
  | wrap (name : String) (times : Nat)
  | callSample (body : SampleBody String) (name : String) (count : Nat)
  | evaluate (strategy : Strategy) (path : List Nat)
  | inspect (path : List Nat)
  | applyOperation (left right : Float) (path : List Nat)
  | describe (path : List Nat)
  | drop

inductive Kind where
  | number
  | variableLeaf
  | negation
  | operator
  | function
deriving DecidableEq, Repr

/-- The facts about a tree do not depend on any value, and a function has a name and an arity. -/
structure Facts where
  kind : Kind
  signature : Option (String × Nat)
  children : Nat
  isLeaf : Bool
  count : Nat
  depth : Nat
deriving DecidableEq, Repr

inductive Reply where
  | height (height : Nat)
  | refused (error : AssemblyError) (height : Nat)
  | unknownFunction (height : Nat)
  | built (name : String) (arity height : Nat)
  | nameCount (count : Nat)
  | templateCount (count : Nat)
  | value (value : Float)
  | shares (same : Bool)
  | evaluated (value : Float) (trace : List Float)
  | facts (facts : Facts)
  | description (text : String)
  | absentValue
  | absentTree
  | absentDescription

/-- A command is malformed when the state has nothing for it to act on. -/
inductive Fault where
  | emptyStack
  | absentTree
  | noSuchPath
  | noSuchTemplate
  | noOperator
deriving DecidableEq, Repr

def Fault.message : Fault → String
  | .emptyStack => "the stack holds too few slots"
  | .absentTree => "the slot holds no tree"
  | .noSuchPath => "the path leads to no node"
  | .noSuchTemplate => "the template is unknown"
  | .noOperator => "the node is no operator"

end ExprTree.Session
