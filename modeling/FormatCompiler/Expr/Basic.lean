import FormatCompiler.Name
import FormatCompiler.Text.Basic
import FormatCompiler.Text.Numeral

/-!
Expressions over the fields of a structure, and their texts.
-/

namespace FormatCompiler

set_option autoImplicit false

/-- The operator of an expression with one operand. -/
inductive UnaryOp where
  /-- An operator written before its operand. -/
  | sign (symbol : String)
  /-- The operand seen as a structure of another type. -/
  | cast (type : String)
  /-- A field of the structure the operand stands for. -/
  | field (name : String)
  deriving DecidableEq, Repr

/-- Operators keep the spelling they were given, known or not. -/
inductive Expr where
  | int (value : Int64)
  | bool (value : Bool)
  /-- A field, an instance, or `_` for the item just read. -/
  | name (name : String)
  | unary (op : UnaryOp) (operand : Expr)
  | binary (op : String) (lhs rhs : Expr)
  deriving DecidableEq, Repr

namespace UnaryOp

/-- What marks a cast among the spellings of unary operators. -/
def castMark : String := "__cast__:"

/-- What marks a field access among the spellings of unary operators. -/
def fieldMark : String := "__attr__:"

/-- The spelling of an operator in the text of an expression. -/
def spelling : UnaryOp → String
  | .sign symbol => symbol
  | .cast type => castMark ++ type
  | .field name => fieldMark ++ name

/-- What follows a mark, unless nothing does. -/
def marked (mark text : String) : Option String :=
  ((Name.dropPrefix mark.toList text.toList).filter (!·.isEmpty)).map String.ofList

/-- The operator with a given spelling. A mark with nothing after it is an ordinary sign. -/
def ofSpelling (text : String) : UnaryOp :=
  match marked castMark text with
  | some type => .cast type
  | none =>
    match marked fieldMark text with
    | some name => .field name
    | none => .sign text

end UnaryOp

namespace Expr

/-- Every node of an expression, each before its operands. -/
def nodes : Expr → List Expr
  | .int value => [.int value]
  | .bool value => [.bool value]
  | .name id => [.name id]
  | .unary op operand => .unary op operand :: nodes operand
  | .binary op lhs rhs => .binary op lhs rhs :: (nodes lhs ++ nodes rhs)

/-- The value of an integer literal, or of a negated one when its opposite is a 64-bit integer. -/
def intLiteral : Expr → Option Int64
  | .int value => some value
  | .unary (.sign "-") (.int value) => if value = Int64.minValue then none else some (-value)
  | _ => none

/-- The text of an expression: each node in parentheses behind its tag, names and operators
quoted. -/
def text : Expr → List Char
  | .int value => "(int ".toList ++ (Text.showInt64 value).toList ++ [')']
  | .bool value => "(bool ".toList ++ (if value then "true" else "false").toList ++ [')']
  | .name id => "(name ".toList ++ Text.quote id.toList ++ [')']
  | .unary op operand =>
    "(un ".toList ++ Text.quote op.spelling.toList ++ [' '] ++ text operand ++ [')']
  | .binary op lhs rhs =>
    "(bin ".toList ++ Text.quote op.toList ++ [' '] ++ text lhs ++ [' '] ++ text rhs ++ [')']

end Expr

end FormatCompiler
