import FormatCompiler.Expr.Basic

/-!
Expressions in the syntax of a target. An expression is first laid out as pieces, with parentheses
where the binding strengths of its operators call for them, and the pieces are then put together.
-/

namespace FormatCompiler

set_option autoImplicit false

namespace Operator

/-- The symbol of an operator that may be given by a word. -/
def symbol (op : String) : String :=
  match op with
  | "and" => "&&"
  | "or" => "||"
  | "xor" => "^"
  | "not" => "!"
  | _ => op

/-- How strongly a binary operator binds. An unknown one binds least. -/
def strength (symbol : String) : Nat :=
  match symbol with
  | "||" => 10
  | "&&" => 20
  | "|" => 30
  | "^" => 35
  | "&" => 40
  | "==" | "!=" => 45
  | "<" | "<=" | ">" | ">=" => 50
  | "<<" | ">>" => 55
  | "+" | "-" => 60
  | "*" | "/" | "%" => 70
  | _ => 5

/-- The strength around an operand of a unary operator, more than any binary one has. -/
def unaryStrength : Nat := 90

/-- The strength around a whole expression, less than any operator has. -/
def outermost : Nat := 0

def isLogical (symbol : String) : Bool :=
  symbol == "&&" || symbol == "||"

/-- Whether an operator yields a truth value. -/
def isBoolean (symbol : String) : Bool :=
  ["&&", "||", "==", "!=", "<", "<=", ">", ">=", "!"].contains symbol

end Operator

/-- How a target spells what expressions are made of. Operators are given by their symbols. -/
structure Spelling where
  truth : Bool → String
  name : String → String
  binary : String → String := id
  unary : String → String := id
  /-- What stands around an operand seen as a structure of some type. -/
  cast : String → String × String := fun _ => ("", "")
  /-- What stands around an operand to make it one of its fields. -/
  field : String → String × String := fun name => ("", "." ++ name)

/-- The same spelling, with a name for the item just read. -/
def Spelling.withItem (spelling : Spelling) (item : String) : Spelling :=
  { spelling with name := fun id => if id = "_" then item else spelling.name id }

inductive Piece where
  | int (value : Int64)
  | word (text : String)
  | opening
  | closing
  /-- An operator before its operand. -/
  | sign (spelling : String)
  /-- An operator between its operands. -/
  | operator (spelling : String)
  /-- Part of what stands around an operand. -/
  | wrapping (text : String)
  deriving DecidableEq, Repr

def Piece.text : Piece → String
  | .int value => Text.showInt64 value
  | .word text => text
  | .opening => "("
  | .closing => ")"
  | .sign spelling => spelling
  | .operator spelling => " " ++ spelling ++ " "
  | .wrapping text => text

namespace Expr

/-- The pieces of an expression where operators of the strength `around` bind it. A logical
operator and its operands are always in parentheses, and so is a unary operator. -/
def pieces (spelling : Spelling) : Nat → Expr → List Piece
  | _, .int value => [.int value]
  | _, .bool value => [.word (spelling.truth value)]
  | _, .name id => [.word (spelling.name id)]
  | _, .unary (.sign op) operand =>
    .opening :: .sign (spelling.unary (Operator.symbol op)) ::
      pieces spelling Operator.unaryStrength operand ++ [.closing]
  | _, .unary (.cast type) operand =>
    .wrapping (spelling.cast type).1 ::
      pieces spelling Operator.unaryStrength operand ++ [.wrapping (spelling.cast type).2]
  | _, .unary (.field id) operand =>
    .wrapping (spelling.field id).1 ::
      pieces spelling Operator.unaryStrength operand ++ [.wrapping (spelling.field id).2]
  | around, .binary op lhs rhs =>
    let symbol := Operator.symbol op
    let strength := Operator.strength symbol
    let left := pieces spelling strength lhs
    let right := pieces spelling (strength + 1) rhs
    let operator := Piece.operator (spelling.binary symbol)
    if Operator.isLogical symbol then
      [.opening, .opening] ++ left ++ [.closing, operator, .opening] ++ right ++
        [.closing, .closing]
    else if strength ≤ around then .opening :: left ++ operator :: right ++ [.closing]
    else left ++ operator :: right

/-- The text of a whole expression. -/
def spell (spelling : Spelling) (expr : Expr) : String :=
  String.join ((pieces spelling Operator.outermost expr).map Piece.text)

end Expr

end FormatCompiler
