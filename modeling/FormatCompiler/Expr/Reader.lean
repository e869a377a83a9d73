import FormatCompiler.Expr.Basic
import FormatCompiler.Expr.Node
import FormatCompiler.Text.Basic
import FormatCompiler.Text.Utf8

/-!
Reading the text of an expression.
-/

namespace FormatCompiler.Expr

set_option autoImplicit false

/-- Why a text is no expression. -/
inductive Fault where
  | noOpening
  | noClosing
  /-- The text has no structure beyond this place; lines and columns count from one. -/
  | malformed (line column : Nat)
  | arity (tag : List Char) (expected given : Nat)
  | badInt (source : List Char)
  | badBool (source : List Char)
  | badName (source : List Char)
  | badUnaryOp (source : List Char)
  | badBinaryOp (source : List Char)
  | notExpr (source : List Char)
  | unknownTag (tag : List Char)
  deriving DecidableEq, Repr

def Fault.message : Fault → String
  | .noOpening => "expression must start with '('"
  | .noClosing => "expression missing closing ')'"
  | .malformed line column =>
    "malformed expression at " ++ Text.showNat line ++ ":" ++ Text.showNat column
  | .arity tag expected given =>
    "expression '" ++ String.ofList tag ++ "' takes " ++ Text.showNat expected ++ " arguments, " ++
      Text.showNat given ++ " given"
  | .badInt source => "invalid int literal: " ++ String.ofList source
  | .badBool source => "invalid bool literal: " ++ String.ofList source
  | .badName source => "invalid name literal: " ++ String.ofList source
  | .badUnaryOp source => "invalid unary operator: " ++ String.ofList source
  | .badBinaryOp source => "invalid binary operator: " ++ String.ofList source
  | .notExpr source => "expected an expression, found: " ++ String.ofList source
  | .unknownTag tag => "unknown expression tag: " ++ String.ofList tag

/-- The text inside a string's quotes, without its escapes. -/
def unquote (source : List Char) : String :=
  String.ofList (Text.unescape (source.drop 1).dropLast)

/-- The value of a part that has to be a string. -/
def Node.string (fault : List Char → Fault) : Node → Except Fault String
  | .quoted source => .ok (unquote source)
  | part => .error (fault part.source)

def Node.int (part : Node) : Except Fault Expr :=
  match Text.readInt64 part.source with
  | some value => .ok (.int value)
  | none => .error (.badInt part.source)

def Node.bool (part : Node) : Except Fault Expr :=
  if part.source = "true".toList then .ok (.bool true)
  else if part.source = "false".toList then .ok (.bool false)
  else .error (.badBool part.source)

/-- The expression a part stands for. The number of parts is checked before any of them. -/
def Node.expr : Node → Except Fault Expr
  | .quoted source => .error (.notExpr source)
  | .atom source => .error (.notExpr source)
  | .group _ tag parts =>
    if tag = "int".toList then
      match parts with
      | [value] => value.int
      | _ => .error (.arity tag 1 parts.length)
    else if tag = "bool".toList then
      match parts with
      | [value] => value.bool
      | _ => .error (.arity tag 1 parts.length)
    else if tag = "name".toList then
      match parts with
      | [part] => (part.string .badName).map .name
      | _ => .error (.arity tag 1 parts.length)
    else if tag = "un".toList then
      match parts with
      | [op, operand] => do
        let op ← op.string .badUnaryOp
        let operand ← operand.expr
        return .unary (.ofSpelling op) operand
      | _ => .error (.arity tag 2 parts.length)
    else if tag = "bin".toList then
      match parts with
      | [op, lhs, rhs] => do
        let op ← op.string .badBinaryOp
        let lhs ← lhs.expr
        let rhs ← rhs.expr
        return .binary op lhs rhs
      | _ => .error (.arity tag 3 parts.length)
    else .error (.unknownTag tag)

/-- The line and the column of the place where `left` is left of `text`. -/
def place (text left : List Char) : Nat × Nat :=
  let before := text.take (text.length - left.length)
  ((before.count '\n') + 1, (before.reverse.takeWhile (· != '\n')).length + 1)

/-- A place beyond the last character that is not blank means that a parenthesis is missing; the
column is compared with the size of the text in bytes. -/
def stopFault (text left : List Char) : Fault :=
  let (line, column) := place text left
  if Text.Utf8.size (Text.trimEnd text) < column then .noClosing else .malformed line column

def read (text : List Char) : Except Fault Expr :=
  if (Text.trimStart text).head? ≠ some '(' then .error .noOpening
  else
    match Node.read text with
    | .error left => .error (stopFault text left)
    | .ok node => node.expr

end FormatCompiler.Expr
