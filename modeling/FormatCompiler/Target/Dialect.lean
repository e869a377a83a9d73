import FormatCompiler.Expr.Spelling
import FormatCompiler.Module.Read
import FormatCompiler.Target.Basic

/-!
How a target words the reads of a scope. The targets share what is read and differ in the words.
-/

namespace FormatCompiler

set_option autoImplicit false

/-- The words of a target inside one scope. -/
structure Dialect where
  spelling : Spelling
  /-- A new structure, read from the stream. -/
  record : Structure → String
  /-- A number, by the method of the stream that reads it. -/
  number : String → String
  /-- As many bytes as an expression says. -/
  bytes : String → String
  /-- All the bytes that are left. -/
  allBytes : String
  /-- Text of a size, in an encoding. -/
  text : String → String → String
  /-- The empty text. -/
  noText : String
  /-- Bytes combined with a key. -/
  xor : String → String → String
  /-- A value as one of an enum. -/
  tagged : String → String → String

namespace Dialect

def expr (dialect : Dialect) (expr : Expr) : String :=
  expr.spell dialect.spelling

/-- A bound an expression may give. -/
def exprOr (dialect : Dialect) (fallback : String) : Option Expr → String
  | some expr => dialect.expr expr
  | none => fallback

def readBytes (dialect : Dialect) : Option Expr → String
  | some size => dialect.bytes (dialect.expr size)
  | none => dialect.allBytes

def transformed (dialect : Dialect) (bytes : String) : Option Transform → String
  | some (.xor key) => dialect.xor bytes (Text.showNat key.toNat)
  | none => bytes

def read (dialect : Dialect) : Read → String
  | .record type => dialect.record type
  | .number type order => dialect.number (Target.readMethod type order)
  | .bytes size transform => dialect.transformed (dialect.readBytes size) transform
  | .text (some size) encoding =>
    dialect.text (dialect.expr size) (encoding.getD Target.defaultEncoding)
  | .text none _ => dialect.noText

/-- A read, as a value of an enum if there is one and the read is no structure. -/
def value (dialect : Dialect) (enumName : Option String) (read : Read) : String :=
  match read, enumName with
  | .record type, _ => dialect.record type
  | _, some reference => dialect.tagged reference (dialect.read read)
  | _, none => dialect.read read

end Dialect

/-- The class of the scope at a path, qualified from the root's class on. -/
def Scope.classPath (scope : Scope) (separator path : String) : String :=
  separator.intercalate ((scope.module.root.name :: Name.segments path).map Target.className)

/-- The enum a reference means, qualified by the class that declares it. -/
def Scope.enumPath (scope : Scope) (separator : String) (enumTitle : String → String)
    (reference : String) : String :=
  match scope.enumOwner? reference with
  | some (owner, decl) => scope.classPath separator owner ++ separator ++ enumTitle (Name.short decl.name)
  | none => enumTitle (Name.short reference)

/-- A generated file, by its path below the output directory. -/
structure Artifact where
  path : String
  content : String
  deriving DecidableEq, Repr

namespace Target

/-- The remark that generated files open with. -/
def remark : String :=
  "This is a generated file! Please edit source .ksy file and use kaitai-struct-compiler to rebuild"

/-- What is raised where no case of a switch matches. -/
def noMatch : String := "switch-on has no matching case"

end Target

end FormatCompiler
