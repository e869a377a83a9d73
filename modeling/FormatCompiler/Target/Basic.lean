import FormatCompiler.Format.Basic
import FormatCompiler.Text.Casing

/-!
The targets that readers are generated for, and what their readers have in common.
-/

namespace FormatCompiler

set_option autoImplicit false

inductive Target where
  | cppStl
  | python
  | ruby
  | lua
  | wiresharkLua
  deriving DecidableEq, Repr

namespace Target

def all : List Target :=
  [.cppStl, .python, .ruby, .lua, .wiresharkLua]

def name : Target → String
  | .cppStl => "cpp_stl"
  | .python => "python"
  | .ruby => "ruby"
  | .lua => "lua"
  | .wiresharkLua => "wireshark_lua"

def ofName? (name : String) : Option Target :=
  all.find? fun target => target.name == name

/-- The class of a structure: its name in camel case, behind an underscore where no name could
start as it does. -/
def className (name : String) : String :=
  let camel := Text.upperCamel name.toList
  match camel.head? with
  | none => "_"
  | some c => if c.isDigit then "_" ++ String.ofList camel else String.ofList camel

/-- The stream method that reads a primitive. -/
def readMethod (type : Primitive) (order : ByteOrder) : String :=
  match type with
  | .u1 | .str | .bytes => "read_u1"
  | .s1 => "read_s1"
  | _ => "read_" ++ type.word ++ order.word

/-- The encoding of text that names none. -/
def defaultEncoding : String := "UTF-8"

end Target

end FormatCompiler
