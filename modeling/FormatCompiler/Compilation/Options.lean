import FormatCompiler.Compilation.Emission

/-!
What a compilation is told: targets, directories and a package.
-/

namespace FormatCompiler

set_option autoImplicit false

structure Options where
  outDir : String := "."
  targets : List String := [Target.cppStl.name]
  /-- Where imports are looked for besides the directory of the importing file. -/
  importPaths : List String := []
  pythonPackage : Option String := none
  deriving DecidableEq, Repr

def Options.destination (options : Options) : Destination where
  directory := options.outDir
  package := options.pythonPackage

/-- A variable whose value has a quote that is not closed. -/
structure OpenQuote where
  variableName : String
  deriving DecidableEq, Repr

def OpenQuote.message (fault : OpenQuote) : String :=
  "Invalid $" ++ fault.variableName

def OpenQuote.cause : String := "missing closing quote"

/-- The words of a variable. -/
def wordsOf (variableName value : String) : Except OpenQuote (List String) :=
  match Text.words value.toList with
  | some words => .ok (words.map String.ofList)
  | none => .error ⟨variableName⟩

/-- The options that variables give; what no variable gives is as usual. -/
def Options.ofVariables (lookup : String → Option String) : Except OpenQuote Options := do
  let usual : Options := {}
  let list := fun variableName (fallback : List String) =>
    match lookup variableName with
    | some value => wordsOf variableName value
    | none => .ok fallback
  let targets ← list "KSC_TARGETS" usual.targets
  let importPaths ← list "KSC_IMPORT_PATHS" usual.importPaths
  return {
    outDir := (lookup "KSC_OUT_DIR").getD usual.outDir
    targets
    importPaths
    pythonPackage := (lookup "KSC_PYTHON_PACKAGE").filter fun package => !package.isEmpty }

end FormatCompiler
