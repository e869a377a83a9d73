import Mathlib.Data.List.Perm.Basic
import FormatCompiler.Listing.Reader
import FormatCompiler.Proofs.Outcome

/-!
The rows of the imports of a listing, in another order. What a row says does not depend on where it
stands, so the reader finds the same imports in another order and continues at the same line.
-/

namespace FormatCompiler.Listing

set_option autoImplicit false

/-- A line is a row that a reader takes for a value. -/
def Says {α : Type} (reader : WordReader α) (line : List Char) (value : α) : Prop :=
  ∃ words left, Text.words line = some words ∧
    reader (words.map String.ofList) = .ok (value, left)

theorem Says.unique {α : Type} {reader : WordReader α} {line : List Char} {first second : α}
    (left : Says reader line first) (right : Says reader line second) : first = second := by
  obtain ⟨words, _, split, found⟩ := left
  obtain ⟨_, _, again, same⟩ := right
  cases split.symm.trans again
  cases found.symm.trans same
  rfl

/-- A line that opens the imports and announces some number of rows. -/
structure OpensImports (line : List Char) (size : Nat) : Prop where
  word : Text.firstWord line = "imports".toList
  announces : Says (WordReader.sectionSize "imports") line size

/-- The lines of two listings that differ in the order of their imports only. The imports stand
behind the header, the name and the byte order. -/
inductive Reordered : List (List Char) → List (List Char) → Prop where
  | rows {header name order opening : List Char} {rows others rest : List (List Char)} {size : Nat}
      (opens : OpensImports opening size) (within : rows.length ≤ size) (perm : rows.Perm others) :
      Reordered (header :: name :: order :: opening :: (rows ++ rest))
        (header :: name :: order :: opening :: (others ++ rest))

theorem Reordered.symm {lines others : List (List Char)} (same : Reordered lines others) :
    Reordered others lines := by
  cases same with
  | rows opens within perm => exact .rows opens (perm.length_eq ▸ within) perm.symm

namespace LineReader

variable {α β : Type} {lines after : Lines} {number : Nat} {line : List Char}
  {rest : List (List Char)} {missing bad : RowFault}

theorem bind_eq_ok_iff {reader : LineReader α} {next : α → LineReader β} {result : β × Lines} :
    (reader >>= next) lines = .ok result ↔
      ∃ value after, reader lines = .ok (value, after) ∧ next value after = .ok result := by
  change reader lines >>= (fun found => next found.1 found.2) = .ok result ↔ _
  simp only [Except.bind_eq_ok_iff, Prod.exists]

theorem bind_eq_error_iff {reader : LineReader α} {next : α → LineReader β} {fault : Malformed} :
    (reader >>= next) lines = .error fault ↔ reader lines = .error fault ∨
      ∃ value after, reader lines = .ok (value, after) ∧ next value after = .error fault := by
  change reader lines >>= (fun found => next found.1 found.2) = .error fault ↔ _
  simp only [Except.bind_eq_error_iff, Prod.exists]

theorem lift_eq_ok_iff {result : Except Malformed α} {value : α} :
    (liftM result : LineReader α) lines = .ok (value, after) ↔
      result = .ok value ∧ after = lines := by
  change (result >>= fun found => Except.ok (found, lines)) = .ok (value, after) ↔ _
  rw [Except.bind_eq_ok_iff]
  constructor
  · rintro ⟨found, ok, ⟨⟩⟩
    exact ⟨ok, rfl⟩
  · rintro ⟨ok, rfl⟩
    exact ⟨value, ok, rfl⟩

theorem decode_eq_ok_iff {reader : WordReader α} {row : WordRow} {value : α} :
    row.decode reader = .ok value ↔ ∃ left, reader row.words = .ok (value, left) := by
  unfold WordRow.decode StateT.run
  split
  · next found left same => simp [same]
  · next fault same => simp [same]

/-! ### One line -/

theorem mark_eq_ok_iff {trim : List Char → List Char} {expected : String} {fault : RowFault} :
    mark trim expected fault ⟨number, line :: rest⟩ = .ok ((), after) ↔
      trim line = expected.toList ∧ after = ⟨number + 1, rest⟩ := by
  unfold mark
  rw [bind_eq_ok_iff]
  constructor
  · rintro ⟨_, _, ⟨⟩, checked⟩
    dsimp only at checked
    split at checked
    · cases checked
    · next same =>
      cases checked
      exact ⟨by simpa using same, rfl⟩
  · rintro ⟨same, rfl⟩
    refine ⟨_, _, rfl, ?_⟩
    dsimp only
    rw [if_neg (by simpa using same)]
    rfl

theorem row_eq_ok_iff {row : WordRow} :
    LineReader.row missing bad ⟨number, line :: rest⟩ = .ok (row, after) ↔
      ∃ words, Text.words line = some words ∧
        row = ⟨number + 1, String.ofList line, words.map String.ofList⟩ ∧
        after = ⟨number + 1, rest⟩ := by
  unfold LineReader.row
  rw [bind_eq_ok_iff]
  constructor
  · rintro ⟨_, _, ⟨⟩, cut⟩
    cases split : Text.words line with
    | none =>
      simp only [split] at cut
      cases cut
    | some words =>
      simp only [split] at cut
      cases cut
      exact ⟨words, rfl, rfl, rfl⟩
  · rintro ⟨words, split, rfl, rfl⟩
    refine ⟨_, _, rfl, ?_⟩
    simp only [split]
    rfl

theorem row_of_nil {row : WordRow} :
    LineReader.row missing bad ⟨number, []⟩ ≠ .ok (row, after) := by
  intro found
  obtain ⟨_, _, ⟨⟩, cut⟩ := bind_eq_ok_iff.mp found
  cases cut

theorem value_eq_ok_iff {reader : WordReader α} {value : α} :
    LineReader.value missing bad reader ⟨number, line :: rest⟩ = .ok (value, after) ↔
      Says reader line value ∧ after = ⟨number + 1, rest⟩ := by
  unfold LineReader.value
  simp only [bind_eq_ok_iff, lift_eq_ok_iff, row_eq_ok_iff, decode_eq_ok_iff]
  constructor
  · rintro ⟨row, _, ⟨words, split, rfl, rfl⟩, ⟨left, decoded⟩, rfl⟩
    exact ⟨⟨words, left, split, decoded⟩, rfl⟩
  · rintro ⟨⟨words, left, split, decoded⟩, rfl⟩
    exact ⟨_, _, ⟨words, split, rfl, rfl⟩, ⟨left, decoded⟩, rfl⟩

/-! ### Sections -/

/-- Reads the rows of a section behind its head. -/
def rowsBehind (kind : RowKind) (reader : WordReader α) (size : Nat) : LineReader (List α) := do
  (← takeRows kind size).mapM fun row => liftM (row.decode reader)

variable {kind : RowKind} {reader : WordReader α} {size : Nat}

/-- The rows of a section are read one by one, although all of them are cut into words first. -/
theorem rowsBehind_succ {lines : List (List Char)} {values : List α} :
    rowsBehind kind reader (size + 1) ⟨number, lines⟩ = .ok (values, after) ↔
      ∃ line rest value others, lines = line :: rest ∧ values = value :: others ∧
        Says reader line value ∧
        rowsBehind kind reader size ⟨number + 1, rest⟩ = .ok (others, after) := by
  constructor
  · intro found
    obtain ⟨taken, _, cut, decoded⟩ := bind_eq_ok_iff.mp found
    obtain ⟨first, next, head, tail⟩ := bind_eq_ok_iff.mp cut
    obtain ⟨others, _, below, ⟨⟩⟩ := bind_eq_ok_iff.mp tail
    rw [List.mapM_cons] at decoded
    obtain ⟨value, _, said, later⟩ := bind_eq_ok_iff.mp decoded
    obtain ⟨more, _, readRest, ⟨⟩⟩ := bind_eq_ok_iff.mp later
    cases lines with
    | nil => exact absurd head row_of_nil
    | cons line lines =>
      obtain ⟨words, split, rfl, rfl⟩ := row_eq_ok_iff.mp head
      obtain ⟨ok, rfl⟩ := lift_eq_ok_iff.mp said
      obtain ⟨left, ok⟩ := decode_eq_ok_iff.mp ok
      exact ⟨line, lines, value, more, rfl, rfl, ⟨words, left, split, ok⟩,
        bind_eq_ok_iff.mpr ⟨others, _, below, readRest⟩⟩
  · rintro ⟨line, rest, value, more, rfl, rfl, ⟨words, left, split, ok⟩, found⟩
    obtain ⟨others, next, taken, readRest⟩ := bind_eq_ok_iff.mp found
    have head : LineReader.row (.truncated kind) (.badRow kind) ⟨number, line :: rest⟩ =
        .ok (⟨number + 1, String.ofList line, words.map String.ofList⟩, ⟨number + 1, rest⟩) :=
      row_eq_ok_iff.mpr ⟨words, split, rfl, rfl⟩
    have cut : takeRows kind (size + 1) ⟨number, line :: rest⟩ = .ok (_, next) :=
      bind_eq_ok_iff.mpr ⟨_, _, head, bind_eq_ok_iff.mpr ⟨others, next, taken, rfl⟩⟩
    refine bind_eq_ok_iff.mpr ⟨_, next, cut, ?_⟩
    rw [List.mapM_cons]
    exact bind_eq_ok_iff.mpr ⟨value, next,
      lift_eq_ok_iff.mpr ⟨decode_eq_ok_iff.mpr ⟨left, ok⟩, rfl⟩,
      bind_eq_ok_iff.mpr ⟨more, _, readRest, rfl⟩⟩

theorem rowsBehind_eq_ok_iff {lines : List (List Char)} {values : List α} :
    rowsBehind kind reader size ⟨number, lines⟩ = .ok (values, after) ↔
      ∃ rows rest, lines = rows ++ rest ∧ rows.length = size ∧ after = ⟨number + size, rest⟩ ∧
        List.Forall₂ (Says reader) rows values := by
  induction size generalizing number lines values with
  | zero =>
    constructor
    · intro found
      cases found
      exact ⟨[], lines, rfl, rfl, rfl, .nil⟩
    · rintro ⟨rows, rest, rfl, none, rfl, said⟩
      cases List.length_eq_zero_iff.mp none
      cases said
      rfl
  | succ size ih =>
    have further : number + 1 + size = number + (size + 1) := by omega
    rw [rowsBehind_succ]
    constructor
    · rintro ⟨line, _, value, others, rfl, rfl, here, below⟩
      obtain ⟨rows, rest, rfl, rfl, rfl, said⟩ := ih.mp below
      exact ⟨line :: rows, rest, rfl, rfl, by rw [further], .cons here said⟩
    · rintro ⟨rows, rest, rfl, length, rfl, said⟩
      cases said with
      | nil => cases length
      | @cons line value rows values here said =>
        refine ⟨line, rows ++ rest, value, values, rfl, rfl, here, ih.mpr ?_⟩
        exact ⟨rows, rest, rfl, Nat.succ.inj length, by rw [further], said⟩

theorem sectionRows_eq_ok_iff (name : String) (kind : RowKind) (reader : WordReader α)
    {lines : List (List Char)} {values : List α} :
    sectionRows name kind reader ⟨number, line :: lines⟩ = .ok (values, after) ↔
      ∃ rows rest, lines = rows ++ rest ∧ Says (WordReader.sectionSize name) line rows.length ∧
        after = ⟨number + 1 + rows.length, rest⟩ ∧ List.Forall₂ (Says reader) rows values := by
  constructor
  · intro found
    obtain ⟨size, _, opened, below⟩ := bind_eq_ok_iff.mp found
    obtain ⟨announced, rfl⟩ := value_eq_ok_iff.mp opened
    obtain ⟨rows, rest, rfl, rfl, rfl, said⟩ := rowsBehind_eq_ok_iff.mp below
    exact ⟨rows, rest, rfl, announced, rfl, said⟩
  · rintro ⟨rows, rest, rfl, announced, rfl, said⟩
    have opened : sectionSize name ⟨number, line :: (rows ++ rest)⟩ =
        .ok (rows.length, ⟨number + 1, rows ++ rest⟩) := value_eq_ok_iff.mpr ⟨announced, rfl⟩
    have below : rowsBehind kind reader rows.length ⟨number + 1, rows ++ rest⟩ =
        .ok (values, ⟨number + 1 + rows.length, rest⟩) :=
      rowsBehind_eq_ok_iff.mpr ⟨rows, rest, rfl, rfl, rfl, said⟩
    exact bind_eq_ok_iff.mpr ⟨_, _, opened, below⟩

theorem imports_eq_ok_iff (word : Text.firstWord line = "imports".toList)
    {lines : List (List Char)} {names : List String} :
    imports ⟨number, line :: lines⟩ = .ok (names, after) ↔
      ∃ rows rest, lines = rows ++ rest ∧
        Says (WordReader.sectionSize "imports") line rows.length ∧
        after = ⟨number + 1 + rows.length, rest⟩ ∧
        List.Forall₂ (Says WordReader.importName) rows names := by
  rw [← sectionRows_eq_ok_iff "imports" .importRow WordReader.importName]
  have peeked : peek ⟨number, line :: lines⟩ =
      .ok (some "imports", ⟨number, line :: lines⟩) := by
    simp [peek, word]
  unfold imports
  rw [bind_eq_ok_iff]
  constructor
  · rintro ⟨found, state, peeks, taken⟩
    cases peeked.symm.trans peeks
    exact taken
  · intro taken
    exact ⟨_, _, peeked, taken⟩

/-- The imports of a listing are read from rows in any order, and the reader stops at one place. -/
theorem imports_of_perm {opening : List Char} {rows others : List (List Char)} {size : Nat}
    (opens : OpensImports opening size) (within : rows.length ≤ size) (perm : rows.Perm others)
    {names : List String}
    (found : imports ⟨number, opening :: (rows ++ rest)⟩ = .ok (names, after)) :
    ∃ also, names.Perm also ∧
      imports ⟨number, opening :: (others ++ rest)⟩ = .ok (also, after) := by
  obtain ⟨block, behind, shape, announced, rfl, said⟩ := (imports_eq_ok_iff opens.word).mp found
  have length : block.length = size := announced.unique opens.announces
  obtain ⟨more, rfl, rfl⟩ : ∃ more, block = rows ++ more ∧ rest = more ++ behind := by
    rcases List.append_eq_append_iff.mp shape with ⟨more, rfl, rfl⟩ | ⟨more, rfl, rfl⟩
    · exact ⟨more, rfl, rfl⟩
    · have none : more = [] := by
        apply List.length_eq_zero_iff.mp
        rw [List.length_append] at within
        omega
      subst none
      exact ⟨[], by simp, by simp⟩
  have whole : (rows ++ more).Perm (others ++ more) := perm.append_right more
  obtain ⟨also, saidAlso, moved⟩ := List.perm_comp_forall₂ whole.symm said
  refine ⟨also, moved.symm, (imports_eq_ok_iff opens.word).mpr ?_⟩
  exact ⟨others ++ more, behind, by simp, whole.length_eq ▸ announced, by rw [whole.length_eq],
    saidAlso⟩

/-- Reads what stands behind the imports of a listing. -/
def declarations (name : String) (order : ByteOrder) (imports : List String) :
    LineReader Format := do
  let types ← sectionRows "types" .typeRow WordReader.typeDecl
  let fields ← sectionRows "attrs" .fieldRow WordReader.field
  let enums ← enums (← sectionSize "enums")
  let instances ← sectionRows "instances" .instanceRow WordReader.instanceDecl
  let validations ← sectionRows "validations" .validationRow WordReader.validation
  mark Text.trim endMark .noEnd
  return { name, order, imports, types, fields, enums, instances, validations }

theorem format_eq_declarations :
    LineReader.format = (do
      mark Text.trimEnd header .noHeader
      let name ← value .badName .badName WordReader.formatName
      let order ← value .badOrder .badOrder WordReader.formatOrder
      declarations name order (← imports)) := rfl

theorem declarations_with_imports (name : String) (order : ByteOrder) (names also : List String) :
    declarations name order also =
      (fun format => { format with imports := also }) <$> declarations name order names := by
  simp only [declarations, map_bind, map_pure]

variable {name : String} {order : ByteOrder} {names : List String} {format : Format}

theorem imports_of_declarations
    (found : declarations name order names lines = .ok (format, after)) :
    format.imports = names := by
  rw [declarations_with_imports name order names names, map_eq_pure_bind] at found
  obtain ⟨_, _, _, ⟨⟩⟩ := bind_eq_ok_iff.mp found
  rfl

theorem declarations_of_ok (also : List String)
    (found : declarations name order names lines = .ok (format, after)) :
    declarations name order also lines = .ok ({ format with imports := also }, after) := by
  rw [declarations_with_imports name order names also, map_eq_pure_bind]
  exact bind_eq_ok_iff.mpr ⟨format, after, found, rfl⟩

end LineReader

/-- A listing that can be read can be read with its imports in another order, and nothing else that
it says changes. -/
theorem read_of_reordered {text other : List Char} {format : Format}
    (same : Reordered (Text.lines text) (Text.lines other)) (found : read text = .ok format) :
    ∃ names, format.imports.Perm names ∧
      read other = .ok { format with imports := names } := by
  unfold read at found ⊢
  rw [LineReader.format_eq_declarations] at found ⊢
  generalize Text.lines text = lines at same found
  generalize Text.lines other = others at same
  cases same with
  | rows opens within perm =>
    obtain ⟨⟨whole, last⟩, run, rfl⟩ := Except.map_eq_ok_iff.mp found
    obtain ⟨_, _, marked, run⟩ := LineReader.bind_eq_ok_iff.mp run
    obtain ⟨header, rfl⟩ := LineReader.mark_eq_ok_iff.mp marked
    obtain ⟨name, _, named, run⟩ := LineReader.bind_eq_ok_iff.mp run
    obtain ⟨saidName, rfl⟩ := LineReader.value_eq_ok_iff.mp named
    obtain ⟨order, _, ordered, run⟩ := LineReader.bind_eq_ok_iff.mp run
    obtain ⟨saidOrder, rfl⟩ := LineReader.value_eq_ok_iff.mp ordered
    obtain ⟨names, behind, imported, run⟩ := LineReader.bind_eq_ok_iff.mp run
    obtain ⟨also, moved, importedAlso⟩ := LineReader.imports_of_perm opens within perm imported
    refine ⟨also, LineReader.imports_of_declarations run ▸ moved, ?_⟩
    refine Except.map_eq_ok_iff.mpr ⟨⟨_, last⟩, ?_, rfl⟩
    refine LineReader.bind_eq_ok_iff.mpr ⟨(), _, LineReader.mark_eq_ok_iff.mpr ⟨header, rfl⟩, ?_⟩
    refine LineReader.bind_eq_ok_iff.mpr
      ⟨name, _, LineReader.value_eq_ok_iff.mpr ⟨saidName, rfl⟩, ?_⟩
    refine LineReader.bind_eq_ok_iff.mpr
      ⟨order, _, LineReader.value_eq_ok_iff.mpr ⟨saidOrder, rfl⟩, ?_⟩
    exact LineReader.bind_eq_ok_iff.mpr
      ⟨also, behind, importedAlso, LineReader.declarations_of_ok also run⟩

end FormatCompiler.Listing
