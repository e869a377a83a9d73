import Mathlib.Algebra.Ring.Nat
import FormatCompiler.Proofs.ImportRows
import FormatCompiler.Proofs.ListingRoundTrip
import FormatCompiler.Proofs.RowOrigin

/-!
The rows of a listing that declare its fields and instances. How many rows a section has is told by
what it declares, so the number of the row of every field and instance is known. No other row in
front of the end mark starts as they do.
-/

namespace FormatCompiler

set_option autoImplicit false

namespace Text

theorem trimEnd_prefix (text : List Char) : trimEnd text <+: text := by
  have behind := List.dropWhile_suffix (l := text.reverse) isBlank
  rw [trimEnd]
  simpa using List.reverse_prefix.mpr behind

/-- A scan that is inside a word goes on with it. -/
theorem scanWords_inside {scan : Scan} {word text : List Char} {words : List (List Char)}
    (inside : scan ∉ [.between, .startEscape, .comment])
    (cut : scanWords scan word text = some words) :
    ∃ more others, words = (word.reverse ++ more) :: others := by
  induction text generalizing scan word with
  | nil =>
    cases scan with
    | bare =>
      cases cut
      exact ⟨[], [], by simp⟩
    | bareEscape =>
      cases cut
      exact ⟨['\\'], [], by simp⟩
    | single | double | doubleEscape => cases cut
    | between | startEscape | comment => exact absurd inside (by decide)
  | cons c rest ih =>
    have longer : ∀ {next added}, next ∉ [.between, .startEscape, .comment] →
        scanWords next (added ++ word) rest = some words →
        ∃ more others, words = (word.reverse ++ more) :: others := by
      intro next added inside cut
      obtain ⟨more, others, rfl⟩ := ih inside cut
      exact ⟨added.reverse ++ more, others, by simp⟩
    cases scan with
    | bare =>
      rw [scanWords] at cut
      split at cut
      · exact ih (by decide) cut
      split at cut
      · exact ih (by decide) cut
      split at cut
      · exact ih (by decide) cut
      split at cut
      · obtain ⟨others, -, rfl⟩ := Option.map_eq_some_iff.mp cut
        exact ⟨[], others, by simp⟩
      · exact @longer _ [c] (by decide) cut
    | bareEscape =>
      rw [scanWords] at cut
      split at cut
      · exact ih (by decide) cut
      · exact @longer _ [c] (by decide) cut
    | single =>
      rw [scanWords] at cut
      split at cut
      · exact ih (by decide) cut
      · exact @longer _ [c] (by decide) cut
    | double =>
      rw [scanWords] at cut
      split at cut
      · exact ih (by decide) cut
      split at cut
      · exact ih (by decide) cut
      · exact @longer _ [c] (by decide) cut
    | doubleEscape =>
      rw [scanWords] at cut
      split at cut
      · exact ih (by decide) cut
      split at cut
      · exact @longer _ [c] (by decide) cut
      · exact @longer _ [c, '\\'] (by decide) cut
    | between | startEscape | comment => exact absurd inside (by decide)

/-- Neither a quote nor a backslash, which have a backslash before them where text is quoted. -/
def IsVerbatim (text : List Char) : Prop :=
  '"' ∉ text ∧ '\\' ∉ text

instance (text : List Char) : Decidable (IsVerbatim text) :=
  inferInstanceAs (Decidable ('"' ∉ text ∧ '\\' ∉ text))

theorem isVerbatim_cons {c : Char} {text : List Char} :
    IsVerbatim (c :: text) ↔ ¬ (c = '"' ∨ c = '\\') ∧ IsVerbatim text := by
  simp only [IsVerbatim, List.mem_cons, not_or]
  grind

theorem escape_of_isVerbatim {text : List Char} (verbatim : IsVerbatim text) :
    escape text = text := by
  induction text with
  | nil => rfl
  | cons c rest ih =>
    obtain ⟨plain, others⟩ := isVerbatim_cons.mp verbatim
    rw [escape, if_neg plain, ih others]

end Text

namespace Listing

/-! ### Words of a row -/

/-- The first word of a row. -/
def Keyed (word : String) (line : List Char) : Prop :=
  ∃ others, Text.words line = some (word.toList :: others)

/-- The first two words of a row. -/
def Declares (keyword id : String) (line : List Char) : Prop :=
  ∃ others, Text.words line = some (keyword.toList :: id.toList :: others)

theorem Keyed.unique {first second : String} {line : List Char} (left : Keyed first line)
    (right : Keyed second line) : first = second := by
  obtain ⟨_, cut⟩ := left
  obtain ⟨_, again⟩ := right
  rw [cut] at again
  exact String.toList_inj.mp (List.cons.inj (Option.some.inj again)).1

theorem Declares.unique {keyword first second : String} {line : List Char}
    (left : Declares keyword first line) (right : Declares keyword second line) :
    first = second := by
  obtain ⟨_, cut⟩ := left
  obtain ⟨_, again⟩ := right
  rw [cut] at again
  exact String.toList_inj.mp (List.cons.inj (List.cons.inj (Option.some.inj again)).2).1

theorem Declares.keyed {keyword id : String} {line : List Char}
    (declares : Declares keyword id line) : Keyed keyword line :=
  declares.imp' (id.toList :: ·) fun _ cut => cut

namespace WordReader

variable {α : Type} {bad : RowFault} {words : List String} {result : α × List String}

theorem bind_word_eq_ok {next : String → WordReader α}
    (read : (word bad >>= next) words = .ok result) :
    ∃ first rest, words = first :: rest ∧ next first rest = .ok result := by
  cases words with
  | nil => cases read
  | cons first rest => exact ⟨first, rest, rfl, read⟩

theorem bind_keyword_eq_ok {expected : String} {next : Unit → WordReader α}
    (read : (keyword bad expected >>= next) words = .ok result) :
    ∃ rest, words = expected :: rest ∧ next () rest = .ok result := by
  obtain ⟨⟨_, left⟩, checked, later⟩ := Except.bind_eq_ok_iff.mp read
  obtain ⟨first, rest, rfl, same⟩ := bind_word_eq_ok checked
  split at same
  · cases same
  · next equal =>
    cases same
    exact ⟨left, by rw [Decidable.not_not.mp equal], later⟩

end WordReader

section Words

variable {α : Type} {bad : RowFault} {line : List Char} {value : α}

theorem Says.keyed {expected : String} {next : Unit → WordReader α}
    (said : Says (WordReader.keyword bad expected >>= next) line value) : Keyed expected line := by
  obtain ⟨words, left, cut, read⟩ := said
  obtain ⟨rest, shape, -⟩ := WordReader.bind_keyword_eq_ok read
  obtain ⟨first, others, rfl, rfl, -⟩ := List.map_eq_cons_iff.mp shape
  exact ⟨others, by rw [cut, String.toList_ofList]⟩

/-- A row that gives a name behind its keyword. -/
theorem Says.declares {expected : String} {next : String → WordReader α} {name : α → String}
    (said : Says (WordReader.keyword bad expected >>= fun _ => WordReader.word bad >>= next) line
      value)
    (named : ∀ id, Yields (fun _ => True) (next id) fun value => name value = id) :
    Declares expected (name value) line := by
  obtain ⟨words, left, cut, read⟩ := said
  obtain ⟨rest, shape, later⟩ := WordReader.bind_keyword_eq_ok read
  obtain ⟨first, others, rfl, rfl, rfl⟩ := List.map_eq_cons_iff.mp shape
  obtain ⟨id, rest, shape, last⟩ := WordReader.bind_word_eq_ok later
  obtain ⟨second, others, rfl, rfl, rfl⟩ := List.map_eq_cons_iff.mp shape
  obtain ⟨same, -⟩ := named _ _ _ _ trivial last
  exact ⟨others, by rw [cut, same, String.toList_ofList, String.toList_ofList]⟩

end Words

/-- Whatever a reader finds. -/
theorem Yields.any {σ ε α : Type} (reader : StateT σ (Except ε) α) :
    Yields (fun _ => True) reader fun _ => True :=
  fun _ _ _ _ _ => ⟨trivial, trivial⟩

theorem Says.declares_field {line : List Char} {field : Field}
    (said : Says WordReader.field line field) : Declares "attr" field.id line := by
  have rest : ∀ (bad : RowFault) (start : Field), Yields (fun _ => True)
      (WordReader.fieldRest bad start) fun field => field.id = start.id := by
    intro bad start
    unfold WordReader.fieldRest
    refine (Yields.any _).bind fun condition _ => (Yields.any _).bind fun repetition _ => ?_
    refine (Yields.any _).bind fun repeatExpr _ => (Yields.any _).bind fun switchOn _ => ?_
    refine (Yields.any _).bind fun size _ => (Yields.any _).bind fun cases _ => ?_
    refine (Yields.any _).bind fun ended _ => ?_
    split
    · exact .pure rfl
    · refine (Yields.any _).bind fun transform _ => (Yields.any _).bind fun _ _ => ?_
      exact .pure rfl
  refine Says.declares said fun id => ?_
  refine (Yields.any _).bind fun type _ => (Yields.any _).bind fun order _ => ?_
  refine (Yields.any _).bind fun size _ => (Yields.any _).bind fun ended _ => ?_
  split
  · exact .pure rfl
  · refine (Yields.any _).bind fun enumName _ => (Yields.any _).bind fun encoding _ => ?_
    refine (Yields.any _).bind fun ended _ => ?_
    split
    · exact .pure rfl
    · exact rest _ _

theorem Says.declares_instance {line : List Char} {inst : Instance}
    (said : Says WordReader.instanceDecl line inst) : Declares "instance" inst.id line := by
  refine Says.declares said fun id => ?_
  refine (Yields.any _).bind fun body _ => (Yields.any _).bind fun _ _ => ?_
  exact .pure rfl

/-! ### How rows start -/

/-- The kinds of rows that declare what a reader keeps. -/
inductive Holder where
  | field
  | inst
  deriving DecidableEq, Repr

namespace Holder

def keyword : Holder → String
  | .field => "attr"
  | .inst => "instance"

/-- The names that a format declares. -/
def ids (format : Format) : Holder → List String
  | .field => format.fields.map Field.id
  | .inst => format.instances.map Instance.id

/-- A line starts with the keyword and opens a quote. -/
def Opens (holder : Holder) (line : List Char) : Prop :=
  holder.keyword.toList ++ [' ', '"'] <+: line

theorem isPlain_keyword (holder : Holder) : (Cell.bare holder.keyword).IsPlain := by
  cases holder <;> decide

theorem keyword_injective {holder other : Holder} (same : holder.keyword = other.keyword) :
    holder = other := by
  cases holder <;> cases other <;> first | rfl | exact absurd same (by decide)

/-- The words of a line that starts with a keyword. -/
theorem words_behind (holder : Holder) (rest : List Char) :
    Text.words (holder.keyword.toList ++ ' ' :: rest) =
      (Text.scanWords .between [] rest).map (holder.keyword.toList :: ·) := by
  have scanned := (Cell.bare holder.keyword).scan_text holder.isPlain_keyword (' ' :: rest)
  rw [Cell.text, Cell.content] at scanned
  rw [Text.words, scanned, Text.scanWords]
  simp [Text.isGap]

/-- Such a line has the keyword for its first word. -/
theorem Opens.keyword_eq {holder : Holder} {line : List Char} (opens : holder.Opens line)
    {word : String} (keyed : Keyed word line) : word = holder.keyword := by
  obtain ⟨rest, rfl⟩ := opens
  obtain ⟨others, cut⟩ := keyed
  rw [List.append_assoc, List.cons_append, words_behind] at cut
  obtain ⟨words, -, same⟩ := Option.map_eq_some_iff.mp cut
  exact (String.toList_inj.mp (List.cons.inj same).1).symm

/-- How the row of a name starts where no backslash is needed. -/
def rowStart (holder : Holder) (id : String) : List Char :=
  holder.keyword.toList ++ ' ' :: '"' :: (id.toList ++ ['"'])

theorem opens_of_rowStart {holder : Holder} {id : String} {line : List Char}
    (starts : holder.rowStart id <+: line) : holder.Opens line := by
  refine List.IsPrefix.trans ?_ starts
  exact ⟨id.toList ++ ['"'], by simp [rowStart]⟩

/-- A row that starts with a name declares one that starts with it. -/
theorem prefix_of_declares {holder : Holder} {id other : String} {line : List Char}
    (verbatim : Text.IsVerbatim id.toList) (starts : holder.rowStart id <+: line)
    (declares : Declares holder.keyword other line) : id.toList <+: other.toList := by
  obtain ⟨rest, rfl⟩ := starts
  obtain ⟨others, cut⟩ := declares
  have quoted : holder.rowStart id ++ rest =
      holder.keyword.toList ++ ' ' :: (Text.quote id.toList ++ rest) := by
    simp [rowStart, Text.quote, Text.escape_of_isVerbatim verbatim]
  rw [quoted, words_behind, Text.scanWords_quote] at cut
  obtain ⟨words, scanned, same⟩ := Option.map_eq_some_iff.mp cut
  obtain ⟨more, left, rfl⟩ := Text.scanWords_inside (by decide) scanned
  rw [List.reverse_reverse] at same
  exact ⟨more, (List.cons.inj (List.cons.inj same).2).1⟩

end Holder

/-! ### Other rows -/

/-- No line of a block starts as the row of a field or an instance. -/
def Foreign (block : List (List Char)) : Prop :=
  ∀ line ∈ block, ∀ holder : Holder, ¬ holder.Opens line

theorem foreign_nil : Foreign [] := by
  intro line member
  cases member

theorem foreign_cons {line : List Char} {block : List (List Char)} :
    Foreign (line :: block) ↔ (∀ holder : Holder, ¬ holder.Opens line) ∧ Foreign block :=
  List.forall_mem_cons

theorem foreign_append {first second : List (List Char)} :
    Foreign (first ++ second) ↔ Foreign first ∧ Foreign second :=
  List.forall_mem_append

theorem Keyed.not_opens {word : String} {line : List Char} (keyed : Keyed word line)
    (other : word ∉ ["attr", "instance"]) (holder : Holder) : ¬ holder.Opens line := by
  intro opens
  rw [opens.keyword_eq keyed] at other
  cases holder <;> exact absurd other (by decide)

theorem not_opens_of_trimEnd {line rest : List Char} {c : Char}
    (marked : Text.trimEnd line = c :: rest) (other : c ∉ ['a', 'i']) (holder : Holder) :
    ¬ holder.Opens line := by
  intro opens
  have first := Text.trimEnd_prefix line
  rw [marked] at first
  obtain ⟨more, rfl⟩ := opens
  cases holder with
  | field =>
    cases (List.cons_prefix_cons.mp first).1
    exact other (by decide)
  | inst =>
    cases (List.cons_prefix_cons.mp first).1
    exact other (by decide)

theorem Holder.Opens.trimStart_eq {holder : Holder} {line : List Char}
    (opens : holder.Opens line) : Text.trimStart line = line := by
  obtain ⟨more, rfl⟩ := opens
  cases holder <;> rfl

theorem not_opens_of_trim {line rest : List Char} {c : Char} (marked : Text.trim line = c :: rest)
    (other : c ∉ ['a', 'i']) (holder : Holder) : ¬ holder.Opens line := by
  intro opens
  rw [Text.trim, opens.trimStart_eq] at marked
  exact not_opens_of_trimEnd marked other holder opens

theorem foreign_of_keyed {α : Type} {reader : WordReader α} {word : String}
    {rows : List (List Char)} {values : List α} (other : word ∉ ["attr", "instance"])
    (each : ∀ line value, Says reader line value → Keyed word line)
    (listed : List.Forall₂ (Says reader) rows values) : Foreign rows := by
  induction listed with
  | nil => exact foreign_nil
  | cons said _ ih => exact foreign_cons.mpr ⟨(each _ _ said).not_opens other, ih⟩

/-! ### Sections -/

/-- A reader takes some lines off a listing, and what they are goes with what it finds. -/
def Takes {α : Type} (reader : LineReader α) (shape : List (List Char) → α → Prop) : Prop :=
  ∀ before value after, reader before = .ok (value, after) →
    ∃ block, before.rest = block ++ after.rest ∧ shape block value

namespace LineReader

variable {α : Type}

theorem mark_takes (trim : List Char → List Char) (expected : String) (fault : RowFault) :
    Takes (mark trim expected fault) fun block _ =>
      ∃ line, block = [line] ∧ trim line = expected.toList := by
  rintro ⟨number, _ | ⟨line, rest⟩⟩ value after marked
  · cases marked
  · obtain ⟨same, rfl⟩ := mark_eq_ok_iff.mp marked
    exact ⟨[line], rfl, line, rfl, same⟩

theorem value_takes (missing bad : RowFault) (reader : WordReader α) :
    Takes (value missing bad reader) fun block value =>
      ∃ line, block = [line] ∧ Says reader line value := by
  rintro ⟨number, _ | ⟨line, rest⟩⟩ value after read
  · obtain ⟨row, middle, first, -⟩ := bind_eq_ok_iff.mp read
    exact absurd first row_of_nil
  · obtain ⟨said, rfl⟩ := value_eq_ok_iff.mp read
    exact ⟨[line], rfl, line, rfl, said⟩

/-- A section: the line that opens it, and a row for each value. -/
theorem sectionRows_takes (name : String) (kind : RowKind) (reader : WordReader α) :
    Takes (sectionRows name kind reader) fun block values =>
      ∃ line rows, block = line :: rows ∧ Keyed name line ∧
        List.Forall₂ (Says reader) rows values := by
  rintro ⟨number, _ | ⟨line, rest⟩⟩ values after read
  · obtain ⟨size, middle, opened, -⟩ := bind_eq_ok_iff.mp read
    obtain ⟨block, shape, line, rfl, -⟩ := value_takes _ _ _ _ _ _ opened
    cases shape
  · obtain ⟨rows, others, rfl, announced, rfl, said⟩ :=
      (sectionRows_eq_ok_iff name kind reader).mp read
    exact ⟨line :: rows, rfl, line, rows, rfl, announced.keyed, said⟩

/-- A section of neither fields nor instances. -/
theorem otherRows_takes {name word : String} {kind : RowKind} {reader : WordReader α}
    (other : name ∉ ["attr", "instance"] ∧ word ∉ ["attr", "instance"])
    (each : ∀ line value, Says reader line value → Keyed word line) :
    Takes (sectionRows name kind reader) fun block values =>
      ∃ line rows, block = line :: rows ∧ Keyed name line ∧ rows.length = values.length ∧
        Foreign block := by
  intro before values after read
  obtain ⟨block, shape, line, rows, rfl, keyed, said⟩ := sectionRows_takes _ _ _ _ _ _ read
  exact ⟨_, shape, line, rows, rfl, keyed, said.length_eq,
    foreign_cons.mpr ⟨keyed.not_opens other.1, foreign_of_keyed other.2 each said⟩⟩

theorem imports_takes : Takes imports fun block names =>
    Foreign block ∧ (block = [] ∧ names = [] ∨
      ∃ line rows, block = line :: rows ∧ Keyed "imports" line ∧ rows.length = names.length) := by
  intro before names after read
  obtain ⟨word, middle, ⟨⟩, taken⟩ := bind_eq_ok_iff.mp read
  split at taken
  · obtain ⟨block, shape, line, rows, same, keyed, length, foreign⟩ :=
      otherRows_takes (by decide) (fun _ _ said => Says.keyed said) _ _ _ taken
    exact ⟨block, shape, foreign, .inr ⟨line, rows, same, keyed, length⟩⟩
  · cases taken
    exact ⟨[], rfl, foreign_nil, .inl ⟨rfl, rfl⟩⟩

theorem enumValues_takes (size : Nat) : Takes (enumValues size) fun block values =>
    List.Forall₂ (Says WordReader.enumValue) block values := by
  induction size with
  | zero =>
    rintro before value after ⟨⟩
    exact ⟨[], rfl, .nil⟩
  | succ size ih =>
    intro before values after read
    obtain ⟨first, middle, here, read⟩ := bind_eq_ok_iff.mp read
    obtain ⟨others, last, there, ⟨⟩⟩ := bind_eq_ok_iff.mp read
    obtain ⟨block, shape, line, rfl, said⟩ := value_takes _ _ _ _ _ _ here
    obtain ⟨rows, behind, more⟩ := ih _ _ _ there
    exact ⟨line :: rows, by rw [shape, behind]; rfl, .cons said more⟩

/-- The enums of a section take a row each and one for each of their values. -/
theorem enums_takes (size : Nat) : Takes (enums size) fun block decls =>
    block.length = (decls.map fun decl => 1 + decl.values.length).sum ∧ Foreign block := by
  induction size with
  | zero =>
    rintro before value after ⟨⟩
    exact ⟨[], rfl, rfl, foreign_nil⟩
  | succ size ih =>
    intro before decls after read
    obtain ⟨⟨name, count⟩, middle, here, read⟩ := bind_eq_ok_iff.mp read
    obtain ⟨values, next, inside, read⟩ := bind_eq_ok_iff.mp read
    obtain ⟨others, last, there, ⟨⟩⟩ := bind_eq_ok_iff.mp read
    obtain ⟨block, shape, line, rfl, said⟩ := value_takes _ _ _ _ _ _ here
    obtain ⟨rows, between, listed⟩ := enumValues_takes _ _ _ _ inside
    obtain ⟨more, behind, total, foreign⟩ := ih _ _ _ there
    refine ⟨line :: (rows ++ more), ?_, ?_, ?_⟩
    · rw [shape, between, behind]
      simp
    · simp only [List.length_cons, List.length_append, total, listed.length_eq, List.map_cons,
        List.sum_cons]
      omega
    · rw [foreign_cons, foreign_append]
      exact ⟨said.keyed.not_opens (by decide),
        foreign_of_keyed (by decide) (fun _ _ said => Says.keyed said) listed, foreign⟩

end LineReader

/-- How many rows the imports of a listing take. Their section may be missing. -/
def importRows (lines : List (List Char)) (format : Format) : Nat :=
  if (lines[3]?.bind Text.words).bind List.head? = some "imports".toList then
    1 + format.imports.length
  else 0

/-- The index of the first row of a field. The header, the name and the byte order are in front of
all sections, and a line opens each. -/
def fieldsAt (lines : List (List Char)) (format : Format) : Nat :=
  3 + importRows lines format + (1 + format.types.length) + 1

/-- The index of the first row of an instance. -/
def instancesAt (lines : List (List Char)) (format : Format) : Nat :=
  fieldsAt lines format + format.fields.length +
    (1 + (format.enums.map fun decl => 1 + decl.values.length).sum) + 1

/-- The index of the end mark. -/
def endAt (lines : List (List Char)) (format : Format) : Nat :=
  instancesAt lines format + format.instances.length + (1 + format.validations.length)

/-- The lines of a listing, cut around the rows of fields and instances. -/
structure Layout (lines : List (List Char)) (format : Format) where
  front : List (List Char)
  fields : List (List Char)
  between : List (List Char)
  instances : List (List Char)
  closing : List (List Char)
  behind : List (List Char)
  whole : lines = front ++ (fields ++ (between ++ (instances ++ (closing ++ behind))))
  front_length : front.length = fieldsAt lines format
  between_length :
    between.length = 1 + (format.enums.map fun decl => 1 + decl.values.length).sum + 1
  closing_length : closing.length = 1 + format.validations.length + 1
  says_fields : List.Forall₂ (Says WordReader.field) fields format.fields
  says_instances : List.Forall₂ (Says WordReader.instanceDecl) instances format.instances
  foreign : Foreign (front ++ between ++ closing)

theorem importRows_of_keyed {lines : List (List Char)} {line : List Char} {word : String}
    (fourth : lines[3]? = some line) (keyed : Keyed word line) (format : Format) :
    importRows lines format = if word = "imports" then 1 + format.imports.length else 0 := by
  obtain ⟨others, cut⟩ := keyed
  have head : (lines[3]?.bind Text.words).bind List.head? = some word.toList := by
    rw [fourth, Option.bind_some, cut]
    rfl
  simp only [importRows, head, Option.some.injEq, String.toList_inj]

theorem importRows_eq {header name order opening : List Char} {block rest : List (List Char)}
    {format : Format} (types : Keyed "types" opening)
    (shape : block = [] ∧ format.imports = [] ∨ ∃ line rows, block = line :: rows ∧
      Keyed "imports" line ∧ rows.length = format.imports.length) :
    importRows (header :: name :: order :: (block ++ opening :: rest)) format = block.length := by
  rcases shape with ⟨rfl, -⟩ | ⟨line, rows, rfl, keyed, length⟩
  · rw [importRows_of_keyed rfl types, if_neg (by decide), List.length_nil]
  · rw [importRows_of_keyed rfl keyed, if_pos rfl, List.length_cons, length, Nat.add_comm]

theorem exists_layout {text : List Char} {format : Format} (found : read text = .ok format) :
    Nonempty (Layout (Text.lines text) format) := by
  obtain ⟨⟨_, last⟩, run, rfl⟩ := Except.map_eq_ok_iff.mp found
  rw [LineReader.format_eq_declarations] at run
  obtain ⟨_, first, marked, run⟩ := LineReader.bind_eq_ok_iff.mp run
  obtain ⟨name, second, named, run⟩ := LineReader.bind_eq_ok_iff.mp run
  obtain ⟨order, third, ordered, run⟩ := LineReader.bind_eq_ok_iff.mp run
  obtain ⟨imports, fourth, imported, run⟩ := LineReader.bind_eq_ok_iff.mp run
  obtain ⟨types, fifth, typed, run⟩ := LineReader.bind_eq_ok_iff.mp run
  obtain ⟨fields, sixth, listed, run⟩ := LineReader.bind_eq_ok_iff.mp run
  obtain ⟨size, seventh, opened, run⟩ := LineReader.bind_eq_ok_iff.mp run
  obtain ⟨enums, eighth, numbered, run⟩ := LineReader.bind_eq_ok_iff.mp run
  obtain ⟨instances, ninth, computed, run⟩ := LineReader.bind_eq_ok_iff.mp run
  obtain ⟨validations, tenth, validated, run⟩ := LineReader.bind_eq_ok_iff.mp run
  obtain ⟨_, final, ended, ⟨⟩⟩ := LineReader.bind_eq_ok_iff.mp run
  -- each step says which lines it took, and these together are the text
  obtain ⟨_, rest1, header, rfl, isHeader⟩ := LineReader.mark_takes _ _ _ _ _ _ marked
  obtain ⟨_, rest2, nameRow, rfl, saidName⟩ := LineReader.value_takes _ _ _ _ _ _ named
  obtain ⟨_, rest3, orderRow, rfl, saidOrder⟩ := LineReader.value_takes _ _ _ _ _ _ ordered
  obtain ⟨importBlock, rest4, importForeign, importShape⟩ := LineReader.imports_takes _ _ _ imported
  obtain ⟨_, rest5, typeHead, typeRows, rfl, typeKey, typeLength, typeForeign⟩ :=
    LineReader.otherRows_takes (by decide) (fun _ _ said => Says.keyed said) _ _ _ typed
  obtain ⟨_, rest6, fieldHead, fieldRows, rfl, fieldKey, saidFields⟩ :=
    LineReader.sectionRows_takes _ _ _ _ _ _ listed
  obtain ⟨_, rest7, enumHead, rfl, saidEnums⟩ := LineReader.value_takes _ _ _ _ _ _ opened
  obtain ⟨enumRows, rest8, enumLength, enumForeign⟩ := LineReader.enums_takes _ _ _ _ numbered
  obtain ⟨_, rest9, instanceHead, instanceRows, rfl, instanceKey, saidInstances⟩ :=
    LineReader.sectionRows_takes _ _ _ _ _ _ computed
  obtain ⟨_, rest10, validationHead, validationRows, rfl, -, validationLength,
    validationForeign⟩ :=
    LineReader.otherRows_takes (by decide) (fun _ _ said => Says.keyed said) _ _ _ validated
  obtain ⟨_, rest11, endRow, rfl, isEnd⟩ := LineReader.mark_takes _ _ _ _ _ _ ended
  have lines : Text.lines text = header :: nameRow :: orderRow :: (importBlock ++ typeHead ::
      (typeRows ++ fieldHead :: (fieldRows ++ enumHead :: (enumRows ++ instanceHead ::
        (instanceRows ++ validationHead :: (validationRows ++ endRow :: last.rest)))))) := by
    rw [show Text.lines text = [header] ++ first.rest from rest1, rest2, rest3, rest4, rest5,
      rest6, rest7, rest8, rest9, rest10, rest11]
    simp
  refine ⟨{
    front := header :: nameRow :: orderRow :: (importBlock ++ typeHead :: (typeRows ++ [fieldHead]))
    fields := fieldRows
    between := enumHead :: (enumRows ++ [instanceHead])
    instances := instanceRows
    closing := validationHead :: (validationRows ++ [endRow])
    behind := last.rest
    whole := by simp [lines]
    front_length := ?_
    between_length := ?_
    closing_length := ?_
    says_fields := saidFields
    says_instances := saidInstances
    foreign := ?_ }⟩
  · rw [fieldsAt, lines, importRows_eq typeKey importShape]
    simp only [List.length_cons, List.length_append, List.length_nil, typeLength]
    omega
  · simp only [List.length_cons, List.length_append, List.length_nil, enumLength]
    omega
  · simp only [List.length_cons, List.length_append, List.length_nil, validationLength]
    omega
  · rw [foreign_cons] at typeForeign validationForeign
    simp only [foreign_append, foreign_cons]
    exact ⟨⟨⟨not_opens_of_trimEnd isHeader (by decide), saidName.keyed.not_opens (by decide),
      saidOrder.keyed.not_opens (by decide), importForeign, typeForeign.1, typeForeign.2,
      fieldKey.not_opens (by decide), foreign_nil⟩, saidEnums.keyed.not_opens (by decide),
      enumForeign, instanceKey.not_opens (by decide), foreign_nil⟩, validationForeign.1,
      validationForeign.2, not_opens_of_trim isEnd (by decide), foreign_nil⟩

/-- The index of the first row of some kind. -/
def Holder.start (lines : List (List Char)) (format : Format) : Holder → Nat
  | .field => fieldsAt lines format
  | .inst => instancesAt lines format

theorem append_at {α : Type} {first second : List α} {index : Nat} {value : α}
    (found : (first ++ second)[index]? = some value) :
    first[index]? = some value ∨
      ∃ place, index = first.length + place ∧ second[place]? = some value := by
  rcases Nat.lt_or_ge index first.length with inside | outside
  · rw [List.getElem?_append_left inside] at found
    exact .inl found
  · rw [List.getElem?_append_right outside] at found
    exact .inr ⟨index - first.length, by omega, found⟩

theorem exists_related_at {α β : Type} {related : α → β → Prop} {first : List α} {second : List β}
    (all : List.Forall₂ related first second) {index : Nat} {value : α}
    (found : first[index]? = some value) :
    ∃ other, second[index]? = some other ∧ related value other := by
  induction all generalizing index with
  | nil => cases found
  | cons here _ ih =>
    cases index with
    | zero =>
      cases found
      exact ⟨_, rfl, here⟩
    | succ index => exact ih found

/-- The rows of a block are found behind what is in front of it. -/
theorem row_at {α : Type} {related : List Char → α → Prop}
    {lines before rows behind : List (List Char)} {values : List α} {start place : Nat} {value : α}
    (whole : lines = before ++ (rows ++ behind)) (length : before.length = start)
    (all : List.Forall₂ related rows values) (found : values[place]? = some value) :
    ∃ line, lines[start + place]? = some line ∧ related line value := by
  obtain ⟨line, listed, holds⟩ := exists_related_at (List.Forall₂.flip all) found
  have inside := (List.getElem?_eq_some_iff.mp listed).1
  refine ⟨line, ?_, holds⟩
  rw [whole, ← length, List.getElem?_append_right (Nat.le_add_right _ _), Nat.add_sub_cancel_left,
    List.getElem?_append_left inside, listed]

namespace Layout

variable {lines : List (List Char)} {format : Format} (layout : Layout lines format)
include layout

theorem instances_start :
    (layout.front ++ (layout.fields ++ layout.between)).length = instancesAt lines format := by
  simp only [instancesAt, List.length_append, layout.front_length, layout.between_length,
    layout.says_fields.length_eq]
  omega

/-- The row of each field has its number. -/
theorem field_at {place : Nat} {field : Field} (declared : format.fields[place]? = some field) :
    ∃ line, lines[fieldsAt lines format + place]? = some line ∧
      Says WordReader.field line field :=
  row_at layout.whole layout.front_length layout.says_fields declared

theorem instance_at {place : Nat} {inst : Instance}
    (declared : format.instances[place]? = some inst) :
    ∃ line, lines[instancesAt lines format + place]? = some line ∧
      Says WordReader.instanceDecl line inst := by
  have whole : lines = layout.front ++ (layout.fields ++ layout.between) ++
      (layout.instances ++ (layout.closing ++ layout.behind)) := by
    rw [List.append_assoc, List.append_assoc, ← layout.whole]
  exact row_at whole layout.instances_start layout.says_instances declared

theorem declares_at {holder : Holder} {place : Nat} {id : String}
    (declared : (holder.ids format)[place]? = some id) :
    ∃ line, lines[holder.start lines format + place]? = some line ∧
      Declares holder.keyword id line := by
  cases holder with
  | field =>
    rw [Holder.ids, List.getElem?_map, Option.map_eq_some_iff] at declared
    obtain ⟨field, found, rfl⟩ := declared
    obtain ⟨line, listed, said⟩ := layout.field_at found
    exact ⟨line, listed, said.declares_field⟩
  | inst =>
    rw [Holder.ids, List.getElem?_map, Option.map_eq_some_iff] at declared
    obtain ⟨inst, found, rfl⟩ := declared
    obtain ⟨line, listed, said⟩ := layout.instance_at found
    exact ⟨line, listed, said.declares_instance⟩

/-- Only rows of some kind start as they do, unless they are behind the end mark. -/
theorem of_opens {holder : Holder} {index : Nat} {line : List Char}
    (found : lines[index]? = some line) (opens : holder.Opens line) :
    (∃ place id, index = holder.start lines format + place ∧
      (holder.ids format)[place]? = some id ∧ Declares holder.keyword id line) ∨
        endAt lines format < index := by
  -- a line is in one of six blocks, and the keyword rules out all but the block of its kind
  have foreign := layout.foreign
  rw [foreign_append, foreign_append] at foreign
  obtain ⟨⟨front, between⟩, closing⟩ := foreign
  have apart : ∀ {word}, Keyed word line → word = holder.keyword := opens.keyword_eq
  rw [congrArg (·[index]?) layout.whole] at found
  rcases append_at found with inFront | ⟨first, rfl, behindFront⟩
  · exact absurd opens (front line (List.mem_of_getElem? inFront) holder)
  rcases append_at behindFront with inFields | ⟨second, rfl, behindFields⟩
  · obtain ⟨field, declared, said⟩ := exists_related_at layout.says_fields inFields
    have declares := said.declares_field
    obtain rfl : holder = .field := Holder.keyword_injective (apart declares.keyed).symm
    refine .inl ⟨first, field.id, ?_, by simp [Holder.ids, declared], declares⟩
    rw [layout.front_length, Holder.start]
  rcases append_at behindFields with inBetween | ⟨third, rfl, behindBetween⟩
  · exact absurd opens (between line (List.mem_of_getElem? inBetween) holder)
  have start := layout.instances_start
  rw [List.length_append, List.length_append] at start
  rcases append_at behindBetween with inInstances | ⟨fourth, rfl, behindInstances⟩
  · obtain ⟨inst, declared, said⟩ := exists_related_at layout.says_instances inInstances
    have declares := said.declares_instance
    obtain rfl : holder = .inst := Holder.keyword_injective (apart declares.keyed).symm
    refine .inl ⟨third, inst.id, ?_, by simp [Holder.ids, declared], declares⟩
    rw [Holder.start]
    omega
  rcases append_at behindInstances with inClosing | ⟨last, rfl, -⟩
  · exact absurd opens (closing line (List.mem_of_getElem? inClosing) holder)
  · right
    rw [endAt, layout.closing_length, layout.says_instances.length_eq]
    omega

end Layout

end Listing

end FormatCompiler
