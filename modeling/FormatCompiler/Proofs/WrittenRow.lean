import FormatCompiler.Proofs.DeclaringRow
import FormatCompiler.Proofs.ListingRoundTrip

/-!
The lines of listings as they are written. They are the rows, with nothing behind the end mark, and
the row of a field or an instance starts with its name where the name needs no backslash. So the
first line that starts with a name is the row of the first field or instance that is called so.
-/

namespace FormatCompiler

set_option autoImplicit false

/-- Quotes around a text that holds none and no backslash are around no other text. -/
theorem Text.prefix_quote_iff {text other rest : List Char} (verbatim : IsVerbatim text) :
    text ++ ['"'] <+: escape other ++ '"' :: rest ↔ text = other := by
  constructor
  · intro first
    induction text generalizing other with
    | nil =>
      cases other with
      | nil => rfl
      | cons c others =>
        rw [escape] at first
        split at first
        · simp at first
        · next plain =>
          obtain ⟨same, -⟩ := List.cons_prefix_cons.mp first
          exact absurd (.inl same.symm) plain
    | cons c text ih =>
      obtain ⟨plain, verbatim⟩ := isVerbatim_cons.mp verbatim
      cases other with
      | nil => exact absurd (.inl (List.cons_prefix_cons.mp first).1) plain
      | cons d others =>
        rw [escape] at first
        split at first
        · exact absurd (.inr (List.cons_prefix_cons.mp first).1) plain
        · obtain ⟨rfl, later⟩ := List.cons_prefix_cons.mp first
          rw [ih verbatim later]
  · rintro rfl
    rw [escape_of_isVerbatim verbatim]
    exact ⟨rest, by simp⟩

namespace Listing

/-- A row as it is written starts with the name that it declares, and with no other. -/
theorem Holder.rowStart_prefix_iff {holder : Holder} {id other : String} {cells : Row}
    (verbatim : Text.IsVerbatim id.toList) :
    holder.rowStart id <+: Row.text ([.bare holder.keyword, .quoted other] ++ cells) ↔
      id = other := by
  obtain ⟨rest, shape⟩ : ∃ rest, Row.text ([.bare holder.keyword, .quoted other] ++ cells) =
      holder.keyword.toList ++ ' ' :: '"' :: (Text.escape other.toList ++ '"' :: rest) := by
    cases cells with
    | nil => exact ⟨[], by simp [Row.text, Cell.text, Text.quote]⟩
    | cons cell cells => exact ⟨' ' :: Row.text (cell :: cells), by
        simp [Row.text, Cell.text, Text.quote]⟩
  rw [shape, rowStart, List.prefix_append_right_inj, List.cons_prefix_cons,
    List.cons_prefix_cons, Text.prefix_quote_iff verbatim, String.toList_inj]
  simp

/-- The row of a field or an instance, or one with another keyword. -/
inductive Row.Starts : Row → Prop
  | declares (holder : Holder) (id : String) (cells : Row) :
      Starts ([.bare holder.keyword, .quoted id] ++ cells)
  | other {word : String} (apart : word ∉ ["attr", "instance"]) (cells : Row) :
      Starts (.bare word :: cells)

theorem Row.Starts.ne_nil {row : Row} (starts : row.Starts) : row ≠ [] := by
  cases starts <;> simp

/-- A row of the listing of a format: its strings are strings of the format. -/
structure Row.IsOf (row : Row) (format : Format) : Prop where
  starts : row.Starts
  holds : ∃ strings, row.Holds strings ∧ strings ⊆ format.strings

section RowsOf

variable {format : Format}

theorem Row.isOf_mark {row : Row} (starts : row.Starts) (holds : row.Holds []) : row.IsOf format :=
  ⟨starts, [], holds, List.nil_subset _⟩

theorem Row.isOf_section (name : String) (size : Nat) (plain : (Cell.bare name).IsPlain)
    (apart : name ∉ ["attr", "instance"]) : (sectionRow name size).IsOf format :=
  isOf_mark (.other apart [count size]) (sectionRow_holds name size plain)

theorem Row.isOf_items {α : Type} {items : List α} {row : α → Row} {strings : α → List String}
    (starts : ∀ item, (row item).Starts) (holds : ∀ item, (row item).Holds (strings item))
    (stored : items.flatMap strings ⊆ format.strings) : ∀ item ∈ items, (row item).IsOf format := by
  intro item member
  refine ⟨starts item, strings item, holds item, fun string listed => stored ?_⟩
  exact List.mem_flatMap.mpr ⟨item, member, listed⟩

theorem enumRows_isOf : ∀ row ∈ format.enums.flatMap enumRows, row.IsOf format := by
  intro row member
  obtain ⟨decl, declared, listed⟩ := List.mem_flatMap.mp member
  have stored : decl.strings ⊆ format.strings := by
    intro string listed
    have inside : string ∈ format.enums.flatMap EnumDecl.strings :=
      List.mem_flatMap.mpr ⟨decl, declared, listed⟩
    simp [Format.strings, inside]
  rw [EnumDecl.strings, List.cons_subset] at stored
  rcases List.mem_cons.mp listed with rfl | listed
  · exact ⟨.other (by decide) _, [decl.name], enumHead_holds decl, by simpa using stored.1⟩
  · obtain ⟨value, valued, rfl⟩ := List.mem_map.mp listed
    refine ⟨.other (by decide) _, [value.name], enumValueRow_holds value, ?_⟩
    simpa using stored.2 (List.mem_map_of_mem valued)

theorem rows_isOf : ∀ row ∈ rows format, row.IsOf format := by
  have name : Row.IsOf [.bare "name", .quoted format.name] format :=
    ⟨.other (by decide) _, [format.name],
      (bare_holds "name" (by decide)).cons (quoted_holds format.name), by simp [Format.strings]⟩
  have order : Row.IsOf [.bare "default_endian", .bare format.order.word] format :=
    Row.isOf_mark (.other (by decide) _) ((bare_holds "default_endian" (by decide)).cons
      (bare_holds format.order.word (by cases format.order <;> decide)))
  have mark : ∀ word : String, (Cell.bare word).IsPlain → word ∉ ["attr", "instance"] →
      Row.IsOf [.bare word] format :=
    fun word plain apart => Row.isOf_mark (.other apart []) (bare_holds word plain)
  have opening := @Row.isOf_section format
  simp only [rows, List.forall_mem_append, List.forall_mem_cons, List.forall_mem_map,
    List.not_mem_nil, false_implies, implies_true, and_true]
  refine ⟨⟨⟨⟨⟨⟨⟨⟨mark _ (by decide) (by decide), name, order⟩,
    opening _ _ (by decide) (by decide), ?_⟩, opening _ _ (by decide) (by decide), ?_⟩,
    opening _ _ (by decide) (by decide), ?_⟩, opening _ _ (by decide) (by decide), enumRows_isOf⟩,
    opening _ _ (by decide) (by decide), ?_⟩, opening _ _ (by decide) (by decide), ?_⟩,
    mark _ (by decide) (by decide)⟩
  · exact Row.isOf_items (fun _ => .other (by decide) _) importRow_holds
      fun string listed => by simp_all [Format.strings]
  · exact Row.isOf_items (fun _ => .other (by decide) _) typeRow_holds
      fun string listed => by simp [Format.strings, listed]
  · exact Row.isOf_items (fun field => .declares .field field.id _)
      (fun field => fieldForm_holds (fieldForm_fieldRow field))
      fun string listed => by simp [Format.strings, listed]
  · exact Row.isOf_items (fun inst => .declares .inst inst.id _) instanceRow_holds
      fun string listed => by simp [Format.strings, listed]
  · exact Row.isOf_items (fun _ => .other (by decide) _) validationRow_holds
      fun string listed => by simp [Format.strings, listed]

end RowsOf

theorem lines_rowsText {rows : List Row}
    (formed : ∀ row ∈ rows, row.WellFormed ∧ row.IsLine) :
    Text.lines (rowsText rows) = rows.map Row.text := by
  induction rows with
  | nil => rfl
  | cons row rest ih =>
    obtain ⟨here, others⟩ := List.forall_mem_cons.mp formed
    have cut := LineReader.rowsText_cons row rest []
    rw [List.append_nil, List.append_nil] at cut
    rw [cut, row.lines_text here.1 here.2, ih others, List.map_cons]

/-- Where one list has the property wherever another one has it, only later, so is the first. -/
theorem findIdx_shift {α β : Type} {holds : α → Bool} {also : β → Bool} {first : List α}
    {second : List β} {start : Nat}
    (same : ∀ index, (∃ value, first[index]? = some value ∧ holds value = true) ↔
      ∃ place, index = start + place ∧ ∃ value, second[place]? = some value ∧ also value = true) :
    first.findIdx? holds = (second.findIdx? also).map (start + ·) := by
  cases found : second.findIdx? also with
  | none =>
    rw [Option.map_none, List.findIdx?_eq_none_iff]
    rw [List.findIdx?_eq_none_iff] at found
    intro value member
    obtain ⟨index, listed⟩ := List.mem_iff_getElem?.mp member
    apply Bool.eq_false_iff.mpr
    intro here
    obtain ⟨place, -, other, declared, there⟩ := (same index).mp ⟨value, listed, here⟩
    rw [found other (List.mem_of_getElem? declared)] at there
    cases there
  | some place =>
    obtain ⟨inside, there, before⟩ := List.findIdx?_eq_some_iff_getElem.mp found
    obtain ⟨value, listed, here⟩ :=
      (same (start + place)).mpr ⟨place, rfl, _, List.getElem?_eq_getElem inside, there⟩
    obtain ⟨within, rfl⟩ := List.getElem?_eq_some_iff.mp listed
    rw [Option.map_some, List.findIdx?_eq_some_iff_getElem]
    refine ⟨within, here, fun index earlier sooner => ?_⟩
    obtain ⟨other, rfl, value, declared, holds⟩ :=
      (same index).mp ⟨_, List.getElem?_eq_getElem _, sooner⟩
    obtain ⟨_, rfl⟩ := List.getElem?_eq_some_iff.mp declared
    exact before other (by omega) holds

section Written

variable {format own : Format} (found : read (write format) = .ok own)
include found

theorem isListable_of_read : format.IsListable ∧ own = format.normal := by
  by_cases listable : format.IsListable
  · rw [read_of_listable listable] at found
    cases found
    exact ⟨listable, rfl⟩
  · obtain ⟨fault, failed⟩ := read_of_unlistable listable
    rw [failed] at found
    cases found

theorem row_formed {row : Row} (member : row ∈ rows format) : row.WellFormed ∧ row.IsLine := by
  obtain ⟨listable, -⟩ := isListable_of_read found
  obtain ⟨starts, strings, holds, stored⟩ := rows_isOf row member
  exact ⟨⟨starts.ne_nil, holds.plain⟩, holds.isLine.mpr fun string listed =>
    listable.oneLine string (stored listed)⟩

/-- The lines of a listing that can be read are its rows. -/
theorem lines_write : Text.lines (write format) = (rows format).map Row.text :=
  lines_rowsText fun _ => row_formed found

/-- Where a name needs no backslash, its row starts with it, and no other row does. -/
theorem rowStart_iff_declares {line : List Char} (member : line ∈ Text.lines (write format))
    {holder : Holder} {id : String} (verbatim : Text.IsVerbatim id.toList) :
    holder.rowStart id <+: line ↔ Declares holder.keyword id line := by
  rw [lines_write found] at member
  obtain ⟨row, listed, rfl⟩ := List.mem_map.mp member
  have words := row.words_text (row_formed found listed).1
  cases (rows_isOf row listed).starts with
  | declares other name cells =>
    have declares : Declares other.keyword name _ := ⟨_, words⟩
    by_cases same : other = holder
    · subst same
      rw [Holder.rowStart_prefix_iff verbatim]
      exact ⟨fun equal => equal ▸ declares, fun also => also.unique declares⟩
    · have apart : other.keyword ≠ holder.keyword :=
        fun equal => same (Holder.keyword_injective equal)
      refine iff_of_false (fun starts => apart ?_) fun also => apart ?_
      · exact (Holder.opens_of_rowStart starts).keyword_eq declares.keyed
      · exact declares.keyed.unique also.keyed
  | @other word apart cells =>
    have keyed : Keyed word _ := ⟨_, words⟩
    refine iff_of_false (fun starts => ?_) fun also => ?_
    · exact keyed.not_opens apart holder (Holder.opens_of_rowStart starts)
    · rw [keyed.unique also.keyed] at apart
      cases holder <;> exact absurd apart (by decide)

/-- Nothing is written behind the end mark. -/
theorem length_write :
    (Text.lines (write format)).length = endAt (Text.lines (write format)) own + 1 := by
  obtain ⟨-, rfl⟩ := isListable_of_read found
  have opening : (rows format)[3]? = some (sectionRow "imports" format.imports.length) := rfl
  have formed := (row_formed found (List.mem_of_getElem? opening)).1
  have keyed : Keyed "imports" (sectionRow "imports" format.imports.length).text :=
    ⟨_, Row.words_text _ formed⟩
  have imports : importRows (Text.lines (write format)) format.normal =
      1 + format.imports.length := by
    rw [importRows_of_keyed ?_ keyed, if_pos rfl]
    · rfl
    · rw [lines_write found, List.getElem?_map, opening, Option.map_some]
  have enums : (format.enums.flatMap enumRows).length =
      (format.enums.map fun decl => 1 + decl.values.length).sum := by
    have each : ∀ decl : EnumDecl, (enumRows decl).length = 1 + decl.values.length := by
      intro decl
      rw [enumRows, List.length_cons, List.length_map, Nat.add_comm]
    simp only [List.length_flatMap, each]
  rw [endAt, instancesAt, fieldsAt, imports, lines_write found, List.length_map]
  simp only [rows, List.length_append, List.length_cons, List.length_map, List.length_nil, enums,
    Format.normal]
  omega

/-- Which lines of a written listing start with a name that needs no backslash. -/
theorem starts_at_iff {holder : Holder} {id : String} (verbatim : Text.IsVerbatim id.toList)
    (index : Nat) :
    (∃ line, (Text.lines (write format))[index]? = some line ∧ holder.rowStart id <+: line) ↔
      ∃ place, index = holder.start (Text.lines (write format)) own + place ∧
        (holder.ids own)[place]? = some id := by
  obtain ⟨layout⟩ := exists_layout found
  constructor
  · rintro ⟨line, listed, starts⟩
    have member := List.mem_of_getElem? listed
    have declares := (rowStart_iff_declares found member verbatim).mp starts
    rcases layout.of_opens listed (Holder.opens_of_rowStart starts) with
      ⟨place, name, rfl, declared, also⟩ | behind
    · exact ⟨place, rfl, declares.unique also ▸ declared⟩
    · have inside := (List.getElem?_eq_some_iff.mp listed).1
      rw [length_write found] at inside
      omega
  · rintro ⟨place, rfl, declared⟩
    obtain ⟨line, listed, declares⟩ := layout.declares_at declared
    exact ⟨line, listed,
      (rowStart_iff_declares found (List.mem_of_getElem? listed) verbatim).mpr declares⟩

/-- The first line that starts with such a name is the row of the first that is called so. -/
theorem findIdx_write {holder : Holder} {id : String} (verbatim : Text.IsVerbatim id.toList) :
    (Text.lines (write format)).findIdx? (holder.rowStart id).isPrefixOf =
      ((holder.ids own).idxOf? id).map (holder.start (Text.lines (write format)) own + ·) := by
  refine findIdx_shift fun index => ?_
  simp only [List.isPrefixOf_iff_prefix, beq_iff_eq, exists_eq_right]
  exact starts_at_iff found verbatim index

end Written

end Listing

end FormatCompiler
