import FormatCompiler.Proofs.Literal
import FormatCompiler.Proofs.SizedText

/-!
The encoding of text, as the targets write it. It stands between quotes as it is given. So the
literal has the encoding for its value just when no character of the encoding has another meaning
there: it closes the literal, starts an escape, ends the line or puts a value in.
-/

namespace FormatCompiler

set_option autoImplicit false

namespace Literal

/-! ### Text that means itself -/

section

variable {after text : List Char}

theorem verbatim_lineRules {escape : Escape} (short : Short escape) :
    (lineRules escape short).Verbatim after text ↔ ∀ c ∈ text, c ∉ ['"', '\\', '\n', '\r'] := by
  induction text with
  | nil => simp [Rules.Verbatim]
  | cons c rest ih =>
    have meaning : (lineRules escape short).piece c (rest ++ '"' :: after) = .self ↔
        c ∉ ['\\', '\n', '\r'] := by
      by_cases slash : c = '\\'
      · simp [lineRules, slash, escaped_ne_self]
      · simp [lineRules, slash]
    rw [Rules.Verbatim, ih, meaning, List.forall_mem_cons]
    simp only [List.mem_cons, List.not_mem_nil, or_false, not_or]
    tauto

theorem head_append_quote (rest after : List Char) :
    (rest ++ '"' :: after).head? = (rest ++ ['"']).head? := by
  cases rest <;> rfl

theorem pair_infix_cons_iff {first second c : Char} {text : List Char} :
    [first, second] <:+: c :: text ↔
      first = c ∧ text.head? = some second ∨ [first, second] <:+: text := by
  rw [List.infix_cons_iff, List.cons_prefix_cons]
  cases text with
  | nil => simp
  | cons next rest => simp [List.cons_prefix_cons, eq_comm]

theorem verbatim_pythonRules {names : List Char → Option Char} :
    (pythonRules names).Verbatim after text ↔ (∀ c ∈ text, c ∉ ['"', '\n', '\r', '\x00']) ∧
      ∀ c ∈ Python.escapes, ¬ ['\\', c] <:+: text ++ ['"'] := by
  induction text with
  | nil =>
    refine iff_of_true trivial ⟨by simp, ?_⟩
    intro c _ inside
    have short := inside.length_le
    simp at short
  | cons c rest ih =>
    have meaning : (pythonRules names).piece c (rest ++ '"' :: after) = .self ↔
        c ∉ ['\n', '\r', '\x00'] ∧
          ∀ next ∈ Python.escapes, ¬ ('\\' = c ∧ (rest ++ ['"']).head? = some next) := by
      by_cases slash : c = '\\'
      · subst slash
        have plain : '\\' ∉ ['\n', '\r', '\x00'] := by decide
        change (if (rest ++ '"' :: after).head?.any Python.escapes.contains then
          escaped (Python.escape names) _ else .self) = .self ↔ _
        rw [head_append_quote]
        cases (rest ++ ['"']).head? with
        | none => simp
        | some next => simp [escaped_ne_self, plain, ← List.forall_mem_ne]
      · simp [pythonRules, slash, Ne.symm slash]
    rw [Rules.Verbatim, ih, meaning, List.cons_append, List.forall_mem_cons]
    simp only [pair_infix_cons_iff, not_or, List.mem_cons, List.not_mem_nil, or_false]
    constructor
    · rintro ⟨quote, ⟨other, own⟩, inside, pairs⟩
      exact ⟨⟨by tauto, inside⟩, fun next listed => ⟨own next listed, pairs next listed⟩⟩
    · rintro ⟨⟨other, inside⟩, pairs⟩
      exact ⟨other.1, ⟨by tauto, fun next listed => (pairs next listed).1⟩, inside,
        fun next listed => (pairs next listed).2⟩

/-- Whether a value is put in shows up to the closing quote. -/
theorem putsIn_append_quote (rest after : List Char) :
    Ruby.putsIn (rest ++ '"' :: after) = Ruby.putsIn (rest ++ ['"']) := by
  have names : ∀ rest, Ruby.startsName (rest ++ '"' :: after) =
      Ruby.startsName (rest ++ ['"']) := by
    intro rest
    rw [Ruby.startsName, Ruby.startsName, head_append_quote]
  cases rest with
  | nil => rfl
  | cons c rest =>
    cases rest with
    | nil => simp [Ruby.putsIn, Ruby.startsName]
    | cons next rest =>
      have first : ∀ rest, Ruby.startsName (next :: rest) = Ruby.isNameStart next := fun _ => rfl
      simp only [List.cons_append, Ruby.putsIn, List.head?_cons, List.tail_cons, names, first]
      rfl

theorem suffix_cons_iff_of_head {first c : Char} {rest text : List Char} :
    first :: rest <:+ c :: text ↔ first = c ∧ rest = text ∨ first :: rest <:+ text := by
  rw [List.suffix_cons_iff, List.cons.injEq]

theorem verbatim_rubyRules :
    rubyRules.Verbatim after text ↔ (∀ c ∈ text, c ∉ ['"', '\\']) ∧ ¬ ['\r', '\n'] <:+: text ∧
      ∀ rest, '#' :: rest <:+ text ++ ['"'] → Ruby.putsIn rest = false := by
  induction text with
  | nil =>
    refine iff_of_true trivial ⟨by simp, by simp, ?_⟩
    intro rest behind
    simp [List.suffix_cons_iff] at behind
  | cons c rest ih =>
    have feeds : (rest ++ '"' :: after).head? = some '\n' ↔ rest.head? = some '\n' := by
      cases rest <;> simp
    have meaning : rubyRules.piece c (rest ++ '"' :: after) = .self ↔
        c ≠ '\\' ∧ ¬ ('\r' = c ∧ rest.head? = some '\n') ∧
          ('#' = c → Ruby.putsIn (rest ++ ['"']) = false) := by
      rw [← putsIn_append_quote rest after, ← feeds]
      by_cases slash : c = '\\'
      · simp [rubyRules, slash, escaped_ne_self]
      · change (if c = '\\' then _
          else if c = '\r' ∧ (rest ++ '"' :: after).head? = some '\n' then _
          else if c = '#' ∧ Ruby.putsIn (rest ++ '"' :: after) then _ else _) = Piece.self ↔ _
        rw [if_neg slash]
        split
        · next feed =>
          refine iff_of_false (by intro same; cases same) ?_
          intro plain
          exact plain.2.1 ⟨feed.1.symm, feed.2⟩
        · next feed =>
          split
          · next hash =>
            refine iff_of_false (by intro same; cases same) ?_
            intro plain
            rw [plain.2.2 hash.1.symm] at hash
            cases hash.2
          · next hash =>
            refine iff_of_true rfl ⟨slash, fun both => feed ⟨both.1.symm, both.2⟩, ?_⟩
            intro same
            exact Bool.eq_false_iff.mpr fun puts => hash ⟨same.symm, puts⟩
    rw [Rules.Verbatim, ih, meaning, List.cons_append, List.forall_mem_cons, pair_infix_cons_iff]
    simp only [suffix_cons_iff_of_head, not_or, List.mem_cons, List.not_mem_nil, or_false]
    constructor
    · rintro ⟨quote, ⟨slash, feed, own⟩, inside, feeds, others⟩
      refine ⟨⟨⟨quote, slash⟩, inside⟩, ⟨feed, feeds⟩, ?_⟩
      rintro behind (⟨hash, rfl⟩ | further)
      · exact own hash
      · exact others behind further
    · rintro ⟨⟨⟨quote, slash⟩, inside⟩, ⟨feed, feeds⟩, others⟩
      exact ⟨quote, ⟨slash, feed, fun hash => others _ (.inl ⟨hash, rfl⟩)⟩, inside, feeds,
        fun behind further => others behind (.inr further)⟩

end

end Literal

namespace Target

open Literal

/-- Text that means itself between the quotes of a target. -/
def Holds (target : Target) (text : List Char) : Prop :=
  match target with
  | .python => (∀ c ∈ text, c ∉ ['"', '\n', '\r', '\x00']) ∧
    ∀ c ∈ Python.escapes, ¬ ['\\', c] <:+: text ++ ['"']
  | .ruby => (∀ c ∈ text, c ∉ ['"', '\\']) ∧ ¬ ['\r', '\n'] <:+: text ∧
    ∀ rest, '#' :: rest <:+ text ++ ['"'] → Ruby.putsIn rest = false
  | _ => ∀ c ∈ text, c ∉ ['"', '\\', '\n', '\r']

theorem verbatim_iff_holds (names : List Char → Option Char) (target : Target)
    {after text : List Char} : (target.rules names).Verbatim after text ↔ target.Holds text := by
  cases target with
  | cppStl => exact verbatim_lineRules Cpp.short_escape
  | lua | wiresharkLua => exact verbatim_lineRules Lua.short_escape
  | python => exact verbatim_pythonRules
  | ruby => exact verbatim_rubyRules

theorem Holds.quote_notMem {target : Target} {text : List Char} (holds : target.Holds text) :
    '"' ∉ text := by
  intro member
  cases target with
  | cppStl | lua | wiresharkLua => exact holds '"' member List.mem_cons_self
  | python | ruby => exact holds.1 '"' member List.mem_cons_self

/-- Text between quotes is one literal with the text for its value just when it means itself. -/
theorem literal_eq_iff (names : List Char → Option Char) (target : Target)
    (text after : List Char) :
    target.literal? names ('"' :: (text ++ '"' :: ')' :: after)) =
      some (Text.Utf8.encode text, ')' :: after) ↔ target.Holds text := by
  rw [literal?, ← verbatim_iff_holds names target, ← Rules.readFrom_eq_iff]
  split
  · next long =>
    -- three quotes in a row have one of them inside the text
    refine iff_of_false (by intro same; cases same) ?_
    intro read
    have held := (verbatim_iff_holds names target).mp (Rules.readFrom_eq_iff.mp read)
    apply held.quote_notMem
    cases text with
    | nil => cases long.2
    | cons c rest =>
      obtain ⟨rfl, -⟩ := List.cons.inj long.2
      exact List.mem_cons_self
  · rfl

/-- What stands before the encoding of text of a size. -/
def beforeEncoding (target : Target) (size : String) : String :=
  match target with
  | .cppStl => s!"kaitai::kstream::bytes_to_str(m__io->read_bytes({size}), "
  | .python => s!"(self._io.read_bytes({size})).decode(u"
  | .ruby => s!"(@_io.read_bytes({size})).force_encoding("
  | .lua | .wiresharkLua => s!"str_decode.decode(self._io:read_bytes({size}), "

/-- What stands behind the parenthesis that closes the decoding of text. -/
def afterEncoding : Target → String
  | .ruby => ".encode('UTF-8')"
  | _ => ""

theorem text_dialect (target : Target) (scope : Scope) (size encoding : String) :
    (target.dialect scope).text size encoding = target.beforeEncoding size ++
      ("\"" ++ encoding ++ "\"") ++ ")" ++ target.afterEncoding := by
  apply String.toList_inj.mp
  cases target with
  | cppStl =>
    change ("kaitai::kstream::bytes_to_str(m__io->read_bytes(" ++ size ++ "), \"" ++ encoding ++
      "\")").toList = ("kaitai::kstream::bytes_to_str(m__io->read_bytes(" ++ size ++ "), " ++
        ("\"" ++ encoding ++ "\"") ++ ")" ++ "").toList
    simp
  | python =>
    change ("(self._io.read_bytes(" ++ size ++ ")).decode(u\"" ++ encoding ++ "\")").toList =
      ("(self._io.read_bytes(" ++ size ++ ")).decode(u" ++ ("\"" ++ encoding ++ "\"") ++ ")" ++
        "").toList
    simp
  | ruby =>
    change ("(@_io.read_bytes(" ++ size ++ ")).force_encoding(\"" ++ encoding ++
      "\").encode('UTF-8')").toList = ("(@_io.read_bytes(" ++ size ++ ")).force_encoding(" ++
        ("\"" ++ encoding ++ "\"") ++ ")" ++ ".encode('UTF-8')").toList
    simp
  | lua | wiresharkLua =>
    change ("str_decode.decode(self._io:read_bytes(" ++ size ++ "), \"" ++ encoding ++
      "\")").toList = ("str_decode.decode(self._io:read_bytes(" ++ size ++ "), " ++
        ("\"" ++ encoding ++ "\"") ++ ")" ++ "").toList
    simp

/-- An encoding between quotes and before a parenthesis is one literal, with the encoding for its
value, whatever is behind it. -/
def IsOneLiteral (target : Target) (names : List Char → Option Char) (encoding : String) : Prop :=
  ∀ after, target.literal? names (("\"" ++ encoding ++ "\")").toList ++ after) =
    some (Text.Utf8.encode encoding.toList, ')' :: after)

theorem isOneLiteral_iff (target : Target) (names : List Char → Option Char) (encoding : String) :
    target.IsOneLiteral names encoding ↔ target.Holds encoding.toList := by
  have spread : ∀ after, ("\"" ++ encoding ++ "\")").toList ++ after =
      '"' :: (encoding.toList ++ '"' :: ')' :: after) := by
    intro after
    simp
  unfold IsOneLiteral
  simp only [spread, literal_eq_iff, forall_const]

/-- Text of a size and an encoding, as a target reads it. -/
theorem text_of_sizedText {target : Target} {scope : Scope} {kept : Kept} {size : Option Expr}
    {encoding : String} (sized : kept.read.isSizedText = true)
    (read : kept.read = .text size (some encoding)) (bare : kept.enumName = none) :
    ∃ size, kept.text (target.dialect scope) = target.beforeEncoding size ++
      ("\"" ++ encoding ++ "\"") ++ ")" ++ target.afterEncoding := by
  obtain ⟨enumName, value⟩ := kept
  obtain ⟨size, found, rfl⟩ := Read.eq_text_of_isSizedText sized
  obtain ⟨-, rfl⟩ := Read.text.inj read
  obtain rfl : enumName = none := bare
  exact ⟨_, text_dialect target scope _ encoding⟩

end Target

namespace Module

/-- Wherever a supported module reads text of a given size by an encoding, in a field, in a case of
a switch or in an instance, the encoding is written between quotes as it is given. It is one literal
with the encoding for its value just when it means itself there. -/
theorem encoding_literal_iff {module : Module} (supported : module.unsupported? = none)
    {scope : Scope} (listed : scope ∈ module.scopes) (target : Target)
    (names : List Char → Option Char) :
    (∀ field ∈ scope.format.fields, ∀ encoding, field.encoding = some encoding →
      target.fieldRead scope field =
        (target.fieldTemplate scope field).code (target.dialect scope) ∧
      ((∃ kept ∈ (target.fieldTemplate scope field).kept, kept.read.isSizedText = true) ↔
        field.switchOn = none ∧ scope.primitive? field.type = some .str ∧ field.size.isSome ∨
          scope.SwitchesToText target field) ∧
      ∀ kept ∈ (target.fieldTemplate scope field).kept, kept.read.isSizedText = true →
        (∃ size, kept.text (target.dialect scope) = target.beforeEncoding size ++
          ("\"" ++ encoding ++ "\"") ++ ")" ++ target.afterEncoding) ∧
        (target.IsOneLiteral names encoding ↔ target.Holds encoding.toList)) ∧
    ∀ inst ∈ scope.format.instances, ∀ rule, inst.body = .parse rule →
      ∀ encoding, rule.encoding = some encoding →
        target.instanceCode scope inst =
          (target.instanceTemplate scope inst).code (target.dialect scope) ∧
        ((∃ kept ∈ (target.instanceTemplate scope inst).kept, kept.read.isSizedText = true) ↔
          scope.primitive? rule.type = some .str ∧ rule.size.isSome) ∧
        ∀ kept ∈ (target.instanceTemplate scope inst).kept, kept.read.isSizedText = true →
          (∃ size, kept.text (target.dialect scope) = target.beforeEncoding size ++
            ("\"" ++ encoding ++ "\"") ++ ")" ++ target.afterEncoding) ∧
          (target.IsOneLiteral names encoding ↔ target.Holds encoding.toList) := by
  have isSupported := (unsupported_eq_none_iff module).mp supported scope listed
  constructor
  · intro field member encoding given
    have fieldSupported := isSupported.fields field member
    refine ⟨(target.code_fieldTemplate scope field).symm,
      target.exists_sizedText_iff fieldSupported, ?_⟩
    intro kept inside sized
    obtain ⟨read, bare⟩ := Target.eq_of_isSizedText fieldSupported inside sized
    rw [given] at read bare
    exact ⟨Target.text_of_sizedText sized read (bare rfl), target.isOneLiteral_iff names encoding⟩
  · rintro ⟨id, body⟩ - rule rfl encoding given
    refine ⟨(target.code_instanceTemplate scope _).symm, ?_, ?_⟩
    · simp [target.kept_instanceTemplate, Instance.rule?, Scope.isSizedText_ruleRead]
    · intro kept inside sized
      rw [target.kept_instanceTemplate] at inside
      obtain rfl := List.mem_singleton.mp inside
      have read := Scope.ruleRead_of_isSizedText sized
      rw [given] at read
      exact ⟨Target.text_of_sizedText sized read rfl, target.isOneLiteral_iff names encoding⟩

/-- A backslash that one of the languages leaves as it is. -/
theorem encoding_literal_iff_backslash :
    let name : Field :=
      { id := "name", type := .primitive .str, size := some (.int 4), encoding := some "cp\\850" }
    let root : Format := { name := "top", order := .little, fields := [name] }
    let module : Module := { root, nested := [] }
    module.unsupported? = none ∧
      (∃ kept ∈ (Target.python.fieldTemplate module.rootScope name).kept, ∃ size,
        kept.text (Target.python.dialect module.rootScope) = Target.python.beforeEncoding size ++
          ("\"" ++ "cp\\850" ++ "\"") ++ ")" ++ Target.python.afterEncoding) ∧
      Target.python.IsOneLiteral (fun _ => none) "cp\\850" := by
  intro name root module
  have supported : module.unsupported? = none := by decide +kernel
  have main := encoding_literal_iff supported List.mem_cons_self .python fun _ => none
  obtain ⟨-, sized, reads⟩ := main.1 name List.mem_cons_self "cp\\850" rfl
  obtain ⟨kept, member, text⟩ := sized.mpr (.inl ⟨rfl, by decide +kernel, rfl⟩)
  obtain ⟨written, literal⟩ := reads kept member text
  have holds : Target.python.Holds "cp\\850".toList := by
    refine ⟨by simp, fun c listed inside => ?_⟩
    obtain rfl : '8' = c := by simpa [Literal.pair_infix_cons_iff] using inside
    exact absurd listed (by decide)
  exact ⟨supported, ⟨kept, member, written⟩, literal.mpr holds⟩

/-- A valid and supported format with a quote in an encoding. In every target it closes the literal
early. -/
theorem encoding_closes_literal :
    let name : Field :=
      { id := "name", type := .primitive .str, size := some (.int 4), encoding := some "U\"8" }
    let root : Format := { name := "top", order := .little, fields := [name] }
    root.violation? = none ∧ ∃ module, ofFormat root = .ok module ∧ module.unsupported? = none ∧
      .line "self.name = (self._io.read_bytes(4)).decode(u\"U\"8\")" ∈
        Target.Python.fieldRead module.rootScope name ∧
      ∀ (target : Target) (names : List Char → Option Char) (after : List Char),
        target.literal? names ("\"U\"8\")".toList ++ after) =
          some (Text.Utf8.encode ['U'], "8\")".toList ++ after) := by
  intro name root
  refine ⟨by decide, { root, nested := [] }, rfl, by decide +kernel, by decide +kernel, ?_⟩
  intro target names after
  have spread : "\"U\"8\")".toList ++ after = '"' :: 'U' :: '"' :: '8' :: '"' :: ')' :: after := rfl
  rw [spread]
  cases target <;> rfl

end Module

end FormatCompiler
