import FormatCompiler.Proofs.ExprOrigin
import FormatCompiler.Proofs.RowReading

/-!
Rows that were read, in whatever form they were written. A line holds no feed, so neither do the
words of a row nor the strings that are made of them. What a row leaves out has its default, and the
mark of an absent text is never kept as a text. So a value that was read is the normal form of
itself.
-/

namespace FormatCompiler

set_option autoImplicit false

/-- A value that keeps its normal form and whose strings stay on their line. -/
structure Settled {α : Type} (normal : α → α) (strings : α → List String) (value : α) : Prop where
  kept : normal value = value
  oneLine : ∀ string ∈ strings value, OneLine string

theorem Settled.map {α : Type} {normal : α → α} {strings : α → List String} {values : List α}
    (each : ∀ value ∈ values, Settled normal strings value) :
    Settled (List.map normal) (List.flatMap strings) values := by
  constructor
  · exact (List.map_congr_left fun value member => (each value member).kept).trans values.map_id
  · intro string member
    obtain ⟨value, stored, inside⟩ := List.mem_flatMap.mp member
    exact (each value stored).oneLine string inside

/-- The parts of a field, each as reading leaves it. -/
structure Field.IsSettled (field : Field) : Prop where
  id : OneLine field.id
  type : ∀ string ∈ field.type.strings, OneLine string
  size : Settled (Option.map Expr.normal) exprStrings field.size
  enumName : Settled normalText Option.toList field.enumName
  encoding : Settled normalText Option.toList field.encoding
  condition : Settled (Option.map Expr.normal) exprStrings field.condition
  repeatExpr : Settled (Option.map Expr.normal) exprStrings field.repeatExpr
  switchOn : Settled (Option.map Expr.normal) exprStrings field.switchOn
  cases : Settled (List.map SwitchCase.normal) (List.flatMap SwitchCase.strings) field.cases
  counted : field.cases.length < UInt64.size

theorem Field.IsSettled.settled {field : Field} (settled : field.IsSettled) :
    Settled Field.normal Field.strings field := by
  constructor
  · rw [Field.normal, settled.size.kept, settled.enumName.kept, settled.encoding.kept,
      settled.condition.kept, settled.repeatExpr.kept, settled.switchOn.kept, settled.cases.kept]
  · simp only [Field.strings, List.forall_mem_append, List.forall_mem_cons]
    exact ⟨⟨⟨⟨⟨⟨⟨⟨settled.id, settled.type⟩, settled.size.oneLine⟩, settled.enumName.oneLine⟩,
      settled.encoding.oneLine⟩, settled.condition.oneLine⟩, settled.repeatExpr.oneLine⟩,
      settled.switchOn.oneLine⟩, settled.cases.oneLine⟩

namespace Text

theorem readNat_lt {base bound n : Nat} {text : List Char}
    (found : readNat base bound text = some n) :
    n < bound := by
  simpa using (Option.filter_eq_some_iff.mp found).2

/-- No word of a line has a feed that the line has not. -/
theorem scanWords_oneLine {scan : Scan} {word text : List Char} {words : List (List Char)}
    (clean : '\n' ∉ word) (line : '\n' ∉ text) (found : scanWords scan word text = some words) :
    ∀ word ∈ words, '\n' ∉ word := by
  fun_induction scanWords scan word text generalizing words with
  | case8 word | case11 word | case17 word =>
    -- The text ends in a word: nothing but a backslash is added to it.
    cases found
    simpa using clean
  | case15 word c rest _ _ _ gap ih =>
    obtain ⟨others, behind, rfl⟩ := Option.map_eq_some_iff.mp found
    simp only [List.mem_cons, not_or] at line
    simpa using ⟨clean, ih (by simp) line.2 behind⟩
  | _ => simp_all

end Text

namespace Listing

/-- Starting from a clean state, a reader finds only values with a property and leaves a clean
state. -/
def Yields {σ ε α : Type} (clean : σ → Prop) (reader : StateT σ (Except ε) α)
    (property : α → Prop) : Prop :=
  ∀ before value after, clean before → reader before = .ok (value, after) →
    property value ∧ clean after

namespace Yields

variable {σ ε α β : Type} {clean : σ → Prop} {reader : StateT σ (Except ε) α}
  {property weaker : α → Prop}

theorem pure {value : α} (holds : property value) :
    Yields clean (Pure.pure value : StateT σ (Except ε) α) property := by
  intro before found after start read
  cases read
  exact ⟨holds, start⟩

theorem throw (fault : ε) : Yields clean (throw fault : StateT σ (Except ε) α) property := by
  intro before found after start read
  cases read

theorem lift {result : Except ε α} (holds : ∀ value, result = .ok value → property value) :
    Yields clean (liftM result : StateT σ (Except ε) α) property := by
  intro before found after start read
  obtain ⟨value, ok, same⟩ := Except.bind_eq_ok_iff.mp read
  cases same
  exact ⟨holds found ok, start⟩

/-- Readers one after the other: the second may rely on what the first has found. -/
theorem bind {next : α → StateT σ (Except ε) β} {final : β → Prop}
    (first : Yields clean reader property)
    (second : ∀ value, property value → Yields clean (next value) final) :
    Yields clean (reader >>= next) final := by
  intro before result after start read
  obtain ⟨⟨value, middle⟩, opened, rest⟩ := Except.bind_eq_ok_iff.mp read
  obtain ⟨holds, between⟩ := first before value middle start opened
  exact second value holds middle result after between rest

theorem mono (yields : Yields clean reader property)
    (weaken : ∀ value, property value → weaker value) : Yields clean reader weaker := by
  intro before value after start read
  obtain ⟨holds, finish⟩ := yields before value after start read
  exact ⟨weaken value holds, finish⟩

end Yields

/-- No word of a row holds a line feed. -/
def CleanWords (words : List String) : Prop :=
  ∀ word ∈ words, OneLine word

namespace WordReader

theorem word_yields (bad : RowFault) : Yields CleanWords (word bad) OneLine := by
  intro words value rest clean read
  cases words with
  | nil => cases read
  | cons first others =>
    cases read
    exact List.forall_mem_cons.mp clean

theorem atEnd_yields : Yields CleanWords atEnd fun _ => True := by
  intro words value rest clean read
  cases read
  exact ⟨trivial, clean⟩

theorem finish_yields (bad : RowFault) : Yields CleanWords (finish bad) fun _ => True := by
  intro words value rest clean read
  cases words with
  | nil =>
    cases read
    exact ⟨trivial, clean⟩
  | cons first others => cases read

theorem keyword_yields (bad : RowFault) (expected : String) :
    Yields CleanWords (keyword bad expected) fun _ => True := by
  unfold keyword
  refine (word_yields bad).bind fun found _ => ?_
  split
  · exact .throw bad
  · exact .pure trivial

theorem known_yields {α : Type} {property : α → Prop} (bad : RowFault)
    (meaning : String → Option α) (unknown : String → RowFault)
    (holds : ∀ word value, meaning word = some value → property value) :
    Yields CleanWords (known bad meaning unknown) property := by
  unfold known
  refine (word_yields bad).bind fun found _ => ?_
  split
  · next value means => exact .pure (holds found value means)
  · exact .throw _

theorem count_yields (bad : RowFault) :
    Yields CleanWords (number bad Text.readCount) (· < UInt64.size) :=
  known_yields bad _ _ fun _ _ found => Text.readNat_lt found

theorem exprOf_settled {text : String} {expr : Expr} (line : OneLine text)
    (found : exprOf text = .ok expr) : Settled Expr.normal Expr.strings expr := by
  have origin := Expr.readFrom_of_read (Except.mapError_eq_ok_iff.mp found)
  exact ⟨origin.isNormal, fun string stored feed => line (origin.strings string stored feed)⟩

theorem expr_yields (bad : RowFault) :
    Yields CleanWords (WordReader.expr bad) (Settled Expr.normal Expr.strings) := by
  unfold WordReader.expr
  exact (word_yields bad).bind fun text line => .lift fun expr found => exprOf_settled line found

theorem optional_yields {α : Type} {property : Option α → Prop} (bad : RowFault)
    (meaning : String → Except RowFault α) (missing : property none)
    (present : ∀ word value, OneLine word → word ≠ absent → meaning word = .ok value →
      property (some value)) :
    Yields CleanWords (optional bad meaning) property := by
  unfold optional
  refine (word_yields bad).bind fun found line => ?_
  split
  · exact .pure missing
  · next other =>
    refine Yields.bind (.lift fun value means => present found value line other means) ?_
    intro value holds
    exact .pure holds

theorem optionalExpr_yields (bad : RowFault) :
    Yields CleanWords (WordReader.optionalExpr bad)
      (Settled (Option.map Expr.normal) exprStrings) := by
  refine optional_yields bad exprOf ⟨rfl, by simp [exprStrings]⟩ ?_
  intro word expr line _ found
  have settled := exprOf_settled line found
  exact ⟨by rw [Option.map_some, settled.kept], by simpa [exprStrings] using settled.oneLine⟩

theorem optionalText_yields (bad : RowFault) :
    Yields CleanWords (WordReader.optionalText bad) (Settled normalText Option.toList) := by
  refine optional_yields bad .ok ⟨rfl, by simp⟩ ?_
  intro word text line other found
  cases found
  exact ⟨by simp [normalText, other], by simpa using line⟩

theorem optionalOrder_yields (bad : RowFault) :
    Yields CleanWords (WordReader.optionalOrder bad) fun _ => True :=
  optional_yields bad orderOf trivial fun _ _ _ _ _ => trivial

theorem typeRef_yields (bad : RowFault) :
    Yields CleanWords (typeRef bad) fun type => ∀ string ∈ type.strings, OneLine string := by
  unfold typeRef
  refine (word_yields bad).bind fun kind _ => (word_yields bad).bind fun payload line => ?_
  split
  · split
    · exact .pure (by simp [TypeRef.strings])
    · exact .throw _
  · split
    · exact .pure (by simpa [TypeRef.strings] using line)
    · exact .throw _

theorem switchCase_yields (bad : RowFault) :
    Yields CleanWords (switchCase bad) (Settled SwitchCase.normal SwitchCase.strings) := by
  unfold switchCase
  refine (word_yields bad).bind fun text line => (typeRef_yields bad).bind fun type named => ?_
  split
  · exact .pure ⟨rfl, by simpa [SwitchCase.strings, exprStrings] using named⟩
  · refine Yields.bind (.lift fun value found => exprOf_settled line found) fun value settled => ?_
    refine .pure ⟨?_, ?_⟩
    · rw [SwitchCase.normal, Option.map_some, settled.kept]
    · simp only [SwitchCase.strings, exprStrings, Option.toList_some, List.flatMap_singleton,
        List.forall_mem_append]
      exact ⟨settled.oneLine, named⟩

theorem switchCases_yields (bad : RowFault) (size : Nat) :
    Yields CleanWords (switchCases bad size) fun cases => cases.length = size ∧
      ∀ case ∈ cases, Settled SwitchCase.normal SwitchCase.strings case := by
  induction size with
  | zero => exact .pure ⟨rfl, by simp⟩
  | succ size ih =>
    unfold switchCases
    refine (switchCase_yields bad).bind fun case settled => ih.bind fun rest others => ?_
    exact .pure ⟨by rw [List.length_cons, others.1], List.forall_mem_cons.mpr ⟨settled, others.2⟩⟩

theorem transform_yields (bad : RowFault) : Yields CleanWords (transform bad) fun _ => True := by
  unfold transform
  refine (word_yields bad).bind fun found _ => ?_
  split
  · exact .pure trivial
  · split
    · exact (known_yields bad _ _ fun _ _ _ => trivial).bind fun key _ => .pure trivial
    · exact .throw _

theorem fieldRest_yields (bad : RowFault) {start : Field} (settled : start.IsSettled) :
    Yields CleanWords (fieldRest bad start) Field.IsSettled := by
  unfold fieldRest
  refine (optionalExpr_yields bad).bind fun condition conditionSettled => ?_
  refine (known_yields bad _ _ fun _ _ _ => trivial).bind fun repetition _ => ?_
  refine (optionalExpr_yields bad).bind fun repeatExpr repeatSettled => ?_
  refine (optionalExpr_yields bad).bind fun switchOn switchSettled => ?_
  refine (count_yields bad).bind fun size fits => ?_
  refine (switchCases_yields bad size).bind fun cases counted => ?_
  have whole : Field.IsSettled { start with condition, repetition, repeatExpr, switchOn, cases } :=
    { settled with
      condition := conditionSettled
      repeatExpr := repeatSettled
      switchOn := switchSettled
      cases := Settled.map counted.2
      counted := by rw [counted.1]; exact fits }
  refine atEnd_yields.bind fun ended _ => ?_
  split
  · exact .pure whole
  · refine (transform_yields bad).bind fun change _ => (finish_yields bad).bind fun _ _ => ?_
    exact .pure { whole with }

theorem field_yields : Yields CleanWords WordReader.field Field.IsSettled := by
  unfold WordReader.field
  refine (keyword_yields _ _).bind fun _ _ => (word_yields _).bind fun id named => ?_
  refine (typeRef_yields _).bind fun type typed => ?_
  refine (optionalOrder_yields _).bind fun order _ => ?_
  refine (optionalExpr_yields _).bind fun size sized => ?_
  have start : Field.IsSettled { id, type, order, size } :=
    { id := named
      type := typed
      size := sized
      enumName := ⟨rfl, by simp⟩
      encoding := ⟨rfl, by simp⟩
      condition := ⟨rfl, by simp [exprStrings]⟩
      repeatExpr := ⟨rfl, by simp [exprStrings]⟩
      switchOn := ⟨rfl, by simp [exprStrings]⟩
      cases := ⟨rfl, by simp⟩
      counted := by simp }
  refine atEnd_yields.bind fun ended _ => ?_
  split
  · exact .pure start
  · refine (optionalText_yields _).bind fun enumName enumSettled => ?_
    refine (optionalText_yields _).bind fun encoding encodingSettled => ?_
    have middle : Field.IsSettled { id, type, order, size, enumName, encoding } :=
      { start with enumName := enumSettled, encoding := encodingSettled }
    refine atEnd_yields.bind fun ended _ => ?_
    split
    · exact .pure middle
    · exact fieldRest_yields _ middle

theorem importName_yields : Yields CleanWords importName OneLine := by
  unfold importName
  refine (keyword_yields _ _).bind fun _ _ => (word_yields _).bind fun name line => ?_
  exact (finish_yields _).bind fun _ _ => .pure line

theorem typeDecl_yields :
    Yields CleanWords typeDecl fun decl => ∀ string ∈ decl.strings, OneLine string := by
  unfold typeDecl
  refine (keyword_yields _ _).bind fun _ _ => (word_yields _).bind fun name line => ?_
  refine (typeRef_yields _).bind fun type typed => (finish_yields _).bind fun _ _ => ?_
  exact .pure (List.forall_mem_cons.mpr ⟨line, typed⟩)

theorem enumHead_yields :
    Yields CleanWords enumHead fun head => OneLine head.1 ∧ head.2 < UInt64.size := by
  unfold enumHead
  refine (keyword_yields _ _).bind fun _ _ => (word_yields _).bind fun name line => ?_
  refine (count_yields _).bind fun size fits => (finish_yields _).bind fun _ _ => ?_
  exact .pure ⟨line, fits⟩

theorem enumValue_yields : Yields CleanWords enumValue fun value => OneLine value.name := by
  unfold enumValue
  refine (keyword_yields _ _).bind fun _ _ => ?_
  refine (known_yields _ _ _ fun _ _ _ => trivial).bind fun value _ => ?_
  exact (word_yields _).bind fun name line => (finish_yields _).bind fun _ _ => .pure line

theorem parseRule_yields (bad : RowFault) :
    Yields CleanWords (parseRule bad) (Settled ParseRule.normal ParseRule.strings) := by
  unfold parseRule
  refine (typeRef_yields bad).bind fun type typed => ?_
  refine (optionalOrder_yields bad).bind fun order _ => ?_
  refine (optionalExpr_yields bad).bind fun position placed => ?_
  refine (optionalExpr_yields bad).bind fun size sized => ?_
  refine (optionalText_yields bad).bind fun encoding encoded => .pure ⟨?_, ?_⟩
  · rw [ParseRule.normal, placed.kept, sized.kept, encoded.kept]
  · simp only [ParseRule.strings, List.forall_mem_append]
    exact ⟨⟨⟨typed, placed.oneLine⟩, sized.oneLine⟩, encoded.oneLine⟩

theorem settled_value {id : String} {expr : Expr} (named : OneLine id)
    (settled : Settled Expr.normal Expr.strings expr) :
    Settled Instance.normal Instance.strings ⟨id, .value expr⟩ :=
  ⟨by rw [Instance.normal, InstanceBody.normal, settled.kept],
    List.forall_mem_cons.mpr ⟨named, settled.oneLine⟩⟩

theorem settled_parse {id : String} {rule : ParseRule} (named : OneLine id)
    (settled : Settled ParseRule.normal ParseRule.strings rule) :
    Settled Instance.normal Instance.strings ⟨id, .parse rule⟩ :=
  ⟨by rw [Instance.normal, InstanceBody.normal, settled.kept],
    List.forall_mem_cons.mpr ⟨named, settled.oneLine⟩⟩

/-- An expression may stand where the kind of an instance is expected: it is a value then. -/
theorem instanceBody_yields (bad : RowFault) {id : String} (named : OneLine id) :
    Yields CleanWords (instanceBody bad) fun body =>
      Settled Instance.normal Instance.strings ⟨id, body⟩ := by
  unfold instanceBody
  refine (word_yields bad).bind fun kind line => ?_
  split
  · exact (expr_yields bad).bind fun expr settled => .pure (settled_value named settled)
  · split
    · exact (parseRule_yields bad).bind fun rule settled => .pure (settled_parse named settled)
    · refine Yields.bind (.lift fun expr found => exprOf_settled line found) ?_
      intro expr settled
      exact .pure (settled_value named settled)

theorem instanceDecl_yields :
    Yields CleanWords instanceDecl (Settled Instance.normal Instance.strings) := by
  unfold instanceDecl
  refine (keyword_yields _ _).bind fun _ _ => (word_yields _).bind fun id named => ?_
  refine (instanceBody_yields _ named).bind fun body settled => ?_
  exact (finish_yields _).bind fun _ _ => .pure settled

theorem validation_yields :
    Yields CleanWords WordReader.validation (Settled Validation.normal Validation.strings) := by
  unfold WordReader.validation
  refine (keyword_yields _ _).bind fun _ _ => (word_yields _).bind fun target line => ?_
  refine (expr_yields _).bind fun condition settled => (word_yields _).bind fun message text => ?_
  refine (finish_yields _).bind fun _ _ => .pure ⟨?_, ?_⟩
  · rw [Validation.normal, settled.kept]
  · simp only [Validation.strings, List.cons_append, List.forall_mem_cons, List.forall_mem_append]
    exact ⟨line, settled.oneLine, text, by simp⟩

theorem formatName_yields : Yields CleanWords formatName OneLine := by
  unfold formatName
  exact (keyword_yields _ _).bind fun _ _ => word_yields _

theorem formatOrder_yields : Yields CleanWords formatOrder fun _ => True := by
  unfold formatOrder
  exact (keyword_yields _ _).bind fun _ _ => known_yields _ _ _ fun _ _ _ => trivial

theorem sectionSize_yields (name : String) :
    Yields CleanWords (sectionSize name) (· < UInt64.size) := by
  unfold sectionSize
  refine (keyword_yields _ _).bind fun _ _ => (count_yields _).bind fun size fits => ?_
  exact (finish_yields _).bind fun _ _ => .pure fits

end WordReader

end Listing

end FormatCompiler
