/-!
How a reader groups the tokens of an expression by the strengths of its operators. The reader keeps
a stack of what waits for an operand. It accepts exactly the tokens of the well-grouped layouts, and
two layouts of one shape with the same tokens are the same.
-/

namespace FormatCompiler.Grouping

set_option autoImplicit false

/-- A number, a truth value or a name. -/
inductive Operand where
  | number (value : Nat)
  | truth (value : Bool)
  | name (id : String)
  deriving DecidableEq, Repr

/-- An expression as the reader of a language understands it. -/
inductive Term where
  | leaf (operand : Operand)
  | unary (op : String) (operand : Term)
  | binary (op : String) (lhs rhs : Term)
  /-- A comparison that goes on from the last operand of another one, as in `a < b == c`. -/
  | link (op : String) (lhs rhs : Term)
  deriving DecidableEq, Repr

inductive Token where
  | number (value : Nat)
  | word (text : String)
  | symbol (text : String)
  | opening
  | closing
  deriving DecidableEq, Repr

/-- The operators of a language. A higher level binds tighter, and binary operators of one level
group to the left, but for two levels that may be special. -/
structure Language where
  binary : List (String × Nat)
  sign : List (String × Nat)
  /-- The level of the comparisons, where they chain. -/
  chain : Option Nat := none
  /-- The level of the operators that do not group with one another at all. -/
  single : Option Nat := none
  /-- What a word stands for. -/
  operand : String → Operand
  /-- The words of expressions that are no names. -/
  reserved : List String
  /-- The tokens of two characters that are no operators of expressions. -/
  pairs : List String := []
  apart : ∀ entry ∈ sign, ∀ other ∈ binary, entry.2 ≠ other.2 := by decide

def isNameChar (c : Char) : Bool :=
  c.isAlphanum || c == '_'

namespace Language

variable (language : Language)

/-- Whether a text is a name: letters, digits and underscores, no digit first, not reserved. -/
def isName (id : String) : Bool :=
  !id.isEmpty && !(id.toList.head?.any Char.isDigit) && id.toList.all isNameChar &&
    !language.reserved.contains id

def isBinary (op : String) : Bool := (language.binary.lookup op).isSome

def isSign (op : String) : Bool := (language.sign.lookup op).isSome

def level (op : String) : Nat := (language.binary.lookup op).getD 0

def signLevel (op : String) : Nat := (language.sign.lookup op).getD 0

/-- The least level of what may stand to the left of an operator and be its operand. -/
def leftLevel (op : String) : Nat :=
  if language.chain = some (language.level op) ∨ language.single = some (language.level op) then
    language.level op + 1
  else language.level op

end Language

theorem mem_of_lookup_isSome {table : List (String × Nat)} {op : String}
    (known : (table.lookup op).isSome) : (op, (table.lookup op).getD 0) ∈ table := by
  obtain ⟨level, found⟩ := Option.isSome_iff_exists.mp known
  obtain ⟨before, after, shape, _⟩ := List.lookup_eq_some_iff.mp found
  rw [found, shape]
  simp

theorem Language.signLevel_ne_level (language : Language) {sign op : String}
    (isSign : language.isSign sign) (isBinary : language.isBinary op) :
    language.signLevel sign ≠ language.level op :=
  language.apart _ (mem_of_lookup_isSome isSign) _ (mem_of_lookup_isSome isBinary)

/-- An expression with the parentheses it is written with. -/
inductive Layout where
  | number (value : Nat)
  | word (text : String)
  | group (inner : Layout)
  | unary (op : String) (operand : Layout)
  | binary (op : String) (lhs rhs : Layout)
  deriving DecidableEq, Repr

namespace Layout

def tokens : Layout → List Token
  | .number value => [.number value]
  | .word text => [.word text]
  | .group inner => .opening :: inner.tokens ++ [.closing]
  | .unary op operand => .symbol op :: operand.tokens
  | .binary op lhs rhs => lhs.tokens ++ .symbol op :: rhs.tokens

section

variable (language : Language)

/-- Whether a layout stands where operators below a level are not taken in. -/
def AtLeast (least : Nat) : Layout → Prop
  | .number _ | .word _ | .group _ => True
  | .unary op _ => least ≤ language.signLevel op
  | .binary op _ _ => least ≤ language.level op

/-- Whether an operator and the last one to its left are both of a special level. -/
def continues (special : Option Nat) (op : String) : Layout → Bool
  | .binary other _ _ =>
    special == some (language.level op) && language.level other == language.level op
  | _ => false

/-- Whether each operator has the operands that the strengths of the operators give it. -/
def WellGrouped : Layout → Prop
  | .number _ | .word _ => True
  | .group inner => inner.WellGrouped
  | .unary op operand =>
    language.isSign op ∧ operand.AtLeast language (language.signLevel op) ∧ operand.WellGrouped
  | .binary op lhs rhs =>
    language.isBinary op ∧ lhs.AtLeast language (language.level op) ∧
      lhs.continues language language.single op = false ∧
      rhs.AtLeast language (language.level op + 1) ∧ lhs.WellGrouped ∧ rhs.WellGrouped

/-- What a layout says. Parentheses leave no trace. -/
def term : Layout → Term
  | .number value => .leaf (.number value)
  | .word text => .leaf (language.operand text)
  | .group inner => inner.term
  | .unary op operand => .unary op operand.term
  | .binary op lhs rhs =>
    if lhs.continues language language.chain op then .link op lhs.term rhs.term
    else .binary op lhs.term rhs.term

end

end Layout

/-! ### The reader -/

/-- What waits for an operand. -/
inductive Pending where
  | group
  | sign (op : String)
  | binary (lhs : Layout) (op : String)
  deriving DecidableEq, Repr

/-- What waits, the innermost first, and the last operand unless one has to come. -/
structure State where
  stack : List Pending
  last : Option Layout
  deriving DecidableEq, Repr

section

variable (language : Language)

/-- The operators that bind at least so strongly take what was read last as their operand. -/
def reduce (least : Nat) : List Pending → Layout → List Pending × Layout
  | .sign op :: stack, last =>
    if least ≤ language.signLevel op then reduce least stack (.unary op last)
    else (.sign op :: stack, last)
  | .binary lhs op :: stack, last =>
    if least ≤ language.level op then reduce least stack (.binary op lhs last)
    else (.binary lhs op :: stack, last)
  | stack, last => (stack, last)

/-- The least level of an operand for what waits. -/
def floor : List Pending → Nat
  | .sign op :: _ => language.signLevel op
  | .binary _ op :: _ => language.level op + 1
  | _ => 0

def step (state : State) (token : Token) : Option State :=
  match state.last, token with
  | none, .number value => some ⟨state.stack, some (.number value)⟩
  | none, .word text => some ⟨state.stack, some (.word text)⟩
  | none, .opening => some ⟨.group :: state.stack, none⟩
  | none, .symbol op =>
    if language.isSign op && decide (floor language state.stack ≤ language.signLevel op) then
      some ⟨.sign op :: state.stack, none⟩
    else none
  | some last, .symbol op =>
    if language.isBinary op then
      let (stack, lhs) := reduce language (language.level op) state.stack last
      if lhs.continues language language.single op then none
      else some ⟨.binary lhs op :: stack, none⟩
    else none
  | some last, .closing =>
    match reduce language 0 state.stack last with
    | (.group :: stack, inner) => some ⟨stack, some (.group inner)⟩
    | _ => none
  | _, _ => none

def finish (state : State) : Option Layout :=
  match state.last with
  | none => none
  | some last =>
    match reduce language 0 state.stack last with
    | ([], whole) => some whole
    | _ => none

/-- The layout of an expression, from its tokens. -/
def read (tokens : List Token) : Option Layout :=
  (tokens.foldlM (step language) ⟨[], none⟩).bind (finish language)

/-- What an expression says, from its tokens. -/
def parse (tokens : List Token) : Option Term :=
  (read language tokens).map (Layout.term language)

end

/-! ### What the reader accepts -/

def Pending.tokens : Pending → List Token
  | .group => [.opening]
  | .sign op => [.symbol op]
  | .binary lhs op => lhs.tokens ++ [.symbol op]

def stackTokens : List Pending → List Token
  | [] => []
  | pending :: stack => stackTokens stack ++ pending.tokens

def State.tokens (state : State) : List Token :=
  stackTokens state.stack ++ (state.last.map Layout.tokens).getD []

section

variable {language : Language}

theorem Layout.AtLeast.mono {layout : Layout} {least less : Nat}
    (above : layout.AtLeast language least) (lower : less ≤ least) :
    layout.AtLeast language less := by
  cases layout with
  | number _ => trivial
  | word _ => trivial
  | group _ => trivial
  | unary op operand => exact Nat.le_trans lower above
  | binary op lhs rhs => exact Nat.le_trans lower above

theorem Layout.atLeast_zero (layout : Layout) : layout.AtLeast language 0 := by
  cases layout with
  | number _ => trivial
  | word _ => trivial
  | group _ => trivial
  | unary op operand => exact Nat.zero_le _
  | binary op lhs rhs => exact Nat.zero_le _

/-- What waits is well grouped, and each operator binds tighter than what waits for it. -/
def Standing (language : Language) : List Pending → Prop
  | [] => True
  | .group :: stack => Standing language stack
  | .sign op :: stack =>
    language.isSign op ∧ floor language stack ≤ language.signLevel op ∧ Standing language stack
  | .binary lhs op :: stack =>
    language.isBinary op ∧ lhs.AtLeast language (language.level op) ∧
      lhs.continues language language.single op = false ∧ lhs.WellGrouped language ∧
      floor language stack ≤ language.level op ∧ Standing language stack

/-- What a reduction leaves: the same tokens, still well grouped, with nothing on top that binds
at least so strongly. -/
structure Reduced (language : Language) (least : Nat) (tokens : List Token)
    (result : List Pending × Layout) : Prop where
  standing : Standing language result.1
  grouped : result.2.WellGrouped language
  above : result.2.AtLeast language least
  floored : floor language result.1 ≤ least
  tokens_eq : stackTokens result.1 ++ result.2.tokens = tokens

theorem reduce_reduced (least : Nat) (stack : List Pending) (last : Layout)
    (standing : Standing language stack) (grouped : last.WellGrouped language)
    (fits : last.AtLeast language (floor language stack)) (above : last.AtLeast language least) :
    Reduced language least (stackTokens stack ++ last.tokens)
      (reduce language least stack last) := by
  fun_induction reduce language least stack last with
  | case1 op stack last strong ih =>
    obtain ⟨isSign, floored, rest⟩ := standing
    have reduced := ih rest ⟨isSign, fits, grouped⟩ floored strong
    simpa [stackTokens, Pending.tokens, Layout.tokens] using reduced
  | case2 op stack last weak =>
    exact ⟨standing, grouped, above, Nat.le_of_not_le weak, rfl⟩
  | case3 lhs op stack last strong ih =>
    obtain ⟨isBinary, lhsAbove, apart, lhsGrouped, floored, rest⟩ := standing
    have reduced := ih rest ⟨isBinary, lhsAbove, apart, fits, lhsGrouped, grouped⟩ floored strong
    simpa [stackTokens, Pending.tokens, Layout.tokens] using reduced
  | case4 lhs op stack last weak =>
    exact ⟨standing, grouped, above, Nat.lt_of_not_le weak, rfl⟩
  | case5 stack last noSign noBinary =>
    refine ⟨standing, grouped, above, ?_, rfl⟩
    cases stack with
    | nil => exact Nat.zero_le _
    | cons pending stack =>
      cases pending with
      | group => exact Nat.zero_le _
      | sign op => exact absurd rfl (noSign op stack)
      | binary lhs op => exact absurd rfl (noBinary lhs op stack)

/-- What holds of the reader after each token. The last operand is never an open operator. -/
structure Consistent (language : Language) (state : State) : Prop where
  standing : Standing language state.stack
  last : ∀ layout ∈ state.last, layout.WellGrouped language ∧ ∀ least, layout.AtLeast language least

theorem Consistent.reduced {state : State} {last : Layout} (consistent : Consistent language state)
    (isLast : state.last = some last) (least : Nat) :
    Reduced language least state.tokens (reduce language least state.stack last) := by
  obtain ⟨grouped, above⟩ := consistent.last last isLast
  have reduced := reduce_reduced least state.stack last consistent.standing grouped (above _)
    (above _)
  simpa [State.tokens, isLast] using reduced

theorem step_consistent {state next : State} {token : Token}
    (consistent : Consistent language state) (stepped : step language state token = some next) :
    Consistent language next ∧ next.tokens = state.tokens ++ [token] := by
  unfold step at stepped
  split at stepped
  case h_1 value isLast =>
    cases stepped
    exact ⟨⟨consistent.standing, by simp [Layout.WellGrouped, Layout.AtLeast]⟩,
      by simp [State.tokens, isLast, Layout.tokens]⟩
  case h_2 text isLast =>
    cases stepped
    exact ⟨⟨consistent.standing, by simp [Layout.WellGrouped, Layout.AtLeast]⟩,
      by simp [State.tokens, isLast, Layout.tokens]⟩
  case h_3 isLast =>
    cases stepped
    exact ⟨⟨consistent.standing, by simp⟩,
      by simp [State.tokens, isLast, stackTokens, Pending.tokens]⟩
  case h_4 op isLast =>
    split at stepped
    · rename_i fits
      cases stepped
      simp only [Bool.and_eq_true, decide_eq_true_eq] at fits
      exact ⟨⟨⟨fits.1, fits.2, consistent.standing⟩, by simp⟩,
        by simp [State.tokens, isLast, stackTokens, Pending.tokens]⟩
    · cases stepped
  case h_5 last op isLast =>
    split at stepped
    · rename_i isBinary
      have reduced := consistent.reduced isLast (language.level op)
      generalize reduce language (language.level op) state.stack last = result at stepped reduced
      obtain ⟨stack, lhs⟩ := result
      dsimp only at stepped
      split at stepped
      · cases stepped
      · rename_i apart
        cases stepped
        refine ⟨⟨⟨isBinary, reduced.above, Bool.eq_false_iff.mpr apart, reduced.grouped,
          reduced.floored, reduced.standing⟩, by simp⟩, ?_⟩
        rw [← reduced.tokens_eq]
        simp [State.tokens, stackTokens, Pending.tokens]
    · cases stepped
  case h_6 last isLast =>
    have reduced := consistent.reduced isLast 0
    split at stepped
    · rename_i stack inner shape
      cases stepped
      rw [shape] at reduced
      refine ⟨⟨reduced.standing, ?_⟩, ?_⟩
      · simpa [Layout.WellGrouped, Layout.AtLeast] using reduced.grouped
      · rw [← reduced.tokens_eq]
        simp [State.tokens, stackTokens, Pending.tokens, Layout.tokens]
    · cases stepped
  case h_7 => cases stepped

theorem run_consistent {tokens : List Token} {state final : State}
    (consistent : Consistent language state)
    (ran : tokens.foldlM (step language) state = some final) :
    Consistent language final ∧ final.tokens = state.tokens ++ tokens := by
  induction tokens generalizing state with
  | nil =>
    cases ran
    exact ⟨consistent, by simp⟩
  | cons token tokens ih =>
    rw [List.foldlM_cons] at ran
    obtain ⟨next, stepped, rest⟩ := Option.bind_eq_some_iff.mp ran
    obtain ⟨nextConsistent, nextTokens⟩ := step_consistent consistent stepped
    obtain ⟨finalConsistent, finalTokens⟩ := ih nextConsistent rest
    exact ⟨finalConsistent, by simp [finalTokens, nextTokens]⟩

theorem wellGrouped_of_read {tokens : List Token} {layout : Layout}
    (found : read language tokens = some layout) :
    layout.WellGrouped language ∧ layout.tokens = tokens := by
  obtain ⟨final, ran, finished⟩ := Option.bind_eq_some_iff.mp found
  have start : Consistent language ⟨[], none⟩ := ⟨trivial, by simp⟩
  obtain ⟨consistent, consumed⟩ := run_consistent start ran
  unfold finish at finished
  split at finished
  · cases finished
  · rename_i last isLast
    have reduced := consistent.reduced isLast 0
    split at finished
    · rename_i whole shape
      cases finished
      rw [shape, consumed] at reduced
      exact ⟨reduced.grouped, by simpa [State.tokens, stackTokens] using reduced.tokens_eq⟩
    · cases finished

theorem Layout.WellGrouped.known {layout : Layout} {op : String}
    (grouped : layout.WellGrouped language) (member : .symbol op ∈ layout.tokens) :
    language.isSign op ∨ language.isBinary op := by
  induction layout with
  | number _ => simp [tokens] at member
  | word _ => simp [tokens] at member
  | group inner ih =>
    have inside : .symbol op ∈ inner.tokens := by simpa [tokens] using member
    exact ih grouped inside
  | unary sign operand ih =>
    obtain ⟨isSign, _, operandGrouped⟩ := grouped
    simp only [tokens, List.mem_cons, Token.symbol.injEq] at member
    rcases member with rfl | inside
    · exact Or.inl isSign
    · exact ih operandGrouped inside
  | binary between lhs rhs lhsIH rhsIH =>
    obtain ⟨isBinary, _, _, _, lhsGrouped, rhsGrouped⟩ := grouped
    simp only [tokens, List.mem_append, List.mem_cons, Token.symbol.injEq] at member
    rcases member with inside | rfl | inside
    · exact lhsIH lhsGrouped inside
    · exact Or.inr isBinary
    · exact rhsIH rhsGrouped inside

end

/-! ### Every well-grouped layout is read -/

namespace Layout

/-- The operators of a layout whose right ends are its own, the innermost first. -/
def spine : Layout → List Pending
  | .unary op operand => operand.spine ++ [.sign op]
  | .binary op lhs rhs => rhs.spine ++ [.binary lhs op]
  | _ => []

/-- The last operand of a layout. -/
def tip : Layout → Layout
  | .unary _ operand => operand.tip
  | .binary _ _ rhs => rhs.tip
  | layout => layout

end Layout

section

variable {language : Language}

/-- The open operators of a layout are put together again before anything below them. -/
theorem reduce_spine (layout : Layout) (least : Nat) (stack : List Pending)
    (grouped : layout.WellGrouped language) (above : layout.AtLeast language least) :
    reduce language least (layout.spine ++ stack) layout.tip =
      reduce language least stack layout := by
  induction layout generalizing stack with
  | number _ => rfl
  | word _ => rfl
  | group _ => rfl
  | unary op operand ih =>
    obtain ⟨isSign, operandAbove, operandGrouped⟩ := grouped
    have strong : least ≤ language.signLevel op := above
    have inner := ih (.sign op :: stack) operandGrouped (operandAbove.mono strong)
    rw [Layout.spine, Layout.tip, List.append_assoc, List.singleton_append, inner, reduce,
      if_pos strong]
  | binary op lhs rhs _ ih =>
    obtain ⟨isBinary, lhsAbove, apart, rhsAbove, lhsGrouped, rhsGrouped⟩ := grouped
    have strong : least ≤ language.level op := above
    have inner := ih (.binary lhs op :: stack) rhsGrouped
      (rhsAbove.mono (Nat.le_succ_of_le strong))
    rw [Layout.spine, Layout.tip, List.append_assoc, List.singleton_append, inner, reduce,
      if_pos strong]

/-- An operator as strong as its place asks for takes in nothing that waits. -/
theorem reduce_of_floor_le {stack : List Pending} {op : String} (layout : Layout)
    (standing : Standing language stack) (isBinary : language.isBinary op)
    (fits : floor language stack ≤ language.level op) :
    reduce language (language.level op) stack layout = (stack, layout) := by
  cases stack with
  | nil => rfl
  | cons pending stack =>
    cases pending with
    | group => rfl
    | sign sign =>
      have different := language.signLevel_ne_level standing.1 isBinary
      have lower : language.signLevel sign ≤ language.level op := fits
      rw [reduce, if_neg (by omega)]
    | binary lhs other =>
      have lower : language.level other + 1 ≤ language.level op := fits
      rw [reduce, if_neg (by omega)]

theorem run_layout (layout : Layout) (stack : List Pending) (standing : Standing language stack)
    (grouped : layout.WellGrouped language)
    (fits : layout.AtLeast language (floor language stack)) :
    layout.tokens.foldlM (step language) ⟨stack, none⟩ =
      some ⟨layout.spine ++ stack, some layout.tip⟩ := by
  induction layout generalizing stack with
  | number value => rfl
  | word text => rfl
  | group inner ih =>
    have run := ih (.group :: stack) standing grouped inner.atLeast_zero
    have closed := reduce_spine inner 0 (.group :: stack) grouped inner.atLeast_zero
    have opened : step language ⟨stack, none⟩ .opening = some ⟨.group :: stack, none⟩ := rfl
    rw [Layout.tokens, List.cons_append, List.foldlM_cons, opened]
    change (inner.tokens ++ [Token.closing]).foldlM (step language) _ = _
    rw [List.foldlM_append, run]
    simp [step, closed, reduce, Layout.spine, Layout.tip]
  | unary op operand ih =>
    obtain ⟨isSign, operandAbove, operandGrouped⟩ := grouped
    have strong : floor language stack ≤ language.signLevel op := fits
    have run := ih (.sign op :: stack) ⟨isSign, strong, standing⟩ operandGrouped
      operandAbove
    have shifted : step language ⟨stack, none⟩ (.symbol op) = some ⟨.sign op :: stack, none⟩ := by
      simp [step, isSign, strong]
    rw [Layout.tokens, List.foldlM_cons, shifted, Layout.spine, Layout.tip, List.append_assoc]
    exact run
  | binary op lhs rhs lhsIH rhsIH =>
    obtain ⟨isBinary, lhsAbove, apart, rhsAbove, lhsGrouped, rhsGrouped⟩ := grouped
    have strong : floor language stack ≤ language.level op := fits
    have left := lhsIH stack standing lhsGrouped (lhsAbove.mono strong)
    have right := rhsIH (.binary lhs op :: stack)
      ⟨isBinary, lhsAbove, apart, lhsGrouped, strong, standing⟩ rhsGrouped rhsAbove
    have shifted : step language ⟨lhs.spine ++ stack, some lhs.tip⟩ (.symbol op) =
        some ⟨.binary lhs op :: stack, none⟩ := by
      have joined : reduce language (language.level op) (lhs.spine ++ stack) lhs.tip =
          (stack, lhs) := by
        rw [reduce_spine lhs _ stack lhsGrouped lhsAbove,
          reduce_of_floor_le lhs standing isBinary strong]
      simp [step, isBinary, joined, apart]
    rw [Layout.tokens, List.foldlM_append, left]
    change ((Token.symbol op :: rhs.tokens).foldlM (step language) _) = _
    rw [List.foldlM_cons, shifted, Layout.spine, Layout.tip, List.append_assoc]
    exact right

theorem read_tokens {layout : Layout} (grouped : layout.WellGrouped language) :
    read language layout.tokens = some layout := by
  have run := run_layout layout [] trivial grouped layout.atLeast_zero
  have whole := reduce_spine layout 0 [] grouped layout.atLeast_zero
  rw [read, run]
  simp only [Option.bind_some, finish, whole, reduce]

/-- The reader accepts the tokens of the well-grouped layouts, and nothing else. -/
theorem read_eq_some_iff {tokens : List Token} {layout : Layout} :
    read language tokens = some layout ↔
      layout.WellGrouped language ∧ layout.tokens = tokens := by
  constructor
  · exact wellGrouped_of_read
  · rintro ⟨grouped, rfl⟩
    exact read_tokens grouped

end

/-! ### Tokens and shape determine a layout -/

namespace Term

/-- The comparisons of a chain, as if each had the one before it as its operand. -/
def flat : Term → Term
  | .leaf operand => .leaf operand
  | .unary op operand => .unary op operand.flat
  | .binary op lhs rhs => .binary op lhs.flat rhs.flat
  | .link op lhs rhs => .binary op lhs.flat rhs.flat

theorem flat_flat (term : Term) : term.flat.flat = term.flat := by
  induction term with
  | leaf _ => rfl
  | unary op operand ih => rw [flat, flat, ih]
  | binary op lhs rhs lhsIH rhsIH => rw [flat, flat, lhsIH, rhsIH]
  | link op lhs rhs lhsIH rhsIH => rw [flat, flat, lhsIH, rhsIH]

/-- The operands and operators of a term. -/
def size : Term → Nat
  | .leaf _ => 1
  | .unary _ operand => operand.size + 1
  | .binary _ lhs rhs | .link _ lhs rhs => lhs.size + rhs.size + 1

end Term

/-- Whether a token is more than a parenthesis. -/
def Token.isPart : Token → Bool
  | .opening | .closing => false
  | _ => true

/-- How many parentheses are open after a token, unless it closes one that is not. -/
def nest (depth : Nat) : Token → Option Nat
  | .opening => some (depth + 1)
  | .closing => if depth = 0 then none else some (depth - 1)
  | _ => some depth

theorem nest_deeper {tokens : List Token} {depth final : Nat}
    (nested : tokens.foldlM nest depth = some final) :
    tokens.foldlM nest (depth + 1) = some (final + 1) := by
  induction tokens generalizing depth with
  | nil =>
    cases nested
    rfl
  | cons token tokens ih =>
    rw [List.foldlM_cons] at nested ⊢
    obtain ⟨next, stepped, rest⟩ := Option.bind_eq_some_iff.mp nested
    have deeper : nest (depth + 1) token = some (next + 1) := by
      cases token with
      | closing =>
        simp only [nest] at stepped ⊢
        split at stepped
        · cases stepped
        · cases stepped
          rw [if_neg (by omega)]
          congr 1
          omega
      | _ =>
        cases stepped
        rfl
    rw [deeper]
    exact ih rest

namespace Layout

theorem nest_tokens (layout : Layout) (depth : Nat) :
    layout.tokens.foldlM nest depth = some depth := by
  induction layout generalizing depth with
  | number _ => rfl
  | word _ => rfl
  | group inner ih => simp [tokens, nest, ih]
  | unary op operand ih => simp [tokens, nest, ih]
  | binary op lhs rhs lhsIH rhsIH => simp [tokens, nest, lhsIH, rhsIH]

theorem tokens_ne_nil (layout : Layout) : layout.tokens ≠ [] := by
  cases layout <;> simp [tokens]

section

variable (language : Language)

theorem flat_term_binary (op : String) (lhs rhs : Layout) :
    ((Layout.binary op lhs rhs).term language).flat =
      .binary op (lhs.term language).flat (rhs.term language).flat := by
  rw [term]
  split <;> rfl

/-- Counted without parentheses, a layout has as many tokens as what it says has parts. -/
theorem countP_tokens (layout : Layout) :
    layout.tokens.countP Token.isPart = (layout.term language).flat.size := by
  induction layout with
  | number _ => rfl
  | word _ => rfl
  | group inner ih => simp [tokens, Token.isPart, ih, term]
  | unary op operand ih =>
    rw [tokens, List.countP_cons_of_pos rfl, ih]
    rfl
  | binary op lhs rhs lhsIH rhsIH =>
    rw [flat_term_binary, tokens, List.countP_append, List.countP_cons_of_pos rfl, lhsIH, rhsIH,
      Term.size, Nat.add_assoc]

/-- The first parenthesis of a group is closed at its end, and that of a binary operation is closed
before its operator or not at all. -/
theorem group_tokens_ne_binary {inner lhs rhs : Layout} {op : String} {after rest : List Token}
    (alike : (inner.term language).flat = ((Layout.binary op lhs rhs).term language).flat) :
    inner.group.tokens ++ after ≠ (Layout.binary op lhs rhs).tokens ++ rest := by
  intro same
  have parts := congrArg Term.size alike
  rw [flat_term_binary, Term.size] at parts
  have split : (Token.opening :: inner.tokens) ++ (Token.closing :: after) =
      lhs.tokens ++ (Token.symbol op :: (rhs.tokens ++ rest)) := by
    simpa [tokens] using same
  rcases List.append_eq_append_iff.mp split with ⟨more, lhsLonger, _⟩ | ⟨more, groupLonger, _⟩
  · -- The left operand would have all the operands of the group.
    have counted := congrArg (List.countP Token.isPart) lhsLonger
    rw [List.countP_append, List.countP_cons_of_neg (by simp [Token.isPart]),
      countP_tokens language, countP_tokens language] at counted
    omega
  · -- The left operand would leave the first parenthesis open.
    cases shape : lhs.tokens with
    | nil => exact absurd shape lhs.tokens_ne_nil
    | cons token between =>
      rw [shape, List.cons_append, List.cons.injEq] at groupLonger
      obtain ⟨rfl, innerTokens⟩ := groupLonger
      have closed := lhs.nest_tokens 0
      have balanced := inner.nest_tokens 0
      rw [innerTokens, List.foldlM_append] at balanced
      obtain ⟨final, nested, _⟩ := Option.bind_eq_some_iff.mp balanced
      rw [shape, List.foldlM_cons] at closed
      change between.foldlM nest 1 = some 0 at closed
      rw [nest_deeper nested] at closed
      cases closed

/-- Two layouts that say the same, chains apart, have their parentheses at the same places if they
have the same tokens. -/
theorem eq_of_tokens_append_eq {layout other : Layout} {after rest : List Token}
    (same : layout.tokens ++ after = other.tokens ++ rest)
    (alike : (layout.term language).flat = (other.term language).flat) :
    layout = other ∧ after = rest := by
  induction layout generalizing other after rest with
  | number value =>
    cases other with
    | number _ => simpa [tokens] using same
    | group _ => simp [tokens] at same
    | word _ => simp [tokens] at same
    | unary _ _ => simp [tokens] at same
    | binary op lhs rhs =>
      rw [flat_term_binary] at alike
      cases alike
  | word text =>
    cases other with
    | word _ => simpa [tokens] using same
    | number _ => simp [tokens] at same
    | group _ => simp [tokens] at same
    | unary _ _ => simp [tokens] at same
    | binary op lhs rhs =>
      rw [flat_term_binary] at alike
      cases alike
  | group inner ih =>
    cases other with
    | number _ => simp [tokens] at same
    | word _ => simp [tokens] at same
    | unary _ _ => simp [tokens] at same
    | group otherInner =>
      have stripped : inner.tokens ++ (.closing :: after) =
          otherInner.tokens ++ (.closing :: rest) := by
        simpa [tokens] using same
      obtain ⟨rfl, tails⟩ := ih stripped alike
      exact ⟨rfl, (List.cons.inj tails).2⟩
    | binary op lhs rhs => exact absurd same (group_tokens_ne_binary language alike)
  | unary op operand ih =>
    cases other with
    | number _ => simp [tokens] at same
    | word _ => simp [tokens] at same
    | group _ => simp [tokens] at same
    | unary otherOp otherOperand =>
      simp only [term, Term.flat, Term.unary.injEq] at alike
      obtain ⟨rfl, operands⟩ := alike
      obtain ⟨rfl, tails⟩ := ih (List.cons.inj same).2 operands
      exact ⟨rfl, tails⟩
    | binary otherOp lhs rhs =>
      rw [flat_term_binary] at alike
      cases alike
  | binary op lhs rhs lhsIH rhsIH =>
    rw [flat_term_binary] at alike
    cases other with
    | number _ => cases alike
    | word _ => cases alike
    | unary _ _ => cases alike
    | group inner =>
      rw [← flat_term_binary] at alike
      exact absurd same.symm (group_tokens_ne_binary language alike.symm)
    | binary otherOp otherLhs otherRhs =>
      rw [flat_term_binary, Term.binary.injEq] at alike
      obtain ⟨rfl, lefts, rights⟩ := alike
      simp only [tokens, List.append_assoc, List.cons_append] at same
      obtain ⟨rfl, fromOperator⟩ := lhsIH same lefts
      obtain ⟨rfl, tails⟩ := rhsIH (List.cons.inj fromOperator).2 rights
      exact ⟨rfl, tails⟩

end

end Layout

/-! ### The layouts that are read for what they say -/

/-- Whether a layout is well grouped and has no comparison that goes on from another one. -/
def Layout.Stable (language : Language) : Layout → Prop
  | .number _ | .word _ => True
  | .group inner => inner.Stable language
  | .unary op operand =>
    language.isSign op ∧ operand.AtLeast language (language.signLevel op) ∧ operand.Stable language
  | .binary op lhs rhs =>
    language.isBinary op ∧ lhs.AtLeast language (language.leftLevel op) ∧
      rhs.AtLeast language (language.level op + 1) ∧ lhs.Stable language ∧ rhs.Stable language

section

variable {language : Language}

theorem Layout.atLeast_leftLevel_iff {lhs : Layout} {op : String}
    (isBinary : language.isBinary op) (grouped : lhs.WellGrouped language) :
    lhs.AtLeast language (language.leftLevel op) ↔
      lhs.AtLeast language (language.level op) ∧
        lhs.continues language language.single op = false ∧
        lhs.continues language language.chain op = false := by
  by_cases special : language.chain = some (language.level op) ∨
      language.single = some (language.level op)
  · rw [Language.leftLevel, if_pos special]
    cases lhs with
    | number _ => simp [AtLeast, continues]
    | word _ => simp [AtLeast, continues]
    | group _ => simp [AtLeast, continues]
    | unary sign operand =>
      have different := language.signLevel_ne_level grouped.1 isBinary
      simp only [AtLeast, continues, and_true]
      omega
    | binary other _ _ =>
      simp only [AtLeast, continues, Bool.and_eq_false_iff, beq_eq_false_iff_ne]
      rcases special with chained | single
      · simp only [chained, ne_eq, not_true, false_or]
        omega
      · simp only [single, ne_eq, not_true, false_or]
        omega
  · rw [Language.leftLevel, if_neg special]
    obtain ⟨unchained, unsingle⟩ := not_or.mp special
    cases lhs <;> simp [continues, unchained, unsingle]

theorem Layout.term_binary_eq_flat_iff {op : String} {lhs rhs : Layout} :
    (Layout.binary op lhs rhs).term language = ((Layout.binary op lhs rhs).term language).flat ↔
      lhs.continues language language.chain op = false ∧
        lhs.term language = (lhs.term language).flat ∧
        rhs.term language = (rhs.term language).flat := by
  rw [flat_term_binary, term]
  cases chained : lhs.continues language language.chain op with
  | true => simp
  | false => simp

theorem Layout.stable_iff (layout : Layout) :
    layout.Stable language ↔
      layout.WellGrouped language ∧ layout.term language = (layout.term language).flat := by
  induction layout with
  | number _ => simp [Stable, WellGrouped, term, Term.flat]
  | word _ => simp [Stable, WellGrouped, term, Term.flat]
  | group inner ih => exact ih
  | unary op operand ih =>
    simp only [Stable, WellGrouped, term, Term.flat, ih, Term.unary.injEq, true_and, and_assoc]
  | binary op lhs rhs lhsIH rhsIH =>
    rw [term_binary_eq_flat_iff]
    simp only [Stable, WellGrouped, lhsIH, rhsIH]
    constructor
    · rintro ⟨isBinary, left, right, ⟨lhsGrouped, lhsFlat⟩, rhsGrouped, rhsFlat⟩
      obtain ⟨above, apart, unchained⟩ := (atLeast_leftLevel_iff isBinary lhsGrouped).mp left
      exact ⟨⟨isBinary, above, apart, right, lhsGrouped, rhsGrouped⟩, unchained, lhsFlat, rhsFlat⟩
    · rintro ⟨⟨isBinary, above, apart, right, lhsGrouped, rhsGrouped⟩, unchained, lhsFlat, rhsFlat⟩
      have left := (atLeast_leftLevel_iff isBinary lhsGrouped).mpr ⟨above, apart, unchained⟩
      exact ⟨isBinary, left, right, ⟨lhsGrouped, lhsFlat⟩, rhsGrouped, rhsFlat⟩

/-- What the tokens of a layout are read as is what the layout was meant to say, each operator with
its own operands, exactly if the layout is stable. -/
theorem parse_tokens_iff (layout : Layout) :
    parse language layout.tokens = some (layout.term language).flat ↔ layout.Stable language := by
  rw [Layout.stable_iff, parse, Option.map_eq_some_iff]
  constructor
  · rintro ⟨found, isRead, meant⟩
    obtain ⟨grouped, sameTokens⟩ := read_eq_some_iff.mp isRead
    have alike : (found.term language).flat = (layout.term language).flat := by
      rw [meant, Term.flat_flat]
    have extended : found.tokens ++ [] = layout.tokens ++ [] := by rw [sameTokens]
    obtain ⟨rfl, _⟩ := Layout.eq_of_tokens_append_eq language extended alike
    exact ⟨grouped, meant⟩
  · rintro ⟨grouped, meant⟩
    exact ⟨layout, read_eq_some_iff.mpr ⟨grouped, rfl⟩, meant⟩

end

end FormatCompiler.Grouping
