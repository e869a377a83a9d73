import FormatCompiler.Expr.Reader
import FormatCompiler.Proofs.Numeral
import FormatCompiler.Proofs.Outcome

/-!
The grammar of expressions, and the reader that accepts exactly its texts. The grammar knows
nothing of tokens or of open groups: a group has a tag and parts between parentheses, and what its
parts have to be depends on the tag alone.
-/

namespace FormatCompiler.Expr

set_option autoImplicit false

/-! ### The grammar -/

/-- Spaces, tabs and line ends, or nothing. -/
def IsGap (text : List Char) : Prop :=
  ∀ c ∈ text, c ∈ [' ', '\t', '\r', '\n']

/-- A run of characters without spaces, parentheses and quotes. -/
def IsAtom (source : List Char) : Prop :=
  ∀ c ∈ source, c ∉ [' ', '\t', '\r', '\n', '(', ')', '"']

/-- What stands between the quotes of a string, and the text it stands for. A backslash makes the
character behind it literal. -/
inductive Escaped : List Char → List Char → Prop
  | nil : Escaped [] []
  | literal (c : Char) {inner text : List Char} (rest : Escaped inner text) :
      Escaped ('\\' :: c :: inner) (c :: text)
  | plain (c : Char) {inner text : List Char} (unquoted : c ≠ '"') (unslashed : c ≠ '\\')
      (rest : Escaped inner text) : Escaped (c :: inner) (c :: text)

/-- A string in double quotes, and the text it stands for. -/
inductive IsString : List Char → String → Prop
  | quoted {inner : List Char} {text : String} (escaped : Escaped inner text.toList) :
      IsString ('"' :: (inner ++ ['"'])) text

/-- The parts of a group and its closing parenthesis, with a gap before each of them. -/
inductive Closes : List (List Char) → List Char → Prop
  | closing (gap : List Char) (spaces : IsGap gap) : Closes [] (gap ++ [')'])
  | part (gap part : List Char) {parts : List (List Char)} {rest : List Char} (spaces : IsGap gap)
      (behind : Closes parts rest) : Closes (part :: parts) (gap ++ (part ++ rest))

/-- A group with a tag and parts. The tag is the longest run of letters where it stands. -/
inductive IsGroup (tag : List Char) (parts : List (List Char)) : List Char → Prop
  | group (gap rest : List Char) (spaces : IsGap gap) (closes : Closes parts rest)
      (longest : ∀ c ∈ rest.head?, c.isAlpha = false) :
      IsGroup tag parts ('(' :: (gap ++ (tag ++ rest)))

/-- The texts of an expression. The value of an `int` or a `bool` is the last part of its group, so
it ends where an atom has to end. -/
inductive Derives : List Char → Expr → Prop
  | int {source atom : List Char} {value : Int64} (group : IsGroup "int".toList [atom] source)
      (isAtom : IsAtom atom) (literal : Text.IsLiteral atom value) : Derives source (.int value)
  | bool {source : List Char} (value : Bool)
      (group : IsGroup "bool".toList [(if value then "true" else "false").toList] source) :
      Derives source (.bool value)
  | name {source part : List Char} {id : String} (group : IsGroup "name".toList [part] source)
      (string : IsString part id) : Derives source (.name id)
  | unary {source first second : List Char} {op : String} {operand : Expr}
      (group : IsGroup "un".toList [first, second] source) (string : IsString first op)
      (inner : Derives second operand) : Derives source (.unary (.ofSpelling op) operand)
  | binary {source first second third : List Char} {op : String} {lhs rhs : Expr}
      (group : IsGroup "bin".toList [first, second, third] source) (string : IsString first op)
      (left : Derives second lhs) (right : Derives third rhs) : Derives source (.binary op lhs rhs)

/-! ### Characters -/

theorem isSpace_iff {c : Char} : isSpace c ↔ c ∈ [' ', '\t', '\r', '\n'] := by
  simp [isSpace, or_assoc]

theorem isAtomChar_iff {c : Char} :
    isAtomChar c ↔ c ∉ [' ', '\t', '\r', '\n', '(', ')', '"'] := by
  simp [isAtomChar, isSpace, and_assoc]

theorem isTagLetter_eq_isAlpha (c : Char) : isTagLetter c = c.isAlpha := by
  have upper : c.isUpper = decide (c.val ≥ 'A'.val ∧ c.val ≤ 'Z'.val) := rfl
  have lower : c.isLower = (c.val ≥ 'a'.val && c.val ≤ 'z'.val) := rfl
  have alpha : c.isAlpha = (c.isUpper || c.isLower) := rfl
  rw [isTagLetter, alpha, upper, lower, Bool.or_comm]
  simp only [Char.le_def, ge_iff_le, Bool.decide_and]

theorem isGap_iff {text : List Char} : IsGap text ↔ ∀ c ∈ text, isSpace c := by
  simp only [IsGap, isSpace_iff]

theorem isAtom_iff {source : List Char} : IsAtom source ↔ ∀ c ∈ source, isAtomChar c := by
  simp only [IsAtom, isAtomChar_iff]

theorem isSpace_of_isAlpha {c : Char} (letter : c.isAlpha) : isSpace c = false := by
  apply Bool.eq_false_iff.mpr
  intro space
  have listed := isSpace_iff.mp space
  simp only [List.mem_cons, List.not_mem_nil, or_false] at listed
  rcases listed with rfl | rfl | rfl | rfl <;> exact absurd letter (by decide)

theorem isBlank_of_isSpace {c : Char} (space : isSpace c) : Text.isBlank c := by
  have listed := isSpace_iff.mp space
  simp only [List.mem_cons, List.not_mem_nil, or_false] at listed
  rcases listed with rfl | rfl | rfl | rfl <;> decide

theorem isAtom_of_isLiteral {source : List Char} {value : Int64}
    (literal : Text.IsLiteral source value) : IsAtom source := by
  intro c member listed
  have sort := literal.mem c member
  simp only [List.mem_cons, List.not_mem_nil, or_false] at listed
  rcases listed with rfl | rfl | rfl | rfl | rfl | rfl | rfl <;> exact absurd sort (by decide)

/-- Every text starts with a longest run of characters of a kind. -/
theorem exists_longest (p : Char → Bool) (text : List Char) :
    ∃ front rest, text = front ++ rest ∧ (∀ c ∈ front, p c) ∧ ∀ c ∈ rest.head?, p c = false := by
  induction text with
  | nil => exact ⟨[], [], rfl, by simp, by simp⟩
  | cons c text ih =>
    by_cases inside : p c
    · obtain ⟨front, rest, rfl, all, longest⟩ := ih
      exact ⟨c :: front, rest, rfl, List.forall_mem_cons.mpr ⟨inside, all⟩, longest⟩
    · exact ⟨[], c :: text, rfl, by simp, by simpa using inside⟩

theorem takeWhile_longest {p : Char → Bool} {front rest : List Char} (all : ∀ c ∈ front, p c)
    (longest : ∀ c ∈ rest.head?, p c = false) : (front ++ rest).takeWhile p = front := by
  rw [List.takeWhile_append_of_pos all]
  cases rest with
  | nil => simp
  | cons c rest => simp [longest c (by simp)]

theorem dropWhile_longest {p : Char → Bool} {front rest : List Char} (all : ∀ c ∈ front, p c)
    (longest : ∀ c ∈ rest.head?, p c = false) : (front ++ rest).dropWhile p = rest := by
  rw [List.dropWhile_append_of_pos all]
  cases rest with
  | nil => simp
  | cons c rest => simp [longest c (by simp)]

theorem quotedLength_escaped {inner text : List Char} (escaped : Escaped inner text)
    (rest : List Char) : quotedLength (inner ++ '"' :: rest) = some (inner.length + 1) := by
  induction escaped with
  | nil => rfl
  | literal c _ ih => simp [quotedLength, ih]
  | plain c unquoted unslashed _ ih =>
    rw [List.cons_append, quotedLength, ih]
    · simp
    · exact unquoted
    · rintro d more rfl
      exact absurd rfl unslashed

theorem escaped_of_quotedLength {rest : List Char} {size : Nat}
    (found : quotedLength rest = some size) :
    ∃ inner text left, Escaped inner text ∧ rest = inner ++ '"' :: left := by
  fun_induction quotedLength rest generalizing size with
  | case1 => cases found
  | case2 left => exact ⟨[], [], left, .nil, rfl⟩
  | case3 c rest ih =>
    obtain ⟨shorter, inside, -⟩ := Option.map_eq_some_iff.mp found
    obtain ⟨inner, text, left, escaped, rfl⟩ := ih inside
    exact ⟨'\\' :: c :: inner, c :: text, left, .literal c escaped, rfl⟩
  | case4 c rest unquoted slash ih =>
    obtain ⟨shorter, inside, -⟩ := Option.map_eq_some_iff.mp found
    obtain ⟨inner, text, left, escaped, rfl⟩ := ih inside
    -- A backslash with anything behind it is the case before.
    have unslashed : c ≠ '\\' := by
      rintro rfl
      cases inner with
      | nil => exact slash '"' left rfl rfl
      | cons d inner => exact slash d (inner ++ '"' :: left) rfl rfl
    exact ⟨c :: inner, c :: text, left, .plain c unquoted unslashed escaped, rfl⟩

/-! ### Tokens -/

/-- A token at the start of a text, and what is left behind it. -/
inductive Token.Leads : Token → List Char → List Char → Prop
  | opening (gap tag left : List Char) (spaces : IsGap gap) (nonempty : tag ≠ [])
      (letters : ∀ c ∈ tag, c.isAlpha) (longest : ∀ c ∈ left.head?, c.isAlpha = false) :
      Token.Leads (.opening tag) ('(' :: (gap ++ (tag ++ left))) left
  | closing (left : List Char) : Token.Leads .closing (')' :: left) left
  | quoted {source : List Char} {text : String} (left : List Char) (string : IsString source text) :
      Token.Leads (.quoted source) (source ++ left) left
  | atom (source left : List Char) (nonempty : source ≠ []) (isAtom : IsAtom source)
      (longest : ∀ c ∈ left.head?, isAtomChar c = false) :
      Token.Leads (.atom source) (source ++ left) left

theorem Token.Leads.shorter {token : Token} {start left : List Char}
    (leads : token.Leads start left) : left.length < start.length := by
  cases leads with
  | opening => grind
  | closing => grind
  | quoted _ string =>
    cases string
    grind
  | atom source _ nonempty =>
    have := List.length_pos_iff.mpr nonempty
    grind

theorem lexemes_skip (skip : Nat) (text : List Char) :
    lexemes skip text = lexemes 0 (text.drop skip) := by
  induction text generalizing skip with
  | nil => simp [lexemes]
  | cons c rest ih =>
    cases skip with
    | zero => rfl
    | succ skip => rw [lexemes, ih, List.drop_succ_cons]

theorem lexemes_gap {gap : List Char} (spaces : IsGap gap) (rest : List Char) :
    lexemes 0 (gap ++ rest) = lexemes 0 rest := by
  induction gap with
  | nil => rfl
  | cons c gap ih =>
    have space : isSpace c := isGap_iff.mp spaces c (by simp)
    rw [List.cons_append, lexemes, if_pos space, ih fun d member => spaces d (by simp [member])]

/-- A token that can be read is taken off the front of the text. -/
theorem lexemes_cons (c : Char) (rest : List Char) (token : Token) (size : Nat)
    (visible : isSpace c = false) (readable : ∀ left, token ≠ .stuck left)
    (first : lexeme (c :: rest) = ⟨token, c :: rest, size + 1⟩) :
    lexemes 0 (c :: rest) = ⟨token, c :: rest, size + 1⟩ :: lexemes 0 (rest.drop size) := by
  rw [lexemes]
  simp only [visible, Bool.false_eq_true, ↓reduceIte, first, Nat.add_sub_cancel]
  rw [lexemes_skip]

theorem lexeme_opening {gap tag left : List Char} (spaces : IsGap gap)
    (unspaced : ∀ c ∈ (tag ++ left).head?, isSpace c = false) (letters : ∀ c ∈ tag, c.isAlpha)
    (longest : ∀ c ∈ left.head?, c.isAlpha = false) :
    lexeme ('(' :: (gap ++ (tag ++ left))) =
      if tag = [] then ⟨.stuck (tag ++ left), '(' :: (gap ++ (tag ++ left)), 0⟩
      else ⟨.opening tag, '(' :: (gap ++ (tag ++ left)), gap.length + tag.length + 1⟩ := by
  have before := takeWhile_longest (isGap_iff.mp spaces) unspaced
  have behind := dropWhile_longest (isGap_iff.mp spaces) unspaced
  simp only [← isTagLetter_eq_isAlpha] at letters longest
  have whole := takeWhile_longest letters longest
  simp only [lexeme, before, behind, whole, List.isEmpty_iff]
  congr 2
  omega

/-- A token that leads a text is found there, and the others are found behind it. -/
theorem lexemes_of_leads {token : Token} {start left : List Char} (leads : token.Leads start left) :
    ∃ size, lexemes 0 start = ⟨token, start, size⟩ :: lexemes 0 left := by
  cases leads with
  | closing => exact ⟨1, lexemes_cons ')' left .closing 0 rfl (by simp) rfl⟩
  | opening gap tag _ spaces nonempty letters longest =>
    have unspaced : ∀ c ∈ (tag ++ left).head?, isSpace c = false := by
      obtain ⟨c, more, rfl⟩ := List.exists_cons_of_ne_nil nonempty
      simpa using isSpace_of_isAlpha (letters c (by simp))
    have first := lexeme_opening spaces unspaced letters longest
    rw [if_neg nonempty] at first
    refine ⟨gap.length + tag.length + 1, ?_⟩
    rw [lexemes_cons '(' _ _ _ rfl (by simp) first, ← List.append_assoc, ← List.length_append,
      List.drop_left]
  | quoted _ string =>
    cases string with
    | @quoted inner text escaped =>
      have length := quotedLength_escaped escaped left
      have first : lexeme ('"' :: (inner ++ '"' :: left)) =
          ⟨.quoted ('"' :: (inner ++ ['"'])), '"' :: (inner ++ '"' :: left),
            inner.length + 1 + 1⟩ := by
        simp [lexeme, length, List.take_append, List.take_of_length_le]
      have shape : '"' :: (inner ++ ['"']) ++ left = '"' :: (inner ++ '"' :: left) := by simp
      refine ⟨inner.length + 1 + 1, ?_⟩
      rw [shape, lexemes_cons '"' _ _ _ rfl (by simp) first]
      simp [List.drop_append, List.drop_of_length_le]
  | atom source _ nonempty isAtom longest =>
    obtain ⟨c, more, rfl⟩ := List.exists_cons_of_ne_nil nonempty
    have chars := isAtom_iff.mp isAtom
    have whole : (c :: (more ++ left)).takeWhile isAtomChar = c :: more :=
      takeWhile_longest chars longest
    have atom : isAtomChar c := chars c (by simp)
    have visible : isSpace c = false := by simp_all [isAtomChar]
    have first : lexeme (c :: (more ++ left)) =
        ⟨.atom (c :: more), c :: (more ++ left), more.length + 1⟩ := by
      unfold lexeme
      split <;> simp_all [isAtomChar]
    exact ⟨more.length + 1, by simp [lexemes_cons c _ _ _ visible (by simp) first]⟩

/-- Where no space stands, a token leads the text unless none can be read. -/
theorem leads_or_stuck (c : Char) (rest : List Char) (visible : isSpace c = false) :
    (∃ token left, Token.Leads token (c :: rest) left) ∨
      ∃ left, lexeme (c :: rest) = ⟨.stuck left, c :: rest, 0⟩ := by
  by_cases opening : c = '('
  · subst opening
    obtain ⟨gap, inner, rfl, spaces, unspaced⟩ := exists_longest isSpace rest
    obtain ⟨tag, left, rfl, letters, longest⟩ := exists_longest Char.isAlpha inner
    have gaps := isGap_iff.mpr spaces
    by_cases empty : tag = []
    · exact .inr ⟨tag ++ left, by rw [lexeme_opening gaps unspaced letters longest, if_pos empty]⟩
    · exact .inl ⟨_, _, .opening gap tag left gaps empty letters longest⟩
  by_cases closing : c = ')'
  · subst closing
    exact .inl ⟨_, _, .closing rest⟩
  by_cases quoted : c = '"'
  · subst quoted
    cases length : quotedLength rest with
    | none => exact .inr ⟨'"' :: rest, by simp [lexeme, length]⟩
    | some size =>
      obtain ⟨inner, text, left, escaped, rfl⟩ := escaped_of_quotedLength length
      have string : IsString ('"' :: (inner ++ ['"'])) (String.ofList text) :=
        .quoted (by rwa [String.toList_ofList])
      have leads := Token.Leads.quoted left string
      exact .inl ⟨_, left, by simpa using leads⟩
  · have atom : isAtomChar c := by simp [isAtomChar, visible, opening, closing, quoted]
    obtain ⟨more, left, rfl, chars, longest⟩ := exists_longest isAtomChar rest
    have isAtom : IsAtom (c :: more) := isAtom_iff.mpr (List.forall_mem_cons.mpr ⟨atom, chars⟩)
    exact .inl ⟨_, _, .atom (c :: more) left (by simp) isAtom longest⟩

/-- What is found at the start of a text: its end, nothing that can be read, or a token. -/
theorem lexemes_cases (text : List Char) :
    ∃ gap start, IsGap gap ∧ text = gap ++ start ∧
      ((start = [] ∧ lexemes 0 text = [⟨.finish, [], 0⟩]) ∨
        (∃ left, lexemes 0 text = [⟨.stuck left, start, 0⟩]) ∨
        ∃ token left size, token.Leads start left ∧
          lexemes 0 text = ⟨token, start, size⟩ :: lexemes 0 left) := by
  obtain ⟨gap, start, rfl, spaces, unspaced⟩ := exists_longest isSpace text
  have gaps := isGap_iff.mpr spaces
  refine ⟨gap, start, gaps, rfl, ?_⟩
  rw [lexemes_gap gaps]
  cases start with
  | nil => exact .inl ⟨rfl, rfl⟩
  | cons c rest =>
    have visible : isSpace c = false := unspaced c (by simp)
    rcases leads_or_stuck c rest visible with ⟨token, left, leads⟩ | ⟨left, stuck⟩
    · obtain ⟨size, found⟩ := lexemes_of_leads leads
      exact .inr (.inr ⟨token, left, size, leads, found⟩)
    · exact .inr (.inl ⟨left, by simp [lexemes, visible, stuck]⟩)

/-! ### Groups -/

/-- A node of a text's structure: its source is a group of the sources of its parts, a string or an
atom. -/
inductive Node.Formed : Node → Prop
  | group {source tag : List Char} {parts : List Node}
      (group : IsGroup tag (parts.map Node.source) source) (inside : ∀ part ∈ parts, part.Formed) :
      Node.Formed (.group source tag parts)
  | quoted {source : List Char} {text : String} (string : IsString source text) :
      Node.Formed (.quoted source)
  | atom {source : List Char} (isAtom : IsAtom source) : Node.Formed (.atom source)

/-- Where reading stands when it comes to a group: inside of other groups, or at the start. -/
def Progress.before : List Frame → Progress
  | [] => .start
  | frame :: outer => .inside frame outer

/-- Where reading stands behind a group. -/
def Progress.behind (group : Node) : List Frame → Progress
  | [] => .complete group
  | frame :: outer => .inside (frame.add group) outer

theorem run_of_leads {progress after : Progress} {token : Token} {start left : List Char}
    (leads : token.Leads start left)
    (step : ∀ size, progress.next ⟨token, start, size⟩ = some after) :
    progress.run (lexemes 0 start) = after.run (lexemes 0 left) := by
  obtain ⟨size, found⟩ := lexemes_of_leads leads
  rw [found, Progress.run, step size]

theorem run_opening (outer : List Frame) {gap tag left : List Char} (spaces : IsGap gap)
    (nonempty : tag ≠ []) (letters : tag.all Char.isAlpha)
    (longest : ∀ c ∈ left.head?, c.isAlpha = false) :
    (Progress.before outer).run (lexemes 0 ('(' :: (gap ++ (tag ++ left)))) =
      (Progress.inside ⟨'(' :: (gap ++ (tag ++ left)), tag, []⟩ outer).run (lexemes 0 left) := by
  have leads :=
    Token.Leads.opening gap tag left spaces nonempty (List.all_eq_true.mp letters) longest
  refine run_of_leads leads fun _ => ?_
  cases outer <;> rfl

theorem run_closing (frame : Frame) (outer : List Frame) (rest : List Char) :
    (Progress.inside frame outer).run (lexemes 0 (')' :: rest)) =
      (Progress.behind (frame.close rest) outer).run (lexemes 0 rest) := by
  refine run_of_leads (.closing rest) fun _ => ?_
  cases outer <;> rfl

theorem Frame.close_eq (gap tag body rest : List Char) (parts : List Node) :
    Frame.close ⟨'(' :: (gap ++ (tag ++ (body ++ rest))), tag, parts.reverse⟩ rest =
      .group ('(' :: (gap ++ (tag ++ body))) tag parts := by
  have whole : '(' :: (gap ++ (tag ++ (body ++ rest))) =
      '(' :: (gap ++ (tag ++ body)) ++ rest := by simp
  rw [Frame.close, whole, List.length_append, Nat.add_sub_cancel, List.take_left,
    List.reverse_reverse]

/-- From inside a group reading comes to its end: parts of the group stand up to its closing
parenthesis, and reading goes on behind it. -/
structure Frame.ClosesIn (frame : Frame) (outer : List Frame) (text : List Char) (node : Node)
    (parts : List Node) (body left : List Char) : Prop where
  shape : text = body ++ left
  closes : Closes (parts.map Node.source) body
  formed : ∀ part ∈ parts, part.Formed
  behind : (Progress.behind (Frame.close { frame with parts := parts.reverse ++ frame.parts } left)
    outer).run (lexemes 0 left) = .ok node

theorem Frame.ClosesIn.of_add {frame : Frame} {outer : List Frame} {text body left : List Char}
    {node part : Node} {parts : List Node}
    (closes : (frame.add part).ClosesIn outer text node parts body left) (formed : part.Formed)
    {gap : List Char} (spaces : IsGap gap) :
    frame.ClosesIn outer (gap ++ (part.source ++ text)) node (part :: parts)
      (gap ++ (part.source ++ body)) left where
  shape := by simp [closes.shape]
  closes := .part gap part.source spaces closes.closes
  formed := List.forall_mem_cons.mpr ⟨formed, closes.formed⟩
  behind := by simpa [Frame.add] using closes.behind

/-- A group that was opened and has come to its end is a formed node. -/
theorem Frame.ClosesIn.group {gap tag left body rest : List Char} {outer : List Frame}
    {node : Node} {parts : List Node} (spaces : IsGap gap)
    (longest : ∀ c ∈ left.head?, c.isAlpha = false)
    (closes : Frame.ClosesIn ⟨'(' :: (gap ++ (tag ++ left)), tag, []⟩ outer left node parts body
      rest) :
    ∃ group : Node, group.Formed ∧ '(' :: (gap ++ (tag ++ left)) = group.source ++ rest ∧
      (Progress.behind group outer).run (lexemes 0 rest) = .ok node := by
  obtain ⟨rfl, closes, formed, behind⟩ := closes
  rw [List.append_nil, Frame.close_eq] at behind
  refine ⟨_, .group (.group gap body spaces closes ?_) formed, by simp [Node.source], behind⟩
  intro c first
  exact longest c (by simp_all [List.head?_append])

/-- Inside a group, reading takes parts up to the closing parenthesis. The induction is on the text
that is left: a part that is a group itself is read up to its own end, then what follows it. -/
theorem exists_closesIn (text : List Char) (frame : Frame) (outer : List Frame) (node : Node)
    (finished : (Progress.inside frame outer).run (lexemes 0 text) = .ok node) :
    ∃ parts body left, frame.ClosesIn outer text node parts body left := by
  induction size : text.length using Nat.strongRecOn generalizing text frame outer with
  | ind length ih =>
    obtain ⟨gap, start, spaces, rfl, cases⟩ := lexemes_cases text
    rcases cases with ⟨-, found⟩ | ⟨left, found⟩ | ⟨token, left, _, leads, found⟩ <;>
      rw [found] at finished
    · cases finished
    · cases finished
    · have shorter : left.length < length := by
        have := leads.shorter
        simp only [List.length_append] at size
        omega
      cases leads with
      | closing =>
        refine ⟨[], gap ++ [')'], left, by simp, .closing gap spaces, by simp, ?_⟩
        cases outer <;> exact finished
      | quoted _ string =>
        obtain ⟨parts, body, rest, closes⟩ := ih _ shorter left _ outer finished rfl
        exact ⟨_, _, _, closes.of_add (.quoted string) spaces⟩
      | atom source _ _ isAtom =>
        obtain ⟨parts, body, rest, closes⟩ := ih _ shorter left _ outer finished rfl
        exact ⟨_, _, _, closes.of_add (.atom isAtom) spaces⟩
      | opening inner tag _ innerSpaces _ _ longest =>
        obtain ⟨parts, body, rest, closes⟩ := ih _ shorter left _ (frame :: outer) finished rfl
        have less : rest.length < length := by
          have := congrArg List.length closes.shape
          simp only [List.length_append] at this
          omega
        obtain ⟨group, formed, source, behind⟩ := closes.group innerSpaces longest
        obtain ⟨others, tail, last, ended⟩ := ih _ less rest _ outer behind rfl
        rw [source]
        exact ⟨_, _, _, ended.of_add formed spaces⟩

/-- Whatever is read has a formed structure, and only gaps stand around it. -/
theorem formed_of_read {text : List Char} {node : Node} (found : Node.read text = .ok node) :
    ∃ before after, IsGap before ∧ IsGap after ∧ text = before ++ (node.source ++ after) ∧
      node.Formed := by
  obtain ⟨gap, start, spaces, rfl, cases⟩ := lexemes_cases text
  rw [Node.read] at found
  rcases cases with ⟨-, tokens⟩ | ⟨left, tokens⟩ | ⟨token, left, _, leads, tokens⟩ <;>
    rw [tokens] at found
  · cases found
  · cases found
  · cases leads with
    | closing => cases found
    | quoted => cases found
    | atom => cases found
    | opening inner tag _ innerSpaces _ _ longest =>
      obtain ⟨parts, body, rest, closes⟩ := exists_closesIn left _ [] node found
      obtain ⟨group, formed, source, behind⟩ := closes.group innerSpaces longest
      obtain ⟨after, last, afterSpaces, rfl, cases⟩ := lexemes_cases rest
      rcases cases with ⟨rfl, tokens⟩ | ⟨left, tokens⟩ | ⟨token, left, _, leads, tokens⟩ <;>
        rw [tokens] at behind
      · cases behind
        exact ⟨gap, after, spaces, afterSpaces, by simp [source], formed⟩
      · cases behind
      · cases leads <;> cases behind

/-! ### Expressions that were read -/

theorem unescape_escaped {inner text : List Char} (escaped : Escaped inner text) :
    Text.unescape inner = text := by
  induction escaped with
  | nil => rfl
  | literal c _ ih => rw [Text.unescape, ih]
  | plain c _ unslashed _ ih =>
    rw [Text.unescape, ih]
    · rintro rfl
      exact absurd rfl unslashed
    · rintro d tail rfl
      exact absurd rfl unslashed

theorem unquote_of_isString {source : List Char} {text : String} (string : IsString source text) :
    unquote source = text := by
  cases string with
  | quoted escaped => simp [unquote, unescape_escaped escaped]

theorem Node.Formed.isString {node : Node} {fault : List Char → Fault} {text : String}
    (formed : node.Formed) (found : node.string fault = .ok text) : IsString node.source text := by
  cases formed with
  | group group inside => cases found
  | atom isAtom => cases found
  | quoted string =>
    cases found
    rw [unquote_of_isString string]
    exact string

theorem Node.int_eq_ok {node : Node} {expr : Expr} (found : node.int = .ok expr) :
    ∃ value, expr = .int value ∧ Text.IsLiteral node.source value := by
  unfold Node.int at found
  split at found
  · next value read =>
    cases found
    exact ⟨value, rfl, Text.readInt64_eq_some_iff.mp read⟩
  · cases found

theorem Node.bool_eq_ok {node : Node} {expr : Expr} (found : node.bool = .ok expr) :
    ∃ value, expr = .bool value ∧ node.source = (if value then "true" else "false").toList := by
  unfold Node.bool at found
  split at found
  · next same =>
    cases found
    exact ⟨true, rfl, same⟩
  · split at found
    · next same =>
      cases found
      exact ⟨false, rfl, same⟩
    · cases found

/-- What a formed node stands for can be derived from its source. -/
theorem Node.Formed.derives {node : Node} {expr : Expr} (formed : node.Formed)
    (found : node.expr = .ok expr) : Derives node.source expr := by
  induction formed generalizing expr with
  | quoted string => simp [Node.expr] at found
  | atom isAtom => simp [Node.expr] at found
  | @group source tag parts group inside ih =>
    unfold Node.expr at found
    split at found
    · next same =>
      subst same
      split at found
      · next part =>
        obtain ⟨value, rfl, literal⟩ := Node.int_eq_ok found
        exact .int group (isAtom_of_isLiteral literal) literal
      · cases found
    · split at found
      · next same =>
        subst same
        split at found
        · next part =>
          obtain ⟨value, rfl, source⟩ := Node.bool_eq_ok found
          rw [List.map_singleton, source] at group
          exact .bool value group
        · cases found
      · split at found
        · next same =>
          subst same
          split at found
          · next part =>
            obtain ⟨text, named, rfl⟩ := Except.map_eq_ok_iff.mp found
            exact .name group ((inside part (by simp)).isString named)
          · cases found
        · split at found
          · next same =>
            subst same
            split at found
            · next op operand =>
              obtain ⟨text, spelled, found⟩ := Except.bind_eq_ok_iff.mp found
              obtain ⟨inner, read, found⟩ := Except.bind_eq_ok_iff.mp found
              cases found
              exact .unary group ((inside op (by simp)).isString spelled)
                (ih operand (by simp) read)
            · cases found
          · split at found
            · next same =>
              subst same
              split at found
              · next op lhs rhs =>
                obtain ⟨text, spelled, found⟩ := Except.bind_eq_ok_iff.mp found
                obtain ⟨left, readLeft, found⟩ := Except.bind_eq_ok_iff.mp found
                obtain ⟨right, readRight, found⟩ := Except.bind_eq_ok_iff.mp found
                cases found
                exact .binary group ((inside op (by simp)).isString spelled)
                  (ih lhs (by simp) readLeft) (ih rhs (by simp) readRight)
              · cases found
            · cases found

theorem derives_of_read {text : List Char} {expr : Expr} (found : read text = .ok expr) :
    ∃ before source after, IsGap before ∧ IsGap after ∧ text = before ++ (source ++ after) ∧
      Derives source expr := by
  unfold read at found
  split at found
  · cases found
  · split at found
    · cases found
    · next node structured =>
      obtain ⟨before, after, spaces, ending, shape, formed⟩ := formed_of_read structured
      exact ⟨before, node.source, after, spaces, ending, shape, formed.derives found⟩

/-! ### Texts that are derived -/

/-- A text is read as a node for an expression, wherever a group may start. -/
def ReadsAs (source : List Char) (expr : Expr) : Prop :=
  ∃ node : Node, node.source = source ∧ node.expr = .ok expr ∧
    ∀ (outer : List Frame) (rest : List Char),
      (Progress.before outer).run (lexemes 0 (source ++ rest)) =
        (Progress.behind node outer).run (lexemes 0 rest)

/-- Inside a group, nodes are read off their sources up to the closing parenthesis. -/
def ReadInside (nodes : List Node) : Prop :=
  ∀ (frame : Frame) (outer : List Frame) (body rest : List Char),
    Closes (nodes.map Node.source) body →
      (Progress.inside frame outer).run (lexemes 0 (body ++ rest)) =
        (Progress.behind (Frame.close { frame with parts := nodes.reverse ++ frame.parts } rest)
          outer).run (lexemes 0 rest)

theorem ReadInside.nil : ReadInside [] := by
  intro frame outer body rest closes
  cases closes with
  | closing gap spaces =>
    rw [List.append_assoc, List.singleton_append, lexemes_gap spaces, run_closing]
    rfl

theorem ReadInside.cons {node : Node} {nodes : List Node}
    (first : ∀ (frame : Frame) (outer : List Frame) (body rest : List Char),
      Closes (nodes.map Node.source) body →
        (Progress.inside frame outer).run (lexemes 0 (node.source ++ (body ++ rest))) =
          (Progress.inside (frame.add node) outer).run (lexemes 0 (body ++ rest)))
    (others : ReadInside nodes) : ReadInside (node :: nodes) := by
  intro frame outer body rest closes
  cases closes with
  | part gap _ spaces behind =>
    rw [List.append_assoc, List.append_assoc, lexemes_gap spaces, first frame outer _ rest behind,
      others _ outer _ rest behind]
    simp [Frame.add]

/-- An atom has to be the only part: what closes the group ends it. -/
theorem ReadInside.atom {source : List Char} (nonempty : source ≠ []) (isAtom : IsAtom source) :
    ReadInside [.atom source] := by
  refine .cons (fun frame outer body rest closes => ?_) .nil
  refine run_of_leads (.atom source _ nonempty isAtom ?_) fun _ => rfl
  cases closes with
  | closing gap spaces =>
    cases gap with
    | nil => simp [isAtomChar]
    | cons c gap =>
      have space : isSpace c := isGap_iff.mp spaces c (by simp)
      simp [isAtomChar, space]

theorem ReadInside.quoted {source : List Char} {text : String} {nodes : List Node}
    (string : IsString source text) (others : ReadInside nodes) :
    ReadInside (.quoted source :: nodes) := by
  refine .cons (fun frame outer body rest _ => ?_) others
  exact run_of_leads (.quoted (body ++ rest) string) fun _ => rfl

theorem ReadInside.group {node : Node} {nodes : List Node}
    (reads : ∀ (outer : List Frame) (rest : List Char),
      (Progress.before outer).run (lexemes 0 (node.source ++ rest)) =
        (Progress.behind node outer).run (lexemes 0 rest))
    (others : ReadInside nodes) : ReadInside (node :: nodes) :=
  .cons (fun frame outer body rest _ => reads (frame :: outer) (body ++ rest)) others

theorem Closes.ne_nil {parts : List (List Char)} {body : List Char} (closes : Closes parts body) :
    body ≠ [] := by
  induction closes with
  | closing => simp
  | part gap part spaces behind ih => simp [ih]

theorem readsAs_of_group {tag source : List Char} (nodes : List Node) {expr : Expr}
    (group : IsGroup tag (nodes.map Node.source) source) (nonempty : tag ≠ [])
    (letters : tag.all Char.isAlpha) (inside : ReadInside nodes)
    (meaning : Node.expr (.group source tag nodes) = .ok expr) : ReadsAs source expr := by
  refine ⟨.group source tag nodes, rfl, meaning, fun outer rest => ?_⟩
  cases group with
  | group gap body spaces closes longest =>
    have stops : ∀ c ∈ (body ++ rest).head?, c.isAlpha = false := by
      obtain ⟨c, more, rfl⟩ := List.exists_cons_of_ne_nil closes.ne_nil
      simpa using longest c
    have shape : '(' :: (gap ++ (tag ++ body)) ++ rest =
        '(' :: (gap ++ (tag ++ (body ++ rest))) := by simp
    rw [shape, run_opening outer spaces nonempty letters stops, inside _ outer body rest closes,
      List.append_nil, Frame.close_eq]

/-! One equation for each kind of node: the general ones take long to derive. -/

section

variable (source : List Char) (first second third : Node)

theorem expr_int : Node.expr (.group source "int".toList [first]) = first.int := rfl

theorem expr_name :
    Node.expr (.group source "name".toList [first]) = (first.string .badName).map .name := rfl

theorem expr_unary :
    Node.expr (.group source "un".toList [first, second]) =
      (first.string .badUnaryOp).bind fun op =>
        second.expr.bind fun operand => .ok (.unary (.ofSpelling op) operand) := rfl

theorem expr_binary :
    Node.expr (.group source "bin".toList [first, second, third]) =
      (first.string .badBinaryOp).bind fun op =>
        second.expr.bind fun lhs => third.expr.bind fun rhs => .ok (.binary op lhs rhs) := rfl

end

theorem string_of_isString {source : List Char} {text : String} (string : IsString source text)
    (fault : List Char → Fault) : Node.string fault (.quoted source) = .ok text := by
  rw [Node.string, unquote_of_isString string]

theorem Derives.readsAs {source : List Char} {expr : Expr} (derives : Derives source expr) :
    ReadsAs source expr := by
  induction derives with
  | @int source atom value group isAtom literal =>
    have inside := ReadInside.atom literal.ne_nil isAtom
    refine readsAs_of_group [.atom atom] group (by decide) (by decide) inside ?_
    rw [expr_int, Node.int, Node.source, Text.readInt64_eq_some_iff.mpr literal]
  | bool value group =>
    have inside : ReadInside [.atom (if value then "true" else "false").toList] := by
      cases value <;> exact .atom (by decide) (isAtom_iff.mpr (List.all_eq_true.mp (by decide)))
    refine readsAs_of_group [.atom _] group (by decide) (by decide) inside ?_
    cases value <;> rfl
  | @name source part id group string =>
    have inside := ReadInside.quoted string .nil
    refine readsAs_of_group [.quoted part] group (by decide) (by decide) inside ?_
    rw [expr_name, string_of_isString string]
    rfl
  | @unary source first second op operand group string _ ih =>
    obtain ⟨inner, rfl, meaning, reads⟩ := ih
    have inside := ReadInside.quoted string (.group reads .nil)
    refine readsAs_of_group [.quoted first, inner] group (by decide) (by decide) inside ?_
    rw [expr_unary, string_of_isString string, meaning]
    rfl
  | @binary source first second third op lhs rhs group string _ _ left right =>
    obtain ⟨lhs, rfl, meaningLeft, readsLeft⟩ := left
    obtain ⟨rhs, rfl, meaningRight, readsRight⟩ := right
    have inside := ReadInside.quoted string (.group readsLeft (.group readsRight .nil))
    refine readsAs_of_group [.quoted first, lhs, rhs] group (by decide) (by decide) inside ?_
    rw [expr_binary, string_of_isString string, meaningLeft, meaningRight]
    rfl

theorem Derives.eq_cons {source : List Char} {expr : Expr} (derives : Derives source expr) :
    ∃ rest, source = '(' :: rest := by
  cases derives with
  | int group | bool _ group | name group | unary group | binary group =>
    cases group
    exact ⟨_, rfl⟩

theorem read_of_derives {before source after : List Char} {expr : Expr} (spaces : IsGap before)
    (ending : IsGap after) (derives : Derives source expr) :
    read (before ++ (source ++ after)) = .ok expr := by
  obtain ⟨node, rfl, meaning, reads⟩ := derives.readsAs
  obtain ⟨rest, shape⟩ := derives.eq_cons
  have opened : (Text.trimStart (before ++ (node.source ++ after))).head? = some '(' := by
    have blanks : ∀ c ∈ before, Text.isBlank c := fun c member =>
      isBlank_of_isSpace (isGap_iff.mp spaces c member)
    rw [Text.trimStart, List.dropWhile_append_of_pos blanks, shape]
    rfl
  have finished : lexemes 0 after = [⟨.finish, [], 0⟩] := by
    have closed := lexemes_gap ending []
    rwa [List.append_nil] at closed
  have found : Node.read (before ++ (node.source ++ after)) = .ok node := by
    rw [Node.read, lexemes_gap spaces]
    exact (reads [] after).trans (by rw [finished]; rfl)
  simp only [read, opened, ne_eq, not_true_eq_false, ↓reduceIte, found, meaning]

/-- The reader accepts exactly the grammar: a text is read as an expression if and only if it can be
derived for it, up to a gap on either side. -/
theorem read_eq_ok_iff_derives (text : List Char) (expr : Expr) :
    read text = .ok expr ↔
      ∃ before source after, IsGap before ∧ IsGap after ∧ text = before ++ (source ++ after) ∧
        Derives source expr := by
  constructor
  · exact derives_of_read
  · rintro ⟨before, source, after, spaces, ending, rfl, derives⟩
    exact read_of_derives spaces ending derives

end FormatCompiler.Expr
