import FormatCompiler.Name

/-!
Paths of scopes, cut from either end. A reference to a scope is made from the segments of its path,
cut from the left; where the scope is put follows from cutting off its last name, again and again.
The two say the same exactly of clear paths: the first segment is not empty and no later one begins
with a colon.
-/

namespace FormatCompiler.Name

set_option autoImplicit false

theorem enclosing_of_cutLast {path : String} {outer last : List Char}
    (found : cutLast path.toList = some (outer, last)) : enclosing path = String.ofList outer := by
  rw [enclosing, found]

theorem short_of_cutLast {path : String} {outer last : List Char}
    (found : cutLast path.toList = some (outer, last)) : short path = String.ofList last := by
  rw [short, found]

/-- Going outward makes a path shorter, down to the root. -/
theorem enclosing_length_lt {path : String} (inside : path ≠ "") :
    (enclosing path).length < path.length := by
  cases found : cutLast path.toList with
  | none =>
    rw [enclosing, found]
    exact Nat.pos_of_ne_zero (mt String.length_eq_zero_iff.mp inside)
  | some parts =>
    obtain ⟨outer, last⟩ := parts
    have whole := congrArg List.length (cutLast_eq found)
    rw [enclosing_of_cutLast found, String.length_ofList, ← String.length_toList, whole]
    simp only [List.length_append, List.length_cons]
    omega

theorem enclosing_root : enclosing "" = "" := rfl

theorem outward_root : outward "".toList = [""] := by
  rw [outward]
  rfl

theorem outward_inside {path : String} (inside : path ≠ "") :
    outward path.toList = path :: outward (enclosing path).toList := by
  rw [outward]
  split
  · next found => rw [enclosing_of_cutLast found, String.ofList_toList, String.toList_ofList]
  · next uncut =>
    have named : path.toList.isEmpty = false := by simpa using inside
    have top : enclosing path = "" := by rw [enclosing, uncut]
    rw [named, top, outward_root, String.ofList_toList]
    rfl

/-- What holds of the root, and of a path if it does of the enclosing one, holds of every path. -/
theorem outward_induction {motive : String → Prop} (root : motive "")
    (inside : ∀ path, path ≠ "" → motive (enclosing path) → motive path) (path : String) :
    motive path := by
  induction size : path.length using Nat.strongRecOn generalizing path with
  | ind size ih =>
    by_cases top : path = ""
    · exact top ▸ root
    · exact inside path top (ih _ (size ▸ enclosing_length_lt top) _ rfl)

/-- The names of the scopes on the way to a path, from below the root down to its own. -/
def descent (path : String) : List String :=
  if path = "" then [] else descent (enclosing path) ++ [short path]
termination_by path.length
decreasing_by exact enclosing_length_lt (by assumption)

theorem descent_root : descent "" = [] := by
  rw [descent, if_pos rfl]

theorem descent_inside {path : String} (inside : path ≠ "") :
    descent path = descent (enclosing path) ++ [short path] := by
  rw [descent, if_neg inside]

/-- A path whose first segment is not empty and whose other segments begin with no colon. -/
def IsClear (path : String) : Prop :=
  ∃ first others, segments path = first :: others ∧ first ≠ "" ∧
    ∀ segment ∈ others, segment.toList.head? ≠ some ':'

/-- Nothing is left of a separator behind the last one. -/
theorem head_of_cutLast {path outer last : List Char} (found : cutLast path = some (outer, last)) :
    last.head? ≠ some ':' := by
  induction path generalizing outer last with
  | nil => cases found
  | cons c rest ih =>
    rw [cutLast] at found
    split at found
    · next inner =>
      cases found
      exact ih inner
    · next uncut =>
      split at found
      · next separator =>
        cases found
        intro third
        cases rest with
        | nil => cases third
        | cons d tail =>
          obtain ⟨-, second⟩ := separator
          have colon : d = ':' := by simpa using second
          rw [cutLast] at uncut
          split at uncut
          · cases uncut
          · rw [if_pos ⟨colon, third⟩] at uncut
            cases uncut
      · cases found

/-- A character that opens no separator goes to the segment under way. -/
theorem cut_ordinary {c : Char} {rest : List Char} (segment : List Char)
    (ordinary : ¬ (c = ':' ∧ rest.head? = some ':')) :
    cut segment (c :: rest) = cut (c :: segment) rest := by
  rw [cut]
  rintro tail rfl rfl
  exact ordinary ⟨rfl, rfl⟩

theorem cutLast_cons_none {c : Char} {rest : List Char} (uncut : cutLast rest = none) :
    cutLast (c :: rest) =
      if c = ':' ∧ rest.head? = some ':' then some ([], rest.tail) else none := by
  rw [cutLast, uncut]

theorem cutLast_cons_some {c : Char} {rest outer last : List Char}
    (found : cutLast rest = some (outer, last)) :
    cutLast (c :: rest) = some (c :: outer, last) := by
  rw [cutLast, found]

/-- The last separator is the last one of any ending that has one. -/
theorem cutLast_append (front : List Char) {back outer last : List Char}
    (found : cutLast back = some (outer, last)) :
    cutLast (front ++ back) = some (front ++ outer, last) := by
  induction front with
  | nil => exact found
  | cons c front ih => rw [List.cons_append, cutLast_cons_some ih, List.cons_append]

theorem cutLast_eq_none_iff {path : List Char} :
    cutLast path = none ↔ ¬ [':', ':'] <:+: path := by
  induction path with
  | nil => simp [cutLast]
  | cons c rest ih =>
    have opens : [':', ':'] <+: c :: rest ↔ c = ':' ∧ rest.head? = some ':' := by
      cases rest <;> simp [eq_comm]
    rw [List.infix_cons_iff, opens, not_or, ← ih]
    cases inner : cutLast rest with
    | some parts => simp [cutLast_cons_some inner]
    | none => simp [cutLast_cons_none inner]

theorem cut_of_uncut {path : List Char} (segment : List Char) (uncut : cutLast path = none) :
    cut segment path = [segment.reverse ++ path] := by
  induction path generalizing segment with
  | nil => simp [cut]
  | cons c rest ih =>
    cases inner : cutLast rest with
    | some parts =>
      rw [cutLast_cons_some inner] at uncut
      cases uncut
    | none =>
      rw [cutLast_cons_none inner] at uncut
      have ordinary : ¬ (c = ':' ∧ rest.head? = some ':') := by
        intro separator
        rw [if_pos separator] at uncut
        cases uncut
      rw [cut_ordinary segment ordinary, ih (c :: segment) inner]
      simp

/-- What is cut off behind it does not make a character open a separator. -/
theorem cut_ordinary_front {c : Char} {front back : List Char} (segment : List Char)
    (ordinary : ∀ tail, c = ':' → front ++ back = ':' :: tail → False) :
    cut segment (c :: front) = cut (c :: segment) front := by
  apply cut_ordinary
  rintro ⟨colon, second⟩
  obtain ⟨tail, shape⟩ := List.head?_eq_some_iff.mp second
  exact ordinary (tail ++ back) colon (by rw [shape, List.cons_append])

/-- Cutting from the left, seen from the last separator: the last name is the last segment, or one
more colon stands before it there. -/
theorem cut_of_cutLast (segment : List Char) {path outer last : List Char}
    (found : cutLast path = some (outer, last)) :
    cut segment path = cut segment outer ++ [last] ∨
      ∃ front, outer = front ++ [':'] ∧ cut segment path = cut segment front ++ [':' :: last] := by
  fun_induction cut segment path generalizing outer with
  | case1 segment rest ih =>
    cases inner : cutLast rest with
    | some parts =>
      obtain ⟨middle, name⟩ := parts
      rw [cutLast_cons_some (cutLast_cons_some inner)] at found
      cases found
      rcases ih inner with agree | ⟨front, shape, differ⟩
      · left
        rw [agree, cut, List.cons_append]
      · right
        refine ⟨':' :: ':' :: front, by rw [shape, List.cons_append, List.cons_append], ?_⟩
        rw [differ, cut, List.cons_append]
    | none =>
      have single : cut [] rest = [rest] := cut_of_uncut [] inner
      -- of three colons the left takes the first two, the right the last two
      by_cases third : rest.head? = some ':'
      · obtain ⟨tail, shape⟩ := List.head?_eq_some_iff.mp third
        have second := cutLast_cons_none (c := ':') inner
        rw [if_pos ⟨rfl, third⟩] at second
        rw [cutLast_cons_some second] at found
        cases found
        right
        refine ⟨[], rfl, ?_⟩
        rw [single, shape, cut]
        rfl
      · have second := cutLast_cons_none (c := ':') inner
        rw [if_neg (fun both => third both.2)] at second
        rw [cutLast_cons_none second, if_pos ⟨rfl, rfl⟩] at found
        cases found
        left
        rw [single, cut]
        rfl
  | case2 segment c rest ordinary ih =>
    cases inner : cutLast rest with
    | some parts =>
      obtain ⟨middle, name⟩ := parts
      have shape := cutLast_eq inner
      rw [cutLast_cons_some inner] at found
      cases found
      rcases ih inner with agree | ⟨front, middleShape, differ⟩
      · left
        rw [agree, cut_ordinary_front segment (shape ▸ ordinary)]
      · right
        refine ⟨c :: front, by rw [middleShape, List.cons_append], ?_⟩
        rw [middleShape, List.append_assoc] at shape
        rw [differ, cut_ordinary_front segment (shape ▸ ordinary)]
    | none =>
      rw [cutLast_cons_none inner, if_neg] at found
      · cases found
      · rintro ⟨colon, second⟩
        obtain ⟨tail, shape⟩ := List.head?_eq_some_iff.mp second
        exact ordinary tail colon shape
  | case3 segment => cases found

theorem segments_inside {path : String} (inside : path ≠ "") :
    segments path = (cut [] path.toList).map String.ofList := by
  rw [segments, if_neg]
  rwa [String.isEmpty_iff]

theorem cut_ne_nil (segment path : List Char) : cut segment path ≠ [] := by
  fun_induction cut segment path with
  | case1 segment rest ih => exact List.cons_ne_nil _ _
  | case2 segment c rest ordinary ih => exact ih
  | case3 segment => exact List.cons_ne_nil _ _

/-- The segments of a path, seen from its last name. There is no separator; or it stands first, and
cuts off an empty segment from the left but nothing from the right; or the segments go on from those
of the enclosing path; or a colon is left over before the name, and only the left gives it to it. -/
theorem segments_cases {path : String} (inside : path ≠ "") :
    (segments path = [path] ∧ enclosing path = "" ∧ short path = path) ∨
    (segments path = ["", short path] ∧ enclosing path = "") ∨
    (segments path = segments (enclosing path) ++ [short path] ∧ enclosing path ≠ "" ∧
      (short path).toList.head? ≠ some ':') ∨
    ∃ first others, segments path = first :: others ++ [":" ++ short path] := by
  have pieces := segments_inside inside
  cases found : cutLast path.toList with
  | none =>
    refine Or.inl ⟨?_, by rw [enclosing, found], by rw [short, found]⟩
    rw [pieces, cut_of_uncut [] found]
    simp
  | some parts =>
    obtain ⟨outer, last⟩ := parts
    rw [enclosing_of_cutLast found, short_of_cutLast found, pieces]
    rcases cut_of_cutLast [] found with agree | ⟨front, -, differ⟩
    · by_cases top : outer = []
      · refine Or.inr (Or.inl ⟨?_, by rw [top]⟩)
        rw [agree, top, cut]
        rfl
      · have inner : String.ofList outer ≠ "" := by simpa using top
        refine Or.inr (Or.inr (Or.inl ⟨?_, inner, ?_⟩))
        · rw [agree, segments_inside inner, String.toList_ofList, List.map_append]
          rfl
        · rw [String.toList_ofList]
          exact head_of_cutLast found
    · obtain ⟨first, others, shape⟩ := List.exists_cons_of_ne_nil (cut_ne_nil [] front)
      refine Or.inr (Or.inr (Or.inr ⟨String.ofList first, others.map String.ofList, ?_⟩))
      rw [differ, shape, List.map_append]
      simp

/-- One more segment that begins with no colon. -/
theorem isClear_append {outer path last : String} (inside : outer ≠ "")
    (own : segments path = segments outer ++ [last]) (plain : last.toList.head? ≠ some ':') :
    IsClear path ↔ IsClear outer := by
  obtain ⟨first, others, shape⟩ : ∃ first others, segments outer = first :: others := by
    apply List.exists_cons_of_ne_nil
    simp [segments_inside inside, cut_ne_nil]
  simp only [IsClear, own, shape, List.cons_append, List.cons.injEq]
  constructor
  · rintro ⟨_, _, ⟨rfl, rfl⟩, named, clear⟩
    exact ⟨first, others, ⟨rfl, rfl⟩, named, fun segment member =>
      clear segment (List.mem_append_left _ member)⟩
  · rintro ⟨_, _, ⟨rfl, rfl⟩, named, clear⟩
    refine ⟨first, others ++ [last], ⟨rfl, rfl⟩, named, ?_⟩
    exact List.forall_mem_append.mpr ⟨clear, List.forall_mem_singleton.mpr plain⟩

/-- The names on the way to a scope are the segments of its path exactly when the path is clear. -/
theorem descent_eq_segments_iff {path : String} (inside : path ≠ "") :
    descent path = segments path ↔ IsClear path := by
  induction size : path.length using Nat.strongRecOn generalizing path with
  | ind size ih =>
    have shorter := enclosing_length_lt inside
    rw [descent_inside inside]
    -- the induction is needed only where the segments go on from those of the enclosing path
    rcases segments_cases inside with ⟨own, outer, name⟩ | ⟨own, outer⟩ | ⟨own, inner, plain⟩ |
      ⟨first, others, own⟩
    · rw [outer, name, descent_root, own]
      exact iff_of_true rfl ⟨path, [], own, inside, by simp⟩
    · refine iff_of_false ?_ ?_
      · rw [outer, descent_root, own]
        exact fun same => absurd (congrArg List.length same) (by simp)
      · rintro ⟨first, others, shape, named, -⟩
        rw [own] at shape
        exact named (List.cons.inj shape).1.symm
    · rw [own, List.append_left_inj, isClear_append inner own plain]
      exact ih _ (size ▸ shorter) inner rfl
    · refine iff_of_false ?_ ?_
      · rw [own]
        intro same
        have names := List.append_inj_right' same rfl
        have lengths := congrArg String.length (List.cons.inj names).1
        have colon : ":".length = 1 := rfl
        rw [String.length_append] at lengths
        omega
      · rintro ⟨head, tail, shape, -, clear⟩
        rw [own, List.cons_append, List.cons.injEq] at shape
        apply clear (":" ++ short path)
        · rw [← shape.2]
          exact List.mem_append_right _ (List.mem_singleton_self _)
        · simp

end FormatCompiler.Name
