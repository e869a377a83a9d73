import FormatCompiler.Disk.Basic

/-!
Where paths lead. An empty piece and a piece `.` stay where they are and `..` goes up, so a path
leads to one place whatever the disk holds. The directories that a path lies in are the places that
it leads through.
-/

namespace FormatCompiler

set_option autoImplicit false

/-- The piece leads nowhere. -/
def Path.IsIdle (piece : String) : Prop :=
  piece = "" ∨ piece = "."

instance : DecidablePred Path.IsIdle :=
  fun piece => inferInstanceAs (Decidable (piece = "" ∨ piece = "."))

/-- The pieces that lead somewhere. -/
def Path.moves (pieces : List String) : List String :=
  pieces.filter (¬ IsIdle ·)

theorem Path.moves_cons_idle {piece : String} (idle : IsIdle piece) (rest : List String) :
    moves (piece :: rest) = moves rest :=
  List.filter_cons_of_neg (by simpa using idle)

theorem Path.moves_cons_busy {piece : String} (busy : ¬ IsIdle piece) (rest : List String) :
    moves (piece :: rest) = piece :: moves rest :=
  List.filter_cons_of_pos (by simpa using busy)

/-- Where one piece leads. -/
def Place.walk (place : Place) (piece : String) : Place :=
  if Path.IsIdle piece then place
  else if piece = ".." then place.dropLast
  else place ++ [piece]

/-- Where some pieces lead, one after the other. -/
def Place.travel (place : Place) (pieces : List String) : Place :=
  pieces.foldl Place.walk place

/-- Where a path leads. -/
def Disk.place (disk : Disk) (path : String) : Place :=
  (disk.origin path).travel (Path.pieces path)

namespace Place

variable {place : Place} {piece : String}

@[simp] theorem travel_nil (place : Place) : place.travel [] = place := rfl

@[simp] theorem travel_cons (place : Place) (piece : String) (rest : List String) :
    place.travel (piece :: rest) = (place.walk piece).travel rest := rfl

@[simp] theorem travel_append (place : Place) (front back : List String) :
    place.travel (front ++ back) = (place.travel front).travel back :=
  List.foldl_append

theorem walk_idle (idle : Path.IsIdle piece) : place.walk piece = place :=
  if_pos idle

theorem walk_up (place : Place) : place.walk ".." = place.dropLast := rfl

theorem walk_name (busy : ¬ Path.IsIdle piece) (down : piece ≠ "..") :
    place.walk piece = place ++ [piece] := by
  rw [walk, if_neg busy, if_neg down]

theorem travel_moves (place : Place) (pieces : List String) :
    place.travel (Path.moves pieces) = place.travel pieces := by
  induction pieces generalizing place with
  | nil => rfl
  | cons piece rest ih =>
    by_cases idle : Path.IsIdle piece
    · rw [Path.moves_cons_idle idle, travel_cons, walk_idle idle, ih]
    · rw [Path.moves_cons_busy idle, travel_cons, travel_cons, ih]

theorem travel_congr (place : Place) {pieces others : List String}
    (same : Path.moves pieces = Path.moves others) : place.travel pieces = place.travel others := by
  rw [← travel_moves, same, travel_moves]

end Place

namespace Path

theorem moves_append (front back : List String) :
    moves (front ++ back) = moves front ++ moves back :=
  List.filter_append front back

/-- Empty pieces lead nowhere. -/
theorem moves_filter (pieces : List String) : moves (pieces.filter (· != "")) = moves pieces := by
  rw [moves, List.filter_filter]
  refine List.filter_congr fun piece _ => ?_
  simp only [IsIdle]
  grind

theorem reverse_filter_pieces {path last : String} {front : List String}
    (spelled : pieces path = front ++ [last]) (busy : last ≠ "") :
    ((pieces path).filter (· != "")).reverse = last :: (front.filter (· != "")).reverse := by
  rw [spelled, List.filter_append, List.filter_cons_of_pos (by simpa using busy)]
  simp

section Cutting

theorem cut_ne_nil (piece text : List Char) : cut piece text ≠ [] := by
  fun_induction cut piece text <;> simp_all

/-- Cutting at a slash that is known. -/
theorem cut_append_slash (piece front back : List Char) :
    cut piece (front ++ '/' :: back) = cut piece front ++ cut [] back := by
  fun_induction cut piece front with
  | case1 piece => simp [cut]
  | case2 piece rest ih => simp [cut, ih]
  | case3 piece c rest other ih => simp [cut, other, ih]

theorem cut_plain (piece : List Char) {word : List Char} (plain : '/' ∉ word) :
    cut piece word = [String.ofList (piece.reverse ++ word)] := by
  induction word generalizing piece with
  | nil => simp [cut]
  | cons c rest ih =>
    have other : c ≠ '/' := fun slash => plain (slash ▸ List.mem_cons_self)
    rw [cut, if_neg other, ih _ fun member => plain (List.mem_cons_of_mem c member)]
    simp

/-- A word without a slash goes on with the last piece. -/
theorem cut_append_plain {piece text word : List Char} {front : List String} {last : String}
    (plain : '/' ∉ word) (pieces : cut piece text = front ++ [last]) :
    cut piece (text ++ word) = front ++ [last ++ String.ofList word] := by
  fun_induction cut piece text generalizing front with
  | case1 piece =>
    cases front with
    | nil =>
      obtain ⟨rfl, -⟩ := List.cons.inj pieces
      simp [cut_plain piece plain]
    | cons first front => simp at pieces
  | case2 piece rest ih =>
    cases front with
    | nil => exact absurd (List.cons.inj pieces).2 (cut_ne_nil [] rest)
    | cons first front =>
      obtain ⟨rfl, same⟩ := List.cons.inj pieces
      simp [cut, ih same]
  | case3 piece c rest other ih =>
    rw [List.cons_append, cut, if_neg other, ih pieces]

/-- The first piece goes on with what is held. -/
theorem exists_of_cut_cons {piece text : List Char} {first : String} {more : List String}
    (pieces : cut piece text = first :: more) :
    ∃ rest, first.toList = piece.reverse ++ rest := by
  fun_induction cut piece text with
  | case1 piece =>
    obtain ⟨rfl, -⟩ := List.cons.inj pieces
    exact ⟨[], by simp⟩
  | case2 piece rest ih =>
    obtain ⟨rfl, -⟩ := List.cons.inj pieces
    exact ⟨[], by simp⟩
  | case3 piece c rest other ih =>
    obtain ⟨more, same⟩ := ih pieces
    exact ⟨c :: more, by simp [same]⟩

theorem plain_of_mem_cut {piece text : List Char} {found : String} (plain : '/' ∉ piece)
    (member : found ∈ cut piece text) : '/' ∉ found.toList := by
  fun_induction cut piece text with
  | case1 piece => simp_all
  | case2 piece rest ih =>
    rcases List.mem_cons.mp member with rfl | member
    · simpa using plain
    · exact ih (by simp) member
  | case3 piece c rest other ih =>
    exact ih (by simp [plain, Ne.symm other]) member

theorem length_of_mem_cut {piece text : List Char} {found : String}
    (member : found ∈ cut piece text) : found.length ≤ piece.length + text.length := by
  fun_induction cut piece text with
  | case1 piece => simp_all
  | case2 piece rest ih =>
    rcases List.mem_cons.mp member with rfl | member
    · simp
    · have short := ih member
      simp only [List.length_nil, List.length_cons] at short ⊢
      omega
  | case3 piece c rest other ih =>
    have short := ih member
    simp only [List.length_cons] at short ⊢
    omega

end Cutting

theorem pieces_ne_nil (path : String) : pieces path ≠ [] :=
  cut_ne_nil [] path.toList

theorem exists_last (path : String) : ∃ front last, pieces path = front ++ [last] :=
  ⟨_, _, (List.dropLast_concat_getLast (pieces_ne_nil path)).symm⟩

theorem plain_of_mem_pieces {path piece : String} (member : piece ∈ pieces path) :
    '/' ∉ piece.toList :=
  plain_of_mem_cut (by simp) member

theorem pieces_append_slash (front back : String) :
    pieces (front ++ "/" ++ back) = pieces front ++ pieces back := by
  rw [pieces, String.toList_append, String.toList_append, List.append_assoc]
  exact cut_append_slash [] front.toList back.toList

theorem pieces_append_plain {path word last : String} {front : List String}
    (plain : '/' ∉ word.toList) (cut : pieces path = front ++ [last]) :
    pieces (path ++ word) = front ++ [last ++ word] := by
  have longer := cut_append_plain plain cut
  rwa [String.ofList_toList, ← String.toList_append] at longer

theorem isAbsolute_of_plain {word : String} (plain : '/' ∉ word.toList) :
    isAbsolute word = false := by
  have other : word.toList.head? ≠ some '/' := fun slash => plain (List.mem_of_head? slash)
  simpa [isAbsolute] using other

theorem pieces_of_plain {word : String} (plain : '/' ∉ word.toList) : pieces word = [word] := by
  rw [pieces, cut_plain [] plain]
  simp

/-- An absolute path starts with an empty piece, and this is not all of it. -/
theorem isAbsolute_iff (path : String) :
    isAbsolute path ↔ ∃ more, more ≠ [] ∧ pieces path = "" :: more := by
  unfold isAbsolute pieces
  cases text : path.toList with
  | nil => simp [cut]
  | cons c rest =>
    by_cases slash : c = '/'
    · subst slash
      simpa [cut] using cut_ne_nil [] rest
    · have busy : ∀ more, cut [c] rest ≠ "" :: more := by
        intro more same
        obtain ⟨rest, empty⟩ := exists_of_cut_cons same
        simp at empty
      simp [cut, slash, busy]

theorem pieces_intercalate {words : List String} (nonempty : words ≠ [])
    (plain : ∀ word ∈ words, '/' ∉ word.toList) :
    pieces (String.intercalate "/" words) = words := by
  induction words with
  | nil => exact absurd rfl nonempty
  | cons word words ih =>
    have alone := pieces_of_plain (plain word List.mem_cons_self)
    cases words with
    | nil => simpa using alone
    | cons next words =>
      rw [String.intercalate_cons_cons, pieces_append_slash, alone,
        ih (by simp) fun word member => plain word (List.mem_cons_of_mem _ member)]
      rfl

section Joining

/-- A relative path comes behind the pieces of the base. A slash at the end of the base makes up an
empty piece, which is not there any more. -/
theorem pieces_join (base : String) :
    ∃ front, (front = pieces base ∨ front ++ [""] = pieces base) ∧
      ∀ path, isAbsolute path = false → pieces (join base path) = front ++ pieces path := by
  by_cases empty : base.isEmpty
  · refine ⟨[], .inr ?_, fun path _ => ?_⟩
    · rw [String.isEmpty_iff.mp empty]
      rfl
    · rw [join, if_pos (by simp [empty]), List.nil_append]
  · by_cases ends : base.toList.getLast? == some '/'
    · obtain ⟨text, rfl⟩ : ∃ text, base = text ++ "/" := by
        obtain ⟨text, same⟩ := List.getLast?_eq_some_iff.mp (by simpa using ends)
        exact ⟨String.ofList text, String.toList_inj.mp (by simp [same])⟩
      refine ⟨pieces text, .inr ?_, fun path relative => ?_⟩
      · rw [← String.append_empty (s := text ++ "/"), pieces_append_slash]
        rfl
      · rw [join, if_neg (by simp [relative]), if_pos ends, pieces_append_slash]
    · refine ⟨pieces base, .inl rfl, fun path relative => ?_⟩
      rw [join, if_neg (by simpa [relative] using empty), if_neg ends, pieces_append_slash]

theorem isAbsolute_join (base : String) {path : String} (relative : isAbsolute path = false) :
    isAbsolute (join base path) = isAbsolute base := by
  unfold join
  rw [relative, Bool.false_or]
  split
  · next empty =>
    rw [relative, String.isEmpty_iff.mp empty]
    rfl
  · next busy =>
    obtain ⟨c, rest, spelled⟩ : ∃ c rest, base.toList = c :: rest :=
      List.exists_cons_of_ne_nil (by simpa using busy)
    unfold isAbsolute
    split <;> simp [spelled]

theorem join_of_absolute (base : String) {path : String} (absolute : isAbsolute path = true) :
    join base path = path := by
  rw [join, if_pos (by simp [absolute])]

end Joining

section Above

theorem dropIdle_suffix (pieces : List String) : dropIdle pieces <:+ pieces := by
  fun_induction dropIdle pieces with
  | case1 => exact List.suffix_rfl
  | case2 => exact List.nil_suffix
  | case3 => exact List.suffix_rfl
  | case4 piece next rest idle ih => exact ih.trans (List.suffix_cons piece _)
  | case5 => exact List.suffix_rfl

theorem dropIdle_ne (pieces : List String) : dropIdle pieces ≠ [""] := by
  fun_induction dropIdle pieces <;> simp_all

theorem head_of_dropIdle {pieces rest : List String} {piece : String}
    (trimmed : dropIdle pieces = piece :: rest) : piece ≠ "" := by
  fun_induction dropIdle pieces <;> simp_all

theorem dropIdle_dropIdle (pieces : List String) :
    dropIdle (dropIdle pieces) = dropIdle pieces := by
  fun_induction dropIdle pieces <;> simp_all [dropIdle]

theorem moves_dropIdle (pieces : List String) :
    moves (dropIdle pieces).reverse = moves pieces.reverse := by
  fun_induction dropIdle pieces with
  | case1 => rfl
  | case2 => rfl
  | case3 => rfl
  | case4 piece next rest idle ih =>
    rw [ih, List.reverse_cons (a := piece), moves_append, moves_cons_idle idle]
    exact (List.append_nil _).symm
  | case5 => rfl

/-- The path of the first pieces of another, without idle pieces at its end. -/
def upTo (path : String) (front : List String) : String :=
  spell (isAbsolute path) (dropIdle front.reverse)

/-- The paths above some pieces spell out fewer of them. -/
theorem exists_of_mem_above {absolute : Bool} {pieces : List String} {path : String}
    (member : path ∈ above absolute pieces) :
    ∃ piece rest, piece :: rest <:+ pieces ∧ path = spell absolute (dropIdle rest) := by
  fun_induction above absolute pieces with
  | case1 => simp at member
  | case2 piece outer ih =>
    rcases List.mem_cons.mp member with rfl | member
    · exact ⟨piece, outer, List.suffix_rfl, rfl⟩
    · obtain ⟨inner, rest, shorter, same⟩ := ih member
      exact ⟨inner, rest, (shorter.trans (dropIdle_suffix outer)).trans (List.suffix_cons piece _),
        same⟩

variable {path : String} {front : List String}

/-- The directories that a path lies in are the paths of fewer of its pieces. -/
theorem exists_of_mem_ancestors {around : String} (member : around ∈ ancestors path) :
    ∃ front, front <+: (pieces path).dropLast ∧ around = upTo path front := by
  obtain ⟨piece, rest, shorter, rfl⟩ := exists_of_mem_above member
  obtain ⟨back, whole⟩ := shorter.trans (dropIdle_suffix (pieces path).reverse)
  have spelled : pieces path = rest.reverse ++ piece :: back.reverse := by
    rw [← List.reverse_inj, ← whole]
    simp
  refine ⟨rest.reverse, ?_, by rw [upTo, List.reverse_reverse]⟩
  rw [spelled, List.dropLast_append_of_ne_nil (by simp)]
  exact List.prefix_append _ _

section First

variable (first : front <+: pieces path)
include first

theorem dropIdle_reverse_isPrefix : (dropIdle front.reverse).reverse <+: pieces path := by
  rw [← List.reverse_suffix, List.reverse_reverse]
  exact (dropIdle_suffix front.reverse).trans (List.reverse_suffix.mpr first)

/-- The first pieces are cut again as they were, unless they are all idle. -/
theorem pieces_upTo (nonempty : dropIdle front.reverse ≠ []) :
    pieces (upTo path front) = (dropIdle front.reverse).reverse := by
  have plain : ∀ word ∈ (dropIdle front.reverse).reverse, '/' ∉ word.toList :=
    fun word member => plain_of_mem_pieces ((dropIdle_reverse_isPrefix first).subset member)
  rw [← pieces_intercalate (by simpa using nonempty) plain, upTo]
  cases trimmed : dropIdle front.reverse with
  | nil => exact absurd trimmed nonempty
  | cons => rfl

theorem isAbsolute_upTo : isAbsolute (upTo path front) = isAbsolute path := by
  by_cases empty : dropIdle front.reverse = []
  · rw [upTo, empty]
    cases isAbsolute path <;> rfl
  · have trim := dropIdle_ne front.reverse
    obtain ⟨back, whole⟩ := dropIdle_reverse_isPrefix first
    rw [Bool.eq_iff_iff, isAbsolute_iff, isAbsolute_iff, pieces_upTo first empty, ← whole]
    constructor
    · rintro ⟨more, busy, same⟩
      exact ⟨more ++ back, by simp [busy], by simp [same]⟩
    · rintro ⟨more, -, same⟩
      obtain ⟨head, rest, spelled⟩ : ∃ head rest, (dropIdle front.reverse).reverse = head :: rest :=
        List.exists_cons_of_ne_nil (by simpa using empty)
      rw [spelled, List.cons_append] at same
      obtain ⟨rfl, -⟩ := List.cons.inj same
      refine ⟨rest, ?_, spelled⟩
      rintro rfl
      exact trim (List.reverse_eq_iff.mp spelled)

theorem upTo_upTo (other : List String) : upTo (upTo path front) other = upTo path other := by
  rw [upTo, isAbsolute_upTo first, upTo]

theorem moves_upTo : moves (pieces (upTo path front)) = moves front := by
  have same := moves_dropIdle front.reverse
  rw [List.reverse_reverse] at same
  rw [← same]
  by_cases empty : dropIdle front.reverse = []
  · rw [upTo, empty]
    cases isAbsolute path <;> rfl
  · rw [pieces_upTo first empty]

theorem ancestors_upTo :
    ancestors (upTo path front) = above (isAbsolute path) (dropIdle front.reverse) := by
  rw [ancestors, isAbsolute_upTo first]
  by_cases empty : dropIdle front.reverse = []
  · rw [upTo, empty]
    cases isAbsolute path <;> rfl
  · rw [pieces_upTo first empty, List.reverse_reverse, dropIdle_dropIdle]

end First

end Above

/-- The last piece of the path is the name of something. -/
structure IsNamed (path : String) (front : List String) (last : String) : Prop where
  pieces : pieces path = front ++ [last]
  busy : ¬ IsIdle last
  down : last ≠ ".."

namespace IsNamed

variable {path : String} {front : List String} {last : String}

theorem first (named : IsNamed path front last) : front <+: Path.pieces path :=
  ⟨[last], named.pieces.symm⟩

theorem ancestors (named : IsNamed path front last) :
    ancestors path = upTo path front :: Path.ancestors (upTo path front) := by
  have busy := named.busy
  have trimmed : dropIdle (Path.pieces path).reverse = last :: front.reverse := by
    rw [named.pieces, List.reverse_append, List.reverse_singleton, List.singleton_append]
    cases front.reverse with
    | nil => simp_all [dropIdle, IsIdle]
    | cons => simp_all [dropIdle, IsIdle]
  rw [Path.ancestors, trimmed, above, ancestors_upTo named.first]
  rfl

theorem parent (named : IsNamed path front last) : parent path = some (upTo path front) := by
  rw [Path.parent, named.ancestors, List.head?_cons]

end IsNamed

end Path

namespace Disk

variable {path : String} {front : List String}

theorem origin_upTo (disk : Disk) (first : front <+: Path.pieces path) :
    disk.origin (Path.upTo path front) = disk.origin path := by
  rw [origin, Path.isAbsolute_upTo first, origin]

theorem place_ne_nil (disk : Disk) {last : String} (named : Path.IsNamed path front last) :
    disk.place path ≠ [] := by
  rw [place, named.pieces, Place.travel_append, Place.travel_cons,
    Place.walk_name named.busy named.down]
  simp

/-- The first pieces of a path lead where they lead in the path. -/
theorem place_upTo (disk : Disk) (first : front <+: Path.pieces path) :
    disk.place (Path.upTo path front) = (disk.origin path).travel front := by
  rw [place, disk.origin_upTo first]
  exact Place.travel_congr _ (Path.moves_upTo first)

end Disk

end FormatCompiler
