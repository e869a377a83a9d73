import FormatCompiler.Proofs.PathPlace

/-!
Paths that lead down. A path descends if it is relative and, before its last piece, never goes up
further than it has come down. What is reached on such a path is below the place that it starts
from. Any other path leaves a directory that it starts in, unless it comes back by its name.
-/

namespace FormatCompiler

set_option autoImplicit false

namespace Path

/-- From some depth below a directory, the pieces never lead out of it. -/
def staysBelow : Nat → List String → Bool
  | _, [] => true
  | depth, piece :: rest =>
    if IsIdle piece then staysBelow depth rest
    else if piece = ".." then decide (0 < depth) && staysBelow (depth - 1) rest
    else staysBelow (depth + 1) rest

/-- The directories on the way to a file are all below the one that its path is relative to. -/
def descends (path : String) : Bool :=
  !isAbsolute path && staysBelow 0 (pieces path).dropLast

/-- Where the last piece leads makes no difference unless it leads up. -/
theorem staysBelow_concat (depth : Nat) (front : List String) {last : String} (down : last ≠ "..") :
    staysBelow depth (front ++ [last]) = staysBelow depth front := by
  fun_induction staysBelow depth front with
  | case1 => simp [staysBelow, down]
  | case2 depth piece rest idle ih => rw [List.cons_append, staysBelow, if_pos idle, ih]
  | case3 depth rest busy ih =>
    rw [List.cons_append, staysBelow, if_neg busy, if_pos rfl, ih]
  | case4 depth piece rest busy other ih =>
    rw [List.cons_append, staysBelow, if_neg busy, if_neg other, ih]

end Path

namespace Place

variable {pieces front : List String}

/-- Pieces that stay below a directory lead to places below it, however many are taken. -/
theorem isPrefix_travel (outer inner : Place)
    (below : Path.staysBelow inner.length pieces = true) (first : front <+: pieces) :
    outer <+: Place.travel (outer ++ inner) front := by
  induction pieces generalizing inner front with
  | nil =>
    rw [List.prefix_nil.mp first]
    exact List.prefix_append outer inner
  | cons piece rest ih =>
    cases front with
    | nil => exact List.prefix_append outer inner
    | cons head front =>
      obtain ⟨rfl, fewer⟩ := List.cons_prefix_cons.mp first
      rw [travel_cons]
      rw [Path.staysBelow] at below
      by_cases idle : Path.IsIdle head
      · rw [if_pos idle] at below
        rw [walk_idle idle]
        exact ih inner below fewer
      · rw [if_neg idle] at below
        by_cases up : head = ".."
        · rw [if_pos up, Bool.and_eq_true, decide_eq_true_eq] at below
          have deep : inner ≠ [] := List.length_pos_iff.mp below.1
          rw [up, walk_up, List.dropLast_append_of_ne_nil deep]
          exact ih inner.dropLast (by simpa using below.2) fewer
        · rw [if_neg up] at below
          rw [walk_name idle up, List.append_assoc]
          exact ih (inner ++ [head]) (by simpa using below) fewer

theorem not_mem_travel {name : String} {place : Place} (absent : name ∉ place)
    (unnamed : name ∉ pieces) : name ∉ place.travel pieces := by
  induction pieces generalizing place with
  | nil => exact absent
  | cons piece rest ih =>
    rw [List.mem_cons, not_or] at unnamed
    obtain ⟨apart, others⟩ := unnamed
    refine ih ?_ others
    unfold walk
    split
    · exact absent
    · split
      · exact fun member => absent (List.dropLast_subset _ member)
      · simp [absent, apart]

/-- Pieces that lead out of a directory do not come back to it unless they name it. -/
theorem not_mem_travel_of_climb {name : String} {inner : Place}
    (climbs : Path.staysBelow inner.length pieces = false) (absent : name ∉ inner)
    (unnamed : name ∉ pieces) : name ∉ Place.travel (name :: inner) pieces := by
  induction pieces generalizing inner with
  | nil => simp [Path.staysBelow] at climbs
  | cons piece rest ih =>
    rw [List.mem_cons, not_or] at unnamed
    obtain ⟨apart, others⟩ := unnamed
    rw [travel_cons]
    rw [Path.staysBelow] at climbs
    by_cases idle : Path.IsIdle piece
    · rw [if_pos idle] at climbs
      rw [walk_idle idle]
      exact ih climbs absent others
    · rw [if_neg idle] at climbs
      by_cases up : piece = ".."
      · rw [if_pos up] at climbs
        rw [up, walk_up]
        by_cases deep : inner = []
        · subst deep
          exact not_mem_travel (by simp) others
        · rw [List.dropLast_cons_of_ne_nil deep]
          refine ih ?_ (fun member => absent (List.dropLast_subset _ member)) others
          simpa [List.length_pos_iff.mpr deep] using climbs
      · rw [if_neg up] at climbs
        rw [walk_name idle up, List.cons_append]
        exact ih (by simpa using climbs) (by simp [absent, apart]) others

end Place

namespace Path

theorem IsNamed.join {path : String} {front : List String} {last : String}
    (named : IsNamed path front last) (base : String) :
    ∃ front, IsNamed (join base path) front last := by
  cases absolute : isAbsolute path with
  | true => exact ⟨front, (join_of_absolute base absolute).symm ▸ named⟩
  | false =>
    obtain ⟨lead, -, joined⟩ := pieces_join base
    refine ⟨lead ++ front, ?_, named.busy, named.down⟩
    rw [joined path absolute, named.pieces, List.append_assoc]

/-- What is put behind a name to make a file name of it. -/
structure IsEnding (ending : String) : Prop where
  plain : '/' ∉ ending.toList
  busy : ∃ c, ending.toList.getLast? = some c ∧ c ≠ '.'

variable {ending : String}

/-- The ending goes on with the last piece of a name. -/
theorem IsEnding.isNamed (isEnding : IsEnding ending) {name piece : String} {front : List String}
    (cut : pieces name = front ++ [piece]) : IsNamed (name ++ ending) front (piece ++ ending) := by
  obtain ⟨c, ends, other⟩ := isEnding.busy
  have last : (piece ++ ending).toList.getLast? = some c := by
    rw [String.toList_append, List.getLast?_append, ends]
    rfl
  have apart : ∀ text : String, text.toList.getLast? ≠ some c → piece ++ ending ≠ text := by
    rintro text different rfl
    exact different last
  refine ⟨pieces_append_plain isEnding.plain cut, ?_, ?_⟩
  · exact not_or.mpr ⟨apart "" (by simp), apart "." fun dot => other (Option.some.inj dot).symm⟩
  · exact apart ".." fun dot => other (Option.some.inj dot).symm

theorem IsEnding.exists_isNamed (isEnding : IsEnding ending) (name : String) :
    ∃ front last, IsNamed (name ++ ending) front last := by
  obtain ⟨front, piece, cut⟩ := exists_last name
  exact ⟨front, piece ++ ending, isEnding.isNamed cut⟩

theorem isAbsolute_append (plain : '/' ∉ ending.toList) (name : String) :
    isAbsolute (name ++ ending) = isAbsolute name := by
  have alone := isAbsolute_of_plain plain
  unfold isAbsolute at alone ⊢
  rw [String.toList_append]
  cases name.toList with
  | nil => exact alone
  | cons c rest => rfl

/-- Whether the path of a file descends does not depend on how the file name ends. -/
theorem descends_append (plain : '/' ∉ ending.toList) (folder name : String) :
    descends (join folder (name ++ ending)) = descends (join folder name) := by
  have longer := isAbsolute_append plain name
  cases absolute : isAbsolute name with
  | true =>
    rw [absolute] at longer
    rw [join_of_absolute folder longer, join_of_absolute folder absolute, descends, descends,
      longer, absolute]
    rfl
  | false =>
    rw [absolute] at longer
    obtain ⟨lead, -, joined⟩ := pieces_join folder
    obtain ⟨front, last, cut⟩ := exists_last name
    rw [descends, descends, isAbsolute_join folder longer, isAbsolute_join folder absolute,
      joined _ longer, joined name absolute, pieces_append_plain plain cut, cut,
      ← List.append_assoc, List.dropLast_concat, ← List.append_assoc, List.dropLast_concat]

/-- The path is relative and stays below where it starts, all of it. -/
def IsBelow (path : String) : Prop :=
  isAbsolute path = false ∧ staysBelow 0 (pieces path) = true

theorem IsBelow.join {folder word : String} (below : IsBelow folder) (plain : '/' ∉ word.toList) :
    descends (join folder word) = true ∧ (word ≠ ".." → IsBelow (join folder word)) := by
  have relative := isAbsolute_of_plain plain
  obtain ⟨lead, same, joined⟩ := pieces_join folder
  have stays : staysBelow 0 lead = true := by
    rcases same with rfl | same
    · exact below.2
    · rw [← staysBelow_concat 0 lead (by decide : "" ≠ ".."), same]
      exact below.2
  have absolute := (isAbsolute_join folder relative).trans below.1
  have spelled := joined word relative
  rw [pieces_of_plain plain] at spelled
  refine ⟨?_, fun down => ⟨absolute, ?_⟩⟩
  · rw [descends, absolute, spelled, List.dropLast_concat, stays]
    rfl
  · rw [spelled, staysBelow_concat 0 lead down]
    exact stays

theorem IsBelow.foldl_join {folder : String} {words : List String} (below : IsBelow folder)
    (plain : ∀ word ∈ words, '/' ∉ word.toList ∧ word ≠ "..") :
    IsBelow (words.foldl Path.join folder) := by
  induction words generalizing folder with
  | nil => exact below
  | cons word rest ih =>
    obtain ⟨clean, down⟩ := plain word List.mem_cons_self
    exact ih ((below.join clean).2 down) fun other member =>
      plain other (List.mem_cons_of_mem word member)

/-- The name of a directory that is no piece of a path: it is longer than the path. -/
def fresh (path : String) : String :=
  String.ofList (List.replicate (path.toList.length + 1) 'd')

theorem fresh_not_mem_pieces (path : String) : fresh path ∉ pieces path := by
  intro member
  have short := length_of_mem_cut member
  simp only [fresh, String.length_ofList, List.length_replicate, List.length_nil] at short
  omega

theorem isNamed_fresh (path : String) : IsNamed (fresh path) [] (fresh path) := by
  have spelled : (fresh path).toList = 'd' :: List.replicate path.toList.length 'd' := by
    simp [fresh, List.replicate_succ]
  have plain : '/' ∉ (fresh path).toList := by
    simp [spelled, List.mem_replicate]
  have other : ∀ text : String, text.toList.head? ≠ some 'd' → fresh path ≠ text := by
    rintro text different rfl
    simp [spelled] at different
  refine ⟨?_, ?_, other ".." (by decide)⟩
  · exact pieces_of_plain plain
  · exact not_or.mpr ⟨other "" (by decide), other "." (by decide)⟩

end Path

namespace Disk

/-- Places that a path leads through, from where it starts to where it ends. -/
def LeadsThrough (disk : Disk) (path : String) (place : Place) : Prop :=
  ∃ front, front <+: Path.pieces path ∧ place = (disk.origin path).travel front

/-- A single name leads through nothing but where it starts and where it ends. -/
theorem leadsThrough_cases {disk : Disk} {path last : String} {place : Place}
    (alone : Path.pieces path = [last]) (through : disk.LeadsThrough path place) :
    place = disk.origin path ∨ place = disk.place path := by
  obtain ⟨front, shorter, rfl⟩ := through
  rw [alone] at shorter
  rcases List.prefix_cons_iff.mp shorter with rfl | ⟨tail, rfl, rest⟩
  · exact .inl rfl
  · rw [List.prefix_nil.mp rest, place, alone]
    exact .inr rfl

section Joining

/-- A relative path goes on from where the directory is. -/
theorem exists_lead (disk : Disk) (directory : String) :
    ∃ lead, lead <+: Path.pieces directory ∧
      (disk.origin directory).travel lead = disk.place directory ∧
      ∀ path, Path.isAbsolute path = false →
        Path.pieces (Path.join directory path) = lead ++ Path.pieces path := by
  obtain ⟨lead, same, joined⟩ := Path.pieces_join directory
  refine ⟨lead, ?_, ?_, joined⟩
  · rcases same with rfl | same
    · exact List.prefix_rfl
    · exact ⟨[""], same⟩
  · rcases same with rfl | same
    · rfl
    · rw [place, ← same, Place.travel_append, Place.travel_cons, Place.walk_idle (.inl rfl),
        Place.travel_nil]

variable {path : String} (directory : String) (relative : Path.isAbsolute path = false)
include relative

theorem origin_join (disk : Disk) :
    disk.origin (Path.join directory path) = disk.origin directory := by
  rw [origin, Path.isAbsolute_join directory relative, origin]

theorem place_join (disk : Disk) :
    disk.place (Path.join directory path) = (disk.place directory).travel (Path.pieces path) := by
  obtain ⟨lead, -, there, joined⟩ := disk.exists_lead directory
  rw [place, disk.origin_join directory relative, joined path relative, Place.travel_append, there]

/-- The way to a file below a directory goes to the directory first. -/
theorem leads_join (disk : Disk) {front : List String}
    (first : front <+: (Path.pieces (Path.join directory path)).dropLast) :
    disk.LeadsThrough directory ((disk.origin directory).travel front) ∨
      ∃ inner, inner <+: (Path.pieces path).dropLast ∧
        (disk.origin directory).travel front = (disk.place directory).travel inner := by
  obtain ⟨lead, shorter, there, joined⟩ := disk.exists_lead directory
  rw [joined path relative, List.dropLast_append_of_ne_nil (Path.pieces_ne_nil path)] at first
  rcases List.prefix_or_prefix_of_prefix first (List.prefix_append lead _) with less | ⟨inner, rfl⟩
  · exact .inl ⟨front, less.trans shorter, rfl⟩
  · refine .inr ⟨inner, (List.prefix_append_right_inj lead).mp first, ?_⟩
    rw [Place.travel_append, there]

end Joining

section Descending

variable {path : String} {front : List String} (disk : Disk) (directory : String)
  (descends : Path.descends path = true)
include descends

/-- The way to a file whose path descends goes to the directory first and stays below it then. -/
theorem way_of_descends (first : front <+: (Path.pieces (Path.join directory path)).dropLast) :
    disk.place directory <+: (disk.origin (Path.join directory path)).travel front ∨
      disk.LeadsThrough directory ((disk.origin (Path.join directory path)).travel front) := by
  rw [Path.descends, Bool.and_eq_true, Bool.not_eq_true'] at descends
  obtain ⟨relative, below⟩ := descends
  rw [disk.origin_join directory relative]
  rcases disk.leads_join directory relative first with through | ⟨inner, fewer, same⟩
  · exact .inr through
  · have inside := Place.isPrefix_travel (disk.place directory) [] below fewer
    rw [List.append_nil, ← same] at inside
    exact .inl inside

theorem place_of_descends {last : String} (named : Path.IsNamed path front last) :
    disk.place directory <+: disk.place (Path.join directory path) := by
  rw [Path.descends, Bool.and_eq_true, Bool.not_eq_true', named.pieces, List.dropLast_concat,
    ← Path.staysBelow_concat 0 front named.down, ← named.pieces] at descends
  obtain ⟨relative, below⟩ := descends
  have inside := Place.isPrefix_travel (disk.place directory) [] below List.prefix_rfl
  rwa [List.append_nil, ← disk.place_join directory relative] at inside

end Descending

end Disk

end FormatCompiler
