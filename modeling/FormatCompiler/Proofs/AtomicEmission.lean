import FormatCompiler.Proofs.OutputDirectory

/-!
Files that are written one after the other. The files of a target lie in one directory, so once the
first of them is written the way to the others is open, and only a directory in its place or a disk
that refuses it can keep another file from being written. What is written stays if a later file
fails. Once all files are written, writing them again changes nothing, even if the disk refuses one.
-/

namespace FormatCompiler

set_option autoImplicit false

namespace Disk

/-! ### Ways that are open -/

/-- The pieces lead from a place through directories only, and to one. -/
def Walks (disk : Disk) (place : Place) (pieces : List String) : Prop :=
  ∀ front, front <+: pieces → disk.entry? (place.travel front) = some .directory

section Walking

variable {disk : Disk} {place : Place} {pieces : List String}

theorem Walks.start (walks : disk.Walks place pieces) : disk.entry? place = some .directory :=
  walks [] List.nil_prefix

theorem Walks.arrive (walks : disk.Walks place pieces) :
    disk.entry? (place.travel pieces) = some .directory :=
  walks pieces List.prefix_rfl

theorem Walks.take {front : List String} (walks : disk.Walks place pieces)
    (first : front <+: pieces) : disk.Walks place front :=
  fun inner prior => walks inner (prior.trans first)

theorem walks_cons {piece : String} {rest : List String} : disk.Walks place (piece :: rest) ↔
    disk.entry? place = some .directory ∧ disk.Walks (place.walk piece) rest := by
  constructor
  · intro walks
    refine ⟨walks.start, fun front first => ?_⟩
    exact walks (piece :: front) (List.cons_prefix_cons.mpr ⟨rfl, first⟩)
  · rintro ⟨start, walks⟩ front first
    cases front with
    | nil => exact start
    | cons head front =>
      obtain ⟨rfl, inner⟩ := List.cons_prefix_cons.mp first
      exact walks front inner

/-- A way is open if it can be followed to a directory. -/
theorem walks_iff_follow : disk.Walks place pieces ↔
    disk.follow place pieces = .ok (place.travel pieces) ∧
      disk.entry? (place.travel pieces) = some .directory := by
  induction pieces generalizing place with
  | nil =>
    refine ⟨fun walks => ⟨rfl, walks.start⟩, ?_⟩
    rintro ⟨-, there⟩ front first
    rwa [List.prefix_nil.mp first]
  | cons piece rest ih =>
    rw [walks_cons, ih]
    constructor
    · rintro ⟨there, followed, arrived⟩
      refine ⟨Except.bind_eq_ok_iff.mpr ⟨place.walk piece, ?_, followed⟩, arrived⟩
      rw [step_eq there, if_pos]
      refine .inr (.inr ?_)
      rw [(ih.mpr ⟨followed, arrived⟩).start]
      rfl
    · rintro ⟨followed, arrived⟩
      obtain ⟨next, stepped, behind⟩ := Except.bind_eq_ok_iff.mp followed
      obtain ⟨there, rfl⟩ := step_eq_ok stepped
      exact ⟨there, behind, arrived⟩

theorem walks_moves : disk.Walks place (Path.moves pieces) ↔ disk.Walks place pieces := by
  induction pieces generalizing place with
  | nil => rfl
  | cons piece rest ih =>
    by_cases idle : Path.IsIdle piece
    · rw [Path.moves_cons_idle idle, walks_cons, Place.walk_idle idle, ih]
      exact ⟨fun walks => ⟨walks.start, walks⟩, And.right⟩
    · rw [Path.moves_cons_busy idle, walks_cons, walks_cons, ih]

/-- Idle pieces make no difference to a way. -/
theorem walks_congr {others : List String} (same : Path.moves pieces = Path.moves others) :
    disk.Walks place pieces ↔ disk.Walks place others := by
  rw [← walks_moves, same, walks_moves]

/-- A file that is put where no directory was leaves a way open. -/
theorem Walks.put (walks : disk.Walks place pieces) {other : Place} (below : other ≠ [])
    (free : disk.entry? other ≠ some .directory) (entry : Entry) :
    (disk.put other entry).Walks place pieces := by
  intro front first
  have there := walks front first
  rw [disk.entry_put below, if_neg]
  · exact there
  · rintro rfl
    exact free there

end Walking

section Reaching

variable {disk : Disk} {path last : String} {front : List String}

theorem locateNew_of_walks (spelled : Path.pieces path = front ++ [last]) (busy : last ≠ "")
    (walks : disk.Walks (disk.origin path) front) :
    disk.locateNew path = .ok ((disk.origin path).travel front, last) := by
  obtain ⟨followed, there⟩ :=
    walks_iff_follow.mp ((walks_congr (Path.moves_filter front)).mpr walks)
  rw [Place.travel_congr _ (Path.moves_filter front)] at followed there
  unfold locateNew
  rw [Path.reverse_filter_pieces spelled busy]
  dsimp only
  rw [List.reverse_reverse, followed]
  refine Except.bind_eq_ok_iff.mpr ⟨_, rfl, ?_⟩
  rw [there]
  rfl

theorem isDirectory_of_walks (nonempty : path ≠ "")
    (walks : disk.Walks (disk.origin path) (Path.pieces path)) : disk.isDirectory path = true := by
  obtain ⟨followed, there⟩ := walks_iff_follow.mp walks
  unfold isDirectory locate
  rw [if_neg (by simpa using nonempty), followed]
  simp [there]

/-- Where the way is open, no directory has to be made. -/
theorem makeDirectories_of_walks (first : front <+: Path.pieces path)
    (walks : disk.Walks (disk.origin path) front) :
    disk.makeDirectories (Path.upTo path front) = ⟨disk, .ok ()⟩ := by
  have around : disk.Walks (disk.origin (Path.upTo path front))
      (Path.pieces (Path.upTo path front)) := by
    rw [disk.origin_upTo first]
    exact (walks_congr (Path.moves_upTo first)).mpr walks
  unfold makeDirectories
  by_cases empty : Path.upTo path front = ""
  · rw [empty]
    rfl
  · have there := isDirectory_of_walks empty around
    have present : disk.makeDirectory (Path.upTo path front) = .error .exists := by
      cases trimmed : Path.dropIdle front.reverse with
      | nil =>
        have root : Path.upTo path front = "/" := by
          rw [Path.upTo, trimmed] at empty ⊢
          cases absolute : Path.isAbsolute path with
          | true => rfl
          | false => simp [absolute, Path.spell] at empty
        rw [root]
        rfl
      | cons piece outer =>
        have spelled : Path.pieces (Path.upTo path front) = outer.reverse ++ [piece] := by
          rw [Path.pieces_upTo first (by simp [trimmed]), trimmed, List.reverse_cons]
        rw [spelled] at around
        have outside := around.take (List.prefix_append _ _)
        rw [makeDirectory_of_located
          (locateNew_of_walks spelled (Path.head_of_dropIdle trimmed) outside), if_pos]
        by_cases special : piece = "." ∨ piece = ".."
        · exact special.imp_right .inl
        · obtain ⟨dot, down⟩ := not_or.mp special
          have inside := around.arrive
          rw [Place.travel_append, Place.travel_cons, Place.travel_nil,
            Place.walk_name (not_or.mpr ⟨Path.head_of_dropIdle trimmed, dot⟩) down] at inside
          refine .inr (.inr ?_)
          rw [inside]
          rfl
    rw [makeChain_of_found empty (by simp [present])]
    exact ensureDirectory_of_there present there

theorem place_of_named (named : Path.IsNamed path front last) :
    disk.place path = (disk.origin path).travel front ++ [last] := by
  rw [Disk.place, named.pieces, Place.travel_append, Place.travel_cons, Place.travel_nil,
    Place.walk_name named.busy named.down]

/-- What keeps a file from being written where the way to it is open. -/
inductive Blocks (disk : Disk) (place : Place) (file : Entry) : DiskFault → Prop where
  | refusal {reason : String} (refused : disk.refusal? place file = some reason) :
    Blocks disk place file (.refused reason)
  | directory (taken : disk.refusal? place file = none)
    (there : disk.entry? place = some .directory) : Blocks disk place file .isDirectory

theorem blocks_or_free (disk : Disk) (place : Place) (file : Entry) :
    (∃ fault, disk.Blocks place file fault) ∨
      disk.refusal? place file = none ∧ disk.entry? place ≠ some .directory := by
  cases refused : disk.refusal? place file with
  | some reason => exact .inl ⟨_, .refusal refused⟩
  | none =>
    by_cases there : disk.entry? place = some .directory
    · exact .inl ⟨_, .directory refused there⟩
    · exact .inr ⟨rfl, there⟩

section Writing

variable (named : Path.IsNamed path front last) (walks : disk.Walks (disk.origin path) front)
  {bytes : List UInt8}
include named walks

theorem locateNew_of_named :
    disk.locateNew path = .ok ((disk.origin path).travel front, last) :=
  locateNew_of_walks named.pieces (fun empty => named.busy (.inl empty)) walks

theorem write_of_blocks {fault : DiskFault}
    (blocks : disk.Blocks (disk.place path) (.file bytes) fault) :
    disk.write path bytes = .error fault := by
  rw [place_of_named named] at blocks
  refine Except.bind_eq_error_iff.mpr (.inr ⟨_, locateNew_of_named named walks, ?_⟩)
  cases blocks with
  | refusal refused =>
    refine Except.bind_eq_error_iff.mpr (.inl ?_)
    rw [offer, refused]
  | directory taken there =>
    refine Except.bind_eq_error_iff.mpr (.inr ⟨_, offer_eq_ok_iff.mpr ⟨taken, rfl⟩, ?_⟩)
    rw [there]
    rfl

/-- Where the way is open, nothing else keeps a file from being written. -/
theorem write_of_free (taken : disk.refusal? (disk.place path) (.file bytes) = none)
    (free : disk.entry? (disk.place path) ≠ some .directory) :
    disk.write path bytes = .ok (disk.put (disk.place path) (.file bytes)) := by
  rw [place_of_named named] at taken free ⊢
  refine Except.bind_eq_ok_iff.mpr ⟨_, locateNew_of_named named walks, ?_⟩
  refine Except.bind_eq_ok_iff.mpr ⟨_, offer_eq_ok_iff.mpr ⟨taken, rfl⟩, ?_⟩
  split
  · next blocked => exact absurd blocked free
  · rfl

end Writing

/-- A file that is written shows that the way to it is open, and that it is free. -/
theorem walks_of_write (named : Path.IsNamed path front last) {bytes : List UInt8} {made : Disk}
    (done : disk.write path bytes = .ok made) :
    disk.Walks (disk.origin path) front ∧ disk.entry? (disk.place path) ≠ some .directory := by
  have walks : disk.Walks (disk.origin path) front := by
    obtain ⟨⟨around, name⟩, located, -⟩ := Except.bind_eq_ok_iff.mp done
    unfold locateNew at located
    rw [Path.reverse_filter_pieces named.pieces fun empty => named.busy (.inl empty)] at located
    obtain ⟨place, followed, checked⟩ := Except.bind_eq_ok_iff.mp located
    rw [List.reverse_reverse] at followed
    obtain rfl := follow_eq_ok followed
    rw [← walks_congr (Path.moves_filter front), walks_iff_follow]
    refine ⟨followed, ?_⟩
    split at checked
    · assumption
    · cases checked
    · cases checked
  refine ⟨walks, fun there => ?_⟩
  rcases disk.blocks_or_free (disk.place path) (.file bytes) with ⟨fault, blocks⟩ | ⟨-, free⟩
  · rw [write_of_blocks named walks blocks] at done
    cases done
  · exact free there

end Reaching

/-! ### Several entries -/

/-- Puts entries at their places, one after the other. -/
def putAll (disk : Disk) (files : List (Place × Entry)) : Disk :=
  files.foldl (fun disk file => disk.put file.1 file.2) disk

section Putting

variable {disk : Disk} {files : List (Place × Entry)}

theorem here_putAll (disk : Disk) (files : List (Place × Entry)) :
    (disk.putAll files).here = disk.here := by
  induction files generalizing disk with
  | nil => rfl
  | cons file rest ih => exact ih (disk.put file.1 file.2)

theorem refuses_putAll (disk : Disk) (files : List (Place × Entry)) :
    (disk.putAll files).refuses = disk.refuses := by
  induction files generalizing disk with
  | nil => rfl
  | cons file rest ih => exact ih (disk.put file.1 file.2)

theorem entries_putAll (apart : (files.map Prod.fst).Nodup) :
    (disk.putAll files).entries =
      files.reverse ++ disk.entries.filter (·.1 ∉ files.map Prod.fst) := by
  induction files generalizing disk with
  | nil => simp [putAll]
  | cons file rest ih =>
    obtain ⟨fresh, apart⟩ := List.nodup_cons.mp apart
    have kept : ∀ entry : Place × Entry, (decide (entry.1 ∉ rest.map Prod.fst) &&
        entry.1 != file.1) = decide (entry.1 ∉ (file :: rest).map Prod.fst) := by
      intro entry
      rw [Bool.eq_iff_iff]
      simp [not_or, and_comm]
    calc (disk.putAll (file :: rest)).entries
        = rest.reverse ++ (disk.put file.1 file.2).entries.filter (·.1 ∉ rest.map Prod.fst) :=
          ih apart
      _ = rest.reverse ++ file :: (disk.entries.filter (·.1 != file.1)).filter
            (·.1 ∉ rest.map Prod.fst) := by
          rw [put, List.filter_cons_of_pos (by simpa using fresh)]
      _ = (file :: rest).reverse ++
            disk.entries.filter (·.1 ∉ (file :: rest).map Prod.fst) := by
          rw [List.filter_filter, List.reverse_cons, List.append_assoc]
          simp only [kept]
          rfl

/-- Putting the same entries again changes nothing. -/
theorem putAll_putAll (apart : (files.map Prod.fst).Nodup) :
    (disk.putAll files).putAll files = disk.putAll files := by
  apply Disk.ext
  · exact here_putAll _ files
  · have gone : files.reverse.filter (·.1 ∉ files.map Prod.fst) = [] := by
      rw [List.filter_eq_nil_iff]
      intro file member
      simpa using ⟨file.2, List.mem_reverse.mp member⟩
    rw [entries_putAll apart, entries_putAll apart, List.filter_append, gone, List.nil_append,
      List.filter_filter]
    simp only [Bool.and_self]
  · exact refuses_putAll _ files

theorem entry_putAll_other {place : Place} (below : ∀ file ∈ files, file.1 ≠ [])
    (other : ∀ file ∈ files, place ≠ file.1) :
    Disk.entry? (disk.putAll files) place = disk.entry? place := by
  induction files generalizing disk with
  | nil => rfl
  | cons file rest ih =>
    obtain ⟨low, below⟩ := List.forall_mem_cons.mp below
    obtain ⟨away, other⟩ := List.forall_mem_cons.mp other
    change Disk.entry? ((disk.put file.1 file.2).putAll rest) place = _
    rw [ih below other, disk.entry_put low, if_neg away]

theorem entry_putAll (disk : Disk) (below : ∀ file ∈ files, file.1 ≠ [])
    (apart : (files.map Prod.fst).Nodup) {file : Place × Entry} (member : file ∈ files) :
    Disk.entry? (disk.putAll files) file.1 = some file.2 := by
  induction files generalizing disk with
  | nil => cases member
  | cons first rest ih =>
    obtain ⟨low, deeper⟩ := List.forall_mem_cons.mp below
    obtain ⟨fresh, others⟩ := List.nodup_cons.mp apart
    change Disk.entry? ((disk.put first.1 first.2).putAll rest) file.1 = _
    rcases List.mem_cons.mp member with rfl | member
    · rw [entry_putAll_other deeper, disk.entry_put low, if_pos rfl]
      intro other listed same
      exact fresh (same ▸ List.mem_map_of_mem listed)
    · exact ih (disk.put first.1 first.2) deeper others member

/-- Putting entries where they already are makes no difference. -/
theorem entry_putAll_there (below : ∀ file ∈ files, file.1 ≠ [])
    (there : ∀ file ∈ files, disk.entry? file.1 = some file.2) (place : Place) :
    Disk.entry? (disk.putAll files) place = disk.entry? place := by
  induction files generalizing disk with
  | nil => rfl
  | cons file rest ih =>
    obtain ⟨low, below⟩ := List.forall_mem_cons.mp below
    obtain ⟨first, there⟩ := List.forall_mem_cons.mp there
    have same : ∀ other, Disk.entry? (disk.put file.1 file.2) other = disk.entry? other := by
      intro other
      rw [disk.entry_put low]
      split
      · next here => rw [here, first]
      · rfl
    refine (ih below fun other member => ?_).trans (same place)
    rw [same, there other member]

end Putting

end Disk

section Steps

variable {disk after : Disk} {directory : String} {artifact : Artifact} {rest : List Artifact}

theorem writeArtifacts_of_error {fault : EmitFault}
    (failed : artifact.write disk directory = ⟨after, .error fault⟩) :
    writeArtifacts disk directory (artifact :: rest) = ⟨after, .error fault⟩ := by
  unfold writeArtifacts
  simp only [failed]

theorem writeArtifacts_of_ok {path : String}
    (done : artifact.write disk directory = ⟨after, .ok path⟩) :
    writeArtifacts disk directory (artifact :: rest) =
      ⟨(writeArtifacts after directory rest).disk,
        (writeArtifacts after directory rest).result.map (path :: ·)⟩ := by
  rw [writeArtifacts]
  simp only [done]

end Steps

/-- The file of an artifact, with its place. -/
def Artifact.file (artifact : Artifact) (directory : String) (disk : Disk) : Place × Entry :=
  (disk.place (Path.join directory artifact.path),
    .file (Text.Utf8.encode artifact.content.toList))

theorem Artifact.place_file (artifact : Artifact) (directory : String) (disk : Disk) :
    (artifact.file directory disk).1 = disk.place (Path.join directory artifact.path) := by
  rw [file]

theorem Artifact.file_eq (artifact : Artifact) (directory : String) {disk other : Disk}
    (here : other.here = disk.here) :
    artifact.file directory other = artifact.file directory disk := by
  rw [file, file, Disk.place_eq here]

/-- The disk has refused one of some files, and nothing on it is different. -/
def Outcome.IsRefusal (outcome : Outcome EmitFault (List String)) (directory : String)
    (artifacts : List Artifact) (before : Disk) : Prop :=
  ∃ artifact ∈ artifacts, ∃ reason,
    before.refuses outcome.disk.entries (artifact.file directory before).1
      (artifact.file directory before).2 = some reason ∧
    outcome.result = .error (.file (Path.join directory artifact.path) (.refused reason)) ∧
    ∀ place, outcome.disk.entry? place = before.entry? place

/-- Files of one directory, each with a name of its own. -/
structure Siblings (directory : String) (absolute : Bool) (front : List String)
    (artifacts : List Artifact) : Prop where
  named : ∀ artifact ∈ artifacts,
    ∃ last, Path.IsNamed (Path.join directory artifact.path) front last
  absolute : ∀ artifact ∈ artifacts,
    Path.isAbsolute (Path.join directory artifact.path) = absolute
  apart : (artifacts.map fun artifact => Path.pieces (Path.join directory artifact.path)).Nodup

namespace Siblings

variable {directory : String} {absolute : Bool} {front : List String} {artifact : Artifact}
  {artifacts : List Artifact} {disk : Disk}

theorem tail (siblings : Siblings directory absolute front (artifact :: artifacts)) :
    Siblings directory absolute front artifacts :=
  ⟨fun other member => siblings.named other (List.mem_cons_of_mem artifact member),
    fun other member => siblings.absolute other (List.mem_cons_of_mem artifact member),
    (List.nodup_cons.mp siblings.apart).2⟩

/-- Where relative paths start, or absolute ones. -/
def start (disk : Disk) (absolute : Bool) : Place :=
  if absolute then [] else disk.here

theorem origin (siblings : Siblings directory absolute front artifacts) (disk : Disk)
    (member : artifact ∈ artifacts) :
    disk.origin (Path.join directory artifact.path) = start disk absolute := by
  rw [Disk.origin, siblings.absolute artifact member, start]

theorem below (siblings : Siblings directory absolute front artifacts) (disk : Disk) :
    ∀ file ∈ artifacts.map (·.file directory disk), file.1 ≠ [] := by
  intro file member
  obtain ⟨artifact, listed, rfl⟩ := List.mem_map.mp member
  obtain ⟨last, named⟩ := siblings.named artifact listed
  exact disk.place_ne_nil named

theorem place (siblings : Siblings directory absolute front artifacts) (disk : Disk)
    (member : artifact ∈ artifacts) : ∃ last, Path.pieces (Path.join directory artifact.path) =
      front ++ [last] ∧
        disk.place (Path.join directory artifact.path) =
          (start disk absolute).travel front ++ [last] := by
  obtain ⟨last, named⟩ := siblings.named artifact member
  exact ⟨last, named.pieces, by rw [Disk.place_of_named named, siblings.origin disk member]⟩

theorem places_nodup (siblings : Siblings directory absolute front artifacts) (disk : Disk) :
    ((artifacts.map (·.file directory disk)).map Prod.fst).Nodup := by
  have apart := siblings.apart
  rw [List.Nodup, List.pairwise_map] at apart
  rw [List.map_map, List.Nodup, List.pairwise_map]
  refine apart.imp_of_mem ?_
  intro first second member other different same
  obtain ⟨name, spelled, placed⟩ := siblings.place disk member
  obtain ⟨last, spelled', placed'⟩ := siblings.place disk other
  rw [Function.comp_apply, Function.comp_apply, Artifact.place_file, Artifact.place_file, placed,
    placed'] at same
  rw [spelled, spelled', List.append_cancel_left same] at different
  exact different rfl

section Open

variable (siblings : Siblings directory absolute front artifacts) (member : artifact ∈ artifacts)
  (walks : disk.Walks (start disk absolute) front)
include siblings member walks

theorem write_of_blocks {cause : DiskFault} (blocks : disk.Blocks (artifact.file directory disk).1
      (artifact.file directory disk).2 cause) :
    artifact.write disk directory =
      ⟨disk, .error (.file (Path.join directory artifact.path) cause)⟩ := by
  obtain ⟨last, named⟩ := siblings.named artifact member
  rw [← siblings.origin disk member] at walks
  unfold Artifact.write
  simp only [named.parent, Option.getD_some, Disk.makeDirectories_of_walks named.first walks,
    Disk.write_of_blocks named walks blocks]

theorem write_of_free
    (taken : disk.refusal? (artifact.file directory disk).1 (artifact.file directory disk).2 = none)
    (free : disk.entry? (artifact.file directory disk).1 ≠ some .directory) :
    artifact.write disk directory =
      ⟨disk.put (artifact.file directory disk).1 (artifact.file directory disk).2,
        .ok (Path.join directory artifact.path)⟩ := by
  obtain ⟨last, named⟩ := siblings.named artifact member
  rw [← siblings.origin disk member] at walks
  unfold Artifact.write
  simp only [named.parent, Option.getD_some, Disk.makeDirectories_of_walks named.first walks,
    Disk.write_of_free named walks taken free]
  rfl

end Open

/-- Where the way is open, files are written up to the first that is kept from it. -/
theorem writeArtifacts_of_walks (siblings : Siblings directory absolute front artifacts)
    (walks : disk.Walks (start disk absolute) front) :
    ∃ done rest, artifacts = done ++ rest ∧
      (writeArtifacts disk directory artifacts).disk =
        disk.putAll (done.map (·.file directory disk)) ∧
      (writeArtifacts disk directory artifacts).disk.Walks (start disk absolute) front ∧
      (rest = [] ∧ (writeArtifacts disk directory artifacts).result =
          .ok (artifacts.map fun artifact => Path.join directory artifact.path) ∨
        ∃ next more cause, rest = next :: more ∧
          (writeArtifacts disk directory artifacts).result =
            .error (.file (Path.join directory next.path) cause) ∧
          (writeArtifacts disk directory artifacts).disk.Blocks (next.file directory disk).1
            (next.file directory disk).2 cause) := by
  induction artifacts generalizing disk with
  | nil => exact ⟨[], [], rfl, rfl, walks, .inl ⟨rfl, rfl⟩⟩
  | cons artifact others ih =>
    rcases disk.blocks_or_free (artifact.file directory disk).1 (artifact.file directory disk).2
      with ⟨cause, blocks⟩ | ⟨taken, free⟩
    · rw [writeArtifacts_of_error (siblings.write_of_blocks List.mem_cons_self walks blocks)]
      exact ⟨[], artifact :: others, rfl, rfl, walks,
        .inr ⟨artifact, others, cause, rfl, rfl, blocks⟩⟩
    · rw [writeArtifacts_of_ok (siblings.write_of_free List.mem_cons_self walks taken free)]
      have below := siblings.below disk (artifact.file directory disk) List.mem_cons_self
      have still := walks.put below free (artifact.file directory disk).2
      obtain ⟨done, rest, rfl, disks, last, ends⟩ := ih siblings.tail still
      refine ⟨artifact :: done, rest, rfl, disks, last, ?_⟩
      rcases ends with ⟨rfl, result⟩ | ⟨next, more, cause, rfl, result, blocks⟩
      · exact .inl ⟨rfl, by rw [result]; rfl⟩
      · exact .inr ⟨next, more, cause, rfl, by rw [result]; rfl, blocks⟩

/-- A place that the paths of the files lead through. -/
def IsOnWay (disk : Disk) (absolute : Bool) (front : List String) (place : Place) : Prop :=
  ∃ inner, inner <+: front ∧ place = (start disk absolute).travel inner

/-- Writing a file makes directories on the way, and then the file or nothing. The file shows that
the way is open. -/
theorem write_cases (siblings : Siblings directory absolute front artifacts) (disk : Disk)
    (member : artifact ∈ artifacts) :
    ∃ ready, Disk.Grows (IsOnWay disk absolute front) disk ready ∧
      ((∃ fault, artifact.write disk directory = ⟨ready, .error fault⟩) ∨
        ready.Walks (start disk absolute) front ∧
          ready.entry? (artifact.file directory disk).1 ≠ some .directory ∧
          artifact.write disk directory = ⟨ready.put (artifact.file directory disk).1
            (artifact.file directory disk).2, .ok (Path.join directory artifact.path)⟩) := by
  obtain ⟨last, named⟩ := siblings.named artifact member
  have origin := siblings.origin disk member
  unfold Artifact.write Artifact.file
  generalize Path.join directory artifact.path = path at named origin
  simp only [named.parent, Option.getD_some]
  have grown := disk.makeDirectories_grows (Path.upTo path front)
  rw [← named.ancestors] at grown
  generalize disk.makeDirectories (Path.upTo path front) = ready at grown ⊢
  refine ⟨ready.disk, grown.mono ?_, ?_⟩
  · rintro place ⟨around, listed, rfl⟩
    obtain ⟨inner, first, rfl⟩ := Path.exists_of_mem_ancestors listed
    rw [disk.place_upTo (first.trans (List.dropLast_prefix _)), origin]
    rw [named.pieces, List.dropLast_concat] at first
    exact ⟨inner, first, rfl⟩
  · cases made : ready.result with
    | error fault => exact .inl ⟨_, rfl⟩
    | ok _ =>
      dsimp only
      cases written : ready.disk.write path (Text.Utf8.encode artifact.content.toList) with
      | error fault => exact .inl ⟨_, rfl⟩
      | ok after =>
        have same : ready.disk.origin path = start disk absolute := by
          rw [← origin, Disk.origin, Disk.origin, grown.here]
        obtain ⟨walks, free⟩ := Disk.walks_of_write named written
        obtain ⟨-, rfl⟩ := Disk.write_of_named named written
        rw [Disk.place_eq grown.here] at free ⊢
        exact .inr ⟨same ▸ walks, free, rfl⟩

/-- Files are written up to the first that cannot be. Only the first of them finds the way closed,
so behind it something keeps a file from being written at its place. -/
theorem writeArtifacts_cases (siblings : Siblings directory absolute front artifacts)
    (disk : Disk) :
    ∃ ready done rest, artifacts = done ++ rest ∧
      Disk.Grows (IsOnWay disk absolute front) disk ready ∧
      (writeArtifacts disk directory artifacts).disk =
        ready.putAll (done.map (·.file directory disk)) ∧
      (rest = [] ∧ (writeArtifacts disk directory artifacts).result =
          .ok (artifacts.map fun artifact => Path.join directory artifact.path) ∧
        (artifacts = [] ∨
          (writeArtifacts disk directory artifacts).disk.Walks (start disk absolute) front) ∨
        ∃ next more fault, rest = next :: more ∧
          (writeArtifacts disk directory artifacts).result = .error fault ∧
          (done = [] ∨ ∃ cause, fault = .file (Path.join directory next.path) cause ∧
            (writeArtifacts disk directory artifacts).disk.write (Path.join directory next.path)
              (Text.Utf8.encode next.content.toList) = .error cause)) := by
  cases artifacts with
  | nil =>
    exact ⟨disk, [], [], rfl, .refl disk, rfl, .inl ⟨rfl, rfl, .inl rfl⟩⟩
  | cons artifact others =>
    obtain ⟨ready, grown, ⟨fault, failed⟩ | ⟨walks, free, written⟩⟩ :=
      siblings.write_cases disk List.mem_cons_self
    · rw [writeArtifacts_of_error failed]
      exact ⟨ready, [], artifact :: others, rfl, grown, rfl,
        .inr ⟨artifact, others, fault, rfl, rfl, .inl rfl⟩⟩
    · have below := siblings.below disk (artifact.file directory disk) List.mem_cons_self
      have still := walks.put below free (artifact.file directory disk).2
      have here : (ready.put (artifact.file directory disk).1
          (artifact.file directory disk).2).here = disk.here := grown.here
      have same : start (ready.put (artifact.file directory disk).1
          (artifact.file directory disk).2) absolute = start disk absolute := by
        rw [start, start, here]
      obtain ⟨done, rest, rfl, disks, last, ends⟩ :=
        siblings.tail.writeArtifacts_of_walks (same.symm ▸ still)
      simp only [Artifact.file_eq _ directory here, same] at disks last ends
      rw [writeArtifacts_of_ok written]
      refine ⟨ready, artifact :: done, rest, rfl, grown, disks, ?_⟩
      rcases ends with ⟨rfl, result⟩ | ⟨next, more, cause, rfl, result, blocks⟩
      · exact .inl ⟨rfl, by rw [result]; rfl, .inr last⟩
      · refine .inr ⟨next, more, _, rfl, by rw [result]; rfl, .inr ⟨cause, rfl, ?_⟩⟩
        have member : next ∈ artifact :: (done ++ next :: more) := by simp
        obtain ⟨name, named⟩ := siblings.named next member
        have here' := (congrArg Disk.here disks).trans ((Disk.here_putAll _ _).trans here)
        refine Disk.write_of_blocks named ?_ ?_
        · rwa [siblings.origin _ member, start, here']
        · rwa [Disk.place_eq here']

theorem take {done rest : List Artifact}
    (siblings : Siblings directory absolute front (done ++ rest)) :
    Siblings directory absolute front done := by
  refine ⟨fun other member => siblings.named other (List.mem_append_left _ member),
    fun other member => siblings.absolute other (List.mem_append_left _ member), ?_⟩
  have apart := siblings.apart
  rw [List.map_append] at apart
  exact apart.of_append_left

/-- Once the files are on a disk and the way is open, writing them again changes nothing. -/
theorem writeArtifacts_again (siblings : Siblings directory absolute front artifacts)
    (walks : disk.Walks (start disk absolute) front)
    (there : disk.putAll (artifacts.map (·.file directory disk)) = disk) :
    writeArtifacts disk directory artifacts =
        ⟨disk, .ok (artifacts.map fun artifact => Path.join directory artifact.path)⟩ ∨
      (writeArtifacts disk directory artifacts).IsRefusal directory artifacts disk := by
  have file : ∀ file ∈ artifacts.map (·.file directory disk),
      disk.entry? file.1 = some file.2 := by
    intro file member
    have found := Disk.entry_putAll disk (siblings.below disk) (siblings.places_nodup disk) member
    rwa [there] at found
  obtain ⟨done, rest, rfl, disks, -, ends⟩ := siblings.writeArtifacts_of_walks walks
  rcases ends with ⟨rfl, result⟩ | ⟨next, more, cause, rfl, result, blocks⟩
  · rw [List.append_nil] at there disks result ⊢
    rw [there] at disks
    exact .inl (Outcome.ext disks result)
  · have kept : ∀ place,
        Disk.entry? (writeArtifacts disk directory (done ++ next :: more)).disk place =
          disk.entry? place := by
      intro place
      rw [disks, Disk.entry_putAll_there (siblings.take.below disk)]
      intro other member
      apply file other
      rw [List.map_append]
      exact List.mem_append_left _ member
    have member : next ∈ done ++ next :: more := by simp
    cases blocks with
    | refusal refused =>
      have same := disk.refuses_putAll (done.map (·.file directory disk))
      rw [← disks] at same
      rw [Disk.refusal?, same] at refused
      exact .inr ⟨next, member, _, refused, result, kept⟩
    | directory taken blocked =>
      rw [kept, file _ (List.mem_map_of_mem member)] at blocked
      cases blocked

/-- Files that were written can be written again, to no effect. -/
theorem writeArtifacts_twice (siblings : Siblings directory absolute front artifacts)
    {paths : List String} (written : (writeArtifacts disk directory artifacts).result = .ok paths) :
    writeArtifacts (writeArtifacts disk directory artifacts).disk directory artifacts =
        writeArtifacts disk directory artifacts ∨
      (writeArtifacts (writeArtifacts disk directory artifacts).disk directory artifacts).IsRefusal
        directory artifacts (writeArtifacts disk directory artifacts).disk := by
  obtain ⟨ready, done, rest, rfl, grown, disks, ends⟩ := siblings.writeArtifacts_cases disk
  rcases ends with ⟨rfl, result, none | walks⟩ | ⟨next, more, fault, -, result, -⟩
  · rw [none]
    exact .inl rfl
  · rw [List.append_nil] at *
    have here : (writeArtifacts disk directory done).disk.here = disk.here := by
      rw [disks, Disk.here_putAll, grown.here]
    have same : start (writeArtifacts disk directory done).disk absolute = start disk absolute := by
      rw [start, start, here]
    have there : (writeArtifacts disk directory done).disk.putAll
        (done.map (·.file directory (writeArtifacts disk directory done).disk)) =
        (writeArtifacts disk directory done).disk := by
      simp only [Artifact.file_eq _ directory here]
      rw [disks, Disk.putAll_putAll (siblings.places_nodup disk)]
    refine (siblings.writeArtifacts_again (same.symm ▸ walks) there).imp_left fun again => ?_
    rw [again]
    exact Outcome.ext rfl result.symm
  · rw [result] at written
    cases written

end Siblings

/-! ### The files of a target -/

namespace Path

/-- Paths that go on alike with every ending. -/
def Alike (absolute : Bool) (front : List String) (stem : String) (paths : String → String) :
    Prop :=
  ∀ ending, IsEnding ending →
    IsNamed (paths ending) front (stem ++ ending) ∧ isAbsolute (paths ending) = absolute

theorem exists_alike (name : String) :
    ∃ front stem, Alike (isAbsolute name) front stem (name ++ ·) := by
  obtain ⟨front, stem, cut⟩ := exists_last name
  refine ⟨front, stem, fun ending isEnding => ?_⟩
  exact ⟨isEnding.isNamed cut, isAbsolute_append isEnding.plain name⟩

theorem Alike.join {absolute : Bool} {front : List String} {stem : String}
    {paths : String → String} (alike : Alike absolute front stem paths) (base : String) :
    ∃ absolute front, Alike absolute front stem fun ending => join base (paths ending) := by
  cases absolute with
  | true =>
    refine ⟨true, front, fun ending isEnding => ?_⟩
    dsimp only
    rw [join_of_absolute base (alike ending isEnding).2]
    exact alike ending isEnding
  | false =>
    obtain ⟨lead, -, joined⟩ := pieces_join base
    refine ⟨isAbsolute base, lead ++ front, fun ending isEnding => ?_⟩
    obtain ⟨named, relative⟩ := alike ending isEnding
    refine ⟨⟨?_, named.busy, named.down⟩, isAbsolute_join base relative⟩
    dsimp only
    rw [joined _ relative, named.pieces, List.append_assoc]

end Path

theorem Target.siblings (target : Target) (package : Option String) (module : Module)
    (directory : String) :
    ∃ absolute front, Siblings directory absolute front (target.artifacts package module) := by
  obtain ⟨front, stem, alike⟩ := Path.exists_alike module.root.name
  obtain ⟨absolute, front, alike⟩ := alike.join (target.folder package)
  obtain ⟨absolute, front, alike⟩ := alike.join directory
  have each : ∀ artifact ∈ target.artifacts package module, ∃ ending, Path.IsEnding ending ∧
      artifact.path = Path.join (target.folder package) (module.root.name ++ ending) :=
    fun artifact => exists_ending
  refine ⟨absolute, front, ?_, ?_, ?_⟩
  · intro artifact member
    obtain ⟨ending, isEnding, same⟩ := each artifact member
    exact ⟨stem ++ ending, same ▸ (alike ending isEnding).1⟩
  · intro artifact member
    obtain ⟨ending, isEnding, same⟩ := each artifact member
    exact same ▸ (alike ending isEnding).2
  · have spelled : (target.artifacts package module).map (fun artifact =>
        Path.pieces (Path.join directory artifact.path)) =
        target.endings.map fun ending => front ++ [stem ++ ending] := by
      have paths := congrArg (List.map fun path => Path.pieces (Path.join directory path))
        (target.paths_artifacts package module)
      rw [List.map_map, List.map_map] at paths
      rw [Function.comp_def, Function.comp_def] at paths
      refine paths.trans (List.map_congr_left fun ending member => ?_)
      rw [(alike ending (isEnding_of_mem member)).1.pieces]
    have different : target.endings.Nodup := by cases target <;> decide
    rw [spelled]
    refine different.map fun one other same => ?_
    simpa using same

theorem Format.exists_target {format : Format} {name : String} {package : Option String}
    {artifacts : List Artifact} (made : format.artifacts name package = .ok artifacts) :
    ∃ target module, name = Target.name target ∧ artifacts = target.artifacts package module := by
  cases known : Target.ofName? name with
  | none => simp [Format.artifacts, known] at made
  | some target =>
    rw [format.artifacts_of_known known] at made
    obtain ⟨module, -, rfl⟩ := Except.map_eq_ok_iff.mp made
    have same := List.find?_some known
    exact ⟨target, module, (beq_iff_eq.mp same).symm, rfl⟩

/-- The way to a path leads through a place. -/
def Disk.Passes (disk : Disk) (path : String) (place : Place) : Prop :=
  ∃ front, front <+: (Path.pieces path).dropLast ∧ place = (disk.origin path).travel front

/-- What is on a disk once some of the files of a target are written below a directory: these files,
what was at all other places, and directories that were missing on the way to the files. -/
structure Disk.Gains (directory : String) (artifacts written : List Artifact)
    (before after : Disk) : Prop where
  here : after.here = before.here
  refuses : after.refuses = before.refuses
  files : ∀ artifact ∈ written, after.entry? (before.place (Path.join directory artifact.path)) =
    some (.file (Text.Utf8.encode artifact.content.toList))
  others : ∀ place,
    (∀ artifact ∈ written, place ≠ before.place (Path.join directory artifact.path)) →
      after.entry? place = before.entry? place ∨
        before.entry? place = none ∧ after.entry? place = some .directory ∧
          ∀ artifact ∈ artifacts, before.Passes (Path.join directory artifact.path) place

theorem Siblings.gains {directory : String} {absolute : Bool} {front : List String}
    {done rest : List Artifact} {disk ready : Disk}
    (siblings : Siblings directory absolute front (done ++ rest))
    (grown : Disk.Grows (IsOnWay disk absolute front) disk ready) :
    Disk.Gains directory (done ++ rest) done disk
      (ready.putAll (done.map (·.file directory disk))) := by
  refine ⟨(Disk.here_putAll ready _).trans grown.here,
    (Disk.refuses_putAll ready _).trans grown.refuses, ?_, ?_⟩
  · intro artifact member
    have found := Disk.entry_putAll ready (siblings.take.below disk)
      (siblings.take.places_nodup disk) (List.mem_map_of_mem member)
    rwa [Artifact.place_file] at found
  · intro place other
    rw [Disk.entry_putAll_other (siblings.take.below disk)]
    · refine (grown.entry place).imp_right fun ⟨way, missing, made⟩ => ⟨missing, made, ?_⟩
      intro artifact member
      obtain ⟨inner, first, rfl⟩ := way
      obtain ⟨last, named⟩ := siblings.named artifact member
      refine ⟨inner, ?_, by rw [siblings.origin disk member]⟩
      rwa [named.pieces, List.dropLast_concat]
    · intro file member
      obtain ⟨artifact, listed, rfl⟩ := List.mem_map.mp member
      exact other artifact listed

/-- The first files of a target that has only some of its files written are the header. -/
theorem Target.eq_cppStl_of_two {target : Target} {package : Option String} {module : Module}
    {done rest : List Artifact} {next : Artifact} (begun : done ≠ [])
    (split : target.artifacts package module = done ++ next :: rest) :
    target = .cppStl ∧ done.length = 1 ∧ rest = [] := by
  have count := congrArg List.length (target.paths_artifacts package module)
  rw [List.length_map, List.length_map, split, List.length_append, List.length_cons] at count
  have positive := List.length_pos_iff.mpr begun
  have two : target.endings.length ≤ 2 ∧ (2 ≤ target.endings.length → target = .cppStl) := by
    cases target <;> decide
  have none : rest.length = 0 := by omega
  exact ⟨two.2 (by omega), by omega, List.length_eq_zero_iff.mp none⟩

/-- Emission writes the files of a target in their order. A failed one leaves the disk as it was,
apart from directories on the way to the files, unless the source of `cpp_stl` cannot be written
behind its header: then the header is written. After one that succeeds all files are there, and
nothing else is different apart from such directories. Another one changes nothing then, and it
succeeds in the same way unless the disk refuses a file. -/
theorem Format.emit_gains (format : Format) (name : String) (destination : Destination)
    (disk : Disk) :
    (∀ fault, (format.emit name destination disk).result = .error fault →
      (format.emit name destination disk).disk = disk ∧
          format.artifacts name destination.package = .error fault ∨
        ∃ (done : List Artifact) (next : Artifact) (rest : List Artifact),
          format.artifacts name destination.package = .ok (done ++ next :: rest) ∧
          Disk.Gains destination.directory (done ++ next :: rest) done disk
            (format.emit name destination disk).disk ∧
          (done = [] ∨ name = "cpp_stl" ∧ done.length = 1 ∧ rest = [] ∧
            ∃ cause, fault = .file (Path.join destination.directory next.path) cause ∧
              (format.emit name destination disk).disk.write
                (Path.join destination.directory next.path)
                (Text.Utf8.encode next.content.toList) = .error cause)) ∧
    ∀ paths, (format.emit name destination disk).result = .ok paths →
      ∃ artifacts, format.artifacts name destination.package = .ok artifacts ∧
        paths = artifacts.map (fun artifact => Path.join destination.directory artifact.path) ∧
        Disk.Gains destination.directory artifacts artifacts disk
          (format.emit name destination disk).disk ∧
        (format.emit name destination (format.emit name destination disk).disk =
            format.emit name destination disk ∨
          (format.emit name destination (format.emit name destination disk).disk).IsRefusal
            destination.directory artifacts (format.emit name destination disk).disk) := by
  cases made : format.artifacts name destination.package with
  | error cause =>
    rw [Format.emit_of_error made]
    refine ⟨?_, ?_⟩
    · rintro fault ⟨⟩
      exact .inl ⟨rfl, rfl⟩
    · rintro paths ⟨⟩
  | ok artifacts =>
    obtain ⟨target, module, rfl, same⟩ := Format.exists_target made
    obtain ⟨absolute, front, siblings⟩ :=
      target.siblings destination.package module destination.directory
    rw [← same] at siblings
    have emitted : ∀ disk, format.emit target.name destination disk =
        writeArtifacts disk destination.directory artifacts := by
      intro disk
      simp only [Format.emit, made]
    obtain ⟨ready, done, rest, rfl, grown, disks, ends⟩ := siblings.writeArtifacts_cases disk
    have gains := siblings.gains grown
    rw [← disks] at gains
    simp only [emitted]
    rcases ends with ⟨rfl, result, walks⟩ | ⟨next, more, fault, rfl, result, blocked⟩
    · refine ⟨?_, ?_⟩
      · intro fault failed
        rw [result] at failed
        cases failed
      · intro paths written
        rw [result] at written
        cases written
        refine ⟨_, rfl, rfl, ?_, siblings.writeArtifacts_twice result⟩
        simpa only [List.append_nil] using gains
    · refine ⟨?_, ?_⟩
      · intro other failed
        obtain rfl := Except.error.inj (result.symm.trans failed)
        refine .inr ⟨done, next, more, rfl, gains, ?_⟩
        by_cases none : done = []
        · exact .inl none
        · obtain ⟨rfl, one, last⟩ := Target.eq_cppStl_of_two none same.symm
          exact .inr ⟨rfl, one, last, blocked.resolve_left none⟩
      · intro paths written
        rw [result] at written
        cases written

theorem Format.supportedModule_bare :
    ({ name := "top", order := .little } : Format).supportedModule =
      .ok ⟨{ name := "top", order := .little }, []⟩ :=
  Format.supportedModule_eq_ok_iff.mpr ⟨rfl, by decide +kernel, rfl⟩

theorem Format.emit_gains_ruby :
    let root : Format := { name := "top", order := .little }
    let disk : Disk := { here := [], entries := [(["out"], .directory)] }
    let outcome := root.emit "ruby" ⟨"out", none⟩ disk
    outcome.result = .ok ["out/top.rb"] ∧
      root.emit "ruby" ⟨"out", none⟩ outcome.disk = outcome := by
  intro root disk outcome
  have written : outcome.result = .ok ["out/top.rb"] := by
    obtain ⟨content, files⟩ : ∃ content, Target.artifacts .ruby none ⟨root, []⟩ =
        [⟨"top.rb", content⟩] := ⟨_, rfl⟩
    have emitted := Format.emit_eq Format.supportedModule_bare .ruby ⟨"out", none⟩ disk
    change outcome = writeArtifacts disk "out" _ at emitted
    have named : Path.IsNamed (Path.join "out" "top.rb") ["out"] "top.rb" :=
      ⟨by decide, by decide, by decide⟩
    have siblings : Siblings "out" false ["out"] [⟨"top.rb", content⟩] := by
      have relative : Path.isAbsolute (Path.join "out" "top.rb") = false := by decide
      exact ⟨List.forall_mem_singleton.mpr ⟨_, named⟩, List.forall_mem_singleton.mpr relative,
        List.pairwise_singleton _ _⟩
    have walks : disk.Walks (Siblings.start disk false) ["out"] := by
      rw [Disk.walks_iff_follow]
      exact ⟨rfl, rfl⟩
    have free : disk.entry? (Artifact.file ⟨"top.rb", content⟩ "out" disk).1 ≠
        some .directory := by
      have placed : disk.place (Path.join "out" "top.rb") = ["out", "top.rb"] := by decide
      rw [Artifact.place_file, placed]
      decide
    have done := siblings.write_of_free List.mem_cons_self walks rfl free
    have spelled : Path.join "out" "top.rb" = "out/top.rb" := by decide
    rw [emitted, files, writeArtifacts_of_ok done, ← spelled]
    rfl
  obtain ⟨artifacts, -, -, gains, again | ⟨artifact, -, reason, refused, -⟩⟩ :=
    (Format.emit_gains root "ruby" ⟨"out", none⟩ disk).2 _ written
  · exact ⟨written, again⟩
  · rw [gains.refuses] at refused
    cases refused

/-- Where a directory has the name of the source, emission fails and leaves a header that was not
there. -/
theorem Format.emit_leaves_header :
    let root : Format := { name := "top", order := .little }
    let disk : Disk :=
      { here := [], entries := [(["out"], .directory), (["out", "top.cpp"], .directory)] }
    let outcome := root.emit "cpp_stl" ⟨"out", none⟩ disk
    root.violation? = none ∧
      outcome.result = .error (.file "out/top.cpp" .isDirectory) ∧
      disk.place (Path.join "out" "top.h") = ["out", "top.h"] ∧
      disk.entry? ["out", "top.h"] = none ∧
      (outcome.disk.entry? ["out", "top.h"]).isSome := by
  intro root disk
  obtain ⟨header, source, files⟩ : ∃ header source, Target.artifacts .cppStl none ⟨root, []⟩ =
      [⟨"top.h", header⟩, ⟨"top.cpp", source⟩] := ⟨_, _, rfl⟩
  have emitted := Format.emit_eq Format.supportedModule_bare .cppStl ⟨"out", none⟩ disk
  change root.emit "cpp_stl" ⟨"out", none⟩ disk = writeArtifacts disk "out" _ at emitted
  rw [files] at emitted
  have siblings : Siblings "out" false ["out"] [⟨"top.h", header⟩, ⟨"top.cpp", source⟩] := by
    have first : Path.IsNamed (Path.join "out" "top.h") ["out"] "top.h" :=
      ⟨by decide, by decide, by decide⟩
    have second : Path.IsNamed (Path.join "out" "top.cpp") ["out"] "top.cpp" :=
      ⟨by decide, by decide, by decide⟩
    refine ⟨?_, ?_, ?_⟩
    · simp only [List.forall_mem_cons, List.not_mem_nil, false_implies, implies_true, and_true]
      exact ⟨⟨_, first⟩, _, second⟩
    · simp only [List.forall_mem_cons, List.not_mem_nil, false_implies, implies_true, and_true]
      exact ⟨by decide, by decide⟩
    · change [Path.pieces (Path.join "out" "top.h"), Path.pieces (Path.join "out" "top.cpp")].Nodup
      decide
  have walks : disk.Walks (Siblings.start disk false) ["out"] := by
    rw [Disk.walks_iff_follow]
    exact ⟨rfl, rfl⟩
  have above : disk.place (Path.join "out" "top.h") = ["out", "top.h"] := by decide
  have beside : disk.place (Path.join "out" "top.cpp") = ["out", "top.cpp"] := by decide
  have free : disk.entry? (Artifact.file ⟨"top.h", header⟩ "out" disk).1 ≠ some .directory := by
    rw [Artifact.place_file, above]
    decide
  have first := siblings.write_of_free List.mem_cons_self walks rfl free
  rw [Artifact.place_file, above] at first free
  have still := walks.put (by decide) free (Artifact.file ⟨"top.h", header⟩ "out" disk).2
  have blocked : Disk.entry?
      (disk.put ["out", "top.h"] (Artifact.file ⟨"top.h", header⟩ "out" disk).2)
      (Artifact.file ⟨"top.cpp", source⟩ "out" disk).1 = some .directory := by
    rw [Artifact.place_file, beside, disk.entry_put (by decide), if_neg (by decide)]
    decide
  have second := siblings.write_of_blocks (List.mem_cons_of_mem _ List.mem_cons_self) still
    (.directory rfl blocked)
  rw [emitted, writeArtifacts_of_ok first, writeArtifacts_of_error second]
  have spelled : Path.join "out" "top.cpp" = "out/top.cpp" := by decide
  refine ⟨by decide, ?_, above, by decide, ?_⟩
  · rw [← spelled]
    rfl
  · dsimp only
    rw [disk.entry_put (by decide), if_pos rfl]
    rfl

end FormatCompiler
