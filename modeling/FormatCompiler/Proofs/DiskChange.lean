import FormatCompiler.Proofs.Outcome
import FormatCompiler.Proofs.PathPlace

/-!
What becomes of a disk when directories are made and files are written. Nothing is ever removed. A
directory is made where its path leads or where it leads through, and a file is written where its
path leads. Where no file is in the way, all directories that a path leads through can be made.
-/

namespace FormatCompiler.Disk

set_option autoImplicit false

section Entries

theorem entry_root (disk : Disk) : disk.entry? [] = some .directory := rfl

theorem lookup_filter_ne {place other : Place} (apart : other ≠ place)
    (entries : List (Place × Entry)) :
    (entries.filter (·.1 != place)).lookup other = entries.lookup other := by
  induction entries with
  | nil => rfl
  | cons head rest ih =>
    by_cases same : head.1 = place
    · have skipped : (other == head.1) = false := by simpa [same] using apart
      rw [List.filter_cons_of_neg (by simpa using same), ih, List.lookup_cons, skipped]
    · rw [List.filter_cons_of_pos (by simpa using same), List.lookup_cons, List.lookup_cons, ih]

/-- What is put at a place is there, and nothing else is different. -/
theorem entry_put (disk : Disk) {place : Place} (below : place ≠ []) (entry : Entry)
    (other : Place) :
    Disk.entry? (disk.put place entry) other =
      if other = place then some entry else disk.entry? other := by
  unfold entry? put
  by_cases root : other = []
  · subst root
    simp [Ne.symm below]
  · by_cases same : other = place
    · simp [same, below]
    · have skipped : (other == place) = false := by simpa using same
      rw [if_neg root, if_neg same, if_neg root, List.lookup_cons, skipped]
      exact lookup_filter_ne same disk.entries

end Entries

/-- The second disk has all that the first one has, and directories at some places besides. -/
structure Grows (among : Place → Prop) (before after : Disk) : Prop where
  here : after.here = before.here
  refuses : after.refuses = before.refuses
  entry : ∀ place, after.entry? place = before.entry? place ∨
    among place ∧ before.entry? place = none ∧ after.entry? place = some .directory

namespace Grows

variable {among : Place → Prop} {before between after : Disk}

theorem refl (disk : Disk) : Grows among disk disk :=
  ⟨rfl, rfl, fun _ => .inl rfl⟩

theorem trans (first : Grows among before between) (second : Grows among between after) :
    Grows among before after := by
  refine ⟨second.here.trans first.here, second.refuses.trans first.refuses, fun place => ?_⟩
  rcases first.entry place with same | ⟨listed, missing, made⟩ <;>
    rcases second.entry place with kept | ⟨found, absent, fresh⟩
  · exact .inl (kept.trans same)
  · exact .inr ⟨found, same ▸ absent, fresh⟩
  · exact .inr ⟨listed, missing, kept.trans made⟩
  · exact .inr ⟨listed, missing, fresh⟩

theorem mono {more : Place → Prop} (grows : Grows among before after)
    (wider : ∀ place, among place → more place) : Grows more before after :=
  ⟨grows.here, grows.refuses,
    fun place => (grows.entry place).imp_right fun new => ⟨wider place new.1, new.2⟩⟩

/-- Whatever is there stays there as it is. -/
theorem keeps (grows : Grows among before after) {place : Place} {entry : Entry}
    (there : before.entry? place = some entry) : after.entry? place = some entry := by
  rcases grows.entry place with same | ⟨-, missing, -⟩
  · exact same.trans there
  · simp [there] at missing

theorem put (disk : Disk) {place : Place} (listed : among place)
    (missing : disk.entry? place = none) : Grows among disk (disk.put place .directory) := by
  have below : place ≠ [] := by
    rintro rfl
    simp [entry_root] at missing
  refine ⟨rfl, rfl, fun other => ?_⟩
  rw [disk.entry_put below]
  split
  · next same => exact .inr (same ▸ ⟨listed, missing, rfl⟩)
  · exact .inl rfl

end Grows

section Following

variable {disk : Disk} {place found : Place} {piece : String}

/-- From a directory, one piece is followed to where it leads, if a name is there. -/
theorem step_eq (there : disk.entry? place = some .directory) :
    disk.step place piece =
      if Path.IsIdle piece ∨ piece = ".." ∨ (disk.entry? (place.walk piece)).isSome then
        .ok (place.walk piece)
      else .error .notFound := by
  simp only [step, there]
  by_cases idle : Path.IsIdle piece
  · rw [Place.walk_idle idle, if_pos (Or.inl idle)]
    exact if_pos idle
  · by_cases up : piece = ".."
    · subst up
      rfl
    · rw [Place.walk_name idle up]
      refine (if_neg idle).trans ((if_neg up).trans ?_)
      simp only [idle, up, false_or]

theorem step_eq_ok (stepped : disk.step place piece = .ok found) :
    disk.entry? place = some .directory ∧ found = place.walk piece := by
  have there : disk.entry? place = some .directory := by
    unfold step at stepped
    split at stepped
    · cases stepped
    · cases stepped
    · assumption
  rw [step_eq there] at stepped
  split at stepped
  · exact ⟨there, (Except.ok.inj stepped).symm⟩
  · cases stepped

/-- Pieces are followed to where they lead, or not at all. -/
theorem follow_eq_ok {pieces : List String} (followed : disk.follow place pieces = .ok found) :
    found = place.travel pieces := by
  induction pieces generalizing place with
  | nil => exact (Except.ok.inj followed).symm
  | cons piece rest ih =>
    obtain ⟨next, stepped, behind⟩ := Except.bind_eq_ok_iff.mp followed
    obtain ⟨-, rfl⟩ := step_eq_ok stepped
    exact ih behind

theorem follow_append (place : Place) (front back : List String) :
    disk.follow place (front ++ back) = (disk.follow place front).bind (disk.follow · back) := by
  induction front generalizing place with
  | nil => rfl
  | cons piece rest ih =>
    rw [List.cons_append, follow, follow]
    cases disk.step place piece with
    | error fault => rfl
    | ok next => exact ih next

theorem Grows.follow {among : Place → Prop} {after : Disk} (grows : Grows among disk after)
    {pieces : List String} (followed : disk.follow place pieces = .ok found) :
    after.follow place pieces = .ok found := by
  induction pieces generalizing place with
  | nil => exact followed
  | cons piece rest ih =>
    obtain ⟨next, stepped, behind⟩ := Except.bind_eq_ok_iff.mp followed
    refine Except.bind_eq_ok_iff.mpr ⟨next, ?_, ih behind⟩
    obtain ⟨there, rfl⟩ := step_eq_ok stepped
    rw [step_eq there] at stepped
    rw [step_eq (grows.keeps there), if_pos]
    split at stepped
    · next leads =>
      refine leads.imp_right (Or.imp_right fun named => ?_)
      obtain ⟨entry, inside⟩ := Option.isSome_iff_exists.mp named
      rw [grows.keeps inside]
      rfl
    · cases stepped

/-- What a path names, new or not, is the last piece in the directory around it. -/
theorem locateNew_eq_ok {path last : String} (located : disk.locateNew path = .ok (place, last)) :
    place.walk last = disk.place path ∧
      ((Path.pieces path).filter (· != "")).getLast? = some last := by
  unfold locateNew at located
  split at located
  · cases located
  · next name outer reversed =>
    obtain ⟨around, followed, checked⟩ := Except.bind_eq_ok_iff.mp located
    obtain ⟨rfl, rfl⟩ : around = place ∧ name = last := by
      split at checked
      · cases checked
        exact ⟨rfl, rfl⟩
      · cases checked
      · cases checked
    have spelled := List.reverse_eq_iff.mp reversed
    rw [List.reverse_cons] at spelled
    refine ⟨?_, by simp [spelled]⟩
    rw [follow_eq_ok followed, Disk.place,
      ← Place.travel_congr _ (Path.moves_filter (Path.pieces path)), spelled, Place.travel_append]
    rfl

end Following

section Making

variable {disk made : Disk} {path : String}

theorem place_eq {other : Disk} (here : other.here = disk.here) (path : String) :
    other.place path = disk.place path := by
  unfold place origin
  rw [here]

theorem offer_eq_ok_iff {place : Place} {entry : Entry} :
    disk.offer place entry = .ok made ↔
      disk.refusal? place entry = none ∧ made = disk.put place entry := by
  unfold offer
  cases disk.refusal? place entry <;> simp [eq_comm]

theorem makeDirectory_of_located {around : Place} {last : String}
    (located : disk.locateNew path = .ok (around, last)) :
    disk.makeDirectory path =
      if last = "." ∨ last = ".." ∨ (disk.entry? (around ++ [last])).isSome then .error .exists
      else disk.offer (around ++ [last]) .directory := by
  unfold makeDirectory
  rw [located]
  split
  · next present => exact (if_pos present).trans rfl
  · next missing => exact (if_neg missing).trans rfl

/-- A directory is made where its path leads, and nothing was there. -/
theorem makeDirectory_grows (done : disk.makeDirectory path = .ok made) :
    Grows (· = disk.place path) disk made := by
  obtain ⟨⟨around, last⟩, located, -⟩ := Except.bind_eq_ok_iff.mp done
  obtain ⟨leads, ends⟩ := locateNew_eq_ok located
  rw [makeDirectory_of_located located] at done
  split at done
  · cases done
  · next missing =>
    obtain ⟨-, rfl⟩ := offer_eq_ok_iff.mp done
    simp only [not_or, Bool.not_eq_true, Option.isSome_eq_false_iff, Option.isNone_iff_eq_none]
      at missing
    obtain ⟨dot, down, missing⟩ := missing
    have busy : ¬ Path.IsIdle last := by
      have listed := List.mem_of_getLast? ends
      rintro (empty | idle)
      · simp [empty] at listed
      · exact dot idle
    rw [Place.walk_name busy down] at leads
    exact Grows.put disk leads missing

theorem ensureDirectory_grows (disk : Disk) (path : String) :
    Grows (· = disk.place path) disk (disk.ensureDirectory path).disk := by
  unfold ensureDirectory
  split
  · next made done => exact makeDirectory_grows done
  · exact Grows.refl disk

/-- Directories are made where the paths of a chain lead, also where not all of them can be. -/
theorem makeChain_grows (disk : Disk) (paths : List String) :
    Grows (fun place => ∃ path ∈ paths, place = disk.place path) disk
      (disk.makeChain paths).disk := by
  induction paths with
  | nil => exact Grows.refl disk
  | cons path outer ih =>
    have inner : ∀ before : Disk, before.here = disk.here →
        Grows (fun place => ∃ inside ∈ path :: outer, place = disk.place inside) before
          (before.ensureDirectory path).disk := by
      intro before here
      refine (ensureDirectory_grows before path).mono ?_
      rintro place rfl
      exact ⟨path, List.mem_cons_self, place_eq here path⟩
    have around : Grows (fun place => ∃ inside ∈ path :: outer, place = disk.place inside) disk
        (disk.makeChain outer).disk := by
      refine ih.mono ?_
      rintro place ⟨inside, member, leads⟩
      exact ⟨inside, List.mem_cons_of_mem path member, leads⟩
    unfold makeChain
    split
    · exact Grows.refl disk
    · split
      · dsimp only
        split
        · exact around
        · exact around.trans (inner _ around.here)
      · exact inner disk rfl

theorem makeDirectories_grows (disk : Disk) (path : String) :
    Grows (fun place => ∃ around ∈ path :: Path.ancestors path, place = disk.place around) disk
      (disk.makeDirectories path).disk :=
  makeChain_grows disk _

section Chain

variable {outer : List String} (nonempty : path ≠ "")
include nonempty

theorem makeChain_of_found (found : disk.makeDirectory path ≠ .error .notFound) :
    disk.makeChain (path :: outer) = disk.ensureDirectory path := by
  rw [makeChain, if_neg (by simpa using nonempty)]
  split
  · next missing => exact absurd missing found
  · rfl

theorem makeChain_of_missing (missing : disk.makeDirectory path = .error .notFound)
    (around : disk.makeChain outer = ⟨made, .ok ()⟩) :
    disk.makeChain (path :: outer) = made.ensureDirectory path := by
  rw [makeChain, if_neg (by simpa using nonempty), missing, around]

end Chain

theorem ensureDirectory_of_ok (done : disk.makeDirectory path = .ok made) :
    disk.ensureDirectory path = ⟨made, .ok ()⟩ := by
  rw [ensureDirectory, done]

theorem ensureDirectory_of_there {fault : DiskFault}
    (failed : disk.makeDirectory path = .error fault) (there : disk.isDirectory path = true) :
    disk.ensureDirectory path = ⟨disk, .ok ()⟩ := by
  rw [ensureDirectory, failed]
  simp only [there, if_true]

/-- A file is written where its path leads. -/
theorem write_of_named {front : List String} {last : String} {bytes : List UInt8}
    (named : Path.IsNamed path front last) (done : disk.write path bytes = .ok made) :
    disk.place path ≠ [] ∧ made = disk.put (disk.place path) (.file bytes) := by
  obtain ⟨⟨around, name⟩, located, written⟩ := Except.bind_eq_ok_iff.mp done
  obtain ⟨leads, ends⟩ := locateNew_eq_ok located
  have kept : last ≠ "" := fun empty => named.busy (.inl empty)
  obtain rfl : name = last := by
    rw [named.pieces, List.filter_append, List.filter_cons_of_pos (by simpa using kept)] at ends
    simpa using ends.symm
  rw [Place.walk_name named.busy named.down] at leads
  rw [← leads]
  refine ⟨by simp, ?_⟩
  obtain ⟨after, offered, checked⟩ := Except.bind_eq_ok_iff.mp written
  obtain ⟨-, rfl⟩ := offer_eq_ok_iff.mp offered
  split at checked
  · cases checked
  · exact (Except.ok.inj checked).symm

end Making

/-- Nothing is in the way: there are only directories, each one in another, and every entry is
taken. -/
structure Clear (disk : Disk) : Prop where
  here : disk.entry? disk.here = some .directory
  directory : ∀ place entry, disk.entry? place = some entry → entry = .directory
  around : ∀ place, (disk.entry? place).isSome → (disk.entry? place.dropLast).isSome
  takes : ∀ entries place entry, disk.refuses entries place entry = none

/-- The path leads through directories only. -/
def Opens (disk : Disk) (path : String) : Prop :=
  disk.follow (disk.origin path) (Path.pieces path) = .ok (disk.place path)

namespace Clear

variable {disk : Disk} {place : Place} {path : String}

theorem entry_of_isSome (clear : disk.Clear) (there : (disk.entry? place).isSome) :
    disk.entry? place = some .directory := by
  obtain ⟨entry, found⟩ := Option.isSome_iff_exists.mp there
  rw [found, clear.directory place entry found]

theorem origin (clear : disk.Clear) (path : String) :
    disk.entry? (disk.origin path) = some .directory := by
  unfold Disk.origin
  split
  · rfl
  · exact clear.here

theorem step (clear : disk.Clear) (there : disk.entry? place = some .directory) (piece : String) :
    disk.step place piece =
      if (disk.entry? (place.walk piece)).isSome then .ok (place.walk piece)
      else .error .notFound := by
  rw [step_eq there]
  by_cases idle : Path.IsIdle piece
  · simp [idle, Place.walk_idle idle, there]
  · by_cases up : piece = ".."
    · have outside := clear.around place (by simp [there])
      subst up
      simp [Place.walk_up, outside]
    · simp only [idle, up, false_or]

/-- A path is followed to a directory, or something is missing. -/
theorem follow_cases (clear : disk.Clear) (there : disk.entry? place = some .directory)
    (pieces : List String) :
    (disk.follow place pieces = .ok (place.travel pieces) ∧
      disk.entry? (place.travel pieces) = some .directory) ∨
    disk.follow place pieces = .error .notFound := by
  induction pieces generalizing place with
  | nil => exact .inl ⟨rfl, there⟩
  | cons piece rest ih =>
    rw [follow, clear.step there]
    split
    · next inside => exact ih (clear.entry_of_isSome inside)
    · exact .inr rfl

theorem follow_moves (clear : disk.Clear) (there : disk.entry? place = some .directory)
    (pieces : List String) :
    disk.follow place (Path.moves pieces) = disk.follow place pieces := by
  induction pieces generalizing place with
  | nil => rfl
  | cons piece rest ih =>
    rw [follow, clear.step there]
    by_cases idle : Path.IsIdle piece
    · rw [Path.moves_cons_idle idle, Place.walk_idle idle, there]
      exact ih there
    · rw [Path.moves_cons_busy idle, follow, clear.step there]
      split
      · next inside => exact ih (clear.entry_of_isSome inside)
      · rfl

/-- Idle pieces make no difference. -/
theorem follow_congr (clear : disk.Clear) (there : disk.entry? place = some .directory)
    {pieces others : List String} (same : Path.moves pieces = Path.moves others) :
    disk.follow place pieces = disk.follow place others := by
  rw [← clear.follow_moves there pieces, same, clear.follow_moves there]

theorem locateNew (clear : disk.Clear) {front : List String} {last : String}
    (spelled : Path.pieces path = front ++ [last]) (busy : last ≠ "") :
    disk.locateNew path = (disk.follow (disk.origin path) front).map (·, last) := by
  have same : disk.follow (disk.origin path) (front.filter (· != "")) =
      disk.follow (disk.origin path) front :=
    clear.follow_congr (clear.origin path) (Path.moves_filter front)
  unfold Disk.locateNew
  rw [Path.reverse_filter_pieces spelled busy]
  dsimp only
  rw [List.reverse_reverse, same]
  rcases clear.follow_cases (clear.origin path) front with ⟨followed, there⟩ | missing
  · rw [followed]
    refine Except.bind_eq_ok_iff.mpr ⟨_, rfl, ?_⟩
    rw [there]
    rfl
  · rw [missing]
    rfl

theorem isDirectory_of_opens (clear : disk.Clear) (nonempty : path ≠ "") (opens : disk.Opens path) :
    disk.isDirectory path = true := by
  have there : disk.entry? (disk.place path) = some .directory := by
    rcases clear.follow_cases (clear.origin path) (Path.pieces path) with ⟨-, there⟩ | missing
    · exact there
    · rw [Opens, missing] at opens
      cases opens
  have located : disk.locate path = .ok (disk.place path) := by
    unfold locate
    rw [if_neg (by simpa using nonempty), opens]
  unfold isDirectory
  rw [located]
  simp [there]

/-- The path of the first pieces of another opens when they can be followed. -/
theorem opens_upTo_iff (clear : disk.Clear) {front : List String}
    (first : front <+: Path.pieces path) :
    disk.Opens (Path.upTo path front) ↔
      disk.follow (disk.origin path) front = .ok ((disk.origin path).travel front) := by
  rw [Opens, disk.place_upTo first, disk.origin_upTo first,
    clear.follow_congr (clear.origin path) (Path.moves_upTo first)]

theorem entry_of_opens (clear : disk.Clear) (opens : disk.Opens path) :
    disk.entry? (disk.place path) = some .directory := by
  rcases clear.follow_cases (clear.origin path) (Path.pieces path) with ⟨-, there⟩ | missing
  · exact there
  · rw [Opens, missing] at opens
    cases opens

theorem offer (clear : disk.Clear) (place : Place) (entry : Entry) :
    disk.offer place entry = .ok (disk.put place entry) :=
  offer_eq_ok_iff.mpr ⟨clear.takes _ _ _, rfl⟩

/-- A directory put into another keeps the way clear. -/
theorem put (clear : disk.Clear) (there : disk.entry? place = some .directory) (name : String) :
    (disk.put (place ++ [name]) .directory).Clear := by
  have entry := disk.entry_put (by simp : place ++ [name] ≠ []) .directory
  refine ⟨?_, ?_, ?_, clear.takes⟩
  · rw [entry]
    split
    · rfl
    · exact clear.here
  · intro other found present
    rw [entry] at present
    split at present
    · exact (Option.some.inj present).symm
    · exact clear.directory other found present
  · intro other present
    rw [entry] at present
    rw [entry]
    split
    · rfl
    · split at present
      · next same => simp [same, there]
      · exact clear.around other present

section Last

variable {front : List String} {last : String} (spelled : Path.pieces path = front ++ [last])
include spelled

/-- A path opens when the directory around it does and its last piece leads on. -/
theorem opens_of_last (clear : disk.Clear) (opens : disk.Opens (Path.upTo path front))
    (inside : (disk.entry? (disk.place path)).isSome) : disk.Opens path := by
  have first : front <+: Path.pieces path := ⟨[last], spelled.symm⟩
  have there := clear.entry_of_opens opens
  have leads : disk.place path = ((disk.origin path).travel front).walk last := by
    rw [Disk.place, spelled, Place.travel_append]
    rfl
  rw [disk.place_upTo first] at there
  rw [leads] at inside
  rw [Opens, spelled, follow_append, (clear.opens_upTo_iff first).mp opens, leads]
  change (disk.step _ last).bind (disk.follow · []) = _
  rw [clear.step there, if_pos inside]
  rfl

theorem locateNew_of_opens (clear : disk.Clear) (busy : last ≠ "")
    (opens : disk.Opens (Path.upTo path front)) :
    disk.locateNew path = .ok (disk.place (Path.upTo path front), last) := by
  have first : front <+: Path.pieces path := ⟨[last], spelled.symm⟩
  rw [clear.locateNew spelled busy, (clear.opens_upTo_iff first).mp opens, disk.place_upTo first]
  rfl

/-- A directory can be made where the one around it is there, or it is there itself. -/
theorem makeDirectory_cases (clear : disk.Clear) (busy : last ≠ "")
    (opens : disk.Opens (Path.upTo path front)) :
    (∃ made, disk.makeDirectory path = .ok made ∧ made.Clear ∧ made.Opens path) ∨
      (disk.makeDirectory path = .error .exists ∧ disk.Opens path) := by
  have located := clear.locateNew_of_opens spelled busy opens
  have there := clear.entry_of_opens opens
  have leads := (locateNew_eq_ok located).1
  rw [makeDirectory_of_located located]
  by_cases inside : (disk.entry? (disk.place path)).isSome
  · refine .inr ⟨if_pos ?_, clear.opens_of_last spelled opens inside⟩
    by_cases special : last = "." ∨ last = ".."
    · exact special.imp_right .inl
    · obtain ⟨dot, down⟩ := not_or.mp special
      rw [Place.walk_name (not_or.mpr ⟨busy, dot⟩) down] at leads
      exact .inr (.inr (leads ▸ inside))
  · -- The last piece is a name: `.` and `..` would lead to a directory that is there.
    have dot : last ≠ "." := by
      rintro rfl
      rw [Place.walk_idle (.inr rfl)] at leads
      simp [← leads, there] at inside
    have down : last ≠ ".." := by
      rintro rfl
      exact inside (leads ▸ clear.around _ (by simp [there]))
    rw [Place.walk_name (not_or.mpr ⟨busy, dot⟩) down] at leads
    have missing : disk.entry? (disk.place path) = none := by simpa using inside
    rw [leads, if_neg (by simp [dot, down, missing]), clear.offer]
    have cleared := leads ▸ clear.put there last
    refine .inl ⟨_, rfl, cleared, cleared.opens_of_last spelled ?_ ?_⟩
    · have grown : Grows (fun _ => True) disk (disk.put (disk.place path) .directory) :=
        Grows.put disk trivial missing
      exact grown.follow opens
    · have below : disk.place path ≠ [] := leads ▸ by simp
      change (Disk.entry? (disk.put _ _) (disk.place path)).isSome
      rw [disk.entry_put below, if_pos rfl]
      rfl

theorem ensureDirectory (clear : disk.Clear) (nonempty : path ≠ "") (busy : last ≠ "")
    (opens : disk.Opens (Path.upTo path front)) :
    ∃ made, disk.ensureDirectory path = ⟨made, .ok ()⟩ ∧ made.Clear ∧ made.Opens path := by
  rcases clear.makeDirectory_cases spelled busy opens with
    ⟨made, done, reached⟩ | ⟨present, there⟩
  · exact ⟨made, ensureDirectory_of_ok done, reached⟩
  · exact ⟨disk, ensureDirectory_of_there present (clear.isDirectory_of_opens nonempty there),
      clear, there⟩

theorem makeDirectory_of_closed (clear : disk.Clear) (busy : last ≠ "")
    (closed : ¬ disk.Opens (Path.upTo path front)) :
    disk.makeDirectory path = .error .notFound := by
  have first : front <+: Path.pieces path := ⟨[last], spelled.symm⟩
  have missing : disk.follow (disk.origin path) front = .error .notFound := by
    rcases clear.follow_cases (clear.origin path) front with ⟨followed, -⟩ | missing
    · exact absurd ((clear.opens_upTo_iff first).mpr followed) closed
    · exact missing
  have unlocated : disk.locateNew path = .error .notFound := by
    rw [clear.locateNew spelled busy, missing]
    rfl
  unfold makeDirectory
  rw [unlocated]
  rfl

end Last

/-- The pieces at the start of a path open as long as they lead nowhere. -/
theorem opens_upTo_of_idle (clear : disk.Clear) {front : List String}
    (first : front <+: Path.pieces path) (idle : Path.dropIdle front.reverse = []) :
    disk.Opens (Path.upTo path front) := by
  have nowhere : Path.moves front = Path.moves [] := by
    have same := Path.moves_dropIdle front.reverse
    rwa [idle, List.reverse_reverse, eq_comm] at same
  rw [clear.opens_upTo_iff first, clear.follow_congr (clear.origin path) nowhere,
    Place.travel_congr _ nowhere]
  rfl

/-- All directories that a path leads through can be made. -/
theorem makeDirectories (clear : disk.Clear) {front : List String}
    (first : front <+: Path.pieces path) :
    ∃ made, disk.makeDirectories (Path.upTo path front) = ⟨made, .ok ()⟩ ∧ made.Clear ∧
      made.Opens (Path.upTo path front) := by
  -- The directory around is made first, and it takes fewer pieces.
  induction size : front.length using Nat.strongRecOn generalizing front with
  | _ size ih =>
    subst size
    unfold Disk.makeDirectories
    rw [Path.ancestors_upTo first]
    cases trimmed : Path.dropIdle front.reverse with
    | nil =>
      have opens := clear.opens_upTo_of_idle first trimmed
      refine ⟨disk, ?_, clear, opens⟩
      by_cases empty : Path.upTo path front = ""
      · rw [empty]
        rfl
      · have there := clear.isDirectory_of_opens empty opens
        have root : Path.upTo path front = "/" := by
          rw [Path.upTo, trimmed] at empty ⊢
          cases absolute : Path.isAbsolute path with
          | true => rfl
          | false => simp [absolute, Path.spell] at empty
        have present : disk.makeDirectory (Path.upTo path front) = .error .exists := by
          rw [root]
          rfl
        rw [makeChain_of_found empty (by simp [present])]
        exact ensureDirectory_of_there present there
    | cons piece outer =>
      have fewer := Path.dropIdle_length front.reverse
      have shorter := Path.dropIdle_reverse_isPrefix first
      rw [trimmed, List.length_cons, List.length_reverse] at fewer
      rw [trimmed, List.reverse_cons] at shorter
      have spelled : Path.pieces (Path.upTo path front) = outer.reverse ++ [piece] := by
        rw [Path.pieces_upTo first (by simp [trimmed]), trimmed, List.reverse_cons]
      have busy := Path.head_of_dropIdle trimmed
      have nonempty : Path.upTo path front ≠ "" := by
        intro empty
        have last : (Path.pieces "").getLast? = some piece := by
          rw [← empty, spelled, List.getLast?_concat]
        exact busy (Option.some.inj last).symm
      have around : Path.upTo (Path.upTo path front) outer.reverse = Path.upTo path outer.reverse :=
        Path.upTo_upTo first outer.reverse
      have inner := (List.prefix_append _ _).trans shorter
      obtain ⟨ready, made, cleared, opened⟩ := ih outer.reverse.length (by simp; omega) inner rfl
      unfold Disk.makeDirectories at made
      rw [Path.ancestors_upTo inner, Path.upTo, List.reverse_reverse] at made
      rw [Path.above]
      by_cases opens : disk.Opens (Path.upTo path outer.reverse)
      · rw [makeChain_of_found nonempty]
        · exact clear.ensureDirectory spelled nonempty busy (around ▸ opens)
        · rcases clear.makeDirectory_cases spelled busy (around ▸ opens) with
            ⟨after, done, -⟩ | ⟨present, -⟩
          · simp [done]
          · simp [present]
      · rw [makeChain_of_missing nonempty
          (clear.makeDirectory_of_closed spelled busy (around ▸ opens)) made]
        exact cleared.ensureDirectory spelled nonempty busy (around ▸ opened)

/-- A file is written, unless a directory is where it should be. -/
theorem isSome_of_write (clear : disk.Clear) {front : List String} {last : String}
    {bytes : List UInt8} {fault : DiskFault} (named : Path.IsNamed path front last)
    (opens : disk.Opens (Path.upTo path front)) (failed : disk.write path bytes = .error fault) :
    (disk.entry? (disk.place path)).isSome := by
  have located := clear.locateNew_of_opens named.pieces (fun empty => named.busy (.inl empty)) opens
  have leads := (locateNew_eq_ok located).1
  rw [Place.walk_name named.busy named.down] at leads
  rw [write, located] at failed
  obtain ⟨⟨⟩⟩ | ⟨_, ⟨⟩, failed⟩ := Except.bind_eq_error_iff.mp failed
  dsimp only at failed
  rw [leads, clear.offer] at failed
  obtain ⟨⟨⟩⟩ | ⟨_, ⟨⟩, failed⟩ := Except.bind_eq_error_iff.mp failed
  split at failed
  · next found =>
    rw [found]
    rfl
  · cases failed

end Clear

/-- A disk with nothing on it. -/
def empty : Disk := { here := [], entries := [] }

theorem entry_empty {place : Place} (below : place ≠ []) : empty.entry? place = none :=
  if_neg below

theorem clear_empty : empty.Clear := by
  have nothing : ∀ place entry, empty.entry? place = some entry → place = [] := by
    intro place entry found
    by_cases root : place = []
    · exact root
    · rw [entry_empty root] at found
      cases found
  refine ⟨rfl, ?_, ?_, fun _ _ _ => rfl⟩
  · intro place entry found
    cases nothing place entry found
    exact (Option.some.inj found).symm
  · intro place there
    obtain ⟨entry, found⟩ := Option.isSome_iff_exists.mp there
    cases nothing place entry found
    rfl

end FormatCompiler.Disk
