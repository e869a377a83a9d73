import Mathlib.Data.List.Chain
import Mathlib.Data.List.Nodup
import Mathlib.Logic.Relation
import FormatCompiler.Imports.Visit
import FormatCompiler.Proofs.Outcome

/-!
The visit of a file against the graph of imports. What a visit loads is ordered: every file comes
behind the files it imports, so nothing can be on a cycle and nothing that is needed is missing.
What stops a visit is an obstacle that the root runs into: a file that cannot be read, an import
that means nothing, or a chain of imports that comes back to itself.
-/

namespace FormatCompiler.Imports

set_option autoImplicit false

open Relation (ReflTransGen TransGen)

/-- One file imports another. -/
def ImportsFrom (disk : Disk) (roots : List String) (file target : Place) : Prop :=
  ∃ format, readAt disk file = .ok format ∧
    ∃ name ∈ format.imports, resolve disk roots file.path name = .ok target

/-- A file that can be read and whose imports all mean a file. -/
def Loadable (disk : Disk) (roots : List String) (file : Place) : Prop :=
  ∃ format, readAt disk file = .ok format ∧
    ∀ name ∈ format.imports, ∃ target, resolve disk roots file.path name = .ok target

/-- A file holds a format, and the imports of that are at given places, in the order it names
them. -/
structure ResolvesTo (disk : Disk) (roots : List String) (file : Place) (format : Format)
    (targets : List Place) : Prop where
  read : readAt disk file = .ok format
  resolved : format.imports.map (resolve disk roots file.path) = targets.map .ok

def places (loaded : List LoadedFile) : List Place :=
  loaded.map LoadedFile.place

/-- Files that come behind all they import, each once. -/
inductive Ordered (disk : Disk) (roots : List String) : List LoadedFile → Prop where
  | nil : Ordered disk roots []
  | snoc {loaded : List LoadedFile} {file : LoadedFile} (earlier : Ordered disk roots loaded)
      (resolves : ResolvesTo disk roots file.place file.format file.imports)
      (behind : ∀ target ∈ file.imports, target ∈ places loaded)
      (fresh : file.place ∉ places loaded) : Ordered disk roots (loaded ++ [file])

/-- What stops a visit that starts at `root`. -/
inductive Obstacle (disk : Disk) (roots : List String) (root : Place) : LoadFault → Prop where
  | unreadable {file : Place} {fault : LoadFault}
      (reached : ReflTransGen (ImportsFrom disk roots) root file)
      (unread : readAt disk file = .error fault) : Obstacle disk roots root fault
  | unresolved {file : Place} {format : Format} {name : String} {fault : LoadFault}
      (reached : ReflTransGen (ImportsFrom disk roots) root file)
      (read : readAt disk file = .ok format) (member : name ∈ format.imports)
      (nowhere : resolve disk roots file.path name = .error fault) : Obstacle disk roots root fault
  | cycle {before : List Place} {last : Place} (start : (before ++ [last]).head? = some root)
      (linked : (before ++ [last]).IsChain (ImportsFrom disk roots)) (again : last ∈ before) :
      Obstacle disk roots root (.cycle (before ++ [last]))

variable {disk : Disk} {roots : List String}

section Graph

@[simp] theorem places_append (front back : List LoadedFile) :
    places (front ++ back) = places front ++ places back :=
  List.map_append

@[simp] theorem places_singleton (file : LoadedFile) : places [file] = [file.place] := rfl

theorem mem_files_of_readAt {file : Place} {format : Format}
    (read : readAt disk file = .ok format) : file ∈ disk.files := by
  unfold readAt parse at read
  obtain ⟨text, found, -⟩ := Except.bind_eq_ok_iff.mp read
  rw [Except.mapError_eq_ok_iff] at found
  unfold Disk.readAt Disk.entry? at found
  split at found
  · cases found
  · cases found
  · next bytes entry =>
    split at entry
    · cases entry
    · obtain ⟨before, after, shape, -⟩ := List.lookup_eq_some_iff.mp entry
      have stored : (file, Entry.file bytes) ∈ disk.entries := by simp [shape]
      exact List.mem_filterMap.mpr ⟨_, stored, rfl⟩

theorem readAt_ne_cycle (file : Place) (chain : List Place) :
    readAt disk file ≠ .error (.cycle chain) := by
  unfold readAt parse
  intro failed
  rcases Except.bind_eq_error_iff.mp failed with unread | ⟨text, -, malformed⟩
  · obtain ⟨cause, -, same⟩ := Except.mapError_eq_error_iff.mp unread
    cases same
  · obtain ⟨cause, -, same⟩ := Except.mapError_eq_error_iff.mp malformed
    cases same

theorem resolve_ne_cycle (importing name : String) (chain : List Place) :
    resolve disk roots importing name ≠ .error (.cycle chain) := by
  unfold resolve
  split <;> simp

namespace ResolvesTo

variable {file : Place} {format : Format} {targets : List Place}

theorem importsFrom_iff (resolves : ResolvesTo disk roots file format targets) (target : Place) :
    ImportsFrom disk roots file target ↔ target ∈ targets := by
  have listed : target ∈ targets ↔
      .ok target ∈ format.imports.map (resolve disk roots file.path) := by
    simp [resolves.resolved]
  rw [listed, List.mem_map]
  constructor
  · rintro ⟨other, read, name, member, resolved⟩
    cases resolves.read.symm.trans read
    exact ⟨name, member, resolved⟩
  · rintro ⟨name, member, resolved⟩
    exact ⟨format, resolves.read, name, member, resolved⟩

theorem loadable (resolves : ResolvesTo disk roots file format targets) :
    Loadable disk roots file := by
  refine ⟨format, resolves.read, ?_⟩
  intro name member
  have listed : resolve disk roots file.path name ∈ targets.map .ok := by
    rw [← resolves.resolved]
    exact List.mem_map_of_mem member
  obtain ⟨target, -, same⟩ := List.mem_map.mp listed
  exact ⟨target, same.symm⟩

end ResolvesTo

namespace Ordered

variable {loaded : List LoadedFile}

theorem resolves_of_mem (ordered : Ordered disk roots loaded) {file : LoadedFile}
    (member : file ∈ loaded) : ResolvesTo disk roots file.place file.format file.imports := by
  induction ordered with
  | nil => cases member
  | snoc earlier resolves behind fresh ih =>
    rcases List.mem_append.mp member with old | new
    · exact ih old
    · cases List.mem_singleton.mp new
      exact resolves

theorem nodup (ordered : Ordered disk roots loaded) : (places loaded).Nodup := by
  induction ordered with
  | nil => exact List.nodup_nil
  | snoc earlier resolves behind fresh ih =>
    rw [places_append, places_singleton, ← List.concat_eq_append]
    exact List.Nodup.concat fresh ih

theorem closed (ordered : Ordered disk roots loaded) {file target : Place}
    (member : file ∈ places loaded) (edge : ImportsFrom disk roots file target) :
    target ∈ places loaded := by
  induction ordered with
  | nil => cases member
  | snoc earlier resolves behind fresh ih =>
    rw [places_append] at member ⊢
    apply List.mem_append_left
    rcases List.mem_append.mp member with old | new
    · exact ih old
    · cases List.mem_singleton.mp new
      exact behind target ((resolves.importsFrom_iff target).mp edge)

theorem mem_of_reached (ordered : Ordered disk roots loaded) {file target : Place}
    (member : file ∈ places loaded) (reached : ReflTransGen (ImportsFrom disk roots) file target) :
    target ∈ places loaded := by
  induction reached with
  | refl => exact member
  | tail path edge ih => exact ordered.closed ih edge

theorem acyclic (ordered : Ordered disk roots loaded) {file : Place}
    (member : file ∈ places loaded) : ¬ TransGen (ImportsFrom disk roots) file file := by
  induction ordered with
  | nil => cases member
  | @snoc loaded last earlier resolves behind fresh ih =>
    rcases List.mem_append.mp (places_append _ _ ▸ member) with old | new
    · exact ih old
    · cases List.mem_singleton.mp new
      intro cycle
      -- All that the last file needs is loaded before it, so that nothing leads back to it.
      obtain ⟨target, edge, back⟩ := Relation.TransGen.head'_iff.mp cycle
      have first : target ∈ places loaded :=
        behind target ((resolves.importsFrom_iff target).mp edge)
      exact fresh (earlier.mem_of_reached first back)

end Ordered

theorem transGen_of_isChain {file last : Place} {between : List Place}
    (linked : (file :: (between ++ [last])).IsChain (ImportsFrom disk roots)) :
    TransGen (ImportsFrom disk roots) file last := by
  induction between generalizing file with
  | nil => exact .single (List.isChain_pair.mp linked)
  | cons next between ih =>
    obtain ⟨edge, rest⟩ := List.isChain_cons_cons.mp linked
    exact .head edge (ih rest)

theorem reached_of_isChain {root last : Place} {before : List Place}
    (start : (before ++ [last]).head? = some root)
    (linked : (before ++ [last]).IsChain (ImportsFrom disk roots)) :
    ReflTransGen (ImportsFrom disk roots) root last := by
  cases before with
  | nil =>
    cases start
    exact .refl
  | cons first between =>
    cases start
    exact (transGen_of_isChain linked).to_reflTransGen

end Graph

section Steps

variable {free stack : List Place} {loaded next : List LoadedFile} {place : Place}
  {fault : LoadFault}

theorem any_place_iff :
    (loaded.any fun file => file.place == place) = true ↔ place ∈ places loaded := by
  simp [places]

theorem visit_eq_ok (found : visit disk roots free stack loaded place = .ok next) :
    place ∈ places loaded ∧ next = loaded ∨
      place ∉ places loaded ∧ place ∈ free ∧ ∃ format before imports,
        readAt disk place = .ok format ∧
        visitAll disk roots (others place free) (stack ++ [place]) loaded place format.imports =
          .ok (before, imports) ∧
        next = before ++ [⟨place, format, imports⟩] := by
  rw [visit] at found
  split at found
  · next known =>
    cases found
    exact .inl ⟨any_place_iff.mp known, rfl⟩
  · next unknown =>
    rw [any_place_iff] at unknown
    split at found
    · cases found
    · next format read =>
      split at found
      · next member =>
        split at found
        · cases found
        · next before imports inner =>
          cases found
          exact .inr ⟨unknown, member, format, before, imports, read, inner, rfl⟩
      · cases found

theorem visit_eq_error (failed : visit disk roots free stack loaded place = .error fault) :
    readAt disk place = .error fault ∨ ∃ format, readAt disk place = .ok format ∧
      (place ∉ free ∧ fault = .cycle (stack ++ [place]) ∨
        place ∈ free ∧ visitAll disk roots (others place free) (stack ++ [place]) loaded place
          format.imports = .error fault) := by
  rw [visit] at failed
  split at failed
  · cases failed
  · split at failed
    · next other unread =>
      cases failed
      exact .inl unread
    · next format read =>
      refine .inr ⟨format, read, ?_⟩
      split at failed
      · next member =>
        split at failed
        · next other inner =>
          cases failed
          exact .inr ⟨member, inner⟩
        · cases failed
      · next closed =>
        cases failed
        exact .inl ⟨closed, rfl⟩

variable {importing : Place} {name : String} {names : List String}

theorem visitAll_cons_eq_ok {all : List LoadedFile} {imports : List Place}
    (found : visitAll disk roots free stack loaded importing (name :: names) = .ok (all, imports)) :
    ∃ target next targets, resolve disk roots importing.path name = .ok target ∧
      visit disk roots free stack loaded target = .ok next ∧
      visitAll disk roots free stack next importing names = .ok (all, targets) ∧
      imports = target :: targets := by
  rw [visitAll] at found
  split at found
  · cases found
  · next target resolved =>
    split at found
    · cases found
    · next next visited =>
      split at found
      · cases found
      · next all targets rest =>
        cases found
        exact ⟨target, next, targets, resolved, visited, rest, rfl⟩

theorem visitAll_cons_eq_error
    (failed : visitAll disk roots free stack loaded importing (name :: names) = .error fault) :
    resolve disk roots importing.path name = .error fault ∨
      ∃ target, resolve disk roots importing.path name = .ok target ∧
        (visit disk roots free stack loaded target = .error fault ∨
          ∃ next, visitAll disk roots free stack next importing names = .error fault) := by
  rw [visitAll] at failed
  split at failed
  · next other unresolved =>
    cases failed
    exact .inl unresolved
  · next target resolved =>
    refine .inr ⟨target, resolved, ?_⟩
    split at failed
    · next other unvisited =>
      cases failed
      exact .inl unvisited
    · next next visited =>
      split at failed
      · next other rest =>
        cases failed
        exact .inr ⟨next, rest⟩
      · cases failed

end Steps

section Success

/-- What a visit of `start` makes of the files loaded before: it adds free files that `start`
needs. -/
structure Grows (disk : Disk) (roots : List String) (free : List Place) (start : Place)
    (loaded next : List LoadedFile) : Prop where
  ordered : Ordered disk roots next
  kept : places loaded ⊆ places next
  added : ∀ place ∈ places next, place ∈ places loaded ∨
    place ∈ free ∧ ReflTransGen (ImportsFrom disk roots) start place

variable {free stack : List Place} {loaded next : List LoadedFile} {place : Place}

theorem Grows.refl (ordered : Ordered disk roots loaded) :
    Grows disk roots free place loaded loaded :=
  ⟨ordered, List.Subset.refl _, fun _ member => .inl member⟩

theorem Grows.trans {all : List LoadedFile} {start target : Place}
    (edge : ImportsFrom disk roots start target) (first : Grows disk roots free target loaded next)
    (rest : Grows disk roots free start next all) : Grows disk roots free start loaded all := by
  refine ⟨rest.ordered, List.Subset.trans first.kept rest.kept, ?_⟩
  intro place member
  rcases rest.added place member with old | new
  · rcases first.added place old with older | ⟨isFree, reached⟩
    · exact .inl older
    · exact .inr ⟨isFree, .head edge reached⟩
  · exact .inr new

theorem visitAll_grows {importing : Place} {format : Format}
    (read : readAt disk importing = .ok format)
    (visits : ∀ {loaded next target}, Ordered disk roots loaded →
      visit disk roots free stack loaded target = .ok next →
      Grows disk roots free target loaded next ∧ target ∈ places next)
    (names : List String) (within : names ⊆ format.imports) {all : List LoadedFile}
    {imports : List Place} (ordered : Ordered disk roots loaded)
    (found : visitAll disk roots free stack loaded importing names = .ok (all, imports)) :
    Grows disk roots free importing loaded all ∧
      names.map (resolve disk roots importing.path) = imports.map .ok ∧
      ∀ target ∈ imports, target ∈ places all := by
  induction names generalizing loaded imports with
  | nil =>
    rw [visitAll] at found
    cases found
    exact ⟨.refl ordered, rfl, by simp⟩
  | cons name names ih =>
    obtain ⟨target, next, targets, resolved, visited, rest, rfl⟩ := visitAll_cons_eq_ok found
    obtain ⟨member, within⟩ := List.cons_subset.mp within
    have edge : ImportsFrom disk roots importing target := ⟨format, read, name, member, resolved⟩
    obtain ⟨first, loadedTarget⟩ := visits ordered visited
    obtain ⟨others, resolvedRest, loadedRest⟩ := ih within first.ordered rest
    refine ⟨.trans edge first others, ?_, ?_⟩
    · rw [List.map_cons, List.map_cons, resolved, resolvedRest]
    · intro file inside
      rcases List.mem_cons.mp inside with rfl | inside
      · exact others.kept loadedTarget
      · exact loadedRest file inside

theorem not_mem_others (place : Place) (free : List Place) : place ∉ others place free := by
  simp [others]

theorem visit_grows {free stack : List Place} {loaded next : List LoadedFile} {place : Place}
    (ordered : Ordered disk roots loaded)
    (found : visit disk roots free stack loaded place = .ok next) :
    Grows disk roots free place loaded next ∧ place ∈ places next := by
  rcases visit_eq_ok found with
    ⟨known, rfl⟩ | ⟨unknown, member, format, before, imports, read, inner, rfl⟩
  · exact ⟨.refl ordered, known⟩
  · obtain ⟨grows, resolved, behind⟩ :=
      visitAll_grows read (fun ordered found => visit_grows ordered found) format.imports
        (List.Subset.refl _) ordered inner
    -- The file is not free while its imports are visited, so none of those visits loads it.
    have fresh : place ∉ places before := by
      intro inside
      rcases grows.added place inside with old | ⟨isFree, -⟩
      · exact unknown old
      · exact not_mem_others place free isFree
    refine ⟨⟨.snoc grows.ordered ⟨read, resolved⟩ behind fresh, ?_, ?_⟩, by simp⟩
    · rw [places_append]
      exact List.subset_append_of_subset_left _ grows.kept
    · intro file inside
      rw [places_append, places_singleton] at inside
      rcases List.mem_append.mp inside with old | new
      · rcases grows.added file old with older | ⟨isFree, reached⟩
        · exact .inl older
        · exact .inr ⟨(List.mem_filter.mp isFree).1, reached⟩
      · cases List.mem_singleton.mp new
        exact .inr ⟨member, .refl⟩
termination_by free.length
decreasing_by exact others_length member

end Success

section Failure

/-- A visit of `place` that started at `root`: the stack is the way there, and a file that is not
free any more is on it. -/
structure OnPath (disk : Disk) (roots : List String) (root : Place) (free stack : List Place)
    (place : Place) : Prop where
  start : (stack ++ [place]).head? = some root
  linked : (stack ++ [place]).IsChain (ImportsFrom disk roots)
  covers : ∀ file ∈ disk.files, file ∈ free ∨ file ∈ stack

variable {root place : Place} {free stack : List Place} {fault : LoadFault}

theorem OnPath.initial (disk : Disk) (roots : List String) (place : Place) :
    OnPath disk roots place disk.files [] place :=
  ⟨rfl, List.isChain_singleton place, fun _ member => .inl member⟩

theorem OnPath.enter (inside : OnPath disk roots root free stack place) {target : Place}
    (edge : ImportsFrom disk roots place target) :
    OnPath disk roots root (others place free) (stack ++ [place]) target := by
  refine ⟨?_, ?_, ?_⟩
  · rw [List.head?_append, inside.start]
    rfl
  · apply inside.linked.append (List.isChain_singleton target)
    intro last isLast first isFirst
    cases isFirst
    rw [List.getLast?_concat] at isLast
    cases isLast
    exact edge
  · intro file member
    by_cases same : file = place
    · exact .inr (by simp [same])
    · rcases inside.covers file member with isFree | onStack
      · exact .inl (List.mem_filter.mpr ⟨isFree, by simpa using same⟩)
      · exact .inr (List.mem_append_left _ onStack)

theorem visitAll_obstacle {importing : Place} {format : Format} {loaded : List LoadedFile}
    (read : readAt disk importing = .ok format)
    (reached : ReflTransGen (ImportsFrom disk roots) root importing)
    (visits : ∀ {loaded target}, ImportsFrom disk roots importing target →
      visit disk roots free stack loaded target = .error fault → Obstacle disk roots root fault)
    (names : List String) (within : names ⊆ format.imports)
    (failed : visitAll disk roots free stack loaded importing names = .error fault) :
    Obstacle disk roots root fault := by
  induction names generalizing loaded with
  | nil =>
    rw [visitAll] at failed
    cases failed
  | cons name names ih =>
    obtain ⟨member, within⟩ := List.cons_subset.mp within
    rcases visitAll_cons_eq_error failed with
      unresolved | ⟨target, resolved, unvisited | ⟨next, rest⟩⟩
    · exact .unresolved reached read member unresolved
    · exact visits ⟨format, read, name, member, resolved⟩ unvisited
    · exact ih within rest

theorem visit_obstacle {free stack : List Place} {loaded : List LoadedFile} {place : Place}
    (inside : OnPath disk roots root free stack place)
    (failed : visit disk roots free stack loaded place = .error fault) :
    Obstacle disk roots root fault := by
  rcases visit_eq_error failed with unread | ⟨format, read, ⟨closed, rfl⟩ | ⟨member, inner⟩⟩
  · exact .unreadable (reached_of_isChain inside.start inside.linked) unread
  · -- What can be read is a file of the disk, and one that is not free can only be on the stack.
    have again : place ∈ stack :=
      (inside.covers place (mem_files_of_readAt read)).resolve_left closed
    exact .cycle inside.start inside.linked again
  · exact visitAll_obstacle read (reached_of_isChain inside.start inside.linked)
      (fun edge failed => visit_obstacle (inside.enter edge) failed) format.imports
      (List.Subset.refl _) inner
termination_by free.length
decreasing_by exact others_length member

/-- Nothing stops a visit where all files that the root needs can be loaded and none needs
itself. -/
theorem Obstacle.not_sound (obstacle : Obstacle disk roots root fault)
    (sound : ∀ file, ReflTransGen (ImportsFrom disk roots) root file →
      Loadable disk roots file ∧ ¬ TransGen (ImportsFrom disk roots) file file) : False := by
  cases obstacle with
  | unreadable reached unread =>
    obtain ⟨format, read, -⟩ := (sound _ reached).1
    cases unread.symm.trans read
  | unresolved reached read member nowhere =>
    obtain ⟨format, again, resolves⟩ := (sound _ reached).1
    cases read.symm.trans again
    obtain ⟨target, resolved⟩ := resolves _ member
    cases nowhere.symm.trans resolved
  | @cycle before last start linked again =>
    obtain ⟨front, back, rfl⟩ := List.append_of_mem again
    have round : TransGen (ImportsFrom disk roots) last last := by
      rw [List.append_assoc] at linked
      exact transGen_of_isChain linked.right_of_append
    exact (sound last (reached_of_isChain start linked)).2 round

end Failure

section Whole

variable {place : Place} {files : Closure} {fault : LoadFault}

/-- The closure of a file is what a visit of it loads where nothing is loaded yet. -/
theorem visit_eq_closure (disk : Disk) (roots : List String) (place : Place) :
    visit disk roots disk.files [] [] place =
      (closure disk roots place).map fun files => files.needed ++ [files.root] := by
  rw [visit, closure]
  cases read : readAt disk place with
  | error fault => rfl
  | ok format =>
    have member : place ∈ disk.files := mem_files_of_readAt read
    simp only [List.any_nil, Bool.false_eq_true, ↓reduceIte, member, ↓reduceDIte, List.nil_append]
    cases inner : visitAll disk roots (others place disk.files) [place] [] place format.imports <;>
      simp [bind, Except.bind, Except.map, pure, Except.pure, inner]

theorem closure_ordered (found : closure disk roots place = .ok files) :
    Ordered disk roots (files.needed ++ [files.root]) ∧
      ∀ file, file ∈ places (files.needed ++ [files.root]) ↔
        ReflTransGen (ImportsFrom disk roots) place file := by
  have visited : visit disk roots disk.files [] [] place = .ok (files.needed ++ [files.root]) := by
    rw [visit_eq_closure, found]
    rfl
  obtain ⟨grows, member⟩ := visit_grows .nil visited
  refine ⟨grows.ordered, fun file => ⟨?_, ?_⟩⟩
  · intro inside
    rcases grows.added file inside with old | ⟨-, reached⟩
    · cases old
    · exact reached
  · intro reached
    exact grows.ordered.mem_of_reached member reached

theorem closure_obstacle (failed : closure disk roots place = .error fault) :
    Obstacle disk roots place fault := by
  have stopped : visit disk roots disk.files [] [] place = .error fault := by
    rw [visit_eq_closure, failed]
    rfl
  exact visit_obstacle (.initial disk roots place) stopped

theorem closure_root (found : closure disk roots place = .ok files) : files.root.place = place := by
  unfold closure at found
  obtain ⟨format, -, rest⟩ := Except.bind_eq_ok_iff.mp found
  obtain ⟨⟨needed, imports⟩, -, result⟩ := Except.bind_eq_ok_iff.mp rest
  cases result
  rfl

/-- The closure of a file is found exactly when all files that it reaches can be loaded and none of
them reaches itself again. It then holds these files, each once and with its imports in the order it
names them. A cycle that is reported is one: a chain of imports from the file to one that the chain
has met before. -/
theorem closure_exact (disk : Disk) (roots : List String) (place : Place) :
    ((∃ files, closure disk roots place = .ok files) ↔
      ∀ file, ReflTransGen (ImportsFrom disk roots) place file →
        Loadable disk roots file ∧ ¬ TransGen (ImportsFrom disk roots) file file) ∧
    (∀ files, closure disk roots place = .ok files →
      files.root.place = place ∧ (places (files.needed ++ [files.root])).Nodup ∧
      (∀ file, file ∈ places (files.needed ++ [files.root]) ↔
        ReflTransGen (ImportsFrom disk roots) place file) ∧
      ∀ file ∈ files.needed ++ [files.root],
        ResolvesTo disk roots file.place file.format file.imports) ∧
    ∀ chain, closure disk roots place = .error (.cycle chain) →
      chain.head? = some place ∧ chain.IsChain (ImportsFrom disk roots) ∧
      ∃ before last, chain = before ++ [last] ∧ last ∈ before := by
  refine ⟨⟨?_, ?_⟩, ?_, ?_⟩
  · rintro ⟨files, found⟩ file reached
    obtain ⟨ordered, loaded⟩ := closure_ordered found
    have member := (loaded file).mpr reached
    obtain ⟨entry, inside, rfl⟩ := List.mem_map.mp member
    exact ⟨(ordered.resolves_of_mem inside).loadable, ordered.acyclic member⟩
  · intro sound
    cases result : closure disk roots place with
    | ok files => exact ⟨files, rfl⟩
    | error fault => exact ((closure_obstacle result).not_sound sound).elim
  · intro files found
    obtain ⟨ordered, loaded⟩ := closure_ordered found
    exact ⟨closure_root found, ordered.nodup, loaded, fun file => ordered.resolves_of_mem⟩
  · intro chain failed
    cases closure_obstacle failed with
    | unreadable reached unread => exact (readAt_ne_cycle _ chain unread).elim
    | unresolved reached read member nowhere => exact (resolve_ne_cycle _ _ chain nowhere).elim
    | cycle start linked again => exact ⟨start, linked, _, _, rfl, again⟩

end Whole

/-- A text of some lines. -/
def textOf (lines : List String) : List Char :=
  lines.flatMap fun line => line.toList ++ ['\n']

end FormatCompiler.Imports

/-- A disk with files in its root directory, given by their names and texts. -/
def FormatCompiler.Disk.holding (files : List (String × List Char)) : FormatCompiler.Disk where
  here := []
  entries := files.map fun (name, text) => ([name], .file (Text.Utf8.encode text))
