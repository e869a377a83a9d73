import Mathlib.Data.List.Nodup
import FormatCompiler.Imports.Merge
import FormatCompiler.Proofs.ImportVisit
import FormatCompiler.Proofs.Outcome

/-!
What a listing is merged from, and what becomes of it. The files it needs are those of its unfolded
tree of imports, read depth first with each file behind its imports, and each taken where it is met
first. Merging walks over the imports again, with marks of its own, and comes to the files in this
order. It fails at the first symbol that is declared already and otherwise adds the types and enums
of the files to those of the listing.
-/

namespace FormatCompiler.Imports

set_option autoImplicit false

open Relation (ReflTransGen)

section PostOrder

/-- The unfolded import trees of some files, each file behind what it imports. A file that is
imported twice is there twice. -/
inductive PostOrder (disk : Disk) (roots : List String) : List Place → List Place → Prop where
  | nil : PostOrder disk roots [] []
  | cons {file : Place} {format : Format} {targets rest below after : List Place}
      (resolves : ResolvesTo disk roots file format targets)
      (inner : PostOrder disk roots targets below) (later : PostOrder disk roots rest after) :
      PostOrder disk roots (file :: rest) (below ++ file :: after)

variable {disk : Disk} {roots : List String}

theorem PostOrder.append {front back order next : List Place}
    (first : PostOrder disk roots front order) (second : PostOrder disk roots back next) :
    PostOrder disk roots (front ++ back) (order ++ next) := by
  induction first with
  | nil => exact second
  | cons resolves inner later _ ih =>
    rw [List.cons_append, List.append_assoc, List.cons_append]
    exact .cons resolves inner ih

theorem PostOrder.single {file : Place} {format : Format} {targets below : List Place}
    (resolves : ResolvesTo disk roots file format targets)
    (inner : PostOrder disk roots targets below) : PostOrder disk roots [file] (below ++ [file]) :=
  .cons resolves inner .nil

/-- Trees of loaded files hold loaded files only, if each of the files has one that does. -/
theorem exists_postOrder {known : List Place} {targets : List Place}
    (each : ∀ file ∈ targets, ∃ order, PostOrder disk roots [file] order ∧ order ⊆ known) :
    ∃ order, PostOrder disk roots targets order ∧ order ⊆ known := by
  induction targets with
  | nil => exact ⟨[], .nil, List.nil_subset _⟩
  | cons file targets ih =>
    obtain ⟨⟨first, unfolded, within⟩, rest⟩ := List.forall_mem_cons.mp each
    obtain ⟨later, unfoldedRest, withinRest⟩ := ih rest
    exact ⟨first ++ later, unfolded.append unfoldedRest,
      List.append_subset.mpr ⟨within, withinRest⟩⟩

theorem Ordered.exists_postOrder {loaded : List LoadedFile} (ordered : Ordered disk roots loaded)
    {file : Place} (member : file ∈ places loaded) :
    ∃ order, PostOrder disk roots [file] order ∧ order ⊆ places loaded := by
  induction ordered generalizing file with
  | nil => cases member
  | @snoc loaded last earlier resolves behind fresh ih =>
    rw [places_append] at member ⊢
    rcases List.mem_append.mp member with old | new
    · obtain ⟨order, unfolded, within⟩ := ih old
      exact ⟨order, unfolded, List.subset_append_of_subset_left _ within⟩
    · cases List.mem_singleton.mp new
      obtain ⟨below, unfolded, within⟩ :=
        Imports.exists_postOrder fun target inside => ih (behind target inside)
      refine ⟨below ++ [last.place], .single resolves unfolded, ?_⟩
      exact List.append_subset.mpr
        ⟨List.subset_append_of_subset_left _ within, List.subset_append_right _ _⟩

theorem eraseDups_append_known {seen order : List Place} (known : order ⊆ seen) :
    (seen ++ order).eraseDups = seen.eraseDups := by
  have none : order.removeAll seen = [] := by
    apply List.filter_eq_nil_iff.mpr
    intro file member
    simp [known member]
  rw [List.eraseDups_append, none, List.eraseDups_nil, List.append_nil]

theorem eraseDups_append_new {seen : List Place} {file : Place} (new : file ∉ seen) :
    (seen ++ [file]).eraseDups = seen.eraseDups ++ [file] := by
  have kept : [file].removeAll seen = [file] := by simp [List.removeAll, new]
  rw [List.eraseDups_append, kept]
  rfl

theorem visitAll_postOrder {free stack : List Place} {importing : Place}
    (visits : ∀ {loaded next target seen}, Ordered disk roots loaded →
      places loaded = seen.eraseDups → visit disk roots free stack loaded target = .ok next →
      ∃ order, PostOrder disk roots [target] order ∧ places next = (seen ++ order).eraseDups)
    (names : List String) {loaded all : List LoadedFile}
    {imports seen : List Place} (ordered : Ordered disk roots loaded)
    (history : places loaded = seen.eraseDups)
    (found : visitAll disk roots free stack loaded importing names = .ok (all, imports)) :
    ∃ order, PostOrder disk roots imports order ∧ places all = (seen ++ order).eraseDups := by
  induction names generalizing loaded imports seen with
  | nil =>
    rw [visitAll] at found
    cases found
    exact ⟨[], .nil, by rw [List.append_nil, history]⟩
  | cons name names ih =>
    obtain ⟨target, next, targets, resolved, visited, rest, rfl⟩ := visitAll_cons_eq_ok found
    obtain ⟨first, unfolded, loadedFirst⟩ := visits ordered history visited
    obtain ⟨later, unfoldedRest, loadedRest⟩ :=
      ih (visit_grows ordered visited).1.ordered loadedFirst rest
    refine ⟨first ++ later, unfolded.append unfoldedRest, ?_⟩
    rw [loadedRest, List.append_assoc]

theorem visit_postOrder {free stack seen : List Place} {loaded next : List LoadedFile}
    {place : Place} (ordered : Ordered disk roots loaded) (history : places loaded = seen.eraseDups)
    (found : visit disk roots free stack loaded place = .ok next) :
    ∃ order, PostOrder disk roots [place] order ∧ places next = (seen ++ order).eraseDups := by
  have mem_seen : ∀ file, file ∈ places loaded ↔ file ∈ seen := by
    intro file
    rw [history, List.mem_eraseDups]
  rcases visit_eq_ok found with
    ⟨known, rfl⟩ | ⟨unknown, member, format, before, imports, read, inner, rfl⟩
  · -- The tree of a loaded file is loaded, so that it adds nothing to what was met.
    obtain ⟨order, unfolded, within⟩ := ordered.exists_postOrder known
    refine ⟨order, unfolded, ?_⟩
    rw [history, eraseDups_append_known fun file inside => (mem_seen file).mp (within inside)]
  · obtain ⟨order, unfolded, loadedBefore⟩ := visitAll_postOrder
      (fun ordered history found => visit_postOrder ordered history found) format.imports ordered
      history inner
    have grown := (visit_grows ordered found).1.ordered
    have resolves : ResolvesTo disk roots place format imports :=
      grown.resolves_of_mem (List.mem_append_right _ (List.mem_singleton_self _))
    have distinct : (places before ++ [place]).Nodup := by
      simpa only [places_append, places_singleton] using grown.nodup
    have new : place ∉ seen ++ order := by
      intro old
      rw [← List.mem_eraseDups, ← loadedBefore] at old
      exact (List.nodup_append.mp distinct).2.2 place old place (List.mem_singleton_self place) rfl
    refine ⟨order ++ [place], .single resolves unfolded, ?_⟩
    rw [places_append, places_singleton, loadedBefore, ← List.append_assoc,
      eraseDups_append_new new]
termination_by free.length
decreasing_by exact others_length member

end PostOrder

section Symbols

/-- The symbols a format declares, in order and with their kinds. A type and an enum may have the
same name. -/
def symbols (format : Format) : List (SymbolKind × String) :=
  (typeSymbols format).map (SymbolKind.type, ·) ++ (enumSymbols format).map (SymbolKind.enum, ·)

/-- Symbols that can be declared beside those that are declared. -/
def Fresh (declared new : List (SymbolKind × String)) : Prop :=
  new.Nodup ∧ new.Disjoint declared

/-- The first of some symbols that cannot be declared, because it is declared or stands earlier. -/
def FirstClash (declared new : List (SymbolKind × String)) (clash : SymbolKind × String) : Prop :=
  ∃ before after, new = before ++ clash :: after ∧ Fresh declared before ∧
    (clash ∈ declared ∨ clash ∈ before)

variable {declared known front back new : List (SymbolKind × String)}
  {symbol clash : SymbolKind × String}

theorem fresh_nil : Fresh declared [] :=
  ⟨List.nodup_nil, List.disjoint_nil_left _⟩

theorem fresh_cons : Fresh declared (symbol :: new) ↔
    symbol ∉ declared ∧ Fresh (symbol :: declared) new := by
  simp only [Fresh, List.nodup_cons, List.disjoint_cons_left, List.disjoint_cons_right]
  tauto

theorem Fresh.congr (same : ∀ symbol, symbol ∈ declared ↔ symbol ∈ known)
    (fresh : Fresh declared new) : Fresh known new :=
  ⟨fresh.1, fun _ inside outside => fresh.2 inside ((same _).mpr outside)⟩

theorem FirstClash.congr (same : ∀ symbol, symbol ∈ declared ↔ symbol ∈ known)
    (first : FirstClash declared new clash) : FirstClash known new clash := by
  obtain ⟨before, after, shape, fresh, again⟩ := first
  exact ⟨before, after, shape, fresh.congr same, again.imp_left (same clash).mp⟩

theorem Fresh.append (first : Fresh declared front) (second : Fresh (front ++ declared) back) :
    Fresh declared (front ++ back) := by
  obtain ⟨distinct, apart⟩ := second
  rw [List.disjoint_append_right] at apart
  refine ⟨?_, List.disjoint_append_left.mpr ⟨first.2, apart.2⟩⟩
  exact first.1.append distinct (List.disjoint_comm.mp apart.1)

theorem FirstClash.append_left (first : FirstClash declared front clash) :
    FirstClash declared (front ++ back) clash := by
  obtain ⟨before, after, rfl, fresh, again⟩ := first
  exact ⟨before, after ++ back, by rw [List.append_assoc, List.cons_append], fresh, again⟩

theorem FirstClash.append_right (first : Fresh declared front)
    (second : FirstClash (front ++ declared) back clash) :
    FirstClash declared (front ++ back) clash := by
  obtain ⟨before, after, rfl, fresh, again⟩ := second
  refine ⟨front ++ before, after, by rw [List.append_assoc], first.append fresh, ?_⟩
  rw [List.mem_append] at again ⊢
  tauto

theorem Fresh.not_firstClash (fresh : Fresh declared new) : ¬ FirstClash declared new clash := by
  rintro ⟨before, after, rfl, -, old | earlier⟩
  · exact fresh.2 (List.mem_append_right _ List.mem_cons_self) old
  · exact (List.nodup_append.mp fresh.1).2.2 clash earlier clash List.mem_cons_self rfl

end Symbols

section Merge

variable {kind : SymbolKind} {names declared next : List String}
  {known : List (SymbolKind × String)} {fault : LoadFault}

theorem mem_cons_iff_of_same (same : ∀ name, (kind, name) ∈ known ↔ name ∈ declared)
    (first name : String) :
    (kind, name) ∈ (kind, first) :: known ↔ name ∈ first :: declared := by
  simp [same]

theorem declare_ok (same : ∀ name, (kind, name) ∈ known ↔ name ∈ declared)
    (found : declare kind declared names = .ok next) :
    Fresh known (names.map (kind, ·)) ∧
      ∀ name, name ∈ next ↔ (kind, name) ∈ names.map (kind, ·) ++ known := by
  induction names generalizing declared known with
  | nil =>
    cases found
    exact ⟨fresh_nil, fun name => (same name).symm⟩
  | cons name names ih =>
    rw [declare] at found
    split at found
    · cases found
    · next absent =>
      obtain ⟨fresh, added⟩ := ih (mem_cons_iff_of_same same name) found
      refine ⟨fresh_cons.mpr ⟨fun old => absent ((same name).mp old), fresh⟩, ?_⟩
      intro other
      rw [added]
      simp only [List.mem_append, List.map_cons, List.mem_cons]
      tauto

theorem declare_error (same : ∀ name, (kind, name) ∈ known ↔ name ∈ declared)
    (failed : declare kind declared names = .error fault) :
    ∃ name, fault = .duplicate kind name ∧ FirstClash known (names.map (kind, ·)) (kind, name) := by
  induction names generalizing declared known with
  | nil => cases failed
  | cons name names ih =>
    rw [declare] at failed
    split at failed
    · next old =>
      cases failed
      exact ⟨name, rfl, [], names.map (kind, ·), rfl, fresh_nil, .inl ((same name).mpr old)⟩
    · next absent =>
      obtain ⟨other, rfl, first⟩ := ih (mem_cons_iff_of_same same name) failed
      have alone : Fresh known [(kind, name)] :=
        fresh_cons.mpr ⟨fun old => absent ((same name).mp old), fresh_nil⟩
      exact ⟨other, rfl, .append_right alone first⟩

/-- The symbols that are declared in a format that others are added to. -/
def Merged.symbols (merged : Merged) : List (SymbolKind × String) :=
  merged.types.map (SymbolKind.type, ·) ++ merged.enums.map (SymbolKind.enum, ·)

variable {merged result : Merged} {format : Format}

theorem Merged.type_mem_symbols (name : String) :
    (.type, name) ∈ merged.symbols ↔ name ∈ merged.types := by
  simp [Merged.symbols]

theorem Merged.enum_mem_symbols (name : String) :
    (.enum, name) ∈ merged.symbols ↔ name ∈ merged.enums := by
  simp [Merged.symbols]

/-- The types of a format do not get in the way of its enums. -/
theorem Merged.enum_mem_symbols_behind (merged : Merged) (types : List String) (name : String) :
    (.enum, name) ∈ types.map (SymbolKind.type, ·) ++ merged.symbols ↔ name ∈ merged.enums := by
  simp [Merged.enum_mem_symbols]

theorem Merged.add_ok (found : merged.add format = .ok result) :
    Fresh merged.symbols (Imports.symbols format) ∧
      (∀ symbol, symbol ∈ result.symbols ↔ symbol ∈ Imports.symbols format ++ merged.symbols) ∧
      result.format = { merged.format with
        types := merged.format.types ++ format.types
        enums := merged.format.enums ++ format.enums } := by
  unfold Merged.add at found
  obtain ⟨types, foundTypes, rest⟩ := Except.bind_eq_ok_iff.mp found
  obtain ⟨enums, foundEnums, done⟩ := Except.bind_eq_ok_iff.mp rest
  cases done
  obtain ⟨freshTypes, addedTypes⟩ := declare_ok Merged.type_mem_symbols foundTypes
  obtain ⟨freshEnums, addedEnums⟩ :=
    declare_ok (merged.enum_mem_symbols_behind (typeSymbols format)) foundEnums
  refine ⟨freshTypes.append freshEnums, ?_, rfl⟩
  rintro ⟨kind, name⟩
  cases kind with
  | type =>
    rw [Merged.type_mem_symbols, addedTypes]
    simp [Imports.symbols]
  | enum =>
    rw [Merged.enum_mem_symbols, addedEnums]
    simp [Imports.symbols]

theorem Merged.add_error (failed : merged.add format = .error fault) :
    ∃ kind name, fault = .duplicate kind name ∧
      FirstClash merged.symbols (Imports.symbols format) (kind, name) := by
  unfold Merged.add at failed
  rcases Except.bind_eq_error_iff.mp failed with failedTypes | ⟨types, foundTypes, rest⟩
  · obtain ⟨name, rfl, first⟩ := declare_error Merged.type_mem_symbols failedTypes
    exact ⟨.type, name, rfl, first.append_left⟩
  · obtain ⟨freshTypes, -⟩ := declare_ok Merged.type_mem_symbols foundTypes
    rcases Except.bind_eq_error_iff.mp rest with failedEnums | ⟨enums, -, done⟩
    · obtain ⟨name, rfl, first⟩ :=
        declare_error (merged.enum_mem_symbols_behind (typeSymbols format)) failedEnums
      exact ⟨.enum, name, rfl, .append_right freshTypes first⟩
    · cases done

theorem foldlM_add_ok {formats : List Format}
    (found : formats.foldlM Merged.add merged = .ok result) :
    Fresh merged.symbols (formats.flatMap symbols) ∧
      result.format = { merged.format with
        types := merged.format.types ++ formats.flatMap Format.types
        enums := merged.format.enums ++ formats.flatMap Format.enums } := by
  induction formats generalizing merged with
  | nil =>
    cases found
    refine ⟨fresh_nil, by simp⟩
  | cons format formats ih =>
    rw [List.foldlM_cons] at found
    obtain ⟨next, added, rest⟩ := Except.bind_eq_ok_iff.mp found
    obtain ⟨fresh, same, shape⟩ := Merged.add_ok added
    obtain ⟨freshRest, shapeRest⟩ := ih rest
    refine ⟨fresh.append (freshRest.congr same), ?_⟩
    rw [shapeRest, shape]
    simp [List.append_assoc]

theorem foldlM_add_error {formats : List Format}
    (failed : formats.foldlM Merged.add merged = .error fault) :
    ∃ kind name, fault = .duplicate kind name ∧
      FirstClash merged.symbols (formats.flatMap symbols) (kind, name) := by
  induction formats generalizing merged with
  | nil => cases failed
  | cons format formats ih =>
    rw [List.foldlM_cons] at failed
    rcases Except.bind_eq_error_iff.mp failed with unadded | ⟨next, added, rest⟩
    · obtain ⟨kind, name, rfl, first⟩ := Merged.add_error unadded
      exact ⟨kind, name, rfl, first.append_left⟩
    · obtain ⟨fresh, same, -⟩ := Merged.add_ok added
      obtain ⟨kind, name, rfl, first⟩ := ih rest
      exact ⟨kind, name, rfl, .append_right fresh (first.congr same)⟩

end Merge

section Walk

variable {files : Closure} {visited rest targets : List Place} {loaded new more : List LoadedFile}
  {place : Place} {file : LoadedFile} {merged : Merged}

/-- Adds the declarations of several files, one after the other. -/
def Merged.addAll (merged : Merged) (loaded : List LoadedFile) : Except LoadFault Merged :=
  (loaded.map LoadedFile.format).foldlM Merged.add merged

theorem Merged.addAll_append (merged : Merged) (front back : List LoadedFile) :
    merged.addAll (front ++ back) = merged.addAll front >>= (Merged.addAll · back) := by
  simp only [addAll, List.map_append, List.foldlM_append]

theorem Merged.addAll_singleton (merged : Merged) (file : LoadedFile) :
    merged.addAll [file] = merged.add file.format := by
  rw [addAll, List.map_singleton, List.foldlM_cons]
  cases merged.add file.format <;> rfl

theorem mergeImports_nil : mergeImports files visited merged [] = .ok ([], merged) := by
  rw [mergeImports]

theorem mergeImports_visited (met : place ∈ visited) :
    mergeImports files visited merged (place :: rest) =
      mergeImports files visited merged rest := by
  rw [mergeImports, dif_pos met]

theorem mergeImports_missing (unmet : place ∉ visited) (missing : files.file? place = none) :
    mergeImports files visited merged (place :: rest) = .error (.unloaded place) := by
  rw [mergeImports, dif_neg unmet]
  split
  · rfl
  · next found => cases missing.symm.trans found

theorem mergeImports_new (unmet : place ∉ visited) (found : files.file? place = some file) :
    mergeImports files visited merged (place :: rest) =
      mergeImports files (place :: visited) merged file.imports >>= fun inner =>
        inner.2.add file.format >>= fun next =>
          (mergeImports files (place :: inner.1 ++ visited) next rest).map fun later =>
            (later.1 ++ place :: inner.1, later.2) := by
  rw [mergeImports, dif_neg unmet]
  split
  · next missing => cases found.symm.trans missing
  · next other same =>
    cases found.symm.trans same
    cases mergeImports files (place :: visited) merged file.imports with
    | error fault => rfl
    | ok inner =>
      change _ = inner.2.add file.format >>= _
      dsimp only
      cases inner.2.add file.format with
      | error fault => rfl
      | ok next =>
        change _ = (mergeImports files (place :: inner.1 ++ visited) next rest).map _
        dsimp only
        cases mergeImports files (place :: inner.1 ++ visited) next rest <;> rfl

/-- Places are come to one after the other. -/
theorem mergeImports_cons :
    mergeImports files visited merged (place :: rest) =
      mergeImports files visited merged [place] >>= fun first =>
        (mergeImports files (first.1 ++ visited) first.2 rest).map fun later =>
          (later.1 ++ first.1, later.2) := by
  by_cases met : place ∈ visited
  · rw [mergeImports_visited met, mergeImports_visited met, mergeImports_nil]
    change _ = (mergeImports files visited merged rest).map fun later => (later.1 ++ [], later.2)
    cases mergeImports files visited merged rest <;> simp [Except.map]
  · cases found : files.file? place with
    | none =>
      rw [mergeImports_missing met found, mergeImports_missing met found]
      rfl
    | some file =>
      rw [mergeImports_new met found, mergeImports_new met found]
      cases mergeImports files (place :: visited) merged file.imports with
      | error fault => rfl
      | ok inner =>
        change inner.2.add file.format >>= _ = (inner.2.add file.format >>= _) >>= _
        cases inner.2.add file.format with
        | error fault => rfl
        | ok next =>
          simp only [mergeImports_nil, bind, Except.bind, Except.map, List.nil_append]

/-- The walk from some places adds certain files in their order, and comes to the places of these
files only. -/
def Merges (files : Closure) (visited targets : List Place) (new : List LoadedFile) : Prop :=
  ∀ merged, mergeImports files visited merged targets =
    (merged.addAll new).map ((places new).reverse, ·)

namespace Merges

theorem nil : Merges files visited [] [] :=
  fun _ => mergeImports_nil

theorem skip (met : place ∈ visited) : Merges files visited [place] [] :=
  fun _ => (mergeImports_visited met).trans mergeImports_nil

theorem enter (unmet : place ∉ visited) (found : files.file? place = some file)
    (inner : Merges files (place :: visited) file.imports new) :
    Merges files visited [place] (new ++ [file]) := by
  have same : file.place = place := by simpa using List.find?_some found
  intro merged
  rw [mergeImports_new unmet found, inner merged, Merged.addAll_append, places_append,
    places_singleton, same, List.reverse_concat]
  cases merged.addAll new with
  | error fault => rfl
  | ok before =>
    change before.add file.format >>= _ = (before.addAll [file]).map _
    rw [Merged.addAll_singleton]
    cases before.add file.format with
    | error fault => rfl
    | ok next => simp only [mergeImports_nil, bind, Except.bind, Except.map, List.nil_append]

theorem cons (first : Merges files visited [place] new)
    (others : Merges files ((places new).reverse ++ visited) rest more) :
    Merges files visited (place :: rest) (new ++ more) := by
  intro merged
  rw [mergeImports_cons, first merged, Merged.addAll_append, places_append, List.reverse_append]
  cases merged.addAll new with
  | error fault => rfl
  | ok between =>
    change (mergeImports files ((places new).reverse ++ visited) between rest).map _ =
      (between.addAll more).map _
    rw [others between]
    cases between.addAll more <;> rfl

end Merges

/-- Files that are found where they were loaded from. -/
def Closure.Holds (files : Closure) (loaded : List LoadedFile) : Prop :=
  ∀ file ∈ loaded, files.file? file.place = some file

/-- The visited places are those of the loaded files, and some that a visit is inside of. -/
structure Marks (free visited : List Place) (loaded : List LoadedFile) : Prop where
  done : places loaded ⊆ visited
  inside : ∀ place ∈ visited, place ∈ places loaded ∨ place ∉ free

variable {free stack : List Place}

theorem Marks.enter (marks : Marks free visited loaded) (place : Place) :
    Marks (others place free) (place :: visited) loaded := by
  refine ⟨List.subset_cons_of_subset place marks.done, ?_⟩
  intro other met
  rcases List.mem_cons.mp met with rfl | met
  · exact .inr (not_mem_others other free)
  · exact (marks.inside other met).imp_right fun taken left => taken (List.mem_of_mem_filter left)

theorem Marks.add (marks : Marks free visited loaded) (new : List LoadedFile) :
    Marks free ((places new).reverse ++ visited) (loaded ++ new) := by
  constructor
  · intro place member
    rw [places_append, List.mem_append] at member
    rw [List.mem_append, List.mem_reverse]
    exact member.symm.imp_right fun old => marks.done old
  · intro place met
    rw [places_append, List.mem_append]
    rw [List.mem_append, List.mem_reverse] at met
    rcases met with added | old
    · exact .inl (.inr added)
    · exact (marks.inside place old).imp_left .inl

variable {disk : Disk} {roots : List String}

theorem visitAll_merges {importing : Place}
    (visits : ∀ {loaded next target visited}, Marks free visited loaded →
      visit disk roots free stack loaded target = .ok next →
      ∃ new, next = loaded ++ new ∧
        ∀ files : Closure, files.Holds new → Merges files visited [target] new)
    (names : List String) {all : List LoadedFile} {imports : List Place}
    (marks : Marks free visited loaded)
    (found : visitAll disk roots free stack loaded importing names = .ok (all, imports)) :
    ∃ new, all = loaded ++ new ∧
      ∀ files : Closure, files.Holds new → Merges files visited imports new := by
  induction names generalizing loaded imports visited with
  | nil =>
    rw [visitAll] at found
    cases found
    exact ⟨[], (List.append_nil _).symm, fun _ _ => .nil⟩
  | cons name names ih =>
    obtain ⟨target, next, targets, -, first, others, rfl⟩ := visitAll_cons_eq_ok found
    obtain ⟨new, rfl, merges⟩ := visits marks first
    obtain ⟨more, rfl, mergesRest⟩ := ih (marks.add new) others
    refine ⟨new ++ more, List.append_assoc .., fun files holds => ?_⟩
    obtain ⟨holdsNew, holdsMore⟩ := List.forall_mem_append.mp holds
    exact (merges files holdsNew).cons (mergesRest files holdsMore)

/-- A visit and the walk over what it has loaded come to the files in the same order. -/
theorem visit_merges {free stack visited : List Place} {loaded next : List LoadedFile}
    {place : Place} (marks : Marks free visited loaded)
    (found : visit disk roots free stack loaded place = .ok next) :
    ∃ new, next = loaded ++ new ∧
      ∀ files : Closure, files.Holds new → Merges files visited [place] new := by
  rcases visit_eq_ok found with
    ⟨known, rfl⟩ | ⟨unknown, member, format, before, imports, -, inner, rfl⟩
  · exact ⟨[], (List.append_nil _).symm, fun _ _ => .skip (marks.done known)⟩
  · obtain ⟨new, rfl, merges⟩ := visitAll_merges
      (fun marks found => visit_merges marks found) format.imports (marks.enter place) inner
    have unmet : place ∉ visited := by
      intro met
      rcases marks.inside place met with old | taken
      · exact unknown old
      · exact taken member
    refine ⟨new ++ [⟨place, format, imports⟩], List.append_assoc .., fun files holds => ?_⟩
    obtain ⟨holdsNew, holdsFile⟩ := List.forall_mem_append.mp holds
    exact .enter unmet (holdsFile _ (List.mem_singleton_self _)) (merges files holdsNew)
termination_by free.length
decreasing_by exact others_length member

end Walk

section Closure

variable {disk : Disk} {roots : List String} {place : Place} {files : Closure}

theorem closure_postOrder (found : closure disk roots place = .ok files) :
    ∃ order, PostOrder disk roots files.root.imports order ∧
      places files.needed = order.eraseDups := by
  unfold closure at found
  obtain ⟨format, -, rest⟩ := Except.bind_eq_ok_iff.mp found
  obtain ⟨⟨needed, imports⟩, visited, done⟩ := Except.bind_eq_ok_iff.mp rest
  cases done
  have history : places [] = ([] : List Place).eraseDups := rfl
  exact visitAll_postOrder
    (fun ordered history found => visit_postOrder ordered history found) format.imports .nil history
    visited

theorem mem_needed_iff (found : closure disk roots place = .ok files) (file : Place) :
    file ∈ places files.needed ↔
      ReflTransGen (ImportsFrom disk roots) place file ∧ file ≠ place := by
  obtain ⟨ordered, loaded⟩ := closure_ordered found
  have distinct := ordered.nodup
  rw [← loaded file]
  rw [places_append, places_singleton, closure_root found] at distinct ⊢
  rw [List.mem_append, List.mem_singleton]
  constructor
  · intro member
    exact ⟨.inl member, fun same => (List.nodup_append.mp distinct).2.2 file member place
      (List.mem_singleton_self place) same⟩
  · rintro ⟨member | same, other⟩
    · exact member
    · exact (other same).elim

theorem file_of_mem (found : closure disk roots place = .ok files) {file : LoadedFile}
    (member : file ∈ files.root :: files.needed) : files.file? file.place = some file := by
  have distinct : (places (files.root :: files.needed)).Nodup := by
    have ordered := (closure_ordered found).1.nodup
    have turned := (List.perm_append_singleton files.root files.needed).map LoadedFile.place
    exact turned.nodup_iff.mp ordered
  cases stored : files.file? file.place with
  | none => exact absurd (beq_self_eq_true _) (List.find?_eq_none.mp stored file member)
  | some other =>
    have same : other.place = file.place := by simpa using List.find?_some stored
    rw [List.inj_on_of_nodup_map distinct (List.mem_of_find?_eq_some stored) member same]

/-- What the walk over the imports adds to the root are the needed files, in their order. -/
theorem merge_eq_addAll (found : closure disk roots place = .ok files) :
    files.merge = ((Merged.ofFormat files.root.format).addAll files.needed).map Merged.format := by
  have holds : files.Holds files.needed := fun file member =>
    file_of_mem found (List.mem_cons_of_mem _ member)
  have root := file_of_mem found List.mem_cons_self
  unfold closure at found
  obtain ⟨format, -, rest⟩ := Except.bind_eq_ok_iff.mp found
  obtain ⟨⟨needed, imports⟩, visited, done⟩ := Except.bind_eq_ok_iff.mp rest
  cases done
  have start : Marks (others place disk.files) [] [] := ⟨List.nil_subset _, by simp⟩
  obtain ⟨_, rfl, merges⟩ := visitAll_merges (fun marks found => visit_merges marks found)
    format.imports start visited
  unfold Closure.merge
  rw [root]
  change mergeImports _ [] (.ofFormat format) imports >>= _ = _
  rw [merges _ holds]
  change _ = ((Merged.ofFormat format).addAll needed).map Merged.format
  cases (Merged.ofFormat format).addAll needed <;> rfl

theorem merge_ok (found : closure disk roots place = .ok files) {whole : Format}
    (merged : files.merge = .ok whole) :
    Fresh (symbols files.root.format) ((files.needed.map LoadedFile.format).flatMap symbols) ∧
      whole = { files.root.format with
        types := files.root.format.types ++
          (files.needed.map LoadedFile.format).flatMap Format.types
        enums := files.root.format.enums ++
          (files.needed.map LoadedFile.format).flatMap Format.enums } := by
  rw [merge_eq_addAll found] at merged
  obtain ⟨result, added, rfl⟩ := Except.map_eq_ok_iff.mp merged
  exact foldlM_add_ok added

theorem merge_error (found : closure disk roots place = .ok files) {fault : LoadFault}
    (failed : files.merge = .error fault) :
    ∃ kind name, fault = .duplicate kind name ∧ FirstClash (symbols files.root.format)
      ((files.needed.map LoadedFile.format).flatMap symbols) (kind, name) := by
  rw [merge_eq_addAll found, Except.map_eq_error_iff] at failed
  exact foldlM_add_error failed

/-- What the closure of a file is merged to. The files it needs are those the file reaches beside
itself, each once, in the order in which the unfolded tree of imports has them first. Merging walks
over the imports once more and looks up every file it comes to; all of them are there. The files can
be merged exactly when their symbols are distinct and none of them is the root's own. Their types
and enums are then added in this order, and nothing else changes. Otherwise the first symbol in this
order that is there already is reported. -/
theorem merge_closure_exact (disk : Disk) (roots : List String) (place : Place) (files : Closure)
    (found : closure disk roots place = .ok files) :
    (∀ file, file ∈ places files.needed ↔
      ReflTransGen (ImportsFrom disk roots) place file ∧ file ≠ place) ∧
    (∃ order, PostOrder disk roots files.root.imports order ∧
      places files.needed = order.eraseDups) ∧
    (∀ file, files.merge ≠ .error (.unloaded file)) ∧
    ((∃ whole, files.merge = .ok whole) ↔
      Fresh (symbols files.root.format)
        (files.needed.flatMap fun file => symbols file.format)) ∧
    (∀ whole, files.merge = .ok whole →
      whole = { files.root.format with
        types := files.root.format.types ++ files.needed.flatMap fun file => file.format.types
        enums := files.root.format.enums ++ files.needed.flatMap fun file => file.format.enums }) ∧
    ∀ fault, files.merge = .error fault →
      ∃ kind name, fault = .duplicate kind name ∧
        FirstClash (symbols files.root.format)
          (files.needed.flatMap fun file => symbols file.format) (kind, name) := by
  have flat : ∀ {α : Type} (part : Format → List α),
      (files.needed.map LoadedFile.format).flatMap part =
        files.needed.flatMap fun file => part file.format := by
    intro α part
    rw [List.flatMap_map]
  refine ⟨mem_needed_iff found, closure_postOrder found, ?_, ⟨?_, ?_⟩, ?_, ?_⟩
  · intro file missing
    obtain ⟨kind, name, other, -⟩ := merge_error found missing
    cases other
  · rintro ⟨whole, merged⟩
    rw [← flat]
    exact (merge_ok found merged).1
  · intro fresh
    cases merged : files.merge with
    | ok whole => exact ⟨whole, rfl⟩
    | error fault =>
      obtain ⟨kind, name, -, first⟩ := merge_error found merged
      rw [flat] at first
      exact (fresh.not_firstClash first).elim
  · intro whole merged
    rw [← flat, ← flat]
    exact (merge_ok found merged).2
  · intro fault failed
    rw [← flat]
    exact merge_error found failed

/-- A disk with three listings: `r` imports `a` and `b`, and `b` imports `a`. -/
def sharedImport : Disk :=
  .holding [("r", listing "r" ["imports 2", "import a", "import b"]), ("a", listing "a" []),
    ("b", listing "b" ["imports 1", "import a"])]
where
  listing (name : String) (imports : List String) : List Char :=
    textOf (["KSIR1", "name " ++ name, "default_endian le"] ++ imports ++ ["types 0", "attrs 0",
      "enums 0", "instances 0", "validations 0", "end"])

theorem merge_closure_exact_shared : ∃ files, closure sharedImport [] ["r"] = .ok files ∧
    places files.needed = [["a"], ["b"]] ∧ ∃ whole, files.merge = .ok whole := by
  have readRoot : readAt sharedImport ["r"] = .ok ⟨"r", .little, ["a", "b"], [], [], [], [], []⟩ :=
    Except.toOption_eq_some_iff.mp (by decide +kernel)
  have readFirst : readAt sharedImport ["a"] = .ok ⟨"a", .little, [], [], [], [], [], []⟩ :=
    Except.toOption_eq_some_iff.mp (by decide +kernel)
  have readSecond : readAt sharedImport ["b"] = .ok ⟨"b", .little, ["a"], [], [], [], [], []⟩ :=
    Except.toOption_eq_some_iff.mp (by decide +kernel)
  have first : resolve sharedImport [] (Place.path ["r"]) "a" = .ok ["a"] :=
    Except.toOption_eq_some_iff.mp (by decide +kernel)
  have second : resolve sharedImport [] (Place.path ["r"]) "b" = .ok ["b"] :=
    Except.toOption_eq_some_iff.mp (by decide +kernel)
  have again : resolve sharedImport [] (Place.path ["b"]) "a" = .ok ["a"] :=
    Except.toOption_eq_some_iff.mp (by decide +kernel)
  have every : sharedImport.files = [["r"], ["a"], ["b"]] := rfl
  have found : closure sharedImport [] ["r"] = .ok
      ⟨⟨["r"], ⟨"r", .little, ["a", "b"], [], [], [], [], []⟩, [["a"], ["b"]]⟩,
        [⟨["a"], ⟨"a", .little, [], [], [], [], [], []⟩, []⟩,
          ⟨["b"], ⟨"b", .little, ["a"], [], [], [], [], []⟩, [["a"]]⟩]⟩ := by
    simp [closure, visitAll, visit, readRoot, readFirst, readSecond, first, second, again, every,
      others, bind, Except.bind, pure, Except.pure]
  refine ⟨_, found, rfl, (merge_closure_exact _ _ _ _ found).2.2.2.1.mpr ?_⟩
  simp [Fresh, symbols, typeSymbols, enumSymbols]

end Closure

end FormatCompiler.Imports
