import Mathlib.Tactic.TFAE
import FormatCompiler.Proofs.CodeBlocks

/-!
The level of a line is counted by a byte, the blocks around it by a number. In balanced code the two
agree, and every block ends at the level it began at, as long as no more than 255 blocks are open at
a time. One more block brings the byte back to zero, and since no step out goes below zero, it then
stays behind the number of blocks.
-/

namespace FormatCompiler.Code

set_option autoImplicit false

variable {first second body rest code : Code} {levels : Levels} {opened bound : Nat}

theorem toNat_indent (levels : Levels) :
    (advance levels .indent).here.toNat = (levels.here.toNat + 1) % 256 :=
  UInt8.toNat_add levels.here 1

theorem toNat_dedent (levels : Levels) :
    (advance levels .dedent).here.toNat = levels.here.toNat - 1 := by
  change (if levels.here = 0 then 0 else levels.here - 1).toNat = _
  split
  · next zero => simp [zero]
  · next positive =>
    have least : 1 ≤ levels.here.toNat :=
      Nat.one_le_iff_ne_zero.mpr fun zero => positive (UInt8.toNat_inj.mp zero)
    exact UInt8.toNat_sub_of_le levels.here 1 (UInt8.le_iff_toNat_le.mpr least)

theorem indent_of_room (here : levels.here.toNat = opened) (room : levels.here.toNat < 255) :
    (advance levels .indent).here.toNat = opened + 1 := by
  rw [toNat_indent]
  omega

/-- A step in and a step out undo each other below the last level. -/
theorem dedent_indent (room : levels.here.toNat < 255) :
    advance (advance levels .indent) .dedent = levels := by
  have same : (advance (advance levels .indent) .dedent).here = levels.here := by
    apply UInt8.toNat_inj.mp
    rw [toNat_dedent, toNat_indent]
    omega
  have kept : (advance (advance levels .indent) .dedent).aside = levels.aside := rfl
  cases levels
  exact congrArg₂ Levels.mk same kept

theorem advance_leave {level : UInt8} {others : List UInt8}
    (aside : levels.aside = level :: others) : advance levels .leave = ⟨level, others⟩ := by
  rw [advance, aside]

theorem Balanced.aside_eq (balanced : Balanced code) (levels : Levels) :
    (code.foldl advance levels).aside = levels.aside := by
  induction balanced generalizing levels with
  | nil => rfl
  | line _ ih => exact ih levels
  | blank _ ih => exact ih levels
  | within _ _ body rest =>
    rw [List.foldl_append, rest, foldl_block]
    exact body (advance levels .indent)
  | aside _ _ body rest =>
    rw [List.foldl_append, rest, foldl_apart, advance_leave (body (advance levels .enter))]

/-- What counts its levels by itself moves nothing. -/
theorem Balanced.foldl_apart (balanced : Balanced body) (levels : Levels) :
    (Code.apart body).foldl advance levels = levels := by
  rw [Code.foldl_apart, advance_leave (balanced.aside_eq (advance levels .enter))]

/-- Where there is room for all blocks, code ends at the level it began at. -/
theorem Balanced.returns (balanced : Balanced code) (levels : Levels)
    (room : levels.here.toNat + depth code ≤ 255) : code.foldl advance levels = levels := by
  induction balanced generalizing levels with
  | nil => rfl
  | line _ ih =>
    rw [depth, deepest_line] at room
    exact ih levels room
  | blank _ ih =>
    rw [depth, deepest_blank] at room
    exact ih levels room
  | within inside _ body rest =>
    rw [inside.block.depth_append, inside.depth_block] at room
    have next : (advance levels .indent).here.toNat = levels.here.toNat + 1 :=
      indent_of_room rfl (by omega)
    rw [List.foldl_append, foldl_block, body _ (by omega), dedent_indent (by omega)]
    exact rest levels (by omega)
  | aside inside _ _ rest =>
    rw [inside.apart.depth_append] at room
    rw [List.foldl_append, inside.foldl_apart]
    exact rest levels (by omega)

/-- At every point of some code the level is the number of open blocks. -/
def Tracks (levels : Levels) (opened : Nat) : Code → Prop
  | [] => levels.here.toNat = opened
  | step :: rest =>
    levels.here.toNat = opened ∧ Tracks (advance levels step) (opening opened step) rest

theorem Tracks.start (tracks : Tracks levels opened code) : levels.here.toNat = opened := by
  cases code with
  | nil => exact tracks
  | cons step rest => exact tracks.1

theorem tracks_append : Tracks levels opened (first ++ second) ↔ Tracks levels opened first ∧
    Tracks (first.foldl advance levels) (first.foldl opening opened) second := by
  induction first generalizing levels opened with
  | nil => exact ⟨fun tracks => ⟨tracks.start, tracks⟩, And.right⟩
  | cons step rest ih => exact (and_congr_right fun _ => ih).trans and_assoc.symm

/-- Where there is room for all blocks, the level keeps count of them. -/
theorem Balanced.tracks (balanced : Balanced code) (here : levels.here.toNat = opened)
    (room : opened + depth code ≤ 255) : Tracks levels opened code := by
  induction balanced generalizing levels opened with
  | nil => exact here
  | line _ ih =>
    rw [depth, deepest_line] at room
    exact ⟨here, ih here room⟩
  | blank _ ih =>
    rw [depth, deepest_blank] at room
    exact ⟨here, ih here room⟩
  | @within inner _ inside _ body rest =>
    rw [inside.block.depth_append, inside.depth_block] at room
    -- the body keeps count one level further in, and the step out takes the level back
    have next := indent_of_room here (by omega)
    have back : (Code.block inner).foldl advance levels = levels :=
      inside.block.returns levels (by rw [inside.depth_block]; omega)
    have closes : Tracks (advance levels .indent) (opened + 1) [.dedent] :=
      ⟨next, by rw [dedent_indent (by omega)]; exact here⟩
    have opens : Tracks (advance levels .indent) (opened + 1) (inner ++ [Step.dedent]) := by
      rw [tracks_append, inside.returns _ (by omega), inside.foldl_opening]
      exact ⟨body next (by omega), closes⟩
    rw [tracks_append, back, inside.block.foldl_opening]
    exact ⟨⟨here, opens⟩, rest here (by omega)⟩
  | @aside inner _ inside _ body rest =>
    rw [inside.apart.depth_append, inside.depth_apart] at room
    have leaves : Tracks (advance levels .enter) opened (inner ++ [Step.leave]) := by
      rw [tracks_append, inside.returns _ (here ▸ by omega), inside.foldl_opening]
      exact ⟨body here (by omega), here, here⟩
    rw [tracks_append, inside.foldl_apart, inside.apart.foldl_opening]
    exact ⟨⟨here, leaves⟩, rest here (by omega)⟩

/-! ### Levels that are behind -/

theorem behind_indent (behind : levels.here.toNat < opened) :
    (advance levels .indent).here.toNat < opened + 1 := by
  rw [toNat_indent]
  omega

theorem behind_dedent (behind : levels.here.toNat < opened + 1) (outside : 0 < opened) :
    (advance levels .dedent).here.toNat < opened := by
  rw [toNat_dedent]
  omega

/-- The step in that is one too many. -/
theorem behind_of_full (full : levels.here.toNat = 255) (here : levels.here.toNat = opened) :
    (advance levels .indent).here.toNat < opened + 1 := by
  rw [toNat_indent]
  omega

/-- A level that is behind stays behind. -/
theorem Balanced.behind (balanced : Balanced code) (behind : levels.here.toNat < opened) :
    (code.foldl advance levels).here.toNat < opened := by
  induction balanced generalizing levels opened with
  | nil => exact behind
  | line _ ih => exact ih behind
  | blank _ ih => exact ih behind
  | within _ _ body rest =>
    rw [List.foldl_append, foldl_block]
    exact rest (behind_dedent (body (behind_indent behind)) (by omega))
  | aside inside _ _ rest =>
    rw [List.foldl_append, inside.foldl_apart]
    exact rest behind

/-- Some line has another margin than the blocks around it ask for. -/
def Misprints (levels : Levels) (opened : Nat) (code : Code) : Prop :=
  ∃ (first : Code) (text : String) (rest : Code), code = first ++ Step.line text :: rest ∧
    (first.foldl advance levels).here.toNat ≠ first.foldl opening opened

theorem Tracks.not_misprints (tracks : Tracks levels opened code) :
    ¬ Misprints levels opened code := by
  rintro ⟨first, text, rest, rfl, differ⟩
  exact differ (tracks_append.mp tracks).2.start

namespace Misprints

theorem append_right (misprints : Misprints levels opened first) (second : Code) :
    Misprints levels opened (first ++ second) := by
  obtain ⟨before, text, rest, rfl, differ⟩ := misprints
  exact ⟨before, text, rest ++ second, by simp, differ⟩

theorem append_left (first : Code)
    (misprints : Misprints (first.foldl advance levels) (first.foldl opening opened) second) :
    Misprints levels opened (first ++ second) := by
  obtain ⟨before, text, rest, rfl, differ⟩ := misprints
  refine ⟨first ++ before, text, rest, by simp, ?_⟩
  rwa [List.foldl_append, List.foldl_append]

theorem block (misprints : Misprints (advance levels .indent) (opened + 1) body) :
    Misprints levels opened (block body) :=
  append_left [.indent] (misprints.append_right [.dedent])

theorem apart (misprints : Misprints (advance levels .enter) opened body) :
    Misprints levels opened (apart body) :=
  append_left [.enter] (misprints.append_right [.leave])

end Misprints

/-- Where the level is behind, every line shows it. -/
theorem Balanced.misprints (balanced : Balanced code) (behind : levels.here.toNat < opened)
    (line : HasLine code) : Misprints levels opened code := by
  induction balanced generalizing levels opened with
  | nil => exact absurd line not_hasLine_nil
  | line _ _ => exact ⟨[], _, _, rfl, Nat.ne_of_lt behind⟩
  | blank _ ih => exact (ih behind line.of_blank).append_left [.blank]
  | within inside _ body rest =>
    rcases line.of_append with here | later
    · exact (body (behind_indent behind) here.of_block).block.append_right _
    · apply Misprints.append_left
      rw [inside.block.foldl_opening]
      exact rest (inside.block.behind behind) later
  | aside inside _ body rest =>
    rcases line.of_append with here | later
    · have aside : (advance levels .enter).here.toNat < opened := behind
      exact (body aside here.of_apart).apart.append_right _
    · apply Misprints.append_left
      rw [inside.apart.foldl_opening, inside.foldl_apart]
      exact rest behind later

/-- In plain code a step in too many is not made good, if some block is open around it. -/
theorem Plain.behind (plain : Plain bound code) (here : levels.here.toNat = opened)
    (outside : 0 < opened) (beyond : 255 < opened + depth code) :
    (code.foldl advance levels).here.toNat < opened := by
  have byte := levels.here.toNat_lt
  induction plain generalizing levels opened with
  | nil =>
    change 255 < opened + 0 at beyond
    omega
  | line _ ih =>
    rw [depth, deepest_line] at beyond
    exact ih here outside beyond byte
  | blank _ ih =>
    rw [depth, deepest_blank] at beyond
    exact ih here outside beyond byte
  | @within _ inner rest inside others body later =>
    rw [inside.balanced.block.depth_append, inside.balanced.depth_block] at beyond
    rw [List.foldl_append]
    by_cases spilt : 255 < opened + 1 + depth inner
    · -- the block itself is left behind, at its first step or inside
      refine others.balanced.behind ?_
      rw [foldl_block]
      refine behind_dedent ?_ outside
      by_cases full : levels.here.toNat = 255
      · exact inside.balanced.behind (behind_of_full full here)
      · have next := indent_of_room here (by omega)
        exact body next (by omega) spilt (UInt8.toNat_lt _)
    · rw [inside.balanced.block.returns levels (by rw [inside.balanced.depth_block]; omega)]
      exact later here outside (by omega) byte

/-! ### Overflows that show -/

/-- Balanced code in which a step in too many shows in some line. -/
structure Reveals (code : Code) : Prop where
  balanced : Balanced code
  misprints : ∀ levels opened, levels.here.toNat = opened → 255 < opened + depth code →
    Misprints levels opened code

namespace Reveals

/-- In code without blocks there is nothing to show. -/
theorem flat (plain : Plain 0 code) : Reveals code := by
  refine ⟨plain.balanced, fun levels opened here beyond => ?_⟩
  have byte := levels.here.toNat_lt
  have none := plain.depth_le
  omega

theorem append (one : Reveals first) (other : Reveals second) : Reveals (first ++ second) := by
  refine ⟨one.balanced.append other.balanced, fun levels opened here beyond => ?_⟩
  rw [one.balanced.depth_append] at beyond
  by_cases early : 255 < opened + depth first
  · exact (one.misprints levels opened here early).append_right second
  · apply Misprints.append_left
    rw [one.balanced.returns levels (by omega), one.balanced.foldl_opening]
    exact other.misprints levels opened here (by omega)

theorem line {text : String} (reveals : Reveals rest) : Reveals (.line text :: rest) :=
  append (.flat (.line .nil)) reveals

theorem blank (reveals : Reveals rest) : Reveals (.blank :: rest) :=
  append (.flat (.blank .nil)) reveals

theorem block (reveals : Reveals body) (line : HasLine body) : Reveals (block body) := by
  refine ⟨reveals.balanced.block, fun levels opened here beyond => Misprints.block ?_⟩
  have byte := levels.here.toNat_lt
  rw [reveals.balanced.depth_block] at beyond
  by_cases full : levels.here.toNat = 255
  · exact reveals.balanced.misprints (behind_of_full full here) line
  · have next := indent_of_room here (by omega)
    exact reveals.misprints _ _ next (by omega)

theorem apart (reveals : Reveals body) : Reveals (apart body) := by
  refine ⟨reveals.balanced.apart, fun levels opened here beyond => Misprints.apart ?_⟩
  rw [reveals.balanced.depth_apart] at beyond
  exact reveals.misprints _ _ here beyond

theorem flatMap {α : Type} {list : List α} {each : α → Code}
    (inside : ∀ entry ∈ list, Reveals (each entry)) : Reveals (list.flatMap each) := by
  induction list with
  | nil => exact .flat .nil
  | cons entry rest ih =>
    obtain ⟨here, later⟩ := List.forall_mem_cons.mp inside
    exact here.append (ih later)

end Reveals

/-- Plain code in which a step in too many shows. -/
structure Shown (bound : Nat) (code : Code) : Prop where
  plain : Plain bound code
  reveals : Reveals code

/-- What is left behind in plain code shows in the code behind it. -/
theorem Plain.reveals (plain : Plain bound first) (small : bound ≤ 255) (reveals : Reveals second)
    (line : HasLine second) : Reveals (first ++ second) := by
  refine ⟨plain.balanced.append reveals.balanced, fun levels opened here beyond => ?_⟩
  have least := plain.depth_le
  rw [plain.balanced.depth_append] at beyond
  apply Misprints.append_left
  rw [plain.balanced.foldl_opening]
  by_cases early : 255 < opened + depth first
  · exact reveals.balanced.misprints (plain.behind here (by omega) early) line
  · rw [plain.balanced.returns levels (by omega)]
    exact reveals.misprints levels opened here (by omega)

/-- At the start of a file nothing is left behind. -/
theorem Plain.misprints_append (plain : Plain bound first) (small : bound ≤ 255)
    (reveals : Reveals second) (beyond : 255 < depth (first ++ second)) :
    Misprints .start 0 (first ++ second) := by
  have zero : Levels.start.here.toNat = 0 := rfl
  have least := plain.depth_le
  rw [plain.balanced.depth_append] at beyond
  apply Misprints.append_left
  rw [plain.balanced.foldl_opening, plain.balanced.returns .start (by omega)]
  exact reveals.misprints .start 0 zero (by omega)

theorem Plain.shown (plain : Plain bound first) (small : bound ≤ 255) (shown : Shown bound second)
    (line : HasLine second) : Shown bound (first ++ second) :=
  ⟨plain.append shown.plain, plain.reveals small shown.reveals line⟩

namespace Shown

theorem flat (plain : Plain 0 code) : Shown bound code :=
  ⟨plain.mono (Nat.zero_le bound), .flat plain⟩

theorem line {text : String} (shown : Shown bound rest) : Shown bound (.line text :: rest) :=
  ⟨.line shown.plain, .line shown.reveals⟩

theorem blank (shown : Shown bound rest) : Shown bound (.blank :: rest) :=
  ⟨.blank shown.plain, .blank shown.reveals⟩

theorem append (one : Shown bound first) (other : Shown bound second) :
    Shown bound (first ++ second) :=
  ⟨one.plain.append other.plain, one.reveals.append other.reveals⟩

theorem block (shown : Shown bound body) (line : HasLine body) : Shown (bound + 1) (block body) :=
  ⟨shown.plain.block, shown.reveals.block line⟩

theorem flatMap {α : Type} {list : List α} {each : α → Code}
    (inside : ∀ entry ∈ list, Shown bound (each entry)) : Shown bound (list.flatMap each) :=
  ⟨.flatMap fun entry member => (inside entry member).plain,
    .flatMap fun entry member => (inside entry member).reveals⟩

theorem branch (head body : String) : Shown (bound + 1) (branch head body) :=
  .line (.block (.flat (.line .nil)) .line)

end Shown

/-! ### Whole files -/

/-- Every block ends at the level it began at. -/
def BlocksReturn (levels : Levels) (code : Code) : Prop :=
  ∀ first body rest, code = first ++ block body ++ rest → Balanced body →
    ((first ++ block body).foldl advance levels).here = (first.foldl advance levels).here

/-- Every line has a unit in front for each of the blocks around it. -/
def HasMargins (unit : String) (code : Code) : Prop :=
  ∀ (first : Code) (text : String) (rest : Code), code = first ++ Step.line text :: rest →
    (writtenFrom unit .start code)[first.length]? =
      some (String.join (List.replicate (first.foldl opening 0) unit) ++ text ++ "\n")

theorem Tracks.blocksReturn (tracks : Tracks levels opened code) : BlocksReturn levels code := by
  rintro first body rest rfl balanced
  have before := (tracks_append.mp (tracks_append.mp tracks).1).2.start
  have behind := (tracks_append.mp tracks).2.start
  have opens : (first ++ block body).foldl opening opened = first.foldl opening opened := by
    rw [List.foldl_append, balanced.block.foldl_opening]
  exact UInt8.toNat_inj.mp (behind.trans (opens.trans before.symm))

namespace BlocksReturn

theorem of_append_right (first : Code) (returns : BlocksReturn levels (first ++ second)) :
    BlocksReturn (first.foldl advance levels) second := by
  rintro before body rest rfl balanced
  have same := returns (first ++ before) body rest (by simp) balanced
  simpa only [List.append_assoc, List.foldl_append] using same

theorem of_append_left (returns : BlocksReturn levels (first ++ second)) :
    BlocksReturn levels first := by
  rintro before body rest rfl balanced
  exact returns before body (rest ++ second) (by simp) balanced

theorem of_block (returns : BlocksReturn levels (block body)) :
    BlocksReturn (advance levels .indent) body := by
  have front : BlocksReturn levels ([Step.indent] ++ body) := of_append_left returns
  exact of_append_right [.indent] front

theorem of_apart (returns : BlocksReturn levels (apart body)) :
    BlocksReturn (advance levels .enter) body := by
  have front : BlocksReturn levels ([Step.enter] ++ body) := of_append_left returns
  exact of_append_right [.enter] front

end BlocksReturn

/-- Blocks only return where there is room for them all. -/
theorem Balanced.room_of_blocksReturn (balanced : Balanced code)
    (returns : BlocksReturn levels code) : levels.here.toNat + depth code ≤ 255 := by
  have byte := levels.here.toNat_lt
  induction balanced generalizing levels with
  | nil =>
    change _ + 0 ≤ 255
    omega
  | @line text _ _ ih =>
    rw [depth, deepest_line]
    exact ih (returns.of_append_right [.line text]) byte
  | blank _ ih =>
    rw [depth, deepest_blank]
    exact ih (returns.of_append_right [.blank]) byte
  | @within inner rest inside _ body later =>
    have own : ((Code.block inner).foldl advance levels).here = levels.here :=
      returns [] inner rest rfl inside
    have room : levels.here.toNat ≠ 255 := by
      -- a block that begins at the last level ends behind it
      intro full
      have short := behind_dedent (inside.behind (behind_of_full full rfl)) (by omega)
      rw [← foldl_block advance, own] at short
      omega
    have next : (advance levels .indent).here.toNat = levels.here.toNat + 1 :=
      indent_of_room rfl (by omega)
    have deep := body returns.of_append_left.of_block (UInt8.toNat_lt _)
    rw [inside.block.depth_append, inside.depth_block]
    have back := inside.block.returns levels (by rw [inside.depth_block]; omega)
    have others := later (back ▸ returns.of_append_right _) byte
    omega
  | @aside inner rest inside _ body later =>
    have deep := body returns.of_append_left.of_apart byte
    have others := later (inside.foldl_apart levels ▸ returns.of_append_right _) byte
    change levels.here.toNat + depth inner ≤ 255 at deep
    rw [inside.apart.depth_append, inside.depth_apart]
    omega

theorem writtenFrom_append (unit : String) (levels : Levels) (first second : Code) :
    writtenFrom unit levels (first ++ second) =
      writtenFrom unit levels first ++ writtenFrom unit (first.foldl advance levels) second := by
  induction first generalizing levels with
  | nil => rfl
  | cons step rest ih => simp [writtenFrom, ih]

theorem length_writtenFrom (unit : String) (levels : Levels) (code : Code) :
    (writtenFrom unit levels code).length = code.length := by
  induction code generalizing levels with
  | nil => rfl
  | cons step rest ih => simp [writtenFrom, ih]

/-- What is written for a line. -/
theorem writtenFrom_line (unit : String) (levels : Levels) (first : Code) (text : String)
    (rest : Code) : (writtenFrom unit levels (first ++ Step.line text :: rest))[first.length]? =
      some (margin unit (first.foldl advance levels).here ++ text ++ "\n") := by
  rw [writtenFrom_append, List.getElem?_append_right (Nat.le_of_eq (length_writtenFrom ..)),
    length_writtenFrom, Nat.sub_self]
  rfl

theorem length_join_replicate (count : Nat) (unit : String) :
    (String.join (List.replicate count unit)).length = count * unit.length := by
  induction count with
  | zero => simp
  | succ count ih =>
    rw [List.replicate_succ, String.join_cons, String.length_append, ih, Nat.succ_mul, Nat.add_comm]

/-- A unit with something in it tells numbers of blocks apart. -/
theorem join_replicate_inj {unit : String} (visible : unit.length ≠ 0) {one other : Nat} :
    String.join (List.replicate one unit) = String.join (List.replicate other unit) ↔
      one = other := by
  constructor
  · intro same
    have lengths := congrArg String.length same
    rw [length_join_replicate, length_join_replicate] at lengths
    exact Nat.eq_of_mul_eq_mul_right (Nat.pos_of_ne_zero visible) lengths
  · rintro rfl
    rfl

theorem hasMargins_iff {unit : String} (visible : unit.length ≠ 0) :
    HasMargins unit code ↔ ¬ Misprints .start 0 code := by
  have right : ∀ (first : Code) (text : String) (rest : Code),
      code = first ++ Step.line text :: rest →
      ((writtenFrom unit .start code)[first.length]? =
        some (String.join (List.replicate (first.foldl opening 0) unit) ++ text ++ "\n") ↔
      (first.foldl advance .start).here.toNat = first.foldl opening 0) := by
    rintro first text rest rfl
    rw [writtenFrom_line, Option.some_inj, String.append_left_inj, String.append_left_inj]
    exact join_replicate_inj visible
  constructor
  · rintro margins ⟨first, text, rest, split, differ⟩
    exact differ ((right first text rest split).mp (margins first text rest split))
  · intro printed first text rest split
    exact (right first text rest split).mpr
      (Classical.not_not.mp fun differ => printed ⟨first, text, rest, split, differ⟩)

/-- Where a step in too many shows, levels, blocks and margins are right together, and they are when
no more than 255 blocks are open at a time. -/
theorem Balanced.tfae (balanced : Balanced code)
    (shows : 255 < depth code → Misprints .start 0 code) {unit : String}
    (visible : unit.length ≠ 0) :
    List.TFAE [Tracks .start 0 code, BlocksReturn .start code, HasMargins unit code,
      depth code ≤ 255] := by
  have zero : Levels.start.here.toNat = 0 := rfl
  tfae_have 1 → 2 := Tracks.blocksReturn
  tfae_have 1 → 3 := fun tracks => (hasMargins_iff visible).mpr tracks.not_misprints
  tfae_have 2 → 4 := fun returns => by
    have room := balanced.room_of_blocksReturn returns
    omega
  tfae_have 3 → 4 := fun margins => by
    have printed := (hasMargins_iff visible).mp margins
    exact Nat.le_of_not_lt fun beyond => printed (shows beyond)
  tfae_have 4 → 1 := fun room => balanced.tracks zero (by omega)
  tfae_finish

end FormatCompiler.Code
