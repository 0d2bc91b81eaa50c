import Mathlib.Data.List.Basic
import Mathlib.Logic.Function.Basic
import Mathlib.Tactic.Common

/-!
# MoveFile

The source is read into a buffer and written to the new target, piece by piece.  A write that fails
takes the target away, the end of the source takes the source away; whether `Destroy` could remove
its file is not looked at.

* `Drained`, `Copied`         no write of a buffer, of the whole source, fails;
* `copy_spec`                 the loops then have written the source, and a part of it otherwise;
* `moves_or_nothing_iff`      the file is moved or nothing is changed, exactly if the one file that is
                              destroyed can be.
-/

namespace MoveFile

/-- `Core::File` and what becomes of its calls.  Each read and each write that does not fail goes on,
so the offset of a call tells it from the others. -/
structure Io (Path : Type*) where
  opens : Bool
  creates : Bool
  destroys : Path → Bool
  /-- bytes returned by a read of the rest of the file -/
  read : (offset left : Nat) → Nat
  read_le : ∀ offset left, read offset left ≤ left
  read_le_buffer : ∀ offset left, read offset left ≤ 1024
  read_pos : ∀ offset left, 0 < left → 0 < read offset left
  write : (offset len : Nat) → Nat
  write_le : ∀ offset len, write offset len ≤ len

variable {Path : Type*} (io : Io Path)

/-! ## the copying -/

/-- The inner loop: whether no write failed, and the bytes written. -/
def writeBuffer (offset : Nat) (buffer : List UInt8) : Bool × List UInt8 :=
  let count := io.write offset buffer.length
  if count = 0 then (false, [])
  else if 0 < buffer.length - count then
    let (result, written) := writeBuffer (offset + count) (buffer.drop count)
    (result, buffer.take count ++ written)
  else (true, buffer.take count)
termination_by buffer.length

/-- The outer loop, for the rest of the source. -/
def copy (offset : Nat) (rest : List UInt8) : Bool × List UInt8 :=
  let len := io.read offset rest.length
  if len = 0 then (true, [])
  else
    let (result, written) := writeBuffer io offset (rest.take len)
    if result then
      let (result, others) := copy (offset + len) (rest.drop len)
      (result, written ++ others)
    else (false, written)
termination_by rest.length
decreasing_by
  have hle : io.read offset rest.length ≤ rest.length := io.read_le offset rest.length
  simp only [List.length_drop]
  omega

abbrev Files (Path : Type*) := Path → Option (List UInt8)

section
variable [DecidableEq Path]

def destroy (file : Path) (files : Files Path) : Files Path :=
  if io.destroys file then Function.update files file none else files

def moveFile (fileFrom fileTo : Path) (files : Files Path) : Bool × Files Path :=
  match files fileFrom, files fileTo with
  | some content, none =>
    if io.opens && io.creates then
      let (result, written) := copy io 0 content
      let files := Function.update files fileTo (some written)
      if result then (true, destroy io fileFrom files)
      else (false, destroy io fileTo files)
    else (false, files)
  | _, _ => (false, files)

/-- The target is new and holds the content of the source, which is gone; or both are as before. -/
def MovesOrNothing (fileFrom fileTo : Path) (files : Files Path) : Prop :=
  let (result, files') := moveFile io fileFrom fileTo files
  if result then
    files fileTo = none ∧ (∃ content, files fileFrom = some content ∧ files' fileTo = some content) ∧
      files' fileFrom = none
  else files' fileFrom = files fileFrom ∧ files' fileTo = files fileTo

end

/-! ## what is written -/

/-- No write of a buffer of this length fails. -/
inductive Drained : (offset len : Nat) → Prop
  | done (offset : Nat) : Drained offset 0
  | step {offset len : Nat} (hlen : 0 < len) (hcount : 0 < io.write offset len)
      (hrest : Drained (offset + io.write offset len) (len - io.write offset len)) :
      Drained offset len

/-- No write of a source of this length fails. -/
inductive Copied : (offset left : Nat) → Prop
  | done (offset : Nat) : Copied offset 0
  | step {offset left : Nat} (hleft : 0 < left) (hbuffer : Drained io offset (io.read offset left))
      (hrest : Copied (offset + io.read offset left) (left - io.read offset left)) :
      Copied offset left

variable {io}

theorem drained_iff {offset len : Nat} (hlen : 0 < len) :
    Drained io offset len ↔ 0 < io.write offset len ∧
      Drained io (offset + io.write offset len) (len - io.write offset len) := by
  constructor
  · intro h
    cases h with
    | done => exact absurd hlen (Nat.lt_irrefl 0)
    | step _ hcount hrest => exact ⟨hcount, hrest⟩
  · exact fun h => .step hlen h.1 h.2

theorem copied_iff {offset left : Nat} (hleft : 0 < left) :
    Copied io offset left ↔ Drained io offset (io.read offset left) ∧
      Copied io (offset + io.read offset left) (left - io.read offset left) := by
  constructor
  · intro h
    cases h with
    | done => exact absurd hleft (Nat.lt_irrefl 0)
    | step _ hbuffer hrest => exact ⟨hbuffer, hrest⟩
  · exact fun h => .step hleft h.1 h.2

theorem writeBuffer_spec (io : Io Path) (offset : Nat) (buffer : List UInt8) (hlen : 0 < buffer.length) :
    ((writeBuffer io offset buffer).1 = true ↔ Drained io offset buffer.length) ∧
      ((writeBuffer io offset buffer).1 = true → (writeBuffer io offset buffer).2 = buffer) := by
  fun_induction writeBuffer io offset buffer with
  | case1 offset buffer count hzero =>
    rw [drained_iff hlen]
    exact ⟨⟨nofun, fun h => absurd h.1 (by omega)⟩, nofun⟩
  | case2 offset buffer count hne hmore result written hrec ih =>
    have hrest : 0 < (buffer.drop count).length := by
      rw [List.length_drop]
      exact hmore
    obtain ⟨hflag, hwritten⟩ := ih hrest
    rw [hrec] at hflag hwritten
    rw [List.length_drop] at hflag
    rw [drained_iff hlen]
    refine ⟨⟨fun h => ⟨Nat.pos_of_ne_zero hne, hflag.mp h⟩, fun h => hflag.mpr h.2⟩, fun h => ?_⟩
    have hdrop : written = buffer.drop count := hwritten h
    show buffer.take count ++ written = buffer
    rw [hdrop, List.take_append_drop]
  | case3 offset buffer count hne hend =>
    have hzero : buffer.length - count = 0 := by omega
    rw [drained_iff hlen]
    constructor
    · refine ⟨fun _ => ⟨Nat.pos_of_ne_zero hne, ?_⟩, fun _ => rfl⟩
      show Drained io (offset + count) (buffer.length - count)
      rw [hzero]
      exact .done _
    · intro _
      show buffer.take count = buffer
      exact List.take_of_length_le (by omega)

theorem length_piece (offset : Nat) (rest : List UInt8) :
    (rest.take (io.read offset rest.length)).length = io.read offset rest.length := by
  rw [List.length_take, Nat.min_eq_left (io.read_le offset rest.length)]

/-- The flag tells whether a write failed, and if none did the whole source is written. -/
theorem copy_spec (io : Io Path) (offset : Nat) (rest : List UInt8) :
    ((copy io offset rest).1 = true ↔ Copied io offset rest.length) ∧
      ((copy io offset rest).1 = true → (copy io offset rest).2 = rest) := by
  fun_induction copy io offset rest with
  | case1 offset rest len hzero =>
    have hnil : rest = [] := by
      by_contra hne
      have hpos : 0 < len := io.read_pos offset rest.length (List.length_pos_iff.mpr hne)
      omega
    subst hnil
    exact ⟨⟨fun _ => .done offset, fun _ => rfl⟩, fun _ => rfl⟩
  | case2 offset rest len hne written result others hrec hbuffer ih =>
    have hle : len ≤ rest.length := io.read_le offset rest.length
    have hpiece : (rest.take len).length = len := length_piece offset rest
    obtain ⟨hflag, hall⟩ := writeBuffer_spec io offset (rest.take len) (by omega)
    obtain ⟨hflag', hall'⟩ := ih
    rw [hbuffer, hpiece] at hflag
    rw [hbuffer] at hall
    rw [hrec, List.length_drop] at hflag'
    rw [hrec] at hall'
    rw [copied_iff (by omega)]
    refine ⟨⟨fun h => ⟨hflag.mp rfl, hflag'.mp h⟩, fun h => hflag'.mpr h.2⟩, fun h => ?_⟩
    have htake : written = rest.take len := hall rfl
    have hdrop : others = rest.drop len := hall' h
    show written ++ others = rest
    rw [htake, hdrop, List.take_append_drop]
  | case3 offset rest len hne result written hbuffer hfail =>
    have hle : len ≤ rest.length := io.read_le offset rest.length
    have hpiece : (rest.take len).length = len := length_piece offset rest
    obtain ⟨hflag, -⟩ := writeBuffer_spec io offset (rest.take len) (by omega)
    rw [hbuffer, hpiece] at hflag
    rw [copied_iff (by omega)]
    exact ⟨⟨nofun, fun h => absurd (hflag.mpr h.1) hfail⟩, nofun⟩

/-! ## what is destroyed -/

variable [DecidableEq Path] {fileFrom fileTo : Path} {files : Files Path} {content : List UInt8}

omit [DecidableEq Path] in
theorem distinct (hfrom : files fileFrom = some content) (hto : files fileTo = none) :
    fileTo ≠ fileFrom := by
  rintro rfl
  rw [hto] at hfrom
  cases hfrom

/-- Nothing is opened or created: nothing changes. -/
theorem untouched (h : moveFile io fileFrom fileTo files = (false, files)) :
    MovesOrNothing io fileFrom fileTo files := by
  unfold MovesOrNothing
  rw [h]
  exact ⟨rfl, rfl⟩

section
variable (hfrom : files fileFrom = some content) (hto : files fileTo = none)
  (hopens : io.opens = true) (hcreates : io.creates = true)
include hfrom hto hopens hcreates

theorem moveFile_copied (hcopied : Copied io 0 content.length) :
    moveFile io fileFrom fileTo files =
      (true, destroy io fileFrom (Function.update files fileTo (some content))) := by
  obtain ⟨hflag, hall⟩ := copy_spec io 0 content
  have hok : (copy io 0 content).1 = true := hflag.mpr hcopied
  unfold moveFile
  rw [hfrom, hto, hopens, hcreates]
  dsimp only
  rw [hok, hall hok]
  rfl

theorem moveFile_failed (hfailed : ¬ Copied io 0 content.length) :
    moveFile io fileFrom fileTo files =
      (false, destroy io fileTo (Function.update files fileTo (some (copy io 0 content).2))) := by
  have hfail : (copy io 0 content).1 = false := by
    rw [← Bool.not_eq_true, (copy_spec io 0 content).1]
    exact hfailed
  unfold moveFile
  rw [hfrom, hto, hopens, hcreates]
  dsimp only
  rw [hfail]
  rfl

/-- Without a failed write the source is destroyed, and has to be gone. -/
theorem moved_iff (hcopied : Copied io 0 content.length) :
    MovesOrNothing io fileFrom fileTo files ↔ io.destroys fileFrom = true := by
  have hne : fileTo ≠ fileFrom := distinct hfrom hto
  unfold MovesOrNothing
  rw [moveFile_copied hfrom hto hopens hcreates hcopied, destroy]
  cases hdestroys : io.destroys fileFrom with
  | true =>
    simp only [if_true, iff_true]
    refine ⟨hto, ⟨content, hfrom, ?_⟩, Function.update_self ..⟩
    rw [Function.update_of_ne hne, Function.update_self]
  | false =>
    simp only [Bool.false_eq_true, if_false, if_true, iff_false]
    rintro ⟨-, -, hgone⟩
    rw [Function.update_of_ne hne.symm, hfrom] at hgone
    cases hgone

/-- With a failed write the target is destroyed, and has to be gone. -/
theorem given_up_iff (hfailed : ¬ Copied io 0 content.length) :
    MovesOrNothing io fileFrom fileTo files ↔ io.destroys fileTo = true := by
  have hne : fileTo ≠ fileFrom := distinct hfrom hto
  unfold MovesOrNothing
  rw [moveFile_failed hfrom hto hopens hcreates hfailed, destroy]
  cases hdestroys : io.destroys fileTo with
  | true =>
    simp only [Bool.false_eq_true, if_false, if_true, iff_true]
    refine ⟨?_, by rw [Function.update_self, hto]⟩
    rw [Function.update_of_ne hne.symm, Function.update_of_ne hne.symm]
  | false =>
    simp only [Bool.false_eq_true, if_false, iff_false]
    rintro ⟨-, hnone⟩
    rw [Function.update_self, hto] at hnone
    cases hnone

end

/-- **The file is moved or nothing is changed, exactly if the file that is destroyed at the end can
be: the source when no write failed, the target when one did.** -/
theorem moves_or_nothing_iff (io : Io Path) (fileFrom fileTo : Path) (files : Files Path) :
    MovesOrNothing io fileFrom fileTo files ↔
      ∀ content, files fileFrom = some content → files fileTo = none → io.opens = true →
        io.creates = true →
        (Copied io 0 content.length → io.destroys fileFrom = true) ∧
          (¬ Copied io 0 content.length → io.destroys fileTo = true) := by
  constructor
  · intro h content hfrom hto hopens hcreates
    exact ⟨fun hcopied => (moved_iff hfrom hto hopens hcreates hcopied).mp h,
      fun hfailed => (given_up_iff hfrom hto hopens hcreates hfailed).mp h⟩
  · intro h
    cases hfrom : files fileFrom with
    | none =>
      apply untouched
      rw [moveFile, hfrom]
    | some content =>
      cases hto : files fileTo with
      | some old =>
        apply untouched
        rw [moveFile, hfrom, hto]
      | none =>
        by_cases hstarts : io.opens = true ∧ io.creates = true
        · obtain ⟨hopens, hcreates⟩ := hstarts
          obtain ⟨hsource, htarget⟩ := h content hfrom hto hopens hcreates
          by_cases hcopied : Copied io 0 content.length
          · exact (moved_iff hfrom hto hopens hcreates hcopied).mpr (hsource hcopied)
          · exact (given_up_iff hfrom hto hopens hcreates hcopied).mpr (htarget hcopied)
        · apply untouched
          rw [moveFile, hfrom, hto]
          dsimp only
          rw [if_neg (by rwa [Bool.and_eq_true])]

/-- Files that can be read and made, in directories from which nothing can be removed. -/
def unremovable : Io Bool where
  opens := true
  creates := true
  destroys _ := false
  read _ left := min left 1024
  read_le _ left := Nat.min_le_left left 1024
  read_le_buffer _ left := Nat.min_le_right left 1024
  read_pos _ left hleft := by omega
  write _ len := len
  write_le _ len := Nat.le_refl len

def oneFile : Files Bool := fun file => if file then none else some [1]

theorem copied_and_kept :
    moveFile unremovable false true oneFile =
        (true, Function.update oneFile true (some [1])) ∧
      ¬ MovesOrNothing unremovable false true oneFile := by
  have hfrom : oneFile false = some [1] := rfl
  have hcopied : Copied unremovable 0 [(1 : UInt8)].length :=
    .step (by decide) (.step (by decide) (by decide) (.done _)) (.done _)
  refine ⟨moveFile_copied hfrom rfl rfl rfl hcopied, fun h => ?_⟩
  exact Bool.false_ne_true ((moved_iff hfrom rfl rfl rfl hcopied).mp h)

end MoveFile
