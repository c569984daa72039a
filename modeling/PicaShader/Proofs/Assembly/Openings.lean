/-
**What goes wrong with an opening.**

A pass that has reached the limit of diagnostics leaves lines of what it opened, and then need not
come to the place where reading fails. `Opening.ReadFails` says why reading fails in a pass that
leaves some lines, and `Opening.Sound` that nothing is wrong with an opening, however far it is read.

* `Opening.readCause?_eq_some_iff`, `Opening.failure?_eq_none_iff`: the fault of a pass comes from
  reading and closing;
* `Opening.sound_of_failure?`: what is read to its end without a fault is sound.
-/

import PicaShader.Assembly.Session
import Mathlib.Tactic.ByContra

namespace PicaShader

namespace InputFault

/-- Why reading failed, if it did. -/
def readCause? : InputFault → Option Text
  | readFailed _ cause => some cause
  | readAndCloseFailed _ cause _ => some cause
  | _ => none

/-- Why closing failed, if it did. -/
def closeCause? : InputFault → Option Text
  | closeFailed cause => some cause
  | readAndCloseFailed _ _ cause => some cause
  | _ => none

/-- Whether opening failed. -/
def isOpening : InputFault → Bool
  | openFailed _ _ => true
  | _ => false

theorem ofCauses?_eq_none_iff {source : Text} {readCause closeCause : Option Text} :
    ofCauses? source readCause closeCause = none ↔ readCause = none ∧ closeCause = none := by
  cases readCause <;> cases closeCause <;> simp [ofCauses?]

/-- A fault of reading and closing tells both causes. -/
theorem causes_of_ofCauses? {source : Text} {readCause closeCause : Option Text}
    {fault : InputFault} (failed : ofCauses? source readCause closeCause = some fault) :
    fault.readCause? = readCause ∧ fault.closeCause? = closeCause ∧ fault.isOpening = false := by
  cases readCause <;> cases closeCause <;> cases failed <;> exact ⟨rfl, rfl, rfl⟩

end InputFault

namespace Opening

/-- No line of the text is too long. -/
def Fits (opening : Opening) : Prop :=
  ∀ piece ∈ Scan.pieces opening.text, piece.length ≤ Scan.longestLine

instance (opening : Opening) : Decidable opening.Fits := inferInstanceAs (Decidable (∀ _ ∈ _, _))

/-- **Why reading fails** in a pass that leaves `left` of the lines. The pass scans the first line
that it leaves: a line that is too long stops it only after all others, and a failure after the text
shows only to a scan of what ends with the text. -/
inductive ReadFails (opening : Opening) (left : List Text) : Text → Prop where
  | overlong (long : ¬ opening.Fits) (reached : left = []) :
    ReadFails opening left "bufio.Scanner: token too long"
  | atEnd {cause : Text} (failed : opening.readFault = some cause) (fits : opening.Fits)
    (reached : left = []
      ∨ left.length = 1 ∧ ∃ byte, opening.text.getLast? = some byte ∧ byte ≠ '\n'.toUInt8) :
    ReadFails opening left cause

/-- Nothing is wrong with an opening, however far it is read. -/
structure Sound (opening : Opening) : Prop where
  fits : opening.Fits
  read : opening.readFault = none
  close : opening.closeFault = none

/-- The fault of a pass that leaves `left` of the lines. -/
def failure? (opening : Opening) (source : Text) (left : List Text) : Option InputFault :=
  InputFault.ofCauses? source (Session.readCause? opening (Scan.ofText opening.text) left)
    opening.closeFault

variable {opening : Opening} {source : Text} {left : List Text}

theorem overlong_eq_false_iff : (Scan.ofText opening.text).overlong = false ↔ opening.Fits := by
  simp [Scan.ofText, Fits]

theorem unterminated_iff (fits : opening.Fits) : (Scan.ofText opening.text).unterminated = true
    ↔ ∃ byte, opening.text.getLast? = some byte ∧ byte ≠ '\n'.toUInt8 := by
  have whole : (Scan.ofText opening.text).overlong = false := overlong_eq_false_iff.mpr fits
  have unfolded : (Scan.ofText opening.text).unterminated
      = (!(Scan.ofText opening.text).overlong && !opening.text.isEmpty
        && opening.text.getLast? != some '\n'.toUInt8) := rfl
  rw [unfolded, whole]
  cases last : opening.text.getLast? with
  | none => simp [List.getLast?_eq_none_iff.mp last]
  | some byte =>
    have some : opening.text ≠ [] := by
      rintro none
      simp [none] at last
    simp [some]

theorem readCause?_eq_some_iff {cause : Text} :
    Session.readCause? opening (Scan.ofText opening.text) left = some cause
      ↔ opening.ReadFails left cause := by
  by_cases fits : opening.Fits
  · have whole := overlong_eq_false_iff.mpr fits
    have scan : Session.readCause? opening (Scan.ofText opening.text) left
        = if left = [] ∨ left.length = 1 ∧ (Scan.ofText opening.text).unterminated then
          opening.readFault else none := by
      simp [Session.readCause?, Scan.stopsOverlong, Scan.reachesEnd, whole, and_comm]
    rw [scan, Option.ite_none_right_eq_some]
    constructor
    · rintro ⟨reached, failed⟩
      exact .atEnd failed fits (reached.imp_right (And.imp_right (unterminated_iff fits).mp))
    · intro fails
      cases fails with
      | overlong long => exact absurd fits long
      | atEnd failed _ reached =>
        exact ⟨reached.imp_right (And.imp_right (unterminated_iff fits).mpr), failed⟩
  · have overlong : (Scan.ofText opening.text).overlong = true := by
      rw [← Bool.not_eq_false, overlong_eq_false_iff]
      exact fits
    have scan : Session.readCause? opening (Scan.ofText opening.text) left
        = if left = [] then some (Text.ofString "bufio.Scanner: token too long") else none := by
      simp [Session.readCause?, Scan.stopsOverlong, Scan.reachesEnd, overlong]
    rw [scan, Option.ite_none_right_eq_some]
    constructor
    · rintro ⟨reached, same⟩
      obtain rfl := Option.some.inj same
      exact .overlong fits reached
    · intro fails
      cases fails with
      | overlong _ reached => exact ⟨reached, rfl⟩
      | atEnd _ fits' => exact absurd fits' fits

theorem failure?_eq_none_iff : opening.failure? source left = none
    ↔ (∀ cause, ¬ opening.ReadFails left cause) ∧ opening.closeFault = none := by
  rw [failure?, InputFault.ofCauses?_eq_none_iff, Option.eq_none_iff_forall_ne_some]
  simp only [ne_eq, readCause?_eq_some_iff]

theorem Sound.failure?_eq_none (sound : opening.Sound) : opening.failure? source left = none := by
  rw [failure?_eq_none_iff]
  refine ⟨fun cause fails => ?_, sound.close⟩
  cases fails with
  | overlong long => exact long sound.fits
  | atEnd failed => rw [sound.read] at failed; cases failed

/-- What is read to its end without a failure is sound. -/
theorem sound_of_failure? (none : opening.failure? source [] = none) : opening.Sound := by
  obtain ⟨reads, closes⟩ := failure?_eq_none_iff.mp none
  have fits : opening.Fits := by
    by_contra long
    exact reads _ (.overlong long rfl)
  refine ⟨fits, ?_, closes⟩
  cases failed : opening.readFault with
  | none => rfl
  | some cause => exact absurd (.atEnd failed fits (.inl rfl)) (reads cause)

end Opening

end PicaShader
