/-
**Lower case, piece by piece.**

Lower case goes rune by rune, and a rune keeps to itself: its small letter is encoded anew.

* `Text.lower_append`: lower case of a text with a tail, where no encoding reaches into the tail;
* `Text.runes_utf8EncodeChar_append`: an encoded character is read as that character;
* `Rune.lowerChar_lowerChar`: a small letter is no capital, which is tested on all of them at once as
  the bits of two numbers (`CaseRun.capitals_and_smalls`);
* `Text.lower_lower`: so a text in lower case stays as it is;
* `Text.mem_lower_iff`: white space and punctuation are neither made nor lost.
-/

import PicaShader.Proofs.Text.Plain

namespace PicaShader

namespace Text

/-! ### Runes of a text with a tail -/

variable {first second : Text}

theorem toNat_ofNat {code : Nat} (isScalar : code.isValidChar) : (Char.ofNat code).toNat = code := by
  rw [Char.ofNat, dif_pos isScalar]
  rfl

/-- A scalar that is read from several bytes has the code they spell. -/
theorem of_scalarFrom? {least code count taken : Nat} {char : Char}
    (read : (scalarFrom? least code).map (·, count) = some (char, taken)) :
    least ≤ char.toNat ∧ taken = count := by
  obtain ⟨_, found, pair⟩ := Option.map_eq_some_iff.mp read
  obtain ⟨rfl, rfl⟩ := Prod.mk.inj pair
  unfold scalarFrom? at found
  split at found
  · next known =>
    obtain rfl := Option.some.inj found
    exact ⟨(toNat_ofNat known.2).symm ▸ known.1, rfl⟩
  · cases found

/-- An encoding takes bytes that are there, and one of several bytes is beyond ASCII. -/
theorem of_leadingScalar? {byte : UInt8} {rest : Text} {char : Char} {taken : Nat}
    (found : leadingScalar? byte rest = some (char, taken)) :
    taken ≤ rest.length ∧ (char.toNat = byte.toNat ∨ 0x80 ≤ char.toNat) := by
  unfold leadingScalar? at found
  split at found
  · next ascii =>
    obtain ⟨rfl, rfl⟩ := Prod.mk.inj (Option.some.inj found)
    have small : byte.toNat < 128 := UInt8.lt_iff_toNat_lt.mp ascii
    exact ⟨Nat.zero_le _, .inl (toNat_ofNat (.inl (Nat.lt_trans small (by decide))))⟩
  split at found
  · split at found
    · split at found
      · obtain ⟨least, rfl⟩ := of_scalarFrom? found
        exact ⟨by simp, .inr least⟩
      · cases found
    · cases found
  split at found
  · split at found
    · split at found
      · obtain ⟨least, rfl⟩ := of_scalarFrom? found
        exact ⟨by simp, .inr (Nat.le_trans (by decide) least)⟩
      · cases found
    · cases found
  split at found
  · split at found
    · split at found
      · obtain ⟨least, rfl⟩ := of_scalarFrom? found
        exact ⟨by simp, .inr (Nat.le_trans (by decide) least)⟩
      · cases found
    · cases found
  · cases found

/-- The rune that a byte leads, with the number of bytes that it takes of the rest. -/
def leadingRune (byte : UInt8) (rest : Text) : Rune × Nat :=
  match leadingScalar? byte rest with
  | some (char, taken) => (.scalar char, taken)
  | none => (.stray byte, 0)

theorem readRunes_cons (byte : UInt8) (rest : Text) :
    readRunes [] 0 (byte :: rest)
      = (leadingRune byte rest).1 :: readRunes [] (leadingRune byte rest).2 rest := by
  rw [readRunes, leadingRune]
  cases leadingScalar? byte rest with
  | none => exact readRunes_eq_append [_] 0 rest
  | some read => exact readRunes_eq_append [_] read.2 rest

theorem leadingRune_le (byte : UInt8) (rest : Text) : (leadingRune byte rest).2 ≤ rest.length := by
  unfold leadingRune
  cases found : leadingScalar? byte rest with
  | none => exact Nat.zero_le _
  | some read => exact (of_leadingScalar? found).1

/-- A character of ASCII is led by its byte. -/
theorem toNat_of_leadingRune {byte : UInt8} {rest : Text} {char : Char}
    (leads : (leadingRune byte rest).1 = .scalar char) :
    char.toNat = byte.toNat ∨ 0x80 ≤ char.toNat := by
  unfold leadingRune at leads
  cases found : leadingScalar? byte rest with
  | none =>
    rw [found] at leads
    cases leads
  | some read =>
    rw [found] at leads
    obtain rfl := Rune.scalar.inj leads
    exact (of_leadingScalar? found).2

/-- A text that no encoding goes on into. -/
def StartsAnew (text : Text) : Prop := ∀ byte ∈ text.head?, isContinuation byte = false

/-- An encoding does not reach into a text that starts anew. -/
theorem leadingScalar?_append (anew : StartsAnew second) (byte : UInt8) (rest : Text) :
    leadingScalar? byte (rest ++ second) = leadingScalar? byte rest := by
  unfold leadingScalar?
  cases second with
  | nil => rw [List.append_nil]
  | cons next second =>
    have stops : isContinuation next = false := anew next rfl
    split
    · rfl
    split
    · cases rest with
      | nil => simp [stops]
      | cons => rfl
    split
    · match rest with
      | [] => cases second <;> simp [stops]
      | [_] => simp [stops]
      | _ :: _ :: _ => rfl
    split
    · match rest with
      | [] => rcases second with _ | ⟨_, _ | _⟩ <;> simp [stops]
      | [_] => cases second <;> simp [stops]
      | [_, _] => simp [stops]
      | _ :: _ :: _ :: _ => rfl
    · rfl

theorem readRunes_append (anew : StartsAnew second) {skip : Nat} (within : skip ≤ first.length) :
    readRunes [] skip (first ++ second) = readRunes [] skip first ++ runes second := by
  induction first generalizing skip with
  | nil =>
    obtain rfl := Nat.le_zero.mp within
    rfl
  | cons byte first ih =>
    cases skip with
    | succ skip => exact ih (Nat.le_of_succ_le_succ within)
    | zero =>
      have leads : leadingRune byte (first ++ second) = leadingRune byte first := by
        rw [leadingRune, leadingScalar?_append anew, leadingRune]
      rw [List.cons_append, readRunes_cons, readRunes_cons, leads, ih (leadingRune_le byte first)]
      rfl

/-- **Lower case goes text by text** where no encoding reaches from one into the next. -/
theorem lower_append (anew : StartsAnew second) (first : Text) :
    lower (first ++ second) = lower first ++ lower second := by
  rw [lower, runes, readRunes_append anew (Nat.zero_le _), List.flatMap_append]
  rfl

theorem not_isContinuation_of_ascii {byte : UInt8} (ascii : byte < 0x80) :
    isContinuation byte = false := by
  rw [isContinuation, beq_eq_false_iff_ne]
  intro high
  have code := congrArg UInt8.toNat high
  rw [UInt8.toNat_and] at code
  have least : byte.toNat &&& (0xC0 : UInt8).toNat ≤ byte.toNat := Nat.and_le_left
  have most : byte.toNat < 0x80 := UInt8.lt_iff_toNat_lt.mp ascii
  rw [code] at least
  exact Nat.not_lt_of_le least most

theorem startsAnew_of_ascii (ascii : ∀ byte ∈ second.head?, byte < 0x80) : StartsAnew second :=
  fun byte leads => not_isContinuation_of_ascii (ascii byte leads)

/-! ### Encoded characters -/

/-- The first byte of two. -/
theorem lead_of_two : ∀ bits < 32, ¬ UInt8.ofNat (bits + 192) < 0x80
    ∧ UInt8.ofNat (bits + 192) &&& 0xE0 == 0xC0
    ∧ (UInt8.ofNat (bits + 192) &&& 0x1F).toNat = bits := by
  decide

/-- The first byte of three. -/
theorem lead_of_three : ∀ bits < 16, ¬ UInt8.ofNat (bits + 224) < 0x80
    ∧ ¬ UInt8.ofNat (bits + 224) &&& 0xE0 == 0xC0
    ∧ UInt8.ofNat (bits + 224) &&& 0xF0 == 0xE0
    ∧ (UInt8.ofNat (bits + 224) &&& 0x0F).toNat = bits := by
  decide

/-- The first byte of four. -/
theorem lead_of_four : ∀ bits < 8, ¬ UInt8.ofNat (bits + 240) < 0x80
    ∧ ¬ UInt8.ofNat (bits + 240) &&& 0xE0 == 0xC0
    ∧ ¬ UInt8.ofNat (bits + 240) &&& 0xF0 == 0xE0
    ∧ UInt8.ofNat (bits + 240) &&& 0xF8 == 0xF0
    ∧ (UInt8.ofNat (bits + 240) &&& 0x07).toNat = bits := by
  decide

/-- A byte that goes on an encoding. -/
theorem continuation : ∀ bits < 64, isContinuation (UInt8.ofNat (bits + 128))
    ∧ continuationBits (UInt8.ofNat (bits + 128)) = bits := by
  decide

section Spelt

variable {high upper middle low : Nat} (rest : Text)

/-- Two bytes that spell a code. -/
theorem leadingScalar?_two (fits : high < 32) (fitsLow : low < 64) :
    leadingScalar? (UInt8.ofNat (high + 192)) (UInt8.ofNat (low + 128) :: rest)
      = (scalarFrom? 0x80 (high * 64 + low)).map (·, 1) := by
  obtain ⟨wide, leads, read⟩ := lead_of_two high fits
  obtain ⟨goesOn, readLow⟩ := continuation low fitsLow
  rw [leadingScalar?, if_neg wide, if_pos leads]
  simp only
  rw [if_pos goesOn, read, readLow]

/-- Three bytes that spell a code. -/
theorem leadingScalar?_three (fits : high < 16) (fitsMiddle : middle < 64) (fitsLow : low < 64) :
    leadingScalar? (UInt8.ofNat (high + 224))
        (UInt8.ofNat (middle + 128) :: UInt8.ofNat (low + 128) :: rest)
      = (scalarFrom? 0x800 ((high * 64 + middle) * 64 + low)).map (·, 2) := by
  obtain ⟨wide, notTwo, leads, read⟩ := lead_of_three high fits
  obtain ⟨goesOn, readMiddle⟩ := continuation middle fitsMiddle
  obtain ⟨ends, readLow⟩ := continuation low fitsLow
  rw [leadingScalar?, if_neg wide, if_neg notTwo, if_pos leads]
  simp only
  rw [if_pos (by rw [goesOn, ends]; rfl), read, readMiddle, readLow]

/-- Four bytes that spell a code. -/
theorem leadingScalar?_four (fits : high < 8) (fitsUpper : upper < 64) (fitsMiddle : middle < 64)
    (fitsLow : low < 64) :
    leadingScalar? (UInt8.ofNat (high + 240))
        (UInt8.ofNat (upper + 128) :: UInt8.ofNat (middle + 128) :: UInt8.ofNat (low + 128) :: rest)
      = (scalarFrom? 0x10000 (((high * 64 + upper) * 64 + middle) * 64 + low)).map (·, 3) := by
  obtain ⟨wide, notTwo, notThree, leads, read⟩ := lead_of_four high fits
  obtain ⟨starts, readUpper⟩ := continuation upper fitsUpper
  obtain ⟨goesOn, readMiddle⟩ := continuation middle fitsMiddle
  obtain ⟨ends, readLow⟩ := continuation low fitsLow
  rw [leadingScalar?, if_neg wide, if_neg notTwo, if_neg notThree, if_pos leads]
  simp only
  rw [if_pos (by rw [starts, goesOn, ends]; rfl), read, readUpper, readMiddle, readLow]

end Spelt

theorem scalarFrom?_of_eq (char : Char) {least code : Nat} (spelt : code = char.toNat)
    (large : least ≤ char.toNat) : scalarFrom? least code = some char := by
  rw [scalarFrom?, spelt, if_pos ⟨large, char.valid⟩, Char.ofNat_toNat]

/-- The encoding of a character starts with a byte that the rest of it goes with. -/
theorem exists_utf8EncodeChar (char : Char) :
    ∃ byte more, String.utf8EncodeChar char = byte :: more
      ∧ ∀ rest, leadingScalar? byte (more ++ rest) = some (char, more.length) := by
  have bounded : char.toNat < 0x110000 := by
    have valid : char.toNat.isValidChar := char.valid
    unfold Nat.isValidChar at valid
    omega
  have code : char.val.toNat = char.toNat := rfl
  unfold String.utf8EncodeChar
  simp only [code]
  by_cases one : char.toNat ≤ 127
  · refine ⟨_, [], if_pos one, fun rest => ?_⟩
    have same : (UInt8.ofNat char.toNat).toNat = char.toNat := by
      rw [UInt8.toNat_ofNat']
      exact Nat.mod_eq_of_lt (by omega)
    have ascii : UInt8.ofNat char.toNat < 0x80 := by
      rw [UInt8.lt_iff_toNat_lt, same]
      exact Nat.lt_succ_of_le one
    have found : leadingScalar? (UInt8.ofNat char.toNat) ([] ++ rest)
        = some (Char.ofNat (UInt8.ofNat char.toNat).toNat, 0) := if_pos ascii
    rw [found, same, Char.ofNat_toNat]
    rfl
  rw [if_neg one]
  by_cases two : char.toNat ≤ 2047
  · refine ⟨_, _, if_pos two, fun rest => (leadingScalar?_two rest ?_ ?_).trans ?_⟩
    · omega
    · omega
    · rw [scalarFrom?_of_eq char (by omega) (by omega)]
      rfl
  rw [if_neg two]
  by_cases three : char.toNat ≤ 65535
  · refine ⟨_, _, if_pos three, fun rest => (leadingScalar?_three rest ?_ ?_ ?_).trans ?_⟩
    · omega
    · omega
    · omega
    · rw [scalarFrom?_of_eq char (by omega) (by omega)]
      rfl
  · refine ⟨_, _, if_neg three, fun rest => (leadingScalar?_four rest ?_ ?_ ?_ ?_).trans ?_⟩
    · omega
    · omega
    · omega
    · omega
    · rw [scalarFrom?_of_eq char (by omega) (by omega)]
      rfl

theorem readRunes_length_append (done : List Rune) (taken rest : Text) :
    readRunes done taken.length (taken ++ rest) = readRunes done 0 rest := by
  induction taken with
  | nil => rfl
  | cons byte taken ih => exact ih

/-- **An encoded character is read as that character.** -/
theorem runes_utf8EncodeChar_append (char : Char) (rest : Text) :
    runes (String.utf8EncodeChar char ++ rest) = .scalar char :: runes rest := by
  obtain ⟨byte, more, encoded, reads⟩ := exists_utf8EncodeChar char
  rw [encoded, List.cons_append, runes, readRunes, reads]
  simp only
  rw [readRunes_length_append, readRunes_eq_append]
  rfl

/-- A byte of ASCII encodes a character by itself. -/
theorem toNat_of_mem_utf8EncodeChar {char : Char} {byte : UInt8} (ascii : byte < 0x80)
    (mem : byte ∈ String.utf8EncodeChar char) : char.toNat = byte.toNat := by
  have small : byte.toNat < 128 := UInt8.lt_iff_toNat_lt.mp ascii
  have high (bits : Nat) : 128 ≤ bits → bits < 256 → byte ≠ UInt8.ofNat bits := by
    rintro least most rfl
    rw [UInt8.toNat_ofNat', Nat.mod_eq_of_lt most] at small
    omega
  have code : char.val.toNat = char.toNat := rfl
  unfold String.utf8EncodeChar at mem
  simp only [code] at mem
  split at mem
  · next one =>
    obtain rfl := List.mem_singleton.mp mem
    rw [UInt8.toNat_ofNat', Nat.mod_eq_of_lt (by omega)]
  · exfalso
    split at mem
    · simp only [List.mem_cons, List.not_mem_nil, or_false] at mem
      rcases mem with same | same
      all_goals exact high _ (by omega) (by omega) same
    split at mem
    · simp only [List.mem_cons, List.not_mem_nil, or_false] at mem
      rcases mem with same | same | same
      all_goals exact high _ (by omega) (by omega) same
    · simp only [List.mem_cons, List.not_mem_nil, or_false] at mem
      rcases mem with same | same | same | same
      all_goals exact high _ (by omega) (by omega) same

end Text

/-! ### Small letters -/

namespace CaseRun

/-- The small letter of the first capital of a run. -/
def least (run : CaseRun) : Nat := (run.first + run.shift).toNat

/-- The small letter of the last capital of a run. -/
def greatest (run : CaseRun) : Nat := (run.last + run.shift).toNat

/-- Small letters are characters, and none comes before those of ASCII; the replacement character is
no capital. -/
theorem bounds : ∀ run ∈ beyondAscii, 0x61 ≤ run.least
    ∧ (run.greatest < 0xD800 ∨ 0xE000 ≤ run.least ∧ run.greatest < 0x110000)
    ∧ (run.last < 0xFFFD ∨ 0xFFFD < run.first) := by
  decide +kernel

/-- A number with as many bits set as are counted, one after each `step`. -/
def comb (step : Nat) : (count : Nat) → Nat
  | 0 => 0
  | count + 1 => comb step count <<< step ||| 1

/-- The codes of some runs as the bits of a number, given where each run starts. -/
def bits (runs : List CaseRun) (start : CaseRun → Nat) : Nat :=
  runs.foldr (fun run bits =>
    comb run.step ((run.last - run.first) / run.step + 1) <<< start run ||| bits) 0

theorem testBit_comb (step : Nat) {count place : Nat} (inside : place < count) :
    (comb step count).testBit (place * step) = true := by
  induction count generalizing place with
  | zero => cases inside
  | succ count ih =>
    rw [comb, Nat.testBit_or, Bool.or_eq_true]
    cases place with
    | zero =>
      rw [Nat.zero_mul]
      exact .inr rfl
    | succ place =>
      rw [Nat.succ_mul, Nat.testBit_shiftLeft, Nat.add_sub_cancel,
        ih (Nat.lt_of_succ_lt_succ inside), decide_eq_true (Nat.le_add_left _ _)]
      exact .inl rfl

theorem contains_iff {run : CaseRun} {code : Nat} :
    run.contains code ↔ run.first ≤ code ∧ code ≤ run.last ∧ (code - run.first) % run.step = 0 := by
  rw [contains, Bool.and_eq_true, Bool.and_eq_true, decide_eq_true_iff, decide_eq_true_iff,
    beq_iff_eq, and_assoc]

/-- The bit of a code that is as far from the start as a capital is. -/
theorem testBit_bits {runs : List CaseRun} {run : CaseRun} (known : run ∈ runs)
    (start : CaseRun → Nat) {code : Nat} (capital : run.contains code) :
    (bits runs start).testBit (start run + (code - run.first)) = true := by
  induction runs with
  | nil => cases known
  | cons other runs ih =>
    rw [bits, List.foldr_cons, ← bits, Nat.testBit_or, Bool.or_eq_true]
    rcases List.mem_cons.mp known with rfl | known
    · obtain ⟨-, last, onStep⟩ := contains_iff.mp capital
      have inside : (code - run.first) / run.step < (run.last - run.first) / run.step + 1 :=
        Nat.lt_succ_of_le (Nat.div_le_div_right (Nat.sub_le_sub_right last run.first))
      have place := testBit_comb run.step inside
      rw [Nat.div_mul_cancel (Nat.dvd_of_mod_eq_zero onStep)] at place
      rw [Nat.testBit_shiftLeft, Nat.add_sub_cancel_left, place,
        decide_eq_true (Nat.le_add_right _ _)]
      exact .inl rfl
    · exact .inr (ih known)

/-- No code is both a capital and a small letter. -/
theorem capitals_and_smalls : bits beyondAscii first &&& bits beyondAscii least = 0 := by
  decide +kernel

/-- The small letter of a capital. -/
theorem toNat_add_shift {run : CaseRun} (known : run ∈ beyondAscii) {code : Nat}
    (capital : run.contains code) :
    (code + run.shift).toNat = run.least + (code - run.first)
      ∧ (code + run.shift).toNat ≤ run.greatest := by
  have some := (bounds run known).1
  obtain ⟨first, last, -⟩ := contains_iff.mp capital
  unfold least at some ⊢
  unfold greatest
  omega

/-- A small letter is no capital of any run. -/
theorem not_contains_small {run other : CaseRun} (known : run ∈ beyondAscii)
    (otherKnown : other ∈ beyondAscii) {code : Nat} (capital : run.contains code) :
    ¬ other.contains (code + run.shift).toNat := by
  intro again
  have least : (bits beyondAscii least).testBit (code + run.shift).toNat = true := by
    rw [(toNat_add_shift known capital).1]
    exact testBit_bits known least capital
  have first : (bits beyondAscii first).testBit (code + run.shift).toNat = true := by
    have place := testBit_bits otherKnown first again
    rwa [Nat.add_sub_cancel' (contains_iff.mp again).1] at place
  have both := congrArg (Nat.testBit · (code + run.shift).toNat) capitals_and_smalls
  simp only [Nat.testBit_and, first, least, Nat.zero_testBit] at both
  cases both

end CaseRun

namespace Rune

open CaseRun (beyondAscii)

/-- What becomes of a character beyond ASCII. -/
theorem lowerChar_of_beyond {char : Char} (beyond : 0x80 ≤ char.toNat) :
    lowerChar char = char ∨ ∃ run ∈ beyondAscii, run.contains char.toNat
      ∧ (lowerChar char).toNat = (char.toNat + run.shift).toNat := by
  rw [lowerChar, if_neg (Nat.not_lt_of_le beyond)]
  cases found : beyondAscii.find? (·.contains char.toNat) with
  | none => exact .inl rfl
  | some run =>
    have known := List.mem_of_find?_eq_some found
    have capital : run.contains char.toNat :=
      List.find?_some (p := fun run : CaseRun => run.contains char.toNat) found
    refine .inr ⟨run, known, capital, ?_⟩
    obtain ⟨small, most⟩ := CaseRun.toNat_add_shift known capital
    have isScalar : (char.toNat + run.shift).toNat.isValidChar := by
      have range := (CaseRun.bounds run known).2.1
      unfold Nat.isValidChar
      omega
    exact Text.toNat_ofNat isScalar

/-- What becomes of a character of ASCII. -/
theorem toNat_lowerChar_of_ascii {char : Char} (ascii : char.toNat < 0x80) :
    (lowerChar char).toNat
      = if 0x41 ≤ char.toNat ∧ char.toNat ≤ 0x5A then char.toNat + 32 else char.toNat := by
  rw [lowerChar, if_pos ascii]
  delta Char.toLower
  split
  · next capital =>
    have range : 0x41 ≤ char.toNat ∧ char.toNat ≤ 0x5A :=
      ⟨UInt32.le_iff_toNat_le.mp capital.1, UInt32.le_iff_toNat_le.mp capital.2⟩
    rw [if_pos range]
    show (char.toNat + 32) % 4294967296 = char.toNat + 32
    omega
  · next other =>
    refine (if_neg fun range => other ?_).symm
    exact ⟨UInt32.le_iff_toNat_le.mpr range.1, UInt32.le_iff_toNat_le.mpr range.2⟩

theorem lowerChar_of_not_capital {char : Char} (ascii : char.toNat < 0x80)
    (small : ¬ (0x41 ≤ char.toNat ∧ char.toNat ≤ 0x5A)) : lowerChar char = char := by
  rw [← Char.toNat_inj, toNat_lowerChar_of_ascii ascii, if_neg small]

/-- A small letter comes behind the capitals of ASCII. -/
theorem lowerChar_eq_self_or (char : Char) :
    lowerChar char = char ∨ 0x61 ≤ (lowerChar char).toNat := by
  by_cases ascii : char.toNat < 0x80
  · by_cases capital : 0x41 ≤ char.toNat ∧ char.toNat ≤ 0x5A
    · rw [toNat_lowerChar_of_ascii ascii, if_pos capital]
      exact .inr (Nat.add_le_add_right capital.1 32)
    · exact .inl (lowerChar_of_not_capital ascii capital)
  · refine (lowerChar_of_beyond (Nat.le_of_not_lt ascii)).imp_right ?_
    rintro ⟨run, known, capital, small⟩
    have least := (CaseRun.bounds run known).1
    have offset := (CaseRun.toNat_add_shift known capital).1
    omega

/-- **A small letter is no capital.** -/
theorem lowerChar_lowerChar (char : Char) : lowerChar (lowerChar char) = lowerChar char := by
  rcases lowerChar_eq_self_or char with same | behind
  · rw [same, same]
  by_cases smallAscii : (lowerChar char).toNat < 0x80
  · exact lowerChar_of_not_capital smallAscii (by omega)
  by_cases ascii : char.toNat < 0x80
  · have code := toNat_lowerChar_of_ascii ascii
    split at code <;> omega
  rcases lowerChar_of_beyond (Nat.le_of_not_lt ascii) with same | ⟨run, known, capital, small⟩
  · rw [same, same]
  rcases lowerChar_of_beyond (Nat.le_of_not_lt smallAscii) with same | ⟨other, otherKnown, again, -⟩
  · exact same
  · rw [small] at again
    exact absurd again (CaseRun.not_contains_small known otherKnown capital)

theorem lowerChar_replacement : lowerChar '\uFFFD' = '\uFFFD' := by
  rcases @lowerChar_of_beyond '\uFFFD' (by decide) with same | ⟨run, known, capital, -⟩
  · exact same
  · obtain ⟨first, last, -⟩ := CaseRun.contains_iff.mp capital
    have code : '\uFFFD'.toNat = 0xFFFD := rfl
    have outside := (CaseRun.bounds run known).2.2
    omega

/-- A rune in lower case is an encoded character that has no small letter. -/
theorem exists_lower (rune : Rune) :
    ∃ char, rune.lower = String.utf8EncodeChar char ∧ lowerChar char = char := by
  cases rune with
  | scalar char => exact ⟨lowerChar char, rfl, lowerChar_lowerChar char⟩
  | stray byte =>
    have encoded : [0xEF, 0xBF, 0xBD] = String.utf8EncodeChar '\uFFFD' := by decide
    exact ⟨'\uFFFD', encoded, lowerChar_replacement⟩

end Rune

namespace Text

/-- **A text in lower case stays as it is.** -/
theorem lower_lower (text : Text) : lower (lower text) = lower text := by
  suffices ∀ runes : List Rune, lower (runes.flatMap Rune.lower) = runes.flatMap Rune.lower from
    this text.runes
  intro runes
  induction runes with
  | nil => rfl
  | cons rune runes ih =>
    obtain ⟨char, lowered, small⟩ := rune.exists_lower
    rw [List.flatMap_cons, lowered, lower, runes_utf8EncodeChar_append, List.flatMap_cons, ← lower,
      ih, Rune.lower, small]

theorem lower_ne_nil {text : Text} (some : text ≠ []) : lower text ≠ [] := by
  obtain ⟨byte, rest, rfl⟩ := List.exists_cons_of_ne_nil some
  obtain ⟨char, lowered, -⟩ := (leadingRune byte rest).1.exists_lower
  obtain ⟨first, more, encoded, -⟩ := exists_utf8EncodeChar char
  rw [lower, runes, readRunes_cons, List.flatMap_cons, lowered, encoded]
  exact List.cons_ne_nil _ _

theorem lower_cons_of_plain {byte : UInt8} (plain : isPlain byte) (rest : Text) :
    lower (byte :: rest) = byte :: lower rest := by
  rw [lower, runes_cons_of_ascii (ascii_of_plain plain), List.flatMap_cons,
    lower_scalar_of_plain byte plain]
  rfl

theorem plain_of_isLineSpace {byte : UInt8} (space : isLineSpace byte) : isPlain byte := by
  simp only [isLineSpace, Bool.or_eq_true, beq_iff_eq] at space
  rcases space with ((rfl | rfl) | rfl) | rfl
  all_goals rfl

theorem plain_of_isOperandSpace : ∀ byte, isOperandSpace byte → isPlain byte := by
  apply forall_byte
  decide +kernel

theorem lt_of_isOperandSpace {byte : UInt8} (space : isOperandSpace byte) : byte < 0x41 := by
  simp only [isOperandSpace] at space
  grind

/-- White space at the end stays as it is. -/
theorem lower_append_blank {tail : Text} (blank : ∀ byte ∈ tail, isLineSpace byte) (text : Text) :
    lower (text ++ tail) = lower text ++ tail := by
  have plain : ∀ byte ∈ tail, isPlain byte := fun byte mem =>
    plain_of_isLineSpace (blank byte mem)
  have anew : StartsAnew tail := startsAnew_of_ascii fun byte leads =>
    ascii_of_plain (plain byte (List.mem_of_mem_head? leads))
  rw [lower_append anew, lower_of_plain plain]

/-- A character of ASCII is read from its byte. -/
theorem mem_of_mem_readRunes {byte : UInt8} (ascii : byte < 0x80) {char : Char}
    (code : char.toNat = byte.toNat) {skip : Nat} {text : Text}
    (mem : .scalar char ∈ readRunes [] skip text) : byte ∈ text := by
  have small : byte.toNat < 128 := UInt8.lt_iff_toNat_lt.mp ascii
  induction text generalizing skip with
  | nil => cases mem
  | cons first rest ih =>
    cases skip with
    | succ skip => exact List.mem_cons_of_mem first (ih mem)
    | zero =>
      rw [readRunes_cons] at mem
      rcases List.mem_cons.mp mem with leads | later
      · rcases toNat_of_leadingRune leads.symm with same | beyond
        · obtain rfl := UInt8.toNat_inj.mp (code.symm.trans same)
          exact List.mem_cons_self
        · omega
      · exact List.mem_cons_of_mem first (ih later)

/-- **What comes before the letters of ASCII is neither made nor lost.** -/
theorem mem_lower_iff {byte : UInt8} (early : byte < 0x41) (text : Text) :
    byte ∈ lower text ↔ byte ∈ text := by
  have least : byte.toNat < 65 := UInt8.lt_iff_toNat_lt.mp early
  have ascii : byte < 0x80 := UInt8.lt_iff_toNat_lt.mpr (Nat.lt_trans least (by decide))
  have plain : isPlain byte := by
    simp only [isPlain]
    grind
  constructor
  · intro mem
    obtain ⟨rune, known, mem⟩ := List.mem_flatMap.mp mem
    cases rune with
    | stray =>
      have beyond : ∀ byte ∈ ([0xEF, 0xBF, 0xBD] : Text), ¬ byte < 0x41 :=
        forall_mem_of_all (by decide)
      exact absurd early (beyond byte mem)
    | scalar char =>
      have code := toNat_of_mem_utf8EncodeChar ascii mem
      have same : Rune.lowerChar char = char :=
        (Rune.lowerChar_eq_self_or char).resolve_right (by omega)
      exact mem_of_mem_readRunes ascii (same ▸ code) known
  · intro mem
    obtain ⟨lead, rest, rfl⟩ := List.append_of_mem mem
    have anew : StartsAnew (byte :: rest) :=
      startsAnew_of_ascii fun _ leads => Option.some.inj leads ▸ ascii
    rw [lower_append anew, lower_cons_of_plain plain]
    exact List.mem_append_right _ List.mem_cons_self

end Text

end PicaShader
