/-
**Conversion to float24 truncates.**

A single is a sign and a magnitude of 31 bits, a float24 a sign and a magnitude of 23 bits. Both
magnitudes are an exponent over a fraction, so the conversion is one expression on whole magnitudes:
drop seven bits, then subtract the difference of the biases, which stops at zero
(`Float24.encode_eq_ok_iff`). Back it is the same expression the other way round, but for the
magnitude zero (`Float24.toNat_decode`). The laws of the conversion are arithmetic on these two:

* `Float24.encode_decode`: a float24 is converted back from its single;
* `Float24.encode_truncates`: what is refused, what is lost, and that the order is kept.
-/

import PicaShader.Float24
import PicaShader.Proofs.Word

namespace PicaShader

namespace Word

/-- Parts that stand side by side add up. -/
theorem toNat_parts {high middle low : Word} {top shift : Nat} (inside : top ≤ 32)
    (lowFits : low.toNat < 2 ^ shift) (middleFits : middle.toNat * 2 ^ shift + low.toNat < 2 ^ top)
    (highFits : high.toNat * 2 ^ top < 2 ^ 32) :
    (high <<< top ||| middle <<< shift ||| low).toNat
      = high.toNat * 2 ^ top + (middle.toNat * 2 ^ shift + low.toNat) := by
  have topFits : 2 ^ top ≤ 2 ^ 32 := Nat.pow_le_pow_right Nat.two_pos inside
  rw [BitVec.toNat_or, BitVec.toNat_or, BitVec.toNat_shiftLeft, BitVec.toNat_shiftLeft,
    Nat.shiftLeft_eq, Nat.shiftLeft_eq, Nat.mod_eq_of_lt highFits, Nat.mod_eq_of_lt (by omega),
    Nat.or_assoc, Nat.mul_comm middle.toNat, ← Nat.two_pow_add_eq_or_of_lt lowFits,
    Nat.mul_comm high.toNat, ← Nat.two_pow_add_eq_or_of_lt (by rwa [Nat.mul_comm])]

/-- The bits from a place up. -/
theorem toNat_and_upper (word : Word) (width : Nat) :
    (word &&& (BitVec.allOnes 32 <<< width)).toNat = word.toNat / 2 ^ width * 2 ^ width := by
  have cleared : word &&& (BitVec.allOnes 32 <<< width) = word >>> width <<< width := by
    ext bit inside
    simp only [BitVec.getElem_and, BitVec.getElem_shiftLeft, BitVec.getElem_allOnes,
      BitVec.getElem_ushiftRight]
    by_cases below : bit < width
    · simp [below]
    · have same : width + (bit - width) = bit := Nat.add_sub_cancel' (Nat.le_of_not_lt below)
      simp [below, same, BitVec.getLsbD_eq_getElem inside]
  have small := Nat.div_mul_le_self word.toNat (2 ^ width)
  rw [cleared, BitVec.toNat_shiftLeft, BitVec.toNat_ushiftRight, Nat.shiftLeft_eq,
    Nat.shiftRight_eq_div_pow, Nat.mod_eq_of_lt (Nat.lt_of_le_of_lt small word.isLt)]

end Word

namespace Single

/-- A single is its sign and its magnitude. -/
theorem toNat_eq (single : Word) :
    single.toNat = (Word.slice single 1 31).toNat * 2 ^ 31 + magnitude single := by
  have whole := single.isLt
  rw [magnitude, Word.slice_toNat _ _ (by decide), Word.slice_toNat _ _ (by decide)]
  omega

/-- The sign is one bit, and the magnitude is the exponent over the fraction. -/
theorem parts (single : Word) : (Word.slice single 1 31).toNat < 2
    ∧ fractionBits single < 2 ^ 23
    ∧ magnitude single = exponentBits single * 2 ^ 23 + fractionBits single := by
  refine ⟨Word.toNat_slice_lt single 31 (by decide), Word.toNat_slice_lt single 0 (by decide), ?_⟩
  rw [magnitude, exponentBits, fractionBits, Word.slice_toNat _ _ (by decide),
    Word.slice_toNat _ _ (by decide), Word.slice_toNat _ _ (by decide)]
  omega

end Single

namespace Float24

variable {single value : Word}

/-- A float24 without its sign: the low 23 bits of a word. -/
def magnitude (value : Word) : Nat := (Word.slice value 23 0).toNat

theorem magnitude_lt (value : Word) : magnitude value < 2 ^ 23 :=
  Word.toNat_slice_lt value 0 (by decide)

/-- The sign and the magnitude of a float24. -/
theorem toNat_eq (small : value.toNat < 2 ^ 24) :
    value.toNat = (Word.slice value 1 23).toNat * 2 ^ 23 + magnitude value := by
  rw [magnitude, Word.slice_toNat _ _ (by decide), Word.slice_toNat _ _ (by decide)]
  omega

/-- The three ranges of a conversion, by the exponent. -/
theorem encode_eq (single : Word) : encode single
    = if Single.exponentBits single < 0x40 then .ok (Word.slice single 1 31 <<< 23)
      else if 0xBF < Single.exponentBits single then .error (.floatOutOfRange single)
      else .ok (Word.slice single 1 31 <<< 23
        ||| BitVec.ofNat 32 (Single.exponentBits single - 0x40) <<< 16
        ||| Word.slice single 16 7) := rfl

/-- **A single is converted** if its exponent is not past the range. -/
theorem encode_eq_ok_iff : encode single = .ok value ↔ Single.exponentBits single ≤ 0xBF
    ∧ value.toNat
      = (Word.slice single 1 31).toNat * 2 ^ 23 + (Single.magnitude single / 2 ^ 7 - 2 ^ 22) := by
  obtain ⟨sign, fraction, parts⟩ := Single.parts single
  have kept : (Word.slice single 16 7).toNat = Single.fractionBits single / 2 ^ 7 := by
    rw [Single.fractionBits, Word.slice_toNat _ _ (by decide), Word.slice_toNat _ _ (by decide)]
    omega
  rw [encode_eq]
  by_cases low : Single.exponentBits single < 0x40
  · have shifted : (Word.slice single 1 31 <<< 23).toNat
        = (Word.slice single 1 31).toNat * 2 ^ 23 := by
      rw [BitVec.toNat_shiftLeft, Nat.shiftLeft_eq, Nat.mod_eq_of_lt (by omega)]
    rw [if_pos low, Except.ok.injEq, ← BitVec.toNat_inj, shifted]
    omega
  rw [if_neg low]
  by_cases past : 0xBF < Single.exponentBits single
  · rw [if_pos past]
    exact iff_of_false nofun fun ⟨inRange, _⟩ => absurd past (by omega)
  · have exponent : (BitVec.ofNat 32 (Single.exponentBits single - 0x40)).toNat
        = Single.exponentBits single - 0x40 := by
      rw [BitVec.toNat_ofNat, Nat.mod_eq_of_lt (by omega)]
    rw [if_neg past, Except.ok.injEq, ← BitVec.toNat_inj,
      Word.toNat_parts (by decide) (by omega) (by omega) (by omega), exponent, kept]
    omega

theorem exists_encode (inRange : Single.exponentBits single ≤ 0xBF) :
    ∃ value, encode single = .ok value := by
  obtain ⟨sign, fraction, parts⟩ := Single.parts single
  refine ⟨BitVec.ofNat 32 ((Word.slice single 1 31).toNat * 2 ^ 23
    + (Single.magnitude single / 2 ^ 7 - 2 ^ 22)), encode_eq_ok_iff.mpr ⟨inRange, ?_⟩⟩
  rw [BitVec.toNat_ofNat, Nat.mod_eq_of_lt (by omega)]

/-- A single past the range is refused, infinities and patterns with no number included. -/
theorem encode_of_past (past : 0xBF < Single.exponentBits single) :
    encode single = .error (.floatOutOfRange single) := by
  rw [encode_eq, if_neg (by omega), if_pos past]

/-- A float24 has 24 bits. -/
theorem encode_lt (encoded : encode single = .ok value) : value.toNat < 2 ^ 24 := by
  obtain ⟨inRange, number⟩ := encode_eq_ok_iff.mp encoded
  obtain ⟨sign, fraction, parts⟩ := Single.parts single
  omega

/-- The sign and the magnitude of a converted single. -/
theorem parts_of_encode (encoded : encode single = .ok value) :
    Word.slice value 1 23 = Word.slice single 1 31
      ∧ magnitude value = Single.magnitude single / 2 ^ 7 - 2 ^ 22 := by
  obtain ⟨inRange, number⟩ := encode_eq_ok_iff.mp encoded
  obtain ⟨sign, fraction, parts⟩ := Single.parts single
  rw [magnitude, ← BitVec.toNat_inj, Word.slice_toNat value _ (by decide),
    Word.slice_toNat value _ (by decide)]
  omega

/-- **A float24 is converted back** by the same numbers; the magnitude zero stays zero. -/
theorem toNat_decode (value : Word) : (decode value).toNat
    = (Word.slice value 1 23).toNat * 2 ^ 31
      + if magnitude value = 0 then 0 else (magnitude value + 2 ^ 22) * 2 ^ 7 := by
  have sign := Word.toNat_slice_lt value 23 (show 1 ≤ 32 by decide)
  have exponent := Word.toNat_slice_lt value 16 (show 7 ≤ 32 by decide)
  have fraction := Word.toNat_slice_lt value 0 (show 16 ≤ 32 by decide)
  have parts : magnitude value
      = (Word.slice value 7 16).toNat * 2 ^ 16 + (Word.slice value 16 0).toNat := by
    rw [magnitude, Word.slice_toNat _ _ (by decide), Word.slice_toNat _ _ (by decide),
      Word.slice_toNat _ _ (by decide)]
    omega
  have zero : Word.slice value 7 16 = 0 ∧ Word.slice value 16 0 = 0 ↔ magnitude value = 0 := by
    rw [parts, ← BitVec.toNat_inj, ← BitVec.toNat_inj]
    show (Word.slice value 7 16).toNat = 0 ∧ (Word.slice value 16 0).toNat = 0 ↔ _
    omega
  simp only [decode, zero]
  split
  · rw [BitVec.toNat_shiftLeft, Nat.shiftLeft_eq, Nat.mod_eq_of_lt (by omega), Nat.add_zero]
  · have biased : (Word.slice value 7 16 + BitVec.ofNat 32 bias).toNat
        = (Word.slice value 7 16).toNat + 0x40 := by
      rw [BitVec.toNat_add, BitVec.toNat_ofNat, bias]
      omega
    have shifted : (Word.slice value 16 0 <<< 7).toNat = (Word.slice value 16 0).toNat * 2 ^ 7 := by
      rw [BitVec.toNat_shiftLeft, Nat.shiftLeft_eq, Nat.mod_eq_of_lt (by omega)]
    rw [Word.toNat_parts (by decide) (by omega) (by omega) (by omega), biased, shifted]
    omega

/-- The sign and the magnitude of a decoded float24. -/
theorem parts_decode (value : Word) :
    Word.slice (decode value) 1 31 = Word.slice value 1 23
      ∧ Single.magnitude (decode value)
        = if magnitude value = 0 then 0 else (magnitude value + 2 ^ 22) * 2 ^ 7 := by
  have number := toNat_decode value
  have parts := Single.toNat_eq (decode value)
  have rest : Single.magnitude (decode value) < 2 ^ 31 := Word.toNat_slice_lt _ 0 (by decide)
  have small := magnitude_lt value
  have wide : (if magnitude value = 0 then 0 else (magnitude value + 2 ^ 22) * 2 ^ 7) < 2 ^ 31 := by
    split <;> omega
  rw [← BitVec.toNat_inj]
  omega

/-- **A float24 is a finite single.** -/
theorem magnitude_decode_lt (value : Word) :
    Single.magnitude (decode value) < Single.infinity := by
  have small := magnitude_lt value
  rw [(parts_decode value).2, Single.infinity]
  split <;> omega

/-- **A float24 is converted back from its single.** -/
theorem encode_decode (small : value.toNat < 2 ^ 24) : encode (decode value) = .ok value := by
  obtain ⟨sign, number⟩ := parts_decode value
  have bounded := magnitude_lt value
  obtain ⟨-, fraction, parts⟩ := Single.parts (decode value)
  refine encode_eq_ok_iff.mpr ⟨?_, ?_⟩
  · split at number <;> omega
  · rw [sign, number, toNat_eq small]
    split <;> omega

/-- A single without the low seven bits of its fraction, or a zero of its sign if that magnitude is
not above the least exponent. -/
def truncated (single : Word) : Word :=
  if 0x40 ≤ Single.exponentBits single
      ∧ ¬ (Single.exponentBits single = 0x40 ∧ Single.fractionBits single < 2 ^ 7) then
    single &&& 0xFFFFFF80
  else single &&& 0x80000000

/-- What a converted single stands for. -/
theorem decode_of_encode (encoded : encode single = .ok value) :
    decode value = truncated single := by
  obtain ⟨sign, kept⟩ := parts_of_encode encoded
  obtain ⟨-, fraction, parts⟩ := Single.parts single
  have whole := Single.toNat_eq single
  have upper : (single &&& 0xFFFFFF80).toNat = single.toNat / 2 ^ 7 * 2 ^ 7 :=
    Word.toNat_and_upper single 7
  have top : (single &&& 0x80000000).toNat = single.toNat / 2 ^ 31 * 2 ^ 31 :=
    Word.toNat_and_upper single 31
  rw [← BitVec.toNat_inj, toNat_decode, sign, kept, truncated, apply_ite BitVec.toNat, upper, top]
  split <;> split <;> omega

/-- The order of magnitudes is kept. -/
theorem magnitude_mono {first second other : Word} (encoded : encode first = .ok value)
    (encodedOther : encode second = .ok other)
    (ordered : Single.magnitude first ≤ Single.magnitude second) :
    magnitude value ≤ magnitude other := by
  rw [(parts_of_encode encoded).2, (parts_of_encode encodedOther).2]
  exact Nat.sub_le_sub_right (Nat.div_le_div_right ordered) _

/-- **Conversion to float24 truncates.** Refused are the singles with an exponent above `0xBF`, and
no others. Any other is converted to 24 bits that stand for the single without its low seven bits;
below the range, and at its very end, for a zero of the same sign. All 24-bit words are reached, each
from the single that it stands for, and larger magnitudes are not converted to smaller ones. -/
theorem encode_truncates :
    (∀ single, (∃ fault, encode single = .error fault) ↔ 0xBF < Single.exponentBits single)
    ∧ (∀ single, Single.exponentBits single ≤ 0xBF → ∃ value, encode single = .ok value
      ∧ value.toNat < 2 ^ 24 ∧ decode value = truncated single)
    ∧ (∀ value : Word, value.toNat < 2 ^ 24 → encode (decode value) = .ok value)
    ∧ ∀ first second value other, encode first = .ok value → encode second = .ok other →
      Single.magnitude first ≤ Single.magnitude second → magnitude value ≤ magnitude other := by
  refine ⟨fun single => ⟨?_, fun past => ⟨_, encode_of_past past⟩⟩, fun single inRange => ?_,
    fun value small => encode_decode small,
    fun first second value other encoded encodedOther ordered =>
      magnitude_mono encoded encodedOther ordered⟩
  · rintro ⟨fault, refused⟩
    refine Nat.lt_of_not_le fun inRange => ?_
    obtain ⟨value, encoded⟩ := exists_encode inRange
    cases refused.symm.trans encoded
  · obtain ⟨value, encoded⟩ := exists_encode inRange
    exact ⟨value, encoded, encode_lt encoded, decode_of_encode encoded⟩

/-- The least power of two in the range has no float24 of its own. -/
example : encode 0x20000000 = .ok 0 ∧ decode 0 = 0 := ⟨rfl, rfl⟩

end Float24

end PicaShader
