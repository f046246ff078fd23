import Mathlib
import Trigger.Proofs.Number.Order
import Trigger.Proofs.Number.Rounding

/-!
# Numbers and their bits

A number is stored as a sign, a power and a significand, and is determined by its parts
(`ofParts_parts`).  The parts of a number that is finite are canonical, with a power that is not too
large.  Parts like that are those of a number (`parts_ofParts_of_fits`), and canonical parts with a
larger power become an infinity.  The sign is stored as it is (`unsigned_ofParts`).

The bits are taken apart by lemmas that only the whole of Mathlib brings along.
-/

namespace Trigger.Number

open Float.Model (UnpackedFloat Format)
open Float.Model.UnpackedFloat

/-! ## Stored numbers -/

/-- The power is not too large for a number. -/
def Fits : UnpackedFloat → Prop
  | .finite _ _ e _ => e ≤ 971
  | _ => True

theorem toNat_implicit (mantissa : BitVec 52) :
    (1#1 ++ mantissa).toNat = 2 ^ 52 + mantissa.toNat := by
  rw [BitVec.toNat_append, ← Nat.shiftLeft_add_eq_or_of_lt mantissa.isLt]
  rfl

/-- The parts with the given sign, stored power and stored significand. -/
def stored (sign : Sign) (power significand : Nat) : UnpackedFloat :=
  if power = 2047 then if significand = 0 then .infinity sign else .notANumber
  else if power = 0 then
    if h : significand = 0 then .zero sign
    else .finite sign significand (-1074) (Nat.pos_of_ne_zero h)
  else .finite sign (2 ^ 52 + significand) (power - 1075) (by positivity)

theorem unpack_eq_stored (bits : BitVec Format.binary64.numBits) :
    unpack .binary64 bits =
      stored (Sign.ofBitVec (unpackSign bits)) (unpackExponent bits).toNat
        (unpackMantissa bits).toNat := by
  have bias : (Format.binary64.exponentBias : Int) = 1023 := rfl
  have last : unpackExponent bits = -1#_ ↔ (unpackExponent bits).toNat = 2047 :=
    BitVec.toNat_inj.symm
  have first : unpackExponent bits = 0#_ ↔ (unpackExponent bits).toNat = 0 :=
    BitVec.toNat_inj.symm
  have none : unpackMantissa bits = 0#_ ↔ (unpackMantissa bits).toNat = 0 :=
    BitVec.toNat_inj.symm
  unfold UnpackedFloat.unpack stored
  simp only [last, first, none]
  split
  · rfl
  · split
    · split
      · rfl
      · exact finite_congr rfl (by rw [bias]; omega)
    · exact finite_congr (toNat_implicit _) (by rw [bias]; omega)

theorem parts_cases (x : Float) :
    parts x = .notANumber ∨ (∃ sign, parts x = .infinity sign) ∨
      (IsCanonical (parts x) ∧ Fits (parts x)) := by
  have eq := unpack_eq_stored x.toModel.toBits.toBitVec
  have power := (@unpackExponent .binary64 x.toModel.toBits.toBitVec).isLt
  have significand := (@unpackMantissa .binary64 x.toModel.toBits.toBitVec).isLt
  change parts x = _ at eq
  rw [eq, stored]
  change _ < 2 ^ 11 at power
  change _ < 2 ^ 52 at significand
  split
  · split
    · exact .inr (.inl ⟨_, rfl⟩)
    · exact .inl rfl
  · right; right
    split
    · split
      · exact ⟨trivial, trivial⟩
      · exact ⟨⟨significand.trans (by norm_num), le_refl _, .inr rfl⟩, by show _ ≤ _; norm_num⟩
    · refine ⟨⟨?_, ?_, ?_⟩, ?_⟩
      · omega
      · omega
      · omega
      · show _ ≤ _
        omega

/-- A number is determined by its parts. -/
theorem ofParts_parts (x : Float) : ofParts (parts x) = x :=
  Float.toBits_inj.mp
    (UInt64.toBitVec_inj.mp (pack_unpack_of_valid x.toModel.valid))

theorem neg_ofParts {p : UnpackedFloat} (stored : parts (ofParts p) = p) :
    -ofParts p = ofParts p.neg := by
  show ofParts (parts (ofParts p)).neg = _
  rw [stored]

theorem parts_ofParts (p : UnpackedFloat) :
    parts (ofParts p) = unpack .binary64 (pack .binary64 p) := rfl

theorem unpack_packComponents (sign : Sign) (power : BitVec 11) (significand : BitVec 52) :
    unpack .binary64 (packComponents .binary64 sign power significand) =
      stored sign power.toNat significand.toNat := by
  rw [unpack_eq_stored, unpackSign_packComponents, Sign.ofBitVec_toBitVec,
    unpackExponent_packComponents, unpackMantissa_packComponents]

theorem parts_ofParts_of_large {sign : Sign} {m : Nat} {e : Int} {pos : 0 < m} (large : 971 < e) :
    parts (ofParts (.finite sign m e pos)) = .infinity sign := by
  have bias : (Format.binary64.exponentBias : Int) = 1023 := rfl
  rw [parts_ofParts, pack]
  dsimp only
  rw [if_pos (by rw [bias]; omega)]
  exact unpack_packComponents sign _ _

theorem parts_ofParts_of_fits {p : UnpackedFloat} (canonical : IsCanonical p) (fits : Fits p) :
    parts (ofParts p) = p := by
  cases p with
  | infinity | notANumber => cases canonical
  | zero sign => exact unpack_packComponents sign _ _
  | finite sign m e pos =>
      obtain ⟨bounded, least, full⟩ := canonical
      have fits : e ≤ 971 := fits
      have bias : (Format.binary64.exponentBias : Int) = 1023 := rfl
      have bits : Format.binary64.mantissaBits = 53 := rfl
      rw [parts_ofParts, pack]
      dsimp only
      rw [if_neg (by rw [bias]; omega), bits, bias]
      by_cases normal : 2 ^ 52 ≤ m
      · have log : m.log2 + 1 = 53 := by
          have := (Nat.le_log2 pos.ne').mpr normal
          have := (Nat.log2_lt pos.ne').mpr bounded
          omega
        rw [if_pos log, unpack_packComponents, BitVec.toNat_ofNat, BitVec.toNat_ofNat, stored,
          if_neg (by omega), if_neg (by omega)]
        exact finite_congr (by omega) (by omega)
      · have log : ¬ m.log2 + 1 = 53 := by
          have := (Nat.log2_lt pos.ne').mpr (Nat.lt_of_not_le normal)
          omega
        have small : (BitVec.ofNat 52 m).toNat = m := by
          rw [BitVec.toNat_ofNat, Nat.mod_eq_of_lt (Nat.lt_of_not_le normal)]
        rw [if_neg log, unpack_packComponents, small, stored, if_neg (by decide),
          if_pos (by decide), dif_neg pos.ne']
        exact finite_congr rfl (by omega)

/-! ## Signs -/

/-- The parts have no negative sign. -/
def PartsUnsigned : UnpackedFloat → Prop
  | .infinity sign | .zero sign | .finite sign _ _ _ => sign = .positive
  | .notANumber => True

/-- The number has no negative sign. -/
def Unsigned (x : Float) : Prop := PartsUnsigned (parts x)

theorem unsigned_unpack {spec : Format} {bits : BitVec spec.numBits}
    (sign : unpackSign bits = 0#1) :
    PartsUnsigned (unpack spec bits) := by
  unfold UnpackedFloat.unpack
  simp only [sign]
  split
  · split
    · rfl
    · trivial
  · split
    · split <;> rfl
    · rfl

/-- Packing keeps the sign. -/
theorem unpackSign_pack {spec : Format} {p : UnpackedFloat} (unsigned : PartsUnsigned p) :
    unpackSign (pack spec p) = 0#1 := by
  cases p with
  | notANumber => exact unpackSign_packComponents _ _ _
  | infinity sign | zero sign =>
      obtain rfl : sign = .positive := unsigned
      exact unpackSign_packComponents _ _ _
  | finite sign m e pos =>
      obtain rfl : sign = .positive := unsigned
      unfold UnpackedFloat.pack
      simp only
      split
      · exact unpackSign_packComponents _ _ _
      · split <;> exact unpackSign_packComponents _ _ _

theorem unsigned_ofParts {p : UnpackedFloat} (unsigned : PartsUnsigned p) : Unsigned (ofParts p) :=
  unsigned_unpack (unpackSign_pack unsigned)

end Trigger.Number
