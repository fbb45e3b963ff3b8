import UsageAudit.Proofs.ScalarOrder

/-!
# Shares in doubles

A share is computed of two counts, which are made doubles and divided. Each step rounds to a double
that is as near as any to the exact value. Doubles have their places in a row, by their bits, and of
two values the greater one is never rounded to an earlier place. So rounding does not turn the order
of shares round, as long as the counts fit in a word of the machine.
-/

namespace UsageAudit

namespace Double

open Float.Model (Format UnpackedFloat)
open Float.Model.UnpackedFloat (Accuracy ExtendedMantissa)

/-! ## Places -/

/-- Whether a mantissa has as many bits as that of a double. -/
structure IsMantissa (m : ℕ) : Prop where
  lower : 2 ^ 52 ≤ m
  upper : m < 2 ^ 53

/-- The value of a mantissa with an exponent. -/
def value (m : ℕ) (e : ℤ) : ℚ := m * 2 ^ e

/-- The place in the row of doubles. -/
def place (m : ℕ) (e : ℤ) : ℤ := (e + 1074) * 2 ^ 52 + m

/-- Whether no double is nearer to a number. Below a power of two doubles are closer together. -/
structure Near (x : ℚ) (m : ℕ) (e : ℤ) : Prop extends IsMantissa m where
  below : (m - 1 / 2) * 2 ^ e ≤ x
  least : (2 ^ 52 - 1 / 4) * 2 ^ e ≤ x
  above : x ≤ (m + 1 / 2) * 2 ^ e

variable {x y : ℚ} {m n : ℕ} {e d : ℤ}

/-- What comes before in the row has a lesser exponent, or the same one and a lesser mantissa. -/
theorem place_lt_iff (hm : IsMantissa m) (hn : IsMantissa n) :
    place m e < place n d ↔ e < d ∨ e = d ∧ m < n := by
  have hm' := hm.lower
  have hm'' := hm.upper
  have hn' := hn.lower
  have hn'' := hn.upper
  unfold place
  norm_num at hm' hm'' hn' hn'' ⊢
  omega

/-- A greater exponent at least doubles a power of two. -/
theorem two_mul_zpow_le (h : e < d) : 2 * (2 : ℚ) ^ e ≤ 2 ^ d := by
  rw [← zpow_one_add₀ two_ne_zero]
  exact zpow_le_zpow_right₀ one_le_two (by omega)

/-- The numbers near to a double are below those near to doubles with a greater exponent. -/
theorem IsMantissa.above_le (hm : IsMantissa m) (h : e < d) :
    (m + 1 / 2 : ℚ) * 2 ^ e ≤ (2 ^ 52 - 1 / 4) * 2 ^ d := by
  have hupper : (m : ℚ) ≤ 2 ^ 53 - 1 := by
    have hcast : ((m + 1 : ℕ) : ℚ) ≤ ((2 ^ 53 : ℕ) : ℚ) := Nat.cast_le.mpr hm.upper
    push_cast at hcast
    linarith
  have hpow : (0 : ℚ) < 2 ^ e := zpow_pos two_pos e
  calc (m + 1 / 2 : ℚ) * 2 ^ e
    _ ≤ (2 ^ 53 - 1 + 1 / 2) * 2 ^ e := by gcongr
    _ = (2 ^ 52 - 1 / 4) * (2 * 2 ^ e) := by ring
    _ ≤ (2 ^ 52 - 1 / 4) * 2 ^ d := mul_le_mul_of_nonneg_left (two_mul_zpow_le h) (by norm_num)

/-- A number is not rounded to a place behind that of a greater one. -/
theorem Near.le_of_place_lt (hx : Near x m e) (hy : Near y n d) (h : place m e < place n d) :
    x ≤ y := by
  rcases (place_lt_iff hx.toIsMantissa hy.toIsMantissa).mp h with hexponent | ⟨rfl, hmantissa⟩
  · exact (hx.above.trans (hx.above_le hexponent)).trans hy.least
  · have hcast : (m : ℚ) + 1 ≤ n := by exact_mod_cast hmantissa
    have hpow : (0 : ℚ) < 2 ^ e := zpow_pos two_pos e
    calc x
      _ ≤ (m + 1 / 2) * 2 ^ e := hx.above
      _ ≤ (n - 1 / 2) * 2 ^ e := by gcongr; linarith
      _ ≤ y := hy.below

/-- A number that is rounded to a place before that of a double is less than the double. -/
theorem Near.lt_value (hx : Near x m e) (hn : IsMantissa n) (h : place m e < place n d) :
    x < value n d := by
  have hpow (e : ℤ) : (0 : ℚ) < 2 ^ e := zpow_pos two_pos e
  rcases (place_lt_iff hx.toIsMantissa hn).mp h with hexponent | ⟨rfl, hmantissa⟩
  · have hlower : (2 : ℚ) ^ 52 ≤ n := by exact_mod_cast hn.lower
    calc x
      _ ≤ (2 ^ 52 - 1 / 4) * 2 ^ d := hx.above.trans (hx.above_le hexponent)
      _ < n * 2 ^ d := mul_lt_mul_of_pos_right (by linarith) (hpow d)
  · have hcast : (m : ℚ) + 1 ≤ n := by exact_mod_cast hmantissa
    calc x
      _ ≤ (m + 1 / 2) * 2 ^ e := hx.above
      _ < n * 2 ^ e := mul_lt_mul_of_pos_right (by linarith) (hpow e)

/-- A number that is rounded to a place behind that of a double is greater than the double. -/
theorem Near.value_lt (hx : Near x m e) (hn : IsMantissa n) (h : place n d < place m e) :
    value n d < x := by
  have hpow (e : ℤ) : (0 : ℚ) < 2 ^ e := zpow_pos two_pos e
  rcases (place_lt_iff hn hx.toIsMantissa).mp h with hexponent | ⟨rfl, hmantissa⟩
  · calc (n : ℚ) * 2 ^ d
      _ < (n + 1 / 2) * 2 ^ d := mul_lt_mul_of_pos_right (by linarith) (hpow d)
      _ ≤ (2 ^ 52 - 1 / 4) * 2 ^ e := hn.above_le hexponent
      _ ≤ x := hx.least
  · have hcast : (n : ℚ) + 1 ≤ m := by exact_mod_cast hmantissa
    calc (n : ℚ) * 2 ^ d
      _ < (m - 1 / 2) * 2 ^ d := mul_lt_mul_of_pos_right (by linarith) (hpow d)
      _ ≤ x := hx.below

/-- A double is near to its value. -/
theorem IsMantissa.near (hm : IsMantissa m) (e : ℤ) : Near (value m e) m e := by
  have hpow : (0 : ℚ) < 2 ^ e := zpow_pos two_pos e
  have hlower : (2 : ℚ) ^ 52 ≤ m := by exact_mod_cast hm.lower
  refine ⟨hm, ?_, ?_, ?_⟩ <;> unfold value <;> gcongr <;> linarith

/-- Only the place of a double is that of its value. -/
theorem Near.place_eq (hx : Near (value n d) m e) (hn : IsMantissa n) : place m e = place n d := by
  rcases lt_trichotomy (place m e) (place n d) with hlt | heq | hgt
  · exact absurd (hx.lt_value hn hlt) (lt_irrefl _)
  · exact heq
  · exact absurd (hx.value_lt hn hgt) (lt_irrefl _)

/-- At each place there is one double. -/
theorem eq_of_place_eq (hm : IsMantissa m) (hn : IsMantissa n) (h : place m e = place n d) :
    m = n ∧ e = d := by
  have hlt := place_lt_iff (e := e) (d := d) hm hn
  have hgt := place_lt_iff (e := d) (d := e) hn hm
  rw [h] at hlt hgt
  simp only [lt_self_iff_false, false_iff, not_or, not_and] at hlt hgt
  obtain ⟨hle, hmantissa⟩ := hlt
  obtain ⟨hge, hmantissa'⟩ := hgt
  have hexponent : e = d := by omega
  exact ⟨by have := hmantissa hexponent; have := hmantissa' hexponent.symm; omega, hexponent⟩

/-- What is at no later place has no greater value. -/
theorem value_le_value (hm : IsMantissa m) (hn : IsMantissa n) (h : place m e ≤ place n d) :
    value m e ≤ value n d := by
  rcases h.lt_or_eq with hlt | heq
  · exact ((hm.near e).lt_value hn hlt).le
  · obtain ⟨rfl, rfl⟩ := eq_of_place_eq hm hn heq
    exact le_rfl

/-- A value is positive. -/
theorem IsMantissa.value_pos (hm : IsMantissa m) (e : ℤ) : 0 < value m e := by
  have hpos : 0 < m := lt_of_lt_of_le (by norm_num) hm.lower
  exact mul_pos (by exact_mod_cast hpos) (zpow_pos two_pos e)

/-! ## Rounding -/

/-- What a mantissa says of a number, with the bits that have been cut off. -/
def Tells (em : ExtendedMantissa) (y : ℚ) : Prop :=
  match em.roundBit, em.stickyBit with
  | false, false => y = em.mantissa
  | false, true => em.mantissa < y ∧ y < em.mantissa + 1 / 2
  | true, false => y = em.mantissa + 1 / 2
  | true, true => em.mantissa + 1 / 2 < y ∧ y < em.mantissa + 1

variable {em : ExtendedMantissa}

/-- One more bit is cut off. -/
theorem Tells.shiftRightOne (h : Tells em y) : Tells em.shiftRightOne (y / 2) := by
  obtain ⟨m, roundBit, stickyBit⟩ := em
  have hparts : ((m % 2 : ℕ) : ℚ) + 2 * ((m / 2 : ℕ) : ℚ) = m := by
    exact_mod_cast Nat.mod_add_div m 2
  have hbit : ((1 : ℕ) != 0) = true := rfl
  rcases Nat.mod_two_eq_zero_or_one m with hparity | hparity <;>
    rw [hparity] at hparts <;> push_cast at hparts <;>
    cases roundBit <;> cases stickyBit <;>
    simp only [Tells, ExtendedMantissa.shiftRightOne, hparity, hbit, bne_self_eq_false,
      Bool.or_false, Bool.or_true] at h ⊢ <;>
    first | linarith | exact ⟨by linarith, by linarith⟩

/-- Any number of bits are cut off. -/
theorem Tells.shiftRight (h : Tells em y) (count : ℕ) : Tells (em >>> count) (y / 2 ^ count) := by
  change Tells (count.repeat ExtendedMantissa.shiftRightOne em) _
  induction count with
  | zero => simpa [Nat.repeat] using h
  | succ count ih =>
    rw [pow_succ, ← div_div]
    exact ih.shiftRightOne

/-- The mantissa is what is left of it. -/
theorem mantissa_shiftRight (em : ExtendedMantissa) (count : ℕ) :
    (em >>> count).mantissa = em.mantissa / 2 ^ count := by
  change (count.repeat ExtendedMantissa.shiftRightOne em).mantissa = _
  induction count with
  | zero => simp [Nat.repeat]
  | succ count ih =>
    simp only [Nat.repeat, ExtendedMantissa.shiftRightOne, ih, Nat.div_div_eq_div_mul, pow_succ]

/-- The rounded mantissa is as near as any. -/
theorem Tells.rounded (h : Tells em y) :
    (em.mantissa : ℚ) ≤ y ∧ (em.roundedMantissa - 1 / 2 : ℚ) ≤ y ∧
      y ≤ em.roundedMantissa + 1 / 2 ∧ em.mantissa ≤ em.roundedMantissa ∧
      em.roundedMantissa ≤ em.mantissa + 1 := by
  obtain ⟨m, roundBit, stickyBit⟩ := em
  have hparity := Nat.mod_two_eq_zero_or_one m
  cases roundBit <;> cases stickyBit <;>
    simp only [Tells, ExtendedMantissa.roundedMantissa, ExtendedMantissa.accuracy,
      Accuracy.roundToNearestEven] at h ⊢
  · refine ⟨?_, ?_, ?_, ?_, ?_⟩ <;> first | omega | linarith
  · refine ⟨?_, ?_, ?_, ?_, ?_⟩ <;> first | omega | linarith
  · rcases hparity with hparity | hparity <;> rw [hparity] <;> push_cast <;>
      refine ⟨?_, ?_, ?_, ?_, ?_⟩ <;> first | omega | linarith
  · push_cast
    refine ⟨?_, ?_, ?_, ?_, ?_⟩ <;> first | omega | linarith

/-- The logarithm of a mantissa that has as many bits as that of a double. -/
theorem IsMantissa.log2 (hm : IsMantissa m) : m.log2 = 52 :=
  (Nat.log2_eq_iff (by have := hm.lower; omega)).mpr ⟨hm.lower, hm.upper⟩

/-- As many bits are cut off as there are too many. -/
theorem shiftToTargetExponent_eq (hm : 2 ^ 52 ≤ m) (he : -1074 ≤ e) (accuracy : Accuracy) :
    UnpackedFloat.shiftToTargetExponent Format.binary64 m e accuracy =
      (ExtendedMantissa.ofMantissaAndAccuracy m accuracy >>> (m.log2 - 52),
        e + (m.log2 - 52 : ℕ)) := by
  have hlog : 52 ≤ m.log2 := (Nat.le_log2 (by omega)).mpr hm
  have htarget : (Format.binary64.targetExponent (Float.Model.totalExponent m e) - e).toNat =
      m.log2 - 52 := by
    simp only [Format.targetExponent, Float.Model.totalExponent, Format.mantissaBits,
      Format.minExponent]
    norm_num
    omega
  rw [UnpackedFloat.shiftToTargetExponent, UnpackedFloat.shiftToExponent, htarget]

/-- What is left has as many bits as the mantissa of a double. -/
theorem isMantissa_shiftRight (hm : 2 ^ 52 ≤ m) : IsMantissa (m / 2 ^ (m.log2 - 52)) := by
  have hsome : m ≠ 0 := by omega
  have hlog : 52 ≤ m.log2 := (Nat.le_log2 hsome).mpr hm
  constructor
  · rw [Nat.le_div_iff_mul_le (Nat.two_pow_pos _), ← Nat.pow_add, Nat.add_sub_cancel' hlog]
    exact Nat.log2_self_le hsome
  · rw [Nat.div_lt_iff_lt_mul (Nat.two_pow_pos _), ← Nat.pow_add]
    refine Nat.lt_log2_self.trans_le (Nat.pow_le_pow_right two_pos ?_)
    omega

/-- A mantissa that has as many bits as that of a double is not shifted. -/
theorem IsMantissa.shiftToTargetExponent (hm : IsMantissa m) (he : -1074 ≤ e) :
    UnpackedFloat.shiftToTargetExponent Format.binary64 m e .exact = (⟨m, false, false⟩, e) := by
  rw [shiftToTargetExponent_eq hm.lower he, hm.log2]
  simp only [Nat.sub_self, Nat.cast_zero, add_zero]
  rfl

/-- A mantissa that was rounded to a power of two is shifted once more. -/
theorem shiftToTargetExponent_two_pow (he : -1074 ≤ e) :
    UnpackedFloat.shiftToTargetExponent Format.binary64 (2 ^ 53) e .exact =
      (⟨2 ^ 52, false, false⟩, e + 1) := by
  rw [shiftToTargetExponent_eq (by norm_num) he, Nat.log2_two_pow]
  rfl

/-- The rounded mantissa is near to what is told if it has no more bits than before. -/
theorem Tells.near (h : Tells em (x / 2 ^ e)) (hm : IsMantissa em.mantissa)
    (hfits : em.roundedMantissa < 2 ^ 53) : Near x em.roundedMantissa e := by
  have hpow : (0 : ℚ) < 2 ^ e := zpow_pos two_pos e
  obtain ⟨hfloor, hbelow, habove, hle, -⟩ := h.rounded
  rw [le_div_iff₀ hpow] at hfloor hbelow
  rw [div_le_iff₀ hpow] at habove
  have hlower : (2 : ℚ) ^ 52 ≤ em.mantissa := by exact_mod_cast hm.lower
  refine ⟨⟨hm.lower.trans hle, hfits⟩, hbelow, le_trans ?_ hfloor, habove⟩
  gcongr
  linarith

/-- Otherwise half of it is near, with the next exponent. -/
theorem Tells.near_two_pow (h : Tells em (x / 2 ^ e)) (hfull : em.roundedMantissa = 2 ^ 53) :
    Near x (2 ^ 52) (e + 1) := by
  have hpow : (0 : ℚ) < 2 ^ e := zpow_pos two_pos e
  obtain ⟨-, hbelow, habove, -, -⟩ := h.rounded
  rw [hfull, le_div_iff₀ hpow] at hbelow
  rw [hfull, div_le_iff₀ hpow] at habove
  push_cast at hbelow habove
  refine ⟨⟨le_rfl, by norm_num⟩, ?_, ?_, ?_⟩ <;>
    rw [zpow_add_one₀ two_ne_zero] <;> push_cast <;> nlinarith

/-- A number that is told by enough bits is rounded to a double that is near to it. -/
theorem exists_near_of_round (hm : 2 ^ 52 ≤ m) (he : -1074 ≤ e) {accuracy : Accuracy}
    (h : Tells (.ofMantissaAndAccuracy m accuracy) (x / 2 ^ e)) :
    ∃ n d hpos, UnpackedFloat.roundWithAccuracy Format.binary64 .positive m e accuracy =
      .finite .positive n d hpos ∧ Near x n d := by
  have hmantissa := isMantissa_shiftRight hm
  have hfirst := shiftToTargetExponent_eq hm he accuracy
  generalize m.log2 - 52 = count at hmantissa hfirst
  have hcut : (ExtendedMantissa.ofMantissaAndAccuracy m accuracy >>> count).mantissa =
      m / 2 ^ count := by
    rw [mantissa_shiftRight]
    rcases accuracy with _ | _ | _ | _ <;> rfl
  have htells := h.shiftRight count
  rw [div_div, ← zpow_natCast, ← zpow_add₀ two_ne_zero] at htells
  generalize ExtendedMantissa.ofMantissaAndAccuracy m accuracy >>> count = em at *
  rw [← hcut] at hmantissa
  have hexponent : -1074 ≤ e + count := by omega
  obtain ⟨-, -, -, hle, hge⟩ := htells.rounded
  unfold UnpackedFloat.roundWithAccuracy
  rw [hfirst]
  dsimp only
  rcases Nat.lt_or_ge em.roundedMantissa (2 ^ 53) with hfits | hfull
  · have hnear := htells.near hmantissa hfits
    have hpos : em.roundedMantissa ≠ 0 := by
      have := hnear.lower
      omega
    rw [hnear.shiftToTargetExponent hexponent]
    exact ⟨_, _, Nat.pos_of_ne_zero hpos, dif_neg hpos, hnear⟩
  · have heq : em.roundedMantissa = 2 ^ 53 := by
      have := hmantissa.upper
      omega
    rw [heq, shiftToTargetExponent_two_pow hexponent]
    exact ⟨2 ^ 52, e + count + 1, by norm_num, rfl, htells.near_two_pow heq⟩

/-! ## Bits -/

/-- The bits of a sign are those of the sign. -/
theorem unpackSign_packComponents {format : Format} (sign : UnpackedFloat.Sign)
    (exponent : BitVec format.exponentBits) (mantissa : BitVec format.mantissaBitsWithoutImplicit) :
    UnpackedFloat.unpackSign (UnpackedFloat.packComponents format sign exponent mantissa) =
      sign.toBitVec := by
  apply BitVec.eq_of_getLsbD_eq
  intro i hi
  obtain rfl : i = 0 := by omega
  simp [UnpackedFloat.unpackSign, UnpackedFloat.packComponents, BitVec.getLsbD_append,
    BitVec.getElem_append]

/-- Bits that are put together are the sum of both. -/
theorem toNat_append {width width' : ℕ} (high : BitVec width) (low : BitVec width') :
    (high ++ low).toNat = high.toNat * 2 ^ width' + low.toNat := by
  rw [BitVec.toNat_append, ← Nat.shiftLeft_add_eq_or_of_lt low.isLt, Nat.shiftLeft_eq]

section Packed

variable (hm : IsMantissa m) (hleast : -1074 ≤ e) (hmost : e ≤ 971) (hpos : 0 < m)
include hm hleast hmost

/-- How a positive double is packed. -/
theorem pack_eq : UnpackedFloat.pack Format.binary64 (.finite .positive m e hpos) =
    UnpackedFloat.packComponents Format.binary64 .positive
      (BitVec.ofNat 11 (e + 1075).toNat) (BitVec.ofNat 52 m) := by
  have hbias : (e + (Format.binary64.exponentBias : ℕ) +
      (Format.binary64.mantissaBitsWithoutImplicit : ℕ)).toNat = (e + 1075).toNat := by
    simp only [Format.exponentBias]
    norm_num
    omega
  simp only [UnpackedFloat.pack, hbias, hm.log2, Format.mantissaBits]
  rw [if_neg (by norm_num; omega)]
  rfl

/-- The bits of a positive double are its place. -/
theorem toBits_pack :
    ((Float.Model.pack (.finite .positive m e hpos)).toBits.toNat : ℤ) = place m e := by
  have hlower := hm.lower
  have hupper := hm.upper
  change ((UnpackedFloat.pack Format.binary64 (.finite .positive m e hpos)).toNat : ℤ) = place m e
  rw [pack_eq hm hleast hmost]
  change (((0#1 ++ BitVec.ofNat 11 (e + 1075).toNat) ++ BitVec.ofNat 52 m).toNat : ℤ) = place m e
  rw [toNat_append, toNat_append]
  simp only [BitVec.toNat_ofNat, place]
  norm_num at hlower hupper ⊢
  omega

/-- What is packed can be unpacked. -/
theorem unpack_pack : (Float.Model.pack (.finite .positive m e hpos)).unpack =
    .finite .positive m e hpos := by
  have hlower := hm.lower
  have hupper := hm.upper
  have hexponent : (BitVec.ofNat 11 (e + 1075).toNat).toNat = (e + 1075).toNat := by
    rw [BitVec.toNat_ofNat, Nat.mod_eq_of_lt (by norm_num; omega)]
  have hmantissa : (1#1 ++ BitVec.ofNat 52 m).toNat = m := by
    rw [toNat_append, BitVec.toNat_ofNat, BitVec.toNat_ofNat]
    norm_num at hlower hupper ⊢
    omega
  have hinfinite : BitVec.ofNat 11 (e + 1075).toNat ≠ -1#11 := by
    intro h
    have hbits := congrArg BitVec.toNat h
    rw [hexponent] at hbits
    norm_num at hbits
    omega
  have hzero : BitVec.ofNat 11 (e + 1075).toNat ≠ 0#11 := by
    intro h
    have hbits := congrArg BitVec.toNat h
    rw [hexponent] at hbits
    norm_num at hbits
    omega
  change UnpackedFloat.unpack Format.binary64 (UnpackedFloat.pack Format.binary64 _) = _
  rw [pack_eq hm hleast hmost]
  simp only [UnpackedFloat.unpack, UnpackedFloat.unpackMantissa_packComponents,
    UnpackedFloat.unpackExponent_packComponents, unpackSign_packComponents, hinfinite, hzero,
    if_false, hexponent, hmantissa]
  congr 1
  simp only [Format.exponentBias]
  norm_num
  omega

end Packed

/-- Whether a double is the one at a place. -/
structure IsAt (x : Float) (m : ℕ) (e : ℤ) : Prop extends IsMantissa m where
  least : -1074 ≤ e
  most : e ≤ 971
  unpacked : ∃ hpos, x.toModel.unpack = .finite .positive m e hpos
  bits : (x.toBits.toNat : ℤ) = place m e

/-- A positive double is at its place. -/
theorem isAt_pack (hm : IsMantissa m) (hleast : -1074 ≤ e) (hmost : e ≤ 971) (hpos : 0 < m) :
    IsAt (.ofModel (.pack (.finite .positive m e hpos))) m e :=
  ⟨hm, hleast, hmost, ⟨hpos, unpack_pack hm hleast hmost hpos⟩, toBits_pack hm hleast hmost hpos⟩

section Compared

variable {a b : Float}

/-- Positive doubles are ordered by their bits. -/
theorem IsAt.orderKey (ha : IsAt a m e) : Scalar.orderKey a = place m e := by
  have hbits := ha.bits
  have hupper := ha.upper
  have hmost := ha.most
  have hsign : a.toBits.toNat < Scalar.signBit := by
    unfold place at hbits
    norm_num [Scalar.signBit] at hbits hupper ⊢
    omega
  simp only [Scalar.orderKey, if_pos hsign, hbits]

/-- At each place there is one double. -/
theorem IsAt.unique (ha : IsAt a m e) (hb : IsAt b m e) : a = b :=
  orderKey_injective (ha.orderKey.trans hb.orderKey.symm)

/-- Positive doubles are compared by their places. -/
theorem IsAt.notAbove (ha : IsAt a m e) (hb : IsAt b n d) :
    Scalar.notAbove a b = decide (place m e ≤ place n d) := by
  simp only [Scalar.notAbove, ha.orderKey, hb.orderKey]

/-- Positive doubles are compared by their places. -/
theorem IsAt.atMost (ha : IsAt a m e) (hb : IsAt b n d) :
    Scalar.atMost a b = decide (place m e ≤ place n d) := by
  obtain ⟨hpos, hunpacked⟩ := ha.unpacked
  obtain ⟨hpos', hunpacked'⟩ := hb.unpacked
  have hlt := place_lt_iff (e := d) (d := e) hb.toIsMantissa ha.toIsMantissa
  rw [atMost_eq, order?, hunpacked, hunpacked', Bool.eq_iff_iff, decide_eq_true_iff, ← not_lt, hlt]
  change ((compare e d).then (compare m n)).isLE = true ↔ _
  rw [Ordering.isLE_then_iff_or, Int.compare_eq_lt, Int.compare_eq_eq, Nat.isLE_compare]
  omega

/-- A positive double is greater than zero. -/
theorem IsAt.compare_zero (ha : IsAt a m e) :
    Scalar.less 0.0 a = true ∧ Scalar.atMost 0.0 a = true ∧ Scalar.atMost a 0.0 = false := by
  obtain ⟨hpos, hunpacked⟩ := ha.unpacked
  have hzero : (0.0 : Float).toModel.unpack = .zero .positive := rfl
  rw [less_eq, atMost_eq, atMost_eq, order?, order?, hunpacked, hzero]
  exact ⟨rfl, rfl, rfl⟩

/-- A positive double comes after zero. -/
theorem IsAt.notAbove_zero (ha : IsAt a m e) :
    Scalar.notAbove 0.0 a = true ∧ Scalar.notAbove a 0.0 = false := by
  have hlower := ha.lower
  have hleast := ha.least
  have hzero : Scalar.orderKey 0.0 = 0 := rfl
  have hplace : 0 < place m e := by
    unfold place
    norm_num at hlower ⊢
    omega
  simp only [Scalar.notAbove, ha.orderKey, hzero, decide_eq_true_eq, decide_eq_false_iff_not]
  exact ⟨hplace.le, hplace.not_ge⟩

end Compared

/-! ## Counts -/

/-- What is known exactly is rounded to a double that is near to it. -/
theorem exists_near_of_exact (hm : 2 ^ 52 ≤ m) (he : -1074 ≤ e) :
    ∃ n d hpos, UnpackedFloat.roundWithAccuracy Format.binary64 .positive m e .exact =
      .finite .positive n d hpos ∧ Near (value m e) n d := by
  have hpow : (2 : ℚ) ^ e ≠ 0 := (zpow_pos two_pos e).ne'
  exact exists_near_of_round hm he (mul_div_cancel_right₀ _ hpow)

/-- The value of a double is rounded to the double. -/
theorem IsMantissa.round (hm : IsMantissa m) (hn : 2 ^ 52 ≤ n) (hd : -1074 ≤ d)
    (h : value n d = value m e) :
    ∃ hpos, UnpackedFloat.roundWithAccuracy Format.binary64 .positive n d .exact =
      .finite .positive m e hpos := by
  obtain ⟨m', e', hpos, hround, hnear⟩ := exists_near_of_exact hn hd
  rw [h] at hnear
  obtain ⟨rfl, rfl⟩ := eq_of_place_eq hnear.toIsMantissa hm (hnear.place_eq hm)
  exact ⟨hpos, hround⟩

/-- A power of two is the least of the values with its exponent. -/
theorem value_two_pow (e : ℤ) : value (2 ^ 52) (e - 52) = 2 ^ e := by
  have hcast : ((2 ^ 52 : ℕ) : ℚ) = 2 ^ (52 : ℤ) := by norm_num
  rw [value, hcast, ← zpow_add₀ two_ne_zero, add_sub_cancel]

/-- The exponent of a number that is rounded lies between those of powers of two. -/
theorem Near.exponent_between (hx : Near x m e) (hlow : 2 ^ d ≤ x) {c : ℤ} (hhigh : x ≤ 2 ^ c) :
    d - 52 ≤ e ∧ e ≤ c - 52 := by
  have hpower : IsMantissa (2 ^ 52) := ⟨le_rfl, by norm_num⟩
  have hfirst : ¬place m e < place (2 ^ 52) (d - 52) := by
    intro h
    have hless := hx.lt_value hpower h
    rw [value_two_pow] at hless
    exact absurd hlow hless.not_ge
  have hlast : ¬place (2 ^ 52) (c - 52) < place m e := by
    intro h
    have hless := hx.value_lt hpower h
    rw [value_two_pow] at hless
    exact absurd hhigh hless.not_ge
  rw [place_lt_iff hx.toIsMantissa hpower] at hfirst
  rw [place_lt_iff hpower hx.toIsMantissa] at hlast
  omega

/-- A count of few bits is shifted until it has all the bits of a mantissa. -/
theorem isMantissa_shiftLeft (hn : 0 < n) (hfew : n < 2 ^ 53) :
    IsMantissa (n <<< (52 - n.log2)) := by
  have hlog : n.log2 < 53 := (Nat.log2_lt hn.ne').mpr hfew
  rw [Nat.shiftLeft_eq]
  constructor
  · calc 2 ^ 52
      _ = 2 ^ n.log2 * 2 ^ (52 - n.log2) := by rw [← Nat.pow_add]; congr 1; omega
      _ ≤ n * 2 ^ (52 - n.log2) := Nat.mul_le_mul_right _ (Nat.log2_self_le hn.ne')
  · calc n * 2 ^ (52 - n.log2)
      _ < 2 ^ (n.log2 + 1) * 2 ^ (52 - n.log2) :=
        Nat.mul_lt_mul_of_pos_right Nat.lt_log2_self (Nat.two_pow_pos _)
      _ = 2 ^ 53 := by rw [← Nat.pow_add]; congr 1; omega

/-- Shifting leaves the value as it is. -/
theorem value_shiftLeft (n count : ℕ) : value (n <<< count) (-count) = n := by
  unfold value
  rw [Nat.shiftLeft_eq, zpow_neg, zpow_natCast]
  push_cast
  field_simp

/-- A count of few bits is a double without rounding. -/
theorem ofNat_eq (hn : 0 < n) (hfew : n < 2 ^ 53) :
    ∃ hpos, UnpackedFloat.ofNat Format.binary64 n =
      .finite .positive (n <<< (52 - n.log2)) (-(52 - n.log2 : ℕ)) hpos := by
  have hmantissa := isMantissa_shiftLeft hn hfew
  have hlog : n.log2 < 53 := (Nat.log2_lt hn.ne').mpr hfew
  have hshift : (-Format.binary64.targetExponent (Float.Model.totalExponent n 0)).toNat =
      52 - n.log2 := by
    simp only [Format.targetExponent, Float.Model.totalExponent, Format.mantissaBits,
      Format.minExponent]
    norm_num
    omega
  obtain ⟨hpos, hround⟩ := hmantissa.round (e := -(52 - n.log2 : ℕ)) (d := -(52 - n.log2 : ℕ))
    hmantissa.lower (by omega) rfl
  refine ⟨hpos, ?_⟩
  simp only [UnpackedFloat.ofNat, UnpackedFloat.ofInt, UnpackedFloat.normalize,
    Int.compare_eq_gt.mpr (Int.natCast_pos.mpr hn), Int.toNat_natCast, UnpackedFloat.round,
    UnpackedFloat.decreaseExponent, zero_sub, hshift]
  exact hround

/-- A word of few bits is made a double without rounding. -/
theorem unpack_toFloat (hn : 0 < n) (hfew : n < 2 ^ 53) :
    ∃ hpos, n.toUInt64.toFloat.toModel.unpack =
      .finite .positive (n <<< (52 - n.log2)) (-(52 - n.log2 : ℕ)) hpos := by
  obtain ⟨hpos, hcount⟩ := ofNat_eq hn hfew
  have hword : n.toUInt64.toNat = n := UInt64.toNat_ofNat_of_lt' (by norm_num; omega)
  refine ⟨hpos, ?_⟩
  change (Float.Model.pack (UnpackedFloat.ofNat Format.binary64 n.toUInt64.toNat)).unpack = _
  rw [hword, hcount]
  exact unpack_pack (isMantissa_shiftLeft hn hfew) (by omega) (by omega) hpos

/-- One, as the double by which such a count is multiplied. -/
theorem unpack_one : ∃ hpos, (Float.ofBits 0x3FF0000000000000).toModel.unpack =
    .finite .positive (2 ^ 52) (-52) hpos :=
  ⟨by norm_num, rfl⟩

/-- Multiplied by one, a double is rounded to itself. -/
theorem IsMantissa.round_mul_one (hm : IsMantissa m) (he : -1000 ≤ e) :
    ∃ hpos, UnpackedFloat.roundWithAccuracy Format.binary64 .positive (m * 2 ^ 52) (e + -52) .exact =
      .finite .positive m e hpos := by
  refine hm.round (hm.lower.trans (Nat.le_mul_of_pos_right _ (by norm_num))) (by omega) ?_
  unfold value
  push_cast
  rw [zpow_add₀ two_ne_zero]
  norm_num
  ring

/-- A count of few bits is the double of its value. -/
theorem exists_pack_of_few (hn : 0 < n) (hfew : n < 2 ^ 53) :
    ∃ m e hpos, Float.ofNat n = .ofModel (.pack (.finite .positive m e hpos)) ∧ Near n m e := by
  have hmantissa := isMantissa_shiftLeft hn hfew
  obtain ⟨hpos, hdouble⟩ := unpack_toFloat hn hfew
  obtain ⟨hpos', hone⟩ := unpack_one
  obtain ⟨hpos'', hround⟩ := hmantissa.round_mul_one (e := -(52 - n.log2 : ℕ)) (by omega)
  have hproduct : Float.ofNat n = .ofModel (.pack (UnpackedFloat.mul Format.binary64
      n.toUInt64.toFloat.toModel.unpack (Float.ofBits 0x3FF0000000000000).toModel.unpack)) := by
    simp only [Float.ofNat, OfScientific.ofScientific, Float.ofScientific]
    rw [dif_pos ⟨hfew, by norm_num⟩]
    rfl
  have hnear := hmantissa.near (-(52 - n.log2 : ℕ))
  rw [value_shiftLeft] at hnear
  refine ⟨n <<< (52 - n.log2), -(52 - n.log2 : ℕ), hpos'', ?_, hnear⟩
  rw [hproduct, hdouble, hone]
  exact congrArg (fun double => Float.ofModel (.pack double)) hround

/-- A count of many bits is rounded to a double that is near to it. -/
theorem exists_pack_of_many (hmany : 2 ^ 53 ≤ n) :
    ∃ m e hpos, Float.ofNat n = .ofModel (.pack (.finite .positive m e hpos)) ∧ Near n m e := by
  have hpos : n ≠ 0 := by omega
  have hproduct : Float.ofNat n = .ofModel (.pack (UnpackedFloat.roundWithAccuracy Format.binary64
      .positive (n <<< 53 * 10 ^ 0) (-53 + 0) .exact)) := by
    simp only [Float.ofNat, OfScientific.ofScientific, Float.ofScientific]
    rw [dif_neg (by omega)]
    simp only [Float.Model.ofScientific, UnpackedFloat.ofScientific]
    rw [dif_neg hpos, if_neg (by decide), if_neg (by simp), if_pos (by decide)]
    rfl
  have hvalue : value (n <<< 53 * 10 ^ 0) (-53 + 0) = n := by
    rw [pow_zero, mul_one, add_zero]
    exact value_shiftLeft n 53
  obtain ⟨m, e, hpos', hround, hnear⟩ := exists_near_of_exact (m := n <<< 53 * 10 ^ 0)
    (e := -53 + 0) (by rw [Nat.shiftLeft_eq]; omega) (by norm_num)
  rw [hvalue] at hnear
  exact ⟨m, e, hpos', by rw [hproduct, hround], hnear⟩

/-- Whether a count is rounded to the double at a place. -/
structure IsCount (count m : ℕ) (e : ℤ) : Prop extends IsAt (Float.ofNat count) m e where
  near : Near count m e
  lowest : -52 ≤ e
  highest : e ≤ 12

/-- A count that fits in a word of the machine is rounded to a double that is near to it. -/
theorem exists_isCount (hn : 0 < n) (hword : n < 2 ^ 64) : ∃ m e, IsCount n m e := by
  obtain ⟨m, e, hpos, hpack, hnear⟩ : ∃ m e hpos,
      Float.ofNat n = .ofModel (.pack (.finite .positive m e hpos)) ∧ Near n m e := by
    rcases Nat.lt_or_ge n (2 ^ 53) with hfew | hmany
    · exact exists_pack_of_few hn hfew
    · exact exists_pack_of_many hmany
  have hlow : (2 : ℚ) ^ (0 : ℤ) ≤ n := by
    rw [zpow_zero]
    exact_mod_cast hn
  have hhigh : (n : ℚ) ≤ 2 ^ (64 : ℤ) := by exact_mod_cast hword.le
  have hexponent := hnear.exponent_between hlow hhigh
  refine ⟨m, e, ?_, hnear, by omega, by omega⟩
  rw [hpack]
  exact isAt_pack hnear.toIsMantissa (by omega) (by omega) hpos

/-- Counts are rounded to places in their order. -/
theorem IsCount.place_le {count count' : ℕ} (hm : IsCount count m e) (hn : IsCount count' n d)
    (h : count ≤ count') : place m e ≤ place n d := by
  rcases h.eq_or_lt with rfl | hlt
  · rw [← hm.bits, ← hn.bits]
  · by_contra hplace
    have hle := hn.near.le_of_place_lt hm.near (not_le.mp hplace)
    exact absurd (Nat.cast_le.mp hle) hlt.not_ge

/-! ## Quotients -/

/-- What remains of a division tells the quotient apart. -/
theorem tells_accuracyOfFraction (hn : 0 < n) (m : ℕ) :
    Tells (.ofMantissaAndAccuracy (m / n) (UnpackedFloat.accuracyOfFraction (m % n) n))
      ((m : ℚ) / n) := by
  have hdivisor : (0 : ℚ) < n := by exact_mod_cast hn
  have hparts : (m : ℚ) / n = (m / n : ℕ) + (m % n : ℕ) / n := by
    rw [div_eq_iff hdivisor.ne', add_mul, div_mul_cancel₀ _ hdivisor.ne']
    exact_mod_cast (Nat.div_add_mod' m n).symm
  have hrest : ((m % n : ℕ) : ℚ) / n < 1 := by
    rw [div_lt_one hdivisor]
    exact_mod_cast Nat.mod_lt m hn
  rw [hparts]
  generalize m / n = quotient
  generalize m % n = rest at hrest
  unfold UnpackedFloat.accuracyOfFraction
  split
  · rename_i hnothing
    simp [Tells, ExtendedMantissa.ofMantissaAndAccuracy, hnothing]
  · rename_i hsome
    have hpos : (0 : ℚ) < (rest : ℚ) / n :=
      div_pos (by exact_mod_cast Nat.pos_of_ne_zero hsome) hdivisor
    cases hcompare : compare (2 * rest) n with
    | lt =>
      have hcast : (2 * rest : ℚ) < n := by exact_mod_cast Nat.compare_eq_lt.mp hcompare
      have hhalf : (rest : ℚ) / n < 1 / 2 := by
        rw [div_lt_iff₀ hdivisor]
        linarith
      simp only [Tells, ExtendedMantissa.ofMantissaAndAccuracy]
      exact ⟨by linarith, by linarith⟩
    | eq =>
      have hcast : (2 * rest : ℚ) = n := by exact_mod_cast Nat.compare_eq_eq.mp hcompare
      have hhalf : (rest : ℚ) / n = 1 / 2 := by
        rw [div_eq_iff hdivisor.ne']
        linarith
      simp only [Tells, ExtendedMantissa.ofMantissaAndAccuracy, hhalf]
    | gt =>
      have hcast : (n : ℚ) < 2 * rest := by exact_mod_cast Nat.compare_eq_gt.mp hcompare
      have hhalf : 1 / 2 < (rest : ℚ) / n := by
        rw [lt_div_iff₀ hdivisor]
        linarith
      simp only [Tells, ExtendedMantissa.ofMantissaAndAccuracy]
      exact ⟨by linarith, by linarith⟩

/-- A quotient is computed with as many bits as are needed. -/
theorem divCore_eq (hm : IsMantissa m) (hn : IsMantissa n) (h : -1021 ≤ e - d) :
    UnpackedFloat.divCore Format.binary64 m e n d =
      ((m * 2 ^ 53) / n, e - d - 53, UnpackedFloat.accuracyOfFraction ((m * 2 ^ 53) % n) n) := by
  have htarget : min (e - d) (Format.binary64.targetExponent
      (Float.Model.totalExponent m e - Float.Model.totalExponent n d)) = e - d - 53 := by
    simp only [Format.targetExponent, Float.Model.totalExponent, Format.mantissaBits,
      Format.minExponent, hm.log2, hn.log2]
    norm_num
    omega
  have hshift : (e - d - (e - d - 53)).toNat = 53 := by omega
  simp only [UnpackedFloat.divCore, htarget, hshift, Nat.shiftLeft_eq]

variable {a b : Float}

/-- The quotient of two values lies about the quotient of the powers of two. -/
theorem value_div_between (hm : IsMantissa m) (hn : IsMantissa n) (e d : ℤ) :
    2 ^ (e - d - 1) ≤ value m e / value n d ∧ value m e / value n d ≤ 2 ^ (e - d + 1) := by
  have hpow (e : ℤ) : (0 : ℚ) < 2 ^ e := zpow_pos two_pos e
  have hlower (n : ℕ) (hn : IsMantissa n) : (2 : ℚ) ^ 52 ≤ n := by exact_mod_cast hn.lower
  have hupper (n : ℕ) (hn : IsMantissa n) : (n : ℚ) ≤ 2 ^ 53 := by exact_mod_cast hn.upper.le
  have hdivisor := hn.value_pos d
  have hpower : (2 : ℚ) ^ e = 2 ^ (e - d) * 2 ^ d := by rw [← zpow_add₀ two_ne_zero, sub_add_cancel]
  rw [le_div_iff₀ hdivisor, div_le_iff₀ hdivisor, zpow_sub_one₀ two_ne_zero,
    zpow_add_one₀ two_ne_zero]
  unfold value
  have hproduct := mul_pos (hpow (e - d)) (hpow d)
  have hm' := hlower m hm
  have hm'' := hupper m hm
  have hn' := hlower n hn
  have hn'' := hupper n hn
  rw [hpower]
  constructor
  · calc (2 : ℚ) ^ (e - d) * 2⁻¹ * (n * 2 ^ d)
      _ = n / 2 * (2 ^ (e - d) * 2 ^ d) := by ring
      _ ≤ m * (2 ^ (e - d) * 2 ^ d) := by gcongr; linarith
  · calc (m : ℚ) * (2 ^ (e - d) * 2 ^ d)
      _ ≤ 2 * n * (2 ^ (e - d) * 2 ^ d) := by gcongr; linarith
      _ = 2 ^ (e - d) * 2 * (n * 2 ^ d) := by ring

/-- The quotient of two values is told by that of the mantissas. -/
theorem value_div_eq (hn : 0 < n) (m : ℕ) (e d : ℤ) :
    value m e / value n d / 2 ^ (e - d - 53) = ((m * 2 ^ 53 : ℕ) : ℚ) / n := by
  have hpow (e : ℤ) : (2 : ℚ) ^ e ≠ 0 := (zpow_pos two_pos e).ne'
  have hexponent := hpow e
  have hexponent' := hpow d
  have hdivisor : (n : ℚ) ≠ 0 := by exact_mod_cast hn.ne'
  unfold value
  rw [zpow_sub₀ two_ne_zero, zpow_sub₀ two_ne_zero]
  push_cast
  field_simp

/-- The quotient of two doubles is rounded to a double that is near to it. -/
theorem IsAt.exists_div (ha : IsAt a m e) (hb : IsAt b n d) (hleast : -900 ≤ e - d)
    (hmost : e - d ≤ 900) :
    ∃ k c, IsAt (a / b) k c ∧ Near (value m e / value n d) k c := by
  obtain ⟨hpos, hunpacked⟩ := ha.unpacked
  obtain ⟨hpos', hunpacked'⟩ := hb.unpacked
  have hcore := divCore_eq ha.toIsMantissa hb.toIsMantissa (e := e) (d := d) (by omega)
  have henough : 2 ^ 52 ≤ m * 2 ^ 53 / n := by
    rw [Nat.le_div_iff_mul_le hpos']
    exact Nat.mul_le_mul ha.lower hb.upper.le
  have htells := tells_accuracyOfFraction hpos' (m * 2 ^ 53)
  rw [← value_div_eq hpos' m e d] at htells
  obtain ⟨k, c, hpos'', hround, hnear⟩ := exists_near_of_round henough (by omega) htells
  have hdiv : a / b = .ofModel (.pack (.finite .positive k c hpos'')) := by
    change Float.ofModel (.pack (UnpackedFloat.div Format.binary64 a.toModel.unpack
      b.toModel.unpack)) = _
    rw [hunpacked, hunpacked', ← hround]
    simp only [UnpackedFloat.div, hcore]
    rfl
  obtain ⟨hlow, hhigh⟩ := value_div_between ha.toIsMantissa hb.toIsMantissa e d
  have hexponent := hnear.exponent_between hlow hhigh
  refine ⟨k, c, ?_, hnear⟩
  rw [hdiv]
  exact isAt_pack hnear.toIsMantissa (by omega) (by omega) hpos''

/-! ## Shares -/

/-- One is at the place of its mantissa. -/
theorem isAt_one : IsAt 1.0 (2 ^ 52) (-52) :=
  ⟨⟨le_rfl, by norm_num⟩, by norm_num, by norm_num, ⟨by norm_num, rfl⟩, rfl⟩

section Counted

variable {count part part' : ℕ} (hcount : IsCount count n d)
include hcount

/-- The share of nothing is zero. -/
theorem share_zero : Scalar.share 0 count = (0.0 : Float) := by
  obtain ⟨hpos, hunpacked⟩ := hcount.unpacked
  have hzero : (Float.ofNat 0).toModel.unpack = .zero .positive := rfl
  unfold Scalar.share
  split
  · rfl
  · change Float.ofModel (.pack (UnpackedFloat.div Format.binary64
      (Float.ofNat 0).toModel.unpack (Float.ofNat count).toModel.unpack)) = _
    rw [hzero, hunpacked]
    rfl

/-- A share is rounded to a double that is near to the quotient of both counts. -/
theorem exists_share (hpart : IsCount part m e) (hpos : 0 < count) :
    ∃ k c, IsAt (Scalar.share part count : Float) k c ∧ Near (value m e / value n d) k c := by
  have := hpart.lowest
  have := hpart.highest
  have := hcount.lowest
  have := hcount.highest
  rw [Scalar.share, if_neg hpos.ne']
  exact hpart.exists_div hcount.toIsAt (by omega) (by omega)

end Counted

section Shared

variable {count part part' : ℕ} (hword : count < 2 ^ 64)
include hword

/-- A share is zero, or it is rounded from the quotient of both counts. -/
theorem share_cases (hpart : part ≤ count) :
    part = 0 ∧ Scalar.share part count = (0.0 : Float) ∨ 0 < part ∧ ∃ m e n d k c,
      IsCount part m e ∧ IsCount count n d ∧ IsAt (Scalar.share part count : Float) k c ∧
      Near (value m e / value n d) k c := by
  rcases Nat.eq_zero_or_pos count with rfl | hsome
  · exact .inl ⟨Nat.le_zero.mp hpart, rfl⟩
  · obtain ⟨n, d, hcount⟩ := exists_isCount hsome hword
    rcases Nat.eq_zero_or_pos part with rfl | hpos
    · exact .inl ⟨rfl, share_zero hcount⟩
    · obtain ⟨m, e, hm⟩ := exists_isCount hpos (hpart.trans_lt hword)
      obtain ⟨k, c, hat, hnear⟩ := exists_share hcount hm hsome
      exact .inr ⟨hpos, m, e, n, d, k, c, hm, hcount, hat, hnear⟩

/-- The share of more things is no less. -/
theorem atMost_share (h : part ≤ part') (hpart : part' ≤ count) :
    Scalar.atMost (Scalar.share part count : Float) (Scalar.share part' count) = true := by
  rcases share_cases hword hpart with
    ⟨rfl, hzero'⟩ | ⟨-, m', e', n', d', k', c', hm', hcount', hat', hnear'⟩
  · rw [Nat.le_zero.mp h, hzero']
    rfl
  · rcases share_cases hword (h.trans hpart) with
      ⟨-, hzero⟩ | ⟨-, m, e, n, d, k, c, hm, hcount, hat, hnear⟩
    · rw [hzero, hat'.compare_zero.2.1]
    · obtain ⟨rfl, rfl⟩ := eq_of_place_eq hcount.toIsMantissa hcount'.toIsMantissa
        (hcount.bits.symm.trans hcount'.bits)
      rw [hat.atMost hat', decide_eq_true_iff]
      rcases (hm.place_le hm' h).lt_or_eq with hlt | heq
      · have hvalue := (hm.toIsMantissa.near e).lt_value hm'.toIsMantissa hlt
        have hquotient := div_lt_div_of_pos_right hvalue (hcount.value_pos d)
        by_contra hplace
        have hle := hnear'.le_of_place_lt hnear (not_le.mp hplace)
        exact absurd hle hquotient.not_ge
      · obtain ⟨rfl, rfl⟩ := eq_of_place_eq hm.toIsMantissa hm'.toIsMantissa heq
        have hsame : Scalar.share part count = (Scalar.share part' count : Float) := by
          simp only [Scalar.share, Scalar.ofCount, hm.unique hm'.toIsAt]
        rw [← hat.bits, ← hat'.bits, hsame]

end Shared

/-- Of counts that fit in a word of the machine the shares in doubles are in order. -/
theorem shares {count : ℕ} (hword : count < 2 ^ 64) : Scalar.Shares Float count where
  notAbove_eq part hpart part' hpart' := by
    rcases share_cases hword hpart with ⟨-, hzero⟩ | ⟨-, -, -, -, -, k, c, -, -, hat, -⟩ <;>
      rcases share_cases hword hpart' with ⟨-, hzero'⟩ | ⟨-, -, -, -, -, k', c', -, -, hat', -⟩
    · rw [hzero, hzero']
      rfl
    · rw [hzero, hat'.compare_zero.2.1, hat'.notAbove_zero.1]
    · rw [hzero', hat.compare_zero.2.2, hat.notAbove_zero.2]
    · rw [hat.notAbove hat', hat.atMost hat']
  mono part' hpart' part hle := atMost_share hword hle hpart'
  atMost_one part hpart := by
    rcases share_cases hword hpart with
      ⟨-, hzero⟩ | ⟨-, m, e, n, d, k, c, hm, hcount, hat, hnear⟩
    · rw [hzero]
      rfl
    · rw [hat.atMost isAt_one, decide_eq_true_iff]
      by_contra hplace
      have hone : value (2 ^ 52) (-52) = 1 := by norm_num [value]
      have hgreater := hnear.value_lt isAt_one.toIsMantissa (not_le.mp hplace)
      have hle := value_le_value hm.toIsMantissa hcount.toIsMantissa (hm.place_le hcount hpart)
      rw [hone, lt_div_iff₀ (hcount.value_pos d), one_mul] at hgreater
      exact absurd hle hgreater.not_ge
  nothing := by
    rcases share_cases hword (Nat.zero_le count) with ⟨-, hzero⟩ | ⟨hpos, -⟩
    · rw [hzero]
      rfl
    · cases hpos
  positive part hpart hpos := by
    rcases share_cases hword hpart with ⟨rfl, -⟩ | ⟨-, -, -, -, -, k, c, -, -, hat, -⟩
    · cases hpos
    · exact hat.compare_zero.1

/-- One of ten things is a tenth of them, though no double has that value. -/
example : (Scalar.share 1 10 : Float) = 0.1 := by decide +kernel

end Double

end UsageAudit
