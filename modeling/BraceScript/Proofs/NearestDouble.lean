import BraceScript.Number.Double
import Mathlib.Order.Monotone.Basic
import Mathlib.Tactic.SplitIfs

/-!
# The double nearest to an integer

A number of a format has `fractionBits + 1` significant bits. `Format.nearest n` is the natural
number with so many bits that is nearest to `n`, the even one of two equally near: `n` itself as
long as it fits, and a multiple of `Format.gap n` beyond that. It never goes down where `n` goes up,
and it commutes with powers of two, so that it is the same in units as in integers.

The code that `Format.encode` gives stands for this number (`Format.units_encode`), and codes have
the order of the magnitudes they stand for (`Format.strictMono_units`). So the order of the doubles
that integers turn into is the order of the rounded integers (`Double.lt_ofInt64`).
-/

namespace BraceScript

theorem twoTo_pos (n : Nat) : 0 < twoTo n :=
  Nat.two_pow_pos n

theorem twoTo_add (m n : Nat) : twoTo (m + n) = twoTo m * twoTo n :=
  Nat.pow_add 2 m n

theorem twoTo_succ (n : Nat) : twoTo (n + 1) = 2 * twoTo n :=
  Nat.pow_succ'

theorem twoTo_le_twoTo {m n : Nat} (h : m ≤ n) : twoTo m ≤ twoTo n :=
  Nat.pow_le_pow_right Nat.two_pos h

theorem twoTo_dvd_twoTo {m n : Nat} (h : m ≤ n) : twoTo m ∣ twoTo n :=
  Nat.pow_dvd_pow 2 h

theorem twoTo_log2_le {n : Nat} (hn : n ≠ 0) : twoTo n.log2 ≤ n :=
  Nat.log2_self_le hn

theorem lt_twoTo_log2 (n : Nat) : n < twoTo (n.log2 + 1) :=
  Nat.lt_log2_self

theorem log2_mul_twoTo {n : Nat} (hn : n ≠ 0) (k : Nat) : (n * twoTo k).log2 = n.log2 + k := by
  have hpos := twoTo_pos k
  refine (Nat.log2_eq_iff (Nat.mul_ne_zero hn (by omega))).2 ⟨?_, ?_⟩
  · show twoTo (n.log2 + k) ≤ n * twoTo k
    rw [twoTo_add]
    exact Nat.mul_le_mul_right _ (twoTo_log2_le hn)
  · show n * twoTo k < twoTo (n.log2 + k + 1)
    rw [Nat.add_right_comm, twoTo_add]
    exact Nat.mul_lt_mul_of_pos_right (lt_twoTo_log2 n) hpos

/-! ### Rounding a quotient -/

section
variable {n m d x k : Nat}

theorem nearestEven_mul_self (hd : 0 < d) (x : Nat) : nearestEven (x * d) d = x := by
  simp [nearestEven, hd]

theorem nearestEven_mono (h : n ≤ m) : nearestEven n d ≤ nearestEven m d := by
  have hq : n / d ≤ m / d := Nat.div_le_div_right h
  rcases Nat.lt_or_eq_of_le hq with hlt | heq
  · have hn : nearestEven n d ≤ n / d + 1 := by
      simp only [nearestEven]
      split_ifs <;> omega
    have hm : m / d ≤ nearestEven m d := by
      simp only [nearestEven]
      split_ifs <;> omega
    omega
  · -- of two numbers with one quotient the greater has the greater remainder
    have hr : n % d ≤ m % d := by
      have hn := Nat.div_add_mod n d
      have hm := Nat.div_add_mod m d
      rw [heq] at hn
      omega
    simp only [nearestEven, heq]
    split_ifs <;> omega

theorem nearestEven_mul_right (hk : 0 < k) : nearestEven (n * k) (d * k) = nearestEven n d := by
  have hlow : 2 * (n % d * k) < d * k ↔ 2 * (n % d) < d := by
    rw [← Nat.mul_assoc]
    exact Nat.mul_lt_mul_right hk
  have hhigh : d * k < 2 * (n % d * k) ↔ d < 2 * (n % d) := by
    rw [← Nat.mul_assoc]
    exact Nat.mul_lt_mul_right hk
  simp only [nearestEven, Nat.mul_div_mul_right n d hk, Nat.mul_mod_mul_right, hlow, hhigh]

theorem le_nearestEven (hd : 0 < d) (h : x * d ≤ n) : x ≤ nearestEven n d :=
  nearestEven_mul_self hd x ▸ nearestEven_mono h

theorem nearestEven_le (hd : 0 < d) (h : n ≤ x * d) : nearestEven n d ≤ x :=
  nearestEven_mul_self hd x ▸ nearestEven_mono h

end

namespace Format
variable (f : Format)

/-! ### Codes and magnitudes -/

theorem units_parts_of_lt {s q : Nat} (hq : q < 2 * twoTo f.fractionBits)
    (hs : s = 0 ∨ twoTo f.fractionBits ≤ q) :
    f.units (s * twoTo f.fractionBits + q) = q * twoTo s := by
  have hpos := twoTo_pos f.fractionBits
  have hscale : (s * twoTo f.fractionBits + q) / twoTo f.fractionBits - 1 = s := by
    rw [Nat.mul_comm, Nat.mul_add_div hpos]
    rcases Nat.lt_or_ge q (twoTo f.fractionBits) with hsmall | hlarge
    · rw [Nat.div_eq_of_lt hsmall]
      omega
    · rw [Nat.div_eq_of_lt_le (m := q) (k := 1)] <;> omega
  simp [units, significand, shift, hscale]

/-- The magnitude of a code by two parts of it. Where the second part has grown to twice the least
significand the code is one of the next scale, and the magnitude is the same. -/
theorem units_parts {s q : Nat} (hq : q ≤ 2 * twoTo f.fractionBits)
    (hs : s = 0 ∨ twoTo f.fractionBits ≤ q) :
    f.units (s * twoTo f.fractionBits + q) = q * twoTo s := by
  have hpos := twoTo_pos f.fractionBits
  rcases Nat.lt_or_eq_of_le hq with hlt | rfl
  · exact f.units_parts_of_lt hlt hs
  · have hcode : s * twoTo f.fractionBits + 2 * twoTo f.fractionBits =
        (s + 1) * twoTo f.fractionBits + twoTo f.fractionBits := by
      rw [Nat.succ_mul s]
      omega
    rw [hcode, f.units_parts_of_lt (by omega) (.inr (Nat.le_refl _)), twoTo_succ,
      Nat.mul_left_comm, Nat.mul_assoc]

theorem eq_parts (c : Nat) :
    c = f.shift c * twoTo f.fractionBits + f.significand c ∧
      f.significand c < 2 * twoTo f.fractionBits ∧
      (f.shift c = 0 ∨ twoTo f.fractionBits ≤ f.significand c) := by
  have hr := Nat.mod_lt c (twoTo_pos f.fractionBits)
  have hc := Nat.div_add_mod' c (twoTo f.fractionBits)
  simp only [significand, shift]
  generalize twoTo f.fractionBits = least at *
  cases hscale : c / least with
  | zero =>
    rw [hscale] at hc
    omega
  | succ s =>
    rw [hscale, Nat.succ_mul] at hc
    simp only [Nat.add_sub_cancel]
    omega

theorem strictMono_units : StrictMono f.units := by
  refine strictMono_nat_of_lt_succ fun c => ?_
  obtain ⟨hc, hlt, hs⟩ := f.eq_parts c
  have hnext : f.units (c + 1) = (f.significand c + 1) * twoTo (f.shift c) := by
    have hsucc := f.units_parts (q := f.significand c + 1) (s := f.shift c) (by omega) (by omega)
    rwa [← Nat.add_assoc, ← hc] at hsucc
  rw [hnext, units]
  exact Nat.mul_lt_mul_of_pos_right (Nat.lt_succ_self _) (twoTo_pos _)

theorem units_zero : f.units 0 = 0 := by
  simp [units, significand, shift]

/-! ### The nearest number -/

/-- The distance between the numbers of the format around `n`, as far as their bits go. -/
def gap (n : Nat) : Nat :=
  twoTo (n.log2 - f.fractionBits)

/-- The number with as many bits as the format has that is nearest to `n`. -/
def nearest (n : Nat) : Nat :=
  nearestEven n (f.gap n) * f.gap n

section
variable {f} {n x : Nat}

theorem gap_pos (f : Format) (n : Nat) : 0 < f.gap n :=
  twoTo_pos _

theorem nearest_of_dvd (h : f.gap n ∣ n) : f.nearest n = n := by
  have hself := nearestEven_mul_self (f.gap_pos n) (n / f.gap n)
  rw [Nat.div_mul_cancel h] at hself
  rw [nearest, hself, Nat.div_mul_cancel h]

theorem le_nearest (hx : f.gap n ∣ x) (h : x ≤ n) : x ≤ f.nearest n := by
  obtain ⟨y, rfl⟩ := hx
  rw [Nat.mul_comm] at h ⊢
  exact Nat.mul_le_mul_right _ (le_nearestEven (f.gap_pos n) h)

theorem nearest_le (hx : f.gap n ∣ x) (h : n ≤ x) : f.nearest n ≤ x := by
  obtain ⟨y, rfl⟩ := hx
  rw [Nat.mul_comm] at h ⊢
  exact Nat.mul_le_mul_right _ (nearestEven_le (f.gap_pos n) h)

theorem gap_dvd_twoTo {k : Nat} (h : n.log2 ≤ k) : f.gap n ∣ twoTo k :=
  twoTo_dvd_twoTo (Nat.le_trans (Nat.sub_le _ _) h)

theorem twoTo_le_nearest (hn : n ≠ 0) : twoTo n.log2 ≤ f.nearest n :=
  le_nearest (gap_dvd_twoTo (Nat.le_refl _)) (twoTo_log2_le hn)

theorem nearest_le_twoTo (n : Nat) : f.nearest n ≤ twoTo (n.log2 + 1) :=
  nearest_le (gap_dvd_twoTo (Nat.le_succ _)) (Nat.le_of_lt (lt_twoTo_log2 n))

theorem nearest_zero : f.nearest 0 = 0 :=
  nearest_of_dvd (Nat.dvd_zero _)

/-- What has no more bits than the format is its own nearest number. -/
theorem nearest_of_le (h : n ≤ twoTo (f.fractionBits + 1)) : f.nearest n = n := by
  refine nearest_of_dvd ?_
  rcases Nat.lt_or_eq_of_le h with hlt | rfl
  · have hlog : n.log2 - f.fractionBits = 0 := by
      by_cases hn : n = 0
      · simp [hn]
      · have := (Nat.log2_lt hn).2 hlt
        omega
    rw [gap, hlog]
    exact Nat.one_dvd n
  · refine gap_dvd_twoTo ?_
    have hpos := twoTo_pos (f.fractionBits + 1)
    exact Nat.le_of_lt_succ ((Nat.log2_lt (by omega)).2 (Nat.pow_lt_pow_succ (by decide)))

theorem monotone_nearest : Monotone f.nearest := by
  intro n m hnm
  rcases Nat.eq_zero_or_pos n with rfl | hn
  · rw [nearest_zero]
    exact Nat.zero_le _
  · have hlog : n.log2 ≤ m.log2 := by
      rw [Nat.le_log2 (by omega)]
      exact Nat.le_trans (twoTo_log2_le (by omega)) hnm
    rcases Nat.lt_or_eq_of_le hlog with hlt | heq
    · -- a power of two lies between the two
      calc f.nearest n ≤ twoTo (n.log2 + 1) := nearest_le_twoTo n
        _ ≤ twoTo m.log2 := twoTo_le_twoTo hlt
        _ ≤ f.nearest m := twoTo_le_nearest (by omega)
    · have hgap : f.gap n = f.gap m := by rw [gap, gap, heq]
      rw [nearest, nearest, hgap]
      exact Nat.mul_le_mul_right _ (nearestEven_mono hnm)

theorem nearest_mul_twoTo (n k : Nat) : f.nearest (n * twoTo k) = f.nearest n * twoTo k := by
  by_cases hn : n = 0
  · rw [hn, Nat.zero_mul, nearest_zero, Nat.zero_mul]
  rcases Nat.lt_or_ge n.log2 f.fractionBits with hlt | hge
  · have hfits : n ≤ twoTo (f.fractionBits + 1) :=
      Nat.le_trans (Nat.le_of_lt (lt_twoTo_log2 n)) (twoTo_le_twoTo (by omega))
    rw [nearest_of_le hfits]
    refine nearest_of_dvd (Nat.dvd_trans (twoTo_dvd_twoTo ?_) (Nat.dvd_mul_left _ n))
    rw [log2_mul_twoTo hn]
    omega
  · have hgap : f.gap (n * twoTo k) = f.gap n * twoTo k := by
      rw [gap, gap, log2_mul_twoTo hn, ← twoTo_add, Nat.sub_add_comm hge]
    rw [nearest, nearest, hgap, nearestEven_mul_right (twoTo_pos k), Nat.mul_assoc]

/-- The code of a natural number of units stands for the nearest number, as long as it is not beyond
the greatest finite one. -/
theorem units_encode (h : n.log2 - f.fractionBits + 3 ≤ twoTo f.exponentBits) :
    f.units (f.encode n 1) = f.nearest n := by
  have hbig : nearestEven n (f.gap n) ≤ 2 * twoTo f.fractionBits := by
    refine nearestEven_le (f.gap_pos n) (Nat.le_trans (Nat.le_of_lt (lt_twoTo_log2 n)) ?_)
    rw [← twoTo_succ, gap, ← twoTo_add]
    exact twoTo_le_twoTo (by omega)
  have hsmall : n.log2 - f.fractionBits = 0 ∨ twoTo f.fractionBits ≤ nearestEven n (f.gap n) := by
    rcases Nat.lt_or_ge f.fractionBits n.log2 with hlt | hge
    · have hn : n ≠ 0 := by
        rintro rfl
        simp at hlt
      refine .inr (le_nearestEven (f.gap_pos n) (Nat.le_trans ?_ (twoTo_log2_le hn)))
      rw [gap, ← twoTo_add]
      exact twoTo_le_twoTo (by omega)
    · exact .inl (by omega)
  have hencode : f.encode n 1 =
      (n.log2 - f.fractionBits) * twoTo f.fractionBits + nearestEven n (f.gap n) := by
    have hle : (n.log2 - f.fractionBits + 2) * twoTo f.fractionBits ≤ f.infinity :=
      Nat.mul_le_mul_right _ (by omega)
    rw [Nat.add_mul] at hle
    simp only [encode, Nat.div_one, Nat.one_mul]
    exact Nat.min_eq_right (Nat.le_trans (Nat.add_le_add_left hbig _) hle)
  rw [hencode, f.units_parts hbig hsmall]
  rfl

end
end Format

namespace Double

/-! ### The order of doubles -/

theorem key_lt_key_iff (x y : Double) : x.key < y.key ↔ x.signedUnits < y.signedUnits := by
  have hmono := Format.double.strictMono_units
  have hxy : x.units < y.units ↔ x.code < y.code := hmono.lt_iff_lt
  have hyx : y.units < x.units ↔ y.code < x.code := hmono.lt_iff_lt
  have hx : x.units = 0 ↔ x.code = 0 := by
    rw [← Format.double.units_zero]
    exact hmono.injective.eq_iff
  have hy : y.units = 0 ↔ y.code = 0 := by
    rw [← Format.double.units_zero]
    exact hmono.injective.eq_iff
  simp only [key, signedUnits]
  split_ifs <;> omega

theorem twoTo_63 : twoTo 63 = 9223372036854775808 := rfl

theorem code_ofCode (negative : Bool) {c : Nat} (hc : c < twoTo 63) :
    (ofCode negative c).code = c := by
  simp only [code, ofCode, UInt64.toNat_ofNat', twoTo_63] at hc ⊢
  split <;> omega

theorem isNegative_ofCode (negative : Bool) {c : Nat} (hc : c < twoTo 63) :
    (ofCode negative c).isNegative = negative := by
  simp only [isNegative, ofCode, UInt64.toNat_ofNat', twoTo_63] at hc ⊢
  cases negative <;> simp <;> omega

/-! ### Integers -/

/-- The integer nearest to `i` that is a double, the even one of two equally near. -/
def rounded (i : Int) : Int :=
  if i < 0 then -Format.double.nearest i.natAbs else Format.double.nearest i.natAbs

section
variable {i j : Int}

theorem rounded_le_rounded (hij : i ≤ j) : rounded i ≤ rounded j := by
  have hmono : ∀ {n m : Nat}, n ≤ m → Format.double.nearest n ≤ Format.double.nearest m :=
    fun h => Format.monotone_nearest h
  rcases Int.lt_or_le i 0 with hi | hi <;> rcases Int.lt_or_le j 0 with hj | hj
  · have hneg := hmono (show j.natAbs ≤ i.natAbs by omega)
    simp only [rounded, if_pos hi, if_pos hj]
    omega
  · simp only [rounded, if_pos hi, if_neg (Int.not_lt.2 hj)]
    omega
  · omega
  · have hpos := hmono (show i.natAbs ≤ j.natAbs by omega)
    simp only [rounded, if_neg (Int.not_lt.2 hi), if_neg (Int.not_lt.2 hj)]
    omega

theorem natAbs_rounded (i : Int) : (rounded i).natAbs = Format.double.nearest i.natAbs := by
  rw [rounded]
  split <;> simp

/-- An integer with no more than 53 bits is a double. -/
theorem rounded_of_le (h : i.natAbs ≤ twoTo 53) : rounded i = i := by
  rw [rounded, Format.nearest_of_le h]
  split <;> omega

/-- No other integer is rounded to one of magnitude below 2 ^ 53. -/
theorem eq_of_rounded_eq (hi : i.natAbs < twoTo 53) (h : rounded i = rounded j) : i = j := by
  have hi' : rounded i = i := rounded_of_le (Nat.le_of_lt hi)
  rcases Nat.lt_or_ge (twoTo 53) j.natAbs with hj | hj
  · have hlarge : twoTo 53 ≤ (rounded j).natAbs := by
      rw [natAbs_rounded, ← Format.nearest_of_le (f := .double) (Nat.le_refl (twoTo 53))]
      exact Format.monotone_nearest (Nat.le_of_lt hj)
    rw [← h, hi'] at hlarge
    omega
  · rw [← hi', h, rounded_of_le hj]

end

theorem code_ofInt64 (n : Int64) :
    (ofInt64 n).code = Format.double.encode (n.toInt.natAbs * Format.double.one) 1 ∧
      (ofInt64 n).isNegative = decide (n.toInt < 0) := by
  have hcode : Format.double.encode (n.toInt.natAbs * Format.double.one) 1 < twoTo 63 :=
    Nat.lt_of_le_of_lt (Nat.min_le_left _ _) (by decide)
  exact ⟨code_ofCode _ hcode, isNegative_ofCode _ hcode⟩

theorem isNaN_ofInt64 (n : Int64) : (ofInt64 n).isNaN = false := by
  rw [isNaN, (code_ofInt64 n).1]
  exact decide_eq_false (Nat.not_lt.2 (Nat.min_le_left _ _))

/-- The number of a 64-bit integer in units is far from the greatest finite one. -/
theorem log2_units_le (n : Int64) :
    (n.toInt.natAbs * Format.double.one).log2 - Format.double.fractionBits + 3 ≤
      twoTo Format.double.exponentBits := by
  have hlog : (n.toInt.natAbs * Format.double.one).log2 < 64 + Format.double.unitScale := by
    by_cases hzero : n.toInt.natAbs = 0
    · rw [hzero, Nat.zero_mul]
      decide
    · have hlt : n.toInt.natAbs < 2 ^ 64 := by
        have := n.le_toInt
        have := n.toInt_lt
        omega
      rw [Format.one, log2_mul_twoTo hzero]
      exact Nat.add_lt_add_right ((Nat.log2_lt hzero).2 hlt) _
  have hscale : 64 + Format.double.unitScale = 1138 := rfl
  have hbits : Format.double.fractionBits = 52 := rfl
  have hcodes : twoTo Format.double.exponentBits = 2048 := rfl
  omega

theorem signedUnits_ofInt64 (n : Int64) :
    (ofInt64 n).signedUnits = rounded n.toInt * Format.double.one := by
  have hunits : (ofInt64 n).units =
      Format.double.nearest n.toInt.natAbs * Format.double.one := by
    rw [units, (code_ofInt64 n).1, Format.units_encode (log2_units_le n), Format.one,
      Format.nearest_mul_twoTo]
  rw [signedUnits, (code_ofInt64 n).2, hunits, rounded]
  by_cases hneg : n.toInt < 0
  · rw [if_pos (decide_eq_true hneg), if_pos hneg, Int.natCast_mul, Int.neg_mul]
  · rw [if_neg (by simpa using hneg), if_neg hneg, Int.natCast_mul]

theorem key_lt_ofInt64_iff (n m : Int64) :
    (ofInt64 n).key < (ofInt64 m).key ↔ rounded n.toInt < rounded m.toInt := by
  have hone : (0 : Int) < Format.double.one := Int.natCast_pos.2 (twoTo_pos _)
  rw [key_lt_key_iff, signedUnits_ofInt64, signedUnits_ofInt64]
  exact Int.mul_lt_mul_right hone

theorem lt_ofInt64 (n m : Int64) :
    (ofInt64 n).lt (ofInt64 m) = decide (rounded n.toInt < rounded m.toInt) := by
  simp [lt, isNaN_ofInt64, key_lt_ofInt64_iff]

theorem le_ofInt64 (n m : Int64) :
    (ofInt64 n).le (ofInt64 m) = decide (rounded n.toInt ≤ rounded m.toInt) := by
  simp only [le, isNaN_ofInt64, ← Int.not_lt, key_lt_ofInt64_iff, Bool.not_false, Bool.true_and]

theorem eq_ofInt64 (n m : Int64) :
    (ofInt64 n).eq (ofInt64 m) = decide (rounded n.toInt = rounded m.toInt) := by
  have hnm := key_lt_ofInt64_iff n m
  have hmn := key_lt_ofInt64_iff m n
  simp only [eq, isNaN_ofInt64, Bool.not_false, Bool.true_and, decide_eq_decide]
  omega

end Double
end BraceScript
