import Mathlib.Data.Nat.Dist
import Mathlib.Order.Monotone.Basic
import Mathlib.Tactic.Ring
import TextTemplate.Number.Binary64

/-!
# The nearest floating-point number

Places ascend strictly with the magnitudes they stand for (`quanta_strictMono`). The place taken for a natural number
has the magnitude of its nearest number of 53 significant bits (`quanta_nearestPlace_one`): no number of 53 significant
bits is nearer (`nearest_near`), and from this alone follow that the numbers of 53 significant bits are left as they are
and that no two numbers change their order.
-/

namespace TextTemplate

theorem twoTo_pos (exponent : Nat) : 0 < twoTo exponent := Nat.two_pow_pos exponent

theorem twoTo_add (a b : Nat) : twoTo (a + b) = twoTo a * twoTo b := Nat.pow_add 2 a b

theorem twoTo_succ (exponent : Nat) : twoTo (exponent + 1) = 2 * twoTo exponent := Nat.pow_succ'

theorem twoTo_le {a b : Nat} (h : a ≤ b) : twoTo a ≤ twoTo b := Nat.pow_le_pow_right (by decide) h

theorem twoTo_log2_le {n : Nat} (positive : n ≠ 0) : twoTo n.log2 ≤ n := Nat.log2_self_le positive

theorem lt_twoTo_log2 (n : Nat) : n < twoTo (n.log2 + 1) := Nat.lt_log2_self

theorem log2_mul_twoTo {n : Nat} (positive : n ≠ 0) (exponent : Nat) :
    (n * twoTo exponent).log2 = n.log2 + exponent := by
  have bits := twoTo_pos exponent
  refine (Nat.log2_eq_iff (Nat.mul_ne_zero positive bits.ne')).mpr ⟨?_, ?_⟩
  · rw [Nat.pow_add]
    exact Nat.mul_le_mul_right _ (twoTo_log2_le positive)
  · rw [Nat.add_right_comm, Nat.pow_add]
    exact Nat.mul_lt_mul_of_pos_right (lt_twoTo_log2 n) bits

namespace Number.Binary64

theorem quanta_exponent (exponent : Nat) {fraction : Nat} (below : fraction < twoTo 52) :
    quanta ((exponent + 1) * twoTo 52 + fraction) = (twoTo 52 + fraction) * twoTo exponent := by
  have bits : ((exponent + 1) * twoTo 52 + fraction) / twoTo 52 = exponent + 1 := by
    rw [Nat.mul_comm, Nat.mul_add_div (twoTo_pos 52), Nat.div_eq_of_lt below, Nat.add_zero]
  have rest : ((exponent + 1) * twoTo 52 + fraction) % twoTo 52 = fraction := by
    rw [Nat.mul_comm, Nat.mul_add_mod, Nat.mod_eq_of_lt below]
  rw [quanta, bits, rest, if_neg (Nat.succ_ne_zero exponent), Nat.add_sub_cancel]

theorem quanta_place {shift significand : Nat} (below : significand ≤ twoTo 53)
    (normal : shift = 0 ∨ twoTo 52 ≤ significand) :
    quanta (shift * twoTo 52 + significand) = significand * twoTo shift := by
  have double : twoTo 53 = 2 * twoTo 52 := twoTo_succ 52
  by_cases small : significand < twoTo 52
  · obtain rfl : shift = 0 := by omega
    rw [Nat.zero_mul, Nat.zero_add, quanta, if_pos (Nat.div_eq_of_lt small)]
    exact (Nat.mul_one _).symm
  · obtain ⟨fraction, rfl⟩ := Nat.exists_eq_add_of_le (Nat.le_of_not_lt small)
    rcases Nat.lt_or_ge fraction (twoTo 52) with below' | above
    · rw [← quanta_exponent shift below', Nat.add_mul, Nat.one_mul, Nat.add_assoc]
    · -- the significand has carried into the exponent
      obtain rfl : fraction = twoTo 52 := by omega
      have next := quanta_exponent (shift + 1) (twoTo_pos 52)
      simp only [Nat.add_zero, twoTo_succ shift] at next
      rw [show shift * twoTo 52 + (twoTo 52 + twoTo 52) = (shift + 1 + 1) * twoTo 52 by ring, next]
      ring

theorem exists_significand (place : Nat) :
    ∃ shift significand, place = shift * twoTo 52 + significand ∧ significand < twoTo 53 ∧
      (shift = 0 ∨ twoTo 52 ≤ significand) := by
  have parts := Nat.div_add_mod' place (twoTo 52)
  have below := Nat.mod_lt place (twoTo_pos 52)
  have double : twoTo 53 = 2 * twoTo 52 := twoTo_succ 52
  cases exponent : place / twoTo 52 with
  | zero =>
      rw [exponent] at parts
      exact ⟨0, place % twoTo 52, parts.symm, by omega, .inl rfl⟩
  | succ shift =>
      rw [exponent, Nat.add_mul, Nat.one_mul, Nat.add_assoc] at parts
      exact ⟨shift, twoTo 52 + place % twoTo 52, parts.symm, by omega, .inr (Nat.le_add_right _ _)⟩

theorem quanta_strictMono : StrictMono quanta := by
  refine strictMono_nat_of_lt_succ fun place => ?_
  obtain ⟨shift, significand, rfl, below, normal⟩ := exists_significand place
  rw [Nat.add_assoc, quanta_place below.le normal, quanta_place below (normal.imp_right Nat.le_succ_of_le)]
  exact Nat.mul_lt_mul_of_pos_right (Nat.lt_succ_self _) (twoTo_pos shift)

section

variable (tie : Tie) (num : Nat) {den : Nat}

theorem roundDiv_cases (den : Nat) :
    roundDiv tie num den = num / den ∧ 2 * (num % den) ≤ den ∨
      roundDiv tie num den = num / den + 1 ∧ den ≤ 2 * (num % den) := by
  rw [roundDiv]
  split
  case isTrue up => exact .inr ⟨rfl, up.elim Nat.le_of_lt fun up => up.1.ge⟩
  case isFalse stays => exact .inl ⟨rfl, by omega⟩

theorem roundDiv_error (positive : 0 < den) : 2 * Nat.dist num (roundDiv tie num den * den) ≤ den := by
  have parts := Nat.div_add_mod' num den
  have remains := Nat.mod_lt num positive
  have up : (num / den + 1) * den = num / den * den + den := Nat.succ_mul _ _
  simp only [Nat.dist]
  rcases roundDiv_cases tie num den with ⟨result, _⟩ | ⟨result, _⟩ <;> rw [result] <;> omega

theorem roundDiv_near (positive : 0 < den) (k : Nat) :
    Nat.dist num (roundDiv tie num den * den) ≤ Nat.dist num (k * den) := by
  have parts := Nat.div_add_mod' num den
  have remains := Nat.mod_lt num positive
  have up : (num / den + 1) * den = num / den * den + den := Nat.succ_mul _ _
  -- a multiple of `den` lies at or below the quotient, or at or above the next one
  have apart : k * den ≤ num / den * den ∨ (num / den + 1) * den ≤ k * den :=
    (Nat.lt_or_ge (num / den) k).symm.imp (Nat.mul_le_mul_right den) (Nat.mul_le_mul_right den)
  simp only [Nat.dist]
  rcases roundDiv_cases tie num den with ⟨result, _⟩ | ⟨result, _⟩ <;> rw [result] <;> omega

theorem roundDiv_mul (positive : 0 < den) (k : Nat) : roundDiv tie (k * den) den = k := by
  have near := roundDiv_near tie (k * den) positive k
  rw [Nat.dist_self] at near
  exact (Nat.eq_of_mul_eq_mul_right positive (Nat.eq_of_dist_eq_zero (Nat.le_zero.mp near))).symm

theorem roundDiv_mul_mul {scale : Nat} (positive : 0 < scale) :
    roundDiv tie (num * scale) (den * scale) = roundDiv tie num den := by
  have less : den * scale < 2 * (num % den * scale) ↔ den < 2 * (num % den) := by
    rw [← Nat.mul_assoc]
    exact Nat.mul_lt_mul_right positive
  have halves : 2 * (num % den * scale) = den * scale ↔ 2 * (num % den) = den := by
    rw [← Nat.mul_assoc]
    exact Nat.mul_left_inj positive.ne'
  simp only [roundDiv, Nat.mul_div_mul_right _ _ positive, Nat.mul_mod_mul_right, less, halves]

end

theorem quanta_nearestPlace (num den : Nat) :
    quanta (nearestPlace num den) =
      roundDiv .toEven (num * twoTo 1074) (den * twoTo ((num * twoTo 1074 / den).log2 - 52)) *
        twoTo ((num * twoTo 1074 / den).log2 - 52) := by
  generalize scaledIs : num * twoTo 1074 = scaled
  generalize shiftIs : (scaled / den).log2 - 52 = shift
  have double : twoTo 53 = 2 * twoTo 52 := twoTo_succ 52
  have quotient : scaled / (den * twoTo shift) = scaled / den / twoTo shift := (Nat.div_div_eq_div_mul _ _ _).symm
  have below : scaled / den / twoTo shift < twoTo 53 := by
    rw [Nat.div_lt_iff_lt_mul (twoTo_pos shift), ← twoTo_add]
    exact (lt_twoTo_log2 _).trans_le (twoTo_le (by omega))
  have normal : shift = 0 ∨ twoTo 52 ≤ scaled / den / twoTo shift := by
    rcases Nat.eq_zero_or_pos shift with zero | positive
    · exact .inl zero
    · have nonzero : scaled / den ≠ 0 := by
        intro zero
        rw [zero, Nat.log2_zero] at shiftIs
        omega
      refine .inr ((Nat.le_div_iff_mul_le (twoTo_pos shift)).mpr ?_)
      rw [← twoTo_add]
      exact (twoTo_le (by omega)).trans (twoTo_log2_le nonzero)
  have place : nearestPlace num den = shift * twoTo 52 + roundDiv .toEven scaled (den * twoTo shift) := by
    rw [nearestPlace, scaledIs, shiftIs]
  have cases := roundDiv_cases .toEven scaled (den * twoTo shift)
  rw [quotient] at cases
  rw [place]
  exact quanta_place (by omega) (by omega)

def spacing (n : Nat) : Nat := twoTo (n.log2 - 52)

/-- The number of 53 significant bits nearest to `n`, on a tie the one with an even significand. -/
def nearest (n : Nat) : Nat := roundDiv .toEven n (spacing n) * spacing n

def Significant (n : Nat) : Prop := ∃ significand exponent, significand ≤ twoTo 53 ∧ n = significand * twoTo exponent

theorem nearest_scaled (n : Nat) {unit : Nat} (fine : 52 ≤ unit) :
    roundDiv .toEven (n * twoTo unit) (twoTo (n.log2 + unit - 52)) * twoTo (n.log2 + unit - 52) =
      nearest n * twoTo unit := by
  rw [nearest, spacing]
  rcases Nat.lt_or_ge n.log2 52 with small | large
  · have whole : n * twoTo unit = n * twoTo (52 - n.log2) * twoTo (n.log2 + unit - 52) := by
      rw [Nat.mul_assoc, ← twoTo_add, show 52 - n.log2 + (n.log2 + unit - 52) = unit by omega]
    have single : roundDiv .toEven n 1 * 1 = n := by
      rw [← Nat.mul_one n, roundDiv_mul _ Nat.one_pos, Nat.mul_one]
    rw [Nat.sub_eq_zero_of_le small.le, show twoTo 0 = 1 from rfl, single, whole, roundDiv_mul _ (twoTo_pos _)]
  · rw [show n.log2 + unit - 52 = n.log2 - 52 + unit by omega, twoTo_add, roundDiv_mul_mul _ _ (twoTo_pos _),
      Nat.mul_assoc]

theorem quanta_nearestPlace_one (n : Nat) : quanta (nearestPlace n 1) = nearest n * twoTo 1074 := by
  rw [quanta_nearestPlace, Nat.div_one, Nat.one_mul]
  rcases Nat.eq_zero_or_pos n with rfl | positive
  · have rounds (exponent : Nat) : roundDiv .toEven 0 (twoTo exponent) = 0 := by
      simpa using roundDiv_mul .toEven (twoTo_pos exponent) 0
    simp only [nearest, spacing, Nat.zero_mul, rounds]
  · rw [log2_mul_twoTo positive.ne']
    exact nearest_scaled n (by decide)

theorem nearest_significant (n : Nat) : Significant (nearest n) := by
  refine ⟨_, n.log2 - 52, ?_, rfl⟩
  have below : n / spacing n < twoTo 53 := by
    rw [spacing, Nat.div_lt_iff_lt_mul (twoTo_pos _), ← twoTo_add]
    exact (lt_twoTo_log2 n).trans_le (twoTo_le (by omega))
  have cases := roundDiv_cases .toEven n (spacing n)
  omega

theorem nearest_near {n m : Nat} (significant : Significant m) : Nat.dist n (nearest n) ≤ Nat.dist n m := by
  obtain ⟨significand, exponent, below, rfl⟩ := significant
  have positive : 0 < spacing n := twoTo_pos _
  rcases Nat.lt_or_ge exponent (n.log2 - 52) with finer | coarser
  · -- off the grid about `n` a number is below all of that grid
    have least : twoTo 52 * spacing n ≤ n := by
      rw [spacing, ← twoTo_add]
      refine (twoTo_le (by omega)).trans (twoTo_log2_le ?_)
      rintro rfl
      rw [Nat.log2_zero] at finer
      omega
    have under : significand * twoTo exponent ≤ twoTo 52 * spacing n := by
      rw [spacing, ← twoTo_add]
      refine (Nat.mul_le_mul_right _ below).trans ?_
      rw [← twoTo_add]
      exact twoTo_le (by omega)
    have near := roundDiv_near .toEven n positive (twoTo 52)
    simp only [nearest, Nat.dist] at near ⊢
    omega
  · obtain ⟨more, rfl⟩ := Nat.exists_eq_add_of_le coarser
    rw [twoTo_add, Nat.mul_comm (twoTo _), ← Nat.mul_assoc]
    exact roundDiv_near .toEven n positive _

theorem nearest_eq_self {n : Nat} (significant : Significant n) : nearest n = n := by
  have near := nearest_near significant (n := n)
  rw [Nat.dist_self] at near
  exact (Nat.eq_of_dist_eq_zero (Nat.le_zero.mp near)).symm

theorem nearest_le {n n' : Nat} (le : n ≤ n') : nearest n ≤ nearest n' := by
  by_contra swapped
  have near := nearest_near (nearest_significant n') (n := n)
  have near' := nearest_near (nearest_significant n) (n := n')
  rcases Nat.eq_or_lt_of_le le with rfl | less
  · exact swapped le_rfl
  · simp only [Nat.dist] at near near'
    omega

theorem nearest_error (n : Nat) : 2 * Nat.dist n (nearest n) ≤ spacing n := roundDiv_error .toEven n (twoTo_pos _)

theorem significant_of_le {n : Nat} (small : n ≤ twoTo 53) : Significant n := ⟨n, 0, small, (Nat.mul_one n).symm⟩

theorem significant_twoTo (exponent : Nat) : Significant (twoTo exponent) :=
  ⟨1, exponent, twoTo_pos 53, (Nat.one_mul _).symm⟩

theorem nearestPlace_one_le_infinity {n : Nat} (fits : n ≤ twoTo 1023) : nearestPlace n 1 ≤ infinity := by
  rw [← quanta_strictMono.le_iff_le, quanta_nearestPlace_one]
  have most : quanta infinity = twoTo 1024 * twoTo 1074 := by
    have place := quanta_exponent 2046 (twoTo_pos 52)
    simp only [Nat.add_zero, ← twoTo_add] at place
    rw [← twoTo_add]
    exact place
  have nearest_le : nearest n ≤ twoTo 1023 := nearest_eq_self (significant_twoTo 1023) ▸ nearest_le fits
  rw [most]
  exact Nat.mul_le_mul_right _ (nearest_le.trans (twoTo_le (by decide)))

end Number.Binary64

end TextTemplate
