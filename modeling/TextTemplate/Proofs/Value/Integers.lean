import TextTemplate.Proofs.Number.Nearest
import TextTemplate.Proofs.Value.Comparison

namespace TextTemplate

namespace Number.Binary64

def value (x : Binary64) : Int := if x.negative then -(quanta x.magnitude : Int) else quanta x.magnitude

theorem value_lt_iff {x y : Binary64} : x.value < y.value ↔ x.key < y.key := by
  obtain ⟨negative, m, -⟩ := x
  obtain ⟨negative', n, -⟩ := y
  have zero : quanta 0 = 0 := rfl
  have order := quanta_strictMono.lt_iff_lt (a := m) (b := n)
  have order' := quanta_strictMono.lt_iff_lt (a := n) (b := m)
  have positive := quanta_strictMono.lt_iff_lt (a := 0) (b := m)
  have positive' := quanta_strictMono.lt_iff_lt (a := 0) (b := n)
  cases negative <;> cases negative' <;> simp only [value, key] <;> simp <;> omega

def nearestInt (i : Int) : Int := if i < 0 then -(nearest i.natAbs : Int) else nearest i.natAbs

theorem value_ofInt {i : Int} (fits : i.natAbs ≤ twoTo 1023) : (ofInt i).value = nearestInt i * twoTo 1074 := by
  have place : (ofInt i).magnitude = nearestPlace i.natAbs 1 := Nat.min_eq_left (nearestPlace_one_le_infinity fits)
  have sign : (ofInt i).negative = decide (i < 0) := rfl
  rw [value, place, sign, quanta_nearestPlace_one, nearestInt, Nat.cast_mul]
  by_cases negative : i < 0
  · simp only [negative, decide_true, if_true, Int.neg_mul]
  · simp only [negative, decide_false, Bool.false_eq_true, if_false]

theorem key_ofInt_lt {i j : Int} (fits : i.natAbs ≤ twoTo 1023) (fits' : j.natAbs ≤ twoTo 1023) :
    (ofInt i).key < (ofInt j).key ↔ nearestInt i < nearestInt j := by
  rw [← value_lt_iff, value_ofInt fits, value_ofInt fits']
  exact Int.mul_lt_mul_right (Int.natCast_pos.mpr (twoTo_pos _))

theorem nearestInt_le {i j : Int} (le : i ≤ j) : nearestInt i ≤ nearestInt j := by
  unfold nearestInt
  split <;> split
  · have := nearest_le (show j.natAbs ≤ i.natAbs by omega)
    omega
  · omega
  · omega
  · have := nearest_le (show i.natAbs ≤ j.natAbs by omega)
    omega

theorem nearestInt_eq_self {i : Int} (small : i.natAbs ≤ twoTo 53) : nearestInt i = i := by
  rw [nearestInt, nearest_eq_self (significant_of_le small)]
  split <;> omega

theorem nearestInt_error {i : Int} (fits : i.natAbs < twoTo 64) : 2 * (i - nearestInt i).natAbs ≤ twoTo 11 := by
  have error := nearest_error i.natAbs
  have spaced : spacing i.natAbs ≤ twoTo 11 := by
    refine twoTo_le ?_
    by_cases zero : i.natAbs = 0
    · simp [zero]
    · have bits := (Nat.log2_lt zero).mpr fits
      omega
  unfold nearestInt
  simp only [Nat.dist] at error
  split <;> omega

end Number.Binary64

open Number (Binary64)
open Number.Binary64 Value

namespace Comparison

def decides : Comparison → Int → Int → Bool
  | strictEq, i, j | looseEq, i, j => i = j
  | strictNe, i, j | looseNe, i, j => i ≠ j
  | lt, i, j => i < j
  | gt, i, j => j < i
  | le, i, j => i ≤ j
  | ge, i, j => j ≤ i

theorem decides_congr (comparison : Comparison) {i j i' j' : Int} (lt : i < j ↔ i' < j') (gt : j < i ↔ j' < i') :
    comparison.decides i j = comparison.decides i' j' := by
  cases comparison <;> simp only [decides, decide_eq_decide] <;> omega

theorem holds_int (comparison : Comparison) (i j : Int) :
    comparison.holds (some (.number (.int i))) (some (.number (.int j))) =
      comparison.decides (ofInt i).key (ofInt j).key := by
  have order : order? (some (.number (.int i))) (some (.number (.int j))) =
      some (compare (ofInt i).key (ofInt j).key) := rfl
  cases comparison with
  | strictEq => rfl
  | looseEq => rfl
  | strictNe => exact decide_not.symm
  | looseNe => exact decide_not.symm
  | lt => rw [Bool.eq_iff_iff, holds_lt, order, Option.some.injEq, Int.compare_eq_lt, decides, decide_eq_true_iff]
  | gt => rw [Bool.eq_iff_iff, holds_gt, order, Option.some.injEq, Int.compare_eq_gt, decides, decide_eq_true_iff]
  | le =>
      rw [Bool.eq_iff_iff, holds_le, order, Option.some.injEq, Option.some.injEq, Int.compare_eq_lt, Int.compare_eq_eq,
        decides, decide_eq_true_iff, Int.le_iff_lt_or_eq]
  | ge =>
      rw [Bool.eq_iff_iff, holds_ge, order, Option.some.injEq, Option.some.injEq, Int.compare_eq_gt, Int.compare_eq_eq,
        decides, decide_eq_true_iff, Int.le_iff_lt_or_eq, eq_comm]

end Comparison

theorem decides_nearest_iff (i j : Int) :
    (∀ comparison : Comparison, comparison.decides (nearestInt i) (nearestInt j) = comparison.decides i j) ↔
      (nearestInt i = nearestInt j → i = j) := by
  constructor
  · intro exact equal
    have strict := exact .strictEq
    rw [Comparison.decides, Comparison.decides, decide_eq_decide] at strict
    exact strict.mp equal
  · intro apart comparison
    rcases Int.lt_trichotomy i j with less | rfl | greater
    · have := nearestInt_le less.le
      have := mt apart less.ne
      exact Comparison.decides_congr comparison (by omega) (by omega)
    · exact Comparison.decides_congr comparison (by omega) (by omega)
    · have := nearestInt_le greater.le
      have := mt apart greater.ne'
      exact Comparison.decides_congr comparison (by omega) (by omega)

/--
Integers of 64 bits compare as their nearest integers of 53 significant bits. All operators are exact on a pair of them
if and only if the two are equal or their nearest ones differ, and so if neither is beyond 2 to the 53 in size or if they
are farther apart than 2048.
-/
theorem integers_compared (a b : Int) (fits : a.natAbs < twoTo 64) (fits' : b.natAbs < twoTo 64) :
    (∀ comparison : Comparison, comparison.holds (some (.number (.int a))) (some (.number (.int b))) =
      comparison.decides (nearestInt a) (nearestInt b)) ∧
    ((∀ comparison : Comparison, comparison.holds (some (.number (.int a))) (some (.number (.int b))) =
      comparison.decides a b) ↔ (nearestInt a = nearestInt b → a = b)) ∧
    (a.natAbs ≤ twoTo 53 ∧ b.natAbs ≤ twoTo 53 ∨ twoTo 11 < (a - b).natAbs →
      ∀ comparison : Comparison, comparison.holds (some (.number (.int a))) (some (.number (.int b))) =
        comparison.decides a b) := by
  have bits : twoTo 64 ≤ twoTo 1023 := twoTo_le (by decide)
  have rounded (comparison : Comparison) : comparison.holds (some (.number (.int a))) (some (.number (.int b))) =
      comparison.decides (nearestInt a) (nearestInt b) := by
    rw [Comparison.holds_int]
    exact Comparison.decides_congr comparison (key_ofInt_lt (fits.le.trans bits) (fits'.le.trans bits))
      (key_ofInt_lt (fits'.le.trans bits) (fits.le.trans bits))
  simp only [rounded]
  refine ⟨fun _ => trivial, decides_nearest_iff a b, fun near => (decides_nearest_iff a b).mpr fun equal => ?_⟩
  rcases near with ⟨small, small'⟩ | far
  · rwa [nearestInt_eq_self small, nearestInt_eq_self small'] at equal
  · have error := nearestInt_error fits
    have error' := nearestInt_error fits'
    omega

theorem integers_compared_even :
    (9007199254740992 : Int).natAbs < twoTo 64 ∧ (9007199254740994 : Int).natAbs < twoTo 64 ∧
      Comparison.lt.holds (some (.number (.int 9007199254740992))) (some (.number (.int 9007199254740994))) = true := by
  have fits : (9007199254740992 : Int).natAbs < twoTo 64 := by decide
  have fits' : (9007199254740994 : Int).natAbs < twoTo 64 := by decide
  refine ⟨fits, fits', ?_⟩
  rw [(integers_compared 9007199254740992 9007199254740994 fits fits').1]
  decide

theorem integers_confused :
    Comparison.strictEq.holds (some (.number (.int 9007199254740992))) (some (.number (.int 9007199254740993))) = true ∧
      Comparison.strictEq.decides 9007199254740992 9007199254740993 = false ∧
      Comparison.lt.holds (some (.number (.int 9007199254740992))) (some (.number (.int 9007199254740993))) = false ∧
      Comparison.lt.decides 9007199254740992 9007199254740993 = true ∧
      Comparison.strictEq.holds (some (.array [.number (.int 9007199254740992)]))
        (some (.array [.number (.int 9007199254740993)])) = false := by
  decide +kernel

end TextTemplate
