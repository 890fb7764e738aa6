import TextTemplate.Proofs.Value.Entries
import TextTemplate.Value.Compare

namespace TextTemplate

namespace Number.Binary64

def unsigned (x : Binary64) : Binary64 := if x.magnitude = 0 then .zero else x

theorem key_eq_iff {x y : Binary64} : x.key = y.key ↔ x.unsigned = y.unsigned := by
  obtain ⟨negative, m, -⟩ := x
  obtain ⟨negative', n, -⟩ := y
  by_cases none : m = 0 <;> by_cases none' : n = 0 <;> cases negative <;> cases negative' <;>
    simp [key, unsigned, zero, none, none'] <;> omega

theorem same_iff {x y : Binary64} : x.same y = true ↔ x.key = y.key := decide_eq_true_iff

theorem order_eq_iff {x y : Binary64} : x.order y = .eq ↔ x.key = y.key := Int.compare_eq_eq

theorem order_swap (x y : Binary64) : (x.order y).swap = y.order x := Int.compare_swap x.key y.key

end Number.Binary64

namespace Value
open Number (Binary64)

mutual

def unsigned : Value → Value
  | number (.float x) => number (.float x.unsigned)
  | array items => array (unsignedItems items)
  | object entries => object (unsignedEntries entries)
  | v => v

def unsignedItems : List Value → List Value
  | [] => []
  | v :: rest => v.unsigned :: unsignedItems rest

def unsignedEntries : List (Text × Value) → List (Text × Value)
  | [] => []
  | (key, v) :: rest => (key, v.unsigned) :: unsignedEntries rest

end

mutual

theorem same_iff : (v w : Value) → (same v w = true ↔ v.unsigned = w.unsigned)
  | null, w => by cases w with
    | number n => cases n <;> simp [same, unsigned]
    | _ => simp [same, unsigned]
  | bool a, w => by cases w with
    | number n => cases n <;> simp [same, unsigned]
    | _ => simp [same, unsigned]
  | number (.int i), w => by cases w with
    | number n => cases n <;> simp [same, unsigned]
    | _ => simp [same, unsigned]
  | number (.float x), w => by cases w with
    | number n => cases n <;> simp [same, unsigned, Binary64.same_iff, Binary64.key_eq_iff]
    | _ => simp [same, unsigned]
  | text t, w => by cases w with
    | number n => cases n <;> simp [same, unsigned]
    | _ => simp [same, unsigned]
  | array xs, w => by cases w with
    | number n => cases n <;> simp [same, unsigned]
    | array ys => simp [same, unsigned, sameItems_iff xs ys]
    | _ => simp [same, unsigned]
  | object xs, w => by cases w with
    | number n => cases n <;> simp [same, unsigned]
    | object ys => simp [same, unsigned, sameEntries_iff xs ys]
    | _ => simp [same, unsigned]

theorem sameItems_iff : (xs ys : List Value) → (sameItems xs ys = true ↔ unsignedItems xs = unsignedItems ys)
  | [], ys => by cases ys <;> simp [sameItems, unsignedItems]
  | x :: xs, ys => by cases ys with
    | nil => simp [sameItems, unsignedItems]
    | cons y ys => simp [sameItems, unsignedItems, same_iff x y, sameItems_iff xs ys]

theorem sameEntries_iff :
    (xs ys : List (Text × Value)) → (sameEntries xs ys = true ↔ unsignedEntries xs = unsignedEntries ys)
  | [], ys => by cases ys <;> simp [sameEntries, unsignedEntries]
  | (key, x) :: xs, ys => by cases ys with
    | nil => simp [sameEntries, unsignedEntries]
    | cons entry ys => simp [sameEntries, unsignedEntries, same_iff x entry.2, sameEntries_iff xs ys]

end

/-- What strict equality sees of a value: of a number itself the nearest floating-point number, whatever its kind. -/
def essence : Option Value → Option Value
  | some (number n) => some (number (.float n.toBinary64.unsigned))
  | some v => some v.unsigned
  | none => none

theorem strictEq_iff (v w : Option Value) : strictEq v w = true ↔ essence v = essence w := by
  rcases v with _ | v <;> rcases w with _ | w
  · simp [strictEq]
  · cases w <;> simp [strictEq, essence]
  · cases v <;> simp [strictEq, essence]
  · cases v with
    | number m =>
        cases w with
        | number n => simp [strictEq, essence, Binary64.same_iff, Binary64.key_eq_iff]
        -- `same` unfolds only where the kind of the number is known
        | _ => cases m <;> simp [strictEq, essence, same, unsigned]
    | _ =>
        cases w with
        | number n => cases n <;> simp [strictEq, essence, same, unsigned]
        | _ => simp [strictEq, essence, same_iff]

theorem strictEq_refl (v : Option Value) : strictEq v v = true := (strictEq_iff v v).mpr rfl

theorem strictEq_comm (v w : Option Value) : strictEq v w = strictEq w v := by
  rw [Bool.eq_iff_iff, strictEq_iff, strictEq_iff]
  exact eq_comm

theorem strictEq_trans {u v w : Option Value} (first : strictEq u v = true) (second : strictEq v w = true) :
    strictEq u w = true :=
  (strictEq_iff u w).mpr (((strictEq_iff u v).mp first).trans ((strictEq_iff v w).mp second))

def isText : Option Value → Bool
  | some (text _) => true
  | _ => false

theorem texts_or_mixed (v w : Option Value) :
    (∃ t u, v = some (text t) ∧ w = some (text u)) ∨ (isText v && isText w) = false := by
  unfold isText
  split
  · split
    · exact .inl ⟨_, _, rfl, rfl⟩
    · exact .inr rfl
  · exact .inr rfl

section

variable {v w : Option Value}

theorem looseEq_texts (t u : Text) : looseEq (some (text t)) (some (text u)) = decide (t = u) := by
  simp [looseEq, isNullish]

theorem looseEq_mixed (mixed : (isText v && isText w) = false) :
    looseEq v w =
      if isNullish v || isNullish w then isNullish v && isNullish w
      else if isContainer v || isContainer w then strictEq v w else numericEq v w := by
  unfold looseEq
  split
  · rfl
  · split
    · cases mixed
    · rfl

theorem order?_texts (t u : Text) : order? (some (text t)) (some (text u)) = some (t.order u) := rfl

theorem order?_mixed (mixed : (isText v && isText w) = false) :
    order? v w = (toNumber? v).bind fun x => (toNumber? w).map fun y => x.order y := by
  unfold order?
  split
  · cases mixed
  · cases toNumber? v <;> cases toNumber? w <;> rfl

theorem order?_swap (v w : Option Value) : order? w v = (order? v w).map Ordering.swap := by
  obtain ⟨t, u, rfl, rfl⟩ | mixed := texts_or_mixed v w
  · rw [order?_texts, order?_texts, Option.map_some, Text.order_swap]
  · rw [order?_mixed mixed, order?_mixed (Bool.and_comm _ _ ▸ mixed)]
    cases toNumber? v with
    | none => cases toNumber? w <;> rfl
    | some x =>
        cases toNumber? w with
        | none => rfl
        | some y => exact congrArg some (Binary64.order_swap x y).symm

theorem isSome_order? (v w : Option Value) :
    (order? v w).isSome = (isText v && isText w || (toNumber? v).isSome && (toNumber? w).isSome) := by
  obtain ⟨t, u, rfl, rfl⟩ | mixed := texts_or_mixed v w
  · rfl
  · rw [order?_mixed mixed, mixed]
    cases toNumber? v <;> cases toNumber? w <;> rfl

theorem numericEq_iff (mixed : (isText v && isText w) = false) : numericEq v w = true ↔ order? v w = some .eq := by
  rw [order?_mixed mixed, numericEq]
  cases toNumber? v <;> cases toNumber? w <;> simp [Binary64.same_iff, Binary64.order_eq_iff]

theorem numericEq_self {x : Binary64} (number : toNumber? v = some x) : numericEq v v = true := by
  rw [numericEq, number]
  exact Binary64.same_iff.mpr rfl

theorem numericEq_comm (v w : Option Value) : numericEq v w = numericEq w v := by
  rw [numericEq, numericEq]
  cases toNumber? v with
  | none => cases toNumber? w <;> rfl
  | some x =>
      cases toNumber? w with
      | none => rfl
      | some y =>
          rw [Bool.eq_iff_iff, Binary64.same_iff, Binary64.same_iff]
          exact eq_comm

theorem looseEq_comm (v w : Option Value) : looseEq v w = looseEq w v := by
  obtain ⟨t, u, rfl, rfl⟩ | mixed := texts_or_mixed v w
  · rw [looseEq_texts, looseEq_texts, decide_eq_decide]
    exact eq_comm
  · rw [looseEq_mixed mixed, looseEq_mixed (Bool.and_comm _ _ ▸ mixed), strictEq_comm, numericEq_comm]
    rw [Bool.or_comm (isNullish v), Bool.and_comm (isNullish v), Bool.or_comm (isContainer v)]

theorem looseEq_of_strictEq (equal : strictEq v w = true) : looseEq v w = true := by
  rcases v with _ | v <;> rcases w with _ | w
  · rfl
  · cases w <;> cases equal
  · cases v <;> cases equal
  · cases v with
    | null =>
        cases w with
        | null => rfl
        | _ => cases equal
    | bool a =>
        cases w with
        | bool b =>
            obtain rfl : a = b := of_decide_eq_true equal
            rw [looseEq_mixed rfl]
            exact numericEq_self (v := some (bool a)) rfl
        | _ => cases equal
    | number m =>
        cases w with
        | number n => exact equal
        | _ => cases m <;> cases equal
    | text t =>
        cases w with
        | text u => exact equal
        | _ => cases equal
    | array xs =>
        cases w with
        | array ys => exact equal
        | _ => cases equal
    | object xs =>
        cases w with
        | object ys => exact equal
        | _ => cases equal

theorem looseEq_iff_order (plain : isNullish v = false ∧ isContainer v = false)
    (plain' : isNullish w = false ∧ isContainer w = false) : looseEq v w = true ↔ order? v w = some .eq := by
  obtain ⟨t, u, rfl, rfl⟩ | mixed := texts_or_mixed v w
  · rw [looseEq_texts, order?_texts, decide_eq_true_iff, Option.some.injEq]
    refine ⟨?_, Text.eq_of_order⟩
    rintro rfl
    exact Text.order_self t
  · rw [looseEq_mixed mixed, plain.1, plain.2, plain'.1, plain'.2, ← numericEq_iff mixed]
    rfl

end

end Value

open Value

namespace Comparison

section

variable {v w : Option Value}

theorem holds_lt : lt.holds v w = true ↔ order? v w = some .lt := decide_eq_true_iff

theorem holds_gt : gt.holds v w = true ↔ order? v w = some .gt := decide_eq_true_iff

theorem holds_le : le.holds v w = true ↔ order? v w = some .lt ∨ order? v w = some .eq := by simp [holds]

theorem holds_ge : ge.holds v w = true ↔ order? v w = some .gt ∨ order? v w = some .eq := by simp [holds]

end

end Comparison

open Comparison

/--
Strict equality is an equivalence. Loose equality is reflexive and symmetric and holds wherever strict equality does. The
orders are those of the operands the other way round, a pair is in at most one of them or equal in order, and is in one
of the three exactly if both operands are texts or both convert to numbers. On operands that are neither absent or null
nor containers, loose equality is to be neither less nor greater.
-/
theorem comparisons_agree (a b c : Option Value) :
    (strictEq.holds a a = true ∧ strictEq.holds a b = strictEq.holds b a ∧
      (strictEq.holds a b = true → strictEq.holds b c = true → strictEq.holds a c = true)) ∧
    (looseEq.holds a a = true ∧ looseEq.holds a b = looseEq.holds b a ∧
      (strictEq.holds a b = true → looseEq.holds a b = true)) ∧
    (lt.holds a b = gt.holds b a ∧ le.holds a b = ge.holds b a) ∧
    (¬(lt.holds a b = true ∧ gt.holds a b = true) ∧ ¬(lt.holds a b = true ∧ order? a b = some .eq) ∧
      ¬(gt.holds a b = true ∧ order? a b = some .eq)) ∧
    (le.holds a b = true ↔ lt.holds a b = true ∨ order? a b = some .eq) ∧
    (lt.holds a b = true ∨ gt.holds a b = true ∨ order? a b = some .eq ↔
      isText a = true ∧ isText b = true ∨ (toNumber? a).isSome = true ∧ (toNumber? b).isSome = true) ∧
    ((isNullish a = false ∧ isContainer a = false) → (isNullish b = false ∧ isContainer b = false) →
      (looseEq.holds a b = true ↔ le.holds a b = true ∧ ge.holds a b = true)) := by
  have turned := order?_swap a b
  refine ⟨⟨strictEq_refl a, strictEq_comm a b, strictEq_trans⟩, ⟨?_, looseEq_comm a b, looseEq_of_strictEq⟩, ?_, ?_, ?_,
    ?_, ?_⟩
  · exact looseEq_of_strictEq (strictEq_refl a)
  · constructor
    · rw [Bool.eq_iff_iff, holds_lt, holds_gt, turned]
      rcases order? a b with _ | _ | _ | _ <;> simp
    · rw [Bool.eq_iff_iff, holds_le, holds_ge, turned]
      rcases order? a b with _ | _ | _ | _ <;> simp
  · rw [holds_lt, holds_gt]
    rcases order? a b with _ | _ | _ | _ <;> simp
  · rw [holds_le, holds_lt]
  · have comparable := isSome_order? a b
    rw [holds_lt, holds_gt]
    rw [Bool.eq_iff_iff, Bool.or_eq_true, Bool.and_eq_true, Bool.and_eq_true] at comparable
    rw [← comparable]
    rcases order? a b with _ | _ | _ | _ <;> simp
  · intro plain plain'
    rw [holds_le, holds_ge]
    refine (looseEq_iff_order plain plain').trans ?_
    rcases order? a b with _ | _ | _ | _ <;> simp

end TextTemplate
