import TextTemplate.Context
import TextTemplate.Proofs.Token.Spelling
import TextTemplate.Proofs.Value.Entries

namespace TextTemplate
open Lexer

def Text.Unmarked (t : Text) : Prop := ∀ c ∈ t, isMark c = false

instance (t : Text) : Decidable t.Unmarked :=
  decidable_of_decidable_of_iff (p := (t.all fun c => !isMark c) = true) (by simp [Text.Unmarked])

namespace Text.Unmarked
variable {t u : Text} {c : Char}

theorem nil : Unmarked [] := List.forall_mem_nil _

theorem cons (first : isMark c = false) (h : Unmarked t) : Unmarked (c :: t) := List.forall_mem_cons.mpr ⟨first, h⟩

theorem append (h : Unmarked t) (h' : Unmarked u) : Unmarked (t ++ u) := List.forall_mem_append.mpr ⟨h, h'⟩

theorem part (h : Unmarked t) (sub : u ⊆ t) : Unmarked u := fun c member => h c (sub member)

theorem flatMap {f : Char → Text} (h : Unmarked t) (each : ∀ c, isMark c = false → Unmarked (f c)) :
    Unmarked (t.flatMap f) := by
  intro c member
  obtain ⟨d, inside, member⟩ := List.mem_flatMap.mp member
  exact each d (h d inside) c member

end Text.Unmarked

theorem isMark_of_isDigit {c : Char} (h : c.isDigit = true) : isMark c = false := by
  rw [isMark, Bool.or_eq_false_iff, decide_eq_false_iff_not, decide_eq_false_iff_not]
  constructor <;> rintro rfl <;> cases h

namespace Text

theorem ofNat_unmarked (n : Nat) : Unmarked (ofNat n) := fun _ member =>
  isMark_of_isDigit (Nat.isDigit_of_mem_toDigits (by decide) (by decide) member)

theorem ofInt_unmarked (i : Int) : Unmarked (ofInt i) := by
  rw [ofInt]
  split
  · exact .cons rfl (ofNat_unmarked _)
  · exact ofNat_unmarked _

theorem replicate_unmarked (n : Nat) : Unmarked (List.replicate n '0') := by
  intro c member
  rw [List.eq_of_mem_replicate member]
  rfl

end Text

namespace Number
open Text (Unmarked)

theorem Decimal.positional_unmarked {whole : Text} (h : Unmarked whole) (d : Decimal) :
    Unmarked (d.positional whole) := by
  have digits : Unmarked d.layout.1 := Text.ofNat_unmarked d.digits
  rw [Decimal.positional]
  dsimp only
  split
  · exact .cons rfl (.cons rfl ((Text.replicate_unmarked _).append digits))
  · split
    · exact (digits.part (List.take_subset _ _)).append (.cons rfl (digits.part (List.drop_subset _ _)))
    · exact (digits.append (Text.replicate_unmarked _)).append h

theorem Decimal.scientific_unmarked (d : Decimal) : Unmarked d.scientific := by
  have digits : Unmarked d.layout.1 := Text.ofNat_unmarked d.digits
  have fraction : Unmarked (if d.layout.1.drop 1 = [] then [] else '.' :: d.layout.1.drop 1) := by
    split
    · exact .nil
    · exact .cons rfl (digits.part (List.drop_subset _ _))
  have sign : isMark (if d.layout.2 < 1 then '-' else '+') = false := by split <;> rfl
  exact ((digits.part (List.take_subset _ _)).append fraction).append
    (.cons rfl (.cons sign (Text.ofNat_unmarked _)))

theorem Binary64.signed_unmarked (x : Binary64) {t : Text} (h : Unmarked t) : Unmarked (x.signed t) := by
  rw [Binary64.signed]
  split
  · exact .cons rfl h
  · exact h

theorem plainText_unmarked (n : Number) : Unmarked n.plainText := by
  cases n with
  | int i => exact Text.ofInt_unmarked i
  | float x =>
      refine x.signed_unmarked ?_
      split
      · exact .cons rfl .nil
      · split
        · decide
        · exact Decimal.positional_unmarked .nil _

theorem documentText_unmarked (n : Number) : Unmarked n.documentText := by
  cases n with
  | int i => exact Text.ofInt_unmarked i
  | float x =>
      refine x.signed_unmarked ?_
      split
      · decide
      · dsimp only
        split
        · exact Decimal.positional_unmarked (by decide) _
        · exact Decimal.scientific_unmarked _

end Number

namespace Value

mutual

def isUnmarked : Value → Bool
  | null => true
  | bool _ => true
  | number _ => true
  | text t => decide t.Unmarked
  | array items => itemsUnmarked items
  | object entries => entriesUnmarked entries

def itemsUnmarked : List Value → Bool
  | [] => true
  | v :: rest => v.isUnmarked && itemsUnmarked rest

def entriesUnmarked : List (Text × Value) → Bool
  | [] => true
  | (key, v) :: rest => decide key.Unmarked && v.isUnmarked && entriesUnmarked rest

end

theorem itemsUnmarked_iff {items : List Value} :
    itemsUnmarked items = true ↔ ∀ v ∈ items, v.isUnmarked = true := by
  induction items with
  | nil => simp [itemsUnmarked]
  | cons v rest ih => rw [itemsUnmarked, Bool.and_eq_true, ih, List.forall_mem_cons]

theorem entriesUnmarked_get? {entries : Entries} (h : entriesUnmarked entries = true) {key : Text} {v : Value}
    (found : entries.get? key = some v) : v.isUnmarked = true := by
  induction entries with
  | nil => cases found
  | cons entry rest ih =>
      obtain ⟨own, value⟩ := entry
      rw [entriesUnmarked, Bool.and_eq_true, Bool.and_eq_true] at h
      rw [Entries.get?_cons] at found
      split at found
      · cases found
        exact h.1.2
      · exact ih h.2 found

theorem escape_unmarked {c : Char} (h : isMark c = false) : Text.Unmarked (Json.escape c) := by
  have digit : ∀ n < 16, isMark (Nat.digitChar n) = false := by decide
  unfold Json.escape
  split
  case h_8 =>
    split
    · rename_i control
      have high := digit (c.toNat / 16) (by omega)
      have low := digit (c.toNat % 16) (by omega)
      exact .append (by decide) (.cons high (.cons low .nil))
    · exact .cons h .nil
  all_goals decide

theorem quote_unmarked {t : Text} (h : t.Unmarked) : Text.Unmarked (Json.quote t) :=
  .append (.cons rfl (h.flatMap fun _ => escape_unmarked)) (.cons rfl .nil)

mutual

theorem write_unmarked : (v : Value) → v.isUnmarked = true → Text.Unmarked (Json.write v)
  | null, _ => by rw [Json.write]; decide
  | bool true, _ => by rw [Json.write]; decide
  | bool false, _ => by rw [Json.write]; decide
  | number n, _ => by
      rw [Json.write]
      exact n.documentText_unmarked
  | text t, h => by
      rw [Json.write]
      exact quote_unmarked (of_decide_eq_true h)
  | array items, h => by
      rw [Json.write]
      exact (Text.Unmarked.cons rfl (writeItems_unmarked items h)).append (.cons rfl .nil)
  | object entries, h => by
      rw [Json.write]
      exact (Text.Unmarked.cons rfl (writeEntries_unmarked entries h)).append (.cons rfl .nil)

theorem writeItems_unmarked : (items : List Value) → itemsUnmarked items = true → Text.Unmarked (Json.writeItems items)
  | [], _ => by
      rw [Json.writeItems]
      exact .nil
  | [v], h => by
      rw [itemsUnmarked, Bool.and_eq_true] at h
      rw [Json.writeItems]
      exact write_unmarked v h.1
  | v :: w :: rest, h => by
      rw [itemsUnmarked, Bool.and_eq_true] at h
      rw [Json.writeItems]
      · exact (write_unmarked v h.1).append (.cons rfl (writeItems_unmarked (w :: rest) h.2))
      · exact nofun

theorem writeEntries_unmarked : (entries : List (Text × Value)) → entriesUnmarked entries = true →
    Text.Unmarked (Json.writeEntries entries)
  | [], _ => by
      rw [Json.writeEntries]
      exact .nil
  | [(key, v)], h => by
      rw [entriesUnmarked, Bool.and_eq_true, Bool.and_eq_true] at h
      rw [Json.writeEntries]
      exact (quote_unmarked (of_decide_eq_true h.1.1)).append (.cons rfl (write_unmarked v h.1.2))
  | (key, v) :: w :: rest, h => by
      rw [entriesUnmarked, Bool.and_eq_true, Bool.and_eq_true] at h
      rw [Json.writeEntries]
      · exact ((quote_unmarked (of_decide_eq_true h.1.1)).append (.cons rfl (write_unmarked v h.1.2))).append
          (.cons rfl (writeEntries_unmarked (w :: rest) h.2))
      · exact nofun

end

theorem display_unmarked {v : Value} (h : v.isUnmarked = true) : Text.Unmarked (display (some v)) := by
  cases v with
  | null => exact .nil
  | bool b => cases b <;> decide
  | number n => exact n.plainText_unmarked
  | text t => exact of_decide_eq_true h
  | array items => exact write_unmarked _ h
  | object entries => exact write_unmarked _ h

theorem step?_unmarked {v w : Value} {segment : Text} (h : v.isUnmarked = true) (steps : v.step? segment = some w) :
    w.isUnmarked = true := by
  cases v with
  | object entries => exact entriesUnmarked_get? h steps
  | array items =>
      rw [step?] at steps
      split at steps
      · cases steps
        rfl
      · obtain ⟨i, -, found⟩ := Option.bind_eq_some_iff.mp steps
        exact itemsUnmarked_iff.mp h w (List.mem_of_getElem? found)
  | text t =>
      rw [step?] at steps
      split at steps
      · cases steps
        rfl
      · cases steps
  | _ => cases steps

end Value

end TextTemplate
