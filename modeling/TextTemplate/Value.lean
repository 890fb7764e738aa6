import TextTemplate.Number

namespace TextTemplate

inductive Value where
  | null
  | bool (b : Bool)
  | number (n : Number)
  | text (t : Text)
  | array (items : List Value)
  | object (entries : List (Text × Value))
  deriving Repr

abbrev Entries := List (Text × Value)

namespace Entries

def get? (entries : Entries) (key : Text) : Option Value :=
  (entries.find? fun entry => entry.1 = key).map Prod.snd

def insert (key : Text) (value : Value) : Entries → Entries
  | [] => [(key, value)]
  | entry :: rest =>
      match Text.order key entry.1 with
      | .lt => (key, value) :: entry :: rest
      | .eq => (key, value) :: rest
      | .gt => entry :: insert key value rest

def insertNew (key : Text) (value : Value) (entries : Entries) : Entries :=
  match entries.get? key with
  | some _ => entries
  | none => entries.insert key value

def ofList (pairs : List (Text × Value)) : Entries :=
  pairs.foldl (fun entries pair => insert pair.1 pair.2 entries) []

def keys (entries : Entries) : List Text := entries.map Prod.fst

end Entries

namespace Value

mutual

/-- Equality of structure; an integer never equals a floating-point number here. -/
def same : Value → Value → Bool
  | null, null => true
  | bool a, bool b => a = b
  | number (.int i), number (.int j) => i = j
  | number (.float x), number (.float y) => x.same y
  | text t, text u => t = u
  | array xs, array ys => sameItems xs ys
  | object xs, object ys => sameEntries xs ys
  | _, _ => false

def sameItems : List Value → List Value → Bool
  | [], [] => true
  | x :: xs, y :: ys => same x y && sameItems xs ys
  | _, _ => false

def sameEntries : List (Text × Value) → List (Text × Value) → Bool
  | [], [] => true
  | (k, x) :: xs, (l, y) :: ys => k = l && same x y && sameEntries xs ys
  | _, _ => false

end

mutual

def identical : Value → Value → Bool
  | null, null => true
  | bool a, bool b => a = b
  | number n, number m => n = m
  | text t, text u => t = u
  | array xs, array ys => identicalItems xs ys
  | object xs, object ys => identicalEntries xs ys
  | _, _ => false

def identicalItems : List Value → List Value → Bool
  | [], [] => true
  | x :: xs, y :: ys => identical x y && identicalItems xs ys
  | _, _ => false

def identicalEntries : List (Text × Value) → List (Text × Value) → Bool
  | [], [] => true
  | (k, x) :: xs, (l, y) :: ys => k = l && identical x y && identicalEntries xs ys
  | _, _ => false

end

mutual

theorem identical_iff : (v w : Value) → identical v w = true ↔ v = w
  | null, w => by cases w <;> simp [identical]
  | bool a, w => by cases w <;> simp [identical]
  | number n, w => by cases w <;> simp [identical]
  | text t, w => by cases w <;> simp [identical]
  | array xs, w => by cases w <;> simp [identical, identicalItems_iff xs]
  | object xs, w => by cases w <;> simp [identical, identicalEntries_iff xs]

theorem identicalItems_iff : (xs ys : List Value) → identicalItems xs ys = true ↔ xs = ys
  | [], ys => by cases ys <;> simp [identicalItems]
  | x :: xs, ys => by cases ys <;> simp [identicalItems, identical_iff x, identicalItems_iff xs]

theorem identicalEntries_iff : (xs ys : List (Text × Value)) → identicalEntries xs ys = true ↔ xs = ys
  | [], ys => by cases ys <;> simp [identicalEntries]
  | (k, x) :: xs, ys => by
      rcases ys with _ | ⟨⟨l, y⟩, ys⟩ <;> simp [identicalEntries, identical_iff x, identicalEntries_iff xs]

end

instance : DecidableEq Value := fun v w => decidable_of_iff _ (identical_iff v w)

def isObject : Value → Bool
  | object _ => true
  | _ => false

def kindName : Value → String
  | null => "null"
  | bool _ => "a boolean"
  | number _ => "a number"
  | text _ => "a string"
  | array _ => "an array"
  | object _ => "an object"

def ofNat (n : Nat) : Value := number (.int n)

end Value

end TextTemplate
