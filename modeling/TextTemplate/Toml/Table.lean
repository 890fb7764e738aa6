import TextTemplate.Value

namespace TextTemplate.Toml

inductive TableKind where
  | defined
  | implied
  | dotted
  deriving DecidableEq, Repr

inductive Item where
  | text (t : Text)
  | bool (b : Bool)
  | integer (i : Int)
  | float (x : Option Number.Binary64)
  | dateTime (t : Text)
  | array (items : List Item)
  | inline (entries : List (Text × Item))
  | table (kind : TableKind) (entries : List (Text × Item))
  | tables (latest : List (List (Text × Item)))

structure Table where
  kind : TableKind
  entries : List (Text × Item)

namespace Table

def get? (t : Table) (key : Text) : Option Item := (t.entries.find? fun entry => entry.1 = key).map Prod.snd

def setLast (t : Table) (key : Text) (item : Item) : Table :=
  { t with entries := t.entries.filter (fun entry => entry.1 ≠ key) ++ [(key, item)] }

def set (t : Table) (key : Text) (item : Item) : Table :=
  if (t.get? key).isSome then
    { t with entries := t.entries.map fun entry => if entry.1 = key then (key, item) else entry }
  else t.setLast key item

def modify (dotted : Bool) (change : Table → Option Table) : List Text → Table → Option Table
  | [], t => change t
  | key :: path, t =>
      match t.get? key with
      | none => do
          let child ← modify dotted change path ⟨if dotted then .dotted else .implied, []⟩
          return t.set key (.table child.kind child.entries)
      | some (.table kind entries) =>
          if dotted ∧ kind = .defined then none
          else do
            let child ← modify dotted change path ⟨kind, entries⟩
            return t.set key (.table child.kind child.entries)
      | some (.tables (last :: before)) => do
          let child ← modify dotted change path ⟨.defined, last⟩
          return t.set key (.tables (child.entries :: before))
      | some _ => none

def add (path : List Text) (key : Text) (item : Item) (t : Table) : Option Table :=
  modify true (fun t =>
    if path ≠ [] ∧ t.kind ≠ .dotted then none
    else if (t.get? key).isSome then none
    else some (t.set key item)) path t

def define (path : List Text) (key : Text) (t : Table) : Option Table :=
  modify false (fun t =>
    match t.get? key with
    | none => some (t.set key (.table .defined []))
    | some (.table .implied entries) => some (t.setLast key (.table .defined entries))
    | some _ => none) path t

def extend (path : List Text) (key : Text) (t : Table) : Option Table :=
  modify false (fun t =>
    match t.get? key with
    | none => some (t.set key (.tables [[]]))
    | some (.tables latest) => some (t.set key (.tables ([] :: latest)))
    | some _ => none) path t

end Table

namespace Item

def dateTimeKey : Text := "$__toml_private_datetime".toList

mutual

def toValue : Item → Value
  | text t => .text t
  | bool b => .bool b
  | integer i => .number (.int i)
  | float none => .null
  | float (some x) => if x.isInfinite then .null else .number (.float x)
  | dateTime t => .object [(dateTimeKey, .text t)]
  | array items => .array (valuesOf items)
  | inline entries => .object (Entries.ofList (pairsOf entries))
  | table _ entries => .object (Entries.ofList (pairsOf entries))
  | tables latest => .array (tablesOf latest).reverse

def valuesOf : List Item → List Value
  | [] => []
  | item :: rest => item.toValue :: valuesOf rest

def pairsOf : List (Text × Item) → List (Text × Value)
  | [] => []
  | (key, item) :: rest => (key, item.toValue) :: pairsOf rest

def tablesOf : List (List (Text × Item)) → List Value
  | [] => []
  | entries :: rest => .object (Entries.ofList (pairsOf entries)) :: tablesOf rest

end

end Item

def Table.toEntries (t : Table) : Entries := Entries.ofList (Item.pairsOf t.entries)

end TextTemplate.Toml
