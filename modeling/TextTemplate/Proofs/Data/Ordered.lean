import TextTemplate.Data.Document
import TextTemplate.Json.Fields
import TextTemplate.Proofs.Json.Literals
import TextTemplate.Proofs.Value.Entries

namespace TextTemplate

inductive Value.Ordered : Value → Prop
  | null : Ordered .null
  | bool (b : Bool) : Ordered (.bool b)
  | number (n : Number) : Ordered (.number n)
  | text (t : Text) : Ordered (.text t)
  | array {items : List Value} : (∀ item ∈ items, Ordered item) → Ordered (.array items)
  | object {entries : List (Text × Value)} : Entries.Ascending entries → (∀ entry ∈ entries, Ordered entry.2) →
      Ordered (.object entries)

theorem Entries.mem_ofList {pairs : List (Text × Value)} {entry : Text × Value} (member : entry ∈ ofList pairs) :
    entry ∈ pairs := by
  have step (pairs : List (Text × Value)) : ∀ entries : Entries,
      entry ∈ pairs.foldl (fun entries pair => insert pair.1 pair.2 entries) entries →
        entry ∈ pairs ∨ entry ∈ entries := by
    induction pairs with
    | nil => exact fun _ => .inr
    | cons pair rest ih =>
        intro entries member
        rcases ih _ member with later | earlier
        · exact .inl (List.mem_cons_of_mem _ later)
        · rcases mem_insert earlier with rfl | held
          · exact .inl List.mem_cons_self
          · exact .inr held
  exact (step pairs [] member).resolve_right List.not_mem_nil

theorem Value.Ordered.of_pairs {pairs : List (Text × Value)} (h : ∀ pair ∈ pairs, pair.2.Ordered) :
    (Value.object (Entries.ofList pairs)).Ordered :=
  .object (Entries.ofList_ascending pairs) fun _ member => h _ (Entries.mem_ofList member)

namespace Json

structure Ordering (limit : Nat) : Prop where
  value : ∀ {depth t v rest}, readValue depth limit t = some (v, rest) → v.Ordered
  items : ∀ {depth t items rest}, readItems depth limit t = some (items, rest) → ∀ item ∈ items, item.Ordered
  pairs : ∀ {depth t pairs rest}, readPairs depth limit t = some (pairs, rest) → ∀ pair ∈ pairs, pair.2.Ordered

namespace Ordering
variable {limit depth : Nat} {t rest : Text}

theorem readValue_succ (ordering : Ordering limit) {v : Value} (h : readValue depth (limit + 1) t = some (v, rest)) :
    v.Ordered := by
  cases reads_of_readValue h with
  | text _ _ => exact .text _
  | emptyArray _ _ => exact .array (List.forall_mem_nil _)
  | array _ read => exact .array (ordering.items read)
  | emptyObject _ _ => exact .object List.Pairwise.nil (List.forall_mem_nil _)
  | object _ read => exact .of_pairs (ordering.pairs read)
  | null _ => exact .null
  | true _ => exact .bool true
  | false _ => exact .bool false
  | number _ => exact .number _

theorem readItems_succ (ordering : Ordering limit) {items : List Value}
    (h : readItems depth (limit + 1) t = some (items, rest)) : ∀ item ∈ items, item.Ordered := by
  obtain ⟨v, others, behind, read, rfl, more⟩ := readItems_cases h
  refine List.forall_mem_cons.mpr ⟨ordering.value read, ?_⟩
  obtain ⟨next, -, read'⟩ | ⟨-, rfl⟩ := more
  · exact ordering.items read'
  · exact List.forall_mem_nil _

theorem readPairs_succ (ordering : Ordering limit) {pairs : List (Text × Value)}
    (h : readPairs depth (limit + 1) t = some (pairs, rest)) : ∀ pair ∈ pairs, pair.2.Ordered := by
  obtain ⟨key, v, others, inside, behind, -, read, rfl, more⟩ := readPairs_cases h
  refine List.forall_mem_cons.mpr ⟨ordering.value read, ?_⟩
  obtain ⟨next, -, read'⟩ | ⟨-, rfl⟩ := more
  · exact ordering.pairs read'
  · exact List.forall_mem_nil _

end Ordering

theorem ordering (limit : Nat) : Ordering limit := by
  induction limit with
  | zero => exact ⟨nofun, nofun, nofun⟩
  | succ limit ih => exact ⟨ih.readValue_succ, ih.readItems_succ, ih.readPairs_succ⟩

theorem read?_ordered {t : Text} {v : Value} (h : read? t = some v) : v.Ordered := by
  obtain ⟨_, read, ends⟩ := Option.bind_eq_some_iff.mp h
  dsimp only at ends
  split at ends
  · cases ends
    exact (ordering _).value read
  · cases ends

section
variable {wanted : List Text} {t rest : Text} {fields : List (Text × Value)}

theorem readField_ordered {key : Text} {found : Option Value} (h : readField wanted key t = some (found, rest)) :
    ∀ v ∈ found, v.Ordered := by
  unfold readField at h
  dsimp only at h
  split at h
  · obtain ⟨_, read, ends⟩ := Option.map_eq_some_iff.mp h
    cases ends
    rintro _ ⟨⟩
    exact (ordering _).value read
  · obtain ⟨_, -, ends⟩ := Option.map_eq_some_iff.mp h
    cases ends
    exact nofun

theorem readFields_ordered {limit : Nat} (h : readFields wanted limit t = some (fields, rest)) :
    ∀ field ∈ fields, field.2.Ordered := by
  induction limit generalizing t fields with
  | zero => cases h
  | succ limit ih =>
      unfold readFields at h
      obtain ⟨⟨key, _⟩, -, h⟩ := Option.bind_eq_some_iff.mp h
      obtain ⟨⟨found, _⟩, read, more⟩ := Option.bind_eq_some_iff.mp h
      have own : ∀ field ∈ found.toList.map fun v => (key, v), field.2.Ordered := by
        intro field member
        obtain ⟨v, held, rfl⟩ := List.mem_map.mp member
        exact readField_ordered read v (Option.mem_toList.mp held)
      dsimp only at more
      split at more
      · obtain ⟨_, read', ends⟩ := Option.bind_eq_some_iff.mp more
        cases ends
        exact List.forall_mem_append.mpr ⟨own, ih read'⟩
      · cases more
        exact own
      · cases more

theorem readFields?_ordered (h : readFields? wanted t = some fields) : ∀ field ∈ fields, field.2.Ordered := by
  obtain ⟨_, -, h⟩ := Option.bind_eq_some_iff.mp h
  dsimp only at h
  split at h
  · dsimp only [bind, Option.bind] at h
    split at h
    · cases h
      exact List.forall_mem_nil _
    · cases h
  · obtain ⟨_, read, ends⟩ := Option.bind_eq_some_iff.mp h
    split at ends
    · cases ends
      exact readFields_ordered read
    · cases ends

theorem readRecord?_ordered (h : readRecord? wanted t = some fields) : ∀ field ∈ fields, field.2.Ordered := by
  unfold readRecord? at h
  split at h
  · rename_i read
    split at h
    · cases h
    · cases h
      exact readFields?_ordered read
  · rename_i read
    split at h
    · cases h
      intro field member
      cases read?_ordered read with
      | array ordered => exact ordered _ (List.of_mem_zip member).2
    · cases h
  · cases h

end

end Json

namespace Toml

mutual

theorem Item.toValue_ordered : (item : Item) → item.toValue.Ordered
  | .text t => .text t
  | .bool b => .bool b
  | .integer i => .number (.int i)
  | .float none => .null
  | .float (some x) => by
      rw [toValue]
      split
      · exact .null
      · exact .number _
  | .dateTime t => .object (List.pairwise_singleton _ _) (List.forall_mem_singleton.mpr (.text t))
  | .array items => .array (valuesOf_ordered items)
  | .inline entries => .of_pairs (pairsOf_ordered entries)
  | .table _ entries => .of_pairs (pairsOf_ordered entries)
  | .tables latest => .array fun _ member => tablesOf_ordered latest _ (List.mem_reverse.mp member)

theorem Item.valuesOf_ordered : (items : List Item) → ∀ v ∈ valuesOf items, v.Ordered
  | [] => List.forall_mem_nil _
  | item :: rest => List.forall_mem_cons.mpr ⟨item.toValue_ordered, valuesOf_ordered rest⟩

theorem Item.pairsOf_ordered : (entries : List (Text × Item)) → ∀ pair ∈ pairsOf entries, pair.2.Ordered
  | [] => List.forall_mem_nil _
  | (_, item) :: rest => List.forall_mem_cons.mpr ⟨item.toValue_ordered, pairsOf_ordered rest⟩

theorem Item.tablesOf_ordered : (latest : List (List (Text × Item))) → ∀ v ∈ tablesOf latest, v.Ordered
  | [] => List.forall_mem_nil _
  | entries :: rest => List.forall_mem_cons.mpr ⟨.of_pairs (pairsOf_ordered entries), tablesOf_ordered rest⟩

end

theorem Table.toEntries_ordered (table : Table) : (Value.object table.toEntries).Ordered :=
  .of_pairs (Item.pairsOf_ordered table.entries)

end Toml

theorem readDocument_ordered {format : DataFormat} {t : Text} {v : Value} (h : readDocument format t = .ok v) :
    v.Ordered := by
  unfold readDocument at h
  split at h
  · split at h
    · cases h
    · rename_i read
      cases h
      exact Json.read?_ordered read
    · cases h
  · split at h
    · cases h
    · rename_i table _
      cases h
      exact table.toEntries_ordered

end TextTemplate
