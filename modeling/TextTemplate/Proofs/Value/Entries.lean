import TextTemplate.Value

namespace TextTemplate

namespace Text

theorem eq_of_order {t u : Text} (same : order t u = .eq) : t = u := by
  induction t generalizing u with
  | nil =>
      cases u with
      | nil => rfl
      | cons d u => cases same
  | cons c t ih =>
      cases u with
      | nil => cases same
      | cons d u =>
          rw [order] at same
          split at same
          · cases same
          · split at same
            · cases same
            · have first : c = d := Char.toNat_inj.mp (by omega)
              rw [first, ih same]

theorem order_eq_gt_iff {t u : Text} : order t u = .gt ↔ order u t = .lt := by
  rw [← order_swap t u]
  cases order t u <;> decide

theorem order_cons_eq_lt_iff {c d : Char} {t u : Text} :
    order (c :: t) (d :: u) = .lt ↔ c.toNat < d.toNat ∨ c.toNat = d.toNat ∧ order t u = .lt := by
  rw [order]
  split
  · rename_i less
    exact iff_of_true rfl (.inl less)
  · split
    · rename_i more
      refine iff_of_false (by decide) ?_
      rintro (less | ⟨same, -⟩) <;> omega
    · have same : c.toNat = d.toNat := by omega
      simp [same]

theorem order_trans {t u w : Text} (h : order t u = .lt) (h' : order u w = .lt) : order t w = .lt := by
  induction t generalizing u w with
  | nil =>
      cases u with
      | nil => cases h
      | cons d u =>
          cases w with
          | nil => cases h'
          | cons e w => rfl
  | cons c t ih =>
      cases u with
      | nil => cases h
      | cons d u =>
          cases w with
          | nil => cases h'
          | cons e w =>
              rw [order_cons_eq_lt_iff] at h h' ⊢
              rcases h with less | ⟨same, later⟩
              · rcases h' with less' | ⟨same', -⟩ <;> exact .inl (by omega)
              · rcases h' with less' | ⟨same', later'⟩
                · exact .inl (by omega)
                · exact .inr ⟨same.trans same', ih later later'⟩

end Text

namespace Entries

theorem get?_cons (entry : Text × Value) (rest : Entries) (key : Text) :
    get? (entry :: rest) key = if entry.1 = key then some entry.2 else get? rest key := by
  by_cases same : entry.1 = key <;> simp [get?, same]

theorem get?_eq_none {entries : Entries} {key : Text} (missing : key ∉ entries.keys) : get? entries key = none := by
  induction entries with
  | nil => rfl
  | cons entry rest ih =>
      rw [keys, List.map_cons, List.mem_cons, not_or] at missing
      rw [get?_cons, if_neg (Ne.symm missing.1), ih missing.2]

theorem get?_insert (key : Text) (value : Value) (entries : Entries) (other : Text) :
    (insert key value entries).get? other = if key = other then some value else entries.get? other := by
  induction entries with
  | nil => rw [insert, get?_cons]
  | cons entry rest ih =>
      rw [insert]
      split
      case h_1 => rw [get?_cons]
      case h_2 same =>
        have same := Text.eq_of_order same
        rw [get?_cons, get?_cons, ← same]
        split <;> rfl
      case h_3 after =>
        have differs : entry.1 ≠ key := by
          intro same
          rw [same, Text.order_self] at after
          cases after
        rw [get?_cons, ih, get?_cons]
        by_cases first : entry.1 = other
        · rw [if_pos first, if_neg (fun same => differs (first.trans same.symm)), if_pos first]
        · rw [if_neg first, if_neg first]

theorem get?_insertNew (key : Text) (value : Value) (entries : Entries) (other : Text) :
    (insertNew key value entries).get? other =
      if key = other then some ((entries.get? other).getD value) else entries.get? other := by
  rw [insertNew]
  by_cases same : key = other
  · subst same
    cases held : entries.get? key <;> simp [held, get?_insert]
  · cases held : entries.get? key <;> simp [same, get?_insert]

def Ascending (entries : Entries) : Prop := entries.Pairwise fun entry later => Text.order entry.1 later.1 = .lt

theorem mem_insert {key : Text} {value : Value} {entries : Entries} {entry : Text × Value}
    (member : entry ∈ insert key value entries) : entry = (key, value) ∨ entry ∈ entries := by
  induction entries with
  | nil => exact .inl (List.mem_singleton.mp member)
  | cons first rest ih =>
      rw [insert] at member
      split at member
      · exact List.mem_cons.mp member
      · exact (List.mem_cons.mp member).imp_right (List.mem_cons_of_mem _)
      · rcases List.mem_cons.mp member with rfl | later
        · exact .inr List.mem_cons_self
        · exact (ih later).imp_right (List.mem_cons_of_mem _)

theorem Ascending.insert {entries : Entries} (h : entries.Ascending) (key : Text) (value : Value) :
    (insert key value entries).Ascending := by
  induction entries with
  | nil => exact List.pairwise_singleton _ _
  | cons first rest ih =>
      obtain ⟨before, ascending⟩ := List.pairwise_cons.mp h
      rw [Entries.insert]
      split
      case h_1 less =>
        refine List.pairwise_cons.mpr ⟨List.forall_mem_cons.mpr ⟨less, fun later member => ?_⟩, h⟩
        exact Text.order_trans less (before later member)
      case h_2 same =>
        have same := Text.eq_of_order same
        exact List.pairwise_cons.mpr ⟨fun later member => same ▸ before later member, ascending⟩
      case h_3 more =>
        refine List.pairwise_cons.mpr ⟨fun later member => ?_, ih ascending⟩
        rcases mem_insert member with rfl | member
        · exact Text.order_eq_gt_iff.mp more
        · exact before later member

theorem ofList_ascending (pairs : List (Text × Value)) : (ofList pairs).Ascending := by
  have step (pairs : List (Text × Value)) : ∀ entries : Entries, entries.Ascending →
      Ascending (pairs.foldl (fun entries pair => insert pair.1 pair.2 entries) entries) := by
    induction pairs with
    | nil => exact fun _ h => h
    | cons pair rest ih => exact fun _ h => ih _ (h.insert pair.1 pair.2)
  exact step pairs [] List.Pairwise.nil

theorem Ascending.nodup {entries : Entries} (h : entries.Ascending) : entries.keys.Nodup := by
  refine List.pairwise_map.mpr (h.imp fun {entry later} less same => ?_)
  rw [same, Text.order_self] at less
  cases less

theorem insert_comm {key other : Text} (apart : key ≠ other) (value value' : Value) (entries : Entries) :
    insert other value' (insert key value entries) = insert key value (insert other value' entries) := by
  have ordered {key other : Text} (less : Text.order key other = .lt) (value value' : Value) (entries : Entries) :
      insert other value' (insert key value entries) = insert key value (insert other value' entries) := by
    have more := Text.order_eq_gt_iff.mpr less
    induction entries with
    | nil => simp [insert, less, more]
    | cons entry rest ih =>
        cases first : Text.order key entry.1 with
        | lt => cases second : Text.order other entry.1 <;> simp [insert, first, second, less, more]
        | eq =>
            have same := Text.eq_of_order first
            simp [insert, ← same, more, Text.order_self]
        | gt =>
            have second : Text.order other entry.1 = .gt :=
              Text.order_eq_gt_iff.mpr (Text.order_trans (Text.order_eq_gt_iff.mp first) less)
            simp [insert, first, second, ih]
  cases side : Text.order key other with
  | lt => exact ordered side value value' entries
  | eq => exact absurd (Text.eq_of_order side) apart
  | gt => exact (ordered (Text.order_eq_gt_iff.mp side) value' value entries).symm

theorem insertNew_of_held {key : Text} {value : Value} {entries : Entries} (held : entries.get? key ≠ none) :
    entries.insertNew key value = entries := by
  obtain ⟨own, held⟩ := Option.ne_none_iff_exists'.mp held
  rw [insertNew, held]

theorem insertNew_of_missing {key : Text} {value : Value} {entries : Entries} (missing : entries.get? key = none) :
    entries.insertNew key value = entries.insert key value := by
  rw [insertNew, missing]

theorem insertNew_comm {key other : Text} (apart : key ≠ other) (value value' : Value) (entries : Entries) :
    (entries.insertNew key value).insertNew other value' = (entries.insertNew other value').insertNew key value := by
  have behind : (entries.insert key value).get? other = entries.get? other := by rw [get?_insert, if_neg apart]
  have behind' : (entries.insert other value').get? key = entries.get? key := by
    rw [get?_insert, if_neg (Ne.symm apart)]
  by_cases held : entries.get? key = none <;> by_cases held' : entries.get? other = none
  · rw [insertNew_of_missing held, insertNew_of_missing held', insertNew_of_missing (behind.trans held'),
      insertNew_of_missing (behind'.trans held), insert_comm apart]
  · rw [insertNew_of_missing held, insertNew_of_held held', insertNew_of_held (behind ▸ held'),
      insertNew_of_missing held]
  · rw [insertNew_of_held held, insertNew_of_missing held', insertNew_of_held (behind' ▸ held)]
  · rw [insertNew_of_held held, insertNew_of_held held', insertNew_of_held held]

theorem get?_defaults (defaults : List (Text × Text)) (entries : Entries) (name : Text) :
    (defaults.foldl (fun entries (key, t) => entries.insertNew key (.text t)) entries).get? name =
      (entries.get? name).or ((defaults.find? fun default => default.1 = name).map fun default => .text default.2) := by
  induction defaults generalizing entries with
  | nil => simp
  | cons default rest ih =>
      rw [List.foldl_cons, ih, get?_insertNew]
      by_cases same : default.1 = name
      · cases entries.get? name <;> simp [same]
      · simp [same]

end Entries

end TextTemplate
