import TextTemplate.Command.Machine
import TextTemplate.Proofs.Block.Reading

namespace TextTemplate.Command

namespace Entry
variable {e new child : Entry} {name other : Text} {names above : List Text}

def HasDirectory (e : Entry) (names : List Text) : Prop := ∃ entries, e.follow? names = some (directory entries)

theorem follow?_cons (e : Entry) (name : Text) (names : List Text) :
    e.follow? (name :: names) = (e.child? name).bind fun child => child.follow? names := rfl

theorem HasDirectory.exists_child (h : e.HasDirectory (name :: names)) :
    ∃ child, e.child? name = some child ∧ child.HasDirectory names := by
  obtain ⟨entries, leads⟩ := h
  obtain ⟨child, here, rest⟩ := Option.bind_eq_some_iff.mp leads
  exact ⟨child, here, entries, rest⟩

theorem HasDirectory.of_child (here : e.child? name = some child) (h : child.HasDirectory names) :
    e.HasDirectory (name :: names) := by
  obtain ⟨entries, leads⟩ := h
  exact ⟨entries, by rw [follow?_cons, here, Option.bind_some, leads]⟩

theorem HasDirectory.of_append (h : e.HasDirectory (above ++ names)) : e.HasDirectory above := by
  induction above generalizing e with
  | nil =>
      cases e with
      | directory entries => exact ⟨entries, rfl⟩
      | file contents =>
          cases names with
          | nil => exact h
          | cons name names =>
              obtain ⟨child, here, -⟩ := h.exists_child
              cases here
  | cons first above ih =>
      obtain ⟨child, here, inside⟩ := h.exists_child
      exact .of_child here (ih inside)

theorem child?_replaced (entries : List (Text × Entry)) (name : Text) (child : Entry) (other : Text) :
    (directory (entries.map fun entry => if entry.1 = name then (name, child) else entry)).child? other =
      if other = name then ((directory entries).child? name).map fun _ => child
      else (directory entries).child? other := by
  induction entries with
  | nil => simp [child?]
  | cons entry entries ih =>
      simp only [child?, List.map_cons, List.find?_cons] at ih ⊢
      by_cases own : entry.1 = name
      · subst own
        by_cases same : other = entry.1
        · simp [same]
        · simpa [same, Ne.symm same] using ih
      · by_cases same : entry.1 = other
        · subst same
          simp [own]
        · simpa [own, same] using ih

theorem child?_added (entries : List (Text × Entry)) (name : Text) (child : Entry) (other : Text) :
    (directory (entries ++ [(name, child)])).child? other =
      ((directory entries).child? other).or (if name = other then some child else none) := by
  simp only [child?, List.find?_append]
  cases entries.find? fun entry => entry.1 = other with
  | some found => rfl
  | none => by_cases same : name = other <;> simp [same]

theorem any_eq_isSome (entries : List (Text × Entry)) (name : Text) :
    entries.any (fun entry => entry.1 = name) = ((directory entries).child? name).isSome := by
  rw [child?, Option.isSome_map, List.isSome_find?]

theorem child?_setChild (entries : List (Text × Entry)) (name : Text) (child : Entry) (other : Text) :
    ((directory entries).setChild name child).child? other =
      if other = name then some child else (directory entries).child? other := by
  rw [setChild, any_eq_isSome]
  cases held : (directory entries).child? name with
  | some old => rw [Option.isSome_some, if_pos rfl, child?_replaced, held, Option.map_some]
  | none =>
      rw [Option.isSome_none, if_neg Bool.false_ne_true, child?_added]
      by_cases same : other = name
      · subst same
        rw [held, if_pos rfl, Option.none_or]
      · rw [if_neg same, if_neg (Ne.symm same), Option.or_none]

theorem exists_setChild (entries : List (Text × Entry)) (name : Text) (child : Entry) :
    ∃ entries', (directory entries).setChild name child = directory entries' := by
  rw [setChild]
  split <;> exact ⟨_, rfl⟩

theorem HasDirectory.here (h : e.HasDirectory names) : e.HasDirectory [] :=
  of_append (show e.HasDirectory ([] ++ names) from h)

theorem HasDirectory.exists_entries (h : e.HasDirectory names) : ∃ entries, e = directory entries := by
  obtain ⟨entries, leads⟩ := h.here
  exact ⟨entries, Option.some.inj leads⟩

theorem HasDirectory.put (free : ¬ e.HasDirectory names) {kept : List Text} (h : e.HasDirectory kept) :
    (e.put names new).HasDirectory kept := by
  induction names generalizing e kept with
  | nil => exact absurd h.here free
  | cons name names ih =>
      obtain ⟨entries, rfl⟩ := h.exists_entries
      cases kept with
      | nil =>
          obtain ⟨entries', same⟩ := exists_setChild entries name _
          exact ⟨entries', congrArg some same⟩
      | cons first kept =>
          obtain ⟨child, here, inside⟩ := h.exists_child
          -- Only the entry on the way to the file is another one, and `free` goes on to hold inside it.
          by_cases same : first = name
          · subst same
            have changed :
                ((directory entries).put (first :: names) new).child? first = some (child.put names new) := by
              rw [put, child?_setChild, if_pos rfl, here, Option.getD_some]
            exact .of_child changed (ih (fun taken => free (.of_child here taken)) inside)
          · refine .of_child ?_ inside
            rw [put, child?_setChild, if_neg same, here]

theorem follow?_put (h : e.HasDirectory above) (name : Text) (new : Entry) :
    (e.put (above ++ [name]) new).follow? (above ++ [name]) = some new := by
  induction above generalizing e with
  | nil =>
      obtain ⟨entries, leads⟩ := h
      cases leads
      rw [List.nil_append, put, follow?_cons, child?_setChild, if_pos rfl, Option.bind_some]
      rfl
  | cons first above ih =>
      obtain ⟨entries, rfl⟩ := h.exists_entries
      obtain ⟨child, here, inside⟩ := h.exists_child
      rw [List.cons_append, put, follow?_cons, child?_setChild, if_pos rfl, Option.bind_some, here, Option.getD_some]
      exact ih inside

end Entry

namespace Machine
variable {root root' : Entry} {place place' : List Text} {names : List Text}

def next (place : List Text) (name : Text) : List Text :=
  if name = ['.'] then place else if name = "..".toList then place.tail else name :: place

theorem walk_cons_eq_ok_iff {name : Text} :
    walk root place (name :: names) = .ok place' ↔
      root.HasDirectory place.reverse ∧ walk root (next place name) names = .ok place' := by
  have step : (if name = ['.'] then walk root place names
      else if name = "..".toList then walk root place.tail names
      else walk root (name :: place) names) = walk root (next place name) names := by
    unfold next
    split
    · rfl
    · split <;> rfl
  rw [walk, step]
  cases here : root.follow? place.reverse with
  | none => simp [Entry.HasDirectory, here]
  | some entry => cases entry <;> simp [Entry.HasDirectory, here]

theorem next_place (h : root.HasDirectory place.reverse) (name : Text) :
    root.HasDirectory (next place name).reverse ∨ next place name = name :: place := by
  unfold next
  split
  · exact .inl h
  · split
    · refine .inl ?_
      cases place with
      | nil => exact h
      | cons first above =>
          rw [List.reverse_cons] at h
          exact h.of_append
    · exact .inr rfl

theorem walk_place (h : walk root place names = .ok place') (given : names ≠ []) :
    root.HasDirectory place'.reverse ∨ ∃ above name, place' = name :: above ∧ root.HasDirectory above.reverse := by
  induction names generalizing place with
  | nil => exact absurd rfl given
  | cons name rest ih =>
      obtain ⟨here, walked⟩ := walk_cons_eq_ok_iff.mp h
      cases rest with
      | nil =>
          cases walked
          exact (next_place here name).imp_right fun child => ⟨place, name, child, here⟩
      | cons second rest => exact ih walked (List.cons_ne_nil _ _)

theorem walk_of_kept (kept : ∀ names, root.HasDirectory names → root'.HasDirectory names)
    (h : walk root place names = .ok place') : walk root' place names = .ok place' := by
  induction names generalizing place with
  | nil => exact h
  | cons name rest ih =>
      obtain ⟨here, walked⟩ := walk_cons_eq_ok_iff.mp h
      exact walk_cons_eq_ok_iff.mpr ⟨kept _ here, ih walked⟩

theorem parts_of_file {path : Text} (file : path.getLast? ≠ some '/') :
    parts path = (path.splitOn '/').filter (· ≠ []) := by
  rw [parts, if_neg file, List.append_nil]

theorem slashes_of_empty {pieces : List Text} (empty : ∀ piece ∈ pieces, piece = []) :
    ∀ c ∈ ['/'].intercalate pieces, c = '/' := by
  induction pieces with
  | nil => nofun
  | cons piece pieces ih =>
      obtain ⟨rfl, others⟩ := List.forall_mem_cons.mp empty
      by_cases single : pieces = []
      · subst single
        rw [List.intercalate_singleton]
        nofun
      · rw [List.intercalate_cons_of_ne_nil single]
        exact List.forall_mem_cons.mpr ⟨rfl, ih others⟩

theorem exists_part {path : Text} (given : path ≠ []) (file : path.getLast? ≠ some '/') :
    (path.splitOn '/').filter (· ≠ []) ≠ [] := by
  intro none
  have empty : ∀ piece ∈ path.splitOn '/', piece = [] := by simpa [List.filter_eq_nil_iff] using none
  have slashes := slashes_of_empty empty
  rw [List.intercalate_splitOn] at slashes
  refine file ?_
  rw [List.getLast?_eq_some_getLast given, slashes _ (List.getLast_mem given)]

theorem writeText_eq_ok {s s' : Machine} {path t : Text} (h : s.writeText path t = .ok s') :
    path ≠ [] ∧ path.getLast? ≠ some '/' ∧
      ∃ place, walk s.root (s.origin path) ((path.splitOn '/').filter (· ≠ [])) = .ok place ∧
        ¬ s.root.HasDirectory place.reverse ∧ s' = { s with root := s.root.put place.reverse (.file t) } := by
  unfold writeText at h
  split at h
  · cases h
  · rename_i given
    obtain ⟨place, walked, h⟩ := Builder.bind_eq_ok.mp h
    split at h
    · cases h
    · rename_i file
      split at h
      · cases h
      · rename_i free
        cases h
        exact ⟨given, file, place, walked, fun ⟨entries, taken⟩ => free entries taken, rfl⟩

theorem readText_of_walk {s : Machine} {path t : Text} (given : path ≠ []) (file : path.getLast? ≠ some '/')
    (walked : walk s.root (s.origin path) ((path.splitOn '/').filter (· ≠ [])) = .ok place)
    (leads : s.root.follow? place.reverse = some (.file t)) : s.readText path = .ok t := by
  have found : s.locate path = .ok place.reverse := by
    rw [locate, if_neg given, parts_of_file file, walked]
    rfl
  simp only [readText, found, bind, Except.bind, leads]

theorem readText_writeText {s s' : Machine} {path t : Text} (h : s.writeText path t = .ok s') :
    s'.readText path = .ok t := by
  obtain ⟨given, file, place, walked, free, rfl⟩ := writeText_eq_ok h
  obtain taken | ⟨above, name, rfl, inside⟩ := walk_place walked (exists_part given file)
  · exact absurd taken free
  · have leads : (s.root.put (name :: above).reverse (.file t)).follow? (name :: above).reverse = some (.file t) := by
      rw [List.reverse_cons]
      exact Entry.follow?_put inside name _
    exact readText_of_walk given file (walk_of_kept (fun _ => Entry.HasDirectory.put free) walked) leads

def makeParent (s : Machine) (path : Text) : Except FileFault Machine :=
  match FilePath.parent? path with
  | some (c :: rest) => s.makeDirectories (c :: rest)
  | _ => .ok s

def store (s : Machine) (path t : Text) : Except FileFault Machine := do
  let s ← s.makeParent path
  s.writeText path t

theorem readText_store {s s' : Machine} {path t : Text} (h : s.store path t = .ok s') : s'.readText path = .ok t := by
  obtain ⟨made, -, written⟩ := Builder.bind_eq_ok.mp h
  exact readText_writeText written

section
variable (s : Machine) (errors path t : Text)

theorem writeText_errors : { s with errors := errors }.writeText path t =
    (s.writeText path t).map fun s' => { s' with errors := errors } := by
  unfold writeText
  split
  · rfl
  · change (walk s.root (s.origin path) _ >>= _) = _
    cases walk s.root (s.origin path) ((path.splitOn '/').filter (· ≠ [])) with
    | error fault => rfl
    | ok place =>
        simp only [bind, Except.bind]
        split
        · rfl
        · split <;> rfl

theorem makeParent_errors : { s with errors := errors }.makeParent path =
    (s.makeParent path).map fun s' => { s' with errors := errors } := by
  unfold makeParent
  split
  · rename_i c rest _
    unfold makeDirectories
    change (make s.root (s.origin _) _ >>= _) = _
    cases make s.root (s.origin (c :: rest)) (FilePath.names (c :: rest)) <;> rfl
  · rfl

theorem store_errors : { s with errors := errors }.store path t =
    (s.store path t).map fun s' => { s' with errors := errors } := by
  rw [store, store, makeParent_errors]
  cases s.makeParent path with
  | error fault => rfl
  | ok made => exact writeText_errors made errors path t

end

end Machine

end TextTemplate.Command
