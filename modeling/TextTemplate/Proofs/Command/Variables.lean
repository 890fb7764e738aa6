import Mathlib.Data.List.Induction
import Mathlib.Data.List.TakeWhile
import TextTemplate.Command.Config
import TextTemplate.Proofs.Block.Reading
import TextTemplate.Proofs.Context.History
import TextTemplate.Proofs.Data.Ordered

namespace TextTemplate

/-! ## Lists of defaults -/

def firstFor (defaults : List (Text × Text)) (name : Text) : Option Text :=
  (defaults.find? fun default => default.1 = name).map Prod.snd

theorem firstFor_cons (default : Text × Text) (rest : List (Text × Text)) (name : Text) :
    firstFor (default :: rest) name = if default.1 = name then some default.2 else firstFor rest name := by
  by_cases same : default.1 = name <;> simp [firstFor, same]

theorem firstFor_append (front back : List (Text × Text)) (name : Text) :
    firstFor (front ++ back) name = (firstFor front name).or (firstFor back name) := by
  simp only [firstFor, List.find?_append]
  cases front.find? fun default => default.1 = name <;> rfl

theorem firstFor_eq_none_iff {defaults : List (Text × Text)} {name : Text} :
    firstFor defaults name = none ↔ name ∉ defaults.map Prod.fst := by
  induction defaults with
  | nil => simp [firstFor]
  | cons default rest ih =>
      by_cases same : default.1 = name
      · simp [firstFor_cons, same]
      · simp [firstFor_cons, same, Ne.symm same, ih]

theorem firstFor_eq_some_iff {defaults : List (Text × Text)} (distinct : (defaults.map Prod.fst).Nodup)
    {name t : Text} : firstFor defaults name = some t ↔ (name, t) ∈ defaults := by
  induction defaults with
  | nil => simp [firstFor]
  | cons default rest ih =>
      obtain ⟨own, text⟩ := default
      obtain ⟨apart, distinct⟩ := List.nodup_cons.mp distinct
      rw [firstFor_cons, List.mem_cons]
      by_cases same : own = name
      · subst same
        have missing : (own, t) ∉ rest := fun member => apart (List.mem_map.mpr ⟨_, member, rfl⟩)
        simp [missing, eq_comm]
      · simp [same, Ne.symm same, ih distinct]

theorem firstFor_perm {defaults others : List (Text × Text)} (distinct : (defaults.map Prod.fst).Nodup)
    (perm : others.Perm defaults) (name : Text) : firstFor others name = firstFor defaults name := by
  have distinct' : (others.map Prod.fst).Nodup := (perm.map Prod.fst).nodup_iff.mpr distinct
  ext t
  rw [firstFor_eq_some_iff distinct', firstFor_eq_some_iff distinct, perm.mem_iff]

theorem exists_firstFor {defaults : List (Text × Text)} {name t : Text} (h : firstFor defaults name = some t) :
    ∃ front back, defaults = front ++ (name, t) :: back ∧ firstFor front name = none := by
  induction defaults with
  | nil => cases h
  | cons default rest ih =>
      obtain ⟨own, text⟩ := default
      rw [firstFor_cons] at h
      by_cases same : own = name
      · rw [if_pos same] at h
        cases h
        exact ⟨[], rest, by rw [← same]; rfl, rfl⟩
      · rw [if_neg same] at h
        obtain ⟨front, back, rfl, missing⟩ := ih h
        exact ⟨(own, text) :: front, back, rfl, by rw [firstFor_cons, if_neg same, missing]⟩

namespace Entries

def withDefaults (defaults : List (Text × Text)) (entries : Entries) : Entries :=
  defaults.foldl (fun entries (name, t) => entries.insertNew name (.text t)) entries

theorem root_withDefaults (defaults : List (Text × Text)) (entries : Entries) :
    Template.root defaults (.object entries) = .ok (entries.withDefaults defaults) := rfl

theorem withDefaults_cons (default : Text × Text) (rest : List (Text × Text)) (entries : Entries) :
    entries.withDefaults (default :: rest) = (entries.insertNew default.1 (.text default.2)).withDefaults rest := rfl

theorem get?_withDefaults (defaults : List (Text × Text)) (entries : Entries) (name : Text) :
    (entries.withDefaults defaults).get? name = (entries.get? name).or ((firstFor defaults name).map .text) := by
  rw [withDefaults, get?_defaults, firstFor, Option.map_map]
  rfl

theorem withDefaults_of_held {defaults : List (Text × Text)} {entries : Entries}
    (held : ∀ name, entries.get? name = none → firstFor defaults name = none) :
    entries.withDefaults defaults = entries := by
  induction defaults with
  | nil => rfl
  | cons default rest ih =>
      have own : entries.get? default.1 ≠ none := by
        intro missing
        have held := held default.1 missing
        rw [firstFor_cons, if_pos rfl] at held
        cases held
      rw [withDefaults_cons, insertNew_of_held own]
      refine ih fun name missing => ?_
      have held := held name missing
      rw [firstFor_cons] at held
      split at held
      · cases held
      · exact held

theorem withDefaults_middle {front : List (Text × Text)} {default : Text × Text}
    (first : firstFor front default.1 = none) (back : List (Text × Text)) (entries : Entries) :
    entries.withDefaults (front ++ default :: back) = entries.withDefaults (default :: (front ++ back)) := by
  induction front generalizing entries with
  | nil => rfl
  | cons other front ih =>
      rw [firstFor_cons] at first
      split at first
      · cases first
      · rename_i apart
        rw [List.cons_append, withDefaults_cons, ih first, withDefaults_cons, withDefaults_cons, insertNew_comm apart]
        rfl

theorem withDefaults_congr {defaults others : List (Text × Text)} {entries : Entries}
    (same : ∀ name, entries.get? name = none → firstFor defaults name = firstFor others name) :
    entries.withDefaults defaults = entries.withDefaults others := by
  induction defaults generalizing others entries with
  | nil => exact (withDefaults_of_held fun name missing => (same name missing).symm).symm
  | cons default rest ih =>
      obtain ⟨own, t⟩ := default
      by_cases held : entries.get? own = none
      · have first := (same own held).symm
        rw [firstFor_cons, if_pos rfl] at first
        obtain ⟨front, back, rfl, before⟩ := exists_firstFor first
        rw [withDefaults_middle before, withDefaults_cons, withDefaults_cons]
        refine ih fun name missing => ?_
        rw [get?_insertNew] at missing
        split at missing
        · cases missing
        · rename_i apart
          have same := same name missing
          rwa [firstFor_cons, if_neg apart, firstFor_append, firstFor_cons, if_neg apart, ← firstFor_append] at same
      · rw [withDefaults_cons, insertNew_of_held held]
        refine ih fun name missing => ?_
        have apart : own ≠ name := by
          rintro rfl
          exact held missing
        have same := same name missing
        rwa [firstFor_cons, if_neg apart] at same

end Entries

/-! ## Definitions -/

namespace Text

def Defines (t name value : Text) : Prop :=
  ∃ written, t = written ++ '=' :: value ∧ '=' ∉ written ∧ written.trim = name ∧ isIdentifier name = true

theorem definition?_append {written : Text} (apart : '=' ∉ written) (value : Text) :
    definition? (written ++ '=' :: value) =
      if isIdentifier written.trim then some (written.trim, value) else none := by
  have passed : ∀ c ∈ written, decide (c ≠ '=') = true := by
    intro c member
    rw [decide_eq_true_iff]
    rintro rfl
    exact apart member
  rw [definition?, List.dropWhile_append_of_pos passed, List.takeWhile_append_of_pos passed]
  simp

theorem definition?_eq_some_iff {t name value : Text} : definition? t = some (name, value) ↔ t.Defines name value := by
  constructor
  · intro h
    by_cases equals : '=' ∈ t
    · obtain ⟨written, value', rfl, apart⟩ := List.eq_append_cons_of_mem equals
      rw [definition?_append apart] at h
      split at h
      · rename_i valid
        cases h
        exact ⟨written, rfl, apart, rfl, valid⟩
      · cases h
    · have none : t.dropWhile (· ≠ '=') = [] := by
        rw [List.dropWhile_eq_nil_iff]
        intro c member
        rw [decide_eq_true_iff]
        rintro rfl
        exact equals member
      rw [definition?, none] at h
      cases h
  · rintro ⟨written, rfl, apart, rfl, valid⟩
    rw [definition?_append apart, if_pos valid]

theorem Defines.unique {t name value name' value' : Text} (h : t.Defines name value) (h' : t.Defines name' value') :
    name = name' ∧ value = value' := by
  have same := (definition?_eq_some_iff.mpr h).symm.trans (definition?_eq_some_iff.mpr h')
  cases same
  exact ⟨rfl, rfl⟩

def IsDefinition (t : Text) : Prop := ∃ name value, t.Defines name value

theorem definition?_eq_none_iff {t : Text} : definition? t = none ↔ ¬ t.IsDefinition := by
  rw [Option.eq_none_iff_forall_ne_some]
  simp only [IsDefinition, not_exists, Prod.forall, ne_eq, definition?_eq_some_iff]

end Text

namespace Command.Config

def LastDefines (defines : List Text) (name value : Text) : Prop :=
  ∃ before define after, defines = before ++ define :: after ∧ define.Defines name value ∧
    ∀ later ∈ after, ∀ other, ¬ later.Defines name other

/-- What definitions and settings give a name: the value of the last definition, else that of the setting. -/
inductive Gives (settings : List (Text × Text)) (defines : List Text) (name : Text) : Option Text → Prop
  | defined {t : Text} : LastDefines defines name t → Gives settings defines name (some t)
  | configured {t : Text} : (∀ define ∈ defines, ∀ t, ¬ define.Defines name t) → (name, t) ∈ settings →
      Gives settings defines name (some t)
  | nothing : (∀ define ∈ defines, ∀ t, ¬ define.Defines name t) → name ∉ settings.map Prod.fst →
      Gives settings defines name none

theorem definitions_of_all {defines : List Text} (all : ∀ define ∈ defines, define.IsDefinition) :
    definitions defines = .ok (defines.filterMap Text.definition?).reverse := by
  induction defines with
  | nil => rfl
  | cons define rest ih =>
      obtain ⟨⟨name, value, defines⟩, others⟩ := List.forall_mem_cons.mp all
      have read := Text.definition?_eq_some_iff.mpr defines
      rw [definitions, read, ih others, List.filterMap_cons_some read, List.reverse_cons]
      rfl

theorem definitions_of_refused {before after : List Text} {define : Text}
    (all : ∀ define ∈ before, define.IsDefinition) (refused : ¬ define.IsDefinition) :
    definitions (before ++ define :: after) = .error (.format (.definition define)) := by
  induction before with
  | nil => rw [List.nil_append, definitions, Text.definition?_eq_none_iff.mpr refused]
  | cons first before ih =>
      obtain ⟨⟨name, value, defines⟩, others⟩ := List.forall_mem_cons.mp all
      rw [List.cons_append, definitions, Text.definition?_eq_some_iff.mpr defines, ih others]
      rfl

theorem exists_first_refused {defines : List Text} (h : ∃ define ∈ defines, ¬ define.IsDefinition) :
    ∃ before define after, defines = before ++ define :: after ∧ (∀ earlier ∈ before, earlier.IsDefinition) ∧
      ¬ define.IsDefinition := by
  induction defines with
  | nil => simp at h
  | cons first rest ih =>
      by_cases own : first.IsDefinition
      · obtain ⟨define, member, refused⟩ := h
        rcases List.mem_cons.mp member with rfl | later
        · exact absurd own refused
        · obtain ⟨before, define, after, rfl, all, refused⟩ := ih ⟨define, later, refused⟩
          exact ⟨first :: before, define, after, rfl, List.forall_mem_cons.mpr ⟨own, all⟩, refused⟩
      · exact ⟨[], first, rest, rfl, List.forall_mem_nil _, own⟩

theorem firstFor_definitions (defines : List Text) (name : Text) :
    (firstFor (defines.filterMap Text.definition?).reverse name = none ∧
      ∀ define ∈ defines, ∀ t, ¬ define.Defines name t) ∨
    ∃ t, firstFor (defines.filterMap Text.definition?).reverse name = some t ∧ LastDefines defines name t := by
  induction defines using List.reverseRecOn with
  | nil => exact .inl ⟨rfl, List.forall_mem_nil _⟩
  | append_singleton defines define ih =>
      have split : ((defines ++ [define]).filterMap Text.definition?).reverse =
          (Text.definition? define).toList ++ (defines.filterMap Text.definition?).reverse := by
        rw [List.filterMap_append, List.reverse_append]
        cases read : Text.definition? define <;> simp [read]
      rw [split, firstFor_append]
      by_cases own : ∃ t, define.Defines name t
      · obtain ⟨t, own⟩ := own
        refine .inr ⟨t, ?_, defines, define, [], rfl, own, List.forall_mem_nil _⟩
        rw [Text.definition?_eq_some_iff.mpr own]
        simp [firstFor]
      · rw [not_exists] at own
        have skipped : firstFor (Text.definition? define).toList name = none := by
          rw [firstFor_eq_none_iff]
          intro member
          obtain ⟨⟨name', t⟩, read, rfl⟩ := List.mem_map.mp member
          exact own t (Text.definition?_eq_some_iff.mp (Option.mem_toList.mp read))
        rw [skipped, Option.none_or]
        rcases ih with ⟨none, undefined⟩ | ⟨t, first, before, last, after, rfl, defines, later⟩
        · refine .inl ⟨none, List.forall_mem_append.mpr ⟨undefined, List.forall_mem_singleton.mpr own⟩⟩
        · refine .inr ⟨t, first, before, last, after ++ [define], by simp, defines, ?_⟩
          exact List.forall_mem_append.mpr ⟨later, List.forall_mem_singleton.mpr own⟩

section
variable {settings : List (Text × Text)} {defines : List Text}

theorem exists_gives (distinct : (settings.map Prod.fst).Nodup) (defines : List Text) (name : Text) :
    Gives settings defines name
      ((firstFor (defines.filterMap Text.definition?).reverse name).or (firstFor settings name)) := by
  rcases firstFor_definitions defines name with ⟨none, undefined⟩ | ⟨t, first, last⟩
  · rw [none, Option.none_or]
    cases setting : firstFor settings name with
    | none => exact .nothing undefined (firstFor_eq_none_iff.mp setting)
    | some t => exact .configured undefined ((firstFor_eq_some_iff distinct).mp setting)
  · rw [first]
    exact .defined last

theorem LastDefines.mem {name t : Text} (h : LastDefines defines name t) :
    ∃ define ∈ defines, define.Defines name t := by
  obtain ⟨before, define, after, rfl, own, -⟩ := h
  exact ⟨define, by simp, own⟩

theorem LastDefines.unique {name t t' : Text} (h : LastDefines defines name t) (h' : LastDefines defines name t') :
    t = t' := by
  obtain ⟨before, define, after, rfl, own, later⟩ := h
  obtain ⟨before', define', after', split, own', later'⟩ := h'
  rcases List.append_eq_append_iff.mp split with ⟨more, rfl, behind⟩ | ⟨more, rfl, behind⟩
  · cases more with
    | nil =>
        obtain ⟨rfl, -⟩ := List.cons.inj behind
        exact (own.unique own').2
    | cons first more =>
        obtain ⟨rfl, rfl⟩ := List.cons.inj behind
        exact absurd own' (later define' (by simp) t')
  · cases more with
    | nil =>
        obtain ⟨rfl, -⟩ := List.cons.inj behind
        exact (own.unique own').2
    | cons first more =>
        obtain ⟨rfl, rfl⟩ := List.cons.inj behind
        exact absurd own (later' define (by simp) t)

theorem Gives.unique (distinct : (settings.map Prod.fst).Nodup) {name : Text} {given given' : Option Text}
    (h : Gives settings defines name given) (h' : Gives settings defines name given') : given = given' := by
  cases h with
  | defined last =>
      obtain ⟨define, member, own⟩ := last.mem
      cases h' with
      | defined last' => rw [last.unique last']
      | configured undefined _ => exact absurd own (undefined define member _)
      | nothing undefined _ => exact absurd own (undefined define member _)
  | configured undefined setting =>
      cases h' with
      | defined last =>
          obtain ⟨define, member, own⟩ := last.mem
          exact absurd own (undefined define member _)
      | configured _ setting' =>
          have same := (firstFor_eq_some_iff distinct).mpr setting
          exact same.symm.trans ((firstFor_eq_some_iff distinct).mpr setting')
      | nothing _ missing => exact absurd (List.mem_map.mpr ⟨_, setting, rfl⟩) missing
  | nothing undefined missing =>
      cases h' with
      | defined last =>
          obtain ⟨define, member, own⟩ := last.mem
          exact absurd own (undefined define member _)
      | configured _ setting => exact absurd (List.mem_map.mpr ⟨_, setting, rfl⟩) missing
      | nothing _ _ => rfl

theorem options_of_all (config : Config) (strict : Bool) (all : ∀ define ∈ defines, define.IsDefinition) :
    config.options strict defines = .ok ⟨strict || config.strict.getD false,
      (defines.filterMap Text.definition?).reverse ++ config.defaults.getD []⟩ := by
  rw [options, definitions_of_all all]
  rfl

theorem withDefaults_given (distinct : (settings.map Prod.fst).Nodup) {given : List (Text × Text)}
    (distinct' : (given.map Prod.fst).Nodup)
    (same : ∀ name t, (name, t) ∈ given ↔ Gives settings defines name (some t)) (entries : Entries) :
    entries.withDefaults given =
      entries.withDefaults ((defines.filterMap Text.definition?).reverse ++ settings) := by
  refine Entries.withDefaults_congr fun name _ => ?_
  have gives := exists_gives distinct defines name
  rw [← firstFor_append] at gives
  cases first : firstFor ((defines.filterMap Text.definition?).reverse ++ settings) name with
  | some t =>
      rw [first] at gives
      exact (firstFor_eq_some_iff distinct').mpr ((same name t).mpr gives)
  | none =>
      rw [first] at gives
      rw [firstFor_eq_none_iff]
      intro member
      obtain ⟨⟨own, t⟩, held, rfl⟩ := List.mem_map.mp member
      cases ((same own t).mp held).unique distinct gives

end

/-! ## Configuration files -/

theorem keys_of_texts {entries : List (Text × Value)} {texts : List (Text × Text)}
    (h : texts? (.object entries) = some texts) : texts.map Prod.fst = entries.map Prod.fst := by
  induction entries generalizing texts with
  | nil =>
      cases h
      rfl
  | cons entry rest ih =>
      rw [texts?, List.mapM_cons] at h
      obtain ⟨_, own, h⟩ := Option.bind_eq_some_iff.mp h
      obtain ⟨others, more, ends⟩ := Option.bind_eq_some_iff.mp h
      obtain ⟨_, -, rfl⟩ := Option.map_eq_some_iff.mp own
      cases ends
      rw [List.map_cons, List.map_cons, ih more]

theorem texts?_distinct {v : Value} {texts : List (Text × Text)} (ordered : v.Ordered) (h : texts? v = some texts) :
    (texts.map Prod.fst).Nodup := by
  cases ordered with
  | object ascending _ => exact keys_of_texts h ▸ ascending.nodup
  | _ => cases h

theorem ofFields?_distinct {nullable : Bool} {field : Text → Option Value} {config : Config}
    (ordered : ∀ name, ∀ v ∈ field name, v.Ordered) (h : ofFields? nullable field = some config) :
    ((config.defaults.getD []).map Prod.fst).Nodup := by
  obtain ⟨_, -, h⟩ := Option.bind_eq_some_iff.mp h
  obtain ⟨_, -, h⟩ := Option.bind_eq_some_iff.mp h
  obtain ⟨defaults, given, h⟩ := Option.bind_eq_some_iff.mp h
  obtain ⟨_, -, h⟩ := Option.bind_eq_some_iff.mp h
  obtain ⟨_, -, h⟩ := Option.bind_eq_some_iff.mp h
  cases h
  unfold field? at given
  split at given
  · cases given
    exact List.nodup_nil
  · split at given
    · cases given
      exact List.nodup_nil
    · cases given
  · rename_i v _ held
    obtain ⟨texts, reads, rfl⟩ := Option.map_eq_some_iff.mp given
    exact texts?_distinct (ordered _ v held) reads

theorem ordered_of_fields {fields : List (Text × Value)} (ordered : ∀ field ∈ fields, field.2.Ordered) (name : Text) :
    ∀ v ∈ Entries.get? fields name, v.Ordered := by
  intro v held
  obtain ⟨field, found, rfl⟩ := Option.map_eq_some_iff.mp held
  exact ordered field (List.mem_of_find?_eq_some found)

/-- A configuration that is read gives each variable once, whatever the file repeats. -/
theorem read_distinct {path contents : Text} {config : Config} (h : read path contents = .ok config) :
    ((config.defaults.getD []).map Prod.fst).Nodup := by
  unfold read at h
  split at h
  · split at h
    · rename_i made
      cases h
      obtain ⟨fields, read, made⟩ := Option.bind_eq_some_iff.mp made
      exact ofFields?_distinct (ordered_of_fields (Json.readRecord?_ordered read)) made
    · cases h
  · split at h
    · split at h
      · rename_i made
        cases h
        obtain ⟨table, -, made⟩ := Option.bind_eq_some_iff.mp made
        cases table.toEntries_ordered with
        | object _ ordered => exact ofFields?_distinct (ordered_of_fields ordered) made
      · cases h
    · cases h

/--
Options are made exactly if every definition is a name, an equals sign and a value, and the first one that is none is
the error. Then a name at the root stands for the entry of the data if there is one, else for the value of its last
definition, else for the variable of the configuration. This mapping is the same whatever the order in which the
variables of the configuration, or all variables that were given, are gone through.
-/
theorem variables_precedence (config : Config) (strict : Bool) (defines : List Text) (data : Entries)
    (distinct : ((config.defaults.getD []).map Prod.fst).Nodup) :
    ((∃ define ∈ defines, ¬ define.IsDefinition) →
      ∃ before define after, defines = before ++ define :: after ∧ (∀ earlier ∈ before, earlier.IsDefinition) ∧
        ¬ define.IsDefinition ∧ config.options strict defines = .error (.format (.definition define))) ∧
    ((∀ define ∈ defines, define.IsDefinition) →
      ∃ options root, config.options strict defines = .ok options ∧
        Template.root options.defaults (.object data) = .ok root ∧
        (∀ name, ∃ given, Gives (config.defaults.getD []) defines name given ∧
          (Template.start root).context.get? name = (data.get? name).or (given.map .text)) ∧
        (∀ given, (given.map Prod.fst).Nodup →
          (∀ name t, (name, t) ∈ given ↔ Gives (config.defaults.getD []) defines name (some t)) →
          Template.root given (.object data) = .ok root) ∧
        ∀ settings, settings.Perm (config.defaults.getD []) →
          ∃ options', { config with defaults := some settings }.options strict defines = .ok options' ∧
            Template.root options'.defaults (.object data) = .ok root) := by
  constructor
  · intro refused
    obtain ⟨before, define, after, rfl, all, refused⟩ := exists_first_refused refused
    refine ⟨before, define, after, rfl, all, refused, ?_⟩
    rw [options, definitions_of_refused all refused]
    rfl
  · intro all
    refine ⟨_, _, options_of_all config strict all, rfl, fun name => ?_, fun given distinct' same => ?_,
      fun settings perm => ⟨_, options_of_all _ strict all, ?_⟩⟩
    · refine ⟨_, exists_gives distinct defines name, ?_⟩
      rw [← firstFor_append]
      exact Entries.get?_withDefaults _ data name
    · rw [Entries.root_withDefaults, withDefaults_given distinct distinct' same]
      rfl
    · rw [Entries.root_withDefaults]
      refine congrArg Except.ok (Entries.withDefaults_congr fun name _ => ?_)
      simp only [Option.getD_some, firstFor_append, firstFor_perm distinct perm]

def production : Config :=
  ⟨none, none, some [("env".toList, "prod".toList), ("who".toList, "all".toList), ("note".toList, "n".toList)], none,
    none⟩

def repeated : List Text := [" who =x=y".toList, "env=dev".toList, "who=Ada".toList]

def unnamed : List Text := ["who=Ada".toList, "2nd=x".toList]

theorem variables_precedence_production :
    ((production.defaults.getD []).map Prod.fst).Nodup ∧
    ((∃ define ∈ unnamed, ¬ define.IsDefinition) ∧
      ∃ define, ¬ define.IsDefinition ∧
        production.options true unnamed = .error (.format (.definition define))) ∧
    (∀ define ∈ repeated, define.IsDefinition) ∧
    ∃ options root, production.options true repeated = .ok options ∧
      Template.root options.defaults (.object [("env".toList, .null)]) = .ok root ∧
      root = [("env".toList, .null), ("note".toList, .text "n".toList), ("who".toList, .text "Ada".toList)] ∧
      ∀ name, ∃ given,
        Gives (production.defaults.getD []) repeated name given ∧
        (Template.start root).context.get? name =
          (Entries.get? [("env".toList, .null)] name).or (given.map .text) := by
  have distinct : ((production.defaults.getD []).map Prod.fst).Nodup := by decide
  have refused : ∃ define ∈ unnamed, ¬ define.IsDefinition :=
    ⟨"2nd=x".toList, by decide, Text.definition?_eq_none_iff.mp rfl⟩
  have all : ∀ define ∈ repeated, define.IsDefinition := by
    simp only [repeated, List.forall_mem_cons]
    refine ⟨⟨_, _, Text.definition?_eq_some_iff.mp rfl⟩, ⟨_, _, Text.definition?_eq_some_iff.mp rfl⟩,
      ⟨_, _, Text.definition?_eq_some_iff.mp rfl⟩, List.forall_mem_nil _⟩
  obtain ⟨_, define, _, _, _, none, fails⟩ := (variables_precedence production true _ [] distinct).1 refused
  obtain ⟨options, root, made, rooted, stands, -⟩ :=
    (variables_precedence production true _ [("env".toList, .null)] distinct).2 all
  refine ⟨distinct, ⟨refused, define, none, fails⟩, all, options, root, made, rooted, ?_, stands⟩
  cases made
  cases rooted
  rfl

end Command.Config

end TextTemplate
