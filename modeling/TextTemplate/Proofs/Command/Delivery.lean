import TextTemplate.Command.Render
import TextTemplate.Proofs.Command.Files
import TextTemplate.Proofs.Json.Record

namespace TextTemplate

/-! ## Results in their JSON form -/

namespace RenderResult

def entries (r : RenderResult) : List (Text × Value) :=
  ("success".toList, .bool r.success) ::
    ((r.output.map fun t => ("output".toList, .text t)).toList ++
      (r.error.map fun t => ("error".toList, .text t)).toList)

theorem fields_text (name : Text) (t : Option Text) :
    Json.Fields (t.map fun t => (name, Json.quote t)).toList (t.map fun t => (name, Value.text t)).toList := by
  cases t with
  | none => exact .nil
  | some t => exact .cons ⟨rfl, Json.reads_quote t⟩ .nil

theorem keys_sublist (r : RenderResult) : (r.entries.map Prod.fst).Sublist fieldNames := by
  obtain ⟨success, output, error⟩ := r
  cases output with
  | none =>
      cases error with
      | none => exact (by decide : ["success".toList].Sublist fieldNames)
      | some _ => exact (by decide : ["success".toList, "error".toList].Sublist fieldNames)
  | some _ =>
      cases error with
      | none => exact (by decide : ["success".toList, "output".toList].Sublist fieldNames)
      | some _ => exact .refl _

theorem ofJson?_toJson (r : RenderResult) {blanks : Text} (blank : ∀ c ∈ blanks, Json.isBlank c = true) :
    ofJson? (r.toJson ++ blanks) = some r := by
  have known : ∀ entry ∈ r.entries, entry.1 ∈ fieldNames :=
    fun entry member => r.keys_sublist.mem (List.mem_map_of_mem member)
  have distinct : (r.entries.map Prod.fst).Nodup := r.keys_sublist.nodup (by decide)
  have read : Json.readRecord? fieldNames (r.toJson ++ blanks) = some r.entries :=
    Json.readRecord?_spread (.cons ⟨rfl, Json.reads_bool _⟩ (List.rel_append (fields_text _ _) (fields_text _ _)))
      known distinct blank
  rw [ofJson?, read]
  obtain ⟨success, output, error⟩ := r
  cases output <;> cases error <;> rfl

/-- A result tells what a render has come to: its output, or the message of its error. -/
structure Mirrors (r : RenderResult) (rendered : Except TemplateError Rendered) : Prop where
  ok_iff : ∀ output, r.toExcept = .ok output ↔ ∃ done, rendered = .ok done ∧ done.output = output
  error_iff : ∀ message, r.toExcept = .error message ↔ ∃ e, rendered = .error e ∧ e.message.toList = message

end RenderResult

namespace Command

/-! ## Actions on a machine -/

namespace Machine
variable {α β : Type} {s s' s'' : Machine}

def perform (s : Machine) (action : Action (StateM Machine) α) : Except TemplateError α × Machine := action.run s

theorem perform_bind (s : Machine) (action : Action (StateM Machine) α) (next : α → Action (StateM Machine) β) :
    s.perform (action >>= next) =
      match s.perform action with
      | (.ok a, s') => s'.perform (next a)
      | (.error e, s') => (.error e, s') := by
  simp only [perform, bind, ExceptT.bind, ExceptT.mk, ExceptT.run, StateT.bind, ExceptT.bindCont]
  rcases action s with ⟨_ | _, _⟩ <;> rfl

theorem perform_bind_of_ok {action : Action (StateM Machine) α} {a : α} (h : s.perform action = (.ok a, s'))
    (next : α → Action (StateM Machine) β) : s.perform (action >>= next) = s'.perform (next a) := by
  rw [perform_bind, h]

theorem perform_bind_of_error {action : Action (StateM Machine) α} {e : TemplateError}
    (h : s.perform action = (.error e, s')) (next : α → Action (StateM Machine) β) :
    s.perform (action >>= next) = (.error e, s') := by
  rw [perform_bind, h]

theorem perform_ofExcept (s : Machine) (outcome : Except TemplateError α) :
    s.perform (MonadExcept.ofExcept outcome) = (outcome, s) := by
  cases outcome <;> rfl

theorem perform_onFile {onFault : FileFault → TemplateError} {step : StateM Machine (Except FileFault α)} {a : α}
    (h : step s = (.ok a, s')) : s.perform (onFile onFault step) = (.ok a, s') := by
  change ((step s).1.mapError onFault, (step s).2) = _
  rw [h]
  rfl

theorem perform_lift {step : StateM Machine α} {a : α} (h : step s = (a, s')) :
    s.perform (ExceptT.lift step) = (.ok a, s') := by
  change (Except.ok (step s).1, (step s).2) = _
  rw [h]

def Quiet (s s' : Machine) : Prop := ∃ errors, s' = { s with errors := errors }

theorem Quiet.refl (s : Machine) : Quiet s s := ⟨s.errors, rfl⟩

theorem Quiet.trans (h : Quiet s s') (h' : Quiet s' s'') : Quiet s s'' := by
  obtain ⟨_, rfl⟩ := h
  obtain ⟨errors, rfl⟩ := h'
  exact ⟨errors, rfl⟩

theorem quiet_log (s : Machine) (level : LogLevel) (message : Text) :
    Quiet s ((Host.log level message : StateM Machine Unit) s).2 := by
  change Quiet s
    (if level = .warning ∨ 0 < s.verbosity then { s with errors := s.errors ++ logLine level message } else s)
  split
  · exact ⟨_, rfl⟩
  · exact .refl s

theorem perform_log (s : Machine) (level : LogLevel) (message : Text) :
    ∃ s', s.perform (ExceptT.lift (Host.log level message)) = (.ok (), s') ∧ Quiet s s' :=
  ⟨_, perform_lift rfl, quiet_log s level message⟩

theorem quiet_logs (s : Machine) (lines : List String) :
    Quiet s ((lines.forM fun line => Host.log .warning line.toList : StateM Machine Unit) s).2 := by
  induction lines generalizing s with
  | nil => exact .refl s
  | cons line lines ih => exact (quiet_log s .warning line.toList).trans (ih _)

def Tells (action : Action (StateM Machine) Unit) : Prop := ∀ s, ∃ s', s.perform action = (.ok (), s') ∧ Quiet s s'

theorem tells_sayError (line : String) : Tells (sayError line) := fun _ => ⟨_, rfl, _, rfl⟩

theorem Tells.then {action next : Action (StateM Machine) Unit} (h : Tells action) (h' : Tells next) :
    Tells (do action; next) := by
  intro s
  obtain ⟨s', told, quiet⟩ := h s
  obtain ⟨s'', told', quiet'⟩ := h' s'
  exact ⟨s'', (perform_bind_of_ok told _).trans told', quiet.trans quiet'⟩

theorem tells_showStats (stats : Stats) : Tells (showStats stats) := by
  unfold showStats
  iterate 8 refine .then (tells_sayError _) ?_
  split
  · exact tells_sayError _
  · exact fun s => ⟨s, rfl, .refl s⟩

/-- The data at a path is that of the document that stands there; without a path it is empty. -/
def Loadable (s : Machine) (source : Option Text) (data : Value) : Prop :=
  match source with
  | none => data = .object []
  | some path => ∃ contents, s.readText path = .ok contents ∧ readDocument (.ofPath path) contents = .ok data

theorem perform_loadData {source : Option Text} {data : Value} (loadable : s.Loadable source data) :
    ∃ s', s.perform (loadData source) = (.ok data, s') ∧ Quiet s s' := by
  cases source with
  | none =>
      cases loadable
      exact ⟨s, rfl, .refl s⟩
  | some path =>
      obtain ⟨contents, found, read⟩ := loadable
      have opened : s.perform (onFile (.unreadable ("Data file ".toList ++ path)) (Host.readText path)) =
          (.ok contents, s) := perform_onFile (congrArg (·, s) found)
      obtain ⟨s', told, quiet⟩ := perform_log s .info ("Loaded data from ".toList ++ path)
      refine ⟨s', ?_, quiet⟩
      rw [loadData, perform_bind_of_ok opened, perform_bind_of_ok told, perform_ofExcept, read]

theorem renderLogged_quiet (s : Machine) (options : Options) (template : Text) (data : Value) :
    ∃ s', (renderLogged options template data : StateM Machine _) s = (renderWithOptions options template data, s') ∧
      Quiet s s' := by
  unfold renderLogged renderWithOptions
  cases Template.parse options.strict template with
  | error e => exact ⟨s, rfl, .refl s⟩
  | ok parsed =>
      refine ⟨_, rfl, ?_⟩
      exact quiet_logs s _

def Writable (s : Machine) (destination : Option Text) : Prop :=
  ∀ path ∈ destination, ∀ text, ∃ stored, s.store path text = .ok stored

/-- A text was written to a destination: it can be read from the file, or stands at the end of the output. -/
def Delivered (s : Machine) (destination : Option Text) (text : Text) (s' : Machine) : Prop :=
  match destination with
  | some path => s'.readText path = .ok text ∧ ∃ stored, s.store path text = .ok stored ∧ s'.root = stored.root
  | none => s'.root = s.root ∧ s'.output = s.output ++ text

theorem Delivered.quiet {destination : Option Text} {text : Text} (h : Delivered s destination text s')
    (quiet : Quiet s' s'') : Delivered s destination text s'' := by
  obtain ⟨errors, rfl⟩ := quiet
  cases destination with
  | none => exact h
  | some path => exact h

theorem change_of_ok {f : Machine → Except FileFault Machine} (h : f s = .ok s') : change f s = (.ok (), s') := by
  rw [change, h]

theorem perform_writeOutput {path text : Text} (h : s.store path text = .ok s') (template : Text) :
    ∃ output, s.perform (writeOutput template path text) = (.ok (), { s' with output := output }) := by
  obtain ⟨made, parent, written⟩ := Builder.bind_eq_ok.mp h
  have wrote : made.perform (onFile .file (Host.writeText path text)) = (.ok (), s') :=
    perform_onFile (change_of_ok written)
  refine ⟨_, Eq.trans ?_ (perform_bind_of_ok wrote fun _ =>
    say ("✅ Rendered " ++ String.ofList template ++ " -> " ++ String.ofList path))⟩
  unfold makeParent at parent
  unfold writeOutput
  rcases above : FilePath.parent? path with _ | _ | ⟨c, rest⟩
  · rw [above] at parent
    cases parent
    rfl
  · rw [above] at parent
    cases parent
    rfl
  · rw [above] at parent
    exact perform_bind_of_ok (perform_onFile (change_of_ok parent)) _

def written (destination : Option Text) (format : OutputFormat) (text : Text) : Text :=
  if destination = none ∧ format = .json then text ++ ['\n'] else text

theorem written_text (destination : Option Text) (text : Text) : written destination .text text = text :=
  if_neg (by simp)

theorem written_json (destination : Option Text) (text : Text) :
    ∃ blanks, (∀ c ∈ blanks, Json.isBlank c = true) ∧ written destination .json text = text ++ blanks := by
  cases destination with
  | none => exact ⟨['\n'], List.forall_mem_singleton.mpr rfl, if_pos ⟨rfl, rfl⟩⟩
  | some path => exact ⟨[], List.forall_mem_nil _, by simp [written]⟩

theorem perform_deliver {destination : Option Text} (quiet : Quiet s s') (h : s.Writable destination)
    (template : Text) (format : OutputFormat) (text : Text) :
    ∃ s'', s'.perform (deliver template format text destination) = (.ok (), s'') ∧
      Delivered s destination (written destination format text) s'' := by
  obtain ⟨errors, rfl⟩ := quiet
  cases destination with
  | none =>
      refine ⟨_, rfl, rfl, ?_⟩
      simp [written]
  | some path =>
      obtain ⟨stored, kept⟩ := h path rfl text
      have told : { s with errors := errors }.store path text = .ok { stored with errors := errors } := by
        rw [store_errors, kept]
        rfl
      obtain ⟨output, wrote⟩ := perform_writeOutput told template
      refine ⟨_, wrote, ?_⟩
      simp only [written, reduceCtorEq, false_and, if_false]
      have found : stored.readText path = .ok text := readText_store kept
      exact ⟨found, stored, kept, rfl⟩

end Machine

/-! ## The render command -/

section
open Machine
variable {s : Machine} {a : RenderArguments} {options : Options} {template : Text} {data : Value}
  {source destination : Option Text}

def closing (a : RenderArguments) (stats : Stats) : Action (StateM Machine) Unit :=
  if a.showStats then do
    showStats stats
    sayError "   Render time: 0µs"
  else pure ()

theorem tells_closing (a : RenderArguments) (stats : Stats) : Tells (closing a stats) := by
  unfold closing
  split
  · exact (tells_showStats stats).then (tells_sayError _)
  · exact fun s => ⟨s, rfl, .refl s⟩

theorem perform_renderOnce (options : Options) (destination : Option Text)
    (readable : s.readText a.template = .ok template)
    (loadable : s.Loadable source data) :
    ∃ s', Quiet s s' ∧
      s.perform (renderOnce a options source destination) =
        s'.perform (do
          let outcome ← MonadExcept.ofExcept (Outcome.of a.format (renderWithOptions options template data))
          deliver a.template a.format outcome.text destination
          match outcome.failure with
          | some e => throw e
          | none => closing a outcome.stats) := by
  have read : s.perform (readTemplate a.template) = (.ok template, s) := perform_onFile (congrArg (·, s) readable)
  obtain ⟨s₁, loaded, quiet⟩ := perform_loadData loadable
  obtain ⟨s₂, logged, quiet'⟩ := renderLogged_quiet s₁ options template data
  have rendered : s₁.perform (ExceptT.lift (renderLogged options template data)) =
      (.ok (renderWithOptions options template data), s₂) := perform_lift logged
  -- The clock of a machine stands still.
  have timed (s : Machine) : s.perform (ExceptT.lift Host.clock) = (.ok 0, s) := rfl
  unfold renderOnce
  rw [perform_bind_of_ok read, perform_bind_of_ok loaded, perform_bind_of_ok (timed _), perform_bind_of_ok rendered,
    perform_bind_of_ok (timed _)]
  exact ⟨s₂, quiet.trans quiet', rfl⟩

theorem perform_refused (readable : s.readText a.template = .ok template)
    (loadable : s.Loadable source data) (plain : a.format = .text) {e : TemplateError}
    (failed : renderWithOptions options template data = .error e) :
    ∃ s', Quiet s s' ∧ s.perform (renderOnce a options source destination) = (.error e, s') := by
  obtain ⟨s', quiet, run⟩ := perform_renderOnce options destination readable loadable
  refine ⟨s', quiet, run.trans (perform_bind_of_error ?_ _)⟩
  rw [perform_ofExcept, plain, failed]
  rfl

theorem perform_delivered (readable : s.readText a.template = .ok template)
    (loadable : s.Loadable source data) (writable : s.Writable destination) {outcome : Outcome}
    (given : Outcome.of a.format (renderWithOptions options template data) = .ok outcome) :
    ∃ s', Delivered s destination (written destination a.format outcome.text) s' ∧
      s.perform (renderOnce a options source destination) = ((outcome.failure.elim (.ok ()) .error), s') := by
  obtain ⟨s₁, quiet, run⟩ := perform_renderOnce options destination readable loadable
  obtain ⟨s₂, wrote, delivered⟩ := perform_deliver quiet writable a.template a.format outcome.text
  have made : s₁.perform (MonadExcept.ofExcept (Outcome.of a.format (renderWithOptions options template data))) =
      (.ok outcome, s₁) := by
    rw [perform_ofExcept, given]
  rw [run, perform_bind_of_ok made, perform_bind_of_ok wrote]
  cases outcome.failure with
  | some e => exact ⟨s₂, delivered, rfl⟩
  | none =>
      obtain ⟨s₃, told, quiet'⟩ := tells_closing a outcome.stats s₂
      exact ⟨s₃, delivered.quiet quiet', told⟩

def resultOf : Except TemplateError Rendered → RenderResult
  | .ok rendered => .ok rendered.output
  | .error e => .failed e

theorem resultOf_mirrors (rendered : Except TemplateError Rendered) : (resultOf rendered).Mirrors rendered := by
  cases rendered with
  | ok done => constructor <;> simp [resultOf, RenderResult.ok, RenderResult.toExcept]
  | error e => constructor <;> simp [resultOf, RenderResult.failed, RenderResult.toExcept]

theorem outcome_json (rendered : Except TemplateError Rendered) :
    ∃ outcome, Outcome.of .json rendered = .ok outcome ∧ outcome.text = (resultOf rendered).toJson ∧
      outcome.failure.elim (.ok ()) .error = rendered.map fun _ => () := by
  cases rendered <;> exact ⟨_, rfl, rfl, rfl⟩

theorem perform_text (readable : s.readText a.template = .ok template)
    (loadable : s.Loadable source data) (writable : s.Writable destination)
    (plain : a.format = .text) {done : Rendered} (rendered : renderWithOptions options template data = .ok done) :
    ∃ s', s.perform (renderOnce a options source destination) = (.ok (), s') ∧
      Delivered s destination done.output s' := by
  have given : Outcome.of a.format (renderWithOptions options template data) =
      .ok ⟨done.output, done.stats, none⟩ := by
    rw [plain, rendered]
    rfl
  obtain ⟨s', delivered, ends⟩ := perform_delivered readable loadable writable given
  rw [plain, written_text] at delivered
  exact ⟨s', ends, delivered⟩

theorem perform_json (readable : s.readText a.template = .ok template)
    (loadable : s.Loadable source data) (writable : s.Writable destination)
    (json : a.format = .json) :
    ∃ s' text, s.perform (renderOnce a options source destination) =
        ((renderWithOptions options template data).map fun _ => (), s') ∧
      Delivered s destination text s' ∧
      RenderResult.ofJson? text = some (resultOf (renderWithOptions options template data)) := by
  obtain ⟨outcome, given, text, failure⟩ := outcome_json (renderWithOptions options template data)
  rw [← json] at given
  obtain ⟨s', delivered, ends⟩ := perform_delivered readable loadable writable given
  obtain ⟨blanks, blank, whole⟩ := written_json destination outcome.text
  rw [json, whole, text] at delivered
  rw [failure] at ends
  exact ⟨s', _, ends, delivered, RenderResult.ofJson?_toJson _ blank⟩

/--
A run of the command fails exactly if the render does, with its error. As JSON, the text that was written is read back as a
result that tells what the render has come to. As plain text the output is written as it is, and if the render fails,
then nothing is written, wherever it should have gone.
-/
theorem runRender_mirrors {config : Config} (accepted : config.options a.strict a.defines = .ok options)
    (readable : s.readText a.template = .ok template)
    (loadable : s.Loadable (a.data.or config.dataFile) data) :
    (a.format = .text → ∀ e, renderWithOptions options template data = .error e →
      ∃ s', s.perform (runRender config a) = (.error e, s') ∧ Quiet s s') ∧
    (s.Writable (outputPath config a) →
      ∃ s', s.perform (runRender config a) = ((renderWithOptions options template data).map fun _ => (), s') ∧
        (a.format = .text → ∀ rendered, renderWithOptions options template data = .ok rendered →
          Delivered s (outputPath config a) rendered.output s') ∧
        (a.format = .json → ∃ text result, Delivered s (outputPath config a) text s' ∧
          RenderResult.ofJson? text = some result ∧ result.Mirrors (renderWithOptions options template data))) := by
  have run : s.perform (runRender config a) =
      s.perform (renderOnce a options (a.data.or config.dataFile) (outputPath config a)) := by
    have made : s.perform (MonadExcept.ofExcept (config.options a.strict a.defines)) = (.ok options, s) := by
      rw [perform_ofExcept, accepted]
    exact perform_bind_of_ok made _
  rw [run]
  constructor
  · intro plain e failed
    obtain ⟨s', quiet, refused⟩ := perform_refused readable loadable plain failed
    exact ⟨s', refused, quiet⟩
  · intro writable
    cases format : a.format with
    | text =>
        cases rendered : renderWithOptions options template data with
        | error e =>
            obtain ⟨s', -, refused⟩ := perform_refused readable loadable format rendered
            exact ⟨s', refused, nofun, nofun⟩
        | ok done =>
            obtain ⟨s', ends, delivered⟩ := perform_text readable loadable writable format rendered
            refine ⟨s', ends, fun _ done' same => ?_, nofun⟩
            cases same
            exact delivered
    | json =>
        obtain ⟨s', text, ends, delivered, read⟩ := perform_json readable loadable writable format
        exact ⟨s', ends, nofun, fun _ => ⟨text, _, delivered, read, resultOf_mirrors _⟩⟩

end

def stocked : Machine :=
  ⟨.directory
    [("t".toList, .file "$\x7bname\x7d".toList), ("u".toList, .file "</if>".toList),
      ("d".toList, .file "\x7b\"name\": \"Tom\"\x7d".toList)],
    [], [], [], 0⟩

def stockedData : Value := .object [("name".toList, .text "Tom".toList)]

def intoFile (template : String) (format : OutputFormat) : RenderArguments :=
  ⟨template.toList, some "d".toList, [], some "out/r".toList, true, false, format, false⟩

theorem runRender_mirrors_stocked :
    Config.empty.options true [] = .ok .strictly ∧ stocked.readText "t".toList = .ok "$\x7bname\x7d".toList ∧
    stocked.readText "u".toList = .ok "</if>".toList ∧ stocked.Loadable (some "d".toList) stockedData ∧
    stocked.Writable (some "out/r".toList) ∧
    (∃ s, stocked.perform (runRender .empty (intoFile "t" .text)) = (.ok (), s) ∧
      s.readText "out/r".toList = .ok "Tom".toList) ∧
    (∃ s text result, stocked.perform (runRender .empty (intoFile "t" .json)) = (.ok (), s) ∧
      s.readText "out/r".toList = .ok text ∧ RenderResult.ofJson? text = some result ∧
      result.toExcept = .ok "Tom".toList) ∧
    ∃ e, renderWithOptions .strictly "</if>".toList stockedData = .error e ∧
      ∃ s, stocked.perform (runRender .empty (intoFile "u" .text)) = (.error e, s) ∧ stocked.Quiet s := by
  have accepted : Config.empty.options true [] = .ok .strictly := rfl
  have readable : stocked.readText "t".toList = .ok "$\x7bname\x7d".toList := rfl
  have readable' : stocked.readText "u".toList = .ok "</if>".toList := rfl
  have read : readDocument (.ofPath "d".toList) "\x7b\"name\": \"Tom\"\x7d".toList = .ok stockedData := by
    have document : Json.read? (ShellLiteral.clean "\x7b\"name\": \"Tom\"\x7d".toList) = some stockedData := by
      decide +kernel
    rw [show DataFormat.ofPath "d".toList = .json from rfl, readDocument, document]
    rfl
  have loadable : stocked.Loadable (some "d".toList) stockedData := ⟨_, rfl, read⟩
  have writable : stocked.Writable (some "out/r".toList) := by
    intro path here text
    cases here
    exact ⟨_, rfl⟩
  have parsed : Template.parse true "$\x7bname\x7d".toList = .ok ⟨[.interpolation "name".toList 1], [], 7⟩ := rfl
  obtain ⟨done, rendered, output⟩ :
      ∃ done, renderWithOptions .strictly "$\x7bname\x7d".toList stockedData = .ok done ∧ done.output = "Tom".toList := by
    rw [renderWithOptions, show Options.strictly.strict = true from rfl, parsed]
    exact ⟨_, rfl, rfl⟩
  obtain ⟨e, failed⟩ : ∃ e, renderWithOptions .strictly "</if>".toList stockedData = .error e := ⟨_, rfl⟩
  refine ⟨accepted, readable, readable', loadable, writable, ?_, ?_, e, failed, ?_⟩
  · obtain ⟨s, run, wrote, -⟩ := (runRender_mirrors (a := intoFile "t" .text) accepted readable loadable).2 writable
    rw [rendered] at run
    have delivered := (wrote rfl done rendered).1
    rw [output] at delivered
    exact ⟨s, run, delivered⟩
  · obtain ⟨s, run, -, wrote⟩ := (runRender_mirrors (a := intoFile "t" .json) accepted readable loadable).2 writable
    rw [rendered] at run
    obtain ⟨text, result, ⟨found, -⟩, read, mirrors⟩ := wrote rfl
    exact ⟨s, text, result, run, found, read, (mirrors.ok_iff _).mpr ⟨done, rendered, output⟩⟩
  · exact (runRender_mirrors (a := intoFile "u" .text) accepted readable' loadable).1 rfl e failed

end Command

end TextTemplate
