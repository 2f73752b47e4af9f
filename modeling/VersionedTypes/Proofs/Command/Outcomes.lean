import VersionedTypes.Command.Execution
import VersionedTypes.Proofs.Json.Values
import VersionedTypes.Proofs.Resolution.Circles
import VersionedTypes.Proofs.Resolution.Integrity

/-!
# Commands are all or nothing

Every command loads its inputs in the same way and prints nothing unless they are free of mistakes.
So on the same inputs all commands fail with the same error, or there is nothing left to fail but
the choice of a single domain or transform; and what can be chosen is what the declarations name.

* `Reachable.isSome_domain?_iff`, `Reachable.rel_transform?`: what can be chosen from a resolution
  without mistakes;
* `Inputs.LoadFails`, `Inputs.Loads`: what the inputs themselves decide;
  `Inputs.loadFails_or_loads`: one or the other;
* `Inputs.LoadFails.cleanUniverse`, `Inputs.Loads.cleanUniverse`: what every command begins with;
* `Task.Declared`, `Task.exists_output_iff`: the tasks that have an output;
* `Invocation.executeChecked`: commands with the check that they write no builtin;
* **`Invocation.all_or_nothing`**: the outcomes of all commands.
-/

namespace VersionedTypes

/-! ## What can be chosen -/

namespace Resolution

open Declaration

variable {ds : List Declaration} {s : Resolution}

theorem Reachable.isSome_domain?_iff (h : Reachable ds ⟨.answering [], s⟩)
    (hd : s.diagnostics = []) (tag : String) :
    (s.toUniverse.domain? tag).isSome = true ↔ tag ∈ tags ds := by
  constructor
  · intro hsome
    obtain ⟨d, hget⟩ := Option.isSome_iff_exists.mp hsome
    exact h.mem_tags_of_isSettled (isSettled_iff.mpr (Or.inl (isPublished_of_get? hget)))
  · intro htag
    obtain ⟨c, hc, rfl⟩ := mem_tags.mp htag
    obtain ⟨hc, hq⟩ := mem_definitions.mp hc
    obtain ⟨o, hr, ho⟩ := h.exists_record hc
    have heffective := (h.explains hr).effective
      ((h.complete hd).domains _ (mem_plainRecords.mpr ⟨hr, ho, hq⟩))
    cases c with
    | domain d => exact Option.isSome_iff_exists.mpr ⟨_, heffective.2.1 d rfl⟩
    | permutation p =>
      obtain ⟨d, -, hget⟩ := heffective.2.2 p rfl
      exact Option.isSome_iff_exists.mpr ⟨d, hget⟩
    | transform r => cases hq

theorem Reachable.rel_transform? (h : Reachable ds ⟨.answering [], s⟩) (hd : s.diagnostics = [])
    (name : String) :
    Option.Rel (fun r t => r.answer? s.domains = some t)
      ((requests ds).find? (·.name == name)) (s.toUniverse.transform? name) := by
  have hanswers := forall₂_filterMap (h.complete hd).transforms
  rw [Universe.transform?, h.transforms_eq]
  refine rel_find?_key hanswers fun r t ht => ?_
  obtain ⟨a, b, -, -, rfl⟩ := answer?_eq_some_iff.mp ht
  rfl

end Resolution

namespace Command

/-! ## Loading -/

theorem Input.text_of_ok {i : Input} {text : String} (h : i.content = .ok text) :
    i.text = .ok text := by
  rw [Input.text, h]
  rfl

theorem Input.text_of_error {i : Input} {cause : InputError} (h : i.content = .error cause) :
    i.text = .error (.unreadable i.label cause) := by
  rw [Input.text, h]
  rfl

namespace Inputs

variable {inputs : Inputs} {e : Error} {ds : List Declaration} {source : Option String}
  {s : Resolution}

/-- The inputs cannot be loaded. The declarations come first: the source is of no matter before
they are read and understood. -/
inductive LoadFails (inputs : Inputs) : Error → Prop
  | declarations {cause : InputError} (hcause : inputs.declarations.content = .error cause) :
    LoadFails inputs (.unreadable inputs.declarations.label cause)
  | invalid {text : String} {cause : Json.ReadError}
      (htext : inputs.declarations.content = .ok text)
      (hcause : Declaration.parse text = .error cause) :
    LoadFails inputs (.invalid inputs.declarations.label cause)
  | source {text : String} {ds : List Declaration} {source : Input} {cause : InputError}
      (htext : inputs.declarations.content = .ok text) (hds : Declaration.parse text = .ok ds)
      (hsource : inputs.source = some source) (hcause : source.content = .error cause) :
    LoadFails inputs (.unreadable source.label cause)

/-- The inputs declare `ds`, and hold the source if one was named. -/
structure Loads (inputs : Inputs) (ds : List Declaration) (source : Option String) : Prop where
  declarations : ∃ text, inputs.declarations.content = .ok text ∧ Declaration.parse text = .ok ds
  source : inputs.source.map Input.content = source.map Except.ok

theorem loadFails_or_loads (inputs : Inputs) :
    (∃ e, inputs.LoadFails e) ∨ ∃ ds source, inputs.Loads ds source := by
  cases htext : inputs.declarations.content with
  | error cause => exact .inl ⟨_, .declarations htext⟩
  | ok text =>
    cases hds : Declaration.parse text with
    | error cause => exact .inl ⟨_, .invalid htext hds⟩
    | ok ds =>
      cases hsource : inputs.source with
      | none => exact .inr ⟨ds, none, ⟨text, htext, hds⟩, by rw [hsource]; rfl⟩
      | some source =>
        cases hcontent : source.content with
        | error cause => exact .inl ⟨_, .source htext hds hsource hcontent⟩
        | ok content =>
          exact .inr ⟨ds, some content, ⟨text, htext, hds⟩, by simp [hsource, hcontent]⟩

theorem resolution_of_parse_eq_ok {text : String} (htext : inputs.declarations.content = .ok text)
    (hds : Declaration.parse text = .ok ds) (hs : Resolution.ofDeclarations ds = .ok s) :
    inputs.resolution = .ok s := by
  rw [resolution, Input.text_of_ok htext]
  change ((Declaration.parse text).mapError _ >>= _) = _
  rw [hds]
  change (Resolution.ofDeclarations ds).mapError _ = _
  rw [hs]
  rfl

theorem resolution_of_parse_eq_error {text : String} {cause : Json.ReadError}
    (htext : inputs.declarations.content = .ok text)
    (hcause : Declaration.parse text = .error cause) :
    inputs.resolution = .error (.invalid inputs.declarations.label cause) := by
  rw [resolution, Input.text_of_ok htext]
  change ((Declaration.parse text).mapError _ >>= _) = _
  rw [hcause]
  rfl

/-- **Every command fails** on inputs that cannot be loaded. -/
theorem LoadFails.cleanUniverse (h : inputs.LoadFails e) (colored : Bool) :
    inputs.cleanUniverse colored = .error e := by
  cases h with
  | declarations hcause =>
    rw [Inputs.cleanUniverse, resolution, Input.text_of_error hcause]
    rfl
  | invalid htext hcause =>
    rw [Inputs.cleanUniverse, resolution_of_parse_eq_error htext hcause]
    rfl
  | @source text ds source cause htext hds hsource hcause =>
    -- the source is read behind the resolution, which never fails itself
    obtain ⟨s, hs, -⟩ := Resolution.exists_reachable ds
    rw [Inputs.cleanUniverse, resolution_of_parse_eq_ok htext hds hs, hsource]
    change (some <$> source.text >>= _) = _
    rw [Input.text_of_error hcause]
    rfl

theorem Loads.cleanUniverse (h : inputs.Loads ds source)
    (hs : Resolution.ofDeclarations ds = .ok s) (colored : Bool) :
    inputs.cleanUniverse colored = if s.diagnostics.isEmpty then .ok s.toUniverse
      else .error (inputs.report colored source s.diagnostics) := by
  obtain ⟨⟨text, htext, hds⟩, hsource⟩ := h
  have hread : inputs.source.mapM Input.text = .ok source := by
    cases hinput : inputs.source with
    | none =>
      cases source with
      | none => rfl
      | some content => rw [hinput] at hsource; cases hsource
    | some input =>
      cases source with
      | none => rw [hinput] at hsource; cases hsource
      | some content =>
        have hcontent : input.content = .ok content := by simpa [hinput] using hsource
        change (some <$> input.text) = _
        rw [Input.text_of_ok hcontent]
        rfl
  rw [Inputs.cleanUniverse, resolution_of_parse_eq_ok htext hds hs]
  change (inputs.source.mapM Input.text >>= _) = _
  rw [hread]
  rfl

end Inputs

/-- Mistakes are reported as they are rendered, under the label of the source if there is one. Only
a character that the source cuts prevents it. -/
theorem Inputs.report_cases (inputs : Inputs) (colored : Bool) (source : Option String)
    (ds : List Diagnostic) :
    let settings : Report.Settings :=
      { source, path := some (inputs.source.getD inputs.declarations).label, colored }
    (∃ text, Report.render settings ds = .ok text ∧
        inputs.report colored source ds = .rejected text) ∨
      ∃ c, Report.render settings ds = .error c ∧ inputs.report colored source ds = .cut c := by
  intro settings
  rw [report]
  cases hrender : Report.render settings ds with
  | ok text => exact .inl ⟨text, rfl, rfl⟩
  | error c => exact .inr ⟨c, rfl, rfl⟩

/-! ## Tasks -/

namespace Task

variable {ds : List Declaration} {s : Resolution} {u : Universe} {task : Task} {colored : Bool}
  {e : Error}

/-- The declarations have what the task names. -/
def Declared (ds : List Declaration) : Task → Prop
  | check => True
  | dump tag? _ => ∀ tag ∈ tag?, tag ∈ Declaration.tags ds
  | transform name? _ => ∀ name ∈ name?, ∃ r ∈ Declaration.requests ds, r.name = name

/-- The failure tells what the task names. -/
inductive Unknown : Task → Error → Prop
  | domain (tag : String) (v : View) : Unknown (dump (some tag) v) (.unknownDomain tag)
  | transform (name : String) (v : View) :
    Unknown (transform (some name) v) (.unknownTransform name)

theorem unknown_of_output (h : task.output colored u = .error e) : task.Unknown e := by
  match task with
  | check | dump none v | transform none v => cases h
  | dump (some tag) v =>
    rw [output] at h
    split at h <;> cases h
    exact .domain tag v
  | transform (some name) v =>
    rw [output] at h
    split at h <;> cases h
    exact .transform name v

theorem output_ne_report (inputs : Inputs) (colored' : Bool) (source : Option String)
    (ds : List Diagnostic) :
    task.output colored u ≠ .error (inputs.report colored' source ds) := by
  intro h
  have hunknown := unknown_of_output h
  rcases inputs.report_cases colored' source ds with ⟨text, -, hreport⟩ | ⟨c, -, hreport⟩ <;>
    · rw [hreport] at hunknown
      cases hunknown

/-- **What the declarations have, a task can show**, and nothing else. -/
theorem exists_output_iff (h : Resolution.Reachable ds ⟨.answering [], s⟩)
    (hd : s.diagnostics = []) :
    (∃ text, task.output colored s.toUniverse = .ok text) ↔ task.Declared ds := by
  match task with
  | check | dump none v | transform none v => exact iff_of_true ⟨_, rfl⟩ (by simp [Declared])
  | dump (some tag) v =>
    have hdomain := h.isSome_domain?_iff hd tag
    simp only [output, Declared, Option.mem_some, forall_eq', ← hdomain]
    cases s.toUniverse.domain? tag <;> simp
  | transform (some name) v =>
    have hrel := h.rel_transform? hd name
    have hdeclared : ((Declaration.requests ds).find? (·.name == name)).isSome = true ↔
        ∃ r ∈ Declaration.requests ds, r.name = name := by
      simp only [List.find?_isSome, beq_iff_eq]
    simp only [output, Declared, Option.mem_some, forall_eq', ← hdeclared]
    generalize (Declaration.requests ds).find? (·.name == name) = r?, s.toUniverse.transform? name
      = t? at hrel
    cases hrel <;> simp

theorem output_transform (h : Resolution.Reachable ds ⟨.answering [], s⟩)
    (hd : s.diagnostics = []) {name : String} {r : TransformRequest} (v : View)
    (hr : (Declaration.requests ds).find? (·.name == name) = some r) :
    ∃ a b, s.domains.get? r.source = some a ∧ s.domains.get? r.destination = some b ∧
      (transform (some name) v).output colored s.toUniverse
        = .ok (if v.json then jsonLines (r.answer a b).toJson
            else (r.answer a b).dump (v.options colored)) := by
  have hrel := h.rel_transform? hd name
  rw [hr] at hrel
  cases htransform : s.toUniverse.transform? name with
  | none => rw [htransform] at hrel; cases hrel
  | some t =>
    rw [htransform] at hrel
    cases hrel with
    | some ht =>
      obtain ⟨a, b, ha, hb, rfl⟩ := Resolution.answer?_eq_some_iff.mp ht
      exact ⟨a, b, ha, hb, by rw [output, htransform]⟩

end Task

/-! ## Writing with a check -/

/-- A value as it is viewed, if it has a written form or none is asked for. -/
def View.write (v : View) (json : Except UnwritableBuiltin Json) (plain : String) :
    Except (Error ⊕ UnwritableBuiltin) String :=
  if v.json then (json.map jsonLines).mapError .inr else .ok plain

/-- What a command prints, made with the check that no builtin is written. -/
def Task.outputChecked (colored : Bool) (u : Universe) :
    Task → Except (Error ⊕ UnwritableBuiltin) String
  | .check => .ok ""
  | .dump none v =>
    v.write ((u.domains.values.mapM Domain.write?).map .array) (u.dump (v.options colored))
  | .dump (some tag) v =>
    match u.domain? tag with
    | some d => v.write d.write? (d.dump (v.options colored))
    | none => .error (.inl (.unknownDomain tag))
  | .transform none v =>
    v.write ((u.transforms.mapM Transform.write?).map .array)
      (Dump.spaced (u.transforms.map (Transform.dump (v.options colored))))
  | .transform (some name) v =>
    match u.transform? name with
    | some t => v.write t.write? (t.dump (v.options colored))
    | none => .error (.inl (.unknownTransform name))

theorem View.write_ok (v : View) (json : Json) (plain : String) :
    v.write (.ok json) plain = .ok (if v.json then jsonLines json else plain) := by
  rw [write]
  split <;> rfl

theorem Task.outputChecked_eq (colored : Bool) (u : Universe) (task : Task) :
    task.outputChecked colored u = (task.output colored u).mapError .inl := by
  match task with
  | check => rfl
  | dump none v =>
    rw [outputChecked, mapM_eq_ok Domain.write?_eq]
    exact v.write_ok _ _
  | dump (some tag) v =>
    rw [outputChecked, output]
    cases u.domain? tag with
    | none => rfl
    | some d => exact (congrArg (v.write · _) d.write?_eq).trans (v.write_ok _ _)
  | transform none v =>
    rw [outputChecked, mapM_eq_ok Transform.write?_eq]
    exact v.write_ok _ _
  | transform (some name) v =>
    rw [outputChecked, output]
    cases u.transform? name with
    | none => rfl
    | some t => exact (congrArg (v.write · _) t.write?_eq).trans (v.write_ok _ _)

namespace Invocation

/-- What a command prints, made with the check that no builtin is written. -/
def executeChecked (i : Invocation) (terminal : Bool) (inputs : Inputs) :
    Except (Error ⊕ UnwritableBuiltin) String := do
  let colored := i.color.isOn terminal
  let u ← (inputs.cleanUniverse colored).mapError .inl
  i.task.outputChecked colored u

theorem executeChecked_eq (i : Invocation) (terminal : Bool) (inputs : Inputs) :
    i.executeChecked terminal inputs = (i.execute terminal inputs).mapError .inl := by
  rw [executeChecked, execute]
  cases inputs.cleanUniverse (i.color.isOn terminal) with
  | error e => rfl
  | ok u => exact i.task.outputChecked_eq _ u

theorem execute_of_error {i : Invocation} {terminal : Bool} {inputs : Inputs} {e : Error}
    (h : inputs.cleanUniverse (i.color.isOn terminal) = .error e) :
    i.execute terminal inputs = .error e := by
  rw [execute, h]
  rfl

theorem execute_of_ok {i : Invocation} {terminal : Bool} {inputs : Inputs} {u : Universe}
    (h : inputs.cleanUniverse (i.color.isOn terminal) = .ok u) :
    i.execute terminal inputs = i.task.output (i.color.isOn terminal) u := by
  rw [execute, h]
  rfl

/-- **Commands are all or nothing.** Inputs that cannot be loaded fail all commands in the same way,
and inputs with a mistake fail all commands with the same report: they are rejected with the
rendered mistakes, unless the source cuts a character. Otherwise a check succeeds and prints
nothing, and any other command succeeds exactly if the declarations have what it names; a transform
that is named is the delta for the first request of its name. On no input does the check for
builtins make a difference. -/
theorem all_or_nothing (terminal : Bool) (inputs : Inputs) :
    ((∃ e, inputs.LoadFails e) ∨ ∃ ds source, inputs.Loads ds source) ∧
    (∀ e, inputs.LoadFails e → ∀ i : Invocation, i.execute terminal inputs = .error e) ∧
    (∀ ds source, inputs.Loads ds source → ∃ s, Resolution.ofDeclarations ds = .ok s ∧
      (∀ i : Invocation,
        i.execute terminal inputs =
            .error (inputs.report (i.color.isOn terminal) source s.diagnostics) ↔
          s.diagnostics ≠ []) ∧
      (s.diagnostics ≠ [] → ∀ i : Invocation,
        let settings : Report.Settings :=
          { source, path := some (inputs.source.getD inputs.declarations).label,
            colored := i.color.isOn terminal }
        (∃ text, Report.render settings s.diagnostics = .ok text ∧
            i.execute terminal inputs = .error (.rejected text)) ∨
          ∃ c, Report.render settings s.diagnostics = .error c ∧
            i.execute terminal inputs = .error (.cut c)) ∧
      (s.diagnostics = [] → ∀ i : Invocation,
        (i.task = .check → i.execute terminal inputs = .ok "") ∧
        ((∃ text, i.execute terminal inputs = .ok text) ↔ i.task.Declared ds) ∧
        (∀ e, i.execute terminal inputs = .error e → i.task.Unknown e) ∧
        ∀ name v, i.task = .transform (some name) v →
          ∀ r, (Declaration.requests ds).find? (·.name == name) = some r →
            ∃ a b, s.domains.get? r.source = some a ∧ s.domains.get? r.destination = some b ∧
              i.execute terminal inputs =
                .ok (if v.json then jsonLines (r.answer a b).toJson
                  else (r.answer a b).dump (v.options (i.color.isOn terminal))))) ∧
    ∀ i : Invocation,
      i.executeChecked terminal inputs = (i.execute terminal inputs).mapError .inl := by
  refine ⟨inputs.loadFails_or_loads, fun e he i => execute_of_error (he.cleanUniverse _), ?_,
    fun i => i.executeChecked_eq terminal inputs⟩
  intro ds source hloads
  obtain ⟨s, hs, h⟩ := Resolution.exists_reachable ds
  have hclean := hloads.cleanUniverse hs
  have hexecute : s.diagnostics = [] → ∀ i : Invocation,
      i.execute terminal inputs = i.task.output (i.color.isOn terminal) s.toUniverse := by
    intro hd i
    exact execute_of_ok (by rw [hclean, hd]; rfl)
  have hrefuse : s.diagnostics ≠ [] → ∀ i : Invocation, i.execute terminal inputs =
      .error (inputs.report (i.color.isOn terminal) source s.diagnostics) := by
    intro hd i
    exact execute_of_error (by rw [hclean, if_neg (by simpa using hd)])
  refine ⟨s, hs, fun i => ⟨fun hreport hd => ?_, fun hd => hrefuse hd i⟩, fun hd i => ?_,
    fun hd i => ?_⟩
  · rw [hexecute hd i] at hreport
    exact Task.output_ne_report inputs _ source _ hreport
  · rw [hrefuse hd i]
    rcases inputs.report_cases (i.color.isOn terminal) source s.diagnostics with
      ⟨text, hrender, hreport⟩ | ⟨c, hrender, hreport⟩
    · exact .inl ⟨text, hrender, congrArg Except.error hreport⟩
    · exact .inr ⟨c, hrender, congrArg Except.error hreport⟩
  · rw [hexecute hd i]
    refine ⟨fun htask => by rw [htask]; rfl, Task.exists_output_iff h hd,
      fun e => Task.unknown_of_output, fun name v htask r hr => ?_⟩
    rw [htask]
    exact Task.output_transform h hd v hr

/-- A domain is declared twice. Whatever is asked for, the answer is the report on it. -/
theorem all_or_nothing_of_repeated_domain :
    let text := "[\x7b\"kind\": \"domain\", \"tag\": \"v1\"\x7d, \x7b\"kind\": \"domain\", \"tag\": \"v1\",
      \"meta\": \x7b\"pos\": \x7b\"line\": 2, \"column\": 8\x7d\x7d\x7d]"
    let origin := Origin.ofPosition ⟨2, 8, 0⟩
    let ds : List Declaration := [.domain { tag := "v1" }, .domain { tag := "v1", origin }]
    let inputs : Inputs := { declarations := { label := "universe.json", content := .ok text } }
    Declaration.parse text = .ok ds ∧ inputs.Loads ds none ∧
      ∀ (terminal : Bool) (i : Invocation), i.execute terminal inputs =
        .error (.rejected "universe.json:2:8: domain `v1` is already defined\n") := by
  intro text origin ds inputs
  let d : Diagnostic := .validation { problem := .duplicateDomain "v1", origin }
  have hparse : Declaration.parse text = .ok ds := by
    refine (Format.parse_ofList _ _).trans ?_
    decide +kernel
  have hloads : inputs.Loads ds none := ⟨⟨text, rfl, hparse⟩, rfl⟩
  have hd : (Resolution.ofDeclarations ds).map Resolution.diagnostics = .ok [d] := by
    decide +kernel
  have hline : String.join [d.plainLine (some "universe.json")] =
      "universe.json:2:8: domain `v1` is already defined\n" := by
    decide +kernel
  refine ⟨hparse, hloads, fun terminal i => ?_⟩
  obtain ⟨-, -, hexecute, -⟩ := all_or_nothing terminal inputs
  obtain ⟨s, hs, -, hrejected, -⟩ := hexecute ds none hloads
  rw [hs] at hd
  have hd : s.diagnostics = [d] := Except.ok.inj hd
  rw [hd] at hrejected
  -- without a source the mistakes are lines, so no character is cut
  rcases hrejected (List.cons_ne_nil _ _) i with ⟨report, hrender, hi⟩ | ⟨c, hrender, -⟩
  · obtain rfl : _ = report := Except.ok.inj hrender
    rw [hi, ← hline]
    rfl
  · cases hrender

end Invocation

end Command

end VersionedTypes
