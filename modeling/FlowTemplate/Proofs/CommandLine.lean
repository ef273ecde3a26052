/-
The command that compiles is all or nothing on files (`CompileRequest.run_all_or_nothing`): unless the
configuration, its environment and the template can all be read, no file is touched; and if they can,
the compiled text is printed or is what one file holds afterwards. This holds for every reader of
configurations.
-/
import FlowTemplate.CommandLine.Compile
import FlowTemplate.Proofs.Outline.Nesting
import FlowTemplate.Proofs.Workspace

namespace FlowTemplate

theorem Options.exists_compile (options : Options) (template : Text) :
    ∃ compiled, options.compile template = .ok compiled := by
  rw [compile, Compiler.result_compile]
  exact ⟨_, rfl⟩

namespace Config

/-- The name of the environment that is wanted: the one asked for, unless it is empty, else that of the
configuration. -/
def wanted (config : Config) (asked? : Option Text) : WideText :=
  (asked?.filter (· ≠ [])).elim config.environment .ofText

/-- The options of the wanted environment. The default environment need not be declared. -/
inductive Selects (config : Config) (asked? : Option Text) : Options → Prop where
  | declared {options : Options} (found : config.environments.lookup (config.wanted asked?) = some options) :
      Selects config asked? options
  | default (missing : config.environments.lookup (config.wanted asked?) = none)
      (wanted : config.wanted asked? = defaultEnvironment) : Selects config asked? Options.default

theorem active_eq (config : Config) (asked? : Option Text) :
    config.active asked? =
      match config.environments.lookup (config.wanted asked?) with
      | some options => .ok options
      | none =>
        if config.wanted asked? = defaultEnvironment then .ok Options.default
        else .error ⟨config.wanted asked?, config.environments.map (·.1)⟩ := by
  match asked? with
  | none => rfl
  | some [] => rfl
  | some (c :: cs) => rfl

/-- **Which options are active.** -/
theorem active_eq_ok_iff {config : Config} {asked? : Option Text} {options : Options} :
    config.active asked? = .ok options ↔ config.Selects asked? options := by
  rw [active_eq]
  constructor
  · intro h
    split at h
    next found =>
      cases h
      exact .declared found
    next missing =>
      split at h
      next wanted =>
        cases h
        exact .default missing wanted
      next => cases h
  · rintro (found | ⟨missing, wanted⟩)
    · rw [found]
    · rw [missing]
      exact if_pos wanted

end Config

namespace CommandLine

/-! ## Compiling a file -/

namespace CompileRequest

variable {Cause Flaw : Type} {reader : Config.Reader Cause Flaw} {request : CompileRequest}
  {workspace : Workspace}

/-- What a run compiles, and how: the configuration is loaded, the environment is one of it or the
default one, the flag goes before what the environment says, and the template is a file in UTF-8. -/
inductive Prepared (request : CompileRequest) (reader : Config.Reader Cause Flaw)
    (workspace : Workspace) : Options → Text → Prop where
  | intro {config : Config} {options : Options} {bytes : List UInt8} {template : Text}
      (loads : reader.Loads workspace request.config? config)
      (selects : config.Selects request.environment? options)
      (found : workspace.node? request.input = some (.file bytes))
      (decodes : Text.ofBytes bytes = .ok template) :
      Prepared request reader workspace { options with minify := request.minify?.getD options.minify }
        template

theorem options_eq_ok_iff {options : Options} :
    request.options reader workspace = .ok options ↔
      ∃ config selected, reader.Loads workspace request.config? config ∧
        config.Selects request.environment? selected ∧
        options = { selected with minify := request.minify?.getD selected.minify } := by
  constructor
  · intro h
    obtain ⟨selected, hoptions, heq⟩ := Except.bind_eq_ok_iff.1 h
    obtain ⟨config, hconfig, hactive⟩ := Except.bind_eq_ok_iff.1 hoptions
    exact ⟨config, selected, Config.Reader.resolve_eq_ok_iff.1 hconfig,
      Config.active_eq_ok_iff.1 (Except.mapError_eq_ok_iff.1 hactive), (Except.ok.inj heq).symm⟩
  · rintro ⟨config, selected, hloads, hselects, rfl⟩
    have hoptions : reader.options workspace request.config? request.environment? = .ok selected :=
      Except.bind_eq_ok_iff.2 ⟨config, Config.Reader.resolve_eq_ok_iff.2 hloads,
        Except.mapError_eq_ok_iff.2 (Config.active_eq_ok_iff.2 hselects)⟩
    exact Except.bind_eq_ok_iff.2 ⟨selected, hoptions, rfl⟩

theorem readTemplate_eq_ok_iff {path : Path} {template : Text} :
    (workspace.readTemplate path : Except (FileFailure Cause Flaw) Text) = .ok template ↔
      ∃ bytes, workspace.node? path = some (.file bytes) ∧ Text.ofBytes bytes = .ok template := by
  rw [Workspace.readTemplate]
  split
  next hnode => simp [hnode]
  next hnode => simp [hnode]
  next bytes hnode => simp [hnode, Except.mapError_eq_ok_iff]

/-- A template is compiled if and only if everything can be read. -/
theorem compiled_eq_ok_iff {compiled : Text} :
    request.compiled reader workspace = .ok compiled ↔
      ∃ options template, request.Prepared reader workspace options template ∧
        options.compile template = .ok compiled := by
  rw [CompileRequest.compiled, Except.bind_eq_ok_iff]
  simp only [Workspace.compileFile, Except.bind_eq_ok_iff, Except.mapError_eq_ok_iff,
    options_eq_ok_iff, readTemplate_eq_ok_iff]
  constructor
  · rintro ⟨_, ⟨config, selected, hloads, hselects, rfl⟩, template, ⟨bytes, hfound, hdecodes⟩, hcompile⟩
    exact ⟨_, template, .intro hloads hselects hfound hdecodes, hcompile⟩
  · rintro ⟨_, template, ⟨hloads, hselects, hfound, hdecodes⟩, hcompile⟩
    exact ⟨_, ⟨_, _, hloads, hselects, rfl⟩, template, ⟨_, hfound, hdecodes⟩, hcompile⟩

theorem Prepared.exists_compiled {options : Options} {template : Text}
    (h : request.Prepared reader workspace options template) :
    ∃ compiled, options.compile template = .ok compiled ∧
      request.compiled reader workspace = .ok compiled := by
  obtain ⟨compiled, hcompile⟩ := options.exists_compile template
  exact ⟨compiled, hcompile, compiled_eq_ok_iff.2 ⟨options, template, h, hcompile⟩⟩

/-- **Compiling is all or nothing on files.** If the configuration, the options of the environment or
the template cannot be read, the exit code is 1 and the files are as they were. Otherwise the template,
as it was before the run, is compiled with the options of the environment and the flag; the compiled
text is printed and no file changes, or it is what the file of the output holds afterwards and nothing
else that was there changes. -/
theorem run_all_or_nothing (reader : Config.Reader Cause Flaw) (request : CompileRequest)
    (workspace : Workspace) (hwrite : ∀ path ∈ request.output?, workspace.Writable path) :
    ∃ outcome, request.run reader workspace = .ok outcome ∧
      ((¬ ∃ options template, request.Prepared reader workspace options template) →
        outcome.exitCode = 1 ∧ outcome.tree = workspace.tree) ∧
      ∀ options template, request.Prepared reader workspace options template →
        ∃ compiled, options.compile template = .ok compiled ∧ outcome.exitCode = 0 ∧
          (request.output? = none → outcome.output = compiled ∧ outcome.tree = workspace.tree) ∧
          ∀ path ∈ request.output?, workspace.Replaces path (Text.toBytes compiled) outcome.tree ∧
            (workspace.resolve request.input = workspace.resolve path →
              { workspace with tree := outcome.tree }.node? request.input =
                some (.file (Text.toBytes compiled))) := by
  rw [run]
  cases hresult : request.compiled reader workspace with
  | error failure =>
    refine ⟨_, rfl, fun _ => ⟨rfl, rfl⟩, fun options template hprepared => ?_⟩
    obtain ⟨compiled, -, hcompiled⟩ := hprepared.exists_compiled
    rw [hresult] at hcompiled
    cases hcompiled
  | ok compiled =>
    obtain ⟨options, template, hprepared, -⟩ := compiled_eq_ok_iff.1 hresult
    have hcompile : ∀ options template, request.Prepared reader workspace options template →
        options.compile template = .ok compiled := by
      intro options template hprepared
      obtain ⟨other, hother, hcompiled⟩ := hprepared.exists_compiled
      rw [hother, Except.ok.inj (hcompiled.symm.trans hresult)]
    cases houtput : request.output? with
    | none =>
      exact ⟨_, rfl, fun hnone => absurd ⟨options, template, hprepared⟩ hnone,
        fun options template hprepared =>
          ⟨compiled, hcompile options template hprepared, rfl, fun _ => ⟨rfl, rfl⟩, nofun⟩⟩
    | some path =>
      obtain ⟨after, hafter⟩ := hwrite path houtput (Text.toBytes compiled)
      have hreplaces := Workspace.replaces_write hafter
      refine ⟨⟨0, [], none, after⟩, by simp only [hafter]; rfl,
        fun hnone => absurd ⟨options, template, hprepared⟩ hnone, ?_⟩
      intro options template hprepared
      refine ⟨compiled, hcompile options template hprepared, rfl, nofun, ?_⟩
      rintro path' ⟨⟩
      obtain ⟨-, -, hfound, -⟩ := hprepared
      exact ⟨hreplaces, hreplaces.node?_eq hfound⟩

/-- A configuration with one environment, in which templates are minified. -/
def pageConfig : Text := "environments:\n  live:\n    minifyTemplate: true\n".toList

/-- A reader of that configuration and of nothing else. -/
def pageReader : Config.Reader Unit Unit where
  parse text :=
    if text = pageConfig then
      .ok (.mapping [(.text (.ofText "environments".toList), .mapping
        [(.text (.ofText "live".toList), .mapping
          [(.text (.ofText "minifyTemplate".toList), .scalar (.bool true))])])])
    else .error .malformed
  validate
    | [(_, .mapping [(.text name, .mapping [(_, .scalar (.bool minify))])])] =>
      .ok ⟨Config.defaultEnvironment, [(name, { Options.default with minify })]⟩
    | _ => .error ()
  wording _ := []

/-- A page with a block of control flow. -/
def pageTemplate : Text := " @if (ok) \x7byes\x7d".toList

/-- The page, and the configuration in the directory around that of the page. -/
def pageWorkspace : Workspace where
  tree :=
    { root := []
      entries := [(["site".toList], .directory),
        (["site".toList, "atflow.yaml".toList], .file (Text.toBytes pageConfig)),
        (["site".toList, "pages".toList], .directory),
        (["site".toList, "pages".toList, "page.html".toList], .file (Text.toBytes pageTemplate))] }
  directory := ["site".toList, "pages".toList]

/-- The page is to be written over itself, and not to be minified. -/
def pageRequest : CompileRequest where
  input := ⟨false, ["page.html".toList]⟩
  output? := some ⟨false, [Path.up, "pages".toList, "page.html".toList]⟩
  environment? := some "live".toList
  minify? := some false
  config? := none

theorem spells_page :
    pageReader.Spells (Text.toBytes pageConfig)
      ⟨Config.defaultEnvironment, [(.ofText "live".toList, ⟨true, true, true, true⟩)]⟩ :=
  .intro (by decide +kernel) (if_pos rfl) rfl rfl rfl

theorem prepared_page : pageRequest.Prepared pageReader pageWorkspace Options.default pageTemplate := by
  have hloads : pageReader.Loads pageWorkspace none
      ⟨Config.defaultEnvironment, [(.ofText "live".toList, ⟨true, true, true, true⟩)]⟩ := by
    refine .nearest (n := 1) (by decide) rfl (fun m hlt hle => ?_) spells_page
    obtain rfl : m = 2 := Nat.le_antisymm hle hlt
    decide +kernel
  have hselects : Config.Selects
      ⟨Config.defaultEnvironment, [(.ofText "live".toList, ⟨true, true, true, true⟩)]⟩
      (some "live".toList) ⟨true, true, true, true⟩ :=
    .declared (by decide +kernel)
  have hfound : pageWorkspace.node? pageRequest.input = some (.file (Text.toBytes pageTemplate)) := rfl
  have hdecodes : Text.ofBytes (Text.toBytes pageTemplate) = .ok pageTemplate := by decide +kernel
  exact .intro hloads hselects hfound hdecodes

/-- Here the flag goes before the environment, and the page that was read is replaced. -/
theorem run_all_or_nothing_page :
    ∃ outcome, pageRequest.run pageReader pageWorkspace = .ok outcome ∧ outcome.exitCode = 0 ∧
      outcome.tree.find? ["site".toList, "pages".toList, "page.html".toList] =
        some (.file (Text.toBytes " <ng-container *ngIf=\"ok\">yes</ng-container>".toList)) := by
  have hwrite : ∀ path ∈ pageRequest.output?, pageWorkspace.Writable path := by
    rintro path ⟨⟩ bytes
    exact ⟨_, rfl⟩
  have hcompile : Options.default.compile pageTemplate =
      .ok " <ng-container *ngIf=\"ok\">yes</ng-container>".toList := by
    decide +kernel
  obtain ⟨outcome, hrun, -, hdone⟩ := run_all_or_nothing pageReader pageRequest pageWorkspace hwrite
  obtain ⟨compiled, hcompiled, hexit, -, houtput⟩ := hdone _ _ prepared_page
  rw [hcompile] at hcompiled
  cases hcompiled
  obtain ⟨hreplaces, -⟩ := houtput _ rfl
  exact ⟨outcome, hrun, hexit, hreplaces.there _ rfl⟩

end CompileRequest

end CommandLine

end FlowTemplate
