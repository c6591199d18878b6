import SiteSettings.CommandLine.Run
import SiteSettings.Proofs.Project.Loading
import SiteSettings.Proofs.Project.Writing

/-!
# What actions do to files

An action works out the whole text that it is to write from the files as they are (`Project.Plans`),
and nothing is written before that.  So it does one of three things: it changes nothing; it fails to
write and leaves new directories at most; or it does all of it, and what is new is the text at the
target and directories above it.

The program ends with the exit code zero in the third case only.
-/

namespace SiteSettings

variable {w w' : Workspace}

/-! ## What is only read -/

theorem readsOnly_readFile (path : Path) : ReadsOnly (readFile (m := StateM Workspace) path) := by
  refine (ReadsOnly.read path).bind fun answer => ?_
  split
  · exact .pure _
  · exact .throw _

theorem run_readFile (path : Path) {content : String}
    (h : (w.run (readFile path)).1 = .ok content) : w.contentAt? path = some content := by
  rw [readFile, Workspace.run_bind_of_ok (Workspace.run_read path)] at h
  cases hread : w.tree.read w.workingDirectory path with
  | ok text =>
    rw [hread] at h
    obtain rfl := Except.ok.inj h
    exact Workspace.contentAt?_of_read hread
  | error problem =>
    rw [hread] at h
    cases h

theorem readsOnly_readSettingsFile (path : Path) (pointer : String) :
    ReadsOnly (readSettingsFile (m := StateM Workspace) path pointer) := by
  refine (ReadsOnly.read path).bind fun answer => ?_
  split
  · exact .throw _
  · refine (ReadsOnly.log _).bind fun _ => ?_
    cases SettingsMap.ofFile path pointer _ with
    | ok settings => exact .pure settings
    | error error => exact .throw error

/-- Reading a settings file gives the mapping in its text. -/
theorem run_readSettingsFile (w : Workspace) (path : Path) (pointer : String) :
    (w.run (readSettingsFile path pointer)).1 =
      match w.tree.read w.workingDirectory path with
      | .ok content => SettingsMap.ofFile path pointer content
      | .error problem => .error (.file path problem) := by
  rw [readSettingsFile, Workspace.run_bind_of_ok (Workspace.run_read path)]
  cases w.tree.read w.workingDirectory path with
  | error problem => rfl
  | ok content =>
    dsimp only
    rw [Workspace.run_bind_of_ok (Workspace.run_log _)]
    rfl

namespace Project

/-- The mapping with the settings given in place over those of the file. -/
def withSettingsInPlace (project : Project) (fromFile : SettingsMap) :
    ExceptT ProjectError (StateM Workspace) SettingsMap :=
  match project.config.settings with
  | none => pure fromFile
  | some table =>
    match SettingsMap.ofToml table with
    | .ok inPlace => pure (fromFile.extend inPlace)
    | .error error => throw (.setting error)

theorem readsOnly_withSettingsInPlace (project : Project) (fromFile : SettingsMap) :
    ReadsOnly (project.withSettingsInPlace fromFile) := by
  rw [withSettingsInPlace]
  split
  · exact .pure _
  · split
    · exact .pure _
    · exact .throw _

theorem readsOnly_readSettings (project : Project) :
    ReadsOnly (project.readSettings (m := StateM Workspace)) := by
  rw [readSettings, ProjectConfig.readSettings]
  cases project.config.settingsFile with
  | none => exact (ReadsOnly.pure _).bind project.readsOnly_withSettingsInPlace
  | some file => exact (readsOnly_readSettingsFile _ _).bind project.readsOnly_withSettingsInPlace

/-- Reading the template of an action, if there is one. -/
def readTemplate (project : Project) (report : Path → Report) :
    Option Path → ExceptT ProjectError (StateM Workspace) (Option String)
  | none => pure none
  | some path => do
    FileAccess.log (report (project.resolvePath path))
    let text ← readFile (project.resolvePath path)
    pure (some text)

theorem readsOnly_readTemplate (project : Project) (report : Path → Report)
    (template : Option Path) :
    ReadsOnly (project.readTemplate report template) := by
  cases template with
  | none => exact .pure none
  | some path =>
    exact (ReadsOnly.log _).bind fun _ => (readsOnly_readFile _).bind fun text => .pure (some text)

/-- Whether the template of an action, if there is one, has this text. -/
def TemplateIs (project : Project) (w : Workspace) : Option Path → Option String → Prop
  | none, text => text = none
  | some path, text => ∃ content, text = some content ∧
    w.contentAt? (project.resolvePath path) = some content

theorem templateIs_of_readTemplate {project : Project} {report : Path → Report}
    {template : Option Path} {text : Option String}
    (h : (w.run (project.readTemplate report template)).1 = .ok text) :
    project.TemplateIs w template text := by
  cases template with
  | none => exact (Except.ok.inj h).symm
  | some path =>
    obtain ⟨w', hrun⟩ : ∃ w', w.run (project.readTemplate report (some path)) = (.ok text, w') :=
      ⟨_, Prod.ext h rfl⟩
    obtain ⟨_, v, hlog, hrun⟩ := Workspace.run_bind_eq_ok_iff.mp hrun
    obtain ⟨content, v', hread, hrun⟩ := Workspace.run_bind_eq_ok_iff.mp hrun
    have hsame : w.SameFiles v := (ReadsOnly.log _).sameFiles hlog
    have hcontent := run_readFile _ (congrArg Prod.fst hread)
    rw [hsame.contentAt?_eq] at hcontent
    exact ⟨content, (Except.ok.inj (Prod.mk.inj hrun).1).symm, hcontent⟩

/-! ## What is written -/

end Project

/-- Where an action writes. -/
def Action.target (project : Project) : Action → Path
  | .generate output _ => project.resolvePath (output.getD project.config.output)
  | .configure outFile _ => project.resolvePath (outFile.getD project.config.dotenv.outFile)

namespace Project

/-- What an action is to write and to answer, as far as the files decide it. -/
inductive Plans (project : Project) (w : Workspace) : Action → String → Outcome → Prop
  | generate {output template : Option Path} {templateText : Option String} {settings : SettingsMap}
    {text : String} {count : Nat}
    (htemplate : project.TemplateIs w (template <|> project.config.template) templateText)
    (hsettings : (w.run project.readSettings).1 = .ok settings)
    (hsource : SettingsFile.source settings (templateText.getD "") project.generatorOptions =
      .ok (text, count)) :
    Plans project w (.generate output template) text
      (.settingsWritten ((Action.generate output template).target project) count)
  | configure {outFile template : Option Path} {header : Option String} {settings : SettingsMap}
    (htemplate : project.TemplateIs w (template <|> project.config.dotenv.template) header)
    (hsettings : (w.run project.readSettings).1 = .ok settings) :
    Plans project w (.configure outFile template)
      (DotEnv.render (project.dotenvBindings settings) header)
      (.dotenvWritten ((Action.configure outFile template).target project)
        (project.dotenvBindings settings).length)

/-- What an action does once it knows what to write. -/
def finish (path : Path) (text : String) (report : Report) (outcome : Outcome) :
    ExceptT ProjectError (StateM Workspace) Outcome := do
  writeFile path text
  FileAccess.log report
  pure outcome

/-- What generating does once the template and the settings are read. -/
def generateFrom (project : Project) (target : Path) (templateText : String)
    (settings : SettingsMap) :
    ExceptT ProjectError (StateM Workspace) Outcome := do
  FileAccess.log ⟨.debug, .project, "resolved settings mapping",
    [("entries", toString settings.entries.length)]⟩
  match Php.Document.ofTemplate templateText with
  | .error error => do
    FileAccess.log ⟨.error, .settingsFile, "template rejected: " ++ error.message,
      [("line", toString error.line)]⟩
    pure (.templateRejected error)
  | .ok doc => do
    FileAccess.log ⟨.debug, .settingsFile, "parsed template", [("statements", toString doc.size)]⟩
    match SettingsFile.ofDocument settings doc project.generatorOptions with
    | .error error => throw error
    | .ok (text, assignments) =>
      finish target text
        ⟨.info, .settingsFile, "settings file written",
          [("path", target.text), ("assignments", toString assignments)]⟩
        (.settingsWritten target assignments)

theorem generate_eq (project : Project) (output template : Option Path) :
    project.generate output template = (do
      let templateText ← project.readTemplate
        (fun path => ⟨.debug, .project, "reading template", [("path", path.text)]⟩)
        (template <|> project.config.template)
      let settings ← project.readSettings
      project.generateFrom ((Action.generate output template).target project)
        (templateText.getD "") settings) := by
  rw [generate]
  cases template <|> project.config.template with
  | none =>
    simp only [readTemplate, pure_bind]
    rfl
  | some path =>
    -- the steps are the same, in another grouping
    simp only [readTemplate, bind_assoc, pure_bind]
    rfl

theorem configure_eq (project : Project) (outFile template : Option Path) :
    project.configure outFile template = (do
      let settings ← project.readSettings
      let header ← project.readTemplate
        (fun path => ⟨.debug, .dotenv, "reading .env template", [("path", path.text)]⟩)
        (template <|> project.config.dotenv.template)
      let target := (Action.configure outFile template).target project
      let bindings := project.dotenvBindings settings
      finish target (DotEnv.render bindings header)
        ⟨.info, .dotenv, ".env file written",
          [("path", target.text), ("variables", toString bindings.length)]⟩
        (.dotenvWritten target bindings.length)) := by
  rw [configure]
  cases template <|> project.config.dotenv.template with
  | none =>
    simp only [readTemplate, pure_bind]
    rfl
  | some path =>
    simp only [readTemplate, bind_assoc, pure_bind]
    rfl

/-- What follows the reading of template and settings. -/
theorem generateFrom_cases {project : Project} {target : Path} {templateText : String}
    {settings : SettingsMap} {result : Except ProjectError Outcome}
    (h : w.run (project.generateFrom target templateText settings) = (result, w')) :
    (w.SameFiles w' ∧ ∀ outcome, result = .ok outcome → ¬ outcome.isSuccess) ∨
      ∃ text count report v, SettingsFile.source settings templateText project.generatorOptions =
          .ok (text, count) ∧ w.SameFiles v ∧
        v.run (finish target text report (.settingsWritten target count)) = (result, w') := by
  rw [generateFrom, Workspace.run_bind_of_ok (Workspace.run_log _)] at h
  cases hdoc : Php.Document.ofTemplate templateText with
  | error error =>
    rw [hdoc] at h
    dsimp only at h
    rw [Workspace.run_bind_of_ok (Workspace.run_log _)] at h
    obtain ⟨rfl, rfl⟩ := Prod.mk.inj h
    refine .inl ⟨⟨rfl, rfl⟩, fun outcome houtcome => ?_⟩
    obtain rfl := Except.ok.inj houtcome
    simp [Outcome.isSuccess]
  | ok doc =>
    rw [hdoc] at h
    dsimp only at h
    rw [Workspace.run_bind_of_ok (Workspace.run_log _)] at h
    cases hfile : SettingsFile.ofDocument settings doc project.generatorOptions with
    | error error =>
      rw [hfile] at h
      obtain ⟨rfl, rfl⟩ := Prod.mk.inj h
      exact .inl ⟨⟨rfl, rfl⟩, fun outcome houtcome => nomatch houtcome⟩
    | ok file =>
      obtain ⟨text, count⟩ := file
      rw [hfile] at h
      dsimp only at h
      have hsource : SettingsFile.source settings templateText project.generatorOptions =
          .ok (text, count) := by
        rw [SettingsFile.source, hdoc]
        exact hfile
      refine .inr ⟨_, count, _, _, hsource, ?_, h⟩
      exact ⟨rfl, rfl⟩

/-- Everything an action does: it leaves the files as they are and is no success, or it sets out to
write what it plans. -/
theorem perform_cases {project : Project} {action : Action} {result : Except ProjectError Outcome}
    (h : w.run (project.perform action) = (result, w')) :
    (w.SameFiles w' ∧ ∀ outcome, result = .ok outcome → ¬ outcome.isSuccess) ∨
      ∃ text outcome report v, project.Plans w action text outcome ∧ w.SameFiles v ∧
        v.run (finish (action.target project) text report outcome) = (result, w') := by
  have hfailed {error : ProjectError} (hresult : result = .error error) (hsame : w.SameFiles w') :
      w.SameFiles w' ∧ ∀ outcome, result = .ok outcome → ¬ outcome.isSuccess := by
    subst hresult
    exact ⟨hsame, fun outcome houtcome => nomatch houtcome⟩
  cases action with
  | generate output template =>
    rw [perform, generate_eq] at h
    rcases (readsOnly_readTemplate _ _ _).run_bind_cases h with
      ⟨error, hresult, hsame⟩ | ⟨templateText, v, hread, hv, h⟩
    · exact .inl (hfailed hresult hsame)
    · rcases (readsOnly_readSettings project).run_bind_cases h with
        ⟨error, hresult, hsame⟩ | ⟨settings, v', hsettings, hv', h⟩
      · exact .inl (hfailed hresult (hv.trans hsame))
      · rw [(readsOnly_readSettings project).depends hv] at hsettings
        have hsame := hv.trans hv'
        rcases generateFrom_cases h with
          ⟨hsame', hnot⟩ | ⟨text, count, report, v'', hsource, hv'', h⟩
        · exact .inl ⟨hsame.trans hsame', hnot⟩
        · have hplans : project.Plans w (.generate output template) text _ :=
            .generate (templateIs_of_readTemplate hread) hsettings hsource
          exact .inr ⟨text, _, report, v'', hplans, hsame.trans hv'', h⟩
  | configure outFile template =>
    rw [perform, configure_eq] at h
    rcases (readsOnly_readSettings project).run_bind_cases h with
      ⟨error, hresult, hsame⟩ | ⟨settings, v, hsettings, hv, h⟩
    · exact .inl (hfailed hresult hsame)
    · rcases (readsOnly_readTemplate _ _ _).run_bind_cases h with
        ⟨error, hresult, hsame⟩ | ⟨header, v', hread, hv', h⟩
      · exact .inl (hfailed hresult (hv.trans hsame))
      · rw [(readsOnly_readTemplate _ _ _).depends hv] at hread
        have hplans : project.Plans w (.configure outFile template) _ _ :=
          .configure (templateIs_of_readTemplate hread) hsettings
        exact .inr ⟨_, _, _, v', hplans, hv.trans hv', h⟩

/-- Once it is known what to write, it is written, or the action fails with the error of writing. -/
theorem finish_cases {path : Path} {text : String} {report : Report} {outcome : Outcome}
    {result : Except ProjectError Outcome}
    (h : w.run (finish path text report outcome) = (result, w')) :
    (result = .ok outcome ∧ FileTree.IsWritten w.workingDirectory path text w.tree w'.tree) ∨
      ∃ error, result = .error error ∧ w.run (writeFile path text) = (.error error, w') := by
  rw [finish] at h
  rcases hwrite : w.run (writeFile path text) with ⟨error | ⟨⟩, v⟩
  · rw [Workspace.run_bind_of_error hwrite] at h
    obtain ⟨rfl, rfl⟩ := Prod.mk.inj h
    exact .inr ⟨error, rfl, rfl⟩
  · rw [Workspace.run_bind_of_ok hwrite, Workspace.run_bind_of_ok (Workspace.run_log _)] at h
    obtain ⟨rfl, rfl⟩ := Prod.mk.inj h
    rcases writeFile_cases hwrite with ⟨-, -, hwritten⟩ | ⟨-, problem, herror | ⟨parent, -, herror⟩⟩
    · exact .inl ⟨rfl, hwritten⟩
    · cases herror
    · cases herror

/-- Writing the `.env` file has no other outcome. -/
theorem isSuccess_of_configure {project : Project} {outFile template : Option Path}
    {outcome : Outcome}
    (h : w.run (project.perform (.configure outFile template)) = (.ok outcome, w')) :
    outcome.isSuccess := by
  rw [perform, configure_eq] at h
  obtain ⟨settings, v, -, h⟩ := Workspace.run_bind_eq_ok_iff.mp h
  obtain ⟨header, v', -, h⟩ := Workspace.run_bind_eq_ok_iff.mp h
  rcases finish_cases h with ⟨houtcome, -⟩ | ⟨error, herror, -⟩
  · obtain rfl := Except.ok.inj houtcome
    rfl
  · cases herror

/-! ## What an action leaves behind -/

/-- Whether an error comes from writing what an action planned: from making the parent of the target
or from the target itself. -/
def FailsToWrite (project : Project) (w : Workspace) (action : Action) (error : ProjectError)
    (w' : Workspace) : Prop :=
  ∃ text outcome v, project.Plans w action text outcome ∧ w.SameFiles v ∧
    v.run (writeFile (action.target project) text) = (.error error, w') ∧
    ∃ problem, error = .file (action.target project) problem ∨
      ∃ parent, (action.target project).parent? = some parent ∧ error = .file parent problem

/-- A success has done all that was planned. -/
theorem isWritten_of_success {project : Project} {action : Action} {outcome : Outcome}
    (h : w.run (project.perform action) = (.ok outcome, w')) (hsuccess : outcome.isSuccess) :
    ∃ text, project.Plans w action text outcome ∧
      FileTree.IsWritten w.workingDirectory (action.target project) text w.tree w'.tree := by
  rcases perform_cases h with ⟨-, hnot⟩ | ⟨text, planned, report, v, hplans, hsame, hfinish⟩
  · exact absurd hsuccess (hnot outcome rfl)
  · rcases finish_cases hfinish with ⟨houtcome, hwritten⟩ | ⟨error, herror, -⟩
    · obtain rfl := Except.ok.inj houtcome
      rw [hsame.tree, hsame.workingDirectory] at hwritten
      exact ⟨text, hplans, hwritten⟩
    · cases herror

/-- Without success nothing was changed, or writing failed; files are what they were. -/
theorem unchanged_or_failsToWrite {project : Project} {action : Action}
    {result : Except ProjectError Outcome} (h : w.run (project.perform action) = (result, w'))
    (hnot : ∀ outcome, result = .ok outcome → ¬ outcome.isSuccess) :
    (w'.tree = w.tree ∨ ∃ error, result = .error error ∧ project.FailsToWrite w action error w') ∧
      ∀ place node, node ≠ .directory →
        (w'.tree.node? place = some node ↔ w.tree.node? place = some node) := by
  rcases perform_cases h with ⟨hsame, -⟩ | ⟨text, planned, report, v, hplans, hsame, hfinish⟩
  · exact ⟨.inl hsame.tree, fun place node _ => by rw [hsame.tree]⟩
  · rcases finish_cases hfinish with ⟨rfl, -⟩ | ⟨error, rfl, hwrite⟩
    · -- what is planned is a success
      refine absurd ?_ (hnot planned rfl)
      cases hplans with
      | generate => rfl
      | configure => rfl
    · rcases writeFile_cases hwrite with ⟨hok, -⟩ | ⟨hadds, problem, herror⟩
      · cases hok
      · rw [hsame.tree] at hadds
        have herror' : error = .file (action.target project) problem ∨
            ∃ parent, (action.target project).parent? = some parent ∧
              error = .file parent problem := by
          rcases herror with herror | ⟨parent, hparent, herror⟩
          · exact .inl (Except.error.inj herror)
          · exact .inr ⟨parent, hparent, Except.error.inj herror⟩
        refine ⟨.inr ⟨error, rfl, text, planned, v, hplans, hsame, hwrite, problem, herror'⟩, ?_⟩
        intro place node hfile
        exact hadds.node?_eq_some_iff hfile place

end Project

/-! ## The program -/

namespace CommandLine

theorem exitCode_response (result : Except ProjectError Outcome) :
    (response result).exitCode = 0 ↔ ∃ outcome, result = .ok outcome ∧ outcome.isSuccess := by
  cases result with
  | error error => cases error <;> simp [response]
  | ok outcome => cases houtcome : outcome.isSuccess <;> simp [response, houtcome]

/-- The exit code of an understood command line is zero exactly if the project loads, which only
reads, and the action succeeds. -/
theorem exitCode_run {arguments : List String} {environment : List (String × String)}
    {invocation : Invocation} (hparse : parse arguments = .ok invocation) {answer : Response}
    (h : (run (m := StateM Workspace) arguments environment).run w = (answer, w')) :
    answer.exitCode = 0 ↔ ∃ project v outcome,
      w.run (Project.load (invocation.setup environment)) = (.ok project, v) ∧ w.SameFiles v ∧
        v.run (project.perform invocation.action) = (.ok outcome, w') ∧ outcome.isSuccess := by
  have hrun : (run (m := StateM Workspace) arguments environment).run w =
      (response (w.run (invocation.perform environment)).1,
        (w.run (invocation.perform environment)).2) := by
    rw [run, hparse]
    rfl
  rw [hrun] at h
  obtain ⟨rfl, rfl⟩ := Prod.mk.inj h
  rw [exitCode_response]
  constructor
  · rintro ⟨outcome, houtcome, hsuccess⟩
    have hperform : w.run (invocation.perform environment) =
        (.ok outcome, (w.run (invocation.perform environment)).2) := Prod.ext houtcome rfl
    obtain ⟨project, v, hload, haction⟩ := Workspace.run_bind_eq_ok_iff.mp hperform
    have hsame := (Project.readsOnly_load _).sameFiles hload
    exact ⟨project, v, outcome, hload, hsame, haction, hsuccess⟩
  · rintro ⟨project, v, outcome, hload, -, haction, hsuccess⟩
    have hperform : w.run (invocation.perform environment) = (.ok outcome, _) :=
      Workspace.run_bind_eq_ok_iff.mpr ⟨project, v, hload, haction⟩
    exact ⟨outcome, congrArg Prod.fst hperform, hsuccess⟩

end CommandLine

/-- **All or nothing.**  An action that succeeds has written the planned text to its target, and has
changed nothing else but for new directories above.  An action that does not succeed has changed
nothing, unless it failed to write, and has changed no file in any case.  A command line that is
understood ends with the exit code zero exactly if its action succeeds. -/
theorem perform_effects :
    (∀ (project : Project) (action : Action) (w w' : Workspace)
      (result : Except ProjectError Outcome),
      w.run (project.perform action) = (result, w') →
        (∀ outcome, result = .ok outcome → outcome.isSuccess →
          ∃ text, project.Plans w action text outcome ∧
            FileTree.IsWritten w.workingDirectory (action.target project) text w.tree w'.tree) ∧
        ((∀ outcome, result = .ok outcome → ¬ outcome.isSuccess) →
          (w'.tree = w.tree ∨ ∃ error,
            result = .error error ∧ project.FailsToWrite w action error w') ∧
            ∀ place node, node ≠ .directory →
              (w'.tree.node? place = some node ↔ w.tree.node? place = some node))) ∧
      ∀ (arguments : List String) (environment : List (String × String))
        (invocation : CommandLine.Invocation) (w w' : Workspace) (answer : CommandLine.Response),
        CommandLine.parse arguments = .ok invocation →
          (CommandLine.run (m := StateM Workspace) arguments environment).run w = (answer, w') →
            (answer.exitCode = 0 ↔ ∃ project v outcome,
              w.run (Project.load (invocation.setup environment)) = (.ok project, v) ∧
              w.SameFiles v ∧
                v.run (project.perform invocation.action) = (.ok outcome, w') ∧
                outcome.isSuccess) := by
  constructor
  · intro project action w w' result h
    constructor
    · rintro outcome rfl hsuccess
      exact Project.isWritten_of_success h hsuccess
    · intro hnot
      exact Project.unchanged_or_failsToWrite h hnot
  · intro arguments environment invocation w w' answer hparse h
    exact CommandLine.exitCode_run hparse h

/-- A first run in an empty project makes the directory and writes the file, and a run from the
command line ends with the exit code zero. -/
theorem perform_effects_first_run :
    let project : Project :=
      { config := { output := ⟨"web/settings.php"⟩, settings := some [("salt", .string "SALT")] }
        root := ⟨"/p"⟩
        environment := [] }
    let w : Workspace := ⟨⟨[(["p"], .directory)]⟩, ["p"], []⟩
    (∃ outcome w', w.run (project.perform (.generate none none)) = (.ok outcome, w') ∧
      outcome.isSuccess ∧
      ∃ text, project.Plans w (.generate none none) text outcome ∧
        FileTree.IsWritten ["p"] ⟨"/p/web/settings.php"⟩ text w.tree w'.tree) ∧
    ∃ invocation answer w', CommandLine.parse ["generate"] = .ok invocation ∧
      (CommandLine.run (m := StateM Workspace) ["generate"] []).run w = (answer, w') ∧
      answer.exitCode = 0 ∧
      ∃ loaded v outcome, w.run (Project.load (invocation.setup [])) = (.ok loaded, v) ∧
        w.SameFiles v ∧ v.run (loaded.perform invocation.action) = (.ok outcome, w') ∧
        outcome.isSuccess := by
  intro project w
  constructor
  · have hok :
        (w.run (project.perform (.generate none none))).1.toOption.any Outcome.isSuccess := by
      dsimp only [project, w]
      decide +kernel
    rcases hrun : w.run (project.perform (.generate none none)) with ⟨error | outcome, w'⟩
    · rw [hrun] at hok
      cases hok
    · rw [hrun] at hok
      have hsuccess : outcome.isSuccess := hok
      have htarget : (Action.generate none none).target project = ⟨"/p/web/settings.php"⟩ := by
        dsimp only [project]
        decide +kernel
      have hwritten := (perform_effects.1 project _ w w' _ hrun).1 outcome rfl hsuccess
      rw [htarget] at hwritten
      exact ⟨outcome, w', rfl, hsuccess, hwritten⟩
  · have hcode :
        ((CommandLine.run (m := StateM Workspace) ["generate"] []).run w).1.exitCode = 0 := by
      dsimp only [w]
      decide +kernel
    have hunderstood : (CommandLine.parse ["generate"]).isOk := by decide +kernel
    cases hparse : CommandLine.parse ["generate"] with
    | error problem =>
      rw [hparse] at hunderstood
      cases hunderstood
    | ok invocation =>
      clear_value w
      rcases hrun :
        (CommandLine.run (m := StateM Workspace) ["generate"] []).run w with ⟨answer, w'⟩
      rw [hrun] at hcode
      have heffects :=
        (perform_effects.2 ["generate"] [] invocation w w' answer hparse hrun).mp hcode
      exact ⟨invocation, answer, w', rfl, rfl, hcode, heffects⟩

end SiteSettings
