import SiteSettings.Proofs.Files.Spelling
import SiteSettings.Proofs.Project.Loading

/-!
# Relative roots

A project's root may be given relative to the working directory.  Its project files are then looked
for upwards from there, by the text of the path alone, so the walk ends in the working directory: it
does not see the directories above, as the walk from the same root given by its absolute path does.
If the walk meets its marker in time, the two spellings make no difference (`load_relative_root`).
If not, they may lead to different configurations (`load_relative_root_unmarked`).

The two walks are compared step by step: `RunsAlike` says that two computations come to the same
but for how paths are spelled, and each step of loading is shown to be alike on paths that lead
to the same place.
-/

namespace SiteSettings

/-! ## Alike results -/

/-- An error with its paths replaced. -/
def ProjectError.mapPaths (f : Path → Path) : ProjectError → ProjectError
  | .unknownKeys keys => .unknownKeys (keys.map fun key => { key with path := f key.path })
  | .malformedToml path => .malformedToml (f path)
  | .wrongType path reason => .wrongType (f path) reason
  | .malformedJson path => .malformedJson (f path)
  | .file path problem => .file (f path) problem
  | .invalidValue key reason => .invalidValue key reason
  | .template error => .template error
  | .setting error => .setting error
  | .noSettingsAt path pointer => .noSettingsAt (f path) pointer
  | .marginTooLong => .marginTooLong

/-- Whether two results agree: answers that are related, or the same error, but for how paths are
spelled. -/
inductive Alike {α β : Type} (directory : Place) (R : α → β → Prop) :
    Except ProjectError α → Except ProjectError β → Prop
  | ok {a : α} {b : β} (h : R a b) : Alike directory R (.ok a) (.ok b)
  | error {e e' : ProjectError}
    (h : e.mapPaths (·.absoluteFrom directory) = e'.mapPaths (·.absoluteFrom directory)) :
    Alike directory R (.error e) (.error e')

variable {α β γ δ : Type} {directory : Place} {R : α → β → Prop} {S : γ → δ → Prop}

namespace Alike

theorem bind {x : Except ProjectError α} {y : Except ProjectError β} {f : α → Except ProjectError γ}
    {g : β → Except ProjectError δ} (hx : Alike directory R x y)
    (hf : ∀ a b, R a b → Alike directory S (f a) (g b)) :
    Alike directory S (x >>= f) (y >>= g) := by
  cases hx with
  | ok h => exact hf _ _ h
  | error h => exact .error h

theorem mapM {f : α → Except ProjectError γ} {g : β → Except ProjectError δ} {items : List α}
    {items' : List β} (hitems : List.Forall₂ R items items')
    (hf : ∀ a b, R a b → Alike directory S (f a) (g b)) :
    Alike directory (List.Forall₂ S) (items.mapM f) (items'.mapM g) := by
  induction hitems with
  | nil => exact .ok .nil
  | cons hitem _ ih =>
    rw [List.mapM_cons, List.mapM_cons]
    refine (hf _ _ hitem).bind fun c d hcd => ?_
    refine ih.bind fun more more' hmore => ?_
    exact .ok (.cons hcd hmore)

end Alike

/-! ## Alike computations -/

/-- Whether two computations agree on the files of a workspace, and leave them as they are. -/
def RunsAlike (w : Workspace) (R : α → β → Prop) (x : ExceptT ProjectError (StateM Workspace) α)
    (y : ExceptT ProjectError (StateM Workspace) β) : Prop :=
  ∀ ⦃v v' : Workspace⦄, w.SameFiles v → w.SameFiles v' →
    Alike w.workingDirectory R (v.run x).1 (v'.run y).1 ∧
      w.SameFiles (v.run x).2 ∧ w.SameFiles (v'.run y).2

namespace RunsAlike

variable {w : Workspace} {x : ExceptT ProjectError (StateM Workspace) α}
  {y : ExceptT ProjectError (StateM Workspace) β}

/-- Two computations that only read agree if they do on the workspace itself. -/
theorem of_readsOnly (hx : ReadsOnly x) (hy : ReadsOnly y)
    (h : Alike w.workingDirectory R (w.run x).1 (w.run y).1) : RunsAlike w R x y := by
  intro v v' hv hv'
  rw [hx.depends hv, hy.depends hv']
  exact ⟨h, hv.trans (hx.leaves v), hv'.trans (hy.leaves v')⟩

theorem pure {a : α} {b : β} (h : R a b) :
    RunsAlike w R (Pure.pure a) (Pure.pure b) :=
  of_readsOnly (.pure a) (.pure b) (.ok h)

theorem throw {e e' : ProjectError} (h : e.mapPaths (·.absoluteFrom w.workingDirectory) =
    e'.mapPaths (·.absoluteFrom w.workingDirectory)) :
    RunsAlike w R (MonadExcept.throw e) (MonadExcept.throw e') :=
  of_readsOnly (.throw e) (.throw e') (.error h)

theorem log (report report' : Report) :
    RunsAlike w (fun _ _ => True) (FileAccess.log report) (FileAccess.log report') :=
  of_readsOnly (.log report) (.log report') (.ok trivial)

theorem bind {f : α → ExceptT ProjectError (StateM Workspace) γ}
    {g : β → ExceptT ProjectError (StateM Workspace) δ} (hx : RunsAlike w R x y)
    (hf : ∀ a b, R a b → RunsAlike w S (f a) (g b)) : RunsAlike w S (x >>= f) (y >>= g) := by
  intro v v' hv hv'
  obtain ⟨hfirst, hleft, hright⟩ := hx hv hv'
  rw [Workspace.run_bind, Workspace.run_bind]
  generalize v.run x = first at hfirst hleft
  generalize v'.run y = first' at hfirst hright
  obtain ⟨result, v₁⟩ := first
  obtain ⟨result', v₁'⟩ := first'
  cases hfirst with
  | ok h => exact hf _ _ h hleft hright
  | error h => exact ⟨.error h, hleft, hright⟩

theorem mapM {f : α → ExceptT ProjectError (StateM Workspace) γ}
    {g : α → ExceptT ProjectError (StateM Workspace) δ} {items : List α}
    (hf : ∀ a ∈ items, RunsAlike w S (f a) (g a)) :
    RunsAlike w (List.Forall₂ S) (items.mapM f) (items.mapM g) := by
  induction items with
  | nil => exact .pure .nil
  | cons item rest ih =>
    obtain ⟨hself, hrest⟩ := List.forall_mem_cons.mp hf
    rw [List.mapM_cons, List.mapM_cons]
    refine hself.bind fun c d hcd => ?_
    refine (ih hrest).bind fun more more' hmore => ?_
    exact .pure (.cons hcd hmore)

end RunsAlike

/-! ## Walking up two spellings -/

variable {w : Workspace} {p q f : Path} {marker : String}

/-- Whether a directory that a relative path leads to is marked depends on the names of the path. -/
theorem Workspace.isMarked_iff_of_names_eq (hmarker : marker ≠ "") {above : Path}
    (habove : above.isAbsolute = false) (hp : p.isAbsolute = false)
    (hnames : above.names = p.names) :
    w.IsMarked (some marker) above ↔ w.IsMarked (some marker) p := by
  have hlocate : w.tree.locate w.workingDirectory (above.join ⟨marker⟩) =
      w.tree.locate w.workingDirectory (p.join ⟨marker⟩) :=
    FileTree.locate_join_congr _ hmarker (habove.trans hp.symm) hnames
  simp only [Workspace.IsMarked, FileTree.pathExists, Option.some.injEq, exists_eq_left', hlocate]

theorem runsAlike_askMarker (hdirectory : w.tree.IsDirectoryPath w.workingDirectory)
    (h : p.SamePlace w.workingDirectory q) (hmarker : marker ≠ "") :
    RunsAlike w (fun stop stop' : Bool => stop = stop' ∧ (stop ↔ w.IsMarked (some marker) p))
      (Config.askMarker (some marker) p) (Config.askMarker (some marker) q) := by
  have hexists : w.tree.pathExists w.workingDirectory (p.join ⟨marker⟩) =
      w.tree.pathExists w.workingDirectory (q.join ⟨marker⟩) := by
    rw [FileTree.pathExists, FileTree.pathExists, h.locate_join hdirectory hmarker]
  refine .of_readsOnly (.pathExists _) (.pathExists _) (.ok ⟨hexists, ?_⟩)
  simp [Workspace.IsMarked]

/-- A walk that meets its marker visits the same places in both spellings. -/
theorem runsAlike_ancestorsFrom (hdirectory : w.tree.IsDirectoryPath w.workingDirectory)
    (hmarker : marker ≠ "") {fuel fuel' : Nat} (h : p.SamePlace w.workingDirectory q)
    (hfuel : p.text.length < fuel) (hfuel' : q.text.length < fuel') {above : Path}
    (habove : above.isAbsolute = false) (hbegins : above.names <+: p.names)
    (hmarked : w.IsMarked (some marker) above) :
    RunsAlike w (List.Forall₂ (Path.SamePlace w.workingDirectory))
      (Config.ancestorsFrom (some marker) fuel p) (Config.ancestorsFrom (some marker) fuel' q) := by
  induction fuel generalizing fuel' p q with
  | zero => omega
  | succ fuel ih =>
    obtain ⟨fuel', rfl⟩ : ∃ n, fuel' = n + 1 := ⟨fuel' - 1, by omega⟩
    rw [Config.ancestorsFrom_succ, Config.ancestorsFrom_succ]
    refine (runsAlike_askMarker hdirectory h hmarker).bind ?_
    rintro stop _ ⟨rfl, hstop⟩
    rw [Config.walkOn, Config.walkOn]
    by_cases hhere : stop
    · rw [if_pos hhere, if_pos hhere]
      exact .pure (.cons h .nil)
    · rw [if_neg hhere, if_neg hhere]
      -- The marker stands further up, so neither path is at its end yet.
      have hother : above.names ≠ p.names := fun hnames => hhere (hstop.mpr
        ((Workspace.isMarked_iff_of_names_eq hmarker habove h.relative hnames).mp hmarked))
      obtain ⟨more, hmore⟩ := hbegins
      have hne : more ≠ [] := by
        rintro rfl
        exact hother (by rw [← hmore, List.append_nil])
      have hnames : p.names ≠ [] := by simp [← hmore, hne]
      have hnames' : q.names ≠ [] := by simp [h.names, hnames]
      obtain ⟨parent, hparent⟩ := Path.exists_parent hnames
      obtain ⟨parent', hparent'⟩ := Path.exists_parent hnames'
      have hshorter := Path.length_lt_of_parent? hparent
      have hshorter' := Path.length_lt_of_parent? hparent'
      have hbegins : above.names <+: parent.names := by
        rw [(Path.names_parent hparent).1, ← hmore, List.dropLast_append_of_ne_nil hne]
        exact List.prefix_append _ _
      rw [hparent, hparent']
      refine (ih (h.parent hparent hparent' hnames) (by omega) (by omega) hbegins).bind ?_
      intro directories directories' hdirectories
      exact .pure (List.rel_append hdirectories (.cons h .nil))

/-! ## Reading through two spellings -/

/-- Whether two files have the same text, and paths that lead alike. -/
def FilesAlike (directory : Place) (file file' : Path × String) : Prop :=
  file.1.absoluteFrom directory = file'.1.absoluteFrom directory ∧ file.2 = file'.2

theorem runsAlike_read (hdirectory : w.tree.IsDirectoryPath w.workingDirectory)
    (h : p.SamePlace w.workingDirectory q) (hf : f.text ≠ "") :
    RunsAlike w Eq (FileAccess.read (p.join f)) (FileAccess.read (q.join f)) := by
  refine .of_readsOnly (.read _) (.read _) ?_
  rw [Workspace.run_read, Workspace.run_read, FileTree.read, FileTree.read,
    h.locate_join hdirectory hf]
  exact .ok rfl

theorem runsAlike_readAlong (hdirectory : w.tree.IsDirectoryPath w.workingDirectory)
    {fileName : String} (hname : fileName ≠ "") {directories directories' : List Path}
    (h : List.Forall₂ (Path.SamePlace w.workingDirectory) directories directories') :
    RunsAlike w (List.Forall₂ (FilesAlike w.workingDirectory))
      (Config.readAlong fileName directories)
      (Config.readAlong fileName directories') := by
  induction h with
  | nil => exact .pure .nil
  | @cons p q _ _ hself _ ih =>
    have hpath := hself.absoluteFrom_join ⟨fileName⟩
    rw [Config.readAlong, Config.readAlong]
    refine (runsAlike_read hdirectory hself hname).bind ?_
    rintro answer _ rfl
    cases answer with
    | ok content =>
      refine (RunsAlike.log _ _).bind fun _ _ _ => ih.bind fun more more' hmore => ?_
      exact .pure (.cons ⟨hpath, rfl⟩ hmore)
    | error problem =>
      cases problem with
      | notFound => exact ih
      | _ => exact .throw (congrArg (ProjectError.file · _) hpath)

theorem runsAlike_readNamed (hdirectory : w.tree.IsDirectoryPath w.workingDirectory)
    (h : p.SamePlace w.workingDirectory q) (hf : f.text ≠ "") :
    RunsAlike w (FilesAlike w.workingDirectory) (Config.readNamed (p.join f))
      (Config.readNamed (q.join f)) := by
  have hpath := h.absoluteFrom_join f
  rw [Config.readNamed, Config.readNamed]
  refine (runsAlike_read hdirectory h hf).bind ?_
  rintro answer _ rfl
  cases answer with
  | ok content =>
    refine (RunsAlike.log _ _).bind fun _ _ _ => ?_
    exact .pure ⟨hpath, rfl⟩
  | error problem => exact .throw (congrArg (ProjectError.file · problem) hpath)

/-! ## Resolving -/

namespace Config

theorem alike_checkFile {path path' : Path}
    (h : path.absoluteFrom directory = path'.absoluteFrom directory) (content : String) :
    Alike directory Eq (checkFile path content) (checkFile path' content) := by
  rw [checkFile, checkFile]
  cases Toml.parse content with
  | none => exact .error (congrArg ProjectError.malformedToml h)
  | some table =>
    dsimp only
    cases readConfig .asTables table with
    | error mistake => exact .error (congrArg (ProjectError.wrongType · mistake.reason) h)
    | ok config =>
      dsimp only
      cases unknownKeys .asTables table with
      | nil => exact .ok rfl
      | cons key rest =>
        refine .error ?_
        simp only [ProjectError.mapPaths, List.map_map, Function.comp_def, h]

theorem alike_fileTable {file file' : Path × String} (h : FilesAlike directory file file')
    (strict : Bool) :
    Alike directory Eq (fileTable strict file.1 file.2) (fileTable strict file'.1 file'.2) := by
  obtain ⟨path, content⟩ := file
  obtain ⟨path', _⟩ := file'
  obtain ⟨hpath, rfl⟩ := h
  have hparse : Alike directory Eq (fileTable false path content)
      (fileTable false path' content) := by
    dsimp only [fileTable]
    cases Toml.parse content with
    | none => exact .error (congrArg ProjectError.malformedToml hpath)
    | some table => exact .ok rfl
  cases strict with
  | false => exact hparse
  | true => exact (alike_checkFile hpath content).bind fun _ _ _ => hparse

theorem alike_resolve {setup : ProjectSetup} {files files' : List (Path × String)}
    (h : List.Forall₂ (FilesAlike directory) files files') :
    Alike directory Eq (resolve (setup.sources files)) (resolve (setup.sources files')) := by
  have htables := Alike.mapM h fun file file' hfile => alike_fileTable hfile setup.strict
  rw [List.forall₂_eq_eq_eq] at htables
  have htable : Alike directory Eq (setup.sources files).table (setup.sources files').table := by
    refine htables.bind ?_
    rintro tables _ rfl
    exact .ok rfl
  refine htable.bind ?_
  rintro table _ rfl
  cases readConfig .asText table with
  | ok config => exact .ok rfl
  | error mistake => exact .error rfl

end Config

/-! ## Loading -/

namespace Project

theorem runsAlike_loadFrom {setup : ProjectSetup}
    (hdirectory : w.tree.IsDirectoryPath w.workingDirectory) (h : p.SamePlace w.workingDirectory q)
    (hmarker : marker ≠ "") (hsearch : setup.searchPaths = [.ancestors (some marker)])
    (hname : setup.fileName ≠ "") (hnamed : ∀ path ∈ setup.configFiles, path.text ≠ "")
    {above : Path} (habove : above.isAbsolute = false) (hbegins : above.names <+: p.names)
    (hmarked : w.IsMarked (some marker) above) :
    RunsAlike w (fun project project' => project.config = project'.config)
      (loadFrom setup p) (loadFrom setup q) := by
  have hwalk :=
    runsAlike_ancestorsFrom hdirectory hmarker h (Nat.lt_succ_self _) (Nat.lt_succ_self _)
    habove hbegins hmarked
  have hdirectories : RunsAlike w (List.Forall₂ (Path.SamePlace w.workingDirectory))
      (Config.searchDirectories p setup.searchPaths)
        (Config.searchDirectories q setup.searchPaths) := by
    have hgroups : RunsAlike w (List.Forall₂ (List.Forall₂ (Path.SamePlace w.workingDirectory)))
        (setup.searchPaths.mapM (Config.directoriesOf p))
        (setup.searchPaths.mapM (Config.directoriesOf q)) := by
      refine .mapM fun path hpath => ?_
      rw [hsearch] at hpath
      obtain rfl := List.mem_singleton.mp hpath
      exact hwalk
    exact hgroups.bind fun _ _ hpaths => .pure (List.rel_flatten hpaths)
  have hfound : RunsAlike w (List.Forall₂ (FilesAlike w.workingDirectory))
      (Config.findFiles p setup.searchPaths setup.fileName)
      (Config.findFiles q setup.searchPaths setup.fileName) :=
    hdirectories.bind fun _ _ hpaths => runsAlike_readAlong hdirectory hname hpaths
  have hnamedFiles : RunsAlike w (List.Forall₂ (FilesAlike w.workingDirectory))
      (setup.configFiles.mapM fun path => Config.readNamed (p.join path))
      (setup.configFiles.mapM fun path => Config.readNamed (q.join path)) :=
    .mapM fun path hpath => runsAlike_readNamed hdirectory h (hnamed path hpath)
  refine (RunsAlike.log _ _).bind fun _ _ _ => hfound.bind fun found found' hfiles => ?_
  refine hnamedFiles.bind fun named named' hnamed => ?_
  have hresolve : Alike w.workingDirectory Eq (Config.resolve (setup.sources (found ++ named)))
      (Config.resolve (setup.sources (found' ++ named'))) :=
    Config.alike_resolve (List.rel_append hfiles hnamed)
  generalize Config.resolve (setup.sources (found ++ named)) = result at hresolve
  generalize Config.resolve (setup.sources (found' ++ named')) = result' at hresolve
  cases hresolve with
  | ok hconfig => exact .pure hconfig
  | error herror => exact .throw herror

end Project

/-- **Relative roots.**  A project whose root is relative to the working directory is searched as by
default, and the marker is in the root or in a directory between it and the working directory.  Then
loading it with the same root as an absolute path gives the same configuration, or fails with the
same error but for how paths are spelled. -/
theorem load_relative_root (setup : ProjectSetup) {w : Workspace} {root : Path}
    (hdirectory : w.tree.IsDirectoryPath w.workingDirectory) (hroot : root.isAbsolute = false)
    (hsearch : setup.searchPaths = [.ancestors (some "composer.json")])
    (hname : setup.fileName ≠ "") (hnamed : ∀ path ∈ setup.configFiles, path.text ≠ "")
    (hmarked : ∃ above : Path, above.isAbsolute = false ∧ above.names <+: root.names ∧
      w.IsMarked (some "composer.json") above) :
    Alike w.workingDirectory (fun project project' => project.config = project'.config)
      (w.run (Project.load { setup with root := some root })).1
      (w.run (Project.load
        { setup with root := some (w.workingDirectory.toPath.join root) })).1 := by
  obtain ⟨above, habove, hbegins, hmarked⟩ := hmarked
  have hmarker : "composer.json" ≠ "" := by decide
  have hsame := Path.samePlace_join hdirectory hroot
  cases hvalid : setup.invalidOverride? with
  | some key =>
    have hfails (path : Path) : w.run (Project.load { setup with root := some path }) =
        (.error (.invalidValue key "not a configuration key"), w) := by
      have hkey : { setup with root := some path }.invalidOverride? = some key := hvalid
      rw [Project.load, hkey]
      rfl
    rw [hfails, hfails]
    exact .error rfl
  | none =>
    have hload (path : Path) : w.run (Project.load { setup with root := some path }) =
        w.run (Project.loadFrom setup path) :=
      Project.run_load hvalid
    rw [hload, hload]
    exact (Project.runsAlike_loadFrom hdirectory hsame hmarker hsearch hname hnamed habove
      hbegins hmarked
      (.refl w) (.refl w)).1

/-- The marker is in the working directory, which is the root. -/
theorem load_relative_root_marked :
    let w : Workspace :=
      ⟨⟨[(["p"], .directory), (["p", "c"], .directory), (["p", "c", "composer.json"], .text ""),
        (["p", "env-settings.toml"], .text "indent = 8\n"),
        (["p", "c", "env-settings.toml"], .text "indent = 4\n")]⟩, ["p", "c"], []⟩
    w.tree.IsDirectoryPath w.workingDirectory ∧
      w.IsMarked (some "composer.json") ⟨"."⟩ ∧
      Alike w.workingDirectory (fun project project' => project.config = project'.config)
        (w.run (Project.load { root := some ⟨"."⟩ })).1
        (w.run (Project.load { root := some ⟨"/p/c/."⟩ })).1 := by
  intro w
  have hdirectory : w.tree.IsDirectoryPath w.workingDirectory := by
    constructor
    · intro name hname
      obtain rfl | rfl : name = "p" ∨ name = "c" := by simpa [w] using hname
      all_goals exact ⟨⟨by decide, by decide⟩, by decide⟩
    · intro above habove
      rcases List.prefix_cons_iff.mp habove with rfl | ⟨below, rfl, hbelow⟩
      · rfl
      · rcases List.prefix_cons_iff.mp hbelow with rfl | ⟨lower, rfl, hlower⟩
        · rfl
        · obtain rfl := List.prefix_nil.mp hlower
          rfl
  have hmarked : w.IsMarked (some "composer.json") ⟨"."⟩ :=
    ⟨"composer.json", rfl, by decide +kernel⟩
  have hjoin : w.workingDirectory.toPath.join ⟨"."⟩ = ⟨"/p/c/."⟩ := by decide +kernel
  refine ⟨hdirectory, hmarked, ?_⟩
  rw [← hjoin]
  exact load_relative_root {} hdirectory rfl rfl (by decide) (by simp)
    ⟨⟨"."⟩, rfl, List.prefix_refl _, hmarked⟩

/-- Without a marker the relative walk ends in the working directory, and the absolute one goes on
to the directory above. -/
theorem load_relative_root_unmarked :
    let w : Workspace :=
      ⟨⟨[(["p"], .directory), (["p", "c"], .directory),
        (["p", "env-settings.toml"], .text "indent = 4\n")]⟩, ["p", "c"], []⟩
    w.workingDirectory.toPath.join ⟨"."⟩ = ⟨"/p/c/."⟩ ∧
      ((w.run (Project.load { root := some ⟨"."⟩ })).1.toOption.map (·.config.indent)) = some 2 ∧
      ((w.run (Project.load { root := some ⟨"/p/c/."⟩ })).1.toOption.map (·.config.indent)) =
        some 4 := by
  decide +kernel

end SiteSettings
