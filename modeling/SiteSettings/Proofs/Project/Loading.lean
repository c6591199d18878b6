import SiteSettings.Project.Basic
import SiteSettings.Proofs.Config.Search
import SiteSettings.Proofs.Results

/-!
# Loading a project

Loading only reads.  If it succeeds, every override had a key of some field, and the configuration
is what the sources of the setup describe: the texts of its project files, found ones before named
ones, the environment and the overrides.
-/

namespace SiteSettings

/-! ## The sources of a setup -/

namespace ProjectSetup

/-- The directory that the relative paths of a setup start from. -/
def rootIn (setup : ProjectSetup) (w : Workspace) : Path :=
  setup.root.getD w.workingDirectory.toPath

/-- Whether the project files are looked for in these directories, the last one with the
highest priority. -/
def Searches (setup : ProjectSetup) (w : Workspace) (directories : List Path) : Prop :=
  ∃ groups, directories = groups.flatten ∧
    List.Forall₂ (SearchPath.Leads w (setup.rootIn w)) setup.searchPaths groups

/-- The paths of the project files, from the lowest to the highest priority. -/
def filePaths (setup : ProjectSetup) (w : Workspace) (directories : List Path) : List Path :=
  directories.map (·.join ⟨setup.fileName⟩) ++ setup.configFiles.map (setup.rootIn w).join

/-- The sources with these project files. -/
def sources (setup : ProjectSetup) (files : List (Path × String)) : Config.Sources where
  files := files
  environment := setup.environment
  variablePrefix := setup.variablePrefix
  overrides := setup.overrides
  strict := setup.strict

theorem isValidKey_of_invalidOverride? {setup : ProjectSetup} (h : setup.invalidOverride? = none) :
    ∀ e ∈ setup.overrides, Config.isValidKey e.1 := by
  intro e he
  have hnone := List.find?_eq_none.mp (Option.map_eq_none_iff.mp h) e he
  simpa using hnone

end ProjectSetup

/-! ## Loading -/

namespace Project

variable {setup : ProjectSetup} {w w' : Workspace} {project : Project}

/-- What loading does from where the root is known. -/
def loadFrom (setup : ProjectSetup) (root : Path) :
    ExceptT ProjectError (StateM Workspace) Project := do
  FileAccess.log ⟨.debug, .project, "loading project", [("root", root.text)]⟩
  let found ← Config.findFiles root setup.searchPaths setup.fileName
  let named ← setup.configFiles.mapM fun path => Config.readNamed (root.join path)
  match Config.resolve (setup.sources (found ++ named)) with
  | .ok config => pure ⟨config, root, setup.environment⟩
  | .error error => throw error

theorem run_load (h : setup.invalidOverride? = none) :
    w.run (load setup) = w.run (loadFrom setup (setup.rootIn w)) := by
  have hroot : setup.rootIn w = setup.root.getD w.workingDirectory.toPath := rfl
  rw [load, h, hroot]
  cases setup.root with
  | none =>
    dsimp only
    rw [Workspace.run_bind_of_ok Workspace.run_workingDirectory]
    rfl
  | some root =>
    dsimp only
    rw [pure_bind]
    rfl

theorem readsOnly_loadFrom (setup : ProjectSetup) (root : Path) :
    ReadsOnly (loadFrom setup root) := by
  refine (ReadsOnly.log _).bind fun _ => ?_
  refine (Config.readsOnly_findFiles root setup.searchPaths setup.fileName).bind fun found => ?_
  refine (ReadsOnly.mapM fun path => Config.readsOnly_readNamed (root.join path)).bind
    fun named => ?_
  split
  · exact .pure _
  · exact .throw _

theorem readsOnly_load (setup : ProjectSetup) : ReadsOnly (load (m := StateM Workspace) setup) := by
  cases hvalid : setup.invalidOverride? with
  | none =>
    constructor
    · intro w
      rw [run_load hvalid]
      exact (readsOnly_loadFrom setup _).leaves w
    · intro w v h
      have hroot : setup.rootIn v = setup.rootIn w := by
        rw [ProjectSetup.rootIn, ProjectSetup.rootIn, h.workingDirectory]
      rw [run_load hvalid, run_load hvalid, hroot]
      exact (readsOnly_loadFrom setup _).depends h
  | some key =>
    rw [load, hvalid]
    exact .throw _

/-- What loading comes to if it succeeds. -/
theorem load_eq_ok (h : w.run (load setup) = (.ok project, w')) :
    (∀ e ∈ setup.overrides, Config.isValidKey e.1) ∧
      project.root = setup.rootIn w ∧ project.environment = setup.environment ∧
      ∃ directories, setup.Searches w directories ∧
        Config.resolve (setup.sources (w.readable (setup.filePaths w directories))) =
          .ok project.config := by
  have hvalid : setup.invalidOverride? = none := by
    by_contra hinvalid
    obtain ⟨key, hkey⟩ := Option.ne_none_iff_exists'.mp hinvalid
    rw [load, hkey] at h
    cases (Prod.mk.inj h).1
  rw [run_load hvalid, loadFrom] at h
  obtain ⟨_, w₁, hlog, h⟩ := Workspace.run_bind_eq_ok_iff.mp h
  obtain ⟨found, w₂, hfound, h⟩ := Workspace.run_bind_eq_ok_iff.mp h
  obtain ⟨named, w₃, hnamed, h⟩ := Workspace.run_bind_eq_ok_iff.mp h
  have hsame₁ : w.SameFiles w₁ := (ReadsOnly.log _).sameFiles hlog
  have hsame₂ : w.SameFiles w₂ :=
    hsame₁.trans ((Config.readsOnly_findFiles _ _ _).sameFiles hfound)
  obtain ⟨groups, hleads, rfl⟩ := Config.eq_readable_of_findFiles hfound
  have hnamed' : named = w.readable (setup.configFiles.map (setup.rootIn w).join) := by
    have hmap : setup.configFiles.mapM (Config.readNamed ∘ (setup.rootIn w).join) =
        (setup.configFiles.map (setup.rootIn w).join).mapM
          (Config.readNamed (m := StateM Workspace)) :=
      List.mapM_map.symm
    rw [← hsame₂.readable_eq]
    exact Config.eq_readable_of_mapM_readNamed (hmap ▸ hnamed)
  rw [hsame₁.leads_eq] at hleads
  rw [hsame₁.readable_eq, hnamed', Workspace.readable, Workspace.readable,
    ← List.filterMap_append] at h
  refine ⟨ProjectSetup.isValidKey_of_invalidOverride? hvalid, ?_⟩
  split at h
  · rename_i config hconfig
    obtain rfl := Except.ok.inj (Prod.mk.inj h).1
    exact ⟨rfl, rfl, groups.flatten, ⟨groups, rfl, hleads⟩, hconfig⟩
  · cases (Prod.mk.inj h).1

end Project
end SiteSettings
