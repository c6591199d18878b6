import SiteSettings.Project.Action
import SiteSettings.Proofs.Files.Runs
import SiteSettings.Proofs.Files.Tree

/-!
# Writing a file

A file is written below directories that may have to be made first.  If all goes well, the text is
where the path leads, and besides it there are new directories above at most (`FileTree.IsWritten`).
If not, there are new directories at most, and the error names the file or its parent.
-/

namespace SiteSettings

variable {w w' : Workspace}

/-! ## The two parts -/

@[simp] theorem Workspace.run_createDirectories (path : Path) :
    w.run (FileAccess.createDirectories path) =
      (.ok (w.tree.createDirectories w.workingDirectory (path.text.length + 1) path).2,
        { w with tree := (w.tree.createDirectories w.workingDirectory
          (path.text.length + 1) path).1 }) :=
  rfl

/-- The first part of writing a file. -/
def makeParent (path : Path) : ExceptT ProjectError (StateM Workspace) Unit :=
  match path.parent? with
  | none => pure ()
  | some parent =>
    if parent.text.isEmpty then pure ()
    else do
      match ← FileAccess.createDirectories parent with
      | .ok () => pure ()
      | .error problem => throw (.file parent problem)

/-- The second part. -/
def writeContent (path : Path) (content : String) :
    ExceptT ProjectError (StateM Workspace) Unit := do
  match ← FileAccess.write path content with
  | .ok () => pure ()
  | .error problem => throw (.file path problem)

theorem writeFile_eq (path : Path) (content : String) :
    writeFile path content = (makeParent path >>= fun _ => writeContent path content) := by
  rw [writeFile, makeParent]
  cases path.parent? with
  | none => rfl
  | some parent =>
    dsimp only
    split
    · rfl
    · -- the steps are the same, in another grouping
      rw [bind_assoc]
      congr 1
      funext answer
      cases answer with
      | ok => rfl
      | error problem => rfl

theorem run_makeParent {path : Path} {result : Except ProjectError Unit}
    (h : w.run (makeParent path) = (result, w')) :
    w'.workingDirectory = w.workingDirectory ∧
      FileTree.AddsDirectories w.workingDirectory (·.IsAbove path) w.tree w'.tree ∧
      ((result = .ok () ∧ ∀ parent, path.parent? = some parent → parent.text.isEmpty = false →
          w'.tree.isDirectory w.workingDirectory parent) ∨
        ∃ parent problem, path.parent? = some parent ∧ result = .error (.file parent problem)) := by
  rw [makeParent] at h
  split at h
  · rename_i hnone
    obtain ⟨rfl, rfl⟩ := Prod.mk.inj h
    exact ⟨rfl, .refl _ _, .inl ⟨rfl, fun parent hparent => by simp [hnone] at hparent⟩⟩
  · rename_i parent hparent
    by_cases hempty : parent.text.isEmpty
    · rw [if_pos hempty] at h
      obtain ⟨rfl, rfl⟩ := Prod.mk.inj h
      refine ⟨rfl, .refl _ _, .inl ⟨rfl, fun other hother hnonempty => ?_⟩⟩
      obtain rfl := Option.some.inj (hparent.symm.trans hother)
      simp [hempty] at hnonempty
    · rw [if_neg hempty, Workspace.run_bind_of_ok (Workspace.run_createDirectories parent)] at h
      generalize hmade :
        w.tree.createDirectories w.workingDirectory (parent.text.length + 1) parent =
        made at h
      obtain ⟨tree, answer⟩ := made
      obtain ⟨hadds, hdirectory⟩ := FileTree.addsDirectories_of_createDirectories hmade
      have habove := hadds.mono fun _ hpath => Path.isAbove_of_parent? hparent hpath
      cases answer with
      | ok =>
        obtain ⟨rfl, rfl⟩ := Prod.mk.inj h
        refine ⟨rfl, habove, .inl ⟨rfl, fun other hother hnonempty => ?_⟩⟩
        obtain rfl := Option.some.inj (hparent.symm.trans hother)
        exact hdirectory rfl hnonempty
      | error problem =>
        obtain ⟨rfl, rfl⟩ := Prod.mk.inj h
        exact ⟨rfl, habove, .inr ⟨parent, problem, hparent, rfl⟩⟩

theorem Workspace.run_write (path : Path) (content : String) :
    w.run (FileAccess.write path content) =
      (.ok (FileAccess.write (m := StateM Workspace) path content w).1,
        (FileAccess.write (m := StateM Workspace) path content w).2) :=
  rfl

theorem Workspace.run_write_of_ok {path : Path} {content : String} {tree : FileTree}
    (h : w.tree.write w.workingDirectory path content = .ok tree) :
    w.run (FileAccess.write path content) = (.ok (.ok ()), { w with tree }) := by
  have hstep : FileAccess.write (m := StateM Workspace) path content w =
      (.ok (), { w with tree }) := by
    simp only [FileAccess.write, h]
  rw [run_write, hstep]

theorem Workspace.run_write_of_error {path : Path} {content : String} {problem : FileProblem}
    (h : w.tree.write w.workingDirectory path content = .error problem) :
    w.run (FileAccess.write path content) = (.ok (.error problem), w) := by
  have hstep : FileAccess.write (m := StateM Workspace) path content w = (.error problem, w) := by
    simp only [FileAccess.write, h]
  rw [run_write, hstep]

theorem run_writeContent {path : Path} {content : String} {result : Except ProjectError Unit}
    (h : w.run (writeContent path content) = (result, w')) :
    (result = .ok () ∧ w'.workingDirectory = w.workingDirectory ∧
        w.tree.write w.workingDirectory path content = .ok w'.tree) ∨
      (w' = w ∧ ∃ problem, result = .error (.file path problem)) := by
  rw [writeContent] at h
  cases hwritten : w.tree.write w.workingDirectory path content with
  | ok tree =>
    rw [Workspace.run_bind_of_ok (Workspace.run_write_of_ok hwritten)] at h
    obtain ⟨rfl, rfl⟩ := Prod.mk.inj h
    exact .inl ⟨rfl, rfl, rfl⟩
  | error problem =>
    rw [Workspace.run_bind_of_ok (Workspace.run_write_of_error hwritten)] at h
    obtain ⟨rfl, rfl⟩ := Prod.mk.inj h
    exact .inr ⟨rfl, problem, rfl⟩

/-! ## The whole -/

/-- What is new in a file tree after a file was written: the text at the place where the path leads,
where no directory was, and directories above it. -/
structure FileTree.IsWritten (workingDirectory : Place) (path : Path) (content : String)
    (tree tree' : FileTree) : Prop where
  target : ∃ place, tree'.locate workingDirectory path = .ok (.existing place (.text content)) ∧
    tree.node? place ≠ some .directory ∧
    ∀ other, other ≠ place → tree'.node? other = tree.node? other ∨
      (tree.node? other = none ∧ tree'.node? other = some .directory ∧ ∃ above : Path,
        above.IsAbove path ∧ tree'.locate workingDirectory above = .ok (.existing other .directory))
  parent : ∀ parent, path.parent? = some parent → parent.text.isEmpty = false →
    tree'.isDirectory workingDirectory parent

theorem FileTree.IsWritten.of_write {workingDirectory : Place} {path : Path} {content : String}
    {tree made tree' : FileTree}
    (hmade : AddsDirectories workingDirectory (·.IsAbove path) tree made)
    (hparent : ∀ parent, path.parent? = some parent → parent.text.isEmpty = false →
      made.isDirectory workingDirectory parent)
    (h : made.write workingDirectory path content = .ok tree') :
    IsWritten workingDirectory path content tree tree' := by
  obtain ⟨place, hplace, hold, rfl, hlocate⟩ := write_eq_ok h
  have hkeeps := keepsDirectories_put hplace hold (.text content)
  refine ⟨⟨place, hlocate,
    fun hdirectory => hold (hmade.keepsDirectories place hdirectory), ?_⟩, ?_⟩
  · intro other hother
    rw [node?_put_of_ne made hplace hother]
    rcases hmade other with hsame | ⟨hnone, hnew, above, habove, hled⟩
    · exact .inl hsame
    · exact .inr ⟨hnone, hnew, above, habove, hkeeps.locate hled⟩
  · intro parent hp hnonempty
    have hdirectory := hparent parent hp hnonempty
    rw [isDirectory] at hdirectory ⊢
    split at hdirectory
    · rw [hkeeps.locate ‹_›]
    · cases hdirectory

/-- Writing a file either does all of it or fails, with new directories at most. -/
theorem writeFile_cases {path : Path} {content : String} {result : Except ProjectError Unit}
    (h : w.run (writeFile path content) = (result, w')) :
    (result = .ok () ∧ w'.workingDirectory = w.workingDirectory ∧
        FileTree.IsWritten w.workingDirectory path content w.tree w'.tree) ∨
      (FileTree.AddsDirectories w.workingDirectory (·.IsAbove path) w.tree w'.tree ∧
        ∃ problem, result = .error (.file path problem) ∨
          ∃ parent, path.parent? = some parent ∧ result = .error (.file parent problem)) := by
  rw [writeFile_eq, Workspace.run_bind] at h
  generalize hmake : w.run (makeParent path) = made at h
  obtain ⟨answer, v⟩ := made
  obtain ⟨hdirectory, hadds, ⟨rfl, hparent⟩ | ⟨parent, problem, hparent, rfl⟩⟩ :=
    run_makeParent hmake
  · rcases run_writeContent h with ⟨rfl, hsame, hwritten⟩ | ⟨rfl, problem, rfl⟩
    · rw [hdirectory] at hsame hwritten
      exact .inl ⟨rfl, hsame, .of_write hadds hparent hwritten⟩
    · exact .inr ⟨hadds, problem, .inl rfl⟩
  · obtain ⟨rfl, rfl⟩ := Prod.mk.inj h
    exact .inr ⟨hadds, problem, .inr ⟨parent, hparent, rfl⟩⟩

end SiteSettings
