import Mathlib.Data.List.Forall2
import SiteSettings.Error
import SiteSettings.Files.Tree

/-!
# Runs on a workspace

A computation that reads and writes files is run on a workspace and leaves another one behind.  A
run of several steps succeeds if each of them does, on the workspace that the one before it left
(`run_bind_eq_ok_iff`).

Most steps only read: what they leave differs in the reports at most (`ReadsOnly`).
-/

namespace SiteSettings

/-! ## Runs -/

/-- What a computation comes to on a workspace, and the workspace it leaves. -/
def Workspace.run {α : Type} (w : Workspace) (x : ExceptT ProjectError (StateM Workspace) α) :
    Except ProjectError α × Workspace :=
  x.run w

/-- Whether two workspaces differ in their reports at most. -/
structure Workspace.SameFiles (w w' : Workspace) : Prop where
  tree : w'.tree = w.tree
  workingDirectory : w'.workingDirectory = w.workingDirectory

namespace Workspace

theorem SameFiles.refl (w : Workspace) : w.SameFiles w :=
  ⟨rfl, rfl⟩

theorem SameFiles.trans {w w' w'' : Workspace} (h : w.SameFiles w') (h' : w'.SameFiles w'') :
    w.SameFiles w'' :=
  ⟨h'.tree.trans h.tree, h'.workingDirectory.trans h.workingDirectory⟩

theorem SameFiles.symm {w w' : Workspace} (h : w.SameFiles w') : w'.SameFiles w :=
  ⟨h.tree.symm, h.workingDirectory.symm⟩

variable {α β : Type} {w w' : Workspace} {x : ExceptT ProjectError (StateM Workspace) α}
  {f : α → ExceptT ProjectError (StateM Workspace) β}

@[simp] theorem run_pure (a : α) : w.run (pure a) = (.ok a, w) :=
  rfl

@[simp] theorem run_read (path : Path) :
    w.run (FileAccess.read path) = (.ok (w.tree.read w.workingDirectory path), w) :=
  rfl

@[simp] theorem run_pathExists (path : Path) :
    w.run (FileAccess.pathExists path) = (.ok (w.tree.pathExists w.workingDirectory path), w) :=
  rfl

@[simp] theorem run_workingDirectory :
    w.run FileAccess.workingDirectory = (.ok w.workingDirectory.toPath, w) :=
  rfl

@[simp] theorem run_log (report : Report) :
    w.run (FileAccess.log report) = (.ok (), { w with reports := w.reports ++ [report] }) :=
  rfl

theorem run_bind : w.run (x >>= f) =
    match w.run x with
    | (.ok a, w') => w'.run (f a)
    | (.error error, w') => (.error error, w') := by
  have hstep : w.run (x >>= f) =
      (ExceptT.bindCont f (w.run x).1 : StateM Workspace _) (w.run x).2 := rfl
  rw [hstep]
  rcases w.run x with ⟨_ | a, w'⟩ <;> rfl

theorem run_bind_of_ok {a : α} (h : w.run x = (.ok a, w')) : w.run (x >>= f) = w'.run (f a) := by
  rw [run_bind, h]

theorem run_bind_of_error {error : ProjectError} (h : w.run x = (.error error, w')) :
    w.run (x >>= f) = (.error error, w') := by
  rw [run_bind, h]

theorem run_bind_eq_ok_iff {b : β} {w'' : Workspace} : w.run (x >>= f) = (.ok b, w'') ↔
    ∃ a w', w.run x = (.ok a, w') ∧ w'.run (f a) = (.ok b, w'') := by
  rw [run_bind]
  rcases w.run x with ⟨_ | a, w'⟩ <;> simp

/-- A last step that only puts the answer together. -/
theorem run_bind_pure (g : α → β) : (w.run (x >>= fun a => pure (g a))).1 = (w.run x).1.map g := by
  rw [run_bind]
  rcases w.run x with ⟨_ | a, w'⟩ <;> rfl

theorem exists_run_eq_ok (h : (w.run x).1.isOk) : ∃ a w', w.run x = (.ok a, w') := by
  rcases hrun : w.run x with ⟨_ | a, w'⟩
  · rw [hrun] at h
    cases h
  · exact ⟨a, w', rfl⟩

end Workspace

/-! ## Computations that only read -/

/-- Whether a computation leaves all files as they are, whatever it comes to, and comes to the same
whatever was reported before. -/
structure ReadsOnly {α : Type} (x : ExceptT ProjectError (StateM Workspace) α) : Prop where
  leaves : ∀ w : Workspace, w.SameFiles (w.run x).2
  depends : ∀ {w v : Workspace}, w.SameFiles v → (v.run x).1 = (w.run x).1

namespace ReadsOnly

variable {α β : Type} {x : ExceptT ProjectError (StateM Workspace) α}
  {f : α → ExceptT ProjectError (StateM Workspace) β} {w w' : Workspace}

theorem sameFiles (h : ReadsOnly x) {result : Except ProjectError α}
    (hrun : w.run x = (result, w')) :
    w.SameFiles w' := by
  have hw := h.leaves w
  rw [hrun] at hw
  exact hw

theorem pure (a : α) : ReadsOnly (pure a) where
  leaves w := .refl w
  depends _ := rfl

theorem throw (error : ProjectError) :
    ReadsOnly (throw error : ExceptT ProjectError (StateM Workspace) α) where
  leaves w := .refl w
  depends _ := rfl

theorem read (path : Path) : ReadsOnly (FileAccess.read path) where
  leaves w := .refl w
  depends h := by rw [Workspace.run_read, Workspace.run_read, h.tree, h.workingDirectory]

theorem pathExists (path : Path) : ReadsOnly (FileAccess.pathExists path) where
  leaves w := .refl w
  depends h := by
    rw [Workspace.run_pathExists, Workspace.run_pathExists, h.tree, h.workingDirectory]

theorem log (report : Report) : ReadsOnly (FileAccess.log report) where
  leaves _ := ⟨rfl, rfl⟩
  depends _ := rfl

theorem bind (hx : ReadsOnly x) (hf : ∀ a, ReadsOnly (f a)) : ReadsOnly (x >>= f) where
  leaves w := by
    have hfirst := hx.leaves w
    rw [Workspace.run_bind]
    rcases hrun : w.run x with ⟨_ | a, w'⟩
    · rwa [hrun] at hfirst
    · rw [hrun] at hfirst
      exact hfirst.trans ((hf a).leaves w')
  depends {w v} h := by
    have hfirst := hx.depends h
    have hw := hx.leaves w
    have hv := hx.leaves v
    rw [Workspace.run_bind, Workspace.run_bind]
    generalize w.run x = first at hfirst hw
    generalize v.run x = first' at hfirst hv
    obtain ⟨result, w'⟩ := first
    obtain ⟨result', v'⟩ := first'
    obtain rfl : result' = result := hfirst
    cases result' with
    | error error => rfl
    | ok a => exact (hf a).depends (hw.symm.trans (h.trans hv))

/-- A computation that only reads and is followed by another one: it fails, or the other one goes on
from the same files. -/
theorem run_bind_cases (hx : ReadsOnly x) {result : Except ProjectError β}
    (h : w.run (x >>= f) = (result, w')) :
    (∃ error, result = .error error ∧ w.SameFiles w') ∨
      ∃ a v, (w.run x).1 = .ok a ∧ w.SameFiles v ∧ v.run (f a) = (result, w') := by
  have hsame := hx.leaves w
  rw [Workspace.run_bind] at h
  rcases hrun : w.run x with ⟨error | a, v⟩
  · rw [hrun] at h hsame
    obtain ⟨rfl, rfl⟩ := Prod.mk.inj h
    exact .inl ⟨error, rfl, hsame⟩
  · rw [hrun] at h hsame
    exact .inr ⟨a, v, rfl, hsame, h⟩

theorem mapM {items : List α} (hf : ∀ a, ReadsOnly (f a)) : ReadsOnly (items.mapM f) := by
  induction items with
  | nil => exact .pure []
  | cons item rest ih =>
    rw [List.mapM_cons]
    exact (hf item).bind fun result => ih.bind fun more => .pure _

/-- What a list is mapped to, each item on a workspace with the same files. -/
theorem forall₂_of_run_mapM {items : List α} (hf : ∀ a, ReadsOnly (f a)) {results : List β}
    (h : w.run (items.mapM f) = (.ok results, w')) :
    List.Forall₂ (fun item result => ∃ v v', w.SameFiles v ∧ v.run (f item) = (.ok result, v'))
      items results := by
  induction items generalizing w w' results with
  | nil =>
    obtain rfl : [] = results := Except.ok.inj (Prod.mk.inj h).1
    exact .nil
  | cons item rest ih =>
    rw [List.mapM_cons] at h
    obtain ⟨result, w₁, hitem, h⟩ := Workspace.run_bind_eq_ok_iff.mp h
    obtain ⟨more, w₂, hrest, h⟩ := Workspace.run_bind_eq_ok_iff.mp h
    obtain rfl : result :: more = results := Except.ok.inj (Prod.mk.inj h).1
    have hsame : w.SameFiles w₁ := (hf item).sameFiles hitem
    refine .cons ⟨w, w₁, .refl w, hitem⟩ ((ih hrest).imp ?_)
    rintro other result ⟨v, v', hv, hother⟩
    exact ⟨v, v', hsame.trans hv, hother⟩

end ReadsOnly
end SiteSettings
