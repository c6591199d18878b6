import SiteSettings.Proofs.Config.Search
import SiteSettings.Proofs.Results

/-!
# What a search answers, whatever it meets

Two loops make a search.  The walk up from a directory ends on its own: any amount of fuel beyond
the length of the path gives the same walk (`ancestorsFrom_eq`), so what `Walk` says is said of a
walk that nothing cut short.  The loop over the directories stops at the first file that is there
and cannot be read, and passes over those that are not there; `run_readAlong` says so for success
and failure in one equation.
-/

namespace SiteSettings

/-- Why the search ends at a directory: its file can be found but not read. -/
def Workspace.obstacle? (w : Workspace) (fileName : String) (directory : Path) :
    Option ProjectError :=
  let path := directory.join ⟨fileName⟩
  match w.tree.read w.workingDirectory path with
  | .ok _ => none
  | .error .notFound => none
  | .error problem => some (.file path problem)

theorem Workspace.obstacle?_of_error {w : Workspace} {fileName : String} {directory : Path}
    {problem : FileProblem}
    (h : w.tree.read w.workingDirectory (directory.join ⟨fileName⟩) = .error problem)
    (hproblem : problem ≠ .notFound) :
    w.obstacle? fileName directory = some (.file (directory.join ⟨fileName⟩) problem) := by
  cases problem with
  | notFound => exact absurd rfl hproblem
  | _ => simp only [obstacle?, h]

theorem Walk.ne_nil {marked : Path → Prop} {start : Path} {directories : List Path}
    (h : Walk marked start directories) : directories ≠ [] := by
  rintro rfl
  cases h.start

namespace Config

variable {w : Workspace}

/-! ## The walk -/

/-- Fuel beyond the length of the path makes no difference. -/
theorem ancestorsFrom_eq (marker : Option String) {fuel more : Nat} {start : Path}
    (hfuel : start.text.length < fuel) (hmore : start.text.length < more) :
    ancestorsFrom (m := ExceptT ProjectError (StateM Workspace)) marker fuel start =
      ancestorsFrom marker more start := by
  induction fuel generalizing more start with
  | zero => omega
  | succ fuel ih =>
    obtain ⟨more, rfl⟩ := Nat.exists_eq_add_one_of_ne_zero (Nat.ne_zero_of_lt hmore)
    rw [ancestorsFrom_succ, ancestorsFrom_succ]
    refine congrArg _ (funext fun stop => ?_)
    rw [walkOn, walkOn]
    cases hparent : start.parent? with
    | none => rfl
    | some parent =>
      have hshorter := Path.length_lt_of_parent? hparent
      simp only [ih (Nat.lt_of_lt_of_le hshorter (Nat.le_of_lt_succ hfuel))
        (Nat.lt_of_lt_of_le hshorter (Nat.le_of_lt_succ hmore))]

/-! ## The files -/

/-- The search finds the files that can be read, unless one is in the way. -/
theorem run_readAlong (fileName : String) (directories : List Path) :
    (w.run (readAlong fileName directories)).1 =
      answerUnless (w.obstacle? fileName) directories
        (w.readable (directories.map (·.join ⟨fileName⟩))) := by
  induction directories generalizing w with
  | nil => rfl
  | cons directory rest ih =>
    have hread := Workspace.run_read (w := w) (directory.join ⟨fileName⟩)
    have hcontent : w.contentAt? (directory.join ⟨fileName⟩) =
        (w.tree.read w.workingDirectory (directory.join ⟨fileName⟩)).toOption :=
      Workspace.contentAt?_of_read rfl
    rw [readAlong, Workspace.run_bind_of_ok hread, List.map_cons, Workspace.readable,
      List.filterMap_cons, hcontent]
    cases hanswer : w.tree.read w.workingDirectory (directory.join ⟨fileName⟩) with
    | ok content =>
      have hnone : w.obstacle? fileName directory = none := by
        simp only [Workspace.obstacle?, hanswer]
      rw [answerUnless_cons_of_none hnone]
      dsimp only
      rw [Workspace.run_bind_of_ok (Workspace.run_log _), Workspace.run_bind_pure, ih]
      -- the report that was made in between changes no file
      exact answerUnless_map _
    | error problem =>
      cases problem with
      | notFound =>
        have hnone : w.obstacle? fileName directory = none := by
          simp only [Workspace.obstacle?, hanswer]
        rw [answerUnless_cons_of_none hnone]
        exact ih
      | _ =>
        have hsome := Workspace.obstacle?_of_error hanswer (by simp)
        rw [answerUnless_cons_of_some hsome]
        rfl

end Config

open Config

/-- **A search is exact.**  The walk up from a directory ends by itself, and the directories it
answers are the start and its parents, highest first.  Without a marker the highest one has no
parent.  With one, the directories below it do not hold the marker, and if the highest one does not
either, it has no parent.

Along search paths the directories are those of each path, in order.  The search finds the files of
the name in them that can be read, with their texts; the first file that is there and cannot be read
is the error, and decides. -/
theorem search_exact (w : Workspace) :
    (∀ (marker : Option String) (start : Path), ∃ directories,
      (∀ fuel, start.text.length < fuel →
        w.run (ancestorsFrom marker fuel start) = (.ok directories, w)) ∧
      directories ≠ [] ∧ directories.getLast? = some start ∧
      directories.IsChain (fun above below => below.parent? = some above) ∧
      match marker with
      | none => ∀ top, directories.head? = some top → top.parent? = none
      | some name =>
        (∀ directory ∈ directories.tail,
          ¬ w.tree.pathExists w.workingDirectory (directory.join ⟨name⟩)) ∧
          ∀ top, directories.head? = some top →
            ¬ w.tree.pathExists w.workingDirectory (top.join ⟨name⟩) → top.parent? = none) ∧
    ∀ (root : Path) (paths : List SearchPath) (fileName : String), ∃ groups,
      w.run (searchDirectories root paths) = (.ok groups.flatten, w) ∧
      List.Forall₂ (fun path directories => w.run (directoriesOf root path) = (.ok directories, w))
        paths groups ∧
      (w.run (findFiles root paths fileName)).1 =
        answerUnless (w.obstacle? fileName) groups.flatten
          (w.readable (groups.flatten.map (·.join ⟨fileName⟩))) ∧
      w.SameFiles (w.run (findFiles root paths fileName)).2 := by
  constructor
  · intro marker start
    obtain ⟨directories, hrun, hwalk⟩ :=
      run_ancestorsFrom (w := w) marker (Nat.lt_succ_self start.text.length)
    refine ⟨directories, ?_, hwalk.ne_nil, hwalk.start, hwalk.parents, ?_⟩
    · intro fuel hfuel
      rw [ancestorsFrom_eq marker hfuel (Nat.lt_succ_self _), hrun]
    · cases marker with
      | none =>
        intro top htop
        exact (hwalk.top top htop).resolve_left fun ⟨name, hname, _⟩ => nomatch hname
      | some name =>
        have hmarked (directory : Path) : w.IsMarked (some name) directory ↔
            w.tree.pathExists w.workingDirectory (directory.join ⟨name⟩) := by
          simp [Workspace.IsMarked]
        simp only [← hmarked]
        exact ⟨hwalk.unmarked, fun top htop => (hwalk.top top htop).resolve_left⟩
  · intro root paths fileName
    obtain ⟨groups, hgroups, hpaths⟩ := run_searchDirectories_flatten (w := w) root paths
    refine ⟨groups, hgroups, hpaths, ?_, (readsOnly_findFiles root paths fileName).leaves w⟩
    rw [findFiles, Workspace.run_bind_of_ok hgroups, run_readAlong]

/-- The walk stops at a marker, so the file above it is not found; the same directory again, through
another search path, comes in its place in the order. -/
theorem search_exact_marked :
    let w : Workspace :=
      ⟨⟨[(["f"], .text "a"), (["p"], .directory), (["p", "m"], .directory), (["p", "f"], .text "b"),
        (["p", "q"], .directory), (["p", "q", "f"], .text "c")]⟩, ["p"], []⟩
    ("/p/q".length < 5 ∧ w.run (ancestorsFrom (some "m") 5 ⟨"/p/q"⟩) = (.ok [⟨"/p"⟩, ⟨"/p/q"⟩], w) ∧
      ¬ w.tree.pathExists w.workingDirectory (Path.join ⟨"/p/q"⟩ ⟨"m"⟩)) ∧
    ∃ groups : List (List Path),
      w.run (searchDirectories ⟨"/p/q"⟩ [.directory ⟨".."⟩, .ancestors (some "m")]) =
        (.ok groups.flatten, w) ∧
      groups.flatten = [⟨"/p/q/.."⟩, ⟨"/p"⟩, ⟨"/p/q"⟩] ∧
      (w.run (findFiles ⟨"/p/q"⟩ [.directory ⟨".."⟩, .ancestors (some "m")] "f")).1 =
        answerUnless (w.obstacle? "f") groups.flatten
          [(⟨"/p/q/../f"⟩, "b"), (⟨"/p/f"⟩, "b"), (⟨"/p/q/f"⟩, "c")] := by
  intro w
  have hwalked : (w.run (ancestorsFrom (some "m") 5 ⟨"/p/q"⟩)).1 = .ok [⟨"/p"⟩, ⟨"/p/q"⟩] := by
    dsimp only [w]
    decide +kernel
  have hsearched :
      (w.run (searchDirectories ⟨"/p/q"⟩ [.directory ⟨".."⟩, .ancestors (some "m")])).1 =
      .ok [⟨"/p/q/.."⟩, ⟨"/p"⟩, ⟨"/p/q"⟩] := by
    dsimp only [w]
    decide +kernel
  refine ⟨?_, ?_⟩
  · obtain ⟨directories, hrun, -, -, -, hunmarked, -⟩ := (search_exact w).1 (some "m") ⟨"/p/q"⟩
    have hlength : "/p/q".length < 5 := by decide
    have hwalk := hrun 5 hlength
    obtain rfl : directories = [⟨"/p"⟩, ⟨"/p/q"⟩] := by
      rw [hwalk] at hwalked
      exact Except.ok.inj hwalked
    exact ⟨hlength, hwalk, hunmarked ⟨"/p/q"⟩ (by simp)⟩
  · obtain ⟨groups, hgroups, -, hfound, -⟩ :=
      (search_exact w).2 ⟨"/p/q"⟩ [.directory ⟨".."⟩, .ancestors (some "m")] "f"
    have hflatten : groups.flatten = [⟨"/p/q/.."⟩, ⟨"/p"⟩, ⟨"/p/q"⟩] := by
      rw [hgroups] at hsearched
      exact Except.ok.inj hsearched
    have hreadable : w.readable (groups.flatten.map (·.join ⟨"f"⟩)) =
        [(⟨"/p/q/../f"⟩, "b"), (⟨"/p/f"⟩, "b"), (⟨"/p/q/f"⟩, "c")] := by
      rw [hflatten]
      dsimp only [w]
      decide +kernel
    exact ⟨groups, hgroups, hflatten, hreadable ▸ hfound⟩

end SiteSettings
