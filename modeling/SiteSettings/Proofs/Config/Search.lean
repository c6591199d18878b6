import Mathlib.Data.List.Chain
import SiteSettings.Config.Search
import SiteSettings.Proofs.Files.Runs
import SiteSettings.Proofs.Text.Pieces

/-!
# What a search finds

A walk up from a directory goes from child to parent, passes no directory that holds the marker, and
ends at one that does or has no parent (`Walk`).  There is one such walk only, and `ancestorsFrom`
takes it: each parent is shorter than its child, so the walk ends before the fuel does.

The files that are found are those that can be read in the directories of the search
paths, in order.
-/

namespace SiteSettings

/-! ## Parents -/

namespace Path

theorem exists_trimIdle_append (components : List (List Char)) :
    ∃ idle, components = trimIdle components ++ idle := by
  refine ⟨(components.reverse.takeWhile isIdle).reverse, ?_⟩
  rw [trimIdle, ← List.reverse_append, List.takeWhile_append_dropWhile, List.reverse_reverse]

theorem getLast_trimIdle_ne_nil {components front : List (List Char)} {last : List Char}
    (h : trimIdle components = front ++ [last]) : last ≠ [] := by
  rintro rfl
  have hdrop : components.reverse.dropWhile isIdle = [] :: front.reverse := by
    rw [← List.reverse_inj, ← trimIdle, h]
    simp
  have hhead := List.head?_dropWhile_not isIdle components.reverse
  rw [hdrop] at hhead
  simp [isIdle] at hhead

theorem length_joinWith_lt (separator : Char) (front : List (List Char)) {piece : List Char}
    (hpiece : piece ≠ []) (more : List (List Char)) :
    (Text.joinWith separator front).length <
      (Text.joinWith separator (front ++ piece :: more)).length := by
  by_cases hfront : front = []
  · have hpos : 0 < piece.length := List.length_pos_iff.mpr hpiece
    subst hfront
    cases more with
    | nil => simpa [Text.joinWith] using hpos
    | cons next more =>
      simp only [List.nil_append, Text.joinWith, List.length_nil, List.length_append]
      omega
  · rw [Text.joinWith_append separator hfront (List.cons_ne_nil _ _), List.length_append,
      List.length_cons]
    omega

theorem splitHead_append (s : List Char) : (splitHead s).1 ++ (splitHead s).2 = s := by
  fun_cases splitHead s <;> rfl

/-- A parent is shorter than its child. -/
theorem length_lt_of_parent? {p parent : Path} (h : p.parent? = some parent) :
    parent.text.length < p.text.length := by
  have hhead := splitHead_append p.text.toList
  have hlength : p.text.length = p.text.toList.length := (String.length_toList).symm
  rw [parent?] at h
  generalize splitHead p.text.toList = parts at h hhead
  obtain ⟨head, rest⟩ := parts
  dsimp only at h hhead
  split at h
  · split at h
    · rename_i hdot
      obtain rfl := Option.some.inj h
      rw [hlength, ← hhead, hdot]
      simp
    · cases h
  · rename_i hne
    obtain rfl := Option.some.inj h
    set components := trimIdle (Text.splitAt '/' rest) with hcomponents
    obtain ⟨idle, hidle⟩ := exists_trimIdle_append (Text.splitAt '/' rest)
    obtain ⟨above, habove⟩ := exists_trimIdle_append components.dropLast
    have hsplit := List.dropLast_append_getLast hne
    have hlast := getLast_trimIdle_ne_nil hsplit.symm
    have hjoin :
        Text.joinWith '/' (components.dropLast ++ components.getLast hne :: idle) = rest := by
      rw [← List.singleton_append, ← List.append_assoc, hsplit, hcomponents, ← hidle,
        Text.joinWith_splitAt]
    have hle := (Text.isPrefix_joinWith '/' (trimIdle components.dropLast) above).length_le
    have hlt := length_joinWith_lt '/' components.dropLast hlast idle
    rw [← habove] at hle
    rw [hjoin] at hlt
    rw [hlength, ← hhead]
    simp only [String.length_ofList, List.length_append]
    omega

end Path

/-! ## Walks -/

/-- The directories of a walk upwards, highest first. -/
structure Walk (marked : Path → Prop) (start : Path) (directories : List Path) : Prop where
  start : directories.getLast? = some start
  parents : directories.IsChain fun above below => below.parent? = some above
  /-- Nothing marked was passed. -/
  unmarked : ∀ directory ∈ directories.tail, ¬ marked directory
  /-- The walk ended because it had to. -/
  top : ∀ directory, directories.head? = some directory → marked directory ∨
    directory.parent? = none

theorem Walk.singleton {marked : Path → Prop} {start : Path}
    (h : marked start ∨ start.parent? = none) : Walk marked start [start] where
  start := rfl
  parents := .singleton start
  unmarked _ hmem := (nomatch hmem)
  top _ hhead := Option.some.inj hhead ▸ h

theorem Walk.extend {marked : Path → Prop} {start parent : Path} {directories : List Path}
    (h : Walk marked parent directories) (hparent : start.parent? = some parent)
    (hstart : ¬ marked start) : Walk marked start (directories ++ [start]) := by
  have hlast := h.start
  have hne : directories ≠ [] := by
    rintro rfl
    cases hlast
  constructor
  · exact List.getLast?_concat
  · refine h.parents.append (.singleton start) ?_
    intro above habove below hbelow
    rw [hlast] at habove
    obtain rfl := Option.some.inj habove
    obtain rfl := Option.some.inj hbelow
    exact hparent
  · intro directory hmem
    rw [List.tail_append_of_ne_nil hne] at hmem
    rcases List.mem_append.mp hmem with habove | hself
    · exact h.unmarked directory habove
    · obtain rfl := List.mem_singleton.mp hself
      exact hstart
  · intro directory hhead
    rw [List.head?_append_of_ne_nil _ hne] at hhead
    exact h.top directory hhead

/-! ## Search paths -/

/-- Whether a directory holds the marker of a walk. -/
def Workspace.IsMarked (w : Workspace) (marker : Option String) (directory : Path) : Prop :=
  ∃ name, marker = some name ∧ w.tree.pathExists w.workingDirectory (directory.join ⟨name⟩)

/-- The directories that a search path leads to. -/
def SearchPath.Leads (w : Workspace) (root : Path) : SearchPath → List Path → Prop
  | .root, directories => directories = [root]
  | .directory path, directories => directories = [root.join path]
  | .ancestors marker, directories => Walk (w.IsMarked marker) root directories

theorem Workspace.SameFiles.leads_eq {w w' : Workspace} (h : w.SameFiles w') :
    SearchPath.Leads w' = SearchPath.Leads w := by
  have hmarked : w'.IsMarked = w.IsMarked := by
    funext marker directory
    rw [IsMarked, IsMarked, h.tree, h.workingDirectory]
  funext root path directories
  cases path with
  | root => rfl
  | directory path => rfl
  | ancestors marker => rw [SearchPath.Leads, SearchPath.Leads, hmarked]

namespace Config

variable {w w' : Workspace}

/-- The question at each directory of a walk: does it hold the marker? -/
def askMarker (marker : Option String) (directory : Path) :
    ExceptT ProjectError (StateM Workspace) Bool :=
  match marker with
  | none => pure false
  | some name => FileAccess.pathExists (directory.join ⟨name⟩)

/-- The walk from a directory on, once it is known whether to stop there. -/
def walkOn (marker : Option String) (fuel : Nat) (start : Path) (stop : Bool) :
    ExceptT ProjectError (StateM Workspace) (List Path) :=
  if stop then pure [start]
  else
    match start.parent? with
    | none => pure [start]
    | some parent => do
      let above ← ancestorsFrom marker fuel parent
      pure (above ++ [start])

theorem ancestorsFrom_succ (marker : Option String) (fuel : Nat) (start : Path) :
    ancestorsFrom marker (fuel + 1) start =
      askMarker marker start >>= walkOn marker fuel start := by
  cases marker with
  | none => rfl
  | some name => rfl

/-- Asking changes nothing, and the answer says whether the marker is there. -/
theorem run_askMarker (marker : Option String) (directory : Path) :
    ∃ stop : Bool, w.run (askMarker marker directory) = (.ok stop, w) ∧
      (stop ↔ w.IsMarked marker directory) := by
  cases marker with
  | none => exact ⟨false, rfl, by simp [Workspace.IsMarked]⟩
  | some name => exact ⟨_, rfl, by simp [Workspace.IsMarked]⟩

theorem run_ancestorsFrom (marker : Option String) {fuel : Nat} {start : Path}
    (hfuel : start.text.length < fuel) :
    ∃ directories, w.run (ancestorsFrom marker fuel start) = (.ok directories, w) ∧
      Walk (w.IsMarked marker) start directories := by
  induction fuel generalizing start with
  | zero => omega
  | succ fuel ih =>
    obtain ⟨stop, hask, hmarked⟩ := run_askMarker (w := w) marker start
    rw [ancestorsFrom_succ, Workspace.run_bind_of_ok hask]
    by_cases hstop : stop
    · rw [walkOn, if_pos hstop]
      exact ⟨[start], rfl, .singleton (.inl (hmarked.mp hstop))⟩
    · rw [walkOn, if_neg hstop]
      cases hparent : start.parent? with
      | none => exact ⟨[start], rfl, .singleton (.inr hparent)⟩
      | some parent =>
        have hshorter : parent.text.length < fuel :=
          Nat.lt_of_lt_of_le (Path.length_lt_of_parent? hparent) (Nat.le_of_lt_succ hfuel)
        obtain ⟨above, habove, hwalk⟩ := ih hshorter
        refine ⟨above ++ [start], ?_, hwalk.extend hparent (mt hmarked.mpr hstop)⟩
        rw [Workspace.run_bind_of_ok habove, Workspace.run_pure]

theorem run_directoriesOf (root : Path) (path : SearchPath) :
    ∃ directories, w.run (directoriesOf root path) = (.ok directories, w) ∧
      path.Leads w root directories := by
  cases path with
  | root => exact ⟨_, rfl, rfl⟩
  | directory path => exact ⟨_, rfl, rfl⟩
  | ancestors marker => exact run_ancestorsFrom marker (Nat.lt_succ_self _)

/-- The directories of several search paths are those of each, in order. -/
theorem run_searchDirectories_flatten (root : Path) (paths : List SearchPath) :
    ∃ groups, w.run (searchDirectories root paths) = (.ok groups.flatten, w) ∧
      List.Forall₂ (fun path directories => w.run (directoriesOf root path) = (.ok directories, w))
        paths groups := by
  have hall : ∃ groups, w.run (paths.mapM (directoriesOf root)) = (.ok groups, w) ∧
      List.Forall₂ (fun path directories => w.run (directoriesOf root path) = (.ok directories, w))
        paths groups := by
    induction paths with
    | nil => exact ⟨[], rfl, .nil⟩
    | cons path rest ih =>
      obtain ⟨group, hgroup, -⟩ := run_directoriesOf (w := w) root path
      obtain ⟨groups, hgroups, hrest⟩ := ih
      refine ⟨group :: groups, ?_, .cons hgroup hrest⟩
      rw [List.mapM_cons, Workspace.run_bind_of_ok hgroup, Workspace.run_bind_of_ok hgroups,
        Workspace.run_pure]
  obtain ⟨groups, hgroups, hpaths⟩ := hall
  refine ⟨groups, ?_, hpaths⟩
  rw [searchDirectories, Workspace.run_bind_of_ok hgroups, Workspace.run_pure]

theorem run_searchDirectories (root : Path) (paths : List SearchPath) :
    ∃ groups, w.run (searchDirectories root paths) = (.ok groups.flatten, w) ∧
      List.Forall₂ (SearchPath.Leads w root) paths groups := by
  obtain ⟨groups, hgroups, hpaths⟩ := run_searchDirectories_flatten (w := w) root paths
  refine ⟨groups, hgroups, hpaths.imp fun path directories hrun => ?_⟩
  obtain ⟨found, hfound, hleads⟩ := run_directoriesOf (w := w) root path
  obtain rfl : found = directories := Except.ok.inj (Prod.mk.inj (hfound.symm.trans hrun)).1
  exact hleads

/-! ## Reading -/

end Config

/-- The text at a path, if it can be read. -/
def Workspace.contentAt? (w : Workspace) (path : Path) : Option String :=
  (w.tree.read w.workingDirectory path).toOption

/-- The paths that can be read, with their texts. -/
def Workspace.readable (w : Workspace) (paths : List Path) : List (Path × String) :=
  paths.filterMap fun path => (w.contentAt? path).map (Prod.mk path)

theorem Workspace.SameFiles.contentAt?_eq {w w' : Workspace} (h : w.SameFiles w') :
    w'.contentAt? = w.contentAt? := by
  funext path
  rw [contentAt?, contentAt?, h.tree, h.workingDirectory]

theorem Workspace.SameFiles.readable_eq {w w' : Workspace} (h : w.SameFiles w') :
    w'.readable = w.readable := by
  funext paths
  rw [readable, readable, h.contentAt?_eq]

theorem Workspace.contentAt?_of_read {w : Workspace} {path : Path}
    {answer : Except FileProblem String} (h : w.tree.read w.workingDirectory path = answer) :
    w.contentAt? path = answer.toOption := by
  rw [contentAt?, h]

namespace Config

variable {w w' : Workspace}

theorem readsOnly_readAlong (fileName : String) (directories : List Path) :
    ReadsOnly (readAlong (m := StateM Workspace) fileName directories) := by
  induction directories with
  | nil => exact .pure []
  | cons directory rest ih =>
    rw [readAlong]
    refine (ReadsOnly.read _).bind fun answer => ?_
    split
    · exact (ReadsOnly.log _).bind fun _ => ih.bind fun more => .pure _
    · exact ih
    · exact .throw _

theorem readsOnly_readNamed (path : Path) : ReadsOnly (readNamed (m := StateM Workspace) path) := by
  refine (ReadsOnly.read _).bind fun answer => ?_
  split
  · exact (ReadsOnly.log _).bind fun _ => .pure _
  · exact .throw _

/-- The files that are found are those that can be read in the directories. -/
theorem eq_readable_of_readAlong {fileName : String} {directories : List Path}
    {files : List (Path × String)} (h : w.run (readAlong fileName directories) = (.ok files, w')) :
    files = w.readable (directories.map (·.join ⟨fileName⟩)) := by
  induction directories generalizing w w' files with
  | nil =>
    obtain rfl : [] = files := Except.ok.inj (Prod.mk.inj h).1
    rfl
  | cons directory rest ih =>
    rw [readAlong] at h
    obtain ⟨answer, w₁, hanswer, h⟩ := Workspace.run_bind_eq_ok_iff.mp h
    have hsame : w.SameFiles w₁ := (ReadsOnly.read _).sameFiles hanswer
    have hcontent := Workspace.contentAt?_of_read (Except.ok.inj (Prod.mk.inj hanswer).1)
    rw [List.map_cons, Workspace.readable, List.filterMap_cons, hcontent]
    split at h
    · obtain ⟨_, w₂, hlog, h⟩ := Workspace.run_bind_eq_ok_iff.mp h
      obtain ⟨more, w₃, hmore, h⟩ := Workspace.run_bind_eq_ok_iff.mp h
      have hsame' := hsame.trans ((ReadsOnly.log _).sameFiles hlog)
      obtain rfl := Except.ok.inj (Prod.mk.inj h).1
      rw [ih hmore, hsame'.readable_eq]
      rfl
    · rw [ih h, hsame.readable_eq]
      rfl
    · cases (Prod.mk.inj h).1

theorem eq_of_readNamed {path : Path} {file : Path × String}
    (h : w.run (readNamed path) = (.ok file, w')) :
    file.1 = path ∧ w.contentAt? path = some file.2 := by
  rw [readNamed] at h
  obtain ⟨answer, w₁, hanswer, h⟩ := Workspace.run_bind_eq_ok_iff.mp h
  have hcontent := Workspace.contentAt?_of_read (Except.ok.inj (Prod.mk.inj hanswer).1)
  split at h
  · obtain ⟨_, w₂, -, h⟩ := Workspace.run_bind_eq_ok_iff.mp h
    obtain rfl := Except.ok.inj (Prod.mk.inj h).1
    exact ⟨rfl, hcontent⟩
  · cases (Prod.mk.inj h).1

/-- Files that were named are all read. -/
theorem eq_readable_of_mapM_readNamed {paths : List Path} {files : List (Path × String)}
    (h : w.run (paths.mapM readNamed) = (.ok files, w')) : files = w.readable paths := by
  have hall := ReadsOnly.forall₂_of_run_mapM readsOnly_readNamed h
  clear h
  induction hall with
  | nil => rfl
  | cons hfile hrest ih =>
    obtain ⟨v, v', hsame, hread⟩ := hfile
    obtain ⟨rfl, hcontent⟩ := eq_of_readNamed hread
    rw [hsame.contentAt?_eq] at hcontent
    rw [Workspace.readable, List.filterMap_cons, hcontent, ih]
    rfl

theorem readsOnly_askMarker (marker : Option String) (directory : Path) :
    ReadsOnly (askMarker marker directory) := by
  cases marker with
  | none => exact .pure false
  | some name => exact .pathExists _

theorem readsOnly_ancestorsFrom (marker : Option String) (fuel : Nat) (start : Path) :
    ReadsOnly (ancestorsFrom marker fuel start) := by
  induction fuel generalizing start with
  | zero => exact .pure [start]
  | succ fuel ih =>
    rw [ancestorsFrom_succ]
    refine (readsOnly_askMarker marker start).bind fun stop => ?_
    rw [walkOn]
    split
    · exact .pure _
    · split
      · exact .pure _
      · exact (ih _).bind fun above => .pure _

theorem readsOnly_searchDirectories (root : Path) (paths : List SearchPath) :
    ReadsOnly (searchDirectories root paths) := by
  refine ReadsOnly.bind (ReadsOnly.mapM fun path => ?_) fun groups => .pure _
  cases path with
  | root => exact .pure _
  | directory path => exact .pure _
  | ancestors marker => exact readsOnly_ancestorsFrom marker _ root

/-- Looking for files only reads. -/
theorem readsOnly_findFiles (root : Path) (paths : List SearchPath) (fileName : String) :
    ReadsOnly (findFiles (m := StateM Workspace) root paths fileName) :=
  (readsOnly_searchDirectories root paths).bind fun directories =>
    readsOnly_readAlong fileName directories

theorem eq_readable_of_findFiles {root : Path} {paths : List SearchPath} {fileName : String}
    {files : List (Path × String)} (h : w.run (findFiles root paths fileName) = (.ok files, w')) :
    ∃ groups, List.Forall₂ (SearchPath.Leads w root) paths groups ∧
      files = w.readable (groups.flatten.map (·.join ⟨fileName⟩)) := by
  obtain ⟨groups, hgroups, hleads⟩ := run_searchDirectories (w := w) root paths
  rw [findFiles, Workspace.run_bind_of_ok hgroups] at h
  exact ⟨groups, hleads, eq_readable_of_readAlong h⟩

end Config
end SiteSettings
