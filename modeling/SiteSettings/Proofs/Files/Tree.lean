import Mathlib.Logic.Relation
import SiteSettings.Files.Tree
import SiteSettings.Proofs.Results

/-!
# What changes a file tree

Writing puts a text where the path leads, and creating directories puts directories where nothing
was.  Neither takes a directory away, so whatever path led to a directory before still leads there.
This is what lets the effects of several steps be added up: the directories of a first step are
where its paths lead in the end as well (`AddsDirectories.trans`).

Directories are created along a path, which is the path itself and those above it (`Path.IsAbove`).
If that fails on the way, the directories made so far stay; files stay as they were in any case.
-/

namespace SiteSettings

/-- Whether a path is the parent of another one, or the parent of its parent, and so on. -/
def Path.IsAbove (above p : Path) : Prop :=
  Relation.TransGen (fun lower upper : Path => lower.parent? = some upper) p above

theorem Path.isAbove_of_parent? {p parent path : Path} (hparent : p.parent? = some parent)
    (h : path = parent ∨ path.IsAbove parent) : path.IsAbove p := by
  rcases h with rfl | habove
  · exact .single hparent
  · exact .head hparent habove

namespace FileTree

variable {tree tree' tree'' : FileTree} {workingDirectory : Place}

/-! ## Putting one node -/

theorem node?_nil (tree : FileTree) : tree.node? [] = some .directory :=
  rfl

theorem node?_put (tree : FileTree) {place : Place} (h : place ≠ []) (node : FileNode)
    (other : Place) :
    (tree.put place node).node? other = if other = place then some node else tree.node? other := by
  have hreplace (nodes : List (Place × FileNode)) :
      ((put.replace place node nodes).find? (·.1 == other)).map Prod.snd =
        if other = place then some node else (nodes.find? (·.1 == other)).map Prod.snd := by
    induction nodes with
    | nil =>
      by_cases hother : other = place
      · simp [put.replace, hother]
      · simp [put.replace, hother, Ne.symm hother]
    | cons entry rest ih =>
      obtain ⟨p, n⟩ := entry
      by_cases hp : p = place
      · by_cases hother : other = place
        · simp [put.replace, hp, hother]
        · simp [put.replace, hp, hother, Ne.symm hother]
      · rw [put.replace, if_neg hp]
        by_cases hother : p = other
        · have hne : other ≠ place := hother ▸ hp
          simp [hother, hne]
        · simp [hother, ih]
  by_cases hroot : other = []
  · subst hroot
    rw [node?_nil, node?_nil, if_neg (Ne.symm h)]
  · simp only [node?, List.isEmpty_iff, hroot, if_false]
    exact hreplace tree.nodes

theorem node?_put_self (tree : FileTree) {place : Place} (h : place ≠ []) (node : FileNode) :
    (tree.put place node).node? place = some node := by
  rw [node?_put tree h, if_pos rfl]

theorem node?_put_of_ne (tree : FileTree) {place other : Place} (hplace : place ≠ [])
    (h : other ≠ place) (node : FileNode) :
    (tree.put place node).node? other = tree.node? other := by
  rw [node?_put tree hplace, if_neg h]

/-! ## Where paths lead -/

/-- Whether a component is a name: neither idle nor a step up. -/
def IsName (component : String) : Prop :=
  ¬ (component = "" ∨ component = ".") ∧ component ≠ ".."

/-- What components lead to from a directory, step by step. -/
inductive Leads (tree : FileTree) : Place → List String → Target → Prop
  | stop {here : Place} : Leads tree here [] (.existing here .directory)
  | idle {here : Place} {c : String} {rest : List String} {target : Target}
    (hidle : c = "" ∨ c = ".") (h : Leads tree here rest target) :
      Leads tree here (c :: rest) target
  | up {here : Place} {rest : List String} {target : Target}
    (h : Leads tree here.dropLast rest target) : Leads tree here (".." :: rest) target
  | into {here : Place} {c : String} {rest : List String} {target : Target} (hname : IsName c)
    (hnode : tree.node? (here ++ [c]) = some .directory)
      (h : Leads tree (here ++ [c]) rest target) :
    Leads tree here (c :: rest) target
  | file {here : Place} {c : String} {node : FileNode} (hname : IsName c)
    (hnode : tree.node? (here ++ [c]) = some node) (hfile : node ≠ .directory) :
    Leads tree here [c] (.existing (here ++ [c]) node)
  | missing {here : Place} {c : String} {rest : List String} (hname : IsName c)
    (hnode : tree.node? (here ++ [c]) = none) (hrest : rest.all (· == "")) :
    Leads tree here (c :: rest) (.missing (here ++ [c]) !rest.isEmpty)

theorem leads_of_follow {here : Place} {components : List String} {target : Target}
    (h : tree.follow here components = .ok target) : Leads tree here components target := by
  induction components generalizing here with
  | nil =>
    cases h
    exact .stop
  | cons c rest ih =>
    rw [FileTree.follow] at h
    by_cases hidle : c = "" ∨ c = "."
    · rw [if_pos hidle] at h
      exact .idle hidle (ih h)
    · rw [if_neg hidle] at h
      by_cases hup : c = ".."
      · rw [if_pos hup] at h
        subst hup
        exact .up (ih h)
      · rw [if_neg hup] at h
        have hname : IsName c := ⟨hidle, hup⟩
        dsimp only at h
        cases hnode : tree.node? (here ++ [c]) with
        | none =>
          rw [hnode] at h
          cases rest with
          | nil =>
            cases h
            exact .missing hname hnode rfl
          | cons next rest =>
            dsimp only [List.isEmpty_cons] at h
            rw [if_neg Bool.false_ne_true] at h
            split at h
            · cases h
              exact .missing hname hnode ‹_›
            · cases h
        | some node =>
          rw [hnode] at h
          cases node with
          | directory => exact .into hname hnode (ih h)
          | text content =>
            cases rest with
            | nil =>
              cases h
              exact .file hname hnode (by simp)
            | cons next rest => cases h
          | binary =>
            cases rest with
            | nil =>
              cases h
              exact .file hname hnode (by simp)
            | cons next rest => cases h

theorem Leads.follow {here : Place} {components : List String} {target : Target}
    (h : Leads tree here components target) : tree.follow here components = .ok target := by
  induction h with
  | stop => rfl
  | idle hidle _ ih => rw [FileTree.follow, if_pos hidle, ih]
  | up _ ih =>
    have hup : ¬ (".." = "" ∨ ".." = ".") := by decide
    rw [FileTree.follow, if_neg hup, if_pos rfl, ih]
  | into hname hnode _ ih =>
    rw [FileTree.follow, if_neg hname.1, if_neg hname.2]
    simp only [hnode, ih]
  | file hname hnode hfile =>
    rw [FileTree.follow, if_neg hname.1, if_neg hname.2]
    dsimp only
    rw [hnode]
    split
    · exact absurd (Option.some.inj ‹_›) hfile
    · rename_i hsome
      rw [Option.some.inj hsome]
      rfl
    · cases ‹some _ = none›
  | @missing here c rest hname hnode hrest =>
    rw [FileTree.follow, if_neg hname.1, if_neg hname.2]
    dsimp only
    rw [hnode]
    cases rest with
    | nil => rfl
    | cons next rest =>
      dsimp only [List.isEmpty_cons]
      rw [if_neg Bool.false_ne_true, if_pos hrest]
      rfl

theorem follow_eq_ok_iff {here : Place} {components : List String} {target : Target} :
    tree.follow here components = .ok target ↔ Leads tree here components target :=
  ⟨leads_of_follow, Leads.follow⟩

/-- Whether all directories of a tree are directories of another one as well. -/
def KeepsDirectories (tree tree' : FileTree) : Prop :=
  ∀ place, tree.node? place = some .directory → tree'.node? place = some .directory

theorem keepsDirectories_put {place : Place} (hplace : place ≠ [])
    (h : tree.node? place ≠ some .directory) (node : FileNode) :
    tree.KeepsDirectories (tree.put place node) := by
  intro other hother
  have hne : other ≠ place := by
    rintro rfl
    exact h hother
  rw [node?_put_of_ne tree hplace hne, hother]

/-- A path that leads to a directory leads there as long as no directory is taken away. -/
theorem Leads.of_keepsDirectories (hkeeps : tree.KeepsDirectories tree') {here place : Place}
    {components : List String} (h : Leads tree here components (.existing place .directory)) :
    Leads tree' here components (.existing place .directory) := by
  generalize htarget : Target.existing place .directory = target at h
  induction h with
  | stop =>
    obtain ⟨rfl, -⟩ := Target.existing.inj htarget
    exact .stop
  | idle hidle _ ih => exact .idle hidle (ih htarget)
  | up _ ih => exact .up (ih htarget)
  | into hname hnode _ ih => exact .into hname (hkeeps _ hnode) (ih htarget)
  | file _ _ hfile => exact absurd (Target.existing.inj htarget).2.symm hfile
  | missing => cases htarget

/-- Where a path leads to a file or to where one could be, a file put there is found there. -/
theorem Leads.put_file {here : Place} {components : List String} {target : Target}
    (h : Leads tree here components target) {place : Place}
    (htarget : (∃ node, node ≠ .directory ∧ target = .existing place node) ∨
      target = .missing place false)
    {file : FileNode} (hfile : file ≠ .directory) :
    place ≠ [] ∧ tree.node? place ≠ some .directory ∧
      Leads (tree.put place file) here components (.existing place file) := by
  induction h with
  | stop =>
    rcases htarget with ⟨node, hnode, heq⟩ | heq
    · exact absurd (Target.existing.inj heq).2.symm hnode
    · cases heq
  | idle hidle _ ih =>
    obtain ⟨hplace, hnode, hleads⟩ := ih htarget
    exact ⟨hplace, hnode, .idle hidle hleads⟩
  | up _ ih =>
    obtain ⟨hplace, hnode, hleads⟩ := ih htarget
    exact ⟨hplace, hnode, .up hleads⟩
  | @into here c rest target hname hinto _ ih =>
    obtain ⟨hplace, hnode, hleads⟩ := ih htarget
    have hinto' := keepsDirectories_put hplace hnode file _ hinto
    exact ⟨hplace, hnode, .into hname hinto' hleads⟩
  | @file here c node hname hnode hold =>
    obtain rfl : here ++ [c] = place := by
      rcases htarget with ⟨_, -, heq⟩ | heq
      · exact (Target.existing.inj heq).1
      · cases heq
    have hplace : here ++ [c] ≠ [] := by simp
    refine ⟨hplace, fun hdirectory => ?_, .file hname (node?_put_self tree hplace file) hfile⟩
    exact hold (Option.some.inj (hnode.symm.trans hdirectory))
  | @missing here c rest hname hnode _ =>
    have hplace : here ++ [c] ≠ [] := by simp
    rcases htarget with ⟨_, -, heq⟩ | heq
    · cases heq
    · obtain ⟨rfl, hrest⟩ := Target.missing.inj heq
      obtain rfl : rest = [] := by simpa using hrest
      refine ⟨hplace, fun hdirectory => ?_, .file hname (node?_put_self tree hplace file) hfile⟩
      rw [hnode] at hdirectory
      cases hdirectory

/-- Behind a directory, idle components lead nowhere else. -/
theorem leads_of_all_empty {here : Place} {components : List String}
    (h : components.all (· == "")) : Leads tree here components (.existing here .directory) := by
  induction components with
  | nil => exact .stop
  | cons c rest ih =>
    rw [List.all_cons, Bool.and_eq_true, beq_iff_eq] at h
    exact .idle (.inl h.1) (ih h.2)

/-- Where a path leads to where a directory could be, a directory put there is found there. -/
theorem Leads.put_directory {here place : Place} {components : List String} {asDirectory : Bool}
    (h : Leads tree here components (.missing place asDirectory)) :
    place ≠ [] ∧ tree.node? place = none ∧
      Leads (tree.put place .directory) here components (.existing place .directory) := by
  generalize htarget : Target.missing place asDirectory = target at h
  induction h with
  | stop => cases htarget
  | idle hidle _ ih =>
    obtain ⟨hplace, hnode, hleads⟩ := ih htarget
    exact ⟨hplace, hnode, .idle hidle hleads⟩
  | up _ ih =>
    obtain ⟨hplace, hnode, hleads⟩ := ih htarget
    exact ⟨hplace, hnode, .up hleads⟩
  | into hname hinto _ ih =>
    obtain ⟨hplace, hnode, hleads⟩ := ih htarget
    have hnot : tree.node? place ≠ some .directory := by simp [hnode]
    have hinto' := keepsDirectories_put hplace hnot .directory _ hinto
    exact ⟨hplace, hnode, .into hname hinto' hleads⟩
  | file => cases htarget
  | @missing here c rest hname hnode hrest =>
    obtain ⟨rfl, -⟩ := Target.missing.inj htarget
    have hplace : here ++ [c] ≠ [] := by simp
    have hself := node?_put_self tree hplace .directory
    exact ⟨hplace, hnode, .into hname hself (leads_of_all_empty hrest)⟩

/-! ## Writing -/

theorem locate_eq_ok_iff {p : Path} {target : Target} :
    tree.locate workingDirectory p = .ok target ↔
    p.text.isEmpty = false ∧
      Leads tree (if p.isAbsolute then [] else workingDirectory) (components p) target := by
  rw [locate]
  cases p.text.isEmpty with
  | true => simp
  | false => simp [follow_eq_ok_iff]

/-- A write that succeeds puts the text where the path leads, which was no directory. -/
theorem write_eq_ok {p : Path} {content : String}
    (h : tree.write workingDirectory p content = .ok tree') :
    ∃ place, place ≠ [] ∧ tree.node? place ≠ some .directory ∧
      tree' = tree.put place (.text content) ∧
      tree'.locate workingDirectory p = .ok (.existing place (.text content)) := by
  obtain ⟨target, htarget, h⟩ := bind_eq_ok.mp h
  obtain ⟨hp, hleads⟩ := locate_eq_ok_iff.mp htarget
  have htext : FileNode.text content ≠ .directory := by simp
  split at h
  · cases h
  · rename_i place node hnode
    obtain rfl := Except.ok.inj h
    have hfile : node ≠ .directory := fun he => hnode (he ▸ rfl)
    obtain ⟨hplace, hold, hput⟩ := hleads.put_file (.inl ⟨node, hfile, rfl⟩) htext
    exact ⟨place, hplace, hold, rfl, locate_eq_ok_iff.mpr ⟨hp, hput⟩⟩
  · cases h
  · rename_i place
    obtain rfl := Except.ok.inj h
    obtain ⟨hplace, hold, hput⟩ := hleads.put_file (.inr rfl) htext
    exact ⟨place, hplace, hold, rfl, locate_eq_ok_iff.mpr ⟨hp, hput⟩⟩

/-! ## Creating directories -/

/-- What creating directories for certain paths may do: it puts directories where nothing was, at
places that one of the paths leads to. -/
def AddsDirectories (workingDirectory : Place) (paths : Path → Prop) (tree tree' : FileTree) :
    Prop :=
  ∀ place, tree'.node? place = tree.node? place ∨
    (tree.node? place = none ∧ tree'.node? place = some .directory ∧ ∃ path, paths path ∧
      tree'.locate workingDirectory path = .ok (.existing place .directory))

variable {paths paths' : Path → Prop}

theorem AddsDirectories.refl (paths : Path → Prop) (tree : FileTree) :
    AddsDirectories workingDirectory paths tree tree :=
  fun _ => .inl rfl

theorem AddsDirectories.mono (h : AddsDirectories workingDirectory paths tree tree')
    (hpaths : ∀ path, paths path → paths' path) :
    AddsDirectories workingDirectory paths' tree tree' := by
  intro place
  rcases h place with hsame | ⟨hnone, hnew, path, hpath, hlocate⟩
  · exact .inl hsame
  · exact .inr ⟨hnone, hnew, path, hpaths path hpath, hlocate⟩

theorem AddsDirectories.keepsDirectories
    (h : AddsDirectories workingDirectory paths tree tree') : tree.KeepsDirectories tree' := by
  intro place hplace
  rcases h place with hsame | ⟨hnone, -⟩
  · rw [hsame, hplace]
  · rw [hnone] at hplace
    cases hplace

theorem KeepsDirectories.locate (hkeeps : tree.KeepsDirectories tree') {p : Path} {place : Place}
    (h : tree.locate workingDirectory p = .ok (.existing place .directory)) :
    tree'.locate workingDirectory p = .ok (.existing place .directory) := by
  obtain ⟨hp, hleads⟩ := locate_eq_ok_iff.mp h
  exact locate_eq_ok_iff.mpr ⟨hp, hleads.of_keepsDirectories hkeeps⟩

theorem AddsDirectories.trans (h : AddsDirectories workingDirectory paths tree tree')
    (h' : AddsDirectories workingDirectory paths tree' tree'') :
    AddsDirectories workingDirectory paths tree tree'' := by
  intro place
  rcases h' place with hsame' | ⟨hnone', hnew', hpath'⟩
  · rcases h place with hsame | ⟨hnone, hnew, path, hpath, hlocate⟩
    · exact .inl (hsame'.trans hsame)
    · refine .inr ⟨hnone, hsame'.trans hnew, path, hpath, ?_⟩
      exact h'.keepsDirectories.locate hlocate
  · rcases h place with hsame | ⟨-, hnew, -⟩
    · exact .inr ⟨hsame.symm.trans hnone', hnew', hpath'⟩
    · rw [hnew] at hnone'
      cases hnone'

/-- Files stay as they are. -/
theorem AddsDirectories.node?_eq_some_iff (h : AddsDirectories workingDirectory paths tree tree')
    {node : FileNode} (hfile : node ≠ .directory) (place : Place) :
    tree'.node? place = some node ↔ tree.node? place = some node := by
  rcases h place with hsame | ⟨hnone, hnew, -⟩
  · rw [hsame]
  · rw [hnone, hnew]
    exact iff_of_false (fun he => hfile (Option.some.inj he).symm) (fun he => nomatch he)

theorem addsDirectories_of_createDirectory {p : Path}
    (h : tree.createDirectory workingDirectory p = .ok tree') :
    AddsDirectories workingDirectory (· = p) tree tree' ∧ tree'.isDirectory workingDirectory p := by
  obtain ⟨target, htarget, h⟩ := bind_eq_ok.mp h
  obtain ⟨hp, hleads⟩ := locate_eq_ok_iff.mp htarget
  split at h
  · cases h
  · rename_i place asDirectory
    obtain rfl := Except.ok.inj h
    obtain ⟨hplace, hnone, hput⟩ := hleads.put_directory
    have hlocate : (tree.put place .directory).locate workingDirectory p =
        .ok (.existing place .directory) := locate_eq_ok_iff.mpr ⟨hp, hput⟩
    constructor
    · intro other
      by_cases hother : other = place
      · subst hother
        exact .inr ⟨hnone, node?_put_self tree hplace _, p, rfl, hlocate⟩
      · exact .inl (node?_put_of_ne tree hplace hother _)
    · rw [isDirectory, hlocate]

/-- Creating one directory is no failure where there is one already. -/
theorem addsDirectories_of_attempt {p : Path} {result : Except FileProblem Unit}
    (h : (match tree.createDirectory workingDirectory p with
      | .ok tree => (tree, .ok ())
      | .error problem =>
        if tree.isDirectory workingDirectory p then (tree, .ok ()) else (tree, .error problem)) =
      (tree', result)) :
    AddsDirectories workingDirectory (· = p) tree tree' ∧
      (result = .ok () → tree'.isDirectory workingDirectory p) := by
  split at h
  · rename_i made hmade
    obtain ⟨rfl, rfl⟩ := Prod.mk.inj h
    obtain ⟨hadds, hdirectory⟩ := addsDirectories_of_createDirectory hmade
    exact ⟨hadds, fun _ => hdirectory⟩
  · by_cases hdirectory : tree.isDirectory workingDirectory p
    · rw [if_pos hdirectory] at h
      obtain ⟨rfl, rfl⟩ := Prod.mk.inj h
      exact ⟨.refl _ tree, fun _ => hdirectory⟩
    · rw [if_neg hdirectory] at h
      obtain ⟨rfl, rfl⟩ := Prod.mk.inj h
      exact ⟨.refl _ tree, fun hok => nomatch hok⟩

/-- Whatever comes of it, creating directories along a path puts directories where nothing was and
does nothing else; if it succeeds, the path leads to a directory. -/
theorem addsDirectories_of_createDirectories {fuel : Nat} {p : Path}
    {result : Except FileProblem Unit}
    (h : createDirectories workingDirectory fuel tree p = (tree', result)) :
    AddsDirectories workingDirectory (fun path => path = p ∨ path.IsAbove p) tree tree' ∧
      (result = .ok () → p.text.isEmpty = false → tree'.isDirectory workingDirectory p) := by
  induction fuel generalizing tree p tree' result with
  | zero =>
    obtain ⟨rfl, rfl⟩ := Prod.mk.inj h
    exact ⟨.refl _ tree, fun hok => nomatch hok⟩
  | succ fuel ih =>
    rw [createDirectories] at h
    by_cases hempty : p.text.isEmpty
    · rw [if_pos hempty] at h
      obtain ⟨rfl, rfl⟩ := Prod.mk.inj h
      exact ⟨.refl _ tree, fun _ hp => absurd hempty (by simp [hp])⟩
    · rw [if_neg hempty] at h
      dsimp only at h
      split at h
      · -- the parent is missing: it comes first
        split at h
        · obtain ⟨rfl, rfl⟩ := Prod.mk.inj h
          exact ⟨.refl _ tree, fun hok => nomatch hok⟩
        · rename_i parent hparent
          split at h
          · rename_i between hbetween
            obtain ⟨habove, -⟩ := ih hbetween
            obtain ⟨hself, hdirectory⟩ := addsDirectories_of_attempt h
            refine ⟨(habove.mono ?_).trans (hself.mono fun _ => .inl), fun hok _ => hdirectory hok⟩
            exact fun _ hpath => .inr (Path.isAbove_of_parent? hparent hpath)
          · rename_i between problem hbetween
            obtain ⟨rfl, rfl⟩ := Prod.mk.inj h
            obtain ⟨habove, -⟩ := ih hbetween
            refine ⟨habove.mono fun _ hpath => ?_, fun hok => nomatch hok⟩
            exact .inr (Path.isAbove_of_parent? hparent hpath)
      · obtain ⟨hself, hdirectory⟩ := addsDirectories_of_attempt h
        exact ⟨hself.mono fun _ => .inl, fun hok _ => hdirectory hok⟩

end FileTree
end SiteSettings
