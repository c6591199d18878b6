import SiteSettings.Proofs.Config.Search
import SiteSettings.Proofs.Files.Tree

/-!
# Spellings of a path

Of a path's components only some name anything: empty ones and single dots stay where they are.
What a path leads to is told by its names alone, as long as something follows that does not ask for
a directory (`FileTree.locate_join_eq`).  The parent of a path has one name less
(`Path.names_parent`), whatever else its text loses, and joining adds the names (`Path.names_join`).

A relative path and an absolute one lead to the same place if the names of the absolute one are
those of the working directory and then those of the relative one (`Path.SamePlace`).  Files that
are reached through both are the same, and taking parents keeps to the same place, until the
relative path has no name left.  The absolute one may have some left then.
-/

namespace SiteSettings

/-! ## Names in a text -/

namespace Path

/-- The components of a text that name something. -/
def namesOf (s : List Char) : List (List Char) :=
  (Text.splitAt '/' s).filter fun component => !isIdle component

theorem splitHead_of_plain {s : List Char} (hslash : ∀ rest, s = '/' :: rest → False)
    (hdot : s = ['.'] → False) (hdotSlash : ∀ rest, s = '.' :: '/' :: rest → False) :
    splitHead s = ([], s) := by
  rw [splitHead]
  all_goals assumption

theorem namesOf_splitHead (s : List Char) : namesOf (splitHead s).2 = namesOf s := by
  fun_cases splitHead s with
  | case1 rest => simp [namesOf, Text.splitAt, isIdle]
  | case2 => decide
  | case3 rest => simp [namesOf, Text.splitAt, Text.extendFirst, isIdle]
  | case4 => rfl

theorem namesOf_joinWith {components : List (List Char)}
    (h : ∀ component ∈ components, '/' ∉ component) :
    namesOf (Text.joinWith '/' components) = components.filter fun component =>
      !isIdle component := by
  by_cases hne : components = []
  · subst hne
    rfl
  · rw [namesOf, Text.splitAt_joinWith '/' hne h]

/-- Cutting idle components from the end cuts no names. -/
theorem filter_trimIdle (components : List (List Char)) :
    (trimIdle components).filter (fun component => !isIdle component) =
      components.filter fun component => !isIdle component := by
  have hdrop (l : List (List Char)) :
      (l.dropWhile isIdle).filter (fun component => !isIdle component) =
      l.filter fun component => !isIdle component := by
    induction l with
    | nil => rfl
    | cons component rest ih =>
      by_cases hidle : isIdle component
      · simp [hidle, ih]
      · simp [hidle]
  rw [trimIdle, List.filter_reverse, hdrop, List.filter_reverse, List.reverse_reverse]

theorem not_isIdle_of_trimIdle {components front : List (List Char)} {last : List Char}
    (h : trimIdle components = front ++ [last]) : isIdle last = false := by
  have hdrop : components.reverse.dropWhile isIdle = last :: front.reverse := by
    rw [← List.reverse_inj, ← trimIdle, h]
    simp
  have hhead := List.head?_dropWhile_not isIdle components.reverse
  rw [hdrop] at hhead
  simpa using hhead

/-- What is left ends in a name. -/
theorem filter_dropLast_trimIdle (components : List (List Char)) :
    (trimIdle components).dropLast.filter (fun component => !isIdle component) =
      (components.filter fun component => !isIdle component).dropLast := by
  rw [← filter_trimIdle components]
  rcases List.eq_nil_or_concat' (trimIdle components) with hnil | ⟨front, last, hlast⟩
  · rw [hnil]
    rfl
  · rw [hlast, List.dropLast_concat, List.filter_append, List.filter_singleton,
      not_isIdle_of_trimIdle hlast]
    simp

/-! ## The names of a path -/

/-- Whether a component does more than to stay where it is. -/
def isNaming (component : String) : Bool :=
  ¬ (component = "" ∨ component = ".")

theorem isNaming_iff {component : String} :
    isNaming component ↔ ¬ (component = "" ∨ component = ".") :=
  decide_eq_true_iff

/-- The components of a path that name something. -/
def names (p : Path) : List String :=
  (FileTree.components p).filter isNaming

theorem names_eq (p : Path) : p.names = (namesOf p.text.toList).map String.ofList := by
  rw [names, FileTree.components, Text.pieces, List.filter_map, namesOf]
  refine congrArg (List.map String.ofList) (List.filter_congr fun component _ => ?_)
  have hempty : String.ofList component = "" ↔ component = [] := by
    rw [← String.toList_inj, String.toList_ofList]
    rfl
  have hdot : String.ofList component = "." ↔ component = ['.'] := by
    rw [← String.toList_inj, String.toList_ofList]
    rfl
  rw [Function.comp_apply, Bool.eq_iff_iff, isNaming_iff, hempty, hdot]
  simp [isIdle]

theorem isPrefix_trimIdle (components : List (List Char)) : trimIdle components <+: components := by
  obtain ⟨idle, hidle⟩ := exists_trimIdle_append components
  exact ⟨idle, hidle.symm⟩

/-- What parents keep of the components behind the head. -/
def kept (rest : List Char) : List (List Char) :=
  trimIdle (trimIdle (Text.splitAt '/' rest)).dropLast

theorem isPrefix_kept (rest : List Char) : kept rest <+: Text.splitAt '/' rest :=
  (isPrefix_trimIdle _).trans ((List.dropLast_prefix _).trans (isPrefix_trimIdle _))

theorem isPrefix_joinWith_kept (rest : List Char) : Text.joinWith '/' (kept rest) <+: rest := by
  obtain ⟨more, hmore⟩ := isPrefix_kept rest
  have hprefix := Text.isPrefix_joinWith '/' (kept rest) more
  rwa [hmore, Text.joinWith_splitAt] at hprefix

theorem namesOf_kept (rest : List Char) :
    namesOf (Text.joinWith '/' (kept rest)) = (namesOf rest).dropLast := by
  have hslash : ∀ component ∈ kept rest, '/' ∉ component := by
    intro component hmem
    exact Text.notMem_of_mem_splitAt '/' ((isPrefix_kept rest).subset hmem)
  rw [namesOf_joinWith hslash, kept, filter_trimIdle, filter_dropLast_trimIdle, namesOf]

/-- A head names nothing, whatever part of the rest follows. -/
theorem namesOf_head_append (s : List Char) {front : List Char} (h : front <+: (splitHead s).2) :
    namesOf ((splitHead s).1 ++ front) = namesOf front := by
  fun_cases splitHead s with
  | case1 rest => simp [namesOf, Text.splitAt, isIdle]
  | case2 =>
    obtain rfl := List.prefix_nil.mp h
    decide
  | case3 rest =>
    rcases List.prefix_cons_iff.mp h with rfl | ⟨front, rfl, -⟩
    · rfl
    · simp [namesOf, Text.splitAt, Text.extendFirst, isIdle]
  | case4 => rfl

/-- And it begins with a slash if the whole does. -/
theorem slash_head_append (s : List Char) {front : List Char} (h : front <+: (splitHead s).2) :
    (((splitHead s).1 ++ front).head? == some '/') = (s.head? == some '/') := by
  fun_cases splitHead s with
  | case1 rest => rfl
  | case2 => rfl
  | case3 rest => rfl
  | case4 _ hslash hdot hdotSlash =>
    rw [splitHead_of_plain hslash hdot hdotSlash] at h
    obtain ⟨back, rfl⟩ := h
    cases front with
    | cons c front => rfl
    | nil =>
      have hrelative : back.head? ≠ some '/' := by
        intro hhead
        obtain ⟨rest, hrest⟩ := List.head?_eq_some_iff.mp hhead
        exact hslash rest hrest
      simpa using hrelative

theorem names_eq_nil_of_trimIdle {p : Path}
    (h : trimIdle (Text.splitAt '/' (splitHead p.text.toList).2) = []) : p.names = [] := by
  rw [names_eq, ← namesOf_splitHead, namesOf, ← filter_trimIdle, h]
  rfl

/-- A parent is what is kept of its child, except the one of a single dot. -/
theorem parent?_cases {p parent : Path} (h : p.parent? = some parent) :
    parent.text.toList =
        (splitHead p.text.toList).1 ++ Text.joinWith '/' (kept (splitHead p.text.toList).2) ∨
      parent = ⟨""⟩ ∧ p.names = [] ∧ p.isAbsolute = false := by
  rw [parent?] at h
  dsimp only at h
  split at h
  · rename_i htrim
    split at h
    · rename_i hdot
      have hrelative : p.isAbsolute = false := by
        rw [isAbsolute, ← splitHead_append p.text.toList, hdot]
        rfl
      exact .inr ⟨(Option.some.inj h).symm, names_eq_nil_of_trimIdle htrim, hrelative⟩
    · cases h
  · rw [← Option.some.inj h, String.toList_ofList]
    exact .inl rfl

/-- A parent has one name less, and starts where its child starts. -/
theorem names_parent {p parent : Path} (h : p.parent? = some parent) :
    parent.names = p.names.dropLast ∧ parent.isAbsolute = p.isAbsolute := by
  rcases parent?_cases h with htext | ⟨rfl, hnames, hrelative⟩
  · have hprefix := isPrefix_joinWith_kept (splitHead p.text.toList).2
    refine ⟨?_, ?_⟩
    · rw [names_eq, htext, namesOf_head_append _ hprefix, namesOf_kept, namesOf_splitHead, names_eq,
        List.map_dropLast]
    · rw [isAbsolute, htext, slash_head_append _ hprefix]
      rfl
  · rw [hnames, hrelative]
    exact ⟨rfl, rfl⟩

theorem exists_parent {p : Path} (h : p.names ≠ []) : ∃ parent, p.parent? = some parent := by
  have htrim : trimIdle (Text.splitAt '/' (splitHead p.text.toList).2) ≠ [] :=
    mt names_eq_nil_of_trimIdle h
  rw [parent?]
  dsimp only
  split
  · contradiction
  · exact ⟨_, rfl⟩

/-! ## Joining -/

/-- The three ways in which a relative path is joined. -/
theorem join_cases (p : Path) {q : Path} (hq : q.isAbsolute = false) :
    (p.text = "" ∧ p.join q = q) ∨
      (∃ front, p.text = front ++ "/" ∧ p.join q = ⟨front ++ "/" ++ q.text⟩) ∨
      (p.text ≠ "" ∧ p.join q = ⟨p.text ++ "/" ++ q.text⟩) := by
  rw [join, if_neg (by simp [hq])]
  by_cases hempty : p.text = ""
  · left
    rw [hempty]
    exact ⟨rfl, by simp⟩
  · right
    by_cases hslash : p.text.toList.getLast? = some '/'
    · left
      obtain ⟨front, hfront⟩ := List.getLast?_eq_some_iff.mp hslash
      have htext : p.text = String.ofList front ++ "/" := by
        rw [← String.toList_inj, hfront, String.toList_append, String.toList_ofList]
        rfl
      exact ⟨String.ofList front, htext, by simp [htext]⟩
    · right
      exact ⟨hempty, by simp [hempty, hslash]⟩

/-- A relative path that is joined keeps all its components, behind some with the names of
the other one. -/
theorem components_join (p : Path) {q : Path} (hq : q.isAbsolute = false) :
    ∃ front, FileTree.components (p.join q) = front ++ FileTree.components q ∧
      front.filter isNaming = p.names := by
  have hslash : "/" = String.singleton '/' := rfl
  rcases join_cases p hq with ⟨hempty, hjoin⟩ | ⟨front, htext, hjoin⟩ | ⟨-, hjoin⟩
  · refine ⟨[], by rw [hjoin, List.nil_append], ?_⟩
    rw [names, FileTree.components, hempty]
    rfl
  · refine ⟨Text.pieces '/' front, ?_, ?_⟩
    · rw [hjoin, FileTree.components, FileTree.components, hslash, Text.pieces_append]
    · have hempty := Text.pieces_append '/' front ""
      rw [String.append_empty] at hempty
      rw [names, FileTree.components, htext, hslash, hempty, List.filter_append]
      exact (List.append_nil _).symm
  · refine ⟨FileTree.components p, ?_, rfl⟩
    rw [hjoin, FileTree.components, FileTree.components, FileTree.components, hslash,
      Text.pieces_append]

theorem isAbsolute_append {text : String} (h : text ≠ "") (more : String) :
    isAbsolute ⟨text ++ more⟩ = isAbsolute ⟨text⟩ := by
  have hne : text.toList ≠ [] := by simpa using h
  rw [isAbsolute, isAbsolute, String.toList_append, List.head?_append_of_ne_nil _ hne]

theorem isAbsolute_join (p : Path) {q : Path} (hq : q.isAbsolute = false) :
    (p.join q).isAbsolute = p.isAbsolute := by
  rcases join_cases p hq with ⟨hempty, hjoin⟩ | ⟨front, htext, hjoin⟩ | ⟨hne, hjoin⟩
  · rw [hjoin, hq, isAbsolute, hempty]
    rfl
  · have hne : front ++ "/" ≠ "" := by simp
    rw [hjoin, isAbsolute_append hne, ← htext]
  · rw [hjoin, String.append_assoc, isAbsolute_append hne]

theorem join_ne_empty (p : Path) {q : Path} (hq : q.text ≠ "") : (p.join q).text ≠ "" := by
  rw [join]
  split
  · exact hq
  · split
    · simp [hq]
    · simp

theorem names_join (p : Path) {q : Path} (hq : q.isAbsolute = false) :
    (p.join q).names = p.names ++ q.names := by
  obtain ⟨front, hfront, hnames⟩ := components_join p hq
  rw [names, hfront, List.filter_append, hnames]
  rfl

end Path

/-! ## What paths lead to -/

namespace FileTree

variable {tree : FileTree}

/-- Idle components make no difference, if something follows that is not only a request
for a directory. -/
theorem follow_filter (here : Place) (front : List String) {rest : List String}
    (hrest : rest.all (· == "") = false) :
    tree.follow here (front ++ rest) = tree.follow here (front.filter Path.isNaming ++ rest) := by
  have hne : rest ≠ [] := by
    rintro rfl
    cases hrest
  have hempty (more : List String) : (more ++ rest).isEmpty = false := by simp [hne]
  have hall (more : List String) : (more ++ rest).all (· == "") = false := by
    rw [List.all_append, hrest, Bool.and_false]
  induction front generalizing here with
  | nil => rfl
  | cons c front ih =>
    by_cases hidle : c = "" ∨ c = "."
    · have hdrop : ¬ Path.isNaming c := fun h => Path.isNaming_iff.mp h hidle
      rw [List.cons_append, follow, if_pos hidle, ih, List.filter_cons_of_neg hdrop]
    · rw [List.filter_cons_of_pos (Path.isNaming_iff.mpr hidle), List.cons_append, List.cons_append,
        follow, follow, if_neg hidle, if_neg hidle, ih]
      by_cases hup : c = ".."
      · rw [if_pos hup, if_pos hup]
      · rw [if_neg hup, if_neg hup]
        dsimp only
        rw [ih, hempty, hempty, hall, hall]

/-- Whether a place is a directory with all those above it. -/
structure IsDirectoryPath (tree : FileTree) (place : Place) : Prop where
  names : ∀ name ∈ place, IsName name ∧ '/' ∉ name.toList
  exist : ∀ above, above <+: place → tree.node? above = some .directory

theorem follow_directory {place : Place} (h : tree.IsDirectoryPath place) (rest : List String) :
    tree.follow [] (place ++ rest) = tree.follow place rest := by
  have hfrom (above below : Place) (hplace : place = above ++ below) :
      tree.follow above (below ++ rest) = tree.follow place rest := by
    induction below generalizing above with
    | nil => rw [hplace, List.append_nil, List.nil_append]
    | cons name below ih =>
      have hname : IsName name := (h.names name (by simp [hplace])).1
      have hnode : tree.node? (above ++ [name]) = some .directory :=
        h.exist _ ⟨below, by simp [hplace]⟩
      rw [List.cons_append, follow, if_neg hname.1, if_neg hname.2]
      dsimp only
      rw [hnode]
      exact ih (above ++ [name]) (by simp [hplace])
  exact hfrom [] place rfl

/-- A relative path that is not empty asks for more than a directory. -/
theorem all_components {f : Path} (hf : f.text ≠ "") (hrelative : f.isAbsolute = false) :
    (components f).all (· == "") = false := by
  obtain ⟨c, rest, htext⟩ : ∃ c rest, f.text.toList = c :: rest := by
    refine List.exists_cons_of_ne_nil ?_
    simpa using hf
  have hc : c ≠ '/' := by
    rintro rfl
    rw [Path.isAbsolute, htext] at hrelative
    cases hrelative
  obtain ⟨first, more, hsplit⟩ := List.exists_cons_of_ne_nil (Text.splitAt_ne_nil '/' rest)
  have hfirst : String.ofList (c :: first) ≠ "" := by simp
  rw [components, Text.pieces, htext, Text.splitAt, if_neg hc, hsplit, Text.extendFirst,
    List.map_cons, List.all_cons, beq_eq_false_iff_ne.mpr hfirst, Bool.false_and]

/-- Where a file below a directory is depends on the names that lead to the directory. -/
theorem locate_join_eq (workingDirectory : Place) (p : Path) {f : Path} (hf : f.text ≠ "")
    (hrelative : f.isAbsolute = false) :
    tree.locate workingDirectory (p.join f) =
      tree.follow (if p.isAbsolute then [] else workingDirectory) (p.names ++ components f) := by
  obtain ⟨front, hfront, hnames⟩ := Path.components_join p hrelative
  have hne : (p.join f).text.isEmpty = false := by simpa using Path.join_ne_empty p hf
  rw [locate, if_neg (by simp [hne]), Path.isAbsolute_join p hrelative, hfront,
    follow_filter _ front (all_components hf hrelative), hnames]

theorem locate_join_congr (workingDirectory : Place) {p q f : Path} (hf : f.text ≠ "")
    (habsolute : p.isAbsolute = q.isAbsolute) (hnames : p.names = q.names) :
    tree.locate workingDirectory (p.join f) = tree.locate workingDirectory (q.join f) := by
  by_cases hroot : f.isAbsolute
  · rw [Path.join, Path.join, if_pos hroot, if_pos hroot]
  · have hrelative : f.isAbsolute = false := by simpa using hroot
    rw [locate_join_eq _ p hf hrelative, locate_join_eq _ q hf hrelative, habsolute, hnames]

end FileTree

/-- Whether the absolute path `q` leads where the relative path `p` leads from a directory. -/
structure Path.SamePlace (directory : Place) (p q : Path) : Prop where
  relative : p.isAbsolute = false
  absolute : q.isAbsolute
  names : q.names = directory ++ p.names

/-- The absolute path of the place that a path leads to from a directory. -/
def Path.absoluteFrom (directory : Place) (p : Path) : Path :=
  Place.toPath ((if p.isAbsolute then [] else directory) ++ p.names)

namespace Path.SamePlace

variable {tree : FileTree} {directory : Place} {p q : Path}

theorem parent (h : SamePlace directory p q) {above above' : Path} (hp : p.parent? = some above)
    (hq : q.parent? = some above') (hne : p.names ≠ []) : SamePlace directory above above' := by
  obtain ⟨hnames, habsolute⟩ := names_parent hp
  obtain ⟨hnames', habsolute'⟩ := names_parent hq
  refine ⟨habsolute.trans h.relative, habsolute'.trans h.absolute, ?_⟩
  rw [hnames', h.names, List.dropLast_append_of_ne_nil hne, hnames]

/-- A file below both is the same file. -/
theorem locate_join (h : SamePlace directory p q) (hdirectory : tree.IsDirectoryPath directory)
    {f : Path} (hf : f.text ≠ "") :
    tree.locate directory (p.join f) = tree.locate directory (q.join f) := by
  by_cases habsolute : f.isAbsolute
  · rw [join, join, if_pos habsolute, if_pos habsolute]
  · have hrelative : f.isAbsolute = false := by simpa using habsolute
    rw [FileTree.locate_join_eq _ p hf hrelative, FileTree.locate_join_eq _ q hf hrelative,
      h.relative, h.absolute, h.names, List.append_assoc]
    exact (FileTree.follow_directory hdirectory _).symm

theorem absoluteFrom_join (h : SamePlace directory p q) (f : Path) :
    (p.join f).absoluteFrom directory = (q.join f).absoluteFrom directory := by
  by_cases habsolute : f.isAbsolute
  · rw [join, join, if_pos habsolute, if_pos habsolute]
  · have hrelative : f.isAbsolute = false := by simpa using habsolute
    rw [absoluteFrom, absoluteFrom, isAbsolute_join p hrelative, isAbsolute_join q hrelative,
      names_join p hrelative, names_join q hrelative, h.relative, h.absolute, h.names,
      List.append_assoc]
    rfl

end Path.SamePlace

/-! ## The path of a place -/

theorem Place.isAbsolute_toPath (place : Place) : place.toPath.isAbsolute := by
  rw [Place.toPath, Path.isAbsolute, String.toList_append]
  rfl

theorem Place.names_toPath {tree : FileTree} {place : Place} (h : tree.IsDirectoryPath place) :
    place.toPath.names = place := by
  have htext : "/" ++ String.intercalate "/" place =
      "" ++ String.singleton '/' ++ String.intercalate (String.singleton '/') place := rfl
  rw [Path.names, FileTree.components, Place.toPath, htext, Text.pieces_append, List.filter_append]
  by_cases hne : place = []
  · subst hne
    rfl
  · rw [Text.pieces_intercalate '/' hne fun name hname => (h.names name hname).2]
    refine List.filter_eq_self.mpr fun name hname => ?_
    exact Path.isNaming_iff.mpr (h.names name hname).1.1

/-- A relative path and the same path joined to that of the directory lead to the same place. -/
theorem Path.samePlace_join {tree : FileTree} {directory : Place}
    (h : tree.IsDirectoryPath directory) {p : Path} (hp : p.isAbsolute = false) :
    SamePlace directory p (directory.toPath.join p) := by
  refine ⟨hp, ?_, ?_⟩
  · rw [isAbsolute_join _ hp]
    exact directory.isAbsolute_toPath
  · rw [names_join _ hp, Place.names_toPath h]

end SiteSettings
