import SiteSettings.Proofs.Php.Appending
import SiteSettings.Proofs.SettingsFile

/-!
# The settings file as a template

A settings file can be a template in its turn.  It is accepted, every statement of its template
keeps its chunk, and every generated statement is a chunk of its own.

Two descriptions meet in this.  The template is read in the same steps when the glue and more text
stand behind it (`exists_readsOn`), so the reader comes to the generated text in code and behind a
complete statement.  The generated text is the guard and one line for each assignment, up to a line
end (`generatedText_eq`), and behind a complete statement each of them is one more (`adjoins_guard`,
`adjoins_assignment`).

The template has to be read without going back, with no opening tag in a comment behind its last
closing tag (`isSettled`).  Such a tag opens the code again, and the one in the glue is then out of
place.  And where a reader goes back to a delimiter that it took for text, since no later line of
the template closes the literal, a line of the generated text may close it.  Templates of the second
kind are left out here as a whole, those included whose settings file is accepted all the same.
-/

namespace SiteSettings

open Php Reader

/-! ## The code of settings -/

section

variable {options : GeneratorOptions}

mutual

theorem ValueSpec.isValue_code (h : options.lookupFunction = "getenv") :
    ∀ spec : ValueSpec, (spec.code options).isValue
  | .leaf variableName => by simp [ValueSpec.code, Generator.lookup, Expr.isValue, Expr.string, h]
  | .composite entries => by
    rw [ValueSpec.code, Expr.isValue]
    exact areValues_entriesCode h entries

theorem areValues_entriesCode (h : options.lookupFunction = "getenv") :
    ∀ entries : List (Key × ValueSpec), areValues (entriesCode options entries)
  | [] => rfl
  | (key, spec) :: rest => by
    have hkey : (Generator.keyLiteral key).isValue := by cases key <;> rfl
    simp [entriesCode, areValues, ArrayItem.isValue, hkey, spec.isValue_code h,
      areValues_entriesCode h rest]

end

/-- An assignment is one of a value to a target. -/
theorem ValueSpec.exists_assignedTo (h : options.lookupFunction = "getenv") (target : Expr)
    (spec : ValueSpec) (ht : target.isTarget) :
    ∃ place value, spec.assignedTo options target = .assign place value ∧ place.isTarget ∧
      value.isValue := by
  fun_induction ValueSpec.assignedTo options target spec with
  | case1 target key spec ih =>
    have hkey : (Generator.keyLiteral key).isValue := by cases key <;> rfl
    exact ih (by simp [Expr.isTarget, ht, hkey])
  | case2 target spec => exact ⟨target, _, rfl, ht, spec.isValue_code h⟩

end

/-! ## Comments -/

/-- A text that is a block comment from its first character to its last. -/
def isBlockComment (comment : String) : Bool :=
  match comment.toList with
  | '/' :: '*' :: more => blockCommentLength? more = some more.length
  | _ => false

theorem exists_of_isBlockComment {comment : String} (h : isBlockComment comment) :
    ∃ more, comment.toList = '/' :: '*' :: more ∧ blockCommentLength? more = some more.length := by
  unfold isBlockComment at h
  split at h
  · exact ⟨_, ‹_›, of_decide_eq_true h⟩
  · nomatch h

/-- A line end behind something may stand in front of something dense. -/
theorem skips_line {c : Char} (hc : isDense c) (rest : List Char) :
    Skips ('\n' :: c :: rest) (c :: rest) :=
  .blanks_dense isPlainBlank_lineEnd hc

theorem skips_comment {comment : String} (h : isBlockComment comment) (rest : List Char) :
    Skips (comment.toList ++ rest) rest := by
  obtain ⟨more, hcomment, hlength⟩ := exists_of_isBlockComment h
  rw [hcomment]
  refine .comment ?_
  rw [commentLength, blockCommentLength?_append hlength]
  rfl

/-- Line ends may stand in front of it. -/
theorem skips_comment_behind {comment : String} (h : isBlockComment comment) {blanks : List Char}
    (hblanks : ∀ c ∈ blanks, isPlainBlank c) (rest : List Char) :
    Skips (blanks ++ (comment.toList ++ rest)) rest := by
  have hskips := skips_comment h rest
  obtain ⟨more, hcomment, -⟩ := exists_of_isBlockComment h
  rw [hcomment] at hskips ⊢
  exact (Skips.blanks_slash hblanks _).trans hskips

/-! ## Names -/

/-- A name in ASCII is a single name. -/
theorem isLexable_of_ascii {name : String} (h : ∀ c ∈ name.toList, c.toNat < 0x80) :
    isLexable name := by
  unfold isLexable
  cases hplain : isPlainName name with
  | false => rfl
  | true =>
    have hchar {c : Char} (hc : c ∈ name.toList) (hname : isNameChar c) : isLexicalNameChar c := by
      have hascii := h c hc
      simp only [isNameChar, isNameStart, Bool.or_eq_true, decide_eq_true_eq] at hname
      rcases hname with ((halpha | hunder) | hbeyond) | hdigit
      · simp [isLexicalNameChar, isLexicalNameStart, halpha]
      · simp [isLexicalNameChar, isLexicalNameStart, hunder]
      · omega
      · simp [isLexicalNameChar, hdigit]
    have hnames : ∀ c ∈ name.toList, isNameChar c := by
      unfold isPlainName at hplain
      split at hplain
      · cases hplain
      · rename_i first more hname
        rw [Bool.and_eq_true, List.all_eq_true] at hplain
        rw [hname, List.forall_mem_cons]
        exact ⟨by rw [isNameChar, hplain.1, Bool.true_or], hplain.2⟩
    exact List.all_eq_true.mpr fun c hc => hchar hc (hnames c hc)

namespace SettingsFile

variable {p : Php.Place}

/-- Whether the texts in the options are what they are meant to be. -/
structure IsReadable (options : GeneratorOptions) : Prop where
  lookup : options.lookupFunction = "getenv"
  generated : isBlockComment options.generatedComment
  inclusion : isBlockComment options.includeComment
  environment : isBlockComment options.environmentComment

/-- They are if only the file of the guard and the indentation are chosen. -/
theorem isReadable_default (includeFile : String) (indent : UInt64) :
    IsReadable { includeFile, indent } where
  lookup := rfl
  generated := (by decide : isBlockComment ({} : GeneratorOptions).generatedComment)
  inclusion := (by decide : isBlockComment ({} : GeneratorOptions).includeComment)
  environment := (by decide : isBlockComment ({} : GeneratorOptions).environmentComment)

/-! ## The chunk of the guard -/

/-- The comments in front of the guard. -/
def guardComments (options : GeneratorOptions) : String :=
  options.generatedComment ++ "\n\n" ++ options.includeComment ++ "\n"

theorem exists_guardComments {options : GeneratorOptions} (hoptions : IsReadable options) :
    ∃ rest, (guardComments options).toList = '/' :: '*' :: rest := by
  obtain ⟨more, hcomment, -⟩ := exists_of_isBlockComment hoptions.generated
  simp [guardComments, hcomment]

theorem skips_guardComments {options : GeneratorOptions} (hoptions : IsReadable options)
    {blanks : List Char} (hblanks : ∀ c ∈ blanks, isPlainBlank c) {c : Char} (hc : isDense c)
    (rest : List Char) :
    Skips (blanks ++ (guardComments options).toList ++ c :: rest) (c :: rest) := by
  have hsplit : blanks ++ (guardComments options).toList ++ c :: rest =
      blanks ++ (options.generatedComment.toList ++
        (['\n', '\n'] ++ (options.includeComment.toList ++
        ('\n' :: c :: rest)))) := by
    simp [guardComments]
  rw [hsplit]
  exact (skips_comment_behind hoptions.generated hblanks _).trans
    ((skips_comment_behind hoptions.inclusion (isPlainBlank_newLine isPlainBlank_lineEnd) _).trans
      (skips_line hc rest))

/-- Behind a complete statement the guard is one more, with its comments and blanks in
front of them. -/
theorem adjoins_guard (hfinal : p.isFinal) {options : GeneratorOptions}
    (hoptions : IsReadable options) {blanks : List Char} (hblanks : ∀ c ∈ blanks, isPlainBlank c) :
    Adjoins p (blanks ++ (guardComments options).toList ++
      ((Generator.includeGuard options).text options.indent.toNat 0).toList)
        ⟨.brace, [], false⟩ := by
  have htext (rest : List Char) :
      ((Generator.includeGuard options).text options.indent.toNat 0).toList ++ rest =
        'i' :: 'f' :: ' ' :: '(' ::
          (("file_exists".toList ++ '(' :: ((quoted options.includeFile).toList ++
          [')'])) ++ ')' :: ' ' :: '\x7b' :: '\n' :: ((Text.spaces options.indent.toNat).toList ++
            ("include_once".toList ++ ' ' :: ((quoted options.includeFile).toList ++
              ';' :: '\n' :: '\x7d' :: rest)))) := by
    rw [includeGuard_text]
    simp
  refine adjoins (fun rest => ?_) (fun rest => ?_) fun rest => ?_
  · rw [htext]
    exact skips_guardComments hoptions hblanks (by decide) _
  · rw [htext]
    exact beginsStatement_if hfinal _
  · rw [htext]
    have hpath := IsOperand.quoted options.includeFile
    exact spells_guard (.call (by simp) hpath) hpath (isPlainBlank_spaces _) rest

/-! ## The chunks of the assignments -/

/-- The comments of an assignment. -/
def AreLeading (comments : List String) : Prop :=
  comments = [] ∨ ∃ comment, comments = [comment] ∧ isBlockComment comment

theorem commentBlock_newLine (comment : String) :
    Rendering.commentBlock "\n" [comment] = "\n" ++ comment ++ "\n" := by
  have hblank : ¬ Text.endsBlankLine "\n" := by
    simp only [Text.endsBlankLine, Text.endsIn, List.isSuffixOf_iff_suffix]
    decide
  simp [Rendering.commentBlock, joinText, hblank, String.append_assoc]

theorem AreLeading.skips {comments : List String} (h : AreLeading comments) {c : Char}
    (hc : isDense c) (rest : List Char) :
    Skips (("\n" ++ Rendering.commentBlock "\n" comments).toList ++ c :: rest) (c :: rest) := by
  rcases h with rfl | ⟨comment, rfl, hcomment⟩
  · exact skips_line hc rest
  · have hsplit : ("\n" ++ Rendering.commentBlock "\n" [comment]).toList ++ c :: rest =
        ['\n', '\n'] ++ (comment.toList ++ '\n' :: c :: rest) := by
      simp [commentBlock_newLine]
    rw [hsplit]
    exact (skips_comment_behind hcomment (isPlainBlank_newLine isPlainBlank_lineEnd) _).trans
      (skips_line hc rest)

/-- A statement behind another one: the end of that one's line, the comments with blank lines around
them, and the statement. -/
def lineText (indent : Nat) (stmt : Stmt) : String :=
  "\n" ++ Rendering.commentBlock "\n" stmt.comments ++ stmt.text indent 0

theorem exists_cons_of_isTarget (indent : Nat) : ∀ e : Expr, e.isTarget →
    ∃ tail, (e.text indent 0).toList = '$' :: tail
  | .variable name, _ => by
    rw [Expr.text]
    exact CodeReader.toList_variableText name
  | .element base index, h => by
    rw [Expr.isTarget, Bool.and_eq_true] at h
    obtain ⟨tail, htail⟩ := exists_cons_of_isTarget indent base h.1
    exact ⟨_, by rw [toList_element, htail, List.cons_append]⟩

/-- Behind a complete statement an assignment is one more. -/
theorem adjoins_assignment (hfinal : p.isFinal) (hlast : p.last = .ended ∨ p.last = .brace)
    (indent : Nat) {target value : Expr} (ht : target.isTarget) (hv : value.isValue)
    {comments : List String} (hcomments : AreLeading comments) :
    Adjoins p (lineText indent (.expression (.assign target value) comments)).toList
      ⟨.ended, [], false⟩ := by
  obtain ⟨tail, htarget⟩ := exists_cons_of_isTarget indent target ht
  obtain ⟨tail', htext⟩ : ∃ tail',
      ((Stmt.expression (.assign target value) comments).text indent 0).toList =
      '$' :: tail' := by
    rw [toList_expression, toList_assign, htarget]
    exact ⟨_, rfl⟩
  rw [lineText, String.toList_append]
  refine adjoins (fun rest => ?_) (fun rest => ?_)
    fun rest => Stmt.spells_assignment indent ht hv comments rest
  · rw [htext]
    exact hcomments.skips (by decide) _
  · rw [htext]
    exact beginsStatement_variable hfinal hlast _

/-! ## Behind the template -/

theorem exists_of_endsLine {template : String} (h : Text.endsLine template) :
    ∃ init, template.toList = init ++ ['\n'] := by
  obtain ⟨init, hinit⟩ := List.isSuffixOf_iff_suffix.mp h
  exact ⟨init, hinit.symm⟩

/-- Behind code the glue is line ends, and at least one unless the template ends with its line. -/
theorem glue_of_code {template : String} {chunks : List Chunk} (hcode : endInCode chunks)
    (hne : template ≠ "") :
    ∃ m, (glue template chunks).toList = List.replicate m '\n' ∧
      ∀ rest, Parted template.toList (List.replicate m '\n' ++ rest) := by
  by_cases hline : Text.endsLine template
  · have hparted : ∀ rest, Parted template.toList rest := fun _ => .inr (exists_of_endsLine hline)
    by_cases hblank : Text.endsBlankLine template
    · exact ⟨0, by simp [glue, hcode, hne, hline, hblank], fun _ => hparted _⟩
    · exact ⟨1, by simp [glue, hcode, hne, hline, hblank], fun _ => hparted _⟩
  · by_cases hblank : Text.endsBlankLine (template ++ "\n")
    · exact ⟨1, by simp [glue, hcode, hne, hline, hblank], fun rest => .inl ⟨rest, rfl⟩⟩
    · exact ⟨2, by simp [glue, hcode, hne, hline, hblank], fun rest => .inl ⟨'\n' :: rest, rfl⟩⟩

/-- Behind plain text it is an opening tag with a line end in front of it, unless one is there. -/
theorem glue_of_plain (template : String) {chunks : List Chunk}
    (hplain : endInCode chunks = false) :
    ∃ m, (glue template chunks).toList = openingTag m ['\n'] ∧
      (template.toList ≠ [] → ∀ rest, Parted template.toList (openingTag m rest)) := by
  have hblank (before : String) : ¬ Text.endsBlankLine (before ++ "<?php\n") := by
    have hsplit : before ++ "<?php\n" = before ++ "<?ph" ++ String.singleton 'p' ++ "\n" := by
      apply String.toList_inj.mp
      simp
    rw [hsplit]
    exact Text.endsBlankLine_append _ (by decide)
  by_cases hline : template = "" ∨ Text.endsLine template
  · refine ⟨0, ?_, fun hne rest => .inr (exists_of_endsLine (hline.resolve_left ?_))⟩
    · simpa [glue, hplain, hblank, openingTag] using hline.resolve_left
    · simpa using hne
  · rw [not_or] at hline
    refine ⟨1, ?_, fun _ rest => .inl ⟨openingTag 0 rest, rfl⟩⟩
    simp [glue, hline, hplain, hblank, openingTag]

section

variable {template : String} {plain : Nat} {opens : Bool} {last : Reader}

/-- Behind a template the reader goes on behind the glue, or behind an opening tag in it and
before line ends. -/
theorem exists_readsOn (hplain : plainLength template.toList = (plain, opens))
    (hsettle : settle? template.toList.length (start plain opens)
      (template.toList.drop plain) = some last)
    {chunks : List Chunk} (hmode : endInCode chunks = last.closeChunk.inCode)
    (hempty : template = "" → endInCode chunks = false) :
    ∃ front back, (glue template chunks).toList = front ++ back ∧ (∀ c ∈ back, isPlainBlank c) ∧
      ∀ rest, ReadsOn (template.toList ++ (front ++ (back ++ '/' :: '*' :: rest)))
        (back ++ '/' :: '*' :: rest) (template.toList.length + front.length) last front.length := by
  cases hcode : endInCode chunks with
  | true =>
    have hne : template ≠ "" := fun he => by simp [hempty he] at hcode
    obtain ⟨m, hglue, hparted⟩ := glue_of_code hcode hne
    refine ⟨List.replicate m '\n', [], by rw [hglue, List.append_nil], nofun, fun rest => ?_⟩
    rw [List.length_replicate, List.nil_append]
    exact readsOn_of_code hplain hsettle (hmode ▸ hcode) ⟨rfl, rfl⟩ (hparted _)
  | false =>
    obtain ⟨m, hglue, hparted⟩ := glue_of_plain template hcode
    refine ⟨List.replicate m '\n' ++ ['<', '?', 'p', 'h', 'p'], ['\n', '\n'], ?_,
      isPlainBlank_newLine isPlainBlank_lineEnd, fun rest => ?_⟩
    · simp [hglue, openingTag]
    · obtain ⟨plain', k, r, hplain', hk, hreads, hresumes⟩ :=
        readsOn_of_plain hplain hsettle (hmode ▸ hcode) fun hne =>
          hparted hne ('\n' :: '/' :: '*' :: rest)
      have htag : List.replicate m '\n' ++ ['<', '?', 'p', 'h', 'p'] ++
          (['\n', '\n'] ++ '/' :: '*' :: rest) =
          openingTag m ('\n' :: '/' :: '*' :: rest) := by
        simp [openingTag]
      rw [htag]
      exact ⟨plain', k, r, hplain', hk.trans (Nat.le_add_right _ _),
        hreads, by simpa using hresumes⟩

end

/-! ## The generated text -/

theorem lineText_expression (indent : Nat) (value : Expr) :
    lineText indent (.expression value []) = "\n" ++ value.text indent 0 ++ ";" := by
  simp [lineText, Stmt.comments, Rendering.commentBlock, Stmt.text, String.append_assoc]

/-- A line end in front of lines is as good as one behind each. -/
theorem join_lineText (indent : Nat) (values : List Expr) :
    "\n" ++ String.join (values.map fun value => value.text indent 0 ++ ";\n") =
      String.join ((values.map fun value => .expression value []).map (lineText indent)) ++
        "\n" := by
  induction values with
  | nil => rfl
  | cons value values ih =>
    have hsplit : value.text indent 0 ++ ";\n" = value.text indent 0 ++ ";" ++ "\n" := by
      rw [String.append_assoc]
      rfl
    rw [List.map_cons, List.map_cons, List.map_cons, String.join_cons, String.join_cons,
      lineText_expression, hsplit]
    simp only [String.append_assoc, ih]

/-- The generated text, with the line ends in front of the statements. -/
theorem generatedText_eq (settings : SettingsMap) (options : GeneratorOptions) :
    generatedText settings options =
      guardComments options ++ (Generator.includeGuard options).text options.indent.toNat 0 ++
        String.join ((settings.assignmentStatements options).map (lineText options.indent.toNat)) ++
          "\n" := by
  have hguard : guardText options =
      guardComments options ++ (Generator.includeGuard options).text options.indent.toNat
        0 ++ "\n" := by
    rw [includeGuard_text]
    apply String.toList_inj.mp
    simp [guardText, guardComments]
  have hempty : settings.isEmpty = (settings.assignmentCode options).isEmpty := by
    simp [SettingsMap.isEmpty, SettingsMap.assignmentCode]
  rw [generatedText, hguard, hempty, assignmentsText, SettingsMap.assignmentStatements]
  cases settings.assignmentCode options with
  | nil => simp
  | cons first rest =>
    have hsplit : first.text options.indent.toNat 0 ++ ";\n" = first.text options.indent.toNat 0 ++
        ";" ++ "\n" := by
      rw [String.append_assoc]
      rfl
    have hfirst : lineText options.indent.toNat (.expression first [options.environmentComment]) =
        "\n" ++ "\n" ++ options.environmentComment ++ "\n" ++
          first.text options.indent.toNat 0 ++ ";" := by
      apply String.toList_inj.mp
      simp [lineText, Stmt.comments, commentBlock_newLine, Stmt.text]
    rw [List.map_cons, List.map_cons, String.join_cons, String.join_cons, hfirst, hsplit]
    simp only [List.isEmpty_cons, Bool.false_eq_true, if_false, String.append_assoc,
      ← join_lineText]

/-! ## The settings file -/

/-- Every generated statement but the guard is a chunk behind the one before it. -/
theorem adjoins_assignmentStatements {options : GeneratorOptions} (hoptions : IsReadable options)
    {settings : SettingsMap} (hnames : ∀ entry ∈ settings.entries, isLexable entry.1) {stmt : Stmt}
    (hstmt : stmt ∈ settings.assignmentStatements options) (hp : p.IsGenerated) (indent : Nat) :
    Adjoins p (lineText indent stmt).toList ⟨.ended, [], false⟩ := by
  have hadjoins {code : Expr} (hcode : code ∈ settings.assignmentCode options)
      {comments : List String} (hcomments : AreLeading comments) :
      Adjoins p (lineText indent (.expression code comments)).toList ⟨.ended, [], false⟩ := by
    obtain ⟨⟨name, spec⟩, hentry, rfl⟩ := List.mem_map.mp hcode
    have htarget : (Expr.variable name).isTarget := hnames _ hentry
    obtain ⟨target, value, hassign, ht, hv⟩ :=
      spec.exists_assignedTo hoptions.lookup (.variable name) htarget
    simp only [hassign]
    exact adjoins_assignment hp.1 hp.2 indent ht hv hcomments
  rw [SettingsMap.assignmentStatements] at hstmt
  cases hcodes : settings.assignmentCode options with
  | nil =>
    rw [hcodes] at hstmt
    cases hstmt
  | cons first rest =>
    rw [hcodes] at hstmt hadjoins
    rcases List.mem_cons.mp hstmt with rfl | hstmt
    · exact hadjoins List.mem_cons_self (.inr ⟨_, rfl, hoptions.environment⟩)
    · obtain ⟨code, hcode, rfl⟩ := List.mem_map.mp hstmt
      exact hadjoins (List.mem_cons_of_mem first hcode) (.inl rfl)

/-- The chunks of a settings file behind the statements of the template: the one of the guard, with
`before` in front of its comments, one for each assignment, and a line end. -/
def generatedChunks (settings : SettingsMap) (options : GeneratorOptions) (before : String) :
    List Chunk :=
  ⟨before ++ guardComments options ++
    (Generator.includeGuard options).text options.indent.toNat 0, true⟩ ::
    (settings.assignmentStatements options).map
      (fun stmt => ⟨lineText options.indent.toNat stmt, true⟩) ++
    [⟨"\n", true⟩]

theorem map_generatedChunks (settings : SettingsMap) (options : GeneratorOptions)
    (before : String) :
    generatedChunks settings options before =
      ((before.toList ++ ((guardComments options).toList ++
        ((Generator.includeGuard options).text options.indent.toNat 0).toList)) ::
        (settings.assignmentStatements options).map fun stmt =>
          (lineText options.indent.toNat stmt).toList).map
          (fun text => ⟨String.ofList text, true⟩) ++ [⟨"\n", true⟩] := by
  simp [generatedChunks, String.append_assoc]

/-- The empty template ends outside code. -/
theorem endInCode_of_empty {template : String} {chunks : List Chunk}
    (hchunks : templateChunks template.toList = .ok chunks) (hempty : template = "") :
    endInCode chunks = false := by
  subst hempty
  have hnone : templateChunks "".toList = .ok [] := rfl
  rw [hnone] at hchunks
  rw [← Except.ok.inj hchunks]
  rfl

/-- Each generated line but those of the guard is a chunk behind the one before it. -/
theorem adjoins_lineTexts {options : GeneratorOptions} (hoptions : IsReadable options)
    {settings : SettingsMap} (hnames : ∀ entry ∈ settings.entries, isLexable entry.1) (indent : Nat)
    {text : List Char}
    (htext : text ∈ (settings.assignmentStatements options).map fun stmt =>
      (lineText indent stmt).toList) {p : Php.Place} (hp : p.IsGenerated) :
    ∃ q : Php.Place, q.IsGenerated ∧ Adjoins p text q := by
  obtain ⟨stmt, hstmt, rfl⟩ := List.mem_map.mp htext
  exact ⟨⟨.ended, [], false⟩, ⟨rfl, .inl rfl⟩,
    adjoins_assignmentStatements hoptions hnames hstmt hp indent⟩

/-- The settings file of a template that is read without going back. -/
theorem exists_chunks_source {template : String} (hsettled : isSettled template)
    {settings : SettingsMap} (hfilled : settings.isFilled)
    (hnames : ∀ entry ∈ settings.entries, isLexable entry.1) {options : GeneratorOptions}
    (hoptions : IsReadable options) :
    ∃ (chunks own : List Chunk) (trailing text : String),
      Document.ofTemplate template = .ok ⟨chunks.map .verbatim⟩ ∧
      chunks = own ++ (if trailing = "" then [] else [⟨trailing, endInCode chunks⟩]) ∧
      source settings template options =
        (if widest settings options.indent ≤ Text.longest then .ok (text, settings.size)
          else .error .marginTooLong) ∧
      Document.ofTemplate text =
        .ok ⟨(own ++ generatedChunks settings options (trailing ++ glue template chunks)).map
          .verbatim⟩ := by
  obtain ⟨last, hsettle⟩ := Option.isSome_iff_exists.mp hsettled
  obtain ⟨plain, opens, hplain⟩ : ∃ plain opens,
      plainLength template.toList = (plain, opens) := ⟨_, _, rfl⟩
  rw [hplain] at hsettle
  obtain ⟨chunks, hchunks, hcut, hmode, htracked, hend⟩ := templateChunks_of_settle? hplain hsettle
  obtain ⟨front, back, hglue, hback, hreads⟩ :=
    exists_readsOn hplain hsettle hmode (endInCode_of_empty hchunks)
  set guard := (guardComments options).toList ++
    ((Generator.includeGuard options).text options.indent.toNat 0).toList with hguard
  set texts := (settings.assignmentStatements options).map fun stmt =>
    (lineText options.indent.toNat stmt).toList with htexts
  obtain ⟨rest, hrest⟩ : ∃ rest, guard ++ (texts.flatten ++ ['\n']) = '/' :: '*' :: rest := by
    obtain ⟨rest, hcomments⟩ := exists_guardComments hoptions
    simp [hguard, hcomments]
  have hadjoins (p : Php.Place) (hp : p.isFinal) :
      Adjoins p (back ++ guard) ⟨.brace, [], false⟩ := by
    rw [hguard, ← List.append_assoc]
    exact adjoins_guard hp hoptions hback
  have hmore : ∀ text ∈ texts, ∀ p : Php.Place, p.IsGenerated →
      ∃ q : Php.Place, q.IsGenerated ∧ Adjoins p text q := by
    intro text htext p hp
    exact adjoins_lineTexts hoptions hnames options.indent.toNat htext hp
  have hreads' := hreads rest
  rw [← hrest] at hreads'
  obtain ⟨own, trailing, hsource, hown, happended⟩ :=
    templateChunks_append hreads' htracked hend hadjoins hmore
  refine ⟨chunks, cutChunks true last.closeChunk.chunks.reverse own, String.ofList trailing,
    template ++ glue template chunks ++ generatedText settings options, ?_, ?_,
    source_eq hchunks hfilled options, ?_⟩
  · rw [Document.ofTemplate, hchunks]
    rfl
  · have hcutting := cutChunks_append hown last.closeChunk.inCode [] trailing
    rw [List.append_nil, ← hsource] at hcutting
    rw [hmode, hcut, hcutting]
    cases trailing with
    | nil => rfl
    | cons c trailing => simp [cutChunks]
  · have htext : (template ++ glue template chunks ++ generatedText settings options).toList =
        template.toList ++ (front ++ (back ++ (guard ++ (texts.flatten ++ ['\n'])))) := by
      simp [generatedText_eq, hglue, hguard, htexts, List.flatMap_def, Function.comp_def]
    have hbefore : (String.ofList trailing ++ glue template chunks).toList ++ guard =
        trailing ++ (front ++ (back ++ guard)) := by
      simp [hglue]
    rw [Document.ofTemplate, htext, happended, map_generatedChunks, hbefore, List.append_assoc]
    rfl

/-- **The settings file is a template itself.**  If the template is read without going back, its
settings file is accepted: there is one unless its widest margin is longer than a text can be.  The
statements of the template keep their chunks.  Then come one chunk for the guard and one for each
assignment, in their order: each is the printed statement behind comments and line ends, and in
front of those of the guard stand the text that the template left over and the glue.  The last chunk
is a line end, in code. -/
theorem ofTemplate_source {template : String} (hsettled : isSettled template)
    {settings : SettingsMap} (hfilled : settings.isFilled)
    (hnames : ∀ entry ∈ settings.entries, ∀ c ∈ entry.1.toList, c.toNat < 0x80)
    (includeFile : String) (indent : UInt64) :
    let options : GeneratorOptions := { includeFile, indent }
    ∃ (chunks own : List Chunk) (trailing text : String),
      Document.ofTemplate template = .ok ⟨chunks.map .verbatim⟩ ∧
      chunks = own ++ (if trailing = "" then [] else [⟨trailing, endInCode chunks⟩]) ∧
      source settings template options =
        (if widest settings indent ≤ Text.longest then .ok (text, settings.size)
          else .error .marginTooLong) ∧
      Document.ofTemplate text =
        .ok ⟨(own ++ generatedChunks settings options
          (trailing ++ glue template chunks)).map .verbatim⟩ :=
  exists_chunks_source hsettled hfilled
    (fun entry hentry => isLexable_of_ascii (hnames entry hentry))
    (isReadable_default includeFile indent)

theorem ofTemplate_source_behind_comment :
    let template := "<p><?php\n$a = 'b'; // c"
    let settings : SettingsMap :=
      ⟨[("db", .composite [(.string "host", .leaf "H"), (.integer 0, .leaf "I")]),
        ("x y", .leaf "X")]⟩
    let options : GeneratorOptions := { includeFile := "../c.php", indent := 4 }
    isSettled template ∧ settings.isFilled ∧
      (∀ entry ∈ settings.entries, ∀ c ∈ entry.1.toList, c.toNat < 0x80) ∧
      ∃ (chunks own : List Chunk) (trailing text : String),
        Document.ofTemplate template = .ok ⟨chunks.map .verbatim⟩ ∧
        chunks = own ++ (if trailing = "" then [] else [⟨trailing, endInCode chunks⟩]) ∧
        source settings template options = .ok (text, settings.size) ∧
        Document.ofTemplate text =
          .ok ⟨(own ++ generatedChunks settings options (trailing ++ glue template chunks)).map
            .verbatim⟩ := by
  intro template settings options
  have hsettled : isSettled template := by decide +kernel
  have hnames : ∀ entry ∈ settings.entries, ∀ c ∈ entry.1.toList, c.toNat < 0x80 := by
    have hall : settings.entries.all fun entry => entry.1.toList.all fun c =>
        c.toNat < 0x80 := by decide
    simpa using hall
  obtain ⟨chunks, own, trailing, text, haccepted, hown, hsource, hread⟩ :=
    ofTemplate_source hsettled rfl hnames "../c.php" 4
  rw [if_pos (by decide)] at hsource
  exact ⟨hsettled, rfl, hnames, chunks, own, trailing, text, haccepted, hown, hsource, hread⟩

/-- A comment behind the last closing tag that holds an opening tag: the code goes on behind it, but
the template counts as one that ends in plain text, and the second opening tag is not valid. -/
theorem source_not_template :
    let template := "<?php $a = 1 ?>//<?php"
    (∃ doc, Document.ofTemplate template = .ok doc) ∧
      ∃ text error, source ⟨[]⟩ template {} = .ok (text, 0) ∧
        Document.ofTemplate text = .error error := by
  intro template
  have hchunks : templateChunks template.toList =
      .ok [⟨"<?php $a = 1", true⟩, ⟨" ?>//<?php", false⟩] := by decide +kernel
  have hline : ¬ Text.endsLine template := by
    simp only [Text.endsLine, Text.endsIn, List.isSuffixOf_iff_suffix]
    decide
  have hblank : ¬ Text.endsBlankLine (template ++ "\n<?php\n") := by
    simp only [Text.endsBlankLine, Text.endsIn, List.isSuffixOf_iff_suffix]
    decide
  have hglue : glue template [⟨"<?php $a = 1", true⟩, ⟨" ?>//<?php", false⟩] = "\n<?php\n\n" := by
    have hne : template ≠ "" := by decide
    have hplain : endInCode [⟨"<?php $a = 1", true⟩, ⟨" ?>//<?php", false⟩] = false := rfl
    simp only [glue, hplain]
    simp [hne, hline, hblank, String.append_assoc]
  have hsource : source ⟨[]⟩ template {} = .ok (_, 0) :=
    (source_eq hchunks rfl {}).trans (if_pos (by decide))
  have hrejected : templateChunks (template ++ "\n<?php\n\n" ++ generatedText ⟨[]⟩ {}).toList =
      .error ⟨some "<", 2⟩ := by decide +kernel
  rw [hglue] at hsource
  refine ⟨⟨_, by rw [Document.ofTemplate, hchunks]; rfl⟩, _, ⟨some "<", 2⟩, hsource, ?_⟩
  rw [Document.ofTemplate, hrejected]
  rfl

end SettingsFile

end SiteSettings
