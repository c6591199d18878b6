import SiteSettings.Php.Stack

/-!
# What the terminals so far say about the next one

The recogniser keeps every way in which a template can go on, and the ways can differ a good deal: a
bracket may begin an array or a pattern, a name may be a label or a constant.  In some things they
all agree, because the terminals alone decide them: which brackets, blocks and literals are open,
and what the last terminal was.  A `Place` holds just that.

A place may rule a terminal out (`Place.after?`).  Then no way can take it.  The facts obtained so
are those that template text and generated text can be kept apart by.  Behind a complete statement
nothing goes on with `if`; a complete statement ends in a semicolon, a brace, a colon or a closing
tag; behind a dollar sign no word is a keyword; no two operators that look like the start of a
comment or of a literal follow each other.

Every rule states where it may begin (`Rule.mayBegin`) and where it can lead (`Rule.leaves`).  That
the right-hand sides of the grammar keep to this is checked rule by rule (`Rule.body_leads`), by
going through them with all the places at once (`Form.trace?`); from there on the argument is about
forms in general.
-/

namespace SiteSettings
namespace Php

/-! ## Places -/

/-- Something that is open. -/
inductive Frame
  | paren
  /-- The parenthesis behind a keyword; `opens` says whether a colon behind it opens a block. -/
  | header (opens : Bool)
  | bracket
  | brace
  /-- A block that a colon opens and a keyword closes. -/
  | block
  | literal (q : Quote)
deriving DecidableEq

/-- The last terminal, as far as it matters for the next one. -/
inductive Last
  /-- A statement is to follow, or a colon; `opens` says whether the colon opens a block. -/
  | ready (opens : Bool)
  /-- A keyword that a parenthesis follows. -/
  | header (opens : Bool)
  | dollar
  | visibility
  /-- A slash or an angle bracket to the left, single or double. -/
  | operator
  /-- A semicolon, or the closing tag in its place. -/
  | ended
  | brace
  | colon
  | other
deriving DecidableEq

/-- A place between two terminals. -/
structure Place where
  last : Last
  /-- What is open, the innermost first. -/
  frames : List Frame
  /-- Whether more is open around that. -/
  inner : Bool
deriving DecidableEq

/-- What a terminal does at a place. -/
inductive Kind
  | openParen
  | tightParen
  | closeParen
  | enter (f : Frame)
  | leave (f : Frame) (last : Last)
  | colon
  | semicolon
  | dollar
  | name
  /-- A slash or an angle bracket to the left, single or double. -/
  | operator
  /-- The marks that such an operator would make a comment or an opening of a literal with. -/
  | clashing
  | ifWord
  | become (last : Last)
  /-- A word that no rule knows. -/
  | unknown
deriving DecidableEq

/-- Names in generated code that look like keywords to the lexer, in lower case. -/
def generatedNames : List String :=
  ["file_exists", "getenv", "inf", "nan", "php_int_min"]

/-- The words that are keywords in lower case only. -/
def lowerWords : List String :=
  ["parent", "self", "ticks", "encoding", "strict_types", "unset", "string", "int", "array",
    "iterable", "bool", "float", "void", "mixed", "false", "null", "true"]

def markKind (m : String) : Kind :=
  if m = "(" then .openParen
  else if m = ")" then .closeParen
  else if m = "[" ∨ m = "#[" then .enter .bracket
  else if m = "]" then .leave .bracket .other
  else if m = "\x7b" then .enter .brace
  else if m = "\x7d" then .leave .brace .brace
  else if m = ":" then .colon
  else if m = ";" then .semicolon
  else if m = "$" then .dollar
  else if m ∈ ["/", "<<", "<"] then .operator
  else if m ∈ ["*", "**", "*=", "**=", "<=", "<=>", "<>", "<<="] then .clashing
  else .become .other

def wordKind (w : String) : Kind :=
  if w = "if" then .ifWord
  else if w ∈ ["while", "for", "foreach", "switch", "declare"] then .become (.header true)
  else if w = "elseif" then .become (.header false)
  else if w ∈ ["else", "do"] then .become (.ready false)
  else if w ∈ ["endif", "endwhile", "endfor", "endforeach", "endswitch", "enddeclare"] then
    .leave .block .other
  else if w ∈ ["public", "protected", "private"] then .become .visibility
  else if w ∈ generatedNames then .unknown
  else .become .other

def Terminal.kind : Terminal → Kind
  | .word w => wordKind w
  | .lowerWord w => if w ∈ lowerWords then .become .other else .unknown
  | .mark m => markKind m
  | .tightParen => .tightParen
  | .name => .name
  | .opening q => .enter (.literal q)
  | .closing q => .leave (.literal q) .other
  | .endTag => .semicolon
  | .integer => .become .other
  | .float => .become .other
  | .content => .become .other
  | .lineEnd => .become .other

namespace Place

/-- Whether nothing is open. -/
def isOutermost (p : Place) : Bool :=
  p.frames.isEmpty && !p.inner

def become (p : Place) (last : Last) : Place :=
  { p with last }

def enter (p : Place) (f : Frame) : Place :=
  { p with last := .other, frames := f :: p.frames }

/-- The place behind what closes the innermost frame; `closes` says where that leads. -/
def leave? (p : Place) (closes : Frame → Option Last) : Option Place :=
  match p.frames with
  | [] => none
  | f :: frames => (closes f).map fun last => { p with last, frames }

/-- The place behind a terminal, where nothing speaks against it but perhaps the last terminal. -/
def afterKind? (p : Place) : Kind → Option Place
  | .openParen =>
    match p.last with
    | .header opens => some (p.enter (.header opens))
    | _ => some (p.enter .paren)
  | .tightParen => if p.last = .visibility then some (p.enter .paren) else none
  | .closeParen => p.leave? fun
    | .paren => some .other
    | .header opens => some (.ready opens)
    | _ => none
  | .enter f => some (p.enter f)
  | .leave f last => p.leave? fun g => if g = f then some last else none
  | .colon =>
    if p.last = .ready true then some ((p.enter .block).become .colon) else some (p.become .colon)
  | .semicolon => some (p.become .ended)
  | .dollar =>
    if p.isOutermost ∧ (p.last = .ended ∨ p.last = .brace) then none else some (p.become .dollar)
  | .name => some (p.become .other)
  | .operator => if p.last = .operator then none else some (p.become .operator)
  | .clashing => if p.last = .operator then none else some (p.become .other)
  | .ifWord =>
    if p.isOutermost ∧ p.last ≠ .ready true ∧ p.last ≠ .ready false then none
    else some (p.become (.header true))
  | .become last => some (p.become last)
  | .unknown => none

/-- Whether the last terminal leaves room for the next. -/
def admits (last : Last) (k : Kind) : Bool :=
  match last with
  | .dollar => k = .name ∨ k = .dollar ∨ k = .enter .brace
  | .header _ => k = .openParen
  | _ => true

/-- The place behind a terminal; `none` if none of the grammar's texts goes on with it. -/
def after? (p : Place) (t : Terminal) : Option Place :=
  if admits p.last t.kind then p.afterKind? t.kind else none

/-- Whether a text can be complete here. -/
def isFinal (p : Place) : Bool :=
  p.isOutermost && (p.last = .ended || p.last = .brace || p.last = .colon)

/-- Before the first terminal. -/
def start : Place := ⟨.ready false, [], false⟩

/-- What is open inside further frames. -/
def within (p : Place) (frames : List Frame) : Place :=
  ⟨p.last, p.frames ++ frames, false⟩

end Place

/-! ## Rules -/

/-- The literal that a place of text belongs to. -/
def TextPlace.quote : TextPlace → Quote
  | .opened q => q
  | .inside q => q
  | .lineStart q => q
  | .afterVariable q => q
  | .afterAccess q => q

namespace Rule

open Place

/-- Whether most rules may begin here. -/
def isOpenPlace (p : Place) : Bool :=
  match p.last with
  | .dollar => false
  | .header _ => false
  | .ended => !p.isOutermost
  | .brace => !p.isOutermost
  | _ => true

/-- Whether a rule for what follows an operand or a name may begin here. -/
def isBehindOperand (p : Place) : Bool :=
  p.last = .other || p.last = .brace

/-- Whether a rule may begin at a place. -/
def mayBegin (r : Rule) (p : Place) : Bool :=
  match r with
  | .text place => p.frames.head? = some (.literal place.quote) && isBehindOperand p
  | .switchCase | .classMember => isOpenPlace p && !p.isOutermost
  | .statement | .ifStatement | .declaration | .block | .constantDeclaration | .useDeclaration =>
    p.last = .ready true || p.last = .ready false || (isOpenPlace p && !p.isOutermost) ||
      (r = .block && p.last = .other)
  | .semi => p.last = .ready true || p.last = .visibility || isBehindOperand p
  | .parenthesized => p.last = .header true || p.last = .header false || isOpenPlace p
  | .simpleVariable => p.last = .dollar || isOpenPlace p
  | .arguments | .assignableRest | .assignmentTail | .classTest | .elementAccess
  | .operandAfterValue | .operandAfterVariable | .operatorTail | .primaryAfterValue
  | .primaryAfterVariable | .scopeAccess | .propertyHooks | .returnType => isBehindOperand p
  | _ => isOpenPlace p

/-- What the last terminal of a rule can be. -/
def endings : Rule → List Last
  | .semi | .constantDeclaration | .useDeclaration | .traitAdaptation => [.ended]
  | .block | .classBody | .enumBody | .propertyHooks => [.brace]
  | .declaration | .classMember | .traitUse => [.ended, .brace]
  | .statement | .ifStatement | .switchCase => [.ended, .brace, .colon]
  | .visibility | .modifier => [.other, .visibility]
  | .qualifiedName | .namespaceName | .variableName | .reservedName | .arguments | .castMark
  | .parameters | .type | .simpleType | .returnType | .attributes | .extendsClause
  | .implementsClause => [.other]
  | _ => [.other, .brace]

/-- The places a rule can lead to. -/
def leaves (r : Rule) (p : Place) : List Place :=
  match r, p.last with
  | .text _, _ => [{ p with last := .other, frames := p.frames.tail }]
  | .parenthesized, .header opens => [p.become (.ready opens)]
  | r, _ => r.endings.map p.become

end Rule

/-! ## What a form leads to -/

namespace Form

/-- Every text of the form can be taken from the place on, and leads to a place with
the property. -/
def Leads : Form → (Place → Prop) → Place → Prop
  | .empty, Q, p => Q p
  | .token t, Q, p => ∃ q, p.after? t = some q ∧ Q q
  | .rule r, Q, p => r.mayBegin p ∧ ∀ q ∈ r.leaves p, Q q
  | .seq first rest, Q, p => first.Leads (rest.Leads Q) p
  | .alt one other, Q, p => one.Leads Q p ∧ other.Leads Q p
  | .many item, Q, p => ∃ I : Place → Prop, I p ∧ ∀ q, I q → Q q ∧ item.Leads I q

/-- The same for forms one after another. -/
def LeadAll : List Form → (Place → Prop) → Place → Prop
  | [], Q, p => Q p
  | f :: fs, Q, p => f.Leads (LeadAll fs Q) p

theorem Leads.imp {Q R : Place → Prop} (h : ∀ p, Q p → R p) :
    ∀ {f : Form} {p : Place}, f.Leads Q p → f.Leads R p
  | .empty, p, hf => h p hf
  | .token _, _, ⟨q, hq, hQ⟩ => ⟨q, hq, h q hQ⟩
  | .rule _, _, ⟨hbegin, hleaves⟩ => ⟨hbegin, fun q hq => h q (hleaves q hq)⟩
  | .seq _ _, _, hf => Leads.imp (fun _ hrest => Leads.imp h hrest) hf
  | .alt _ _, _, ⟨hone, hother⟩ => ⟨hone.imp h, hother.imp h⟩
  | .many _, _, ⟨I, hp, hI⟩ => ⟨I, hp, fun q hq => ⟨h q (hI q hq).1, (hI q hq).2⟩⟩

theorem LeadAll.imp {Q R : Place → Prop} (h : ∀ p, Q p → R p) :
    ∀ {fs : List Form} {p : Place}, LeadAll fs Q p → LeadAll fs R p
  | [], p, hQ => h p hQ
  | _ :: _, _, hf => Leads.imp (fun _ hfs => LeadAll.imp h hfs) hf

theorem leadAll_append (fs gs : List Form) (Q : Place → Prop) (p : Place) :
    LeadAll (fs ++ gs) Q p ↔ LeadAll fs (LeadAll gs Q) p := by
  induction fs generalizing p with
  | nil => rfl
  | cons f fs ih =>
    constructor
    · exact fun h => Leads.imp (fun q hq => (ih q).mp hq) h
    · exact fun h => Leads.imp (fun q hq => (ih q).mpr hq) h

/-- The empty text leads nowhere else. -/
theorem Leads.of_nullable {Q : Place → Prop} :
    ∀ {f : Form} {p : Place}, f.nullable = true → f.Leads Q p → Q p
  | .empty, _, _, h => h
  | .token _, _, hnull, _ => nomatch hnull
  | .rule _, _, hnull, _ => nomatch hnull
  | .seq _ _, _, hnull, h => by
    simp only [nullable, Bool.and_eq_true] at hnull
    exact Leads.of_nullable hnull.2 (Leads.of_nullable hnull.1 h)
  | .alt _ _, _, hnull, ⟨hone, hother⟩ => by
    simp only [nullable, Bool.or_eq_true] at hnull
    rcases hnull with hnull | hnull
    · exact hone.of_nullable hnull
    · exact hother.of_nullable hnull
  | .many _, _, _, ⟨_, hp, hI⟩ => (hI _ hp).1

theorem Leads.and {Q R : Place → Prop} :
    ∀ {f : Form} {p : Place}, f.Leads Q p → f.Leads R p → f.Leads (fun q => Q q ∧ R q) p
  | .empty, _, hQ, hR => ⟨hQ, hR⟩
  | .token _, _, ⟨q, hq, hQ⟩, ⟨q', hq', hR⟩ => by
    rw [hq] at hq'
    cases hq'
    exact ⟨q, hq, hQ, hR⟩
  | .rule _, _, ⟨hbegin, hQ⟩, ⟨_, hR⟩ => ⟨hbegin, fun q hq => ⟨hQ q hq, hR q hq⟩⟩
  | .seq first rest, _, hQ, hR => by
    have hboth := Leads.and (f := first) hQ hR
    exact hboth.imp fun _ h => Leads.and h.1 h.2
  | .alt _ _, _, ⟨hone, hother⟩, ⟨hone', hother'⟩ => ⟨hone.and hone', hother.and hother'⟩
  | .many _, _, ⟨I, hp, hI⟩, ⟨J, hp', hJ⟩ =>
    ⟨fun q => I q ∧ J q, ⟨hp, hp'⟩, fun q hq =>
      ⟨⟨(hI q hq.1).1, (hJ q hq.2).1⟩, (hI q hq.1).2.and (hJ q hq.2).2⟩⟩

/-- What is left of a form behind a terminal leads on from behind the terminal. -/
theorem Leads.after {ruleAfter : Rule → List (List Form)} {t : Terminal} {p : Place}
    (hrule : ∀ {r : Rule} {Q : Place → Prop} {fs : List Form}, fs ∈ ruleAfter r →
      (Form.rule r).Leads Q p → ∃ q, p.after? t = some q ∧ LeadAll fs Q q) :
    ∀ {f : Form} {Q : Place → Prop} {fs : List Form}, fs ∈ f.after ruleAfter t →
      f.Leads Q p → ∃ q, p.after? t = some q ∧ LeadAll fs Q q
  | .empty, _, _, hfs, _ => nomatch hfs
  | .token u, Q, fs, hfs, ⟨q, hq, hQ⟩ => by
    by_cases hu : u = t
    · simp only [Form.after, hu, if_true, List.mem_singleton] at hfs
      subst hu hfs
      exact ⟨q, hq, hQ⟩
    · simp [Form.after, hu] at hfs
  | .rule _, _, _, hfs, h => hrule hfs h
  | .seq first rest, Q, fs, hfs, h => by
    simp only [Form.after, List.mem_append, List.mem_map] at hfs
    rcases hfs with ⟨gs, hgs, rfl⟩ | hfs
    · obtain ⟨q, hq, hlead⟩ := Leads.after hrule hgs h
      exact ⟨q, hq, (leadAll_append gs [rest] Q q).mpr hlead⟩
    · by_cases hnull : first.nullable
      · rw [if_pos hnull] at hfs
        exact Leads.after hrule hfs (Leads.of_nullable hnull h)
      · simp [hnull] at hfs
  | .alt _ _, _, _, hfs, ⟨hone, hother⟩ => by
    rcases List.mem_append.mp hfs with hfs | hfs
    · exact Leads.after hrule hfs hone
    · exact Leads.after hrule hfs hother
  | .many item, Q, fs, hfs, ⟨I, hp, hI⟩ => by
    simp only [Form.after, List.mem_map] at hfs
    obtain ⟨gs, hgs, rfl⟩ := hfs
    obtain ⟨q, hq, hlead⟩ := Leads.after hrule hgs (hI p hp).2
    -- behind one item the form is where it was: the invariant holds again
    exact ⟨q, hq, (leadAll_append gs [.many item] Q q).mpr
      (hlead.imp fun q' hq' => (⟨I, hq', hI⟩ : (Form.many item).Leads Q q'))⟩

end Form

/-! ## Checking the rules -/

namespace Place

/-- What `p` says about further frames is true of these. -/
def Suits (p : Place) (frames : List Frame) : Prop :=
  p.inner = !frames.isEmpty

variable {p q : Place} {frames : List Frame}

theorem isOutermost_within (h : p.Suits frames) :
    (p.within frames).isOutermost = p.isOutermost := by
  unfold Suits at h
  cases hp : p.frames <;> simp [isOutermost, within, hp, h]

theorem leave?_within {closes : Frame → Option Last} (hp : p.Suits frames)
    (h : p.leave? closes = some q) :
    (p.within frames).leave? closes = some (q.within frames) ∧ q.Suits frames := by
  unfold leave? at h ⊢
  cases hf : p.frames with
  | nil => simp [hf] at h
  | cons f rest =>
    simp only [hf, Option.map_eq_some_iff] at h
    obtain ⟨last, hlast, rfl⟩ := h
    exact ⟨by simp [within, hf, hlast], hp⟩

theorem afterKind?_within {k : Kind} (hp : p.Suits frames) (h : p.afterKind? k = some q) :
    (p.within frames).afterKind? k = some (q.within frames) ∧ q.Suits frames := by
  have hlast : (p.within frames).last = p.last := rfl
  have hout := isOutermost_within hp
  cases k with
  | closeParen => exact leave?_within hp h
  | leave f last => exact leave?_within hp h
  | openParen =>
    simp only [afterKind?, hlast] at h ⊢
    split at h <;> cases h <;> exact ⟨rfl, hp⟩
  | unknown => nomatch h
  | enter f => cases h; exact ⟨rfl, hp⟩
  | semicolon => cases h; exact ⟨rfl, hp⟩
  | name => cases h; exact ⟨rfl, hp⟩
  | become last => cases h; exact ⟨rfl, hp⟩
  | _ =>
    simp only [afterKind?, hlast, hout] at h ⊢
    split at h <;> cases h <;> refine ⟨?_, hp⟩ <;> simp_all <;> rfl

theorem after?_within {t : Terminal} (hp : p.Suits frames) (h : p.after? t = some q) :
    (p.within frames).after? t = some (q.within frames) ∧ q.Suits frames := by
  unfold after? at h ⊢
  rw [show (p.within frames).last = p.last from rfl]
  by_cases hadm : admits p.last t.kind
  · rw [if_pos hadm] at h ⊢
    exact afterKind?_within hp h
  · simp [hadm] at h

theorem inner_after? {t : Terminal} (h : p.after? t = some q) : q.inner = p.inner := by
  -- frames to suit `p` exist, whatever `p` says
  obtain ⟨frames, hframes⟩ : ∃ frames : List Frame, p.Suits frames := by
    cases hp : p.inner
    · exact ⟨[], hp⟩
    · exact ⟨[.paren], hp⟩
  exact (after?_within hframes h).2.trans hframes.symm

theorem mayBegin_within {r : Rule} (hp : p.Suits frames) (h : r.mayBegin p) :
    r.mayBegin (p.within frames) := by
  have hlast : (p.within frames).last = p.last := rfl
  have hout := isOutermost_within hp
  cases r with
  | text place =>
    simp only [Rule.mayBegin, Rule.isBehindOperand, hlast, Bool.and_eq_true,
      decide_eq_true_eq] at h ⊢
    exact ⟨by simp [within, h.1], h.2⟩
  | _ =>
    simpa only [Rule.mayBegin, Rule.isBehindOperand, Rule.isOpenPlace, hlast, hout] using h

theorem leaves_within {r : Rule} (h : r.mayBegin p) :
    r.leaves (p.within frames) = (r.leaves p).map (·.within frames) := by
  cases r with
  | text place =>
    cases hf : p.frames with
    | nil => simp [Rule.mayBegin, hf] at h
    | cons f rest => simp [Rule.leaves, within, hf]
  | _ =>
    simp only [Rule.leaves, show (p.within frames).last = p.last from rfl]
    first | rfl | (split <;> first | rfl | contradiction)

theorem suits_of_mem_leaves {r : Rule} (hp : p.Suits frames) (hq : q ∈ r.leaves p) :
    q.Suits frames := by
  unfold Rule.leaves at hq
  split at hq
  · simp only [List.mem_singleton] at hq
    subst hq
    exact hp
  · simp only [List.mem_singleton] at hq
    subst hq
    exact hp
  · obtain ⟨last, -, rfl⟩ := List.mem_map.mp hq
    exact hp

end Place

namespace Form

open Place

/-- The places that a form can lead to from any of some places; `none` if it may not
begin at one. -/
def trace? : Form → List Place → Option (List Place)
  | .empty, ps => some ps
  | .token t, ps =>
    if ps.all fun p => (p.after? t).isSome then some (ps.filterMap (·.after? t)).eraseDups else none
  | .rule r, ps => if ps.all r.mayBegin then some (ps.flatMap r.leaves).eraseDups else none
  | .seq first rest, ps => (first.trace? ps).bind rest.trace?
  | .alt one other, ps => do
    let qs ← one.trace? ps
    let qs' ← other.trace? ps
    some (qs ++ qs').eraseDups
  | .many item, ps => do
    let once ← item.trace? ps
    let places := (ps ++ once).eraseDups
    let again ← item.trace? places
    if again.all (· ∈ places) then some places else none

/-- The places a trace finds are those that the form can lead to, whatever is open further out. -/
theorem leads_of_trace {frames : List Frame} :
    ∀ {f : Form} {Q : Place → Prop} {ps qs : List Place}, f.trace? ps = some qs →
      (∀ p ∈ ps, p.Suits frames) →
      (∀ q ∈ qs, q.Suits frames) ∧
        ((∀ q ∈ qs, Q (q.within frames)) → ∀ p ∈ ps, f.Leads Q (p.within frames))
  | .empty, Q, ps, qs, h, hps => by
    cases h
    exact ⟨hps, fun hQ => hQ⟩
  | .token t, Q, ps, qs, h, hps => by
    simp only [trace?, List.all_eq_true, Option.isSome_iff_exists, Option.ite_none_right_eq_some,
      Option.some.injEq] at h
    obtain ⟨hafter, rfl⟩ := h
    simp only [List.mem_eraseDups, List.mem_filterMap]
    refine ⟨?_, fun hQ p hp => ?_⟩
    · rintro q ⟨p, hp, hq⟩
      exact (after?_within (hps p hp) hq).2
    · obtain ⟨q, hq⟩ := hafter p hp
      exact ⟨q.within frames, (after?_within (hps p hp) hq).1, hQ q ⟨p, hp, hq⟩⟩
  | .rule r, Q, ps, qs, h, hps => by
    simp only [trace?, List.all_eq_true, Option.ite_none_right_eq_some, Option.some.injEq] at h
    obtain ⟨hbegin, rfl⟩ := h
    simp only [List.mem_eraseDups, List.mem_flatMap]
    refine ⟨?_, fun hQ p hp => ⟨mayBegin_within (hps p hp) (hbegin p hp), ?_⟩⟩
    · rintro q ⟨p, hp, hq⟩
      exact suits_of_mem_leaves (hps p hp) hq
    · intro q hq
      rw [leaves_within (hbegin p hp)] at hq
      obtain ⟨q', hq', rfl⟩ := List.mem_map.mp hq
      exact hQ q' ⟨p, hp, hq'⟩
  | .seq first rest, Q, ps, qs, h, hps => by
    obtain ⟨mid, hfirst, hrest⟩ := Option.bind_eq_some_iff.mp h
    obtain ⟨hmid, hlead⟩ := leads_of_trace (Q := rest.Leads Q) hfirst hps
    obtain ⟨hqs, hlead'⟩ := leads_of_trace (Q := Q) hrest hmid
    exact ⟨hqs, fun hQ => hlead (hlead' hQ)⟩
  | .alt one other, Q, ps, qs, h, hps => by
    simp only [trace?, Option.bind_eq_bind, Option.bind_eq_some_iff, Option.some.injEq] at h
    obtain ⟨ones, hone, others, hother, rfl⟩ := h
    obtain ⟨hones, hlead⟩ := leads_of_trace (Q := Q) hone hps
    obtain ⟨hothers, hlead'⟩ := leads_of_trace (Q := Q) hother hps
    simp only [List.mem_eraseDups, List.mem_append]
    refine ⟨?_, fun hQ p hp => ⟨?_, ?_⟩⟩
    · rintro q (hq | hq)
      · exact hones q hq
      · exact hothers q hq
    · exact hlead (fun q hq => hQ q (.inl hq)) p hp
    · exact hlead' (fun q hq => hQ q (.inr hq)) p hp
  | .many item, Q, ps, qs, h, hps => by
    simp only [trace?, Option.bind_eq_bind, Option.bind_eq_some_iff, List.all_eq_true,
      decide_eq_true_eq, Option.ite_none_right_eq_some, Option.some.injEq] at h
    obtain ⟨once, honce, again, hagain, hclosed, rfl⟩ := h
    have hmem : ∀ p, p ∈ (ps ++ once).eraseDups ↔ p ∈ ps ∨ p ∈ once := by simp
    have hplaces : ∀ p ∈ (ps ++ once).eraseDups, p.Suits frames := by
      intro p hp
      rcases (hmem p).mp hp with hp | hp
      · exact hps p hp
      · exact (leads_of_trace (Q := Q) honce hps).1 p hp
    refine ⟨hplaces, fun hQ p hp => ?_⟩
    -- the invariant of the repetition: the place is one of those found
    let I : Place → Prop := fun p' => ∃ q ∈ (ps ++ once).eraseDups, p' = q.within frames
    have hstep : ∀ q ∈ (ps ++ once).eraseDups, item.Leads I (q.within frames) :=
      (leads_of_trace hagain hplaces).2 fun q hq => ⟨q, hclosed q hq, rfl⟩
    refine ⟨I, ⟨p, (hmem p).mpr (.inl hp), rfl⟩, ?_⟩
    rintro _ ⟨q, hq, rfl⟩
    exact ⟨hQ q hq, hstep q hq⟩

end Form

/-- Everything that the last terminal can be. -/
def Last.all : List Last :=
  [.ready true, .ready false, .header true, .header false, .dollar, .visibility, .operator, .ended,
    .brace, .colon, .other]

theorem Last.mem_all (last : Last) : last ∈ Last.all := by
  rcases last with opens | opens | _ | _ | _ | _ | _ | _ | _ <;>
    first | decide | (cases opens <;> decide)

namespace Rule

open Place

/-- The frames that a rule closes without having opened them. -/
def held : Rule → List Frame
  | .text place => [.literal place.quote]
  | _ => []

/-- The places where a rule may begin. -/
def entries (r : Rule) (inner : Bool) : List Place :=
  (Last.all.map fun last => ⟨last, r.held, inner⟩).filter r.mayBegin

/-- These places, apart where the rule does not lead to the same places from all of them. -/
def entryGroups (r : Rule) (inner : Bool) : List (List Place) :=
  match r with
  | .parenthesized => (r.entries inner).map ([·])
  | _ => [r.entries inner]

/-- Whether the rule's right-hand side can be taken from the places on, and leads where
the rule does. -/
def bodyFits (r : Rule) (ps : List Place) : Bool :=
  match r.body.trace? ps with
  | some qs => qs.all fun q => ps.all fun p => q ∈ r.leaves p
  | none => false

theorem body_fits (r : Rule) :
    [false, true].all (fun inner => (r.entryGroups inner).all r.bodyFits) = true := by
  cases r with
  | text place => rcases place with q | q | q | q | q <;> cases q <;> decide +kernel
  | _ => decide +kernel

theorem exists_entryGroup {r : Rule} {p : Place} (hframes : p.frames = r.held) (h : r.mayBegin p) :
    ∃ ps ∈ r.entryGroups p.inner, p ∈ ps ∧ ∀ q ∈ ps, q.inner = p.inner := by
  have hmem : p ∈ r.entries p.inner := by
    refine List.mem_filter.mpr ⟨List.mem_map.mpr ⟨p.last, p.last.mem_all, ?_⟩, h⟩
    rw [← hframes]
  have hinner : ∀ q ∈ r.entries p.inner, q.inner = p.inner := by
    intro q hq
    obtain ⟨last, -, rfl⟩ := List.mem_map.mp (List.mem_filter.mp hq).1
    rfl
  unfold entryGroups
  split
  · exact ⟨[p], List.mem_map.mpr ⟨p, hmem, rfl⟩, List.mem_singleton.mpr rfl, by simp⟩
  · exact ⟨_, List.mem_singleton.mpr rfl, hmem, hinner⟩

/-- The place where a rule begins, apart from the frames further out. -/
theorem exists_entry {r : Rule} {p : Place} (hp : p.inner = false) (h : r.mayBegin p) :
    ∃ entry frames, p = entry.within frames ∧ entry.Suits frames ∧ entry.frames = r.held ∧
      r.mayBegin entry := by
  obtain ⟨last, frames, inner⟩ := p
  cases hp
  cases r with
  | text place =>
    cases frames with
    | nil => simp [mayBegin] at h
    | cons f frames =>
      simp only [mayBegin, List.head?_cons, Option.some.injEq, Bool.and_eq_true,
        decide_eq_true_eq] at h
      obtain ⟨rfl, h⟩ := h
      refine ⟨⟨last, [.literal place.quote], !frames.isEmpty⟩, frames, rfl, rfl, rfl, ?_⟩
      simpa [mayBegin, isBehindOperand] using h
  | _ =>
    refine ⟨⟨last, [], !frames.isEmpty⟩, frames, rfl, rfl, rfl, ?_⟩
    simpa [mayBegin, isOpenPlace, isBehindOperand, isOutermost] using h

/-- What a rule promises, its right-hand side keeps. -/
theorem body_leads {r : Rule} {Q : Place → Prop} {p : Place} (hp : p.inner = false)
    (h : (Form.rule r).Leads Q p) : r.body.Leads Q p := by
  obtain ⟨hbegin, hleaves⟩ := h
  obtain ⟨entry, frames, rfl, hsuits, hheld, hentry⟩ := exists_entry hp hbegin
  obtain ⟨ps, hps, hmem, hinner⟩ := exists_entryGroup hheld hentry
  have hfits : r.bodyFits ps = true := by
    have hall := List.all_eq_true.mp r.body_fits entry.inner (by cases entry.inner <;> decide)
    exact List.all_eq_true.mp hall ps hps
  unfold bodyFits at hfits
  split at hfits
  case h_2 => nomatch hfits
  case h_1 qs htrace =>
    have hps' : ∀ q ∈ ps, q.Suits frames := fun q hq => (hinner q hq).trans hsuits
    refine (Form.leads_of_trace htrace hps').2 (fun q hq => ?_) entry hmem
    refine hleaves _ ?_
    rw [leaves_within hentry]
    have hq' : q ∈ r.leaves entry := by
      have h := List.all_eq_true.mp (List.all_eq_true.mp hfits q hq) entry hmem
      exact decide_eq_true_eq.mp h
    exact List.mem_map_of_mem hq'

end Rule

end Php
end SiteSettings
