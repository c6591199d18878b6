import SiteSettings.Php.Stack

/-!
# What a form derives

`Form.Derives` is the usual reading of the grammar: which lists of terminals a form derives, however
that may be found out.  `Form.after` takes one terminal from the front of a form, and the forms that
it leaves derive exactly what may follow the terminal (`derives_of_mem_after`, `exists_mem_after`).

Rules are looked into only so deep.  That this is deep enough needs an order: `Form.heads` are the
rules that a form can begin with, and every rule begins with rules of a smaller `Rule.rank` only.
-/

namespace SiteSettings
namespace Php

/-! ## Derivation -/

namespace Form

/-- Whether a form derives a list of terminals. -/
inductive Derives : Form → List Terminal → Prop
  | empty : Derives .empty []
  | token (t : Terminal) : Derives (.token t) [t]
  | rule {r : Rule} {ts : List Terminal} (h : Derives r.body ts) : Derives (.rule r) ts
  | seq {first rest : Form} {ts us : List Terminal} (hfirst : Derives first ts)
      (hrest : Derives rest us) : Derives (.seq first rest) (ts ++ us)
  | altOne {one other : Form} {ts : List Terminal} (h : Derives one ts) :
    Derives (.alt one other) ts
  | altOther {one other : Form} {ts : List Terminal} (h : Derives other ts) :
      Derives (.alt one other) ts
  | manyNil (item : Form) : Derives (.many item) []
  | manyCons {item : Form} {ts us : List Terminal} (hitem : Derives item ts)
      (hrest : Derives (.many item) us) : Derives (.many item) (ts ++ us)

/-- Whether forms one after another derive a list of terminals. -/
inductive DeriveAll : List Form → List Terminal → Prop
  | nil : DeriveAll [] []
  | cons {form : Form} {forms : List Form} {ts us : List Terminal} (h : form.Derives ts)
      (hrest : DeriveAll forms us) : DeriveAll (form :: forms) (ts ++ us)

theorem Derives.of_rule {r : Rule} {ts : List Terminal} : Derives (.rule r) ts → r.body.Derives ts
  | .rule h => h

theorem Derives.of_seq {first rest : Form} {ts : List Terminal} : Derives (.seq first rest) ts →
    ∃ front back, ts = front ++ back ∧ first.Derives front ∧ rest.Derives back
  | .seq hfirst hrest => ⟨_, _, rfl, hfirst, hrest⟩

theorem Derives.of_alt {one other : Form} {ts : List Terminal} : Derives (.alt one other) ts →
    one.Derives ts ∨ other.Derives ts
  | .altOne h => .inl h
  | .altOther h => .inr h

theorem deriveAll_singleton {form : Form} {ts : List Terminal} :
    DeriveAll [form] ts ↔ form.Derives ts := by
  constructor
  · rintro (_ | ⟨h, _ | _⟩)
    rwa [List.append_nil]
  · intro h
    rw [← List.append_nil ts]
    exact .cons h .nil

theorem deriveAll_append {forms others : List Form} {ts : List Terminal} :
    DeriveAll (forms ++ others) ts ↔
      ∃ front back, ts = front ++ back ∧ DeriveAll forms front ∧ DeriveAll others back := by
  induction forms generalizing ts with
  | nil =>
    constructor
    · exact fun h => ⟨[], ts, rfl, .nil, h⟩
    · rintro ⟨_, back, rfl, ⟨⟩, h⟩
      exact h
  | cons form forms ih =>
    constructor
    · rintro (_ | ⟨h, hrest⟩)
      obtain ⟨front, back, rfl, hfront, hback⟩ := ih.mp hrest
      exact ⟨_, back, (List.append_assoc ..).symm, .cons h hfront, hback⟩
    · rintro ⟨_, back, rfl, (_ | ⟨h, hrest⟩), hback⟩
      rw [List.append_assoc]
      exact .cons h (ih.mpr ⟨_, back, rfl, hrest, hback⟩)

end Form

/-! ## The empty list -/

theorem Rule.nullable_body (r : Rule) : r.body.nullable = false := by
  cases r with
  | text place => cases place with
    | _ q => cases q <;> rfl
  | _ => rfl

namespace Form

theorem derives_nil_of_nullable {f : Form} (h : f.nullable) : f.Derives [] := by
  induction f with
  | empty => exact .empty
  | token t => cases h
  | rule r => cases h
  | seq first rest ihFirst ihRest =>
    obtain ⟨hfirst, hrest⟩ := Bool.and_eq_true_iff.mp h
    exact .seq (ihFirst hfirst) (ihRest hrest)
  | alt one other ihOne ihOther =>
    rcases Bool.or_eq_true_iff.mp h with h | h
    · exact .altOne (ihOne h)
    · exact .altOther (ihOther h)
  | many item => exact .manyNil item

theorem Derives.nullable_of_eq_nil {f : Form} {ts : List Terminal} (h : f.Derives ts)
    (hts : ts = []) :
    f.nullable := by
  induction h with
  | empty => rfl
  | token t => cases hts
  | @rule r ts h ih =>
    have hbody := ih hts
    rw [Rule.nullable_body r] at hbody
    cases hbody
  | seq _ _ ihFirst ihRest =>
    obtain ⟨hfront, hback⟩ := List.append_eq_nil_iff.mp hts
    exact Bool.and_eq_true_iff.mpr ⟨ihFirst hfront, ihRest hback⟩
  | altOne _ ih => exact Bool.or_eq_true_iff.mpr (.inl (ih hts))
  | altOther _ ih => exact Bool.or_eq_true_iff.mpr (.inr (ih hts))
  | manyNil item => rfl
  | manyCons => rfl

theorem nullable_iff {f : Form} : f.nullable ↔ f.Derives [] :=
  ⟨derives_nil_of_nullable, fun h => h.nullable_of_eq_nil rfl⟩

/-! ## After a terminal -/

variable {t : Terminal} {us : List Terminal} {ruleAfter : Rule → List (List Form)}

/-- What is left of a form derives nothing but what may follow the terminal. -/
theorem derives_of_mem_after
    (hrule : ∀ r, ∀ forms ∈ ruleAfter r, ∀ us, DeriveAll forms us → Derives (.rule r) (t :: us))
    {f : Form} {forms : List Form} (hmem : forms ∈ f.after ruleAfter t) {us : List Terminal}
    (h : DeriveAll forms us) : f.Derives (t :: us) := by
  induction f generalizing forms us with
  | empty => cases hmem
  | token u =>
    rw [after] at hmem
    split at hmem
    · rename_i hu
      obtain rfl := List.mem_singleton.mp hmem
      cases h
      exact hu ▸ .token u
    · cases hmem
  | rule r => exact hrule r forms hmem us h
  | seq first rest ihFirst ihRest =>
    rcases List.mem_append.mp hmem with hmem | hmem
    · obtain ⟨left, hleft, rfl⟩ := List.mem_map.mp hmem
      obtain ⟨front, back, rfl, hfront, hback⟩ := deriveAll_append.mp h
      exact .seq (ihFirst hleft hfront) (deriveAll_singleton.mp hback)
    · split at hmem
      · rename_i hnullable
        have hrest := ihRest hmem h
        exact .seq (derives_nil_of_nullable hnullable) hrest
      · cases hmem
  | alt one other ihOne ihOther =>
    rcases List.mem_append.mp hmem with hmem | hmem
    · exact .altOne (ihOne hmem h)
    · exact .altOther (ihOther hmem h)
  | many item ih =>
    obtain ⟨left, hleft, rfl⟩ := List.mem_map.mp hmem
    obtain ⟨front, back, rfl, hfront, hback⟩ := deriveAll_append.mp h
    exact .manyCons (ih hleft hfront) (deriveAll_singleton.mp hback)

/-- The rules that a form can begin with. -/
def heads : Form → List Rule
  | .empty => []
  | .token _ => []
  | .rule r => [r]
  | .seq first rest => first.heads ++ if first.nullable then rest.heads else []
  | .alt one other => one.heads ++ other.heads
  | .many item => item.heads

/-- A repetition that derives a terminal begins with an item that does. -/
theorem Derives.of_many {item : Form} {ts : List Terminal} (h : Derives (.many item) ts)
    (hts : ts = t :: us) :
    ∃ front back, us = front ++ back ∧ item.Derives (t :: front) ∧ Derives (.many item) back := by
  generalize hform : Form.many item = form at h
  induction h with
  | manyNil => cases hts
  | @manyCons item' front back hitem hrest ihItem ihRest =>
    obtain rfl := Form.many.inj hform
    cases front with
    | nil => exact ihRest hts rfl
    | cons u front =>
      obtain ⟨rfl, rfl⟩ := List.cons.inj hts
      exact ⟨front, back, rfl, hitem, hrest⟩
  | _ => cases hform

/-- All that may follow the terminal is derived by what is left of the form. -/
theorem exists_mem_after {f : Form}
    (hrule : ∀ r ∈ f.heads, ∀ us, Derives (.rule r) (t :: us) →
      ∃ forms ∈ ruleAfter r, DeriveAll forms us)
    {us : List Terminal} (h : f.Derives (t :: us)) :
    ∃ forms ∈ f.after ruleAfter t, DeriveAll forms us := by
  induction f generalizing us with
  | empty => cases h
  | token u =>
    cases h
    exact ⟨[], by simp [after], .nil⟩
  | rule r => exact hrule r (List.mem_singleton_self r) us h
  | seq first rest ihFirst ihRest =>
    obtain ⟨front, back, hsplit, hfirst, hrest⟩ := h.of_seq
    cases front with
    | nil =>
      obtain rfl : t :: us = back := hsplit
      have hnullable : first.nullable := nullable_iff.mpr hfirst
      have hheads : ∀ r ∈ rest.heads, r ∈ (Form.seq first rest).heads := by
        intro r hr
        rw [heads, if_pos hnullable]
        exact List.mem_append_right _ hr
      obtain ⟨forms, hforms, hall⟩ := ihRest (fun r hr => hrule r (hheads r hr)) hrest
      refine ⟨forms, ?_, hall⟩
      rw [after, if_pos hnullable]
      exact List.mem_append_right _ hforms
    | cons u front =>
      obtain ⟨rfl, rfl⟩ := List.cons.inj hsplit
      obtain ⟨forms, hforms, hall⟩ :=
        ihFirst (fun r hr => hrule r (List.mem_append_left _ hr)) hfirst
      exact ⟨forms ++ [rest], List.mem_append_left _ (List.mem_map_of_mem hforms),
        deriveAll_append.mpr ⟨front, back, rfl, hall, deriveAll_singleton.mpr hrest⟩⟩
  | alt one other ihOne ihOther =>
    rcases h.of_alt with h | h
    · obtain ⟨forms, hforms, hall⟩ := ihOne (fun r hr => hrule r (List.mem_append_left _ hr)) h
      exact ⟨forms, List.mem_append_left _ hforms, hall⟩
    · obtain ⟨forms, hforms, hall⟩ := ihOther (fun r hr => hrule r (List.mem_append_right _ hr)) h
      exact ⟨forms, List.mem_append_right _ hforms, hall⟩
  | many item ih =>
    obtain ⟨front, back, rfl, hitem, hrest⟩ := h.of_many rfl
    obtain ⟨forms, hforms, hall⟩ := ih hrule hitem
    exact ⟨forms ++ [.many item], List.mem_map_of_mem hforms,
      deriveAll_append.mpr ⟨front, back, rfl, hall, deriveAll_singleton.mpr hrest⟩⟩

end Form

/-! ## Rules after a terminal -/

namespace Rule

open Form

variable {t : Terminal} {us : List Terminal} {depth : Nat} {r : Rule}

/-- How many rules deep the first terminals of a rule lie, at most. -/
def rank : Rule → Nat
  | argument | arrayItem | matchArm | statement | foreachTarget => 5
  | expr => 4
  | operand | primary | castOperand | parameter | classMember | declaration => 3
  | atom | castPrimary | assignable | assignableRest | operandAfterVariable | operandAfterValue => 2
  | primaryAfterVariable | primaryAfterValue | classReference | anonymousClass | type => 2
  | constantDeclaration => 2
  | member | elementAccess | variableStart | valueStart | newVariable | closure | arrowFunction => 1
  | simpleType | modifier | traitAdaptation => 1
  | _ => 0

/-- A rule begins with rules of a smaller rank only. -/
theorem rank_lt_of_mem_heads (r : Rule) : ∀ first ∈ r.body.heads, first.rank < r.rank := by
  cases r with
  | text place => cases place with
    | _ q => cases q <;> decide
  | _ => decide

theorem rank_lt_ruleDepth (r : Rule) : r.rank < ruleDepth := by
  cases r with
  | text place => exact Nat.succ_pos 31
  | _ => decide

theorem derives_of_mem_after {forms : List Form} (hmem : forms ∈ Rule.after t depth r)
    (h : DeriveAll forms us) : Derives (.rule r) (t :: us) := by
  induction depth generalizing r forms us with
  | zero => cases hmem
  | succ depth ih =>
    exact .rule (Form.derives_of_mem_after (fun r forms hforms us h => ih hforms h) hmem h)

theorem exists_mem_after (hdepth : r.rank < depth) (h : Derives (.rule r) (t :: us)) :
    ∃ forms ∈ Rule.after t depth r, DeriveAll forms us := by
  induction depth generalizing r us with
  | zero => cases hdepth
  | succ depth ih =>
    refine Form.exists_mem_after (fun first hfirst us hderives => ?_) h.of_rule
    have hrank := rank_lt_of_mem_heads r first hfirst
    exact ih (by omega) hderives

end Rule

namespace Form

/-- **Taking a terminal is sound and complete**: what is left of a form derives exactly what may
follow the terminal. -/
theorem derives_cons_iff {f : Form} {t : Terminal} {us : List Terminal} :
    f.Derives (t :: us) ↔ ∃ forms ∈ f.after (Rule.after t ruleDepth) t, DeriveAll forms us := by
  constructor
  · exact exists_mem_after fun r _ us h => Rule.exists_mem_after (Rule.rank_lt_ruleDepth r) h
  · rintro ⟨forms, hforms, h⟩
    exact derives_of_mem_after
      (fun r forms hforms us h => Rule.derives_of_mem_after hforms h) hforms h

end Form
end Php
end SiteSettings
