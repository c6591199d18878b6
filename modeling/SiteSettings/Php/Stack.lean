import SiteSettings.Php.Grammar

/-!
# Recognition from left to right

A recogniser reads terminals one after another and keeps every way in which the text so far can
still be continued.  A way is a stack of forms that are to follow, the next one on top.  Taking a
terminal replaces the top form by what is left of it, and drops forms that derive the empty text; a
way that cannot take the terminal is given up.  So the first terminal that leaves no way at all is
exactly the first one at which no valid text continues.

Many ways differ only near the top, so they share what lies below: a `Stack` is a form over several
stacks.  `gather` keeps at most one stack for each top form, which keeps their number small however
deep the nesting.  Comparing what lies below starts with a look at whether it is the same object,
and then costs nothing.
-/

namespace SiteSettings
namespace Php

/-- A set of ways to go on: none but the end, or one form above any of several stacks. -/
inductive Stack
  | done
  | over (form : Form) (below : List Stack)

namespace Stack

/-! ## Equality -/

mutual

/-- Decides equality of stacks. -/
def decEq : (a b : Stack) → Decidable (a = b)
  | .done, .done => .isTrue rfl
  | .done, .over _ _ => .isFalse (by simp)
  | .over _ _, .done => .isFalse (by simp)
  | .over f as, .over g bs =>
    if h : f = g then
      match decEqAll as bs with
      | .isTrue h' => .isTrue (by rw [h, h'])
      | .isFalse h' => .isFalse (by simp [h'])
    else .isFalse (by simp [h])
termination_by structural a => a

/-- Decides equality of lists of stacks; a stack is equal to itself at a glance. -/
def decEqAll : (as bs : List Stack) → Decidable (as = bs)
  | [], [] => .isTrue rfl
  | [], _ :: _ => .isFalse (by simp)
  | _ :: _, [] => .isFalse (by simp)
  | a :: as, b :: bs =>
    match withPtrEqDecEq a b (fun _ => decEq a b) with
    | .isTrue h =>
      match decEqAll as bs with
      | .isTrue h' => .isTrue (by rw [h, h'])
      | .isFalse h' => .isFalse (by simp [h'])
    | .isFalse h => .isFalse (by simp [h])
termination_by structural as => as

end

instance : DecidableEq Stack := fun a b => withPtrEqDecEq a b (fun _ => decEq a b)

/-! ## Taking a terminal -/

/-- Adds a stack to a list unless it is there. -/
def addNew (choices : List Stack) (s : Stack) : List Stack :=
  if s ∈ choices then choices else choices ++ [s]

/-- Adds a stack to a list that holds each top form at most once. -/
def add (s : Stack) : List Stack → List Stack
  | [] => [s]
  | t :: rest =>
    match s, t with
    | .done, .done => t :: rest
    | .over f below, .over g others =>
      if f = g then .over g (below.foldl addNew others) :: rest else t :: add s rest
    | _, _ => t :: add s rest

/-- The stacks with those of one top form combined. -/
def gather (choices : List Stack) : List Stack :=
  choices.foldl (fun gathered s => add s gathered) []

/-- Forms, the first one on top, above some stacks. -/
def pushAll : List Form → List Stack → List Stack
  | [], below => below
  | f :: forms, below => [.over f (pushAll forms below)]

mutual

/-- The stacks left after a terminal, given what is left of a rule after it. -/
def after (ruleAfter : Rule → List (List Form)) (t : Terminal) : Stack → List Stack
  | .done => []
  | .over f below =>
    (f.after ruleAfter t).flatMap (pushAll · below) ++
      if f.nullable then allAfter ruleAfter t below else []
termination_by structural s => s

def allAfter (ruleAfter : Rule → List (List Form)) (t : Terminal) : List Stack → List Stack
  | [] => []
  | s :: rest => after ruleAfter t s ++ allAfter ruleAfter t rest
termination_by structural choices => choices

end

mutual

/-- Whether nothing need follow. -/
def canEnd : Stack → Bool
  | .done => true
  | .over f below => f.nullable && anyCanEnd below
termination_by structural s => s

def anyCanEnd : List Stack → Bool
  | [] => false
  | s :: rest => s.canEnd || anyCanEnd rest
termination_by structural choices => choices

end

end Stack

/-! ## Rules -/

/-- No rule's first terminal lies deeper than this many rules. -/
def ruleDepth : Nat := 32

/-- What is left of a rule after a terminal, looking at most `depth` rules deep. -/
def Rule.after (t : Terminal) : Nat → Rule → List (List Form)
  | 0, _ => []
  | depth + 1, r => r.body.after (Rule.after t depth) t

/-- Every way to continue, at a place in a text. -/
structure Ways where
  choices : List Stack

namespace Ways

/-- The ways in which a text of the form can begin. -/
def ofForm (f : Form) : Ways := ⟨[.over f [.done]]⟩

/-- Nothing at all may follow. -/
def finished : Ways := ⟨[.done]⟩

/-- The ways left after a terminal, if there are any. -/
def after? (ways : Ways) (t : Terminal) : Option Ways :=
  match Stack.gather (Stack.allAfter (Rule.after t ruleDepth) t ways.choices) with
  | [] => none
  | choices => some ⟨choices⟩

/-- Whether the text may end here. -/
def canEnd (ways : Ways) : Bool := Stack.anyCanEnd ways.choices

/-- Where in a literal the next part is to be looked for; `none` in code. -/
def textPlace? (ways : Ways) : Option TextPlace :=
  match ways.choices with
  | .over (.rule (.text place)) _ :: _ => some place
  | _ => none

end Ways
end Php
end SiteSettings
