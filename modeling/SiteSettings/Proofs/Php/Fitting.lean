import SiteSettings.Proofs.Php.Nesting

/-!
# The ways of the recogniser fit the place

A stack of the recogniser fits a place if every text it can go on with can be taken from there on
and is complete at its end.  Taking a terminal keeps that (`Stack.Fits.after`): what is left of a
rule behind a terminal is what is left of its right-hand side, and right-hand sides keep to what
their rules promise.  Combining stacks keeps it too.  So the ways of a reader always fit the place
that the terminals so far lead to; what the place rules out, no way can take
(`Ways.Fit.after?_eq_none`), and where a text can end, the place is final (`Ways.Fit.isFinal`).
-/

namespace SiteSettings
namespace Php

/-! ## Openings of literals -/

/-- Where the text of a literal begins. -/
def Quote.firstPlace : Quote → TextPlace
  | .heredoc => .opened .heredoc
  | .nowdoc => .opened .nowdoc
  | q => .inside q

namespace Form

/-- Whether every opening of a literal in the form has the text of the literal right behind it. -/
def opensText : Form → Bool
  | .empty => true
  | .token (.opening _) => false
  | .token _ => true
  | .rule _ => true
  | .seq (.token (.opening q)) rest => rest = .rule (.text q.firstPlace)
  | .seq first rest => first.opensText && rest.opensText
  | .alt one other => one.opensText && other.opensText
  | .many item => item.opensText

/-- What is left behind a terminal: forms of this kind, behind an opening the text of the
literal first. -/
def AreLeft (t : Terminal) (fs : List Form) : Prop :=
  (∀ f ∈ fs, f.opensText) ∧ ∀ q, t = .opening q → fs.head? = some (.rule (.text q.firstPlace))

theorem AreLeft.concat {t : Terminal} {fs : List Form} {f : Form} (h : AreLeft t fs)
    (hf : f.opensText) : AreLeft t (fs ++ [f]) := by
  refine ⟨fun g hg => ?_, fun q hq => ?_⟩
  · rcases List.mem_append.mp hg with hg | hg
    · exact h.1 g hg
    · rw [List.mem_singleton.mp hg]
      exact hf
  · rw [List.head?_append, h.2 q hq]
    rfl

theorem areLeft_of_mem_after {ruleAfter : Rule → List (List Form)} {t : Terminal}
    (hrule : ∀ r, ∀ fs ∈ ruleAfter r, AreLeft t fs) {f : Form} {fs : List Form}
    (hf : f.opensText) (hfs : fs ∈ f.after ruleAfter t) : AreLeft t fs := by
  fun_induction opensText f generalizing fs with
  | case1 => cases hfs
  | case2 => cases hf
  | case3 u hu =>
    by_cases hut : u = t
    · simp only [Form.after, hut, if_true, List.mem_singleton] at hfs
      subst hut hfs
      exact ⟨fun _ hg => absurd hg (List.not_mem_nil), fun q hq => absurd hq (hu q)⟩
    · simp [Form.after, hut] at hfs
  | case4 r => exact hrule r fs hfs
  | case5 q rest =>
    by_cases hqt : Terminal.opening q = t
    · simp only [Form.after, hqt, if_true, List.map_cons, List.nil_append, List.map_nil, nullable,
        Bool.false_eq_true, if_false, List.append_nil, List.mem_singleton] at hfs
      have hrest := of_decide_eq_true hf
      subst hqt hfs hrest
      refine ⟨by simp [opensText], fun q' hq' => ?_⟩
      cases hq'
      rfl
    · simp [Form.after, hqt, nullable] at hfs
  | case6 first rest _ ihfirst ihrest =>
    obtain ⟨hfirst, hrest⟩ := Bool.and_eq_true_iff.mp hf
    simp only [Form.after, List.mem_append, List.mem_map] at hfs
    rcases hfs with ⟨gs, hgs, rfl⟩ | hfs
    · exact (ihfirst hfirst hgs).concat hrest
    · by_cases hnull : first.nullable
      · exact ihrest hrest (by simpa [hnull] using hfs)
      · simp [hnull] at hfs
  | case7 one other ihone ihother =>
    obtain ⟨hone, hother⟩ := Bool.and_eq_true_iff.mp hf
    rcases List.mem_append.mp hfs with hfs | hfs
    · exact ihone hone hfs
    · exact ihother hother hfs
  | case8 item ih =>
    simp only [Form.after, List.mem_map] at hfs
    obtain ⟨gs, hgs, rfl⟩ := hfs
    exact (ih hf hgs).concat (by rwa [opensText])

end Form

namespace Rule

theorem opensText_body (r : Rule) : r.body.opensText = true := by
  cases r with
  | text place => rcases place with q | q | q | q | q <;> cases q <;> decide +kernel
  | _ => decide +kernel

theorem areLeft_of_mem_after {t : Terminal} {depth : Nat} {r : Rule} {fs : List Form}
    (hfs : fs ∈ Rule.after t depth r) : Form.AreLeft t fs := by
  induction depth generalizing r fs with
  | zero => cases hfs
  | succ depth ih => exact Form.areLeft_of_mem_after (fun _ _ h => ih h) r.opensText_body hfs

end Rule

/-! ## Stacks -/

theorem Rule.leads_after {t : Terminal} {p : Place} (hp : p.inner = false) :
    ∀ {depth : Nat} {r : Rule} {Q : Place → Prop} {fs : List Form}, fs ∈ Rule.after t depth r →
      (Form.rule r).Leads Q p → ∃ q, p.after? t = some q ∧ Form.LeadAll fs Q q
  | 0, _, _, _, hfs, _ => nomatch hfs
  | _ + 1, _, _, _, hfs, h => Form.Leads.after (Rule.leads_after hp) hfs (Rule.body_leads hp h)

namespace Stack

mutual

/-- Every text that the stack can go on with can be taken from the place on, and is
complete at its end. -/
def Fits (p : Place) : Stack → Prop
  | .done => p.isFinal
  | .over f below => f.opensText ∧ f.Leads (fun q => AllFit q below) p
termination_by structural s => s

def AllFit (p : Place) : List Stack → Prop
  | [] => True
  | s :: rest => s.Fits p ∧ AllFit p rest
termination_by structural choices => choices

end

theorem allFit_iff {choices : List Stack} {p : Place} :
    AllFit p choices ↔ ∀ s ∈ choices, s.Fits p := by
  induction choices with
  | nil => simp [AllFit]
  | cons s rest ih => simp [AllFit, ih]

theorem allFit_pushAll {below : List Stack} :
    ∀ {fs : List Form} {p : Place}, (∀ f ∈ fs, f.opensText) →
      Form.LeadAll fs (fun q => AllFit q below) p → AllFit p (pushAll fs below)
  | [], _, _, h => h
  | _ :: _, _, hfs, h => by
    obtain ⟨hf, hfs⟩ := List.forall_mem_cons.mp hfs
    exact ⟨⟨hf, Form.Leads.imp (fun _ => allFit_pushAll hfs) h⟩, trivial⟩

mutual

theorem Fits.after {t : Terminal} {p : Place} (hp : p.inner = false) {s' : Stack} :
    {s : Stack} → s.Fits p → s' ∈ Stack.after (Rule.after t ruleDepth) t s →
      ∃ q, p.after? t = some q ∧ s'.Fits q
  | .done, _, hs' => nomatch hs'
  | .over f below, h, hs' => by
    rw [Stack.after, List.mem_append, List.mem_flatMap] at hs'
    rcases hs' with ⟨fs, hfs, hs'⟩ | hs'
    · obtain ⟨q, hq, hlead⟩ := Form.Leads.after (Rule.leads_after hp) hfs h.2
      have hleft := Form.areLeft_of_mem_after (fun _ _ => Rule.areLeft_of_mem_after) h.1 hfs
      exact ⟨q, hq, allFit_iff.mp (allFit_pushAll hleft.1 hlead) s' hs'⟩
    · by_cases hnull : f.nullable
      · rw [if_pos hnull] at hs'
        exact AllFit.after hp (Form.Leads.of_nullable hnull h.2) hs'
      · simp [hnull] at hs'

theorem AllFit.after {t : Terminal} {p : Place} (hp : p.inner = false) {s' : Stack} :
    {choices : List Stack} → AllFit p choices →
      s' ∈ allAfter (Rule.after t ruleDepth) t choices → ∃ q, p.after? t = some q ∧ s'.Fits q
  | [], _, hs' => nomatch hs'
  | s :: rest, h, hs' => by
    rw [allAfter, List.mem_append] at hs'
    rcases hs' with hs' | hs'
    · exact Fits.after hp h.1 hs'
    · exact AllFit.after hp h.2 hs'

end

mutual

/-- Behind an opening the text of the literal is on top. -/
theorem Fits.top_of_opening {q : Quote} {p : Place} {s' : Stack} :
    {s : Stack} → s.Fits p → s' ∈ Stack.after (Rule.after (.opening q) ruleDepth) (.opening q) s →
      ∃ below, s' = .over (.rule (.text q.firstPlace)) below
  | .done, _, hs' => nomatch hs'
  | .over f below, h, hs' => by
    rw [Stack.after, List.mem_append, List.mem_flatMap] at hs'
    rcases hs' with ⟨fs, hfs, hs'⟩ | hs'
    · have hleft := Form.areLeft_of_mem_after (fun _ _ => Rule.areLeft_of_mem_after) h.1 hfs
      cases fs with
      | nil => nomatch hleft.2 q rfl
      | cons g fs =>
        obtain rfl : g = .rule (.text q.firstPlace) := Option.some.inj (hleft.2 q rfl)
        exact ⟨_, List.mem_singleton.mp hs'⟩
    · by_cases hnull : f.nullable
      · rw [if_pos hnull] at hs'
        exact AllFit.top_of_opening (Form.Leads.of_nullable hnull h.2) hs'
      · simp [hnull] at hs'

theorem AllFit.top_of_opening {q : Quote} {p : Place} {s' : Stack} :
    {choices : List Stack} → AllFit p choices →
      s' ∈ allAfter (Rule.after (.opening q) ruleDepth) (.opening q) choices →
      ∃ below, s' = .over (.rule (.text q.firstPlace)) below
  | [], _, hs' => nomatch hs'
  | s :: rest, h, hs' => by
    rw [allAfter, List.mem_append] at hs'
    rcases hs' with hs' | hs'
    · exact Fits.top_of_opening h.1 hs'
    · exact AllFit.top_of_opening h.2 hs'

end

mutual

theorem Fits.isFinal {p : Place} : {s : Stack} → s.Fits p → s.canEnd → p.isFinal
  | .done, h, _ => h
  | .over f below, h, hend => by
    rw [canEnd, Bool.and_eq_true] at hend
    exact AllFit.isFinal (Form.Leads.of_nullable hend.1 h.2) hend.2

theorem AllFit.isFinal {p : Place} :
    {choices : List Stack} → AllFit p choices → anyCanEnd choices → p.isFinal
  | [], _, hend => nomatch hend
  | s :: rest, h, hend => by
    rw [anyCanEnd, Bool.or_eq_true] at hend
    rcases hend with hend | hend
    · exact Fits.isFinal h.1 hend
    · exact AllFit.isFinal h.2 hend

end

theorem allFit_foldl_addNew {p : Place} {below others : List Stack} (h : AllFit p below)
    (h' : AllFit p others) : AllFit p (below.foldl addNew others) := by
  induction below generalizing others with
  | nil => exact h'
  | cons s rest ih =>
    refine ih h.2 ?_
    unfold addNew
    split
    · exact h'
    · rw [allFit_iff] at h' ⊢
      simp only [List.mem_append, List.mem_singleton]
      rintro s' (hs' | rfl)
      · exact h' s' hs'
      · exact h.1

theorem allFit_add {p : Place} {s : Stack} (hs : s.Fits p) :
    ∀ {choices : List Stack}, AllFit p choices → AllFit p (add s choices)
  | [], _ => ⟨hs, trivial⟩
  | t :: rest, h => by
    have hrest := allFit_add hs h.2
    unfold add
    split
    · exact h
    · split
      · next f below g others hfg =>
        subst hfg
        refine ⟨⟨hs.1, ?_⟩, h.2⟩
        exact (Form.Leads.and hs.2 h.1.2).imp fun q hq => allFit_foldl_addNew hq.1 hq.2
      · exact ⟨h.1, hrest⟩
    · exact ⟨h.1, hrest⟩

theorem allFit_gather {p : Place} {choices : List Stack} (h : AllFit p choices) :
    AllFit p (gather choices) := by
  have hfold : ∀ gathered, AllFit p gathered →
      AllFit p (choices.foldl (fun gathered s => add s gathered) gathered) := by
    induction choices with
    | nil => exact fun _ hg => hg
    | cons s rest ih => exact fun _ hg => ih h.2 _ (allFit_add h.1 hg)
  exact hfold [] trivial

/-- Stacks of one top form are combined into one. -/
theorem gather_of_top {f : Form} {choices : List Stack} (hne : choices ≠ [])
    (h : ∀ s ∈ choices, ∃ below, s = .over f below) :
    ∃ below, gather choices = [.over f below] := by
  have hfold : ∀ rest : List Stack, (∀ s ∈ rest, ∃ below, s = .over f below) → ∀ below,
      ∃ below', rest.foldl (fun gathered s => add s gathered) [.over f below] =
        [.over f below'] := by
    intro rest
    induction rest with
    | nil => exact fun _ below => ⟨below, rfl⟩
    | cons s rest ih =>
      intro h below
      obtain ⟨⟨others, rfl⟩, hrest⟩ := List.forall_mem_cons.mp h
      rw [List.foldl_cons, add, if_pos rfl]
      exact ih hrest _
  cases choices with
  | nil => exact absurd rfl hne
  | cons s rest =>
    obtain ⟨⟨below, rfl⟩, hrest⟩ := List.forall_mem_cons.mp h
    exact hfold rest hrest below

end Stack

namespace Ways

/-- All the ways in which the text can go on suit the place. -/
def Fit (ways : Ways) (p : Place) : Prop :=
  p.inner = false ∧ Stack.AllFit p ways.choices

theorem Fit.after {ways ways' : Ways} {p : Place} {t : Terminal} (h : ways.Fit p)
    (hafter : ways.after? t = some ways') : ∃ q, p.after? t = some q ∧ ways'.Fit q := by
  unfold Ways.after? at hafter
  split at hafter
  · nomatch hafter
  · next hsome =>
    cases hafter
    generalize hleft : Stack.allAfter (Rule.after t ruleDepth) t ways.choices = left at hsome
    have hfits : ∀ s ∈ left, ∃ q, p.after? t = some q ∧ s.Fits q := by
      rw [← hleft]
      exact fun s hs => Stack.AllFit.after h.1 h.2 hs
    cases left with
    | nil => exact absurd rfl hsome
    | cons s rest =>
      obtain ⟨q, hq, -⟩ := hfits s List.mem_cons_self
      refine ⟨q, hq, (Place.inner_after? hq).trans h.1, Stack.allFit_gather ?_⟩
      rw [Stack.allFit_iff]
      intro s' hs'
      obtain ⟨q', hq', hfit⟩ := hfits s' hs'
      rw [hq] at hq'
      cases hq'
      exact hfit

/-- Behind an opening the text of the literal follows in every way. -/
theorem Fit.choices_of_opening {ways ways' : Ways} {p : Place} {q : Quote} (h : ways.Fit p)
    (hafter : ways.after? (.opening q) = some ways') :
    ∃ below, ways'.choices = [.over (.rule (.text q.firstPlace)) below] := by
  unfold Ways.after? at hafter
  split at hafter
  · nomatch hafter
  · next hsome =>
    cases hafter
    refine Stack.gather_of_top (fun hnone => hsome ?_) fun s hs => h.2.top_of_opening hs
    rw [hnone]
    rfl

/-- A terminal that the place rules out is taken in none of the ways. -/
theorem Fit.after?_eq_none {ways : Ways} {p : Place} {t : Terminal} (h : ways.Fit p)
    (ht : p.after? t = none) : ways.after? t = none := by
  cases hafter : ways.after? t with
  | none => rfl
  | some ways' =>
    obtain ⟨q, hq, -⟩ := h.after hafter
    rw [ht] at hq
    nomatch hq

theorem Fit.isFinal {ways : Ways} {p : Place} (h : ways.Fit p) (hend : ways.canEnd) : p.isFinal :=
  h.2.isFinal hend

/-- Text of a literal follows in a literal only. -/
theorem Fit.of_textPlace? {ways : Ways} {p : Place} {place : TextPlace} (h : ways.Fit p)
    (hplace : ways.textPlace? = some place) :
    p.frames.head? = some (.literal place.quote) ∧ Rule.isBehindOperand p = true := by
  unfold Ways.textPlace? at hplace
  split at hplace
  · next place' below others hchoices =>
    have hfit := h.2
    rw [hchoices] at hfit
    have hbegin : (Rule.text place').mayBegin p = true := hfit.1.2.1
    simp only [Rule.mayBegin, Bool.and_eq_true, decide_eq_true_eq] at hbegin
    cases hplace
    exact hbegin
  · cases hplace

theorem finished_fit : finished.Fit ⟨.ended, [], false⟩ :=
  ⟨rfl, rfl, trivial⟩

theorem statement_fit : (ofForm (.rule .statement)).Fit Place.start := by
  refine ⟨rfl, ⟨rfl, rfl, fun q hq => ⟨?_, trivial⟩⟩, trivial⟩
  simp only [Rule.leaves, Rule.endings, List.map_cons, List.map_nil, List.mem_cons,
    List.not_mem_nil, or_false] at hq
  rcases hq with rfl | rfl | rfl <;> rfl

end Ways
/-! ## The last terminal of a complete text -/

/-- Whether a text can be complete behind a terminal. -/
def Last.canFinish (last : Last) : Bool :=
  last = .ended || last = .brace || last = .colon

/-- Whether a text can be complete behind what does this. -/
def Kind.canFinish : Kind → Bool
  | .semicolon => true
  | .colon => true
  | .leave _ last => last.canFinish
  | .become last => last.canFinish
  | _ => false

theorem Terminal.of_canFinish {t : Terminal} (h : t.kind.canFinish = true) :
    t ∈ [.mark ";", .mark "\x7d", .mark ":", .endTag] := by
  cases t with
  | mark m =>
    by_cases hm : m ∈ [";", "\x7d", ":"]
    · simp only [List.mem_cons, List.not_mem_nil, or_false] at hm
      rcases hm with rfl | rfl | rfl <;> simp
    · simp only [List.mem_cons, List.not_mem_nil, or_false, not_or] at hm
      obtain ⟨h₁, h₂, h₃⟩ := hm
      simp only [Terminal.kind, markKind, h₁, h₂, h₃, if_false] at h
      repeat' split at h
      all_goals exact absurd h (by decide)
  | word w =>
    simp only [Terminal.kind, wordKind] at h
    repeat' split at h
    all_goals exact absurd h (by decide)
  | lowerWord w =>
    simp only [Terminal.kind] at h
    split at h <;> exact absurd h (by decide)
  | endTag => simp
  | _ => exact absurd h Bool.false_ne_true

theorem Place.last_leave? {p q : Place} {closes : Frame → Option Last}
    (h : p.leave? closes = some q) :
    ∃ f, closes f = some q.last := by
  unfold Place.leave? at h
  split at h
  · nomatch h
  · rename_i f frames _
    obtain ⟨last, hlast, rfl⟩ := Option.map_eq_some_iff.mp h
    exact ⟨f, hlast⟩

theorem Place.canFinish_of_isFinal {p q : Place} {t : Terminal} (h : p.after? t = some q)
    (hq : q.isFinal = true) : t.kind.canFinish = true := by
  have hlast : q.last.canFinish = true := by
    simp only [Place.isFinal, Bool.and_eq_true] at hq
    exact hq.2
  unfold Place.after? at h
  split at h
  case isFalse => nomatch h
  case isTrue =>
    cases hk : t.kind with
    | semicolon => rfl
    | colon => rfl
    | leave f last =>
      rw [hk] at h
      obtain ⟨g, hg⟩ := Place.last_leave? h
      split at hg
      · cases hg; exact hlast
      · nomatch hg
    | become last =>
      rw [hk] at h
      cases h
      exact hlast
    | closeParen =>
      rw [hk] at h
      obtain ⟨g, hg⟩ := Place.last_leave? h
      split at hg
      · rw [← Option.some.inj hg] at hlast
        exact absurd hlast Bool.false_ne_true
      · rw [← Option.some.inj hg] at hlast
        exact absurd hlast Bool.false_ne_true
      · nomatch hg
    | unknown =>
      rw [hk] at h
      nomatch h
    | _ =>
      rw [hk] at h
      simp only [Place.afterKind?] at h
      try split at h
      all_goals first
        | (rw [← Option.some.inj h] at hlast; exact absurd hlast Bool.false_ne_true)
        | cases h

end Php
end SiteSettings
