import Mathlib.Data.List.Forall2

/-!
# Results of steps

A computation in steps has a result exactly if every step has one.
-/

namespace SiteSettings

variable {ε δ α β : Type}

theorem ok_bind (answer : α) (next : α → Except ε β) : (Except.ok answer >>= next) = next answer :=
  rfl

/-- Both steps succeed if the whole does. -/
theorem bind_eq_ok {first : Except ε α} {next : α → Except ε β} {answer : β} :
    first >>= next = .ok answer ↔ ∃ a, first = .ok a ∧ next a = .ok answer := by
  cases first with
  | error e => simp [bind, Except.bind]
  | ok a => simp [bind, Except.bind]

theorem mapError_eq_ok {result : Except ε α} {f : ε → δ} {answer : α} :
    result.mapError f = .ok answer ↔ result = .ok answer := by
  cases result with
  | error e => simp [Except.mapError]
  | ok a => simp [Except.mapError]

/-- A list has results if each of its items has one. -/
theorem forall₂_of_mapM {f : α → Except ε β} {items : List α} {results : List β}
    (h : items.mapM f = .ok results) :
    List.Forall₂ (fun item result => f item = .ok result) items results := by
  induction items generalizing results with
  | nil =>
    obtain rfl : [] = results := Except.ok.inj h
    exact .nil
  | cons item rest ih =>
    rw [List.mapM_cons] at h
    obtain ⟨result, hitem, h⟩ := bind_eq_ok.mp h
    obtain ⟨more, hrest, h⟩ := bind_eq_ok.mp h
    obtain rfl : result :: more = results := Except.ok.inj h
    exact .cons hitem (ih hrest)

theorem exists_ok_of_mapM {f : α → Except ε β} {items : List α} {results : List β}
    (h : items.mapM f = .ok results) {item : α} (hmem : item ∈ items) :
    ∃ result, f item = .ok result := by
  have hall := forall₂_of_mapM h
  clear h
  induction hall with
  | nil => cases hmem
  | cons hitem _ ih =>
    rcases List.mem_cons.mp hmem with rfl | hrest
    · exact ⟨_, hitem⟩
    · exact ih hrest

/-! ## Whether there is a result -/

@[simp] theorem isOk_mapError (result : Except ε α) (f : ε → δ) :
    (result.mapError f).isOk = result.isOk := by
  cases result <;> rfl

@[simp] theorem isOk_map (result : Except ε α) (f : α → β) : (result.map f).isOk = result.isOk := by
  cases result <;> rfl

/-- A last step that cannot fail makes no difference. -/
theorem isOk_bind_pure (result : Except ε α) (f : α → β) :
    (result >>= fun a => pure (f a)).isOk = result.isOk := by
  cases result <;> rfl

/-- If the success of a step depends on its item alone, a run over items succeeds exactly if all of
them allow it. -/
theorem isOk_foldlM_iff {σ : Type} {step : σ → α → Except ε σ} {P : α → Prop} {items : List α}
    (hstep : ∀ s, ∀ item ∈ items, (step s item).isOk ↔ P item) (s : σ) :
    (items.foldlM step s).isOk ↔ ∀ item ∈ items, P item := by
  induction items generalizing s with
  | nil => exact iff_of_true rfl fun _ h => nomatch h
  | cons item rest ih =>
    have hitem := hstep s item List.mem_cons_self
    rw [List.foldlM_cons, List.forall_mem_cons, ← hitem]
    cases hnext : step s item with
    | error e => exact iff_of_false (fun h => nomatch h) fun h => nomatch h.1
    | ok next =>
      rw [← ih (fun s item hmem => hstep s item (List.mem_cons_of_mem _ hmem)) next]
      exact (and_iff_right rfl).symm

/-! ## Failing at the first fault -/

/-- The answer, if none of the items is at fault; if not, the fault of the first one that is. -/
def answerUnless (fault? : α → Option ε) (items : List α) (answer : β) : Except ε β :=
  match items.findSome? fault? with
  | some error => .error error
  | none => .ok answer

section

variable {γ : Type} {fault? : α → Option ε} {item : α} {items more : List α}

@[simp] theorem answerUnless_nil (fault? : α → Option ε) (answer : β) :
    answerUnless fault? [] answer = .ok answer :=
  rfl

theorem answerUnless_cons_of_none (h : fault? item = none) (answer : β) :
    answerUnless fault? (item :: items) answer = answerUnless fault? items answer := by
  rw [answerUnless, List.findSome?_cons, h]
  rfl

theorem answerUnless_cons_of_some {error : ε} (h : fault? item = some error) (answer : β) :
    answerUnless fault? (item :: items) answer = .error error := by
  rw [answerUnless, List.findSome?_cons, h]

theorem answerUnless_map {answer : β} (f : β → γ) :
    (answerUnless fault? items answer).map f = answerUnless fault? items (f answer) := by
  rw [answerUnless, answerUnless]
  cases items.findSome? fault? with
  | none => rfl
  | some error => rfl

variable {answer : β} {next : β → Except ε γ} {result : γ}

/-- A step after another one comes to its own faults after those of the other. -/
theorem answerUnless_bind (h : next answer = answerUnless fault? more result) :
    answerUnless fault? items answer >>= next = answerUnless fault? (items ++ more) result := by
  rw [answerUnless, answerUnless, List.findSome?_append]
  cases items.findSome? fault? with
  | none => exact h
  | some error => rfl

theorem answerUnless_bind_of_ok (h : next answer = .ok result) :
    answerUnless fault? items answer >>= next = answerUnless fault? items result := by
  rw [← answerUnless_nil fault?] at h
  rw [answerUnless_bind h, List.append_nil]

/-- Over a list, the faults of all items count in order. -/
theorem answerUnless_mapM {δ : Type} {f : δ → Except ε β} {faults : δ → List α} {answer : δ → β}
    (hf : ∀ d, f d = answerUnless fault? (faults d) (answer d)) (ds : List δ) :
    ds.mapM f = answerUnless fault? (ds.flatMap faults) (ds.map answer) := by
  induction ds with
  | nil => rfl
  | cons d ds ih =>
    rw [List.mapM_cons, hf]
    apply answerUnless_bind
    rw [ih]
    exact answerUnless_bind_of_ok rfl

theorem answerUnless_eq_error_iff {error : ε} :
    answerUnless fault? items answer = .error error ↔ items.findSome? fault? = some error := by
  rw [answerUnless]
  cases items.findSome? fault? with
  | none => simp
  | some first => simp

theorem answerUnless_eq_ok_iff {result : β} :
    answerUnless fault? items answer = .ok result ↔
      (∀ item ∈ items, fault? item = none) ∧ answer = result := by
  rw [← List.findSome?_eq_none_iff, answerUnless]
  cases items.findSome? fault? with
  | none => simp
  | some first => simp

/-- It fails exactly if something is at fault. -/
theorem exists_answerUnless_eq_error_iff :
    (∃ error, answerUnless fault? items answer = .error error) ↔
      ∃ item ∈ items, (fault? item).isSome := by
  rw [← List.findSome?_isSome_iff, Option.isSome_iff_exists]
  exact exists_congr fun _ => answerUnless_eq_error_iff

end

end SiteSettings
