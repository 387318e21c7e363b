import Mathlib.Data.List.Basic

/-! # Validation with reasons

A check passes with a value or is refused with a reason.  The lemmas read a passed
check backwards: a passed sequence gives its passed parts, a
passed loop gives every passed iteration, and an invariant of the iterations is
one of the loop. -/

abbrev Check (α : Type) := Except String α

namespace Check

open List

variable {ε α β γ δ σ : Type}

/-- Refuse with a reason unless the condition holds. -/
def require (condition : Bool) (reason : ε) : Except ε Unit :=
  if condition then .ok () else .error reason

/-- The value of an option, refused with a reason when there is none. -/
def require? (value : Option α) (reason : ε) : Except ε α :=
  match value with
  | some a => .ok a
  | none => .error reason

/-- A check made under a condition only. -/
def guarded (condition : Bool) (check : Check Unit) : Check Unit :=
  if condition then check else .ok ()

/-- The check with a label in front of its reason. -/
def labelled (label : String) (check : Check α) : Check α := check.mapError (label ++ ·)

def passed : Check α → Bool
  | .ok _ => true
  | .error _ => false

theorem passed_iff {check : Check α} : passed check = true ↔ ∃ a, check = .ok a := by
  cases check <;> simp [passed]

theorem bind_eq_ok {check : Except ε α} {next : α → Except ε β} {result : β} :
    (check >>= next) = .ok result ↔ ∃ a, check = .ok a ∧ next a = .ok result := by
  cases check with
  | error reason => simp [bind, Except.bind]
  | ok a => simp [bind, Except.bind]

/-- Several steps of a sequence that passed, at once. -/
theorem ok_bind₂ {first : Except ε α} {second : α → Except ε β} {next : α → β → Except ε γ}
    {result : γ} (passes : (first >>= fun a => second a >>= next a) = .ok result) :
    ∃ a, first = .ok a ∧ ∃ b, second a = .ok b ∧ next a b = .ok result := by
  obtain ⟨a, head, passes⟩ := bind_eq_ok.mp passes
  exact ⟨a, head, bind_eq_ok.mp passes⟩

theorem ok_bind₃ {first : Except ε α} {second : α → Except ε β} {third : α → β → Except ε γ}
    {next : α → β → γ → Except ε δ} {result : δ}
    (passes : (first >>= fun a => second a >>= fun b => third a b >>= next a b) = .ok result) :
    ∃ a, first = .ok a ∧ ∃ b, second a = .ok b ∧ ∃ c, third a b = .ok c ∧
      next a b c = .ok result := by
  obtain ⟨a, head, passes⟩ := bind_eq_ok.mp passes
  exact ⟨a, head, ok_bind₂ passes⟩

theorem pure_eq_ok {a b : α} : (pure a : Except ε α) = .ok b ↔ a = b := by
  simp [pure, Except.pure]

theorem toOption_eq_some {check : Except ε α} {a : α} :
    check.toOption = some a ↔ check = .ok a := by
  cases check <;> simp [Except.toOption]

@[simp] theorem require_eq_ok {condition : Bool} {reason : ε} {u : Unit} :
    require condition reason = .ok u ↔ condition = true := by
  cases condition <;> simp [require]

@[simp] theorem require?_eq_ok {value : Option α} {reason : ε} {a : α} :
    require? value reason = .ok a ↔ value = some a := by
  cases value <;> simp [require?]

@[simp] theorem guarded_eq_ok {condition : Bool} {check : Check Unit} {u : Unit} :
    guarded condition check = .ok u ↔ (condition = true → check = .ok ()) := by
  cases condition <;> simp [guarded]

@[simp] theorem labelled_eq_ok {label : String} {check : Check α} {a : α} :
    labelled label check = .ok a ↔ check = .ok a := by
  cases check <;> simp [labelled, Except.mapError]

theorem forM_eq_ok {f : α → Check PUnit} {xs : List α} {u : PUnit} :
    forM xs f = .ok u ↔ ∀ x ∈ xs, f x = .ok ⟨⟩ := by
  induction xs with
  | nil => simp [pure, Except.pure]
  | cons x rest ih =>
    rw [forM_cons, bind_eq_ok, forall_mem_cons]
    constructor
    · rintro ⟨_, head, tail⟩
      exact ⟨head, ih.mp tail⟩
    · rintro ⟨head, tail⟩
      exact ⟨⟨⟩, head, ih.mpr tail⟩

variable {f : σ → α → Check σ}

theorem foldlM_cons_eq_ok {x : α} {rest : List α} {start final : σ} :
    (x :: rest).foldlM f start = .ok final ↔
      ∃ middle, f start x = .ok middle ∧ rest.foldlM f middle = .ok final := by
  rw [foldlM_cons, bind_eq_ok]

theorem foldlM_congr {f g : σ → α → Check σ} {xs : List α}
    (same : ∀ acc, ∀ x ∈ xs, f acc x = g acc x) (start : σ) : xs.foldlM f start = xs.foldlM g start := by
  induction xs generalizing start with
  | nil => rfl
  | cons x rest ih =>
    rw [foldlM_cons, foldlM_cons, same start x mem_cons_self]
    congr 1
    funext next
    exact ih (fun acc y member => same acc y (mem_cons_of_mem x member)) next

variable {xs : List α} {start final : σ}

theorem foldlM_append_eq_ok {ys : List α} :
    (xs ++ ys).foldlM f start = .ok final ↔
      ∃ middle, xs.foldlM f start = .ok middle ∧ ys.foldlM f middle = .ok final := by
  rw [foldlM_append, bind_eq_ok]

/-- An invariant that speaks of the elements visited so far. -/
theorem foldlM_scan (Inv : List α → σ → Prop)
    (passes : xs.foldlM f start = .ok final) (initial : Inv [] start) (step : ∀ pre x post acc next,
    xs = pre ++ x :: post → f acc x = .ok next → Inv pre acc → Inv (pre ++ [x]) next) : Inv xs
    final := by
  suffices scan : ∀ ys pre acc, xs = pre ++ ys → Inv pre acc → ys.foldlM f acc = .ok final →
      Inv xs final from scan xs [] start rfl initial passes
  intro ys
  induction ys with
  | nil =>
    intro pre acc split holds ends
    obtain rfl := pure_eq_ok.mp ends
    rwa [split, append_nil]
  | cons y rest ih =>
    intro pre acc split holds goes
    obtain ⟨middle, head, tail⟩ := foldlM_cons_eq_ok.mp goes
    exact ih (pre ++ [y]) middle (split.trans (append_cons pre y rest))
      (step pre y rest acc middle split head holds) tail

/-- An invariant of every passed iteration holds after a passed loop. -/
theorem foldlM_invariant (Inv : σ → Prop)
    (passes : xs.foldlM f start = .ok final) (initial : Inv start)
    (step : ∀ acc x next, x ∈ xs → f acc x = .ok next → Inv acc → Inv next) : Inv final :=
  foldlM_scan (fun _ => Inv) passes initial fun pre x _ acc next split =>
    step acc x next (split ▸ mem_append_right pre mem_cons_self)

/-- A passed loop visits every element in a passed iteration. -/
theorem foldlM_visits (passes : xs.foldlM f start = .ok final) {x : α} (member : x ∈ xs) :
    ∃ acc next, f acc x = .ok next := by
  refine foldlM_scan (fun pre _ => x ∈ pre → ∃ acc next, f acc x = .ok next) passes nofun ?_ member
  intro pre y _ acc next _ made earlier member
  rcases mem_append.mp member with old | new
  · exact earlier old
  · exact ⟨acc, next, mem_singleton.mp new ▸ made⟩

/-- What the iteration of one element establishes and every iteration keeps holds
after a passed loop. -/
theorem foldlM_establishes
    (Q : σ → Prop) (passes : xs.foldlM f start = .ok final) {x : α} (member : x ∈ xs)
    (establishes : ∀ acc next, f acc x = .ok next → Q next)
    (keeps : ∀ acc y next, f acc y = .ok next → Q acc → Q next) : Q final := by
  refine foldlM_scan (fun pre acc => x ∈ pre → Q acc) passes nofun ?_ member
  intro pre y _ acc next _ made earlier member
  rcases mem_append.mp member with old | new
  · exact keeps acc y next made (earlier old)
  · exact establishes acc next (mem_singleton.mp new ▸ made)

/-- A loop whose passed iterations another loop can follow, step by step along a
relation of the two states, is followed by it to its end. -/
theorem foldlM_simulates {τ : Type} {g : τ → α → Check τ} {start' : τ} (R : σ → τ → Prop)
    (passes : xs.foldlM f start = .ok final) (related : R start start')
    (step : ∀ acc x next acc', x ∈ xs → f acc x = .ok next → R acc acc' →
      ∃ next', g acc' x = .ok next' ∧ R next next') :
    ∃ final', xs.foldlM g start' = .ok final' ∧ R final final' := by
  refine foldlM_scan (fun pre acc => ∃ acc', pre.foldlM g start' = .ok acc' ∧ R acc acc') passes
    ⟨start', rfl, related⟩ ?_
  rintro pre x _ acc next split made ⟨acc', followed, related⟩
  obtain ⟨next', made', related⟩ := step acc x next acc'
    (split ▸ mem_append_right pre mem_cons_self) made related
  exact ⟨next', foldlM_append_eq_ok.mpr ⟨acc', followed, foldlM_cons_eq_ok.mpr ⟨next', made', rfl⟩⟩,
    related⟩

/-- A loop whose passed iterations another loop repeats. -/
theorem foldlM_repeats {f g : σ → α → Check σ} {xs : List α} {start final : σ} (passes : xs.foldlM f
    start = .ok final) (step : ∀ acc x next, x ∈ xs → f acc x = .ok next → g acc x = .ok next) :
    xs.foldlM g start = .ok final := by
  obtain ⟨final', repeated, rfl⟩ := foldlM_simulates (· = ·) passes rfl
    fun acc x next acc' member passed same => ⟨next, same ▸ step acc x next member passed, rfl⟩
  exact repeated

/-- A loop whose passed iterations update one component purely is, on that
component, the pure loop. -/
theorem foldlM_project {τ : Type} (project : σ → τ) (update : τ → α → τ)
    (passes : xs.foldlM f start = .ok final)
    (step : ∀ acc x next, x ∈ xs → f acc x = .ok next → project next = update (project acc) x) :
    project final = xs.foldl update (project start) := by
  refine foldlM_scan (fun pre acc => project acc = pre.foldl update (project start)) passes rfl ?_
  intro pre x _ acc next split made same
  rw [step acc x next (split ▸ mem_append_right pre mem_cons_self) made, foldl_append, same]
  rfl

/-- A loop passes when each of its iterations passes from every state. -/
theorem foldlM_passes (start : σ) (step : ∀ acc, ∀ x ∈ xs,
    ∃ next, f acc x = .ok next) : ∃ final, xs.foldlM f start = .ok final := by
  induction xs generalizing start with
  | nil => exact ⟨start, rfl⟩
  | cons x rest ih =>
    obtain ⟨middle, head⟩ := step start x mem_cons_self
    obtain ⟨final, tail⟩ := ih middle fun acc y member => step acc y (mem_cons_of_mem x member)
    exact ⟨final, foldlM_cons_eq_ok.mpr ⟨middle, head, tail⟩⟩

/-- When every iteration demands that its key was not seen, and remembers it, the
keys of a passed loop differ. -/
theorem foldlM_distinct {κ : Type} {f : σ → α → Check σ} {xs : List α} {start final : σ} (key : α →
    Option κ) (seen : σ → List κ) (passes : xs.foldlM f start = .ok final) (fresh : ∀ acc x next k,
    f acc x = .ok next → key x = some k → k ∉ seen acc ∧ k ∈ seen next) (keeps : ∀ acc x next, f acc
    x = .ok next → seen acc ⊆ seen next) : (∀ x ∈ xs, ∀ k, key x = some k → k ∉ seen start) ∧
    xs.Pairwise fun a b => ∀ k, key a = some k → key b ≠ some k := by
  induction xs generalizing start with
  | nil => exact ⟨by simp, .nil⟩
  | cons x rest ih =>
    obtain ⟨middle, head, tail⟩ := foldlM_cons_eq_ok.mp passes
    obtain ⟨unseen, distinct⟩ := ih tail
    constructor
    · intro y member k isKey
      rcases mem_cons.mp member with rfl | later
      · exact (fresh start y middle k head isKey).1
      · exact fun old => unseen y later k isKey (keeps start x middle head old)
    · refine pairwise_cons.mpr ⟨?_, distinct⟩
      intro y member k isKey same
      exact unseen y member k same (fresh start x middle k head isKey).2

end Check
