import Mathlib.Data.List.Basic

namespace Swarm

/-- Actions that keep the state they have reached when they fail. -/
abbrev Act (ε σ α : Type) := EStateM ε σ α

namespace Act
variable {ε σ α β : Type}

/-- From `s` the action ends in `post`, or fails in `fail`. -/
def Ensures (act : Act ε σ α) (s : σ) (post : α → σ → Prop) (fail : ε → σ → Prop) : Prop :=
  match act s with
  | .ok a s' => post a s'
  | .error e s' => fail e s'

def liftExcept : Except ε α → Act ε σ α
  | .ok a => pure a
  | .error e => throw e

variable {s : σ} {post : α → σ → Prop} {fail : ε → σ → Prop}

@[simp] theorem ensures_pure {a : α} : Ensures (pure a : Act ε σ α) s post fail ↔ post a s := Iff.rfl

@[simp] theorem ensures_throw {e : ε} : Ensures (throw e : Act ε σ α) s post fail ↔ fail e s := Iff.rfl

@[simp] theorem ensures_get {post : σ → σ → Prop} : Ensures (get : Act ε σ σ) s post fail ↔ post s s := Iff.rfl

@[simp] theorem ensures_set {s' : σ} {post : PUnit → σ → Prop} :
    Ensures (set s' : Act ε σ PUnit) s post fail ↔ post ⟨⟩ s' := Iff.rfl

@[simp] theorem ensures_modify {change : σ → σ} {post : PUnit → σ → Prop} :
    Ensures (modify change : Act ε σ PUnit) s post fail ↔ post ⟨⟩ (change s) := Iff.rfl

@[simp] theorem ensures_bind {act : Act ε σ α} {next : α → Act ε σ β} {post : β → σ → Prop} :
    Ensures (act >>= next) s post fail ↔ Ensures act s (fun a s' => Ensures (next a) s' post fail) fail := by
  simp only [Ensures, bind, EStateM.bind]
  cases act s <;> rfl

@[simp] theorem ensures_map {act : Act ε σ α} {change : α → β} {post : β → σ → Prop} :
    Ensures (change <$> act) s post fail ↔ Ensures act s (fun a s' => post (change a) s') fail := by
  simp only [Ensures, Functor.map, EStateM.map]
  cases act s <;> rfl

@[simp] theorem ensures_liftExcept {answer : Except ε α} :
    Ensures (liftExcept answer : Act ε σ α) s post fail ↔
      (∀ a, answer = .ok a → post a s) ∧ (∀ e, answer = .error e → fail e s) := by
  cases answer with
  | ok a =>
    show post a s ↔ _
    simp
  | error e =>
    show fail e s ↔ _
    simp

theorem get_bind {next : σ → Act ε σ β} : ((get : Act ε σ σ) >>= next) s = next s s := rfl

theorem Ensures.mono {act : Act ε σ α} {post' : α → σ → Prop} {fail' : ε → σ → Prop}
    (ensures : Ensures act s post fail) (posts : ∀ a s', post a s' → post' a s')
    (fails : ∀ e s', fail e s' → fail' e s') : Ensures act s post' fail' := by
  unfold Ensures at ensures ⊢
  cases run : act s with
  | ok a s' => rw [run] at ensures; exact posts a s' ensures
  | error e s' => rw [run] at ensures; exact fails e s' ensures

theorem Ensures.cases {act : Act ε σ α} (ensures : Ensures act s post fail) :
    (∃ a s', act s = .ok a s' ∧ post a s') ∨ ∃ e s', act s = .error e s' ∧ fail e s' := by
  unfold Ensures at ensures
  cases run : act s with
  | ok a s' => rw [run] at ensures; exact Or.inl ⟨a, s', rfl, ensures⟩
  | error e s' => rw [run] at ensures; exact Or.inr ⟨e, s', rfl, ensures⟩

/-- What two specifications say of one action holds together. -/
theorem Ensures.and {act : Act ε σ α} {post' : α → σ → Prop} {fail' : ε → σ → Prop} (first : Ensures act s post fail)
    (second : Ensures act s post' fail') :
    Ensures act s (fun a s' => post a s' ∧ post' a s') (fun e s' => fail e s' ∧ fail' e s') := by
  unfold Ensures at first second ⊢
  cases run : act s with
  | ok a s' => rw [run] at first second; exact ⟨first, second⟩
  | error e s' => rw [run] at first second; exact ⟨first, second⟩

/-- From `s` the action succeeds. -/
abbrev Succeeds (act : Act ε σ α) (s : σ) (post : α → σ → Prop) : Prop := Ensures act s post (fun _ _ => False)

theorem Ensures.ok {act : Act ε σ α} (succeeds : Succeeds act s post) : ∃ a s', act s = .ok a s' ∧ post a s' := by
  rcases succeeds.cases with done | ⟨_, _, _, never⟩
  · exact done
  · exact never.elim

/-- A loop over a list keeps what each of its rounds keeps. -/
theorem ensures_forM {items : List β} {body : β → Act ε σ PUnit} (kept : List β → σ → Prop)
    (round : ∀ item rest s, kept (item :: rest) s → Ensures (body item) s (fun _ s' => kept rest s') fail)
    (start : kept items s) : Ensures (items.forM body) s (fun _ s' => kept [] s') fail := by
  induction items generalizing s with
  | nil => exact start
  | cons item rest ih =>
    change Ensures (body item >>= fun _ => rest.forM body) s _ _
    rw [ensures_bind]
    exact (round item rest s start).mono (fun _ _ here => ih here) (fun _ _ failed => failed)

/-- Whether it succeeds or fails, the action leaves what `view` shows of the state as it is. -/
def Keeps {τ : Type} (view : σ → τ) (act : Act ε σ α) : Prop :=
  ∀ s, Ensures act s (fun _ s' => view s' = view s) (fun _ s' => view s' = view s)

namespace Keeps
variable {τ : Type} {view : σ → τ}

theorem pure (a : α) : Keeps view (pure a : Act ε σ α) := fun _ => rfl

theorem throw (e : ε) : Keeps view (throw e : Act ε σ α) := fun _ => rfl

theorem get : Keeps view (get : Act ε σ σ) := fun _ => rfl

theorem modify {change : σ → σ} (same : ∀ s, view (change s) = view s) :
    Keeps view (modify change : Act ε σ PUnit) := same

theorem liftExcept (answer : Except ε α) : Keeps view (liftExcept answer : Act ε σ α) := by
  cases answer with
  | ok a => exact pure a
  | error e => exact throw e

theorem bind {act : Act ε σ α} {next : α → Act ε σ β} (first : Keeps view act) (second : ∀ a, Keeps view (next a)) :
    Keeps view (act >>= next) := by
  intro s
  rw [ensures_bind]
  refine (first s).mono ?_ (fun _ _ same => same)
  intro a s' same
  exact (second a s').mono (fun _ _ again => again.trans same) (fun _ _ again => again.trans same)

theorem ite {holds : Prop} [Decidable holds] {act other : Act ε σ α} (first : Keeps view act)
    (second : Keeps view other) :
    Keeps view (if holds then act else other) := by
  split
  · exact first
  · exact second

theorem forM {items : List β} {body : β → Act ε σ PUnit} (round : ∀ item, Keeps view (body item)) :
    Keeps view (items.forM body) := by
  induction items with
  | nil => exact pure _
  | cons item rest ih => exact (round item).bind (fun _ => ih)

end Keeps

end Act

/-- A loop that stops at the first error keeps what every round keeps. -/
theorem foldlM_keeps {ε α β : Type} {f : β → α → Except ε β} (kept done : β → Prop) {items : List α}
    (round : ∀ b, ∀ item ∈ items, ∀ b', kept b → f b item = .ok b' → done b') (weaken : ∀ b, done b → kept b)
    {start result : β} (run : items.foldlM f start = .ok result) (first : kept start) :
    kept result ∧ (items ≠ [] → done result) := by
  induction items generalizing start with
  | nil =>
    cases run
    exact ⟨first, fun absurd => (absurd rfl).elim⟩
  | cons item rest ih =>
    rw [List.foldlM_cons] at run
    cases step : f start item with
    | error e => rw [step] at run; cases run
    | ok b =>
      rw [step] at run
      have here := round start item List.mem_cons_self b first step
      obtain ⟨kept, later⟩ :=
        ih (fun b item member => round b item (List.mem_cons_of_mem _ member)) run (weaken _ here)
      refine ⟨kept, fun _ => ?_⟩
      by_cases empty : rest = []
      · subst empty
        cases run
        exact here
      · exact later empty

/-- A loop whose rounds cannot fail. -/
theorem mapM_ok {ε α β : Type} {f : α → Except ε β} {g : α → β} (always : ∀ a, f a = .ok (g a)) (items : List α) :
    items.mapM f = .ok (items.map g) := by
  induction items with
  | nil => rfl
  | cons item rest ih =>
    rw [List.mapM_cons, always, ih]
    rfl

/-- A loop that fails failed in one of its rounds. -/
theorem mapM_error {ε α β : Type} {f : α → Except ε β} {items : List α} {e : ε} (failed : items.mapM f = .error e) :
    ∃ item ∈ items, f item = .error e := by
  induction items with
  | nil => cases failed
  | cons item rest ih =>
    rw [List.mapM_cons] at failed
    cases here : f item with
    | error e' =>
      rw [here] at failed
      cases failed
      exact ⟨item, List.mem_cons_self, here⟩
    | ok value =>
      rw [here] at failed
      cases later : rest.mapM f with
      | error e' =>
        simp only [later, bind, Except.bind] at failed
        cases failed
        obtain ⟨other, member, found⟩ := ih later
        exact ⟨other, List.mem_cons_of_mem _ member, found⟩
      | ok values =>
        simp only [later, bind, Except.bind] at failed
        cases failed

end Swarm
