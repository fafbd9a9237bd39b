import Mathlib.Tactic

namespace PrismChain

variable {ε α β : Type}

def require (p : Prop) [Decidable p] (e : ε) : Except ε Unit :=
  if p then .ok () else .error e

def okOr (x : Option α) (e : ε) : Except ε α :=
  match x with
  | some a => .ok a
  | none => .error e

theorem bind_eq_ok {x : Except ε α} {b : β} : (x >>= f)=.ok b ↔ ∃ a,x=.ok a ∧ f a=.ok b := by
  cases x <;> simp [bind,Except.bind]

theorem pure_eq_ok : (pure a : Except ε α)=.ok b ↔ a=b := by
  simp [pure,Except.pure]

theorem require_eq_ok {p : Prop} [Decidable p] {e : ε} : require p e=.ok u ↔ p := by
  by_cases h : p <;> simp [require,h]

theorem okOr_eq_ok {e : ε} : okOr x e=.ok a ↔ x=some a := by
  cases x <;> simp [okOr]

/-- One rule for each kind of step a handler is made of. -/
theorem steps_ok : (∀ {α β : Type} {x : Except ε α} {f : α → Except ε β} {b : β},
      (x >>= f)=.ok b ↔ ∃ a,x=.ok a ∧ f a=.ok b) ∧
    (∀ {α : Type} {a b : α},(pure a : Except ε α)=.ok b ↔ a=b) ∧
    (∀ {p : Prop} [Decidable p] {e : ε} {u : Unit},require p e=.ok u ↔ p) ∧
    (∀ {α : Type} {x : Option α} {e : ε} {a : α},okOr x e=.ok a ↔ x=some a) ∧
    ∀ {α : Type} {e : ε} {a : α},(.error e : Except ε α)=.ok a ↔ False :=
  ⟨bind_eq_ok,pure_eq_ok,require_eq_ok,okOr_eq_ok,by simp⟩

theorem bind_ne_error {x : Except ε α} {f : α → Except ε β} {e : ε} (hx : x≠.error e)
    (hf : ∀ {a},x=.ok a → f a≠.error e) : (x >>= f)≠.error e := by
  cases x with
  | error e' => exact fun h => hx (congrArg _ (Except.error.inj h))
  | ok a => exact hf rfl

theorem require_ne_error {p : Prop} [Decidable p] {e : ε} (h : e'≠e) : require p e'≠.error e := by
  by_cases hp : p <;> simp [require,hp,h]

theorem okOr_ne_error {e : ε} (h : e'≠e) : okOr x e'≠.error e := by
  cases x <;> simp [okOr,h]

theorem ok_bind (a : α) (f : α → Except ε β) : (Except.ok a >>= f)=f a := rfl

theorem error_bind (e : ε) (f : α → Except ε β) : (Except.error e >>= f)=.error e := rfl

theorem okOr_some (a : α) (e : ε) : okOr (some a) e=.ok a := rfl

theorem okOr_none (e : ε) : okOr (none : Option α) e=.error e := rfl

theorem require_pos {p : Prop} [Decidable p] {e : ε} (h : p) : require p e=.ok () := if_pos h

theorem require_neg {p : Prop} [Decidable p] {e : ε} (h : ¬p) : require p e=.error e := if_neg h

theorem eq_ok_of_isOk {x : Except ε α} (d : α) (h : x.isOk=true) : x=.ok (x.toOption.getD d) := by
  cases x with
  | error e => cases h
  | ok a => rfl

def errorOf (x : Except ε α) : Option ε :=
  match x with
  | .error e => some e
  | .ok _ => none

theorem toOption_eq_some {x : Except ε α} : x.toOption=some a ↔ x=.ok a := by
  cases x <;> simp [Except.toOption]

theorem forM_eq_ok {l : List α} {f : α → Except ε Unit} {u : Unit} :
    forM l f=.ok u ↔ ∀ a∈l,f a=.ok () := by
  induction l with
  | nil => simp [List.forM_nil,pure_eq_ok]
  | cons a l ih =>
    rw [List.forM_cons,bind_eq_ok,List.forall_mem_cons,← ih]
    constructor
    · intro ⟨_,ha,hl⟩
      exact ⟨ha,hl⟩
    · intro ⟨ha,hl⟩
      exact ⟨(),ha,hl⟩

/-- What a run is to have come to can be looked up. -/
instance (priority := low) decidableExistsSome {α : Type} {p : α → Prop} [DecidablePred p] :
    (o : Option α) → Decidable (∃ a,o=some a ∧ p a)
  | none => .isFalse nofun
  | some a => decidable_of_iff (p a) (by simp)

instance (priority := low) decidableExistsOk {p : α → Prop} [DecidablePred p] :
    (x : Except ε α) → Decidable (∃ a,x=.ok a ∧ p a)
  | .error _ => .isFalse nofun
  | .ok a => decidable_of_iff (p a) (by simp)

instance (priority := low) decidableEqError [DecidableEq ε] {e : ε} :
    (x : Except ε α) → Decidable (x=.error e)
  | .error e' => decidable_of_iff (e'=e) (by simp)
  | .ok _ => .isFalse nofun

end PrismChain
