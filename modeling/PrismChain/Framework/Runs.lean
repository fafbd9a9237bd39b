import Mathlib.Tactic

namespace PrismChain

open List

variable {σ ε : Type}

/-- One step of a labelled transition system together with its two end states. -/
structure Transition (σ ε : Type) where
  pre : σ
  label : ε
  post : σ

/-- Finite runs from `s`, with everything that happened on the way. -/
inductive Run (step : σ → ε → σ → Prop) (s : σ) : List (Transition σ ε) → σ → Prop
  | start : Run step s [] s
  | next {tr : List (Transition σ ε)} {t u : σ} {e : ε} :
      Run step s tr t → step t e u → Run step s (tr++[⟨t,e,u⟩]) u

def total (f : Transition σ ε → Nat) (tr : List (Transition σ ε)) : Nat := (tr.map f).sum

@[simp] theorem total_nil (f : Transition σ ε → Nat) : total f []=0 := rfl

@[simp] theorem total_append_one (f : Transition σ ε → Nat) (tr : List (Transition σ ε))
    (x : Transition σ ε) : total f (tr++[x])=total f tr+f x := by
  simp [total]

theorem total_le (hle : ∀ x∈tr,f x≤g x) : total f tr≤total g tr := sum_le_sum hle

theorem countP_append_one (p : Transition σ ε → Bool) (tr : List (Transition σ ε))
    (x : Transition σ ε) : (tr++[x]).countP p=tr.countP p+(p x).toNat := by
  rw [countP_append,countP_singleton]
  cases p x <;> rfl

namespace Run

variable {t : σ} {tr : List (Transition σ ε)}

/-- An invariant may speak about the history as well as about the state. -/
theorem traced {I : List (Transition σ ε) → σ → Prop} (h0 : I [] s)
    (hstep : ∀ {tr t e u},Run step s tr t → I tr t → step t e u → I (tr++[⟨t,e,u⟩]) u)
    (h : Run step s tr t) : I tr t := by
  induction h with
  | start => exact h0
  | next hrun he ih => exact hstep hrun ih he

theorem invariant {I : σ → Prop} (h0 : I s)
    (hstep : ∀ {t e u},I t → step t e u → I u) (h : Run step s tr t) : I t :=
  traced (I := fun _ t => I t) h0 (fun _ hi he => hstep hi he) h

theorem mono (hle : ∀ {s e t},step s e t → step' s e t) (h : Run step s tr t) :
    Run step' s tr t := by
  induction h with
  | start => exact .start
  | next _ he ih => exact ih.next (hle he)

theorem restrict {p : ε → Prop} (h : Run step s tr t) (hp : ∀ x∈tr,p x.label) :
    Run (fun s e t => step s e t ∧ p e) s tr t := by
  induction h with
  | start => exact .start
  | next _ he ih =>
    exact (ih fun x hx => hp x (mem_append_left _ hx)).next
      ⟨he,hp _ (mem_append_right _ mem_cons_self)⟩

/-- A run up to one of its steps, the step, and the run from there on. -/
theorem cut (h : Run step s (tr1++x::tr2) t) :
    Run step s tr1 x.pre ∧ step x.pre x.label x.post ∧ Run step x.post tr2 t := by
  generalize htr : tr1++x::tr2=tr at h
  induction h generalizing tr2 with
  | start => simp at htr
  | @next _ t _ _ hrun he ih =>
    obtain rfl | ⟨_,y,rfl⟩ := eq_nil_or_concat tr2
    · obtain ⟨rfl,hx⟩ := append_inj' htr rfl
      obtain rfl := (cons.inj hx).1
      exact ⟨hrun,he,.start⟩
    · rw [concat_eq_append] at htr ⊢
      rw [← cons_append,← append_assoc] at htr
      obtain ⟨hfront,hy⟩ := append_inj' htr rfl
      obtain rfl := (cons.inj hy).1
      obtain ⟨h1,h2,h3⟩ := ih hfront
      exact ⟨h1,h2,h3.next he⟩

theorem step_of_mem (h : Run step s tr t) (hx : x∈tr) : step x.pre x.label x.post := by
  obtain ⟨_,_,rfl⟩ := append_of_mem hx
  exact h.cut.2.1

/-- What can be done only once: a marked step finds something undone and leaves it done, and what
is done stays done. -/
theorem once (done : σ → Prop) (mark : Transition σ ε → Bool)
    (hkept : ∀ {tr t e u},Run step s tr t → step t e u → done t → done u)
    (hmark : ∀ {tr t e u},Run step s tr t → step t e u → mark ⟨t,e,u⟩=true → ¬done t ∧ done u)
    (h : Run step s tr t) :
    tr.countP mark≤1 ∧ (¬done t → tr.countP mark=0) ∧ ∀ x∈tr,done x.post → done t := by
  induction h with
  | start => exact ⟨Nat.zero_le _,fun _ => rfl,nofun⟩
  | @next tr t u e hrun he ih =>
    obtain ⟨hcount,hundone,hdone⟩ := ih
    rw [countP_append_one]
    refine ⟨?_,fun hu => ?_,fun x hx hpost => ?_⟩
    · cases hm : mark ⟨t,e,u⟩ with
      | false => exact hcount
      | true =>
        rw [hundone (hmark hrun he hm).1]
        exact le_rfl
    · have hm : mark ⟨t,e,u⟩=false := Bool.eq_false_iff.mpr fun hm => hu (hmark hrun he hm).2
      rw [hm,hundone fun ht => hu (hkept hrun he ht)]
      rfl
    · simp only [mem_append,mem_singleton] at hx
      cases hx with
      | inl hx => exact hkept hrun he (hdone x hx hpost)
      | inr hx =>
        subst hx
        exact hpost

theorem append (h : Run step s tr t) (h' : Run step t tr' u) : Run step s (tr++tr') u := by
  induction h' with
  | start => simpa using h
  | next _ he ih =>
    rw [← append_assoc]
    exact ih.next he

end Run
end PrismChain
