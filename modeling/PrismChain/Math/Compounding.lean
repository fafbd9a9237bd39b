import Mathlib.Tactic

/-! Values that grow by a part of themselves, rounded down each time. Growing in several steps loses
less than one unit in each of them against growing at once. -/

namespace PrismChain.Compounding

/-- One step, from `x` to at least its rounded growth, against the growth of a smaller `x₀`. -/
theorem step_lower (hunit : 0<unit) (hle : x0≤x) (h : x+x*rate*time/unit≤x') :
    x*unit+x0*(rate*time)≤x'*unit+(unit-1) := by
  have hgrown : x0*(rate*time)≤x*rate*time := by
    rw [Nat.mul_assoc]
    exact Nat.mul_le_mul_right _ hle
  have hfloor := Nat.lt_mul_div_succ (x*rate*time) hunit
  generalize x*rate*time/unit=q at *
  have hscaled := Nat.mul_le_mul_right unit h
  rw [Nat.add_mul] at hscaled
  rw [Nat.mul_add,Nat.mul_one,Nat.mul_comm unit] at hfloor
  omega

/-- After `n` steps that lose less than a unit each, less than `n` whole units are lost. -/
theorem units_lost {n y : Nat} (hunit : 0<unit) (h : y*unit≤x*unit+n*(unit-1)) : y≤x+(n-1) := by
  cases n with
  | zero =>
    rw [Nat.zero_mul,Nat.add_zero] at h
    exact Nat.le_of_mul_le_mul_right h hunit
  | succ n =>
    refine Nat.le_of_lt_succ (Nat.lt_of_mul_lt_mul_right (a := unit) ?_)
    calc y*unit≤x*unit+(n+1)*(unit-1) := h
      _ < x*unit+(n+1)*unit := Nat.add_lt_add_left
          (Nat.mul_lt_mul_of_pos_left (Nat.sub_lt hunit Nat.one_pos) n.succ_pos) _
      _ = (x+(n+1-1)).succ*unit := by rw [← Nat.add_mul]; rfl

end PrismChain.Compounding
