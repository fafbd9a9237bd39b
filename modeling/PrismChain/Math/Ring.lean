import Mathlib.Tactic

namespace PrismChain

open List

/-- Of all the entries that were ever made, the slots hold the last `size`, each at its number
modulo `size`. -/
structure Ring {α : Type} (size : Nat) (slots entries : List α) : Prop where
  length : slots.length=min entries.length size
  slot : ∀ i<entries.length,entries.length≤ i+size → slots[i%size]?=entries[i]?

namespace Ring

variable {α : Type} {size : Nat}

theorem nil (size : Nat) : Ring size ([] : List α) [] := ⟨(Nat.zero_min _).symm,nofun⟩

theorem push (hr : Ring size slots entries) (hroom : slots.length< size) (a : α) :
    Ring size (slots++[a]) (entries++[a]) := by
  have hsame : slots.length=entries.length := by
    have := hr.length
    omega
  refine ⟨?_,fun i hi _ => ?_⟩
  · rw [length_append,length_append,length_singleton]
    omega
  rw [length_append,length_singleton] at hi
  rw [Nat.mod_eq_of_lt (by omega)]
  by_cases hlast : i<entries.length
  · rw [getElem?_append_left (by omega),getElem?_append_left hlast,
      ← hr.slot i hlast (by omega),Nat.mod_eq_of_lt (by omega)]
  · obtain rfl : i=entries.length := by omega
    rw [← hsame,getElem?_concat_length,hsame,getElem?_concat_length]

/-- Two numbers less than `size` apart have different slots. -/
theorem slot_ne {i n : Nat} (hi : i<n) (hnear : n< i+size) : i%size≠n%size := by
  intro heq
  have hdvd : size∣n-i := (Nat.modEq_iff_dvd' hi.le).mp heq
  exact absurd (Nat.le_of_dvd (by omega) hdvd) (by omega)

theorem overwrite (hr : Ring size slots entries) (hsize : 0< size) (hfull : size≤ slots.length)
    (a : α) : Ring size (slots.set (entries.length%size) a) (entries++[a]) := by
  have hlength := hr.length
  refine ⟨?_,fun i hi hnear => ?_⟩
  · rw [length_set,length_append,length_singleton]
    omega
  rw [length_append,length_singleton] at hi hnear
  by_cases hlast : i<entries.length
  · rw [getElem?_set_ne (slot_ne hlast (by omega)).symm,getElem?_append_left hlast]
    exact hr.slot i hlast (by omega)
  · obtain rfl : i=entries.length := by omega
    rw [getElem?_set_self (Nat.lt_of_lt_of_le (Nat.mod_lt _ hsize) hfull),getElem?_concat_length]

end Ring
end PrismChain
