import PrismChain.Framework.Execution
import PrismChain.Math.Aggregate

namespace PrismChain

open Invocation

variable {α : Type}

/-- The record that a program finds in an account of its own, if it says that it is in use. -/
def recordAt (c : Codec α) (live : α → Bool) (id : Pubkey) (b : Bank) (k : Pubkey) : Option α :=
  if (b k).owner=id then (c.tryFromSlice (b k).data).filter live else none

variable {c : Codec α} {live : α → Bool} {id : Pubkey} {b b' : Bank} {k : Pubkey} {a : α}

theorem recordAt_eq_some : recordAt c live id b k=some a ↔
    (b k).owner=id ∧ (b k).data=c.encode a ∧ live a=true := by
  unfold recordAt
  by_cases howner : (b k).owner=id
  · rw [if_pos howner,Option.filter_eq_some_iff,Codec.tryFromSlice_eq_some]
    simp [howner]
  · simp [howner]

theorem recordAt_eq_none (hno : ∀ a,(b k).owner=id → (b k).data=c.encode a → live a=true → False) :
    recordAt c live id b k=none := by
  cases ha : recordAt c live id b k with
  | none => rfl
  | some a =>
    obtain ⟨howner,hdata,hlive⟩ := recordAt_eq_some.mp ha
    exact (hno a howner hdata hlive).elim

theorem recordAt_congr (howner : (b' k).owner=(b k).owner) (hdata : (b' k).data=(b k).data) :
    recordAt c live id b' k=recordAt c live id b k := by
  unfold recordAt
  rw [howner,hdata]

theorem recordAt_of_empty (hc : c.HasSize n) (hn : 0<n) (hd : (b k).data=[]) :
    recordAt c live id b k=none := by
  refine recordAt_eq_none fun a _ ha _ => ?_
  have hlen := hc a
  rw [← ha,hd] at hlen
  exact absurd hlen.symm hn.ne'

theorem recordAt_of_length (hc : c.HasSize n) (hd : (b k).data.length≠n) :
    recordAt c live id b k=none := by
  refine recordAt_eq_none fun a _ ha _ => ?_
  rw [ha,hc a] at hd
  exact hd rfl

theorem recordAt_setData_same (howner : (b k).owner=id) (hlive : live a=true) :
    recordAt c live id (b.setData k (c.encode a)) k=some a :=
  recordAt_eq_some.mpr ⟨(b.setData_owner k k _).trans howner,b.setData_same k _,hlive⟩

theorem recordAt_setData_other (d : List Byte) (hj : j≠k) :
    recordAt c live id (b.setData k d) j=recordAt c live id b j :=
  recordAt_congr (b.setData_owner _ _ _) (b.setData_other d hj)

theorem record_owned {accounts : List AccountInfo} (hsync : Synced id accounts f)
    (hk : k∈accounts.map AccountInfo.key) (hsynced : SameState b f.synced)
    (ha : (b k).data=c.encode a) (ha' : (f.view k).data=c.encode a') : (b k).owner=id ∨ a'=a := by
  have hcheck := (checkAccount_eq_ok.mp ((sync_eq_ok.mp hsync).1 k hk)).2.2.2
  rw [(hsynced k).1,(hsynced k).2,ha,ha'] at hcheck
  cases hcheck with
  | inl heq => exact Or.inr (c.encode_inj heq).symm
  | inr howner => exact Or.inl howner

/-- The records of a program after the one at `k` was rewritten from `a` to `a'`. In an account of
somebody else it can only stay as it is, and is no record of the program. -/
inductive Rewritten (c : Codec α) (live : α → Bool) (id : Pubkey) (b b' : Bank) (k : Pubkey)
    (a a' : α) : Prop
  | foreign (hsame : a'=a) (hbook : ∀ j,recordAt c live id b' j=recordAt c live id b j)
  | own (hbefore : recordAt c live id b k=some a) (hafter : recordAt c live id b' k=some a')
      (hothers : ∀ j,j≠k → recordAt c live id b' j=recordAt c live id b j)

theorem rewritten (howner : (b' k).owner=(b k).owner) (ha : (b k).data=c.encode a)
    (ha' : (b' k).data=c.encode a') (hlive : live a=true) (hlive' : live a'=live a)
    (howned : (b k).owner=id ∨ a'=a)
    (hothers : ∀ j,j≠k → recordAt c live id b' j=recordAt c live id b j) :
    Rewritten c live id b b' k a a' := by
  by_cases hid : (b k).owner=id
  · exact .own (recordAt_eq_some.mpr ⟨hid,ha,hlive⟩)
      (recordAt_eq_some.mpr ⟨howner.trans hid,ha',hlive'.trans hlive⟩) hothers
  have hsame := howned.resolve_left hid
  refine .foreign hsame fun j => ?_
  by_cases hj : j=k
  · subst hj
    exact recordAt_congr howner (by rw [ha',ha,hsame])
  · exact hothers j hj

theorem Rewritten.sumOver (h : Rewritten c live id b b' k a a') (g : α → Nat) :
    Aggregate.sumOver g (recordAt c live id b')+g a=
      Aggregate.sumOver g (recordAt c live id b)+g a' := by
  cases h with
  | foreign hsame hbook => rw [hsame,Aggregate.sumOver_congr hbook]
  | own hbefore hafter hothers => exact Aggregate.sumOver_change hbefore hafter hothers

def Marked (c : Codec α) (live : α → Bool) : Prop := ∀ a,live a=true → 1#8∈c.encode a

theorem recordAt_of_zeros (hm : Marked c live) (hz : (b k).owner=id → ∀ x∈(b k).data,x=0#8) :
    recordAt c live id b k=none := by
  refine recordAt_eq_none fun a howner ha hlive => ?_
  have hone : 1#8∈(b k).data := by
    rw [ha]
    exact hm a hlive
  cases hz howner _ hone

/-- Nobody else can change, remove or fake a record of the program. -/
theorem Outside.records (hm : Marked c live) (hout : Outside id b b') (k : Pubkey) :
    recordAt c live id b' k=recordAt c live id b k := by
  by_cases howner : (b k).owner=id
  · obtain ⟨howner',hdata,-⟩ := hout.owned howner
    exact recordAt_congr (howner'.trans howner.symm) hdata
  · have hno : recordAt c live id b k=none := recordAt_eq_none fun _ ho _ _ => howner ho
    rw [hno]
    exact recordAt_of_zeros hm ((hout k).2 howner)

def frontAt (c : Codec α) (live : α → Bool) (id : Pubkey) (b : Bank) (k : Pubkey) : Option α :=
  if (b k).owner=id then (c.front (b k).data).filter live else none

theorem frontAt_eq_some : frontAt c live id b k=some a ↔
    (b k).owner=id ∧ (∃ rest,(b k).data=c.encode a++rest) ∧ live a=true := by
  unfold frontAt
  by_cases howner : (b k).owner=id
  · rw [if_pos howner,Option.filter_eq_some_iff,Codec.front_eq_some]
    simp [howner]
  · simp [howner]

theorem frontAt_congr (howner : (b' k).owner=(b k).owner) (hdata : (b' k).data=(b k).data) :
    frontAt c live id b' k=frontAt c live id b k := by
  unfold frontAt
  rw [howner,hdata]

theorem frontAt_of_zeros (hm : Marked c live) (hz : (b k).owner=id → ∀ x∈(b k).data,x=0#8) :
    frontAt c live id b k=none := by
  cases ha : frontAt c live id b k with
  | none => rfl
  | some a =>
    obtain ⟨howner,⟨_,hdata⟩,hlive⟩ := frontAt_eq_some.mp ha
    have hone : 1#8∈(b k).data := by
      rw [hdata]
      exact List.mem_append_left _ (hm a hlive)
    cases hz howner _ hone

theorem Outside.fronts (hm : Marked c live) (hout : Outside id b b') (k : Pubkey) :
    frontAt c live id b' k=frontAt c live id b k := by
  by_cases howner : (b k).owner=id
  · obtain ⟨howner',hdata,-⟩ := hout.owned howner
    exact frontAt_congr (howner'.trans howner.symm) hdata
  · have hno : frontAt c live id b k=none := frontAt_of_zeros hm fun ho => absurd ho howner
    rw [hno]
    exact frontAt_of_zeros hm ((hout k).2 howner)

theorem Untouched.fronts (hm : Marked c live) (h0 : Untouched id b) (k : Pubkey) :
    frontAt c live id b k=none :=
  frontAt_of_zeros hm (h0 k)

theorem Untouched.records (hm : Marked c live) (h0 : Untouched id b) (k : Pubkey) :
    recordAt c live id b k=none :=
  recordAt_of_zeros hm (h0 k)

end PrismChain
