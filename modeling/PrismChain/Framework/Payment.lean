import PrismChain.Framework.Execution

namespace PrismChain

open FixedWidth Invocation Bank

/-- Lamports written from one account to another by the program itself. The credited account is
read after the debit, so that it may be the same one. -/
def Frame.pay (f : Frame) (src dst : Pubkey) (amount : U64) (e : ProgramError) :
    ProgramResult := do
  let rest ← okOr (checkedSub (f.view src).lamports amount) e
  let debited := f.view.setLamports src rest
  let credit ← okOr (checkedAdd (debited dst).lamports amount) e
  pure {f with view := debited.setLamports dst credit}

def Frame.drain (f : Frame) (src dst : Pubkey) (e : ProgramError) : ProgramResult :=
  f.pay src dst (f.view src).lamports e

/-- `-=` and `+=` on the balances; what wraps around is left to the runtime's final check. -/
def Frame.move (f : Frame) (src dst : Pubkey) (amount : U64) : Frame :=
  let debited := f.view.setLamports src ((f.view src).lamports-amount)
  {f with view := debited.setLamports dst ((debited dst).lamports+amount)}

structure Paid (b b' : Bank) (src dst : Pubkey) (n : Nat) : Prop where
  enough : n≤(b src).lamports.toNat
  same : SameState b b'
  moved : Moved b b' src dst n
  others : ∀ k,k≠src → k≠dst → b' k=b k

section Payment

variable {f g : Frame} {b : Bank} {src dst : Pubkey} {amount : U64} {e : ProgramError}

theorem Frame.pay_spec (h : f.pay src dst amount e=.ok g) :
    ∃ v,g=⟨f.synced,v⟩ ∧ Paid f.view v src dst amount.toNat := by
  simp only [pay,steps_ok] at h
  obtain ⟨rest,hrest,_,hcredit,rfl⟩ := h
  have hsub := checkedSub_eq_some.mp hrest
  have hle : amount.toNat≤(f.view src).lamports.toNat := by omega
  obtain rfl : rest=(f.view src).lamports-amount :=
    (Option.some.inj ((checkedSub_of_le hle).symm.trans hrest)).symm
  refine ⟨_,rfl,hle,fun k => by simp,moved_of_debit_credit hle hcredit,?_⟩
  intro k hsrc hdst
  simp [setLamports,hsrc,hdst]

theorem Frame.drain_spec (h : f.drain src dst e=.ok g) :
    ∃ v,g=⟨f.synced,v⟩ ∧ Paid f.view v src dst (f.view src).lamports.toNat :=
  pay_spec h

theorem Frame.pay_returns (f : Frame) (e : ProgramError)
    (hle : amount.toNat≤(f.view src).lamports.toNat)
    (hfits : dst≠src → (f.view dst).lamports.toNat+amount.toNat<2^64) :
    ∃ g,f.pay src dst amount e=.ok g := by
  have hsub : ((f.view src).lamports-amount).toNat=(f.view src).lamports.toNat-amount.toNat :=
    BitVec.toNat_sub_of_le (BitVec.le_def.mpr hle)
  have hroom : ((f.view.setLamports src ((f.view src).lamports-amount) dst).lamports).toNat+
      amount.toNat<2^64 := by
    rw [setLamports_lamports]
    by_cases hdst : dst=src
    · rw [if_pos hdst,hsub,Nat.sub_add_cancel hle]
      exact (f.view src).lamports.isLt
    · rw [if_neg hdst]
      exact hfits hdst
  obtain ⟨_,hcredit⟩ := exists_toNat hroom
  have hadd := checkedAdd_eq_some.mpr hcredit
  unfold pay
  rw [checkedSub_of_le hle]
  simp only [okOr_some,ok_bind,hadd]
  exact ⟨_,rfl⟩

theorem Paid.nothing (b : Bank) (src dst : Pubkey) : Paid b b src dst 0 :=
  ⟨Nat.zero_le _,SameState.refl b,fun k => by simp,fun _ _ _ => rfl⟩

theorem Paid.kept (h : Paid b b' src dst n) (hk : k≠src) :
    (b k).lamports.toNat≤(b' k).lamports.toNat := by
  have hm := h.moved k
  rw [if_neg hk] at hm
  omega

/-- The final check admits a payment out of an account of the program together with a write to one
of its records. -/
theorem Paid.sync {id : Pubkey} {accounts : List AccountInfo} {d : List Byte}
    (h : Paid b b' src dst n) (hsrc : (b src).owner=id ∨ n=0) (hk : (b k).owner=id)
    (hwsrc : (Invocation.mk id accounts).writable src=true)
    (hwdst : (Invocation.mk id accounts).writable dst=true)
    (hwk : (Invocation.mk id accounts).writable k=true)
    (hmsrc : src∈accounts.map AccountInfo.key) (hmdst : dst∈accounts.map AccountInfo.key) :
    Synced id accounts ⟨b,b'.setData k d⟩ := by
  refine sync_eq_ok.mpr ⟨fun j _ => checkAccount_eq_ok.mpr ?_,?_⟩
  · dsimp only
    rw [setData_lamports]
    have hdata : (b j).data=(b'.setData k d j).data ∨ j=k := by
      by_cases hj : j=k
      · exact .inr hj
      · rw [b'.setData_other d hj,(h.same j).1]
        exact .inl rfl
    refine ⟨?_,?_,hdata.imp_right fun (hj : j=k) => hj ▸ hwk,
      hdata.imp_right fun (hj : j=k) => hj ▸ hk⟩
    · by_cases hj : j=src
      · subst hj
        refine hsrc.imp_right fun hzero => ?_
        have hm := h.moved j
        rw [if_pos rfl,hzero] at hm
        omega
      · exact .inr (h.kept hj)
    · by_cases hj : j=src
      · exact .inr (hj ▸ hwsrc)
      · by_cases hj' : j=dst
        · exact .inr (hj' ▸ hwdst)
        · rw [h.others j hj hj']
          exact .inl rfl
  · have hview : lamportsIn (b'.setData k d) (accounts.map AccountInfo.key)=
        lamportsIn b' (accounts.map AccountInfo.key) := by
      simp only [lamportsIn,setData_lamports]
    rw [hview]
    exact (lamportsIn_moved h.moved hmsrc hmdst).symm

end Payment
end PrismChain
