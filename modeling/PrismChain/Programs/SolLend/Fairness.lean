import PrismChain.Programs.SolLend.Accuracy
import PrismChain.Programs.SolLend.Health
import PrismChain.Programs.SolLend.Isolation
import PrismChain.Programs.SolLend.Markets

namespace PrismChain.SolLend

open FixedWidth Option List BitVec Nat

section Liquidation

variable {m : LendingMarket} {p : UserPosition} {r : U64}

/-- What a liquidator is to receive, before it is capped at the deposit. -/
def uncappedSeizure (m : LendingMarket) (r : U64) : U64 :=
  (checkedMul r ((checkedAdd bps m.liquidationBonus).getD bps)).getD (BitVec.allOnes 64)/bps

theorem uncappedSeizure_le (m : LendingMarket) (r : U64) :
    (uncappedSeizure m r).toNat*10000≤ r.toNat*(10000+m.liquidationBonus.toNat) := by
  have hfactor :
      ((checkedAdd bps m.liquidationBonus).getD bps).toNat≤10000+m.liquidationBonus.toNat := by
    cases hadd : checkedAdd bps m.liquidationBonus with
    | none => exact Nat.le_add_right _ _
    | some v => exact (checkedAdd_eq_some.mp hadd).le
  have hproduct : ((checkedMul r ((checkedAdd bps m.liquidationBonus).getD bps)).getD
      (allOnes 64)).toNat≤ r.toNat*(10000+m.liquidationBonus.toNat) := by
    refine le_trans ?_ (Nat.mul_le_mul_left _ hfactor)
    generalize (checkedAdd bps m.liquidationBonus).getD bps=v
    unfold checkedMul
    split_ifs with hfits
    · rw [getD_some,toNat_mul,mod_eq_of_lt hfits]
    · rw [getD_none,toNat_allOnes]
      omega
  unfold uncappedSeizure
  rw [toNat_udiv]
  exact (div_mul_le_self _ _).trans hproduct

theorem seizure_share (hsolvent : (10000+m.liquidationBonus.toNat)*p.borrowedAmount.toNat≤
      10000*p.depositedAmount.toNat) :
    (uncappedSeizure m r).toNat*p.borrowedAmount.toNat≤ r.toNat*p.depositedAmount.toNat := by
  have hle := Nat.mul_le_mul_right p.borrowedAmount.toNat (uncappedSeizure_le m r)
  have hmore := Nat.mul_le_mul_left r.toNat hsolvent
  nlinarith

/-- With at most the share of the deposit that is repaid of the debt, what is left is covered no
less than before. -/
theorem health_kept {d b s r t : Nat} (hb : r<b) (hshare : s*b≤ r*d) (hs : s≤d) :
    d*t/b≤(d-s)*t/(b-r) := by
  rw [Nat.le_div_iff_mul_le (Nat.sub_pos_of_lt hb)]
  refine Nat.le_of_mul_le_mul_right ?_ ((Nat.zero_le r).trans_lt hb)
  have hfloor := div_mul_le_self (d*t) b
  obtain ⟨e,rfl⟩ := Nat.exists_eq_add_of_le hs
  obtain ⟨f,rfl⟩ := Nat.exists_eq_add_of_le hb.le
  rw [Nat.add_sub_cancel_left,Nat.add_sub_cancel_left]
  have hcross : (s+e)*f≤e*(r+f) := by nlinarith
  calc (s+e)*t/(r+f)*f*(r+f)=(s+e)*t/(r+f)*(r+f)*f := by ring
    _ ≤ (s+e)*t*f := Nat.mul_le_mul_right _ hfloor
    _ = (s+e)*f*t := by ring
    _ ≤ e*(r+f)*t := Nat.mul_le_mul_right _ hcross
    _ = e*t*(r+f) := by ring

theorem calculateHealthFactor_eq {deposited borrowed threshold : U64} (hdebt : 0<borrowed.toNat)
    (hfits : deposited.toNat*threshold.toNat<2^64) :
    (calculateHealthFactor deposited borrowed threshold).toNat=
      deposited.toNat*threshold.toNat/borrowed.toNat := by
  obtain ⟨v,hv⟩ := exists_toNat hfits
  rw [calculateHealthFactor,if_neg (toNat_pos.mp hdebt),checkedMul_eq_some.mpr hv,getD_some,
    toNat_udiv,hv]

theorem liquidated_helps {repay : U64} {x : LendingMarket×UserPosition} {s : UserPosition}
    (hs : s=settleUserInterest p m) (hr : r=umin repay s.borrowedAmount)
    (hx : liquidated repay m p=.ok x)
    (hdebt : 0< s.borrowedAmount.toNat)
    (hfits : s.depositedAmount.toNat*m.liquidationThreshold.toNat<2^64)
    (hsolvent :
    (10000+m.liquidationBonus.toNat)*s.borrowedAmount.toNat≤10000*s.depositedAmount.toNat) :
    (uncappedSeizure m r).toNat≤ s.depositedAmount.toNat ∧
      x.2.depositedAmount.toNat=s.depositedAmount.toNat-(uncappedSeizure m r).toNat ∧
      (calculateHealthFactor s.depositedAmount s.borrowedAmount m.liquidationThreshold).toNat≤
        x.2.healthFactor.toNat := by
  simp only [liquidated,steps_ok] at hx
  obtain ⟨-,-,rfl⟩ := hx
  rw [← hs]
  have hle : r.toNat≤ s.borrowedAmount.toNat := by
    rw [hr,toNat_umin]
    exact min_le_right _ _
  have hshare := seizure_share (r := r) hsolvent
  have hcap : (uncappedSeizure m r).toNat≤ s.depositedAmount.toNat :=
    Nat.le_of_mul_le_mul_right (hshare.trans (by
      rw [Nat.mul_comm]
      exact Nat.mul_le_mul_left _ hle)) hdebt
  have hseized : collateralSeized m s r=uncappedSeizure m r := by
    refine eq_of_toNat_eq ?_
    rw [collateralSeized,toNat_umin]
    exact min_eq_left hcap
  rw [← hr,hseized]
  refine ⟨hcap,toNat_saturatingSub _ _,?_⟩
  change _≤(calculateHealthFactor (saturatingSub s.depositedAmount (uncappedSeizure m r))
    (saturatingSub s.borrowedAmount r) m.liquidationThreshold).toNat
  by_cases hall : r.toNat=s.borrowedAmount.toNat
  · have hnone : saturatingSub s.borrowedAmount r=0#64 := by
      refine eq_of_toNat_eq ?_
      rw [toNat_saturatingSub,hall,Nat.sub_self]
      rfl
    have hinfinite (d t : U64) : calculateHealthFactor d 0#64 t=allOnes 64 := if_pos rfl
    rw [hnone,hinfinite,toNat_allOnes]
    exact le_sub_one_of_lt (isLt _)
  · have hless : r.toNat< s.borrowedAmount.toNat := lt_of_le_of_ne hle hall
    rw [calculateHealthFactor_eq hdebt hfits,calculateHealthFactor_eq,toNat_saturatingSub,
      toNat_saturatingSub]
    · exact health_kept hless hshare hcap
    · rw [toNat_saturatingSub]
      exact Nat.sub_pos_of_lt hless
    · rw [toNat_saturatingSub]
      exact (Nat.mul_le_mul_right _ (sub_le _ _)).trans_lt hfits

end Liquidation

/-- An accepted liquidation of a position whose deposit covers its debt with the bonus is never cut
at the deposit, and the position is no worse off. -/
theorem liquidation_helps {id mk k : Pubkey} {c : Call Instruction} {b b' : Bank}
    {m : LendingMarket} {p s : UserPosition} {repay r : U64} (hc : c.instruction=.liquidate repay)
    (hmk : c.key? 0=some mk) (hk : c.key? 1=some k)
    (hm : marketCodec.tryFromSlice (b mk).data=some m)
    (hp : positionCodec.tryFromSlice (b k).data=some p) (hs : s=settleUserInterest p m)
    (hr : r=umin repay s.borrowedAmount) (hdebt : 0< s.borrowedAmount.toNat)
    (hfits : s.depositedAmount.toNat*m.liquidationThreshold.toNat<2^64)
    (hsolvent : (10000+m.liquidationBonus.toNat)*s.borrowedAmount.toNat≤
      10000*s.depositedAmount.toNat) (hx : (program id).execute c b=.ok b') :
    (uncappedSeizure m r).toNat≤ s.depositedAmount.toNat ∧
      ∃ p',positionCodec.tryFromSlice (b' k).data=some p' ∧
        p'.depositedAmount.toNat=s.depositedAmount.toNat-(uncappedSeizure m r).toNat ∧
        (calculateHealthFactor s.depositedAmount s.borrowedAmount m.liquidationThreshold).toNat≤
          p'.healthFactor.toNat := by
  obtain ⟨_,_,x,u⟩ := execute_onPosition hx (by rw [hc]; rfl) hmk hk
  obtain rfl :=
    marketCodec.encode_inj (u.market.symm.trans ((marketCodec.tryFromSlice_eq_some).mp hm))
  have hdata := (positionCodec.tryFromSlice_eq_some).mp hp
  have heffect := u.effect
  rw [hc] at heffect
  cases heffect with
  | liquidated hp₁ hx =>
    obtain rfl := positionCodec.encode_inj (hp₁.symm.trans hdata)
    obtain ⟨hcap,hleft,hhealth⟩ := liquidated_helps hs hr hx hdebt hfits hsolvent
    refine ⟨hcap,x.2,?_,hleft,hhealth⟩
    exact (positionCodec.tryFromSlice_eq_some).mpr (u.stored (length_of_position hdata))

def unsafeBank : Bank := fun k =>
  if k=6#256 then ⟨1000000#64,positionCodec.encode (savings 106#64),1#256⟩ else sampleBank k

theorem half_liquidated : ∃ b' p',(program 1#256).execute (onPair 3#256 6#256 8#256
      (.liquidate 50#64)) unsafeBank=.ok b' ∧ positionCodec.tryFromSlice (b' 6#256).data=some p' ∧
    p'.depositedAmount.toNat=106-52 ∧ 9010≤p'.healthFactor.toNat := by
  have hx := eq_ok_of_isOk (x := (program 1#256).execute (onPair 3#256 6#256 8#256
    (.liquidate 50#64)) unsafeBank) unsafeBank (by decide +kernel)
  obtain ⟨-,p',hp',hleft,hhealth⟩ := liquidation_helps (m := sampleMarket) (p := savings 106#64)
    rfl rfl rfl
      (by decide +kernel) (by decide +kernel) rfl rfl (by decide) (by decide) (by decide) hx
  exact ⟨_,p',hx,hp',hleft,hhealth⟩

section Rates

variable {id mk : Pubkey} {c : Call Instruction} {b : Bank} {s : Ledger}

/-- An instruction on a position takes the account of the market `mk` for the market, if it names
it. -/
def NamedAsMarket (mk : Pubkey) (c : Call Instruction) : Prop :=
  c.instruction.onPosition=true → c.key? 1=some mk → c.key? 0=some mk

def FairAt (id mk : Pubkey) (b : Bank) : Prop :=
  (b mk).owner=id → ∀ m,marketCodec.tryFromSlice (b mk).data=some m → Fair m

theorem fairAt_of_zeros (h : (b mk).owner=id → ∀ x∈(b mk).data,x=0#8) : FairAt id mk b := by
  intro howner m hm
  have hlen : (b mk).data.length=marketLen := by
    rw [(marketCodec.tryFromSlice_eq_some).mp hm]
    exact market_size m
  rw [zeros_read hlen (h howner)] at hm
  rw [← some.inj hm]
  exact le_rfl

theorem Opened.fair (o : Opened id c b b' mk authority tokenMint m) (hfair : FairAt id mk b) :
    FairAt id mk b' := by
  intro howner m' hm'
  rw [o.touched.owners mk] at howner
  by_cases hlen : (b mk).data.length=marketLen
  · have hdrop : (b mk).data.drop marketLen=[] := drop_of_length_le hlen.le
    rw [o.market',hdrop,append_nil] at hm'
    obtain rfl := marketCodec.encode_inj ((marketCodec.tryFromSlice_eq_some).mp hm')
    cases hread : marketCodec.tryFromSlice (b mk).data with
    | none =>
      have hm := o.read
      rw [hread,getD_none] at hm
      rw [hm]
      exact Nat.le_refl 0
    | some m0 =>
      have hm := o.read
      rw [hread,getD_some] at hm
      rw [hm]
      exact hfair howner m0 hread
  · rw [o.unread hlen] at hm'
    cases hm'

theorem fairAt_of_written (hm : (b mk).data=marketCodec.encode m) (hf : Fair m) :
    FairAt id mk b := by
  intro _ m' hm'
  obtain rfl := marketCodec.encode_inj (hm.symm.trans ((marketCodec.tryFromSlice_eq_some).mp hm'))
  exact hf

theorem FairAt.call (hfair : FairAt id mk b) (hnamed : NamedAsMarket mk c)
    (hx : (program id).execute c b=.ok b') : FairAt id mk b' := by
  have hother {keys : List Pubkey} (ht : Touched id keys b b') (hno : mk∉keys) :
      FairAt id mk b' := by
    intro howner m hm
    rw [ht.owners mk] at howner
    rw [ht.others mk hno] at hm
    exact hfair howner m hm
  cases execute_spec hx with
  | @opened mk' _ _ _ _ o =>
    by_cases hmk : mk=mk'
    · subst hmk
      exact o.fair hfair
    · exact hother o.touched (by simpa using hmk)
  | @changed mk' k _ _ x u =>
    by_cases hmk : mk=mk'
    · subst hmk
      exact fairAt_of_written u.market' u.effect.moves.fair
    have hk : mk≠k := by
      rintro rfl
      have hkey := hnamed u.effect.onPosition u.positionKey
      rw [u.marketKey] at hkey
      exact hmk (some.inj hkey).symm
    exact hother u.touched (by simp [hmk,hk])
  | @cranked mk' m _ r =>
    by_cases hmk : mk=mk'
    · subst hmk
      by_cases hslot : c.clock.slot.toNat≤ m.lastUpdateSlot.toNat
      · have hsame : (b' mk).data=(b mk).data := by
          rw [r.market',r.market,cranked,if_pos hslot]
        intro howner
        rw [r.touched.owners mk] at howner
        rw [hsame]
        exact hfair howner
      · refine fairAt_of_written r.market' ?_
        rw [cranked,if_neg hslot]
        exact accrued_fair
    · exact hother r.touched (by simpa using hmk)

theorem FairAt.step (hfair : FairAt id mk s.bank)
    (hstep : (program id).Step (fun _ => NamedAsMarket mk) s a t) : FairAt id mk t.bank := by
  cases hstep with
  | call _ hnamed hx => exact hfair.call hnamed hx
  | @outside _ _ _ hout =>
    by_cases howner : (s.bank mk).owner=id
    · obtain ⟨-,hdata,-⟩ := hout.owned howner
      intro _
      rw [hdata]
      exact hfair howner
    · exact fairAt_of_zeros fun howner' => (hout mk).2 howner howner'

/-- A call that recalculates the rates of the market: one on a position, or a crank that finds new
slots. -/
def Refreshes (id mk : Pubkey) (x : LogEntry Instruction) : Prop :=
  ∃ c,x.label=.call c ∧ c.key? 0=some mk ∧ (c.instruction.onPosition=true ∨
    c.instruction=.accrueInterest ∧ ∃ m,marketAt id x.pre.bank mk=some m ∧
      m.lastUpdateSlot.toNat<c.clock.slot.toNat)

/-- Whatever the rates were, they are fair once they are recalculated. -/
theorem Refreshes.fairAt (h : Refreshes id mk ⟨s,a,t⟩) (hstep : (program id).Step ok s a t) :
    FairAt id mk t.bank := by
  obtain ⟨c,rfl,hkey,hcase⟩ := h
  cases hstep with
  | call _ _ hx =>
    obtain hposition | ⟨hc,m,hm,hslot⟩ := hcase
    · cases execute_spec hx with
      | opened hc _ =>
        rw [hc] at hposition
        cases hposition
      | changed u =>
        obtain rfl := some.inj (u.marketKey.symm.trans hkey)
        exact fairAt_of_written u.market' u.effect.moves.fair
      | cranked hc _ =>
        rw [hc] at hposition
        cases hposition
    · obtain ⟨-,hdata,-⟩ := recordAt_eq_some.mp hm
      have r := execute_accrual hx hc hkey hdata
      refine fairAt_of_written r.market' ?_
      rw [cranked,if_neg (Nat.not_le.mpr hslot)]
      exact accrued_fair

end Rates

/-- In every run in which the account of a market is used as a market only, lenders are never
promised more than borrowers pay, once the program has set the rates: from a market on which the
inequality holds, or after any instruction that recalculates them, whatever the market was. -/
theorem lenders_not_overpromised {id mk : Pubkey} {s t : Ledger} {tr : Trace Instruction}
    (hrun : Run ((program id).Step fun _ => NamedAsMarket mk) s tr t)
    (hset : FairAt id mk s.bank ∨ ∃ x∈tr,Refreshes id mk x) {m : LendingMarket}
    (hm : marketAt id t.bank mk=some m) :
    m.depositRate.toNat*m.totalDeposits.toNat≤ m.borrowRate.toNat*m.totalBorrows.toNat := by
  have hfair : FairAt id mk t.bank := by
    refine hrun.traced (I := fun tr t => (FairAt id mk s.bank ∨ ∃ x∈tr,Refreshes id mk x) →
      FairAt id mk t.bank) ?_ ?_ hset
    · rintro (h | ⟨x,hx,-⟩)
      · exact h
      · cases hx
    · rintro tr t a u - ih hstep hset
      by_cases hlast : Refreshes id mk ⟨t,a,u⟩
      · exact hlast.fairAt hstep
      · refine (ih (hset.imp_right ?_)).step hstep
        rintro ⟨x,hx,hr⟩
        obtain hx | hx := mem_append.mp hx
        · exact ⟨x,hx,hr⟩
        · exact absurd (mem_singleton.mp hx ▸ hr) hlast
  obtain ⟨howner,hdata,-⟩ := recordAt_eq_some.mp hm
  exact hfair howner m ((marketCodec.tryFromSlice_eq_some).mpr hdata)

/-- A market whose rates were set by hand, at more than its borrowers pay. -/
def generousBank : Bank := fun k =>
  if k=3#256 then ⟨1000000#64,marketCodec.encode {sampleMarket with
    totalDeposits := 1000#64
    depositRate := 900#64},1#256⟩
  else sampleBank k

def generousCalls : List (Call Instruction) :=
  [onPair 3#256 6#256 2#256 (.deposit 1000000#64),onPair 3#256 6#256 2#256 (.borrow 800000#64)]

theorem loan_pays_lenders : ∃ tr t m,
    Run ((program 1#256).Step fun _ => NamedAsMarket 3#256) ⟨generousBank,⟨5#64,0#64⟩⟩ tr t ∧
      marketAt 1#256 t.bank 3#256=some m ∧ m.totalDeposits=1001000#64 ∧ 0< m.depositRate.toNat ∧
      m.depositRate.toNat*m.totalDeposits.toNat≤ m.borrowRate.toNat*m.totalBorrows.toNat := by
  obtain ⟨⟨tr,t⟩,hhistory,hset,m,hm,htotal,hrate⟩ : ∃ x,
      (program 1#256).history generousCalls ⟨generousBank,⟨5#64,0#64⟩⟩=some x ∧
      (∃ y∈x.1,∃ c∈generousCalls,y.label=.call c ∧ c.key? 0=some 3#256 ∧
        c.instruction.onPosition=true) ∧
      ∃ m,marketAt 1#256 x.2.bank 3#256=some m ∧ m.totalDeposits=1001000#64 ∧
        0< m.depositRate.toNat := by decide +kernel
  have hrun : Run ((program 1#256).Step fun _ => NamedAsMarket 3#256)
      ⟨generousBank,⟨5#64,0#64⟩⟩ tr t := by
    refine Program.history_run_calls hhistory fun c hc _ => ?_
    revert c
    unfold NamedAsMarket
    decide +kernel
  obtain ⟨y,hy,c,-,hlabel,hkey,hposition⟩ := hset
  exact ⟨tr,t,m,hrun,hm,htotal,hrate,
    lenders_not_overpromised hrun (.inr ⟨y,hy,c,hlabel,hkey,.inl hposition⟩) hm⟩

end PrismChain.SolLend
