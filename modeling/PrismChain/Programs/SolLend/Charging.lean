import PrismChain.Programs.SolLend.Totals
import Mathlib.Data.List.DropRight

namespace PrismChain.SolLend

open FixedWidth Option List Program

def rateAt (id mk : Pubkey) (b : Bank) : Nat :=
  (marketAt id b mk).elim 0 fun m => m.borrowRate.toNat

def charge (id mk : Pubkey) (x : LogEntry Instruction) : Nat :=
  rateAt id mk x.pre.bank*(x.post.clock.slot.toNat-x.pre.clock.slot.toNat)

def rateSlots (id mk : Pubkey) (tr : Trace Instruction) : Nat :=
  tr.foldl (fun sum x => if accruals id mk x=1 then 0 else sum+charge id mk x) 0

/-- The steps since the last accrual. -/
def sinceAccrual (id mk : Pubkey) (tr : Trace Instruction) : Trace Instruction :=
  tr.rtakeWhile fun x => decide (accruals id mk x=0)

def Apart (mk : Pubkey) (c : Call Instruction) : Prop :=
  c.instruction.onPosition=true → c.key? 1≠some mk

section Steps

variable {id mk : Pubkey} {s t : Ledger} {c : Call Instruction} {b : Bank} {m : LendingMarket}

theorem rateSlots_append_one (x : LogEntry Instruction) :
    rateSlots id mk (tr++[x])=if accruals id mk x=1 then 0 else
      rateSlots id mk tr+charge id mk x := by
  simp [rateSlots]

theorem Effect.slot (h : Effect mk data m i p x) : x.1.lastUpdateSlot=m.lastUpdateSlot := by
  cases h with
  | deposited hx =>
    simp only [SolLend.deposited,steps_ok] at hx
    obtain ⟨_,-,_,-,rfl⟩ := hx
    rfl
  | withdrawn _ hx =>
    simp only [SolLend.withdrawn,steps_ok] at hx
    obtain ⟨-,-,-,-,rfl⟩ := hx
    rfl
  | borrowed _ hx =>
    simp only [SolLend.borrowed,steps_ok] at hx
    obtain ⟨_,-,-,-,_,-,rfl⟩ := hx
    rfl
  | repaid _ hx =>
    simp only [SolLend.repaid,steps_ok] at hx
    obtain ⟨-,-,rfl⟩ := hx
    rfl
  | liquidated _ hx =>
    simp only [SolLend.liquidated,steps_ok] at hx
    obtain ⟨-,-,rfl⟩ := hx
    rfl

theorem cranked_slot (h : m.lastUpdateSlot.toNat<c.clock.slot.toNat) :
    (cranked m c.clock.slot).lastUpdateSlot=c.clock.slot := by
  rw [cranked,if_neg (Nat.not_le.mpr h)]
  rfl

theorem market_step (hm : marketAt id b mk=some m) (hapart : Apart mk c)
    (hx : (program id).execute c b=.ok b') : ∃ m',marketAt id b' mk=some m' ∧
      (m'.lastUpdateSlot=m.lastUpdateSlot ∨ c.instruction=.accrueInterest ∧ c.key? 0=some mk ∧
        m.lastUpdateSlot.toNat<c.clock.slot.toNat ∧ m'.lastUpdateSlot=c.clock.slot) := by
  obtain ⟨howner,hdata,hlive⟩ := recordAt_eq_some.mp hm
  have hother {keys : List Pubkey} (ht : Touched id keys b b') (hno : mk∉keys) :
      marketAt id b' mk=some m := by
    rw [← hm]
    exact recordAt_congr (ht.owners mk) (ht.others mk hno)
  cases execute_spec hx with
  | opened _ o =>
    exact ⟨m,hother o.touched (by simpa using o.other hm),.inl rfl⟩
  | @changed mk' k m1 p x w =>
    have hk : mk≠k := by
      rintro rfl
      exact hapart w.effect.onPosition w.positionKey
    by_cases hmk : mk=mk'
    · subst hmk
      obtain rfl := marketCodec.encode_inj (w.market.symm.trans hdata)
      refine ⟨x.1,?_,.inl w.effect.slot⟩
      unfold marketAt
      rw [recordAt_eq_some]
      exact ⟨(w.touched.owners mk).trans howner,w.market',w.effect.moves.market.trans hlive⟩
    · exact ⟨m,hother w.touched (by simp [hmk,hk]),.inl rfl⟩
  | @cranked mk' m1 hc r =>
    by_cases hmk : mk=mk'
    · subst hmk
      obtain rfl := marketCodec.encode_inj (r.market.symm.trans hdata)
      refine ⟨_,r.market_after howner,?_⟩
      by_cases hslot : c.clock.slot.toNat≤ m1.lastUpdateSlot.toNat
      · left
        rw [cranked,if_pos hslot]
      · right
        exact ⟨hc,r.marketKey,Nat.not_le.mp hslot,cranked_slot (Nat.not_le.mp hslot)⟩
    · exact ⟨m,hother r.touched (by simpa using hmk),.inl rfl⟩

def Standing (id mk : Pubkey) (t : Ledger) : Prop :=
  ∃ m,marketAt id t.bank mk=some m ∧ m.lastUpdateSlot.toNat≤t.clock.slot.toNat

/-- What the stored rate would be charged for the slots since the last accrual is at most `sum`. -/
def Metered (id mk : Pubkey) (sum : Nat) (t : Ledger) : Prop :=
  ∃ m,marketAt id t.bank mk=some m ∧ m.lastUpdateSlot.toNat≤t.clock.slot.toNat ∧
    m.borrowRate.toNat*(t.clock.slot.toNat-m.lastUpdateSlot.toNat)≤ sum

theorem outside_market (hout : Outside id b b') (hm : marketAt id b mk=some m) :
    marketAt id b' mk=some m := by
  obtain ⟨howner,-,-⟩ := recordAt_eq_some.mp hm
  obtain ⟨howner',hdata,-⟩ := hout.owned howner
  rw [← hm]
  exact recordAt_congr (howner'.trans howner.symm) hdata

theorem Metered.pass {sum : Nat} (hclock : t.clock.before clk) (hm : marketAt id t.bank mk=some m)
    (hle : m.lastUpdateSlot.toNat≤t.clock.slot.toNat)
    (hsum : m.borrowRate.toNat*(t.clock.slot.toNat-m.lastUpdateSlot.toNat)≤ sum)
    (hm' : marketAt id b' mk=some m') (hslot : m'.lastUpdateSlot=m.lastUpdateSlot)
    (hrate : m'.borrowRate.toNat≤ m.borrowRate.toNat) :
    Metered id mk (sum+rateAt id mk t.bank*(clk.slot.toNat-t.clock.slot.toNat)) ⟨b',clk⟩ := by
  have hbefore := hclock.1
  have hin : rateAt id mk t.bank=m.borrowRate.toNat := by rw [rateAt,hm,elim_some]
  refine ⟨m',hm',?_,?_⟩
  · rw [hslot]
    exact hle.trans hbefore
  dsimp only
  rw [hslot,hin]
  have hsplit : clk.slot.toNat-m.lastUpdateSlot.toNat=
      (t.clock.slot.toNat-m.lastUpdateSlot.toNat)+(clk.slot.toNat-t.clock.slot.toNat) := by omega
  calc m'.borrowRate.toNat*(clk.slot.toNat-m.lastUpdateSlot.toNat)
      ≤ m.borrowRate.toNat*(clk.slot.toNat-m.lastUpdateSlot.toNat) :=
        Nat.mul_le_mul_right _ hrate
    _ = m.borrowRate.toNat*(t.clock.slot.toNat-m.lastUpdateSlot.toNat)+
        m.borrowRate.toNat*(clk.slot.toNat-t.clock.slot.toNat) := by rw [hsplit,Nat.mul_add]
    _ ≤ sum+m.borrowRate.toNat*(clk.slot.toNat-t.clock.slot.toNat) :=
        Nat.add_le_add_right hsum _

theorem rateAt_of (hm : marketAt id b mk=some m) : rateAt id mk b=m.borrowRate.toNat := by
  rw [rateAt,hm,elim_some]

theorem accruals_ne_zero {x : LogEntry Instruction} (h : accruals id mk x≠0) :
    accruals id mk x=1 := by
  unfold accruals at h ⊢
  split at h
  · split_ifs at h ⊢
    · rfl
    · exact absurd rfl h
  · exact absurd rfl h

theorem Standing.step (hs : Standing id mk t) (hok : ∀ b c,ok b c → Apart mk c)
    (hstep : (program id).Step ok t a u) : Standing id mk u := by
  obtain ⟨m,hm,hle⟩ := hs
  cases hstep with
  | @outside b' _ hclock hout => exact ⟨m,outside_market hout hm,hle.trans hclock.1⟩
  | @call c b' hclock hcall hx =>
    obtain ⟨m',hm',hsame | ⟨-,-,-,hnow⟩⟩ := market_step hm (hok _ _ hcall) hx
    · exact ⟨m',hm',by rw [hsame]; exact hle.trans hclock.1⟩
    · exact ⟨m',hm',by rw [hnow]⟩

/-- An accrual starts a new count, whatever the rates were before. -/
theorem Metered.accrued (hs : Standing id mk t) (hstep : (program id).Step ok t a u)
    (hacc : accruals id mk ⟨t,a,u⟩=1) : Metered id mk 0 u := by
  obtain ⟨m,hm,-⟩ := hs
  cases hstep with
  | outside => cases hacc
  | @call c b' hclock hcall hx =>
    simp only [accruals,hm,any_some,decide_eq_true_eq,ite_eq_left_iff,zero_ne_one,
      imp_false,not_not] at hacc
    obtain ⟨howner,hdata,-⟩ := recordAt_eq_some.mp hm
    have hafter := (execute_accrual hx hacc.1 hacc.2.1 hdata).market_after howner
    have hnow := cranked_slot hacc.2.2
    refine ⟨_,hafter,?_,?_⟩
    · rw [hnow]
    · dsimp only
      rw [hnow,Nat.sub_self,Nat.mul_zero]

theorem Metered.step {sum : Nat} (hmeter : Metered id mk sum t)
    (hok : ∀ b c,ok b c → Apart mk c) (hstep : (program id).Step ok t a u)
    (hzero : accruals id mk ⟨t,a,u⟩=0) (hrate : rateAt id mk u.bank≤ rateAt id mk t.bank) :
    Metered id mk (sum+charge id mk ⟨t,a,u⟩) u := by
  obtain ⟨m,hm,hle,hsum⟩ := hmeter
  cases hstep with
  | outside hclock hout =>
    exact Metered.pass hclock hm hle hsum (outside_market hout hm) rfl (le_refl _)
  | @call c b' hclock hcall hx =>
    obtain ⟨m',hm',hslot⟩ := market_step hm (hok _ _ hcall) hx
    rw [rateAt_of hm,rateAt_of hm'] at hrate
    apply Metered.pass hclock hm hle hsum hm' _ hrate
    obtain hsame | ⟨hc,hkey,hlt,-⟩ := hslot
    · exact hsame
    · simp [accruals,hc,hkey,hm,hlt] at hzero

theorem sinceAccrual_append (h : accruals id mk x=0) :
    sinceAccrual id mk (tr++[x])=sinceAccrual id mk tr++[x] :=
  rtakeWhile_concat_pos (fun y => decide (accruals id mk y=0)) tr x (decide_eq_true h)

theorem metered_run (hok : ∀ b c,ok b c → Apart mk c)
    (hstart : ∃ m0,marketAt id s.bank mk=some m0 ∧ m0.lastUpdateSlot=s.clock.slot)
    (hrun : Run ((program id).Step ok) s tr t)
    (hrate : ∀ x∈sinceAccrual id mk tr,rateAt id mk x.post.bank≤ rateAt id mk x.pre.bank) :
    Metered id mk (rateSlots id mk tr) t := by
  refine (hrun.traced (I := fun tr t => Standing id mk t ∧ ((∀ x∈sinceAccrual id mk tr,
    rateAt id mk x.post.bank≤ rateAt id mk x.pre.bank) → Metered id mk (rateSlots id mk tr) t))
    ?_ ?_).2 hrate
  · obtain ⟨m0,hm0,hslot⟩ := hstart
    refine ⟨⟨m0,hm0,by rw [hslot]⟩,fun _ => ⟨m0,hm0,by rw [hslot],?_⟩⟩
    rw [hslot,Nat.sub_self,Nat.mul_zero]
    exact Nat.zero_le _
  · intro tr t a u _ ih hstep
    refine ⟨ih.1.step hok hstep,fun hrate => ?_⟩
    rw [rateSlots_append_one]
    by_cases hacc : accruals id mk ⟨t,a,u⟩=0
    · rw [if_neg (by omega)]
      rw [sinceAccrual_append hacc] at hrate
      have hlast := hrate ⟨t,a,u⟩ (mem_append_right _ (mem_singleton.mpr rfl))
      exact (ih.2 fun x hx => hrate x (mem_append_left _ hx)).step hok hstep hacc hlast
    · rw [if_pos (accruals_ne_zero hacc)]
      exact .accrued ih.1 hstep (accruals_ne_zero hacc)

theorem accrual_index (hc : c.instruction=.accrueInterest) (hkey : c.key? 0=some mk)
    (hm : marketAt id b mk=some m) (hslot : m.lastUpdateSlot.toNat<c.clock.slot.toNat)
    (helapsed : elapsed=c.clock.slot.toNat-m.lastUpdateSlot.toNat)
    (hproduct : m.cumulativeBorrowIndex.toNat*m.borrowRate.toNat*elapsed<2^64)
    (hindex : m.cumulativeBorrowIndex.toNat+
      m.cumulativeBorrowIndex.toNat*m.borrowRate.toNat*elapsed/accrualBase<2^64)
    (hx : (program id).execute c b=.ok b') : ∃ m',marketAt id b' mk=some m' ∧
      m'.cumulativeBorrowIndex.toNat=m.cumulativeBorrowIndex.toNat+
        m.cumulativeBorrowIndex.toNat*m.borrowRate.toNat*elapsed/accrualBase := by
  obtain ⟨howner,hdata,-⟩ := recordAt_eq_some.mp hm
  have r := execute_accrual hx hc hkey hdata
  refine ⟨_,r.market_after howner,?_⟩
  rw [cranked,if_neg (Nat.not_le.mpr hslot)]
  have hslots : (saturatingSub c.clock.slot m.lastUpdateSlot).toNat=elapsed := by
    rw [toNat_saturatingSub,helapsed]
  show (compoundIndex m.cumulativeBorrowIndex m.borrowRate
    (saturatingSub c.clock.slot m.lastUpdateSlot)).toNat=_
  rw [compoundIndex_exact,hslots]
  · rw [hslots]
    exact hproduct
  · rw [hslots]
    exact hindex

end Steps

/-- The index grows by no more than the rates in force allow when no instruction since the accrual
before has raised the rate: it is the stored rate that is charged for all of the time. -/
theorem charged_at_rate_in_force {id mk : Pubkey} {ok : Bank → Call Instruction → Prop}
    {s t : Ledger} {tr : Trace Instruction} {c : Call Instruction} {b' : Bank} {m : LendingMarket}
    {elapsed sum : Nat} (hok : ∀ b c,ok b c → Apart mk c)
    (hstart : ∃ m₀,marketAt id s.bank mk=some m₀ ∧ m₀.lastUpdateSlot=s.clock.slot)
    (hrun : Run ((program id).Step ok) s tr t)
    (hrate : ∀ x∈sinceAccrual id mk tr,rateAt id mk x.post.bank≤ rateAt id mk x.pre.bank)
    (hstep : (program id).Step ok t (.call c) ⟨b',c.clock⟩) (hc : c.instruction=.accrueInterest)
    (hkey : c.key? 0=some mk) (hm : marketAt id t.bank mk=some m)
    (hslot : m.lastUpdateSlot.toNat<c.clock.slot.toNat)
    (helapsed : elapsed=c.clock.slot.toNat-m.lastUpdateSlot.toNat)
    (hsum : sum=rateSlots id mk tr+charge id mk ⟨t,.call c,⟨b',c.clock⟩⟩)
    (hproduct : m.cumulativeBorrowIndex.toNat*m.borrowRate.toNat*elapsed<2^64)
    (hindex : m.cumulativeBorrowIndex.toNat+
      m.cumulativeBorrowIndex.toNat*m.borrowRate.toNat*elapsed/accrualBase<2^64) :
    ∃ m',marketAt id b' mk=some m' ∧ m'.cumulativeBorrowIndex.toNat≤
      m.cumulativeBorrowIndex.toNat+m.cumulativeBorrowIndex.toNat*sum/accrualBase := by
  cases hstep with
  | call hclock _ hx =>
    obtain ⟨m',hm',hgrown⟩ := accrual_index hc hkey hm hslot helapsed hproduct hindex hx
    refine ⟨m',hm',?_⟩
    rw [hgrown,hsum]
    obtain ⟨m₁,hm₁,_,hmetered⟩ := metered_run hok hstart hrun hrate
    obtain rfl := some.inj (hm₁.symm.trans hm)
    apply Nat.add_le_add_left
    apply Nat.div_le_div_right
    rw [Nat.mul_assoc]
    apply Nat.mul_le_mul_left
    have hbefore := hclock.1
    rw [charge,rateAt_of hm,helapsed]
    dsimp only
    have hsplit : c.clock.slot.toNat-m₁.lastUpdateSlot.toNat=
        (t.clock.slot.toNat-m₁.lastUpdateSlot.toNat)+
          (c.clock.slot.toNat-t.clock.slot.toNat) := by omega
    rw [hsplit,Nat.mul_add]
    exact Nat.add_le_add_right hmetered _

def lateAccrual : Call Instruction :=
  ⟨⟨20000005#64,0#64⟩,[⟨3#256,false,true⟩],.accrueInterest⟩

def quietCalls : List (Call Instruction) :=
  [⟨⟨5#64,0#64⟩,[⟨3#256,false,true⟩,⟨6#256,false,true⟩,⟨2#256,true,false⟩],.deposit 1000000#64⟩]

def lateLoanCalls : List (Call Instruction) :=
  quietCalls++[⟨⟨20000005#64,0#64⟩,[⟨3#256,false,true⟩,⟨6#256,false,true⟩,⟨2#256,true,false⟩],
    .borrow 800000#64⟩]

def steadyCalls : List (Call Instruction) :=
  let accounts : List AccountInfo := [⟨3#256,false,true⟩,⟨6#256,false,true⟩,⟨2#256,true,false⟩]
  [⟨⟨5#64,0#64⟩,accounts,.deposit 1000000#64⟩,⟨⟨5#64,0#64⟩,accounts,.borrow 800000#64⟩,
    ⟨⟨10000005#64,0#64⟩,[⟨3#256,false,true⟩],.accrueInterest⟩,
    ⟨⟨15000005#64,0#64⟩,accounts,.repay 100000#64⟩]

/-- The loan raises the rate before an accrual; after it the rate only falls. -/
theorem steady_rate_charged : ∃ tr t b' m m',
    Run ((program 1#256).Step fun _ => Apart 3#256) sampleStart tr t ∧
    (program 1#256).Step (fun _ => Apart 3#256) t (.call lateAccrual) ⟨b',lateAccrual.clock⟩ ∧
    marketAt 1#256 t.bank 3#256=some m ∧ marketAt 1#256 b' 3#256=some m' ∧
    (m.cumulativeBorrowIndex≠1000000000#64 ∧ 200< m.borrowRate.toNat) ∧
    m'.cumulativeBorrowIndex.toNat≤ m.cumulativeBorrowIndex.toNat+m.cumulativeBorrowIndex.toNat*
      (rateSlots 1#256 3#256 tr+charge 1#256 3#256 ⟨t,.call lateAccrual,⟨b',lateAccrual.clock⟩⟩)/
        accrualBase := by
  obtain ⟨⟨tr,t⟩,hhistory,hrate,hclock,hok,m,hm,hslot,hproduct,hindex,hgrown⟩ : ∃ x,
      (program 1#256).history steadyCalls sampleStart=some x ∧
      (∀ y∈sinceAccrual 1#256 3#256 x.1,
        rateAt 1#256 3#256 y.post.bank≤ rateAt 1#256 3#256 y.pre.bank) ∧
      x.2.clock.before lateAccrual.clock ∧
      ((program 1#256).execute lateAccrual x.2.bank).isOk=true ∧
      ∃ m,marketAt 1#256 x.2.bank 3#256=some m ∧ m.lastUpdateSlot.toNat<20000005 ∧
        m.cumulativeBorrowIndex.toNat*m.borrowRate.toNat*(20000005-m.lastUpdateSlot.toNat)<2^64 ∧
        m.cumulativeBorrowIndex.toNat+m.cumulativeBorrowIndex.toNat*m.borrowRate.toNat*
          (20000005-m.lastUpdateSlot.toNat)/accrualBase<2^64 ∧
        m.cumulativeBorrowIndex≠1000000000#64 ∧ 200< m.borrowRate.toNat := by decide +kernel
  have hapart : ∀ c∈lateAccrual::steadyCalls,Apart 3#256 c := by
    unfold Apart
    decide +kernel
  have hrun : Run ((program 1#256).Step fun _ => Apart 3#256) sampleStart tr t :=
    history_run_calls hhistory fun c hc _ => hapart c (mem_cons_of_mem _ hc)
  have hstep : (program 1#256).Step (fun _ => Apart 3#256) t (.call lateAccrual) ⟨_,_⟩ :=
    .call hclock (hapart _ mem_cons_self) (eq_ok_of_isOk t.bank hok)
  obtain ⟨m',hm',hle⟩ := charged_at_rate_in_force (fun _ _ h => h) ⟨sampleMarket,by decide +kernel,
    rfl⟩ hrun hrate hstep rfl rfl hm hslot rfl rfl hproduct hindex
  exact ⟨tr,t,_,m,m',hrun,hstep,hm,hm',hgrown,hle⟩

/-- A rate of 200 was in force all the time; the loan raises it to 600, which is then charged for
the whole quarter. -/
theorem late_loan_raises_past_rate : ∃ tr t b' m m',
    Run ((program 1#256).Step anyCall) sampleStart tr t ∧
    (program 1#256).Step anyCall t (.call lateAccrual) ⟨b',lateAccrual.clock⟩ ∧
    marketAt 1#256 t.bank 3#256=some m ∧ marketAt 1#256 b' 3#256=some m' ∧
    m.cumulativeBorrowIndex.toNat+m.cumulativeBorrowIndex.toNat*
      (rateSlots 1#256 3#256 tr+charge 1#256 3#256 ⟨t,.call lateAccrual,⟨b',lateAccrual.clock⟩⟩)/
        accrualBase< m'.cumulativeBorrowIndex.toNat := by
  obtain ⟨⟨tr,t⟩,hhistory,hclock,b',hx,m,hm,m',hm',hmore⟩ : ∃ x,
      (program 1#256).history lateLoanCalls sampleStart=some x ∧
      x.2.clock.before lateAccrual.clock ∧
      ∃ b',(program 1#256).execute lateAccrual x.2.bank=.ok b' ∧
      ∃ m,marketAt 1#256 x.2.bank 3#256=some m ∧ ∃ m',marketAt 1#256 b' 3#256=some m' ∧
        m.cumulativeBorrowIndex.toNat+m.cumulativeBorrowIndex.toNat*(rateSlots 1#256 3#256 x.1+
          charge 1#256 3#256 ⟨x.2,.call lateAccrual,⟨b',lateAccrual.clock⟩⟩)/accrualBase<
            m'.cumulativeBorrowIndex.toNat := by decide +kernel
  exact ⟨tr,t,b',m,m',history_anyCall hhistory,.call hclock trivial hx,hm,hm',hmore⟩

end PrismChain.SolLend
