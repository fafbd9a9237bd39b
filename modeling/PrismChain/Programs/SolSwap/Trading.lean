import PrismChain.Programs.SolSwap.Liquidity

namespace PrismChain.SolSwap

open FixedWidth Option BitVec

def SwapDirection.reverse : SwapDirection → SwapDirection
  | .aToB => .bToA
  | .bToA => .aToB

theorem reservesFor_reverse (p : PoolState) (direction : SwapDirection) :
    reservesFor p direction.reverse=((reservesFor p direction).2,(reservesFor p direction).1) := by
  cases direction <;> rfl

section Trades

variable {a b x y out back k den : Nat}

/-- Against the reserves that a trade has left, part of its output buys back no more than went in.
-/
theorem round_trip (hout : out<b) (hpaid : out*(a+x)≤x*b) (hy : y≤out)
    (hback : back*(b-out+y)≤y*(a+x)) : back≤x := by
  obtain ⟨r,rfl⟩ := Nat.exists_eq_add_of_lt hout
  have hrest : out+r+1-out=r+1 := by omega
  rw [hrest] at hback
  refine Nat.le_of_mul_le_mul_right (hback.trans ?_) (show 0< r+1+y by omega)
  have hya := Nat.mul_le_mul_right a hy
  nlinarith

/-- A trade in two parts pays no more than the whole: the fee on the first part is in the reserves
when the second part is traded. -/
theorem split_trade {o1 o2 : Nat} (hk : k≤den) (ho : o1≤b) (h1 : o1*(a*den+x*k)≤x*k*b)
    (h2 : o2*((a+x)*den+y*k)≤y*k*(b-o1)) : (o1+o2)*(a*den+(x+y)*k)≤(x+y)*k*b := by
  obtain ⟨r,rfl⟩ := Nat.exists_eq_add_of_le ho
  rw [Nat.add_sub_cancel_left] at h2
  have hkept : o2*(x*k)≤o2*(x*den) := Nat.mul_le_mul_left _ (Nat.mul_le_mul_left _ hk)
  nlinarith

end Trades

/-- Neither swapping back nor swapping in two parts beats the pool. -/
theorem no_trading_profit {p p₁ : PoolState} {x min : U64} {direction : SwapDirection}
    (hfee : p.feeNumerator.toNat≤p.feeDenominator.toNat) (hden : 0<p.feeDenominator.toNat)
    (hx : swapped p x min direction=.ok p₁) :
    (∀ {y min' : U64} {p₂ : PoolState},y.toNat≤paidOut direction p p₁ →
      swapped p₁ y min' direction.reverse=.ok p₂ → paidOut direction.reverse p₁ p₂≤x.toNat) ∧
    ∀ {y min' total min'' : U64} {p₂ q : PoolState},swapped p₁ y min' direction=.ok p₂ →
      checkedAdd x y=some total → swapped p total min'' direction=.ok q →
        paidOut direction p p₁+paidOut direction p₁ p₂≤paidOut direction p q := by
  have hden' := toNat_pos.mp hden
  have h₁ := swapped_traded hfee hden' hx
  have hfee₁ : p₁.feeNumerator.toNat≤p₁.feeDenominator.toNat := by rwa [h₁.fee,h₁.denominator]
  have hden₁ : p₁.feeDenominator≠0#64 := by rwa [h₁.denominator]
  refine ⟨fun {y min' p₂} hy hback => ?_,fun {y min' total min'' p₂ q} hsecond htotal hwhole => ?_⟩
  · have hback := (swapped_traded hfee₁ hden₁ hback).trade.2
    rw [reservesFor_reverse,h₁.reserveIn,h₁.reserveOut] at hback
    exact round_trip h₁.trade.1 h₁.trade.2 hy hback
  · have hq := swapped_traded hfee hden' hwhole
    have hfirst := Nat.mul_le_of_le_div _ _ _ h₁.paid.le
    have hsecond := Nat.mul_le_of_le_div _ _ _ (swapped_traded hfee₁ hden₁ hsecond).paid.le
    rw [h₁.fee,h₁.denominator,h₁.reserveIn,h₁.reserveOut] at hsecond
    rw [hq.paid,outValue,Nat.le_div_iff_mul_le
      (Nat.add_pos_left (Nat.mul_pos h₁.nonempty hden) _),checkedAdd_eq_some.mp htotal]
    exact split_trade (Nat.sub_le _ _) h₁.trade.1.le hfirst hsecond

/-- A pool of one million against four million. -/
def tradePool : PoolState :=
  {newPool 6#256 7#256 8#256 2#256 25#64 10000#64 5#64 with
    tokenAReserve := 1000000#64, tokenBReserve := 4000000#64, lpSupply := 2000000#64}

theorem fifty_thousand_traded : ∃ p₁ p₂ p₃ q,swapped tradePool 50000#64 0#64 .aToB=.ok p₁ ∧
    swapped p₁ 190000#64 0#64 .bToA=.ok p₂ ∧ swapped p₁ 20000#64 0#64 .aToB=.ok p₃ ∧
    swapped tradePool 70000#64 0#64 .aToB=.ok q ∧ paidOut .bToA p₁ p₂≤50000 ∧
    paidOut .aToB tradePool p₁+paidOut .aToB p₁ p₃≤paidOut .aToB tradePool q := by
  have h₁ :=
    eq_ok_of_isOk (x := swapped tradePool 50000#64 0#64 .aToB) tradePool (by decide +kernel)
  have h₂ := eq_ok_of_isOk (x := swapped ((swapped tradePool 50000#64 0#64 .aToB).toOption.getD
    tradePool) 190000#64 0#64 .bToA) tradePool (by decide +kernel)
  have h₃ := eq_ok_of_isOk (x := swapped ((swapped tradePool 50000#64 0#64 .aToB).toOption.getD
    tradePool) 20000#64 0#64 .aToB) tradePool (by decide +kernel)
  have hq :=
    eq_ok_of_isOk (x := swapped tradePool 70000#64 0#64 .aToB) tradePool (by decide +kernel)
  obtain ⟨hback,hsplit⟩ := no_trading_profit (by decide) (by decide) h₁
  exact ⟨_,_,_,_,h₁,h₂,h₃,hq,hback (by decide +kernel) h₂,hsplit h₃ (by decide) hq⟩

section RoundTrip

variable {p p' : PoolState} {min m : U64}

/-- What a deposit adds, and what the shares for it are worth. -/
theorem deposited_spec (hs : Sound p) (h : deposited p x y min=.ok p') :
    ∃ lp : U64,0<lp.toNat ∧ p'.lpSupply.toNat=p.lpSupply.toNat+lp.toNat ∧
      p'.tokenAReserve.toNat=p.tokenAReserve.toNat+x.toNat ∧
      p'.tokenBReserve.toNat=p.tokenBReserve.toNat+y.toNat ∧
      lp.toNat*p.tokenAReserve.toNat≤x.toNat*p.lpSupply.toNat ∧
      lp.toNat*p.tokenBReserve.toNat≤y.toNat*p.lpSupply.toNat := by
  simp only [deposited,steps_ok,checkedAdd_eq_some] at h
  obtain ⟨lp,hlp,_,-,a,ha,b,hb,_,hsupply,rfl⟩ := h
  obtain ⟨-,-,hvalue,hpos⟩ := calculateLpTokens_ok hs.balanced hlp
  refine ⟨lp,hpos,hsupply,ha,hb,?_⟩
  by_cases hn : p.lpSupply=0#64
  · have hn' : p.lpSupply.toNat=0 := by rw [hn]; rfl
    have ha' : p.tokenAReserve.toNat=0 := hs.balanced.emptyA.mp hn'
    have hb' : p.tokenBReserve.toNat=0 := hs.balanced.emptyB.mp hn'
    rw [ha',hb',Nat.mul_zero]
    exact ⟨Nat.zero_le _,Nat.zero_le _⟩
  · rw [hvalue]
    exact lpValue_share hn

/-- A withdrawal without minimums is accepted for any number of shares there are. -/
theorem withdrawn_ok (hm : m.toNat≤p.lpSupply.toNat) (hpos : 0< m.toNat) :
    ∃ p',withdrawn p m 0#64 0#64=.ok p' ∧ p.tokenAReserve.toNat-p'.tokenAReserve.toNat=
        m.toNat*p.tokenAReserve.toNat/p.lpSupply.toNat ∧
      p.tokenBReserve.toNat-p'.tokenBReserve.toNat=
        m.toNat*p.tokenBReserve.toNat/p.lpSupply.toNat := by
  obtain ⟨hA,hB,hspec⟩ := calculateWithdrawal_spec (a := p.tokenAReserve) (b := p.tokenBReserve) hm
  rw [if_neg (toNat_pos.mp hpos)] at hspec
  have hpart (r : U64) : m.toNat*r.toNat/p.lpSupply.toNat≤ r.toNat :=
    Nat.div_le_of_le_mul (Nat.mul_le_mul_right _ hm)
  obtain ⟨u,hu⟩ := exists_toNat hA
  obtain ⟨v,hv⟩ := exists_toNat hB
  rw [← hu,← hv,ofNat_toNat,ofNat_toNat,setWidth_eq,setWidth_eq] at hspec
  have hleA := hpart p.tokenAReserve
  have hleB := hpart p.tokenBReserve
  rw [← hu] at hleA ⊢
  rw [← hv] at hleB ⊢
  simp only [withdrawn,require_pos hm,ok_bind,hspec,checkedSub_of_le hleA,checkedSub_of_le hleB,
    checkedSub_of_le hm,okOr_some]
  rw [require_pos (by simp)]
  refine ⟨_,rfl,?_,?_⟩
  · dsimp only
    rw [toNat_sub_of_le (le_def.mpr hleA)]
    omega
  · dsimp only
    rw [toNat_sub_of_le (le_def.mpr hleB)]
    omega

end RoundTrip

/-- Shares that were just bought are worth no more than was paid for them, and the first ones
exactly that. -/
theorem liquidity_round_trip {id k : Pubkey} {s₀ t : Ledger} {c₀ : Call Instruction} {b₀ : Bank}
    {num den protocol x y min : U64} {tr : Trace Instruction} {p p' : PoolState}
    (hc₀ : c₀.instruction=.initializePool num den protocol) (hk₀ : c₀.key? 0=some k)
    (hx₀ : (program id).execute c₀ s₀.bank=.ok b₀)
    (hrun : Run ((program id).Step Program.anyCall) ⟨b₀,c₀.clock⟩ tr t)
    (hp : poolAt id t.bank k=some p) (hadd : outcome p (.addLiquidity x y min)=.ok p') :
    ∃ lp p'',p'.lpSupply.toNat=p.lpSupply.toNat+lp.toNat ∧
      outcome p' (.removeLiquidity lp 0#64 0#64)=.ok p'' ∧
      p'.tokenAReserve.toNat-p''.tokenAReserve.toNat≤x.toNat ∧
      p'.tokenBReserve.toNat-p''.tokenBReserve.toNat≤y.toNat ∧
      (p.lpSupply=0#64 → p'.tokenAReserve.toNat-p''.tokenAReserve.toNat=x.toNat ∧
        p'.tokenBReserve.toNat-p''.tokenBReserve.toNat=y.toNat) := by
  obtain ⟨_,hp₀,hs₀⟩ := initialize_sound hc₀ hk₀ hx₀
  obtain ⟨q,hq,hs⟩ := Sound.run (s := ⟨b₀,c₀.clock⟩) hp₀ hs₀ hrun
  cases hp.symm.trans hq
  obtain ⟨lp,hpos,hsupply,ha,hb,hA,hB⟩ := deposited_spec hs hadd
  obtain ⟨p'',hremove,houtA,houtB⟩ := withdrawn_ok (p := p') (m := lp) (by omega) hpos
  refine ⟨lp,p'',hsupply,hremove,?_,?_,fun hempty => ?_⟩
  · rw [houtA,hsupply,ha]
    refine Nat.div_le_of_le_mul ?_
    linarith only [hA]
  · rw [houtB,hsupply,hb]
    refine Nat.div_le_of_le_mul ?_
    linarith only [hB]
  · have hn : p.lpSupply.toNat=0 := by rw [hempty]; rfl
    have ha' : p.tokenAReserve.toNat=0 := hs.balanced.emptyA.mp hn
    have hb' : p.tokenBReserve.toNat=0 := hs.balanced.emptyB.mp hn
    rw [houtA,houtB,hsupply,ha,hb,hn,ha',hb',Nat.zero_add,Nat.zero_add,Nat.zero_add,
      Nat.mul_div_cancel_left _ hpos,Nat.mul_div_cancel_left _ hpos]
    exact ⟨rfl,rfl⟩

/-- The ledger in which the pool has been opened. -/
def openLedger : Ledger := ⟨initBank,initCall.clock⟩

/-- The first deposit comes back as it was. -/
theorem first_deposit_withdrawn : ∃ p p' lp p'',poolAt 1#256 openLedger.bank 5#256=some p ∧
    outcome p (.addLiquidity 1000000#64 4000000#64 1#64)=.ok p' ∧
    outcome p' (.removeLiquidity lp 0#64 0#64)=.ok p'' ∧
    p'.tokenAReserve.toNat-p''.tokenAReserve.toNat=1000000 ∧
    p'.tokenBReserve.toNat-p''.tokenBReserve.toNat=4000000 := by
  obtain ⟨p,hp,hempty,p',hadd⟩ : ∃ p,poolAt 1#256 openLedger.bank 5#256=some p ∧ p.lpSupply=0#64 ∧
      ∃ p',outcome p (.addLiquidity 1000000#64 4000000#64 1#64)=.ok p' ∧ True := by decide +kernel
  have hrun : Run ((program 1#256).Step Program.anyCall) ⟨initBank,initCall.clock⟩ [] openLedger :=
    .start
  obtain ⟨lp,p'',-,hremove,-,-,hfirst⟩ := liquidity_round_trip rfl rfl init_executes hrun hp hadd.1
  exact ⟨p,p',lp,p'',hp,hadd.1,hremove,hfirst hempty⟩

end PrismChain.SolSwap
