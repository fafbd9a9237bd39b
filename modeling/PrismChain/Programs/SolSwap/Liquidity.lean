import PrismChain.Programs.SolSwap.Pricing
import PrismChain.Programs.SolSwap.Transition

namespace PrismChain.SolSwap

open FixedWidth Option Nat Program

def poolAt (id : Pubkey) (b : Bank) (k : Pubkey) : Option PoolState :=
  frontAt poolCodec PoolState.isInitialized id b k

def PoolState.reserves (p : PoolState) : Reserves :=
  ⟨p.tokenAReserve.toNat,p.tokenBReserve.toNat,p.lpSupply.toNat⟩

/-- What holds of every pool: the fees are a fraction and the shares are covered. -/
structure Sound (p : PoolState) : Prop where
  fee : p.feeNumerator.toNat≤p.feeDenominator.toNat
  denominator : p.feeDenominator≠0#64
  balanced : p.reserves.Balanced

section Simulation

variable {p p' : PoolState}

theorem lpTokens_change {lp : U64} (hs : Sound p)
    (hlp : calculateLpTokens x y p.tokenAReserve p.tokenBReserve p.lpSupply=.ok lp) :
    p.reserves.Change ⟨p.tokenAReserve.toNat+x.toNat,p.tokenBReserve.toNat+y.toNat,
      p.lpSupply.toNat+lp.toNat⟩ := by
  obtain ⟨hx,hy,hvalue,hpos⟩ := calculateLpTokens_ok hs.balanced hlp
  by_cases hn : p.lpSupply=0#64
  · have hmean := lpValue_mean (x := x) (y := y) hs.balanced
    rw [← hvalue] at hmean
    have hn' : p.lpSupply.toNat=0 := by rw [hn]; rfl
    have ha' : p.tokenAReserve.toNat=0 := hs.balanced.emptyA.mp hn'
    have hb' : p.tokenBReserve.toNat=0 := hs.balanced.emptyB.mp hn'
    rw [PoolState.reserves,ha',hb',hn',Nat.zero_add,Nat.zero_add,Nat.zero_add]
    exact .seed (toNat_pos.mpr hx) (toNat_pos.mpr hy) hpos hmean
  · obtain ⟨hA,hB⟩ :=
    lpValue_share (x := x) (y := y) (a := p.tokenAReserve) (b := p.tokenBReserve) hn
    rw [← hvalue] at hA hB
    exact .deposit (toNat_pos.mpr hn) hA hB

theorem deposited_change {min : U64} (hs : Sound p) (h : deposited p x y min=.ok p') :
    p.reserves.Change p'.reserves ∧ p'.feeNumerator=p.feeNumerator ∧
      p'.feeDenominator=p.feeDenominator ∧ p'.isInitialized=p.isInitialized := by
  simp only [deposited,steps_ok] at h
  obtain ⟨_,hlp,_,-,a,ha,b,hb,_,hsupply,rfl⟩ := h
  rw [checkedAdd_eq_some] at ha hb hsupply
  have hchange := lpTokens_change hs hlp
  rw [← ha,← hb,← hsupply] at hchange
  exact ⟨hchange,rfl,rfl,rfl⟩

theorem withdrawn_change (h : withdrawn p m minA minB=.ok p') :
    p.reserves.Change p'.reserves ∧ p'.feeNumerator=p.feeNumerator ∧
      p'.feeDenominator=p.feeDenominator ∧ p'.isInitialized=p.isInitialized := by
  simp only [withdrawn,steps_ok] at h
  obtain ⟨_,hm,⟨u,v⟩,hout,_,-,a,ha,b,hb,supply,hsupply,rfl⟩ := h
  obtain ⟨hzero,hu,hv⟩ := calculateWithdrawal_ok hm hout
  rw [checkedSub_eq_some] at ha hb hsupply
  dsimp only at ha hb
  refine ⟨?_,rfl,rfl,rfl⟩
  have hn : 0<p.lpSupply.toNat := (toNat_pos.mpr hzero).trans_le hm
  have ha' : a.toNat=p.tokenAReserve.toNat-u.toNat := by omega
  have hb' : b.toNat=p.tokenBReserve.toNat-v.toNat := by omega
  have hsupply' : supply.toNat=p.lpSupply.toNat-m.toNat := by omega
  simp only [PoolState.reserves,ha',hb',hsupply']
  refine .withdraw hn hm ?_ ?_ fun hall => ⟨?_,?_⟩
  · rw [hu]
    exact div_mul_le_self _ _
  · rw [hv]
    exact div_mul_le_self _ _
  · rw [hu,hall,Nat.mul_div_cancel_left _ hn]
  · rw [hv,hall,Nat.mul_div_cancel_left _ hn]

/-- What a swap that turned `p` into `p'` paid out. -/
def paidOut (direction : SwapDirection) (p p' : PoolState) : Nat :=
  (reservesFor p direction).2.toNat-(reservesFor p' direction).2.toNat

structure Traded (x : U64) (direction : SwapDirection) (p p' : PoolState) : Prop where
  fee : p'.feeNumerator=p.feeNumerator
  denominator : p'.feeDenominator=p.feeDenominator
  supply : p'.lpSupply=p.lpSupply
  live : p'.isInitialized=p.isInitialized
  nonempty : 0<(reservesFor p direction).1.toNat
  reserveIn : (reservesFor p' direction).1.toNat=(reservesFor p direction).1.toNat+x.toNat
  reserveOut :
    (reservesFor p' direction).2.toNat=(reservesFor p direction).2.toNat-paidOut direction p p'
  paid : paidOut direction p p'=outValue x.toNat (reservesFor p direction).1.toNat
    (reservesFor p direction).2.toNat p.feeNumerator.toNat p.feeDenominator.toNat
  trade : paidOut direction p p'<(reservesFor p direction).2.toNat ∧ paidOut direction p p'*
    ((reservesFor p direction).1.toNat+x.toNat)≤x.toNat*(reservesFor p direction).2.toNat

theorem swapped_traded {min : U64} (hfee : p.feeNumerator.toNat≤p.feeDenominator.toNat)
    (hden : p.feeDenominator≠0#64) (h : swapped p x min direction=.ok p') :
    Traded x direction p p' := by
  simp only [swapped,steps_ok] at h
  obtain ⟨⟨out,_⟩,hout,_,-,_,-,h⟩ := h
  obtain ⟨hin,hrest,hvalue⟩ := calculateSwapOutput_ok hfee hden hout
  have hin := toNat_pos.mpr hin
  have htrade := @outValue_trade x.toNat _ _ p.feeNumerator.toNat _ (toNat_pos.mpr hden) hin
    (toNat_pos.mpr hrest)
  rw [← hvalue] at htrade
  cases direction with
  | aToB =>
    simp only [exchanged,steps_ok,checkedAdd_eq_some,checkedSub_eq_some] at h
    obtain ⟨a,ha,b,hb,volume,-,rfl⟩ := h
    have hpaid : p.tokenBReserve.toNat-b.toNat=out.toNat := by omega
    rw [← hpaid] at hvalue htrade
    exact ⟨rfl,rfl,rfl,rfl,hin,ha,by simp only [paidOut,reservesFor]; omega,hvalue,htrade⟩
  | bToA =>
    simp only [exchanged,steps_ok,checkedAdd_eq_some,checkedSub_eq_some] at h
    obtain ⟨b,hb,a,ha,volume,-,rfl⟩ := h
    have hpaid : p.tokenAReserve.toNat-a.toNat=out.toNat := by omega
    rw [← hpaid] at hvalue htrade
    exact ⟨rfl,rfl,rfl,rfl,hin,hb,by simp only [paidOut,reservesFor]; omega,hvalue,htrade⟩

theorem swapped_change {min : U64} (hs : Sound p) (h : swapped p x min direction=.ok p') :
    p.reserves.Change p'.reserves ∧ p'.feeNumerator=p.feeNumerator ∧
      p'.feeDenominator=p.feeDenominator ∧ p'.isInitialized=p.isInitialized := by
  obtain ⟨hnum,hden,hsupply,hlive,-,hin,hout,-,htrade⟩ := swapped_traded hs.fee hs.denominator h
  refine ⟨?_,hnum,hden,hlive⟩
  generalize paidOut direction p p'=out at hout htrade
  cases direction with
  | aToB =>
    dsimp only [reservesFor] at hin hout
    rw [PoolState.reserves,PoolState.reserves,hin,hout,hsupply]
    exact .tradeA htrade.1 htrade.2
  | bToA =>
    dsimp only [reservesFor] at hin hout
    rw [PoolState.reserves,PoolState.reserves,hin,hout,hsupply]
    exact .tradeB htrade.1 htrade.2

theorem outcome_change (hs : Sound p) (h : outcome p i=.ok p') :
    p.reserves.Change p'.reserves ∧ p'.feeNumerator=p.feeNumerator ∧
      p'.feeDenominator=p.feeDenominator ∧ p'.isInitialized=p.isInitialized := by
  cases i with
  | initializePool => cases h
  | addLiquidity => exact deposited_change hs h
  | removeLiquidity => exact withdrawn_change h
  | swap => exact swapped_change hs h

theorem Sound.outcome (hs : Sound p) (h : outcome p i=.ok p') : Sound p' := by
  obtain ⟨hchange,hnum,hden,-⟩ := outcome_change hs h
  refine ⟨?_,?_,hchange.balanced hs.balanced⟩
  · rw [hnum,hden]
    exact hs.fee
  · rw [hden]
    exact hs.denominator

end Simulation

section Runs

variable {id k : Pubkey} {b b' : Bank} {c : Call Instruction} {p p' : PoolState}

theorem poolAt_eq_some : poolAt id b k=some p ↔ (b k).owner=id ∧
    (∃ rest,(b k).data=poolCodec.encode p++rest) ∧ p.isInitialized=true :=
  frontAt_eq_some

theorem poolAt_written (howner : (b k).owner=id) (hb : b'=b.setData k (poolCodec.encode p++rest))
    (hlive : p.isInitialized=true) : poolAt id b' k=some p := by
  subst hb
  exact poolAt_eq_some.mpr ⟨(b.setData_owner _ _ _).trans howner,⟨rest,b.setData_same _ _⟩,hlive⟩

theorem pool_call (hx : (program id).execute c b=.ok b') (hp : poolAt id b k=some p)
    (hs : Sound p) : ∃ p',poolAt id b' k=some p' ∧ (p'=p ∨ outcome p c.instruction=.ok p') := by
  obtain ⟨howner,⟨_,hdata⟩,hlive⟩ := poolAt_eq_some.mp hp
  have hother {k0 : Pubkey} {d : List Byte} (hne : k≠k0) (hb : b'=b.setData k0 d) :
      ∃ p',poolAt id b' k=some p' ∧ (p'=p ∨ outcome p c.instruction=.ok p') := by
    refine ⟨p,?_,Or.inl rfl⟩
    rw [hb]
    exact (frontAt_congr (b.setData_owner _ _ _) (b.setData_other _ hne)).trans hp
  cases execute_spec hx with
  | @initialized k0 q hi =>
    refine hother (fun he => ?_) hi.written
    -- the account of a pool in use does not begin with a zero
    have hunused := hi.unused
    rw [← he,hdata,pool_head,hlive] at hunused
    cases hunused
  | @updated k0 q q' hu =>
    by_cases hk : k=k0
    · subst hk
      obtain ⟨rfl,-⟩ := poolCodec.encode_append_inj (hdata.symm.trans hu.pool)
      exact ⟨q',poolAt_written howner hu.written
        ((outcome_change hs hu.result).2.2.2.trans hlive),Or.inr hu.result⟩
    · exact hother hk hu.written

theorem Sound.newPool {authority : Pubkey} {num : U64} (hden : den≠0#64)
    (hfee : num.toNat≤den.toNat) :
    Sound (newPool mintA mintB lpMint authority num den protocol) :=
  ⟨hfee,hden,⟨le_rfl,Iff.rfl,Iff.rfl⟩⟩

theorem initialize_sound (hc : c.instruction=.initializePool num den protocol)
    (hk : c.key? 0=some k)
    (hx : (program id).execute c b=.ok b') : ∃ p,poolAt id b' k=some p ∧ Sound p := by
  cases execute_spec hx with
  | @initialized k0 p hi =>
    cases hk.symm.trans hi.key
    obtain ⟨_,_,_,_,_,_,_,-,hden,hfee,-,rfl⟩ := hi.pool
    have howner : (b k).owner=id := by
      refine hi.owned.resolve_right fun hsame => ?_
      have hunused := hi.unused
      rw [← hsame,hi.written,b.setData_same,pool_head] at hunused
      exact absurd (some.inj hunused) (show (1#8 : Byte)≠0#8 by decide)
    exact ⟨_,poolAt_written howner hi.written rfl,.newPool hden hfee⟩
  | updated hu =>
    have hresult := hu.result
    rw [hc] at hresult
    cases hresult

theorem Sound.step {s : Ledger} (hp : poolAt id s.bank k=some p) (hs : Sound p)
    (hstep : (program id).Step anyCall s a t) : ∃ p',poolAt id t.bank k=some p' ∧ Sound p' := by
  cases hstep with
  | call _ _ hx =>
    obtain ⟨p',hp',hsame | hresult⟩ := pool_call hx hp hs
    · exact ⟨p',hp',by rw [hsame]; exact hs⟩
    · exact ⟨p',hp',hs.outcome hresult⟩
  | outside _ hout =>
    have howner := (poolAt_eq_some.mp hp).1
    obtain ⟨howner',hdata,-⟩ := hout.owned howner
    exact ⟨p,(frontAt_congr (howner'.trans howner.symm) hdata).trans hp,hs⟩

theorem Sound.run {s : Ledger} (hp : poolAt id s.bank k=some p) (hs : Sound p)
    (hrun : Run ((program id).Step anyCall) s tr t) : ∃ p',poolAt id t.bank k=some p' ∧ Sound p' :=
  hrun.invariant (I := fun t => ∃ p',poolAt id t.bank k=some p' ∧ Sound p') ⟨p,hp,hs⟩
    fun ⟨_,hp,hs⟩ hstep => Sound.step hp hs hstep

end Runs

/-- The price functions return exact numbers on the reserves of the pool: they divide by nothing
that is zero and cast nothing that does not fit. -/
structure Faultless (p : PoolState) : Prop where
  denominator : p.feeDenominator≠0#64
  divisors : p.lpSupply≠0#64 → p.tokenAReserve≠0#64 ∧ p.tokenBReserve≠0#64
  root : ∀ x y : U64,Nat.sqrt (x.toNat*y.toNat)<2^64 ∧
    ∃ r,sqrt (x.setWidth 128*y.setWidth 128)=.ok r ∧ r.toNat=Nat.sqrt (x.toNat*y.toNat)
  lpTokens : ∀ x y : U64,
    let lp := lpValue x.toNat y.toNat p.tokenAReserve.toNat p.tokenBReserve.toNat p.lpSupply.toNat
    lp<2^64 ∧ calculateLpTokens x y p.tokenAReserve p.tokenBReserve p.lpSupply=
      if x=0#64 ∨ y=0#64 then .error (err .zeroDeposit)
      else if lp=0 then .error (err .mathOverflow)
      else .ok (BitVec.ofNat 64 lp)
  withdrawal : ∀ m :
    U64,m.toNat≤p.lpSupply.toNat → let part (r : U64) := m.toNat*r.toNat/p.lpSupply.toNat
    part p.tokenAReserve<2^64 ∧ part p.tokenBReserve<2^64 ∧
      calculateWithdrawal m p.lpSupply p.tokenAReserve p.tokenBReserve=
        if m=0#64 then .error (err .zeroLpBurn)
        else .ok (BitVec.ofNat 64 (part p.tokenAReserve),BitVec.ofNat 64 (part p.tokenBReserve))
  swapOutput : ∀ (x : U64) (direction : SwapDirection),let rin := (reservesFor p direction).1
    let rout := (reservesFor p direction).2
    let effective := x.toNat*(p.feeDenominator.toNat-p.feeNumerator.toNat)
    let out := outValue x.toNat rin.toNat rout.toNat p.feeNumerator.toNat p.feeDenominator.toNat
    let fee := x.toNat*p.feeNumerator.toNat/p.feeDenominator.toNat
    out<2^64 ∧ fee<2^64 ∧ calculateSwapOutput x rin rout p.feeNumerator p.feeDenominator=
        if x=0#64 then .error (err .zeroSwapInput)
        else if rin=0#64 ∨ rout=0#64 then .error (err .emptyReserves)
        else if effective*rout.toNat<2^128 ∧ rin.toNat*p.feeDenominator.toNat+effective<2^128 then
          .ok (BitVec.ofNat 64 out,BitVec.ofNat 64 fee)
        else .error (err .mathOverflow)
  supply :
    ∀ {x y lp a b : U64},calculateLpTokens x y p.tokenAReserve p.tokenBReserve p.lpSupply=.ok lp →
    checkedAdd p.tokenAReserve x=some a → checkedAdd p.tokenBReserve y=some b →
    ∃ n,checkedAdd p.lpSupply lp=some n

theorem Sound.faultless (hs : Sound p) : Faultless p where
  denominator := hs.denominator
  divisors hn := by
    have hn' : p.lpSupply.toNat≠0 := toNat_ne_zero.mpr hn
    exact ⟨toNat_ne_zero.mp fun h => hn' (hs.balanced.emptyA.mpr h),
      toNat_ne_zero.mp fun h => hn' (hs.balanced.emptyB.mpr h)⟩
  root x y := by
    obtain ⟨product,hmul,hproduct⟩ := checkedMul_wide x y
    have heq : x.setWidth 128*y.setWidth 128=product := by
      unfold checkedMul at hmul
      split at hmul
      · exact some.inj hmul
      · cases hmul
    have hle : product.toNat≤(2^64-1)*(2^64-1) := by
      rw [hproduct]
      exact Nat.mul_le_mul (le_sub_one_of_lt x.isLt) (le_sub_one_of_lt y.isLt)
    rw [heq,← hproduct]
    obtain ⟨hlt,r,_,hr,hroot,-⟩ := sqrt_spec (hle.trans_lt (by decide))
    exact ⟨hlt,r,hr,hroot⟩
  lpTokens x y := calculateLpTokens_spec hs.balanced
  withdrawal m hm := calculateWithdrawal_spec hm
  swapOutput x direction := calculateSwapOutput_spec hs.fee hs.denominator
  supply {x y lp a b} hlp ha hb := by
    have hsquare := ((lpTokens_change hs hlp).balanced hs.balanced).square
    rw [checkedAdd_eq_some] at ha hb
    rw [← ha,← hb] at hsquare
    exact ⟨_,if_pos (lt_of_square hsquare)⟩

/-- In every pool the shares are at most the geometric mean of the reserves and none of the three
is empty alone, and that is why no price computation goes wrong. -/
theorem pool_balanced {id k : Pubkey} {s₀ t : Ledger} {c₀ : Call Instruction} {b₀ : Bank}
    {num den protocol : U64} {tr : Trace Instruction}
    (hc₀ : c₀.instruction=.initializePool num den protocol) (hk : c₀.key? 0=some k)
    (hx₀ : (program id).execute c₀ s₀.bank=.ok b₀)
    (hrun : Run ((program id).Step anyCall) ⟨b₀,c₀.clock⟩ tr t) :
    ∃ p,poolAt id t.bank k=some p ∧ p.lpSupply.toNat^2≤p.tokenAReserve.toNat*p.tokenBReserve.toNat ∧
      (p.lpSupply=0#64 ↔ p.tokenAReserve=0#64) ∧ (p.tokenAReserve=0#64 ↔ p.tokenBReserve=0#64) ∧
      Faultless p := by
  obtain ⟨_,hp₀,hs₀⟩ := initialize_sound hc₀ hk hx₀
  obtain ⟨p,hp,hs⟩ := Sound.run (s := ⟨b₀,c₀.clock⟩) hp₀ hs₀ hrun
  obtain ⟨hsquare,hA,hB⟩ := hs.balanced
  have hzero (v : U64) : v=0#64 ↔ v.toNat=0 := by
    rw [← not_iff_not]
    exact toNat_ne_zero.symm
  refine ⟨p,hp,?_,?_,?_,hs.faultless⟩
  · rw [pow_two]
    exact hsquare
  · rw [hzero,hzero]
    exact hA
  · rw [hzero,hzero]
    exact hA.symm.trans hB

def genesis : Ledger where
  bank k :=
    if k=5#256 then ⟨2352480#64,List.replicate poolLen 0#8,1#256⟩ else ⟨0#64,[],systemProgram⟩
  clock := ⟨1#64,1000#64⟩

def sampleAccounts : List AccountInfo :=
  [⟨5#256,false,true⟩,⟨6#256,false,false⟩,⟨7#256,false,false⟩,⟨8#256,false,false⟩,
    ⟨9#256,false,false⟩,⟨10#256,false,false⟩,⟨2#256,true,false⟩,⟨2#256,true,false⟩,
    ⟨11#256,false,false⟩,⟨12#256,false,false⟩]

def sampleCall (i : Instruction) : Call Instruction := ⟨⟨2#64,1000#64⟩,sampleAccounts,i⟩

def initCall : Call Instruction := sampleCall (.initializePool 25#64 10000#64 5#64)

def initBank : Bank := (((program 1#256).execute initCall genesis.bank).toOption).getD genesis.bank

theorem init_executes : (program 1#256).execute initCall genesis.bank=.ok initBank :=
  eq_ok_of_isOk genesis.bank (by decide +kernel)

def tradeCalls : List (Call Instruction) :=
  [sampleCall (.addLiquidity 1000000#64 4000000#64 1#64),
    sampleCall (.swap 50000#64 1#64 .aToB),sampleCall (.removeLiquidity 300000#64 1#64 1#64)]

theorem pool_balanced_after_trades : ∃ tr t p,
    Run ((program 1#256).Step anyCall) ⟨initBank,initCall.clock⟩ tr t ∧
      poolAt 1#256 t.bank 5#256=some p ∧ p.lpSupply=1700000#64 ∧
      p.lpSupply.toNat^2≤p.tokenAReserve.toNat*p.tokenBReserve.toNat ∧ Faultless p := by
  obtain ⟨⟨tr,t⟩,hhistory,p,hp,hsupply⟩ :
      ∃ x,(program 1#256).history tradeCalls ⟨initBank,initCall.clock⟩=some x ∧
      ∃ p,poolAt 1#256 x.2.bank 5#256=some p ∧ p.lpSupply=1700000#64 := by decide +kernel
  have hrun := history_anyCall hhistory
  obtain ⟨q,hq,hsquare,-,-,hfaultless⟩ := pool_balanced rfl rfl init_executes hrun
  cases hp.symm.trans hq
  exact ⟨tr,t,p,hrun,hp,hsupply,hsquare,hfaultless⟩

/-- No accepted instruction lowers what a share stands for. -/
theorem shares_not_diluted {id k : Pubkey} {s₀ t : Ledger} {c₀ c : Call Instruction} {b₀ b' : Bank}
    {num den protocol : U64} {tr : Trace Instruction}
    (hc₀ : c₀.instruction=.initializePool num den protocol) (hk : c₀.key? 0=some k)
    (hx₀ : (program id).execute c₀ s₀.bank=.ok b₀)
    (hrun : Run ((program id).Step anyCall) ⟨b₀,c₀.clock⟩ tr t)
    (hx : (program id).execute c t.bank=.ok b') :
    ∃ p p',poolAt id t.bank k=some p ∧ poolAt id b' k=some p' ∧
      (0<p.lpSupply.toNat → 0<p'.lpSupply.toNat →
        p.tokenAReserve.toNat*p.tokenBReserve.toNat*p'.lpSupply.toNat^2≤
          p'.tokenAReserve.toNat*p'.tokenBReserve.toNat*p.lpSupply.toNat^2) := by
  obtain ⟨_,hp₀,hs₀⟩ := initialize_sound hc₀ hk hx₀
  obtain ⟨p,hp,hs⟩ := Sound.run (s := ⟨b₀,c₀.clock⟩) hp₀ hs₀ hrun
  obtain ⟨p',hp',hcase⟩ := pool_call hx hp hs
  refine ⟨p,p',hp,hp',fun _ _ => ?_⟩
  rw [pow_two,pow_two]
  obtain rfl | hresult := hcase
  · exact le_rfl
  · exact (outcome_change hs hresult).1.notDiluted

theorem swap_does_not_dilute : ∃ tr t b' p p',
    Run ((program 1#256).Step anyCall) ⟨initBank,initCall.clock⟩ tr t ∧
      (program 1#256).execute (sampleCall (.swap 70000#64 1#64 .bToA)) t.bank=.ok b' ∧
      poolAt 1#256 t.bank 5#256=some p ∧ poolAt 1#256 b' 5#256=some p' ∧
      p.lpSupply=1700000#64 ∧ p'.lpSupply=1700000#64 ∧ p'.tokenBReserve≠p.tokenBReserve ∧
      p.tokenAReserve.toNat*p.tokenBReserve.toNat*p'.lpSupply.toNat^2≤
        p'.tokenAReserve.toNat*p'.tokenBReserve.toNat*p.lpSupply.toNat^2 := by
  obtain ⟨⟨tr,t⟩,hhistory,b',hx,p,hp,p',hp',hsupply,hsupply',hmoved⟩ :
      ∃ x,(program 1#256).history tradeCalls ⟨initBank,initCall.clock⟩=some x ∧
      ∃ b',(program 1#256).execute (sampleCall (.swap 70000#64 1#64 .bToA)) x.2.bank=.ok b' ∧
      ∃ p,poolAt 1#256 x.2.bank 5#256=some p ∧ ∃ p',poolAt 1#256 b' 5#256=some p' ∧
      p.lpSupply=1700000#64 ∧ p'.lpSupply=1700000#64 ∧ p'.tokenBReserve≠p.tokenBReserve := by
    decide +kernel
  have hrun := history_anyCall hhistory
  obtain ⟨q,q',hq,hq',hkept⟩ := shares_not_diluted rfl rfl init_executes hrun hx
  cases hp.symm.trans hq
  cases hp'.symm.trans hq'
  refine ⟨tr,t,b',p,p',hrun,hx,hp,hp',hsupply,hsupply',hmoved,hkept ?_ ?_⟩
  · rw [hsupply]
    decide
  · rw [hsupply']
    decide

end PrismChain.SolSwap
