import PrismChain.Programs.Staking.Positions

namespace PrismChain.Staking

open FixedWidth Option Program

def StakeAccount.Backed (s : StakeAccount) : Prop := s.stPrismMinted.toNat≤ s.stakedAmount.toNat

/-- Instructions that take no stake out from under the tokens minted on it. The handlers of
`Unstake` and `Slash` do not look at those tokens at all. -/
structure KeepsBacking (e : Env) (b : Bank) (c : Call Instruction) : Prop where
  pool : PoolPassed e b c
  token : c.instruction.callsToken=true → ∀ sk∈c.key? 1,(b sk).owner=e.programId
  unstake : ∀ {amount},c.instruction=.unstake amount → ∀ sk∈c.key? 1,∀ s∈stakeAt e b sk,
    s.stPrismMinted.toNat+amount.toNat≤ s.stakedAmount.toNat
  slash : ∀ {amount},c.instruction=.slash amount → ∀ sk∈c.key? 1,∀ s∈stakeAt e b sk,
    ∀ p,(b (poolPda e)).data=poolCodec.encode p →
      s.stPrismMinted.toNat+uncovered amount s p≤ s.stakedAmount.toNat

section Steps

variable {s : StakeAccount} {p : StakingPool}

theorem Reposition.backed (hr : Reposition i s s') (hs : s.Backed) : s'.Backed := by
  unfold StakeAccount.Backed at hs ⊢
  cases hr with
  | delegate => exact hs
  | toggle => exact hs
  | mintNothing => exact hs
  | mint hmintable hminted =>
    have h1 := checkedSub_eq_some.mp hmintable
    have h2 := checkedAdd_eq_some.mp hminted
    dsimp only
    omega
  | burn hminted =>
    have h := checkedSub_eq_some.mp hminted
    dsimp only
    omega

theorem slash_taken {amount : U64} (hactual : checkedSub (umin amount s.stakedAmount)
      (umin (umin amount s.stakedAmount) p.insuranceBalance)=some actual) :
    actual.toNat=uncovered amount s p := by
  have h := checkedSub_eq_some.mp hactual
  simp only [toNat_umin] at h
  unfold uncovered
  omega

theorem Effect.backed (he : Effect now i s p s' p' out claimed) (hs : s.Backed)
    (hunstake : ∀ {amount},i=.unstake amount →
    s.stPrismMinted.toNat+amount.toNat≤ s.stakedAmount.toNat)
    (hslash : ∀ {amount},i=.slash amount →
      s.stPrismMinted.toNat+uncovered amount s p≤ s.stakedAmount.toNat) : s'.Backed := by
  unfold StakeAccount.Backed at hs ⊢
  cases he with
  | topUp _ hstaked =>
    have h := checkedAdd_eq_some.mp hstaked
    dsimp only
    omega
  | unstake _ _ _ hstaked =>
    have h := checkedSub_eq_some.mp hstaked
    have hroom := hunstake rfl
    dsimp only
    omega
  | compound _ _ _ _ _ _ hstaked =>
    have h := checkedAdd_eq_some.mp hstaked
    dsimp only
    omega
  | payout => exact hs
  | slash hactual _ hstaked =>
    have h := checkedSub_eq_some.mp hstaked
    have hroom := hslash rfl
    rw [← slash_taken hactual] at hroom
    dsimp only
    omega

end Steps

def AllBacked (e : Env) (b : Bank) : Prop := ∀ k s,stakeAt e b k=some s → s.Backed

theorem AllBacked.call {e : Env} {c : Call Instruction} {b b' : Bank} (hall : AllBacked e b)
    (hok : KeepsBacking e b c) (hx : (program e).execute c b=.ok b') : AllBacked e b' := by
  intro k s hs
  cases moved_of_execute (k := k) hx fun hcalls hkey => hok.token hcalls k hkey with
  | same hsame => exact hall k s (hsame.symm.trans hs)
  | opened _ _ _ hsome =>
    cases hsome.symm.trans hs
    exact Nat.zero_le _
  | effect hkey hbefore hafter hpk hpool heffect =>
    cases hafter.symm.trans hs
    rw [hok.pool _ hpk] at hpool
    exact heffect.backed (hall k _ hbefore) (fun hi => hok.unstake hi k hkey _ hbefore)
      fun hi => hok.slash hi k hkey _ hbefore _ hpool
  | reposition hbefore hafter hchange =>
    cases hafter.symm.trans hs
    exact hchange.backed (hall k _ hbefore)

theorem AllBacked.step {e : Env} {s : Ledger} (hall : AllBacked e s.bank)
    (hstep : (program e).Step (KeepsBacking e) s a t) : AllBacked e t.bank := by
  cases hstep with
  | call _ hok hx => exact hall.call hok hx
  | outside _ hout =>
    intro k pos hpos
    exact hall k pos ((hout.records stake_marked k).symm.trans hpos)

/-- As long as `Unstake` and `Slash` leave the minted tokens covered, they are, and what can still
be minted is well defined. -/
theorem st_prism_backed {e : Env} {s t : Ledger} {tr : Trace Instruction}
    (h0 : Untouched e.programId s.bank) (hrun : Run ((program e).Step (KeepsBacking e)) s tr t)
    {k : Pubkey} {pos : StakeAccount} (hpos : stakeAt e t.bank k=some pos) :
    pos.stPrismMinted.toNat≤pos.stakedAmount.toNat ∧
      ∃ mintable,checkedSub pos.stakedAmount pos.stPrismMinted=some mintable := by
  have hall : AllBacked e t.bank := by
    refine hrun.invariant (I := fun t => AllBacked e t.bank) ?_ fun hall hstep => hall.step hstep
    intro k pos hpos
    rw [show stakeAt e s.bank k=none from h0.records stake_marked k] at hpos
    cases hpos
  exact ⟨hall k pos hpos,_,if_pos (hall k pos hpos)⟩

def liquidEnv : Env where
  toHost := sampleEnv
  tokenCall _ _ _ b := .ok b
  confined h := by
    cases h
    exact ⟨Outside.refl _ _,fun _ _ => rfl⟩

def liquidStake : Call Instruction :=
  {stakeCall 2#256 sampleStake 3#64 with instruction := .stake 1000000000#64 .flexible false true}

def mintCall : Call Instruction where
  clock := ⟨3#64,1000#64⟩
  accounts := [⟨2#256,true,true⟩,⟨sampleStake,false,true⟩,⟨6#256,false,true⟩,⟨7#256,false,true⟩,
    ⟨sampleAuthority,false,false⟩,⟨9#256,false,false⟩]
  instruction := .mintStPrism

def liquidHistory (cs : List (Call Instruction)) : Option (Trace Instruction×Ledger) :=
  (program liquidEnv).history ([initCall 2#64,liquidStake,mintCall]++cs) genesis

def mintedAndStaked (x : Trace Instruction×Ledger) : Option (U64×U64) :=
  (stakeAt liquidEnv x.2.bank sampleStake).map fun s => (s.stPrismMinted,s.stakedAmount)

def backedCalls (tr : Trace Instruction) : Bool :=
  tr.all fun x =>
    match x.label with
    | .outside => true
    | .call c =>
      (c.instruction.poolIndex.bind c.key?).all (fun k => decide (k=poolPda liquidEnv)) &&
      (!c.instruction.callsToken ||
        (c.key? 1).all fun k => decide ((x.pre.bank k).owner=liquidEnv.programId)) &&
      match c.instruction with
      | .unstake _ => false
      | .slash _ => false
      | _ => true

theorem backedCalls_ok (h : backedCalls tr=true) :
    ∀ x∈tr,∀ c,x.label=.call c → KeepsBacking liquidEnv x.pre.bank c := by
  intro x hx c hlabel
  have hcheck := List.all_eq_true.mp h x hx
  simp only [hlabel,Bool.and_eq_true,Bool.or_eq_true] at hcheck
  obtain ⟨⟨hpool,htoken⟩,hkeeps⟩ := hcheck
  refine ⟨fun pk hpk => ?_,fun hcalls sk hsk => ?_,fun hi => ?_,fun hi => ?_⟩
  · rw [hpk] at hpool
    exact of_decide_eq_true hpool
  · rw [hcalls,mem_def.mp hsk] at htoken
    exact of_decide_eq_true (htoken.resolve_left (by decide))
  · rw [hi] at hkeeps
    cases hkeeps
  · rw [hi] at hkeeps
    cases hkeeps

theorem st_prism_minted_on_stake : ∃ tr t pos,
    Run ((program liquidEnv).Step (KeepsBacking liquidEnv)) genesis tr t ∧
      stakeAt liquidEnv t.bank sampleStake=some pos ∧ pos.stPrismMinted=1000000000#64 ∧
      pos.stPrismMinted.toNat≤pos.stakedAmount.toNat := by
  obtain ⟨⟨tr,t⟩,hhistory,hposition,hbacked⟩ : ∃ x,liquidHistory []=some x ∧
      mintedAndStaked x=some (1000000000#64,1000000000#64) ∧
      backedCalls x.1=true := by decide +kernel
  obtain ⟨pos,hpos,hamounts⟩ := map_eq_some_iff.mp hposition
  have hrun := history_run hhistory (backedCalls_ok hbacked)
  have h0 : Untouched liquidEnv.programId genesis.bank := genesis_untouched
  exact ⟨tr,t,pos,hrun,hpos,(Prod.mk.inj hamounts).1,(st_prism_backed h0 hrun hpos).1⟩

/-- The staker withdraws everything and keeps the tokens; nothing more can be minted then. -/
theorem unstake_leaves_tokens_unbacked : ∃ tr t pos,Untouched liquidEnv.programId genesis.bank ∧
      Run ((program liquidEnv).Step (PoolPassed liquidEnv)) genesis tr t ∧
      stakeAt liquidEnv t.bank sampleStake=some pos ∧ pos.stPrismMinted=1000000000#64 ∧
      pos.stakedAmount=0#64 ∧ ¬pos.stPrismMinted.toNat≤pos.stakedAmount.toNat ∧
      checkedSub pos.stakedAmount pos.stPrismMinted=none ∧
      (program liquidEnv).execute {mintCall with clock := (unstakeCall 0#64).clock} t.bank=
        .error (err .overflow) := by
  have hkeys : ∀ c∈[initCall 2#64,liquidStake,mintCall,unstakeCall 1000000000#64],
      (c.instruction.poolIndex.bind c.key?).all (·==poolPda liquidEnv) := by decide +kernel
  simp only [exists_and_left]
  refine ⟨genesis_untouched,exists_run [initCall 2#64,liquidStake,mintCall,
    unstakeCall 1000000000#64] (fun c hc b k hk => ?_) (by decide +kernel)⟩
  have hkey := hkeys c hc
  rw [hk] at hkey
  exact beq_iff_eq.mp hkey

end PrismChain.Staking
