import PrismChain.Programs.Staking.Book

namespace PrismChain.Staking

open FixedWidth Option BitVec Nat Program

/-- The instruction names the pool derived from its seed wherever it names a pool. -/
def PoolPassed (e : Env) (_ : Bank) (c : Call Instruction) : Prop :=
  ∀ k,c.instruction.poolIndex.bind c.key?=some k → k=poolPda e

theorem passed_of_keys {e : Env} {cs : List (Call Instruction)}
    (h : ∀ c∈cs,c.instruction.poolIndex.bind c.key?=some (poolPda e)) :
    ∀ c∈cs,∀ b,PoolPassed e b c := by
  intro c hc b k hk
  rw [h c hc] at hk
  exact (some.inj hk).symm

def claimedRewards (b : Bank) (c : Call Instruction) : Nat :=
  match c.instruction,c.key? 1,c.key? 2 with
  | .claimRewards,some sk,some pk =>
    match stakeCodec.tryFromSlice (b sk).data,poolCodec.tryFromSlice (b pk).data with
    | some s,some p => ((settle s p).toOption.getD 0#64).toNat
    | _,_ => 0
  | _,_,_ => 0

def claimedIn (x : LogEntry Instruction) : Nat :=
  match x.label with
  | .call c => claimedRewards x.pre.bank c
  | .outside => 0

def liability (p : StakingPool) : Nat :=
  p.totalStaked.toNat+p.insuranceBalance.toNat+p.totalSlashed.toNat

section Steps

variable {e : Env}

theorem Effect.liability (he : Effect now i s p s' p' out claimed) :
    liability p'+out.toNat=liability p+i.paidIn.toNat+claimed.toNat := by
  cases he with
  | topUp _ _ _ htotal =>
    have h := checkedAdd_eq_some.mp htotal
    simp only [Staking.liability,Instruction.paidIn,toNat_ofNat,zero_mod]
    omega
  | unstake _ _ _ _ _ htotal =>
    have h := checkedSub_eq_some.mp htotal
    simp only [Staking.liability,Instruction.paidIn,toNat_ofNat,zero_mod]
    omega
  | compound _ _ _ _ hnet hinsurance _ htotal =>
    have h1 := checkedSub_eq_some.mp hnet
    have h2 := checkedAdd_eq_some.mp hinsurance
    have h3 := checkedAdd_eq_some.mp htotal
    simp only [Staking.liability,Instruction.paidIn,toNat_ofNat,zero_mod]
    omega
  | payout _ _ _ _ hnet hinsurance =>
    have h1 := checkedSub_eq_some.mp hnet
    have h2 := checkedAdd_eq_some.mp hinsurance
    simp only [Staking.liability,Instruction.paidIn,toNat_ofNat,zero_mod]
    omega
  | slash hactual hinsurance _ htotal hslashed =>
    have h1 := checkedSub_eq_some.mp hactual
    have h2 := checkedSub_eq_some.mp hinsurance
    have h3 := checkedSub_eq_some.mp htotal
    have h4 := checkedAdd_eq_some.mp hslashed
    simp only [Staking.liability,Instruction.paidIn,toNat_ofNat,zero_mod]
    omega

theorem Crank.liability (hc : Crank slot p p') : liability p'=liability p := by
  cases hc <;> rfl

theorem Updated.claimedRewards (hu : Updated e c b b' sk pk s s' p p' out claimed) :
    claimed.toNat≤claimedRewards b c := by
  obtain ⟨clock,accounts,i⟩ := c
  have hsk := hu.stakeKey
  have hpk := hu.poolKey
  have heffect := hu.effect
  have hs := stakeCodec.tryFromSlice_eq_some.mpr hu.stake
  have hp := poolCodec.tryFromSlice_eq_some.mpr hu.pool
  dsimp only at heffect
  have hclaim (hi : i=.claimRewards) (h : settle s p=.ok claimed) :
      claimed.toNat≤Staking.claimedRewards b ⟨clock,accounts,i⟩ := by
    subst hi
    change Call.key? _ 1=some sk at hsk
    change Call.key? _ 2=some pk at hpk
    simp only [Staking.claimedRewards,hsk,hpk,hs,hp,h]
    exact le_rfl
  cases heffect with
  | topUp => exact Nat.zero_le _
  | unstake => exact Nat.zero_le _
  | compound _ h => exact hclaim rfl h
  | payout _ h => exact hclaim rfl h
  | slash => exact Nat.zero_le _

end Steps

/-- The pool holds its rent and what it is answerable for, but for the rewards claimed so far:
no instruction brings in lamports to pay them from. -/
def Solvent (e : Env) (b : Bank) (rewards : Nat) : Prop :=
  ∀ p,poolAt e b=some p → (e.minimumBalance poolLen).toNat+liability p≤
    (b (poolPda e)).lamports.toNat+rewards

theorem Solvent.call {e : Env} {c : Call Instruction} {b b' : Bank} {rewards : Nat}
    (hs : Solvent e b rewards) (hok : PoolPassed e b c) (hx : (program e).execute c b=.ok b') :
    Solvent e b' (rewards+claimedRewards b c) := by
  intro q hq
  cases execute_spec hx with
  | initialized hi =>
    rw [hi.pool.2] at hq
    cases hq
    have hrent := hi.rent
    simp only [liability,toNat_ofNat,zero_mod]
    omega
  | opened ho =>
    cases ho.pool_change with
    | elsewhere hpk => exact absurd (hok _ ho.poolKey) hpk
    | foreign _ _ hafter =>
      rw [hafter] at hq
      cases hq
    | own hpk hbefore hafter =>
      rw [hafter] at hq
      cases hq
      have hpre := hs _ hbefore
      have hflow := ho.flow
      obtain ⟨total,htotal,rfl⟩ := ho.total
      have hsum := checkedAdd_eq_some.mp htotal
      rw [hpk] at hflow
      simp only [liability] at hpre ⊢
      omega
  | updated hu =>
    cases hu.pool_change with
    | elsewhere hpk => exact absurd (hok _ hu.poolKey) hpk
    | foreign _ _ hafter =>
      rw [hafter] at hq
      cases hq
    | own hpk hbefore hafter =>
      rw [hafter] at hq
      cases hq
      have hpre := hs _ hbefore
      have hflow := hu.flow
      have heffect := hu.effect.liability
      have hclaimed := hu.claimedRewards
      rw [hpk] at hflow
      omega
  | repositioned hr =>
    rw [hr.pool.1] at hq
    have hpre := hs _ hq
    have hle := hr.pool.2 _ hq
    omega
  | cranked hc =>
    cases hc.pool_change with
    | elsewhere hpk => exact absurd (hok _ hc.poolKey) hpk
    | foreign _ _ hafter =>
      rw [hafter] at hq
      cases hq
    | own hpk hbefore hafter =>
      rw [hafter] at hq
      cases hq
      have hpre := hs _ hbefore
      rw [hc.written,Bank.setData_lamports,hc.crank.liability]
      omega

theorem Solvent.step {e : Env} {s : Ledger} (hs : Solvent e s.bank rewards)
    (hstep : (program e).Step (PoolPassed e) s a t) :
    Solvent e t.bank (rewards+claimedIn ⟨s,a,t⟩) := by
  cases hstep with
  | call _ hok hx => exact hs.call hok hx
  | outside _ hout =>
    intro q hq
    rw [(outside_pool hout).1] at hq
    exact (hs _ hq).trans (Nat.add_le_add_right ((outside_pool hout).2 _ hq) _)

/-- The rewards that have been claimed are the only part of the pool's obligations that its
lamports may fail to cover. -/
theorem pool_short_by_claims {e : Env} {s t : Ledger} {tr : Trace Instruction}
    (h0 : Untouched e.programId s.bank) (hrun : Run ((program e).Step (PoolPassed e)) s tr t)
    {p : StakingPool} (hp : poolAt e t.bank=some p) :
    (e.minimumBalance
    poolLen).toNat+p.totalStaked.toNat+p.insuranceBalance.toNat+p.totalSlashed.toNat≤
      (t.bank (poolPda e)).lamports.toNat+total claimedIn tr := by
  have hsolvent : Solvent e t.bank (total claimedIn tr) := by
    refine hrun.traced (I := fun tr t => Solvent e t.bank (total claimedIn tr)) ?_ ?_
    · intro q hq
      rw [untouched_pool h0] at hq
      cases hq
    · intro tr t a u _ hs hstep
      rw [total_append_one]
      exact hs.step hstep
  have h := hsolvent p hp
  simp only [liability] at h
  omega

def samplePool : Pubkey := 0xb999855033771f808d9a70e39905755f523ec6ed3f0299574dcb6710f421b8f4#256
def sampleStake : Pubkey := 0x1ad5f7870df2cd34846785e4177d25108901b347e0d8e3c2cb628428a329114e#256
def otherStake : Pubkey := 0xff099ffdc7e49d926e2dadd74e88d2e6bb205e542f6bc76c17a059604da8a288#256
def sampleAuthority : Pubkey :=
  0x87b142ebd0a07844fce1fe0b3090e2ef4c01ede1ae5e09e3f68d87200d2b5fc6#256

def sampleEnv : Env where
  programId := 1#256
  findProgramAddress seeds _ :=
    if seeds=[poolSeed] then (samplePool,254#8)
    else if seeds=[stakeSeed,Pubkey.bytes 2#256] then (sampleStake,255#8)
    else if seeds=[stakeSeed,Pubkey.bytes 3#256] then (otherStake,254#8)
    else (sampleAuthority,254#8)
  minimumBalance n := BitVec.ofNat 64 ((n+128)*6960)
  clockSysvar := 4#256
  tokenCall _ _ _ _ := .error .incorrectProgramId
  confined h := by cases h

def genesis : Ledger where
  bank k := if k=2#256 ∨ k=3#256 then ⟨10000000000#64,[],systemProgram⟩ else ⟨0#64,[],systemProgram⟩
  clock := ⟨1#64,1000#64⟩

theorem genesis_untouched : Untouched sampleEnv.programId genesis.bank := by
  refine untouched_of_foreign fun k => ?_
  unfold genesis
  dsimp only
  split_ifs <;> decide

def initCall (slot : U64) : Call Instruction where
  clock := ⟨slot,1000#64⟩
  accounts :=
    [⟨2#256,true,true⟩,⟨samplePool,false,true⟩,⟨6#256,false,false⟩,systemInfo]
  instruction := .initializePool 800#64

def crankCall (slot : U64) : Call Instruction where
  clock := ⟨slot,1000#64⟩
  accounts := [⟨samplePool,false,true⟩,⟨4#256,false,false⟩]
  instruction := .updateRewards

def stakeCall (staker stake : Pubkey) (slot : U64) : Call Instruction where
  clock := ⟨slot,1000#64⟩
  accounts := [⟨staker,true,true⟩,⟨stake,false,true⟩,⟨samplePool,false,true⟩,⟨4#256,false,false⟩,
    systemInfo]
  instruction := .stake 1000000000#64 .flexible false false

def claimCall (slot : U64) : Call Instruction where
  clock := ⟨slot,1000#64⟩
  accounts := [⟨2#256,true,true⟩,⟨sampleStake,false,true⟩,⟨samplePool,false,true⟩,
    ⟨4#256,false,false⟩,systemInfo]
  instruction := .claimRewards

def claimCalls : List (Call Instruction) :=
  [initCall 2#64,crankCall 3#64,stakeCall 2#256 sampleStake 3#64,crankCall 63072003#64,
    claimCall 63072003#64]

theorem pool_short_after_claim : ∃ tr t p,
    Run ((program sampleEnv).Step (PoolPassed sampleEnv)) genesis tr t ∧
      poolAt sampleEnv t.bank=some p ∧ total claimedIn tr=80000000 ∧
      (sampleEnv.minimumBalance poolLen).toNat+p.totalStaked.toNat+p.insuranceBalance.toNat+
          p.totalSlashed.toNat≤
        (t.bank (poolPda sampleEnv)).lamports.toNat+total claimedIn tr := by
  obtain ⟨tr,t,hrun,p,hp,hclaimed⟩ := exists_run (P := program sampleEnv) (s := genesis)
    (p := fun tr t => ∃ p,poolAt sampleEnv t.bank=some p ∧ total claimedIn tr=80000000)
    claimCalls (passed_of_keys (e := sampleEnv) (by decide +kernel)) (by decide +kernel)
  exact ⟨tr,t,p,hrun,hp,hclaimed,pool_short_by_claims genesis_untouched hrun hp⟩

/-- The staker's own deposit pays the reward: what is left does not cover the stake. -/
theorem claim_spends_principal : ∃ tr t p,Untouched sampleEnv.programId genesis.bank ∧
      Run ((program sampleEnv).Step (PoolPassed sampleEnv)) genesis tr t ∧
      poolAt sampleEnv t.bank=some p ∧ p.totalStaked=1000000000#64 ∧
      (t.bank (poolPda sampleEnv)).lamports=923340000#64 ∧
      ¬(sampleEnv.minimumBalance poolLen).toNat+p.totalStaked.toNat+p.insuranceBalance.toNat≤
        (t.bank (poolPda sampleEnv)).lamports.toNat := by
  simp only [exists_and_left]
  exact ⟨genesis_untouched,exists_run claimCalls (passed_of_keys (by decide +kernel))
    (by decide +kernel)⟩

end PrismChain.Staking
