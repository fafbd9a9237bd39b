import PrismChain.Programs.Staking.Processor

namespace PrismChain.Staking

open FixedWidth List Program Invocation Bank PrismChain.Frame

/-- What an accepted instruction does to a position and to the pool together. The last two
indices are what the pool pays out and the rewards that are claimed, before any deduction. -/
inductive Effect (now : I64) : Instruction → StakeAccount → StakingPool → StakeAccount →
    StakingPool → U64 → U64 → Prop
  | topUp {s : StakeAccount} {p : StakingPool} {amount pending staked total : U64} {debt : U128}
      {lockTier : LockTier} {autoCompound liquidStaking : Bool} (hpending : settle s p=.ok pending)
      (hstaked : checkedAdd s.stakedAmount amount=some staked)
      (hdebt : rewardDebtFor staked p=.ok debt)
      (htotal : checkedAdd p.totalStaked amount=some total) :
      Effect now (.stake amount lockTier autoCompound liquidStaking) s p
        {s with pendingRewards := pending, stakedAmount := staked, rewardDebt := debt}
        {p with totalStaked := total} 0#64 0#64
  | unstake {s : StakeAccount} {p : StakingPool} {amount pending staked total : U64} {debt : U128}
      (hlock : ¬(0< s.unlockTimestamp.toInt ∧ now.toInt< s.unlockTimestamp.toInt))
      (hle : amount.toNat≤ s.stakedAmount.toNat) (hpending : settle s p=.ok pending)
      (hstaked : checkedSub s.stakedAmount amount=some staked)
      (hdebt : rewardDebtFor staked p=.ok debt)
      (htotal : checkedSub p.totalStaked amount=some total) :
      Effect now (.unstake amount) s p
        {s with pendingRewards := pending, stakedAmount := staked, rewardDebt := debt}
        {p with totalStaked := total} amount 0#64
  | compound {s : StakeAccount} {p : StakingPool} {claimable cut net insurance staked total : U64}
      {debt : U128} (hauto : s.autoCompound=true) (hclaim : settle s p=.ok claimable)
      (hpos : claimable≠0#64) (hcut : insuranceCut claimable=.ok cut)
      (hnet : checkedSub claimable cut=some net)
      (hinsurance : checkedAdd p.insuranceBalance cut=some insurance)
      (hstaked : checkedAdd s.stakedAmount net=some staked)
      (htotal : checkedAdd p.totalStaked net=some total)
      (hdebt : rewardDebtFor staked p=.ok debt) :
      Effect now .claimRewards s p
        {s with stakedAmount := staked, pendingRewards := 0#64, rewardDebt := debt}
        {p with insuranceBalance := insurance, totalStaked := total} 0#64 claimable
  | payout {s : StakeAccount} {p : StakingPool} {claimable cut net insurance : U64} {debt : U128}
      (hauto : s.autoCompound=false) (hclaim : settle s p=.ok claimable)
      (hpos : claimable≠0#64) (hcut : insuranceCut claimable=.ok cut)
      (hnet : checkedSub claimable cut=some net)
      (hinsurance : checkedAdd p.insuranceBalance cut=some insurance)
      (hdebt : rewardDebtFor s.stakedAmount p=.ok debt) :
      Effect now .claimRewards s p {s with pendingRewards := 0#64, rewardDebt := debt}
        {p with insuranceBalance := insurance} net claimable
  | slash {s : StakeAccount} {p : StakingPool} {amount actual insurance staked total slashed : U64}
      (hactual : checkedSub (umin amount s.stakedAmount)
        (umin (umin amount s.stakedAmount) p.insuranceBalance)=some actual)
      (hinsurance : checkedSub p.insuranceBalance
        (umin (umin amount s.stakedAmount) p.insuranceBalance)=some insurance)
      (hstaked : checkedSub s.stakedAmount actual=some staked)
      (htotal : checkedSub p.totalStaked actual=some total)
      (hslashed : checkedAdd p.totalSlashed (umin amount s.stakedAmount)=some slashed) :
      Effect now (.slash amount) s p {s with stakedAmount := staked}
        {p with insuranceBalance := insurance, totalStaked := total, totalSlashed := slashed}
        0#64 0#64

inductive Reposition : Instruction → StakeAccount → StakeAccount → Prop
  | delegate {s : StakeAccount} {validator : Pubkey} {commissionBps : U64} :
      Reposition (.delegate validator commissionBps) s
        {s with delegatedValidator := validator, validatorCommissionBps := commissionBps}
  | toggle {s : StakeAccount} :
      Reposition .toggleAutoCompound s {s with autoCompound := !s.autoCompound}
  | mintNothing {s : StakeAccount} : Reposition .mintStPrism s s
  | mint {s : StakeAccount} {mintable minted : U64}
      (hmintable : checkedSub s.stakedAmount s.stPrismMinted=some mintable)
      (hminted : checkedAdd s.stPrismMinted mintable=some minted) :
      Reposition .mintStPrism s {s with stPrismMinted := minted}
  | burn {s : StakeAccount} {amount minted : U64}
      (hminted : checkedSub s.stPrismMinted amount=some minted) :
      Reposition (.burnStPrism amount) s {s with stPrismMinted := minted}

inductive Crank (slot : U64) : StakingPool → StakingPool → Prop
  | empty {p : StakingPool} (hempty : p.totalStaked=0#64) :
      Crank slot p {p with lastUpdateSlot := slot}
  | early {p : StakingPool} (hearly : saturatingSub slot p.lastUpdateSlot=0#64) : Crank slot p p
  | emit {p : StakingPool} {reward accumulated : U128} (hstaked : p.totalStaked≠0#64)
      (hlate : saturatingSub slot p.lastUpdateSlot≠0#64)
      (hreward : totalReward p (saturatingSub slot p.lastUpdateSlot)=.ok reward)
      (haccumulated : accumulate p reward=.ok accumulated) :
      Crank slot p {p with accumulatedRewardPerToken := accumulated, lastUpdateSlot := slot}

/-- The pool after `UpdateRewards`, as the code computes it. -/
def crank (p : StakingPool) (slot : U64) : Except ProgramError StakingPool :=
  if p.totalStaked=0#64 then .ok {p with lastUpdateSlot := slot}
  else if saturatingSub slot p.lastUpdateSlot=0#64 then .ok p
  else do
    let reward ← totalReward p (saturatingSub slot p.lastUpdateSlot)
    let accumulated ← accumulate p reward
    pure {p with accumulatedRewardPerToken := accumulated, lastUpdateSlot := slot}

theorem crank_of_ok (h : crank p slot=.ok p') : Crank slot p p' := by
  unfold crank at h
  split_ifs at h with hempty hearly
  · exact Except.ok.inj h ▸ .empty hempty
  · exact Except.ok.inj h ▸ .early hearly
  · simp only [steps_ok] at h
    obtain ⟨_,hreward,_,haccumulated,rfl⟩ := h
    exact .emit hempty hearly hreward haccumulated

def Instruction.paidIn : Instruction → U64
  | .stake amount _ _ _ => amount
  | _ => 0#64

/-- An accepted instruction on a position and a pool that both exist. An account that does not
belong to the program is as it was; nobody asks whether it does. -/
structure Updated (e : Env) (c : Call Instruction) (b b' : Bank) (sk pk : Pubkey)
    (s s' : StakeAccount) (p p' : StakingPool) (out claimed : U64) : Prop where
  stakeKey : c.instruction.stakeIndex.bind c.key?=some sk
  poolKey : c.instruction.poolIndex.bind c.key?=some pk
  stake : (b sk).data=stakeCodec.encode s
  live : s.isInitialized=true
  pool : (b pk).data=poolCodec.encode p
  stakeOwned : (b sk).owner=e.programId ∨ s'=s
  poolOwned : (b pk).owner=e.programId ∨ p'=p
  stake' : (b' sk).data=stakeCodec.encode s'
  pool' : (b' pk).data=poolCodec.encode p'
  owners : ∀ k,(b' k).owner=(b k).owner
  others : ∀ k,k≠sk → k≠pk → (b' k).data=(b k).data
  effect : Effect c.clock.unixTimestamp c.instruction s p s' p' out claimed
  flow : (b pk).lamports.toNat+c.instruction.paidIn.toNat≤(b' pk).lamports.toNat+out.toNat

/-- An accepted instruction on a position alone. Between the reading of the position and its
writing the named token program has run; if the position was in an account of somebody else,
that account may by then have been handed over. -/
structure Repositioned (e : Env) (c : Call Instruction) (b b' : Bank) (sk : Pubkey)
    (s s' : StakeAccount) : Prop where
  stakeKey : c.instruction.stakeIndex.bind c.key?=some sk
  poolKey : c.instruction.poolIndex=none
  stake : (b sk).data=stakeCodec.encode s
  live : s.isInitialized=true
  change : Reposition c.instruction s s'
  written : ∃ b₁ d,Outside e.programId b b₁ ∧ (c.instruction.callsToken=false → b₁=b) ∧
    stakeCodec.writeTo s' (b₁ sk).data=some d ∧
    ((b₁ sk).owner=e.programId ∨ d=(b₁ sk).data) ∧ b'=b₁.setData sk d

structure Cranked (e : Env) (c : Call Instruction) (b b' : Bank) (pk : Pubkey)
    (p p' : StakingPool) : Prop where
  instruction : c.instruction=.updateRewards
  poolKey : c.instruction.poolIndex.bind c.key?=some pk
  pool : (b pk).data=poolCodec.encode p
  live : p.isInitialized=true
  poolOwned : (b pk).owner=e.programId ∨ p'=p
  written : b'=b.setData pk (poolCodec.encode p')
  crank : Crank c.clock.slot p p'

structure Initialized (e : Env) (c : Call Instruction) (b b' : Bank) (authority mint : Pubkey)
    (rate : U64) : Prop where
  instruction : c.instruction=.initializePool rate
  fresh : (b (poolPda e)).data=[] ∧ (b (poolPda e)).owner=systemProgram
  owned' : (b' (poolPda e)).owner=e.programId
  pool' : (b' (poolPda e)).data=poolCodec.encode ⟨true,authority,mint,0#64,0#128,0#64,0#64,
    rate,0#64,(e.findProgramAddress [poolSeed] e.programId).2⟩
  others : ∀ k,k≠poolPda e → (b' k).data=(b k).data ∧ (b' k).owner=(b k).owner
  rent : (e.minimumBalance poolLen).toNat≤(b' (poolPda e)).lamports.toNat

def stakePda (h : Host) (staker : Pubkey) : Pubkey :=
  (h.findProgramAddress [stakeSeed,staker.bytes] h.programId).1

structure Opened (e : Env) (c : Call Instruction) (b b' : Bank) (staker pk : Pubkey)
    (amount : U64) (s : StakeAccount) (p p' : StakingPool) : Prop where
  instruction : ∃ lockTier autoCompound liquidStaking unlock,
    c.instruction=.stake amount lockTier autoCompound liquidStaking ∧
      s=newStake e staker amount lockTier c.clock.unixTimestamp unlock
        autoCompound liquidStaking
  stakeKey : c.instruction.stakeIndex.bind c.key?=some (stakePda e staker)
  poolKey : c.instruction.poolIndex.bind c.key?=some pk
  fresh : (b (stakePda e staker)).data=[] ∧
    (b (stakePda e staker)).owner=systemProgram
  pool : (b pk).data=poolCodec.encode p
  live : p.isInitialized=true
  poolOwned : (b pk).owner=e.programId ∨ p'=p
  total : ∃ total,checkedAdd p.totalStaked amount=some total ∧ p'={p with totalStaked := total}
  stake' : (b' (stakePda e staker)).data=stakeCodec.encode s
  stakeOwned' : (b' (stakePda e staker)).owner=e.programId
  pool' : (b' pk).data=poolCodec.encode p'
  owners : ∀ k,k≠stakePda e staker → (b' k).owner=(b k).owner
  others : ∀ k,k≠stakePda e staker → k≠pk → (b' k).data=(b k).data
  flow : (b pk).lamports.toNat+amount.toNat≤(b' pk).lamports.toNat

inductive Accepted (e : Env) (c : Call Instruction) (b b' : Bank) : Prop
  | initialized {authority mint : Pubkey} {rate : U64}
      (hi : Initialized e c b b' authority mint rate)
  | opened {staker pk : Pubkey} {amount : U64} {s : StakeAccount} {p p' : StakingPool}
      (ho : Opened e c b b' staker pk amount s p p')
  | updated {sk pk : Pubkey} {s s' : StakeAccount} {p p' : StakingPool} {out claimed : U64}
      (hu : Updated e c b b' sk pk s s' p p' out claimed)
  | repositioned {sk : Pubkey} {s s' : StakeAccount} (hr : Repositioned e c b b' sk s s')
  | cranked {pk : Pubkey} {p p' : StakingPool} (hc : Cranked e c b b' pk p p')

section Parts

variable {f : Frame} {b : Bank} {k sk pk staker : Pubkey} {s' : StakeAccount} {p' : StakingPool}
  {amount : U64}

theorem loadPool_eq_ok : loadPool f k=.ok p ↔ (f.view k).data=poolCodec.encode p := by
  rw [loadPool,okOr_eq_ok,Codec.tryFromSlice_eq_some]

theorem loadStake_eq_ok : loadStake f k=.ok s ↔
    (f.view k).data=stakeCodec.encode s ∧ s.isInitialized=true := by
  simp only [loadStake,steps_ok,Codec.tryFromSlice_eq_some]
  constructor
  · rintro ⟨w,hdata,_,hinit,hw⟩
    subst hw
    exact ⟨hdata,hinit⟩
  · rintro ⟨hdata,hinit⟩
    exact ⟨s,hdata,(),hinit,rfl⟩

theorem loadOwnStake_eq_ok : loadOwnStake f k staker=.ok s ↔
    (f.view k).data=stakeCodec.encode s ∧ s.isInitialized=true ∧ s.owner=staker := by
  simp only [loadOwnStake,steps_ok,loadStake_eq_ok]
  constructor
  · rintro ⟨w,⟨hdata,hinit⟩,_,howner,hw⟩
    subst hw
    exact ⟨hdata,hinit,howner⟩
  · rintro ⟨hdata,hinit,howner⟩
    exact ⟨s,⟨hdata,hinit⟩,(),howner,rfl⟩

theorem keys_ne (hs : (b sk).data=stakeCodec.encode s) (hp : (b pk).data=poolCodec.encode p) :
    sk≠pk := by
  intro he
  rw [he,hp] at hs
  exact pool_ne_stake p s hs

theorem payFrom_same (f : Frame) (pool staker : Pubkey) (amount : U64) :
    SameState f.view (payFrom pool staker amount f).view :=
  fun k => by simp [payFrom]

theorem payFrom_flow (f : Frame) (pool staker : Pubkey) (amount : U64) :
    (f.view pool).lamports.toNat≤
      ((payFrom pool staker amount f).view pool).lamports.toNat+amount.toNat := by
  have hwrap : (f.view pool).lamports.toNat≤((f.view pool).lamports-amount).toNat+amount.toNat := by
    have hle := Nat.mod_le (((f.view pool).lamports-amount).toNat+amount.toNat) (2^64)
    rw [← BitVec.toNat_add,BitVec.sub_add_cancel] at hle
    exact hle
  by_cases hp : pool=staker
  · subst hp
    have hback : (f.view pool).lamports-amount+amount=(f.view pool).lamports :=
      BitVec.sub_add_cancel _ _
    simp [payFrom,setLamports_lamports,hback]
  · simpa [payFrom,setLamports_lamports,hp] using hwrap

structure Saved (b b' : Bank) (sk pk : Pubkey) (s' : StakeAccount) (p' : StakingPool) : Prop where
  stake' : (b' sk).data=stakeCodec.encode s'
  pool' : (b' pk).data=poolCodec.encode p'
  owners : ∀ k,(b' k).owner=(b k).owner
  others : ∀ k,k≠sk → k≠pk → (b' k).data=(b k).data

theorem saved (hne : sk≠pk) (h1 : SameState b v1)
    (h2 : SameState (v1.setData sk (stakeCodec.encode s')) v2) :
    Saved b (v2.setData pk (poolCodec.encode p')) sk pk s' p' where
  stake' := by rw [v2.setData_other _ hne,(h2 sk).1,v1.setData_same]
  pool' := v2.setData_same pk _
  owners k := by rw [v2.setData_owner,(h2 k).2,v1.setData_owner,(h1 k).2]
  others k hs hp := by rw [v2.setData_other _ hp,(h2 k).1,v1.setData_other _ hs,(h1 k).1]

theorem stake_length (hs : (b sk).data=stakeCodec.encode s) (hsame : SameState b v1) :
    (v1 sk).data.length=stakeLen := by
  rw [(hsame sk).1,hs]
  exact stake_size s

theorem pool_length (hp : (b pk).data=poolCodec.encode p) (hne : sk≠pk) (h1 : SameState b v1)
    (h2 : SameState (v1.setData sk (stakeCodec.encode s')) v2) : (v2 pk).data.length=poolLen := by
  rw [(h2 pk).1,v1.setData_other _ hne.symm,(h1 pk).1,hp]
  exact pool_size p

end Parts

section Handlers

variable {e : Env} {accounts : List AccountInfo} {b1 : Bank} {f f2 : Frame} {s : StakeAccount}
  {p p' : StakingPool}

theorem key_mem {c : Call Instruction} {i : Option Nat} (hk : i.bind c.key?=some k) :
    k∈c.accounts.map AccountInfo.key := by
  obtain ⟨n,-,hn⟩ := Option.bind_eq_some_iff.mp hk
  exact Call.key_mem hn

/-- Once the position is written and what is paid has moved, the pool is written last. -/
theorem updated_of_store {i : Instruction}
    (hsync : Synced e.programId accounts f)
    (hsk : i.stakeIndex.bind (Call.key? ⟨clock,accounts,i⟩)=some sk)
    (hpk : i.poolIndex.bind (Call.key? ⟨clock,accounts,i⟩)=some pk)
    (hs : (b sk).data=stakeCodec.encode s)
    (hlive : s.isInitialized=true) (hp : (b pk).data=poolCodec.encode p) (h1 : SameState b v1)
    (h2 : SameState (v1.setData sk (stakeCodec.encode s')) f2.view)
    (hsynced : SameState b f2.synced)
    (hstore : f2.store poolCodec p' pk=.ok f)
    (heffect : Effect clock.unixTimestamp i s p s' p' out claimed)
    (hflow : (b pk).lamports.toNat+i.paidIn.toNat≤(f2.view pk).lamports.toNat+out.toNat) :
    Accepted e ⟨clock,accounts,i⟩ b f.view := by
  have hne := keys_ne hs hp
  rw [store_eq_ok pool_size (pool_length hp hne h1 h2)] at hstore
  subst hstore
  have hsaved : Saved b _ sk pk s' p' := saved hne h1 h2
  refine .updated ⟨hsk,hpk,hs,hlive,hp,record_owned hsync (key_mem hsk) hsynced hs hsaved.stake',
    record_owned hsync (key_mem hpk) hsynced hp hsaved.pool',hsaved.stake',hsaved.pool',
    hsaved.owners,hsaved.others,heffect,?_⟩
  rwa [setData_lamports]

/-- The transfer that follows the writing of the position in `process_stake`. The staker has no
data, so the account is neither the position nor the pool. -/
theorem deposit_spec {iv : Invocation} (hp : (b pk).data=poolCodec.encode p) (hne : sk≠pk)
    (hi : iv.invoke [staker,pk] (iv.transfer staker pk amount)
      ⟨b,b.setData sk (stakeCodec.encode s')⟩=.ok f2) :
    SameState (b.setData sk (stakeCodec.encode s')) f2.view ∧ SameState b f2.synced ∧
      (f2.view pk).lamports.toNat=(b pk).lamports.toNat+amount.toNat := by
  obtain ⟨-,c,hc,rfl⟩ := invoke_eq_ok.mp hi
  obtain ⟨hempty,-,-,hsame,hmoved,-⟩ := transfer_spec hc
  have hstaker : staker≠sk := by
    intro he
    rw [he,b.setData_same] at hempty
    exact absurd (congrArg length hempty) (by rw [stake_size s']; decide)
  have hpool : pk≠staker := by
    intro he
    rw [← he,b.setData_other _ hne.symm,hp] at hempty
    exact absurd (congrArg length hempty) (by rw [pool_size p]; decide)
  refine ⟨hsame,?_,?_⟩
  · intro k
    by_cases hk : k∈[staker,pk]
    · have hks : k≠sk := by
        simp only [mem_cons,not_mem_nil,or_false] at hk
        obtain rfl | rfl := hk
        · exact hstaker
        · exact hne.symm
      simp only [hk,if_true]
      rw [(hsame k).1,(hsame k).2,b.setData_other _ hks,b.setData_owner]
      exact ⟨rfl,rfl⟩
    · simp [hk]
  · have hm := hmoved pk
    rw [if_neg hpool,if_pos rfl,b.setData_lamports] at hm
    exact hm

theorem topUp_eq_ok (h : topUpStake staker sk p amount ⟨b,b⟩=.ok f) :
    ∃ s pending staked debt,(b sk).data=stakeCodec.encode s ∧ s.isInitialized=true ∧
      settle s p=.ok pending ∧
      checkedAdd s.stakedAmount amount=some staked ∧ rewardDebtFor staked p=.ok debt ∧
      f=⟨b,b.setData sk (stakeCodec.encode {s with
        pendingRewards := pending, stakedAmount := staked, rewardDebt := debt})⟩ := by
  simp only [topUpStake,steps_ok,loadOwnStake_eq_ok] at h
  obtain ⟨s,⟨hs,hlive,-⟩,pending,hpending,staked,hstaked,debt,hdebt,hstore⟩ := h
  rw [store_eq_ok stake_size (stake_length hs (SameState.refl b))] at hstore
  exact ⟨s,pending,staked,debt,hs,hlive,hpending,hstaked,hdebt,hstore⟩

theorem create_eq_ok
    (h : createStake e clock accounts staker sk amount lockTier autoCompound liquidStaking
      ⟨b,b⟩=.ok f) : ∃ b1 unlock,createAccount ⟨e.programId,accounts⟩ staker sk
        (e.minimumBalance stakeLen) stakeLen b=.ok b1 ∧
      unlockTime clock.unixTimestamp lockTier=.ok unlock ∧
      f=⟨b1,b1.setData sk (stakeCodec.encode (newStake e staker amount lockTier
        clock.unixTimestamp unlock autoCompound liquidStaking))⟩ := by
  simp only [createStake,bind_eq_ok] at h
  obtain ⟨_,hinvoke,unlock,hunlock,hstore⟩ := h
  obtain ⟨b1,hcreate,rfl⟩ := invoke_create hinvoke
  have hzeros := (createAccount_spec hcreate).2.2.2.2.2.2.1
  rw [store_eq_ok stake_size (by rw [hzeros]; exact length_replicate)] at hstore
  exact ⟨b1,unlock,hcreate,hunlock,hstore⟩

theorem distribute_eq_ok (h : distribute pk staker net s p f=.ok (s1,p1,f1)) :
    (s.autoCompound=true ∧ ∃ staked total,checkedAdd s.stakedAmount net=some staked ∧
      checkedAdd p.totalStaked net=some total ∧ s1={s with stakedAmount := staked} ∧
      p1={p with totalStaked := total} ∧ f1=f) ∨
    (s.autoCompound=false ∧ s=s1 ∧ p1=p ∧ f1=payFrom pk staker net f) := by
  unfold distribute at h
  by_cases hauto : s.autoCompound=true
  · rw [if_pos hauto] at h
    simp only [steps_ok,Prod.mk.injEq] at h
    obtain ⟨staked,hstaked,total,htotal,hs,hp,hf⟩ := h
    exact Or.inl ⟨hauto,staked,total,hstaked,htotal,hs.symm,hp.symm,hf.symm⟩
  · rw [if_neg hauto] at h
    simp only [Except.ok.injEq,Prod.mk.injEq] at h
    exact Or.inr ⟨by simpa using hauto,h.1,h.2.1.symm,h.2.2.symm⟩

/-- After its checks the handler computes `crank` and stores the pool; the early return would store
what is there. -/
theorem processUpdateRewards_eq {pool clk : AccountInfo} (hclk : clk.key=e.clockSysvar)
    (hpool : (b pool.key).data=poolCodec.encode p) (hactive : p.isInitialized=true) :
    processUpdateRewards e clock (pool::clk::rest) ⟨b,b⟩=
      crank p clock.slot >>= fun p' => pure ⟨b,b.setData pool.key (poolCodec.encode p')⟩ := by
  have hlen : (b pool.key).data.length=poolLen := by rw [hpool]; exact pool_size p
  have hstore (q : StakingPool) : store ⟨b,b⟩ poolCodec q pool.key=
      .ok ⟨b,b.setData pool.key (poolCodec.encode q)⟩ := (store_eq_ok pool_size hlen).mpr rfl
  have hload : loadPool ⟨b,b⟩ pool.key=.ok p := loadPool_eq_ok.mpr hpool
  simp only [processUpdateRewards,crank,require_pos hclk,hload,require_pos hactive,ok_bind,hstore]
  split_ifs with hempty hearly
  · rfl
  · have hsame : b.setData pool.key (poolCodec.encode p)=b := by simp [setData,← hpool]
    rw [ok_bind,hsame]
  · cases totalReward p (saturatingSub clock.slot p.lastUpdateSlot) with
    | error => rfl
    | ok reward =>
      rw [ok_bind,ok_bind]
      cases accumulate p reward <;> rfl

theorem initialize_spec (hp : processInitializePool e accounts rate ⟨b,b⟩=.ok f) :
    ∃ authority mint,Initialized e ⟨clock,accounts,.initializePool rate⟩ b f.view authority mint
      rate := by
  unfold processInitializePool at hp
  split at hp <;> simp only [steps_ok] at hp
  rename_i authority pool mint _ _
  obtain ⟨_,-,_,hpda,_,hinvoke,hstore⟩ := hp
  rw [← hpda] at hinvoke hstore
  obtain ⟨b1,hcreate,rfl,hfresh,howner,hpool,hothers⟩ := created_record pool_size hinvoke hstore
  obtain ⟨hzero,-,-,-,-,hpaid,-,-,-,hmoved,-⟩ := createAccount_spec hcreate
  refine ⟨authority.key,mint.key,rfl,hfresh,howner,hpool,hothers,?_⟩
  rw [setData_lamports]
  have hm := hmoved (poolPda e)
  rw [if_pos rfl] at hm
  by_cases hself : poolPda e=authority.key
  · rw [← hself,hzero] at hpaid
    exact hpaid.trans (Nat.zero_le _)
  · rw [if_neg hself] at hm
    omega

theorem invoke_token {iv : Invocation} (hi : iv.invoke [first,second,authority]
      (callToken e iv tokenProgram index first second authority amount) ⟨b,b⟩=.ok f) :
    ∃ b1,Outside e.programId b b1 ∧ f=⟨b1,b1⟩ := by
  have hcall {b1 : Bank}
    (hc : callToken e iv tokenProgram index first second authority amount b=.ok b1) :
      e.tokenCall tokenProgram (tokenData index amount) [first,second,authority] b=.ok b1 := by
    simp only [callToken,bind_eq_ok] at hc
    exact hc.choose_spec.2
  obtain ⟨b1,hc,rfl⟩ := invoke_clean hi fun hc => (e.confined (hcall hc)).2
  exact ⟨b1,(e.confined (hcall hc)).1,rfl⟩

theorem repositioned_of_store {i : Instruction} (hout : Outside e.programId b b1)
    (hquiet : i.callsToken=false → b1=b)
    (hsync : Synced e.programId accounts f)
    (hstore : store ⟨b1,b1⟩ stakeCodec s' sk=.ok f)
    (hsk : i.stakeIndex.bind (Call.key? ⟨clock,accounts,i⟩)=some sk) (hpk : i.poolIndex=none)
    (hs : (b sk).data=stakeCodec.encode s) (hlive : s.isInitialized=true)
    (hchange : Reposition i s s') : Accepted e ⟨clock,accounts,i⟩ b f.view := by
  simp only [store,steps_ok] at hstore
  obtain ⟨d,hd,rfl⟩ := hstore
  have hcheck := (sync_account (P := program e) hsync (key_mem hsk)).2
  rw [setData_same] at hcheck
  exact .repositioned
    ⟨hsk,hpk,hs,hlive,hchange,b1,d,hout,hquiet,hd,hcheck.symm.imp_right Eq.symm,rfl⟩

variable (hsync : Synced e.programId accounts f)
include hsync

theorem stake_spec
    (hp : processStake e clock accounts amount lockTier autoCompound liquidStaking
      ⟨b,b⟩=.ok f) :
    Accepted e ⟨clock,accounts,.stake amount lockTier autoCompound liquidStaking⟩ b f.view := by
  unfold processStake at hp
  split at hp <;> simp only [steps_ok,loadPool_eq_ok] at hp
  rename_i staker stake pool _ _ _
  obtain ⟨_,-,_,-,_,hpda,p,hpool,_,hactive,_,hposition,_,hinvoke,total,htotal,hfinal⟩ := hp
  unfold loadOrCreateStake at hposition
  by_cases hempty : (b stake.key).data=[]
  · rw [if_pos hempty] at hposition
    obtain ⟨b1,unlock,hcreate,-,rfl⟩ := create_eq_ok hposition
    obtain ⟨-,hdata,howner,hpayer,-,-,-,howner',hother,hmoved,-⟩ :=
      createAccount_spec hcreate
    -- the pool has data, the payer and the new account had none
    have hfull (k : Pubkey) (hk : (b k).data=[]) : pool.key≠k := by
      intro he
      rw [← he,hpool] at hk
      exact absurd (congrArg length hk) (by rw [pool_size p]; decide)
    have hne : stake.key≠pool.key := (hfull _ hdata).symm
    have hpool1 : (b1 pool.key).data=poolCodec.encode p := by
      rw [(hother _ hne.symm).1]
      exact hpool
    obtain ⟨hsame,hsynced,hflow⟩ := deposit_spec hpool1 hne hinvoke
    rw [store_eq_ok pool_size (pool_length hpool1 hne (SameState.refl b1) hsame)] at hfinal
    subst hfinal
    have hsaved : Saved b1 _ stake.key pool.key _ {p with totalStaked := total} :=
      saved hne (SameState.refl b1) hsame
    have howned := record_owned (c := poolCodec) hsync
      (mem_map.mpr ⟨pool,by simp,rfl⟩) hsynced hpool1 hsaved.pool'
    rw [(hother _ hne.symm).2] at howned
    have hm := hmoved pool.key
    rw [if_neg (hfull _ hpayer),if_neg hne.symm] at hm
    change stakePda e staker.key=stake.key at hpda
    refine @Accepted.opened _ _ _ _ staker.key _ _ _ _ _ ⟨⟨_,_,_,unlock,rfl,rfl⟩,?_,rfl,?_,hpool,
      hactive,howned,⟨total,htotal,rfl⟩,?_,?_,hsaved.pool',?_,?_,?_⟩
    · rw [hpda]; rfl
    · rw [hpda]; exact ⟨hdata,howner⟩
    · rw [hpda]; exact hsaved.stake'
    · rw [hpda,hsaved.owners]; exact howner'
    · intro k hk
      rw [hpda] at hk
      rw [hsaved.owners,(hother k hk).2]
    · intro k hk hkp
      rw [hpda] at hk
      rw [hsaved.others k hk hkp,(hother k hk).1]
    · simp only [setData_lamports]
      omega
  · rw [if_neg hempty] at hposition
    obtain ⟨s,_,_,_,hs,hlive,hpending,hstaked,hdebt,rfl⟩ := topUp_eq_ok hposition
    obtain ⟨hsame,hsynced,hflow⟩ := deposit_spec hpool (keys_ne hs hpool) hinvoke
    exact updated_of_store hsync rfl rfl hs hlive hpool (SameState.refl b) hsame hsynced hfinal
      (.topUp hpending hstaked hdebt htotal) hflow.ge

theorem unstake_spec (hp : processUnstake e clock accounts amount ⟨b,b⟩=.ok f) :
    Accepted e ⟨clock,accounts,.unstake amount⟩ b f.view := by
  unfold processUnstake at hp
  split at hp <;> simp only [steps_ok,loadPool_eq_ok,loadOwnStake_eq_ok] at hp
  rename_i staker stake pool _ _ _
  obtain ⟨_,-,_,-,s,⟨hs,hlive,-⟩,_,hlock,_,hle,p,hpool,pending,hpending,staked,hstaked,debt,hdebt,
    f1,hstore,total,htotal,hfinal⟩ := hp
  rw [store_eq_ok stake_size (stake_length hs (SameState.refl b))] at hstore
  subst hstore
  refine updated_of_store hsync rfl rfl hs hlive hpool (SameState.refl b) (payFrom_same _ _ _ _)
    (SameState.refl b) hfinal (.unstake hlock hle hpending hstaked hdebt htotal) ?_
  have hflow := payFrom_flow ⟨b,b.setData stake.key (stakeCodec.encode {s with
    pendingRewards := pending, stakedAmount := staked, rewardDebt := debt})⟩ pool.key staker.key
    amount
  simpa [Instruction.paidIn] using hflow

theorem claim_spec (hp : processClaimRewards accounts ⟨b,b⟩=.ok f) :
    Accepted e ⟨clock,accounts,.claimRewards⟩ b f.view := by
  unfold processClaimRewards at hp
  split at hp <;> simp only [steps_ok,loadPool_eq_ok,loadOwnStake_eq_ok] at hp
  rename_i staker _ pool _ _ _
  obtain ⟨_,-,s,⟨hs,hlive,-⟩,p,hpool,_,hclaim,_,hpos,_,hcut,net,hnet,_,
    hinsurance,⟨s1,p1,f1⟩,hdistribute,debt,hdebt,f2,hstore,hfinal⟩ := hp
  dsimp only at hdebt hstore hfinal
  obtain ⟨hauto,_,_,hstaked,htotal,rfl,rfl,rfl⟩ | ⟨hauto,rfl,rfl,rfl⟩ :=
    distribute_eq_ok hdistribute
  · rw [store_eq_ok stake_size (stake_length hs (SameState.refl b))] at hstore
    subst hstore
    refine updated_of_store hsync rfl rfl hs hlive hpool (SameState.refl b) (SameState.refl _)
      (SameState.refl b) hfinal
      (.compound hauto hclaim hpos hcut hnet hinsurance hstaked htotal hdebt) ?_
    simp [Instruction.paidIn]
  · have hpaid := payFrom_same ⟨b,b⟩ pool.key staker.key net
    rw [store_eq_ok stake_size (stake_length hs hpaid)] at hstore
    subst hstore
    refine updated_of_store hsync rfl rfl hs hlive hpool hpaid (SameState.refl _)
      (SameState.refl b) hfinal (.payout hauto hclaim hpos hcut hnet hinsurance hdebt) ?_
    have hflow := payFrom_flow ⟨b,b⟩ pool.key staker.key net
    simpa [Instruction.paidIn] using hflow

theorem slash_spec (hp : processSlash accounts amount ⟨b,b⟩=.ok f) :
    Accepted e ⟨clock,accounts,.slash amount⟩ b f.view := by
  unfold processSlash at hp
  split at hp <;> simp only [steps_ok,loadPool_eq_ok,loadStake_eq_ok] at hp
  rename_i authority stake pool rest
  obtain ⟨_,-,p,hpool,_,-,s,⟨hs,hlive⟩,_,hactual,_,hinsurance,_,hstaked,_,
    htotal,slashed,hslashed,f1,hstore,hfinal⟩ := hp
  rw [store_eq_ok stake_size (stake_length hs (SameState.refl b))] at hstore
  subst hstore
  refine updated_of_store hsync rfl rfl hs hlive hpool (SameState.refl b) (SameState.refl _)
    (SameState.refl b) hfinal (.slash hactual hinsurance hstaked htotal hslashed) ?_
  simp [Instruction.paidIn]

theorem crank_spec (hp : processUpdateRewards e clock accounts ⟨b,b⟩=.ok f) :
    Accepted e ⟨clock,accounts,.updateRewards⟩ b f.view := by
  have hchecks := hp
  unfold processUpdateRewards at hchecks
  split at hchecks <;> simp only [steps_ok,loadPool_eq_ok] at hchecks
  rename_i pool _ _
  obtain ⟨_,hclk,p,hpool,_,hactive,-⟩ := hchecks
  simp only [processUpdateRewards_eq hclk hpool hactive,steps_ok] at hp
  obtain ⟨_,hcrank,rfl⟩ := hp
  exact .cranked ⟨rfl,rfl,hpool,hactive,record_owned hsync (mem_map.mpr ⟨pool,by simp,rfl⟩)
    (SameState.refl b) hpool (b.setData_same _ _),rfl,crank_of_ok hcrank⟩

theorem delegate_spec (hp : processDelegate accounts validator commissionBps ⟨b,b⟩=.ok f) :
    Accepted e ⟨clock,accounts,.delegate validator commissionBps⟩ b f.view := by
  unfold processDelegate at hp
  split at hp <;> simp only [steps_ok,loadOwnStake_eq_ok] at hp
  rename_i staker stake val rest
  obtain ⟨_,-,s,⟨hs,hlive,-⟩,hstore⟩ := hp
  exact repositioned_of_store (Outside.refl _ b)
    (fun _ => rfl) hsync hstore rfl rfl hs hlive .delegate

theorem toggle_spec (hp : processToggleAutoCompound accounts ⟨b,b⟩=.ok f) :
    Accepted e ⟨clock,accounts,.toggleAutoCompound⟩ b f.view := by
  unfold processToggleAutoCompound at hp
  split at hp <;> simp only [steps_ok,loadOwnStake_eq_ok] at hp
  rename_i staker stake rest
  obtain ⟨_,-,s,⟨hs,hlive,-⟩,hstore⟩ := hp
  exact repositioned_of_store (Outside.refl _ b)
    (fun _ => rfl) hsync hstore rfl rfl hs hlive .toggle

theorem mint_spec (hp : processMintStPrism e accounts ⟨b,b⟩=.ok f) :
    Accepted e ⟨clock,accounts,.mintStPrism⟩ b f.view := by
  unfold processMintStPrism at hp
  split at hp <;> simp only [steps_ok,loadOwnStake_eq_ok] at hp
  rename_i stake _ _ _ _ _
  obtain ⟨_,-,s,⟨hs,hlive,-⟩,_,-,mintable,hmintable,hp⟩ := hp
  by_cases hzero : mintable=0#64
  · rw [if_pos hzero,pure_eq_ok] at hp
    have hstore : store ⟨b,b⟩ stakeCodec s stake.key=.ok f := by
      rw [store_eq_ok stake_size (stake_length hs (SameState.refl b)),← hp,← hs]
      simp [setData]
    exact repositioned_of_store (Outside.refl _ b)
      (fun _ => rfl) hsync hstore rfl rfl hs hlive .mintNothing
  · rw [if_neg hzero] at hp
    simp only [steps_ok] at hp
    obtain ⟨_,-,_,hinvoke,_,hminted,hstore⟩ := hp
    obtain ⟨_,hout,rfl⟩ := invoke_token hinvoke
    exact repositioned_of_store hout (fun hno => by cases hno) hsync hstore rfl rfl hs hlive
      (.mint hmintable hminted)

theorem burn_spec (hp : processBurnStPrism e accounts amount ⟨b,b⟩=.ok f) :
    Accepted e ⟨clock,accounts,.burnStPrism amount⟩ b f.view := by
  unfold processBurnStPrism at hp
  split at hp <;> simp only [steps_ok,loadOwnStake_eq_ok] at hp
  rename_i staker stake mint token prog rest
  obtain ⟨_,-,s,⟨hs,hlive,-⟩,_,-,_,hinvoke,_,hminted,hstore⟩ := hp
  obtain ⟨_,hout,rfl⟩ := invoke_token hinvoke
  exact repositioned_of_store hout
    (fun hno => by cases hno) hsync hstore rfl rfl hs hlive (.burn hminted)

end Handlers

theorem execute_spec {e : Env} (he : (program e).execute c b=.ok b') : Accepted e c b b' := by
  obtain ⟨f,hp,hsync,rfl⟩ := execute_eq_ok.mp he
  obtain ⟨clock,accounts,i⟩ := c
  cases i with
  | initializePool rate =>
    obtain ⟨_,_,hi⟩ :
        ∃ authority mint,Initialized e ⟨clock,accounts,_⟩ b f.view authority mint rate :=
      initialize_spec hp
    exact .initialized hi
  | stake => exact stake_spec hsync hp
  | unstake => exact unstake_spec hsync hp
  | claimRewards => exact claim_spec hsync hp
  | delegate => exact delegate_spec hsync hp
  | toggleAutoCompound => exact toggle_spec hsync hp
  | mintStPrism => exact mint_spec hsync hp
  | burnStPrism => exact burn_spec hsync hp
  | slash => exact slash_spec hsync hp
  | updateRewards => exact crank_spec hsync hp

theorem execute_initialize {e : Env} {c : Call Instruction}
    (hc : c.instruction=.initializePool rate)
    (he : (program e).execute c b=.ok b') :
    ∃ authority mint,Initialized e c b b' authority mint rate := by
  obtain ⟨f,hp,-,rfl⟩ := execute_eq_ok.mp he
  obtain ⟨_,_,i⟩ := c
  dsimp only at hc
  subst hc
  exact initialize_spec hp

end PrismChain.Staking
