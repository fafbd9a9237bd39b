import PrismChain.Framework.Transactions
import PrismChain.Programs.Staking.Rewards

namespace PrismChain.Staking

open FixedWidth Aggregate Option List Program

def stakeSum (e : Env) (b : Bank) : Nat :=
  sumOver (fun s : StakeAccount => s.stakedAmount.toNat) (stakeAt e b)

/-- The instruction names the pool of the program, and no foreign position where the token
program is called: the handlers never compare an account's owner. -/
structure OwnPositions (e : Env) (b : Bank) (c : Call Instruction) : Prop where
  pool : PoolPassed e b c
  token : c.instruction.callsToken=true → ∀ sk∈c.key? 1,(b sk).owner=e.programId

/-- The pool and every position hold lamports, so that the end of a transaction drops none of
them. -/
structure Stocked (e : Env) (b : Bank) : Prop where
  pool : (b (poolPda e)).lamports≠0#64
  positions : ∀ k s,stakeAt e b k=some s → (b k).lamports≠0#64

section Steps

variable {e : Env} {c : Call Instruction} {b : Bank} {s : StakeAccount} {p p' : StakingPool}

theorem Stocked.settle (h : Stocked e b) :
    poolAt e b.settle=poolAt e b ∧ ∀ k,stakeAt e b.settle k=stakeAt e b k :=
  ⟨recordAt_settle_of pool_size (by decide) fun _ _ => h.pool,
    fun k => recordAt_settle_of stake_size (by decide) (h.positions k)⟩

theorem Stocked.of_empty (hpool : (b (poolPda e)).lamports≠0#64)
    (hnone : ∀ k,stakeAt e b k=none) : Stocked e b := by
  refine ⟨hpool,fun k s hs => ?_⟩
  rw [hnone k] at hs
  cases hs

theorem Effect.staked (he : Effect now i s p s' p' out claimed) :
    p'.totalStaked.toNat+s.stakedAmount.toNat=p.totalStaked.toNat+s'.stakedAmount.toNat := by
  cases he with
  | topUp _ hstaked _ htotal =>
    have h1 := checkedAdd_eq_some.mp hstaked
    have h2 := checkedAdd_eq_some.mp htotal
    dsimp only
    omega
  | unstake _ _ _ hstaked _ htotal =>
    have h1 := checkedSub_eq_some.mp hstaked
    have h2 := checkedSub_eq_some.mp htotal
    dsimp only
    omega
  | compound _ _ _ _ _ _ hstaked htotal =>
    have h1 := checkedAdd_eq_some.mp hstaked
    have h2 := checkedAdd_eq_some.mp htotal
    dsimp only
    omega
  | payout => rfl
  | slash _ _ hstaked htotal =>
    have h1 := checkedSub_eq_some.mp hstaked
    have h2 := checkedSub_eq_some.mp htotal
    dsimp only
    omega

theorem Reposition.staked (hr : Reposition i s s') : s'.stakedAmount=s.stakedAmount := by
  cases hr <;> rfl

theorem Crank.staked (hc : Crank slot p p') : p'.totalStaked=p.totalStaked := by
  cases hc <;> rfl

theorem PoolChange.passed (hchange : PoolChange e b b' pk q q') (hp : poolAt e b=some p)
    (hpk : pk=poolPda e) : q=p ∧ poolAt e b'=some q' := by
  cases hchange with
  | elsewhere hne => exact absurd hpk hne
  | foreign _ hnone =>
    rw [hp] at hnone
    cases hnone
  | own _ hbefore hafter => exact ⟨some.inj (hbefore.symm.trans hp),hafter⟩

theorem BookChange.stakeSum (hbook : BookChange e b b' sk s s') :
    stakeSum e b'+s.stakedAmount.toNat=stakeSum e b+s'.stakedAmount.toNat := by
  cases hbook with
  | foreign hsame hbook =>
    subst hsame
    unfold Staking.stakeSum
    rw [sumOver_congr hbook]
  | own hbefore hafter hothers => exact sumOver_change hbefore hafter hothers

theorem Opened.stakeSum (ho : Opened e c b b' staker pk amount s p p') :
    stakeSum e b'=stakeSum e b+amount.toNat := by
  obtain ⟨hnone,hsome,hothers⟩ := ho.book
  obtain ⟨_,_,_,_,-,hs⟩ := ho.instruction
  have hstaked : s.stakedAmount=amount := by rw [hs]; rfl
  have hsum :=
    sumOver_insert (g := fun s : StakeAccount => s.stakedAmount.toNat) hnone hsome hothers
  rw [hstaked] at hsum
  exact hsum

theorem Repositioned.owned (hr : Repositioned e c b b' sk s s')
    (htoken : c.instruction.callsToken=true → ∀ k∈c.key? 1,(b k).owner=e.programId) :
    c.instruction.callsToken=true → (b sk).owner=e.programId := by
  intro hi
  refine htoken hi _ ?_
  have hkey := hr.stakeKey
  have hchange := hr.change
  generalize c.instruction=i at hkey hchange
  cases hchange <;> exact hkey

structure Tallied (e : Env) (b : Bank) (p : StakingPool) : Prop where
  pool : poolAt e b=some p
  total : stakeSum e b=p.totalStaked.toNat

theorem Tallied.call (ht : Tallied e b p) (hok : OwnPositions e b c)
    (hx : (program e).execute c b=.ok b') : ∃ p',Tallied e b' p' := by
  have hbefore := ht.total
  cases execute_spec hx with
  | initialized hi =>
    have hp := ht.pool
    rw [hi.pool.1] at hp
    cases hp
  | opened ho =>
    obtain ⟨rfl,hafter⟩ := ho.pool_change.passed ht.pool (hok.pool _ ho.poolKey)
    have hsum := ho.stakeSum
    obtain ⟨total,htotal,rfl⟩ := ho.total
    have hadd := checkedAdd_eq_some.mp htotal
    refine ⟨_,hafter,?_⟩
    dsimp only
    omega
  | updated hu =>
    obtain ⟨rfl,hafter⟩ := hu.pool_change.passed ht.pool (hok.pool _ hu.poolKey)
    have hsum := hu.book.stakeSum
    have hstaked := hu.effect.staked
    exact ⟨_,hafter,by omega⟩
  | repositioned hr =>
    have hsum := (hr.book (hr.owned hok.token)).stakeSum
    rw [hr.change.staked] at hsum
    exact ⟨p,hr.pool.1.trans ht.pool,by omega⟩
  | cranked hc =>
    obtain ⟨rfl,hafter⟩ := hc.pool_change.passed ht.pool (hok.pool _ hc.poolKey)
    refine ⟨_,hafter,?_⟩
    rw [hc.crank.staked,← hbefore]
    exact sumOver_congr hc.book

theorem Tallied.step {s : Ledger} (ht : Tallied e s.bank p)
    (hstep : (program e).Settling (OwnPositions e) (Stocked e) s a t) :
    ∃ p',Tallied e t.bank p' := by
  have hsame {b' : Bank} (hpool : poolAt e b'=poolAt e s.bank)
      (hbook : ∀ k,stakeAt e b' k=stakeAt e s.bank k) : ∃ p',Tallied e b' p' := by
    refine ⟨p,hpool.trans ht.pool,?_⟩
    rw [← ht.total]
    exact sumOver_congr hbook
  cases hstep with
  | settle hkept => exact hsame hkept.settle.1 hkept.settle.2
  | step hstep =>
    cases hstep with
    | call _ hok hx => exact ht.call hok hx
    | outside _ hout => exact hsame (outside_pool hout).1 fun k => hout.records stake_marked k

theorem Tallied.start (h0 : Untouched e.programId b) (hc : c.instruction=.initializePool r)
    (hx : (program e).execute c b=.ok b') : ∃ p',Tallied e b' p' ∧ ∀ k,stakeAt e b' k=none := by
  obtain ⟨_,_,hi⟩ := execute_initialize hc hx
  have hnone (k : Pubkey) : stakeAt e b' k=none := (hi.book k).trans (h0.records stake_marked k)
  exact ⟨_,⟨hi.pool.2,sumOver_empty hnone⟩,hnone⟩

theorem Tallied.le (ht : Tallied e b p) (hs : stakeAt e b k=some s) :
    s.stakedAmount.toNat≤p.totalStaked.toNat := by
  rw [← ht.total]
  exact le_sumOver (g := fun s : StakeAccount => s.stakedAmount.toNat) hs

end Steps

/-- The pool's total is the sum of the positions after every instruction as long as the pool is
never emptied, and so any part of a position can be taken off it. -/
theorem total_staked_exact {e : Env} {s₀ t : Ledger} {c₀ : Call Instruction} {b₀ : Bank} {r : U64}
    {tr : Trace Instruction} (h0 : Untouched e.programId s₀.bank)
    (hc₀ : c₀.instruction=.initializePool r) (hx₀ : (program e).execute c₀ s₀.bank=.ok b₀)
    (hrun : Run ((program e).Settling (OwnPositions e) (Stocked e)) ⟨b₀,c₀.clock⟩ tr t) :
    ∃ p,poolAt e t.bank=some p ∧
      sumOver (fun s : StakeAccount => s.stakedAmount.toNat) (stakeAt e t.bank)=
        p.totalStaked.toNat ∧
      ∀ {k s},stakeAt e t.bank k=some s → ∀ amount : U64,amount.toNat≤ s.stakedAmount.toNat →
        ∃ total,checkedSub p.totalStaked amount=some total := by
  obtain ⟨p₀,hstart,-⟩ := Tallied.start h0 hc₀ hx₀
  obtain ⟨p,ht⟩ : ∃ p,Tallied e t.bank p :=
    hrun.invariant
      (I := fun t => ∃ p,Tallied e t.bank p) ⟨p₀,hstart⟩ fun ⟨_,ht⟩ hstep => ht.step hstep
  refine ⟨p,ht.pool,ht.total,fun hs amount hle => ?_⟩
  exact ⟨_,if_pos (hle.trans (ht.le hs))⟩

theorem yearCalls_own (hc : c∈yearCalls) : OwnPositions sampleEnv b c := by
  have hpool : PoolPassed sampleEnv b c := passed_of_keys (by decide +kernel) c hc b
  simp only [yearCalls,mem_cons,not_mem_nil,or_false] at hc
  obtain rfl | rfl | rfl := hc
  · exact ⟨hpool,nofun⟩
  · exact ⟨hpool,nofun⟩
  · exact ⟨hpool,nofun⟩

theorem initBank_stocked : Stocked sampleEnv initBank := by
  obtain ⟨_,-,hnone⟩ := Tallied.start genesis_untouched rfl init_executes
  exact .of_empty (by decide +kernel) hnone

theorem total_staked_after_year : ∃ tr t s p total,
    Run ((program sampleEnv).Settling (OwnPositions sampleEnv) (Stocked sampleEnv))
        ⟨initBank,(initCall 2#64).clock⟩ tr t ∧
      stakeAt sampleEnv t.bank sampleStake=some s ∧ s.stakedAmount=1000000000#64 ∧
      poolAt sampleEnv t.bank=some p ∧
      sumOver (fun s : StakeAccount => s.stakedAmount.toNat) (stakeAt sampleEnv t.bank)=
        p.totalStaked.toNat ∧
      checkedSub p.totalStaked 1000000000#64=some total := by
  obtain ⟨⟨tr,t⟩,hhistory,s,hs,hstaked⟩ : ∃ x,(program sampleEnv).history yearCalls
      ⟨initBank.settle,(initCall 2#64).clock⟩=some x ∧ ∃ s,
        stakeAt sampleEnv x.2.bank sampleStake=some s ∧
      s.stakedAmount=1000000000#64 := by decide +kernel
  -- the transaction that makes the pool ends before the first stake
  have hrun : Run ((program sampleEnv).Settling (OwnPositions sampleEnv) (Stocked sampleEnv))
      ⟨initBank,(initCall 2#64).clock⟩ _ t :=
    settling_after initBank_stocked
      (history_run_calls hhistory fun c hc b => yearCalls_own hc)
  obtain ⟨p,hp,hsum,hsub⟩ := total_staked_exact genesis_untouched rfl init_executes hrun
  obtain ⟨total,htotal⟩ := hsub hs 1000000000#64 (by rw [hstaked])
  exact ⟨_,t,s,p,total,hrun,hs,hstaked,hp,hsum,htotal⟩

def handoverEnv : Env where
  toHost := sampleEnv
  tokenCall _ _ keys b :=
    if (b 7#256).owner=9#256 ∧ 7#256∈keys then
      .ok (Function.update b 7#256 ⟨(b 7#256).lamports,List.replicate stakeLen 0#8,1#256⟩)
    else .error .incorrectProgramId
  confined {p d ks b b'} h := by
    split at h
    case isFalse => cases h
    rename_i hcond
    cases h
    refine ⟨fun k => ?_,fun k hk => ?_⟩
    · by_cases hk : k=7#256
      · subst hk
        rw [Function.update_self]
        refine ⟨fun ho => ?_,fun _ _ x hx => List.eq_of_mem_replicate hx⟩
        rw [hcond.1] at ho
        cases ho
      · rw [Function.update_of_ne hk]
        exact ⟨fun ho => ⟨ho,rfl,le_rfl⟩,fun hno ho => absurd ho hno⟩
    · exact Function.update_of_ne (fun he => hk (by rw [he]; exact hcond.2)) _ _

def handoverBank : Bank := fun k =>
  if k=7#256 then ⟨1816560#64,stakeCodec.encode ⟨true,3#256,0#256,1000000000000000000#64,0#128,0#64,
    .flexible,0#64,0#64,false,true,0#64,0#64,0#8⟩,9#256⟩
  else ⟨0#64,[],systemProgram⟩

def handoverCall : Call Instruction where
  clock := ⟨2#64,1000#64⟩
  accounts := [⟨3#256,true,true⟩,⟨7#256,false,true⟩,⟨7#256,false,true⟩,⟨8#256,false,true⟩,
    ⟨sampleAuthority,false,false⟩,⟨9#256,false,false⟩]
  instruction := .mintStPrism

def handoverGenesis : Ledger where
  bank k := if k=7#256 then handoverBank k else genesis.bank k
  clock := genesis.clock

theorem handoverGenesis_untouched : Untouched handoverEnv.programId handoverGenesis.bank := by
  intro k hk
  by_cases h7 : k=7#256
  · subst h7
    cases hk
  · simp only [handoverGenesis,h7,if_false] at hk ⊢
    exact genesis_untouched k hk

def forgedUnstake : Call Instruction where
  clock := ⟨2#64,1000#64⟩
  accounts := [⟨3#256,true,true⟩,⟨7#256,false,true⟩,⟨samplePool,false,true⟩,⟨4#256,false,false⟩,
    systemInfo]
  instruction := .unstake 1#64

/-- A position that no stake was paid for: the pool counts nothing while the book counts a billion
PRISM, and nothing within the position can be taken off the total. -/
theorem forged_position_uncounted :
    ∃ tr t s p,Untouched handoverEnv.programId handoverGenesis.bank ∧
      Run ((program handoverEnv).Step (PoolPassed handoverEnv)) handoverGenesis tr t ∧
      stakeAt handoverEnv t.bank 7#256=some s ∧ poolAt handoverEnv t.bank=some p ∧
      s.stakedAmount=1000000000000000000#64 ∧ p.totalStaked=0#64 ∧
      sumOver (fun s : StakeAccount => s.stakedAmount.toNat) (stakeAt handoverEnv t.bank)≠
        p.totalStaked.toNat ∧
      checkedSub p.totalStaked 1#64=none ∧
      (program handoverEnv).execute forgedUnstake t.bank=.error (err .overflow) := by
  obtain ⟨⟨tr,t⟩,hhistory,s,hs,hstaked,p,hp,htotal,hnone,hunstake⟩ :
      ∃ x,(program handoverEnv).history [initCall 2#64,handoverCall] handoverGenesis=some x ∧
      ∃ s,stakeAt handoverEnv x.2.bank 7#256=some s ∧ s.stakedAmount=1000000000000000000#64 ∧
      ∃ p,poolAt handoverEnv x.2.bank=some p ∧ p.totalStaked=0#64 ∧
      checkedSub p.totalStaked 1#64=none ∧
      (program handoverEnv).execute forgedUnstake x.2.bank=.error (err .overflow) := by
    decide +kernel
  have hrun : Run ((program handoverEnv).Step (PoolPassed handoverEnv)) handoverGenesis tr t := by
    refine history_run_calls hhistory fun c hc b => ?_
    simp only [mem_cons,not_mem_nil,or_false] at hc
    obtain rfl | rfl := hc
    · exact fun k hk => (some.inj hk).symm
    · exact nofun
  refine ⟨tr,t,s,p,handoverGenesis_untouched,hrun,hs,hp,hstaked,htotal,?_,hnone,hunstake⟩
  have hle := le_sumOver (g := fun s : StakeAccount => s.stakedAmount.toNat) hs
  rw [hstaked] at hle
  rw [htotal]
  intro heq
  rw [heq] at hle
  cases hle

end PrismChain.Staking
