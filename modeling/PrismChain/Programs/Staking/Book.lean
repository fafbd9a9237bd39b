import PrismChain.Programs.Staking.Transition

namespace PrismChain.Staking

open Option List

def poolAt (e : Env) (b : Bank) : Option StakingPool :=
  recordAt poolCodec StakingPool.isInitialized e.programId b (poolPda e)

def stakeAt (e : Env) (b : Bank) (k : Pubkey) : Option StakeAccount :=
  recordAt stakeCodec StakeAccount.isInitialized e.programId b k

theorem pool_marked : Marked poolCodec StakingPool.isInitialized := by
  intro p hinit
  change 1#8∈Codec.bool.encode p.isInitialized++_
  rw [hinit]
  exact mem_append_left _ (by decide)

theorem stake_marked : Marked stakeCodec StakeAccount.isInitialized := by
  intro s hinit
  change 1#8∈Codec.bool.encode s.isInitialized++_
  rw [hinit]
  exact mem_append_left _ (by decide)

section Lookup

variable {e : Env} {p : StakingPool}

theorem poolAt_eq_some : poolAt e b=some p ↔ (b (poolPda e)).owner=e.programId ∧
    (b (poolPda e)).data=poolCodec.encode p ∧ p.isInitialized=true :=
  recordAt_eq_some

theorem stakeAt_eq_some : stakeAt e b k=some s ↔
    (b k).owner=e.programId ∧ (b k).data=stakeCodec.encode s ∧ s.isInitialized=true :=
  recordAt_eq_some

theorem poolAt_congr (howner : (b' (poolPda e)).owner=(b (poolPda e)).owner)
    (hdata : (b' (poolPda e)).data=(b (poolPda e)).data) : poolAt e b'=poolAt e b :=
  recordAt_congr howner hdata

theorem poolAt_ne_stake (hs : (b (poolPda e)).data=stakeCodec.encode s) : poolAt e b=none :=
  recordAt_eq_none fun p _ hp _ => pool_ne_stake p s (hp.symm.trans hs)

theorem stake_written (h : stakeCodec.writeTo s buf=some d) (p : StakingPool) :
    d≠poolCodec.encode p := by
  intro he
  unfold Codec.writeTo at h
  split at h
  · have hlen := congrArg length (some.inj h)
    rw [he,pool_size p,length_append,stake_size s] at hlen
    have : poolLen< stakeLen := by decide
    omega
  · cases h

end Lookup

section Changes

variable {e : Env} {b b' : Bank} {sk pk mint : Pubkey} {s s' : StakeAccount} {p p' : StakingPool}
  {out claimed : U64}

theorem Effect.poolLive (he : Effect now i s p s' p' out claimed) :
    p'.isInitialized=p.isInitialized := by
  cases he <;> rfl

theorem Effect.stakeLive (he : Effect now i s p s' p' out claimed) :
    s'.isInitialized=s.isInitialized := by
  cases he <;> rfl

theorem Effect.accumulator (he : Effect now i s p s' p' out claimed) :
    p'.accumulatedRewardPerToken=p.accumulatedRewardPerToken := by
  cases he <;> rfl

theorem Crank.poolLive (hc : Crank slot p p') : p'.isInitialized=p.isInitialized := by
  cases hc <;> rfl

/-- What becomes of the pool when `p` at `pk` is replaced by `p'`. Somebody else's account at
the address of the pool is not the pool. -/
inductive PoolChange (e : Env) (b b' : Bank) (pk : Pubkey) (p p' : StakingPool) : Prop
  | elsewhere (hpk : pk≠poolPda e) (hsame : poolAt e b'=poolAt e b)
  | foreign (hpk : pk=poolPda e) (hbefore : poolAt e b=none) (hafter : poolAt e b'=none)
  | own (hpk : pk=poolPda e) (hbefore : poolAt e b=some p) (hafter : poolAt e b'=some p')

theorem poolChange_of_written (hpool : (b pk).data=poolCodec.encode p)
    (hpool' : (b' pk).data=poolCodec.encode p') (hlive : p'.isInitialized=p.isInitialized)
    (howner : (b' pk).owner=(b pk).owner)
    (hother : pk≠poolPda e → poolAt e b'=poolAt e b) : PoolChange e b b' pk p p' := by
  by_cases hpk : pk=poolPda e
  · subst hpk
    by_cases hown : (b (poolPda e)).owner=e.programId ∧ p.isInitialized=true
    · exact .own rfl (poolAt_eq_some.mpr ⟨hown.1,hpool,hown.2⟩)
        (poolAt_eq_some.mpr ⟨howner.trans hown.1,hpool',hlive.trans hown.2⟩)
    refine .foreign rfl (recordAt_eq_none fun q ho hd hinit => hown ⟨ho,?_⟩)
      (recordAt_eq_none fun q ho hd hinit => hown ⟨howner.symm.trans ho,?_⟩)
    · rw [poolCodec.encode_inj (hpool.symm.trans hd)]
      exact hinit
    · rw [← hlive,poolCodec.encode_inj (hpool'.symm.trans hd)]
      exact hinit
  · exact .elsewhere hpk (hother hpk)

theorem Initialized.pool (hi : Initialized e c b b' authority mint rate) : poolAt e b=none ∧
    poolAt e b'=some ⟨true,authority,mint,0#64,0#128,0#64,0#64,rate,0#64,
      (e.findProgramAddress [poolSeed] e.programId).2⟩ :=
  ⟨recordAt_of_empty pool_size (by decide) hi.fresh.1,poolAt_eq_some.mpr ⟨hi.owned',hi.pool',rfl⟩⟩

theorem Opened.pool_ne (ho : Opened e c b b' staker pk amount s p p') :
    pk≠stakePda e staker := by
  intro he
  have hpool := ho.pool
  rw [he,ho.fresh.1] at hpool
  exact absurd (congrArg length hpool.symm) (by rw [pool_size p]; decide)

theorem Opened.pool_change (ho : Opened e c b b' staker pk amount s p p') :
    PoolChange e b b' pk p p' := by
  obtain ⟨total,-,hp'⟩ := ho.total
  refine poolChange_of_written ho.pool ho.pool' (by rw [hp']) (ho.owners pk ho.pool_ne) ?_
  intro hpk
  by_cases hs : poolPda e=stakePda e staker
  · rw [poolAt_ne_stake (by rw [hs]; exact ho.stake')]
    exact (recordAt_of_empty pool_size (by decide) (by rw [hs]; exact ho.fresh.1)).symm
  · exact poolAt_congr (ho.owners _ hs) (ho.others _ hs (Ne.symm hpk))

theorem Updated.pool_change (hu : Updated e c b b' sk pk s s' p p' out claimed) :
    PoolChange e b b' pk p p' := by
  refine poolChange_of_written hu.pool hu.pool' hu.effect.poolLive (hu.owners pk) ?_
  intro hpk
  by_cases hs : poolPda e=sk
  · rw [poolAt_ne_stake (by rw [hs]; exact hu.stake'),poolAt_ne_stake (by rw [hs]; exact hu.stake)]
  · exact poolAt_congr (hu.owners _) (hu.others _ hs (Ne.symm hpk))

theorem Cranked.pool_change (hc : Cranked e c b b' pk p p') : PoolChange e b b' pk p p' := by
  have hwritten := hc.written
  subst hwritten
  exact poolChange_of_written hc.pool (b.setData_same _ _) hc.crank.poolLive (b.setData_owner _ _ _)
    fun hpk => poolAt_congr (b.setData_owner _ _ _) (b.setData_other _ (Ne.symm hpk))

theorem outside_pool (hout : Outside e.programId b b') : poolAt e b'=poolAt e b ∧
    ∀ q,poolAt e b=some q →
      (b (poolPda e)).lamports.toNat≤(b' (poolPda e)).lamports.toNat :=
  ⟨hout.records pool_marked _,fun _ hq => (hout.owned (poolAt_eq_some.mp hq).1).2.2⟩

theorem Repositioned.pool (hr : Repositioned e c b b' sk s s') : poolAt e b'=poolAt e b ∧
    ∀ q,poolAt e b=some q → (b (poolPda e)).lamports.toNat≤
      (b' (poolPda e)).lamports.toNat := by
  obtain ⟨b1,d,hout,-,hd,-,rfl⟩ := hr.written
  rw [b1.setData_lamports]
  refine ⟨?_,(outside_pool hout).2⟩
  by_cases hs : poolPda e=sk
  · have hnone : poolAt e (b1.setData sk d)=none := by
      refine recordAt_eq_none fun q _ hq _ => stake_written hd q ?_
      rw [← hq,hs,b1.setData_same]
    rw [hnone,poolAt_ne_stake (by rw [hs]; exact hr.stake)]
  · rw [poolAt_congr (b1.setData_owner _ _ _) (b1.setData_other _ hs)]
    exact (outside_pool hout).1

theorem untouched_pool (h0 : Untouched e.programId b) : poolAt e b=none :=
  h0.records pool_marked _

theorem PoolChange.keeps {Q : StakingPool → Prop} {q : StakingPool}
    (hchange : PoolChange e b b' pk p p') (hq : poolAt e b=some q) (hkept : Q q)
    (hown : pk=poolPda e → p=q → Q p') : ∃ q',poolAt e b'=some q' ∧ Q q' := by
  cases hchange with
  | elsewhere _ hsame => exact ⟨q,hsame.trans hq,hkept⟩
  | foreign _ hbefore =>
    rw [hq] at hbefore
    cases hbefore
  | own hpk hbefore hafter => exact ⟨p',hafter,hown hpk (some.inj (hbefore.symm.trans hq))⟩

theorem pool_keeps {Q : StakingPool → Prop} {q : StakingPool} (hx : (program e).execute c b=.ok b')
    (hq : poolAt e b=some q) (hkept : Q q) (hopen : ∀ total,Q {q with totalStaked := total})
    (heffect : ∀ {s s' q' out claimed},
      Effect c.clock.unixTimestamp c.instruction s q s' q' out claimed → Q q')
    (hcrank : c.instruction=.updateRewards → c.key? 0=some (poolPda e) →
      ∀ {q'},Crank c.clock.slot q q' → Q q') : ∃ q',poolAt e b'=some q' ∧ Q q' := by
  cases execute_spec hx with
  | initialized hi =>
    rw [hi.pool.1] at hq
    cases hq
  | opened ho =>
    refine ho.pool_change.keeps hq hkept fun _ heq => ?_
    obtain ⟨total,-,rfl⟩ := ho.total
    subst heq
    exact hopen total
  | updated hu =>
    refine hu.pool_change.keeps hq hkept fun _ heq => ?_
    subst heq
    exact heffect hu.effect
  | repositioned hr => exact ⟨q,hr.pool.1.trans hq,hkept⟩
  | cranked hc =>
    refine hc.pool_change.keeps hq hkept fun hpk heq => ?_
    subst heq
    have hkey := hc.poolKey
    rw [hc.instruction,hpk] at hkey
    exact hcrank hc.instruction hkey hc.crank

theorem stakeAt_ne_pool (hs : stakeAt e b k=some s) (hpool : (b pk).data=poolCodec.encode p) :
    k≠pk :=
  keys_ne (stakeAt_eq_some.mp hs).2.1 hpool

theorem stakeAt_ne_empty (hs : stakeAt e b k=some s) (hempty : (b pk).data=[]) : k≠pk := by
  obtain ⟨-,hdata,-⟩ := stakeAt_eq_some.mp hs
  intro he
  rw [he,hempty] at hdata
  exact absurd (congrArg length hdata.symm) (by rw [stake_size s]; decide)

theorem stake_frame (hx : (program e).execute c b=.ok b') (hs : stakeAt e b k=some s)
    (hother : c.instruction.stakeIndex.bind c.key?≠some k) : stakeAt e b' k=some s := by
  have hcongr (howner : (b' k).owner=(b k).owner) (hdata : (b' k).data=(b k).data) :
      stakeAt e b' k=some s := (recordAt_congr howner hdata).trans hs
  cases execute_spec hx with
  | initialized hi =>
    have hk := hi.others k (stakeAt_ne_empty hs hi.fresh.1)
    exact hcongr hk.2 hk.1
  | opened ho =>
    have hk : k≠stakePda e _ := fun he => hother (by rw [he]; exact ho.stakeKey)
    exact hcongr (ho.owners k hk) (ho.others k hk (stakeAt_ne_pool hs ho.pool))
  | updated hu =>
    have hk : k≠_ := fun he => hother (by rw [he]; exact hu.stakeKey)
    exact hcongr (hu.owners k) (hu.others k hk (stakeAt_ne_pool hs hu.pool))
  | repositioned hr =>
    have hk : k≠_ := fun he => hother (by rw [he]; exact hr.stakeKey)
    obtain ⟨b1,d,hout,-,-,-,rfl⟩ := hr.written
    have hmid : stakeAt e b1 k=some s := (hout.records stake_marked k).trans hs
    exact (recordAt_congr (b1.setData_owner _ _ _) (b1.setData_other _ hk)).trans hmid
  | cranked hc =>
    have hk := stakeAt_ne_pool hs hc.pool
    rw [hc.written] at hcongr ⊢
    exact hcongr (b.setData_owner _ _ _) (b.setData_other _ hk)

inductive BookChange (e : Env) (b b' : Bank) (sk : Pubkey) (s s' : StakeAccount) : Prop
  | foreign (hsame : s'=s) (hbook : ∀ k,stakeAt e b' k=stakeAt e b k)
  | own (hbefore : stakeAt e b sk=some s) (hafter : stakeAt e b' sk=some s')
      (hothers : ∀ k,k≠sk → stakeAt e b' k=stakeAt e b k)

theorem stakeAt_of_pool (hpool : (b k).data=poolCodec.encode p) : stakeAt e b k=none :=
  recordAt_eq_none fun s _ hs _ => pool_ne_stake p s (hpool.symm.trans hs)

theorem stakeAt_of_empty (hempty : (b k).data=[]) : stakeAt e b k=none :=
  recordAt_of_empty stake_size (by decide) hempty

theorem Initialized.book (hi : Initialized e c b b' authority mint rate) (k : Pubkey) :
    stakeAt e b' k=stakeAt e b k := by
  by_cases hk : k=poolPda e
  · subst hk
    rw [stakeAt_of_pool hi.pool',stakeAt_of_empty hi.fresh.1]
  · exact recordAt_congr (hi.others k hk).2 (hi.others k hk).1

theorem Opened.book (ho : Opened e c b b' staker pk amount s p p') :
    stakeAt e b (stakePda e staker)=none ∧ stakeAt e b' (stakePda e staker)=some s ∧
      ∀ k,k≠stakePda e staker → stakeAt e b' k=stakeAt e b k := by
  obtain ⟨_,_,_,_,-,hs⟩ := ho.instruction
  refine ⟨stakeAt_of_empty ho.fresh.1,
    stakeAt_eq_some.mpr ⟨ho.stakeOwned',ho.stake',by rw [hs]; rfl⟩,?_⟩
  intro k hk
  by_cases hpk : k=pk
  · subst hpk
    rw [stakeAt_of_pool ho.pool',stakeAt_of_pool ho.pool]
  · exact recordAt_congr (ho.owners k hk) (ho.others k hk hpk)

theorem Updated.book (hu : Updated e c b b' sk pk s s' p p' out claimed) :
    BookChange e b b' sk s s' := by
  have hothers (k : Pubkey) (hk : k≠sk) : stakeAt e b' k=stakeAt e b k := by
    by_cases hpk : k=pk
    · subst hpk
      rw [stakeAt_of_pool hu.pool',stakeAt_of_pool hu.pool]
    · exact recordAt_congr (hu.owners k) (hu.others k hk hpk)
  by_cases howned : (b sk).owner=e.programId
  · exact .own (stakeAt_eq_some.mpr ⟨howned,hu.stake,hu.live⟩)
      (stakeAt_eq_some.mpr ⟨(hu.owners sk).trans howned,hu.stake',
        hu.effect.stakeLive.trans hu.live⟩) hothers
  · have hsame := hu.stakeOwned.resolve_left howned
    refine .foreign hsame fun k => ?_
    by_cases hk : k=sk
    · subst hk
      refine recordAt_congr (hu.owners k) ?_
      rw [hu.stake',hu.stake,hsame]
    · exact hothers k hk

theorem Cranked.book (hc : Cranked e c b b' pk p p') (k : Pubkey) :
    stakeAt e b' k=stakeAt e b k := by
  rw [hc.written]
  by_cases hk : k=pk
  · subst hk
    rw [stakeAt_of_pool hc.pool,stakeAt_of_pool (b.setData_same k _)]
  · exact recordAt_congr (b.setData_owner _ _ _) (b.setData_other _ hk)

theorem Reposition.stakeLive (hr : Reposition i s s') : s'.isInitialized=s.isInitialized := by
  cases hr <;> rfl

theorem Repositioned.book (hr : Repositioned e c b b' sk s s')
    (howned : c.instruction.callsToken=true → (b sk).owner=e.programId) :
    BookChange e b b' sk s s' := by
  obtain ⟨b1,d,hout,hquiet,hd,hcheck,rfl⟩ := hr.written
  by_cases hown : (b sk).owner=e.programId
  · obtain ⟨hown1,hdata1,-⟩ := hout.owned hown
    have hlen : (b1 sk).data.length=stakeLen := by
      rw [hdata1,hr.stake]
      exact stake_size s
    rw [Codec.writeTo_of_size stake_size hlen] at hd
    cases hd
    have hbefore : stakeAt e b sk=some s := stakeAt_eq_some.mpr ⟨hown,hr.stake,hr.live⟩
    refine .own hbefore (stakeAt_eq_some.mpr ⟨?_,b1.setData_same _ _,?_⟩) fun k hk => ?_
    · rw [b1.setData_owner]
      exact hown1
    · exact hr.change.stakeLive.trans hr.live
    · have hmid : stakeAt e (b1.setData sk (stakeCodec.encode s')) k=stakeAt e b1 k :=
        recordAt_congr (b1.setData_owner _ _ _) (b1.setData_other _ hk)
      exact hmid.trans (hout.records stake_marked k)
  · have hcalls : c.instruction.callsToken=false := by
      cases hi : c.instruction.callsToken with
      | false => rfl
      | true => exact absurd (howned hi) hown
    obtain rfl := hquiet hcalls
    have hsame : d=(b1 sk).data := hcheck.resolve_left hown
    refine .foreign ?_ fun k => ?_
    · rw [Codec.writeTo_of_size stake_size
      (by rw [hr.stake]; exact stake_size s),hsame,hr.stake] at hd
      exact stakeCodec.encode_inj (some.inj hd)
    · subst hsame
      refine recordAt_congr (b1.setData_owner _ _ _) ?_
      by_cases hk : k=sk
      · rw [hk,b1.setData_same]
      · exact b1.setData_other _ hk

end Changes

end PrismChain.Staking
