import PrismChain.Programs.Staking.Withdrawal

namespace PrismChain.Staking

inductive Moved (e : Env) (c : Call Instruction) (b b' : Bank) (k : Pubkey) : Prop
  | same (hsame : stakeAt e b' k=stakeAt e b k)
  | opened {staker : Pubkey} {amount : U64} {lockTier : LockTier} {unlock : I64}
      {autoCompound liquidStaking : Bool}
      (hc : c.instruction=.stake amount lockTier autoCompound liquidStaking)
      (hkey : c.key? 1=some k) (hnone : stakeAt e b k=none)
      (hsome : stakeAt e b' k=some (newStake e staker amount lockTier
        c.clock.unixTimestamp unlock autoCompound liquidStaking))
  | effect {s s' : StakeAccount} {p p' : StakingPool} {pk : Pubkey} {out claimed : U64}
      (hkey : c.key? 1=some k) (hbefore : stakeAt e b k=some s) (hafter : stakeAt e b' k=some s')
      (hpk : c.instruction.poolIndex.bind c.key?=some pk) (hpool : (b pk).data=poolCodec.encode p)
      (heffect : Effect c.clock.unixTimestamp c.instruction s p s' p' out claimed)
  | reposition {s s' : StakeAccount} (hbefore : stakeAt e b k=some s)
      (hafter : stakeAt e b' k=some s') (hchange : Reposition c.instruction s s')

section Moves

variable {e : Env}

theorem Updated.key (hu : Updated e c b b' sk pk s s' p p' out claimed) : c.key? 1=some sk := by
  have hkey := hu.stakeKey
  have heffect := hu.effect
  generalize c.instruction=i at hkey heffect
  cases heffect <;> exact hkey

theorem Repositioned.key (hr : Repositioned e c b b' sk s s') : c.key? 1=some sk := by
  have hkey := hr.stakeKey
  have hchange := hr.change
  generalize c.instruction=i at hkey hchange
  cases hchange <;> exact hkey

theorem Repositioned.moved (hr : Repositioned e c b b' sk s s')
    (htoken : c.instruction.callsToken=true → sk=k → (b k).owner=e.programId) :
    Moved e c b b' k := by
  by_cases hk : k=sk
  · subst hk
    cases hr.book fun hcalls => htoken hcalls rfl with
    | foreign _ hbook => exact .same (hbook k)
    | own hbefore hafter => exact .reposition hbefore hafter hr.change
  · obtain ⟨b1,d,hout,-,-,-,rfl⟩ := hr.written
    have hmid : stakeAt e (b1.setData sk d) k=stakeAt e b1 k :=
      recordAt_congr (b1.setData_owner _ _ _) (b1.setData_other _ hk)
    exact .same (hmid.trans (hout.records stake_marked k))

theorem moved_of_execute (hx : (program e).execute c b=.ok b')
    (htoken : c.instruction.callsToken=true → c.key? 1=some k → (b k).owner=e.programId) :
    Moved e c b b' k := by
  cases execute_spec hx with
  | initialized hi => exact .same (hi.book k)
  | @opened staker _ _ _ _ _ ho =>
    obtain ⟨hnone,hsome,hothers⟩ := ho.book
    by_cases hk : k=stakePda e staker
    · subst hk
      obtain ⟨_,_,_,_,hi,rfl⟩ := ho.instruction
      have hkey := ho.stakeKey
      rw [hi] at hkey
      exact .opened hi hkey hnone hsome
    · exact .same (hothers k hk)
  | @updated sk _ _ _ _ _ _ _ hu =>
    cases hu.book with
    | foreign _ hbook => exact .same (hbook k)
    | own hbefore hafter hothers =>
      by_cases hk : k=sk
      · subst hk
        exact .effect hu.key hbefore hafter hu.poolKey hu.pool hu.effect
      · exact .same (hothers k hk)
  | repositioned hr =>
    exact hr.moved fun hcalls hk => htoken hcalls (by rw [← hk]; exact hr.key)
  | cranked hc => exact .same (hc.book k)

theorem stake_unlock {amount : U64} (hx : (program e).execute c b=.ok b')
    (hc : c.instruction=.stake amount lockTier autoCompound liquidStaking) (hkey : c.key? 1=some k)
    (hempty : (b k).data=[]) :
    ∃ staker unlock,unlockTime c.clock.unixTimestamp lockTier=.ok unlock ∧
      (b' k).data=stakeCodec.encode (newStake e staker amount lockTier
        c.clock.unixTimestamp unlock autoCompound liquidStaking) := by
  obtain ⟨f,hp,-,rfl⟩ := Program.execute_eq_ok.mp hx
  obtain ⟨clock,accounts,i⟩ := c
  obtain rfl : i=_ := hc
  change processStake e clock accounts amount lockTier autoCompound liquidStaking ⟨b,b⟩=.ok f
    at hp
  unfold processStake at hp
  split at hp
  case h_2 => cases hp
  rename_i staker stake pool _ _ _
  cases hkey
  simp only [steps_ok,loadPool_eq_ok] at hp
  obtain ⟨_,-,_,-,_,-,p,hpool,_,-,_,hposition,_,hinvoke,total,-,hfinal⟩ := hp
  unfold loadOrCreateStake at hposition
  rw [if_pos hempty] at hposition
  obtain ⟨b1,unlock,hcreate,hunlock,rfl⟩ := create_eq_ok hposition
  have hother := (Invocation.createAccount_spec hcreate).2.2.2.2.2.2.2.2.1
  have hne : stake.key≠pool.key := by
    intro he
    rw [← he,hempty] at hpool
    exact absurd (congrArg List.length hpool.symm) (by rw [pool_size p]; decide)
  have hpool1 : (b1 pool.key).data=poolCodec.encode p := by
    rw [(hother _ hne.symm).1]
    exact hpool
  obtain ⟨hsame,-,-⟩ := deposit_spec hpool1 hne hinvoke
  rw [Frame.store_eq_ok pool_size (pool_length hpool1 hne (SameState.refl b1) hsame)] at hfinal
  subst hfinal
  have hsaved : Saved _ _ _ _ _ {p with totalStaked := total} :=
    saved hne (SameState.refl b1) hsame
  exact ⟨staker.key,unlock,hunlock,hsaved.stake'⟩

end Moves

end PrismChain.Staking
