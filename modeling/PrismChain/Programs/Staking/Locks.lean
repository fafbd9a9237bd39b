import PrismChain.Programs.Staking.Positions

namespace PrismChain.Staking

open FixedWidth Option Program

def stakedAt (e : Env) (b : Bank) (k : Pubkey) : Nat :=
  (stakeAt e b k).elim 0 fun s => s.stakedAmount.toNat

def lockEnd (now : I64) (lockTier : LockTier) : Int :=
  now.toInt+lockTier.lockDurationSeconds.toInt

/-- The lock that the position at `k` has, or is about to be opened with, lasts as long as the one
that is asked for, if one is. A time that is not positive counts as no lock. -/
def LockCovers (e : Env) (b : Bank) (k : Pubkey) (now : I64) (lockTier : LockTier) : Prop :=
  lockTier=.flexible ∨ match stakeAt e b k with
    | none => 0<lockEnd now lockTier
    | some s => 0< s.unlockTimestamp.toInt ∧ lockEnd now lockTier≤ s.unlockTimestamp.toInt

def NoSlash (k : Pubkey) (_ : Bank) (c : Call Instruction) : Prop :=
  ∀ amount,c.instruction=.slash amount → c.key? 1≠some k

def Held (e : Env) (k : Pubkey) (amount : U64) (unlock : I64) (t : Ledger) : Prop :=
  ∃ s,stakeAt e t.bank k=some s ∧ s.unlockTimestamp=unlock ∧
    (t.clock.unixTimestamp.toInt<unlock.toInt → amount.toNat≤ s.stakedAmount.toNat)

section Steps

variable {e : Env} {amount : U64}

theorem Reposition.unlockKept (hr : Reposition i s s') : s'.unlockTimestamp=s.unlockTimestamp := by
  cases hr <;> rfl

theorem Effect.unlockKept (he : Effect now i s p s' p' out claimed) :
    s'.unlockTimestamp=s.unlockTimestamp := by
  cases he <;> rfl

theorem Effect.locked (he : Effect now i s p s' p' out claimed) (hno : ∀ amount,i≠.slash amount)
    (hpos : 0< s.unlockTimestamp.toInt) (hlock : now.toInt< s.unlockTimestamp.toInt) :
    s.stakedAmount.toNat≤ s'.stakedAmount.toNat := by
  cases he with
  | topUp _ hstaked =>
    have h := checkedAdd_eq_some.mp hstaked
    dsimp only
    omega
  | unstake hunlocked => exact absurd ⟨hpos,hlock⟩ hunlocked
  | compound _ _ _ _ _ _ hstaked =>
    have h := checkedAdd_eq_some.mp hstaked
    dsimp only
    omega
  | payout => exact le_rfl
  | slash => exact absurd rfl (hno _)

theorem Held.step (hheld : Held e k amount unlock t) (hpos : 0<unlock.toInt)
    (hstep : (program e).Step (NoSlash k) t a u) : Held e k amount unlock u := by
  obtain ⟨s,hs,hunlock,hamount⟩ := hheld
  have htime := hstep.before.2
  have hearlier (hlock : u.clock.unixTimestamp.toInt<unlock.toInt) :
      amount.toNat≤ s.stakedAmount.toNat := hamount (htime.trans_lt hlock)
  cases hstep with
  | outside _ hout => exact ⟨s,(hout.records stake_marked k).trans hs,hunlock,hearlier⟩
  | @call c b _ hok hx =>
    have howned := (stakeAt_eq_some.mp hs).1
    cases moved_of_execute (k := k) hx fun _ _ => howned with
    | same hsame => exact ⟨s,hsame.trans hs,hunlock,hearlier⟩
    | opened _ _ hnone =>
      rw [hs] at hnone
      cases hnone
    | @effect s0 s' _ _ _ _ _ hkey hbefore hafter _ _ heffect =>
      cases hbefore.symm.trans hs
      refine ⟨s',hafter,heffect.unlockKept.trans hunlock,fun hlock => ?_⟩
      subst hunlock
      exact (hearlier hlock).trans (heffect.locked (fun _ hi => hok _ hi hkey) hpos hlock)
    | @reposition s0 s' hbefore hafter hchange =>
      cases hbefore.symm.trans hs
      refine ⟨s',hafter,hchange.unlockKept.trans hunlock,fun hlock => ?_⟩
      rw [hchange.staked]
      exact hearlier hlock

end Steps

section Stakes

variable {e : Env} {c : Call Instruction} {lockTier : LockTier}

theorem unlockTime_eq (hlock : 0<lockTier.lockDurationSeconds.toInt)
    (h : unlockTime now lockTier=.ok unlock) : unlock.toInt=lockEnd now lockTier := by
  unfold unlockTime at h
  rw [if_pos hlock,okOr_eq_ok] at h
  exact checkedAddSigned_eq_some.mp h

theorem topUp_staked {claimed : U64}
    (he : Effect now (.stake amount lockTier autoCompound liquidStaking) s p s' p' out claimed) :
    s'.stakedAmount.toNat=s.stakedAmount.toNat+amount.toNat := by
  cases he with
  | topUp _ hstaked => exact checkedAdd_eq_some.mp hstaked

theorem stake_held (hc : c.instruction=.stake amount lockTier autoCompound liquidStaking)
    (hk : c.key? 1=some k) (hlock : lockTier≠.flexible)
    (hcover : LockCovers e b k c.clock.unixTimestamp lockTier)
    (hx : (program e).execute c b=.ok b') (hamount : amount≠0#64) :
    ∃ unlock,0<unlock.toInt ∧ lockEnd c.clock.unixTimestamp lockTier≤unlock.toInt ∧
      Held e k amount unlock ⟨b',c.clock⟩ := by
  have hcover := hcover.resolve_left hlock
  cases execute_spec hx with
  | initialized hinit =>
    have hi := hinit.instruction
    rw [hc] at hi
    cases hi
  | @opened staker _ _ _ _ _ ho =>
    have hkey := ho.stakeKey
    rw [hc] at hkey
    cases hk.symm.trans hkey
    obtain ⟨_,unlock,hunlock,hdata⟩ := stake_unlock hx hc hk ho.fresh.1
    rw [ho.book.1] at hcover
    have hduration : 0<lockTier.lockDurationSeconds.toInt := by
      cases lockTier with
      | flexible => exact absurd rfl hlock
      | locked30 => decide
      | locked90 => decide
      | locked180 => decide
      | locked365 => decide
    have hend := unlockTime_eq hduration hunlock
    exact ⟨unlock,by rw [hend]; exact hcover,hend.ge,_,
      stakeAt_eq_some.mpr ⟨ho.stakeOwned',hdata,rfl⟩,rfl,fun _ => le_rfl⟩
  | @updated sk _ s s' _ _ _ _ hu =>
    cases hk.symm.trans hu.key
    have heffect := hu.effect
    rw [hc] at heffect
    have hstaked := topUp_staked heffect
    cases hu.book with
    | foreign hsame =>
      rw [hsame] at hstaked
      exact absurd (BitVec.eq_of_toNat_eq (show amount.toNat=0 by omega)) hamount
    | own hbefore hafter =>
      rw [hbefore] at hcover
      exact ⟨s.unlockTimestamp,hcover.1,hcover.2,s',hafter,heffect.unlockKept,
        fun _ => by rw [hstaked]; exact Nat.le_add_left _ _⟩
  | repositioned hr =>
    have hchange := hr.change
    rw [hc] at hchange
    cases hchange
  | cranked hcrank =>
    have hi := hcrank.instruction
    rw [hc] at hi
    cases hi

end Stakes

/-- A stake whose lock is covered by that of its position stays in the position until the end of
the tier that was asked for. -/
theorem lock_tier_honoured {e : Env} {c : Call Instruction} {b b' : Bank} {k : Pubkey}
    {amount : U64}
    {lockTier : LockTier} {autoCompound liquidStaking : Bool} {t : Ledger} {tr : Trace Instruction}
    (hc : c.instruction=.stake amount lockTier autoCompound liquidStaking) (hk : c.key? 1=some k)
    (hcover : LockCovers e b k c.clock.unixTimestamp lockTier)
    (hx : (program e).execute c b=.ok b')
    (hrun : Run ((program e).Step (NoSlash k)) ⟨b',c.clock⟩ tr t)
    (hlock :
    t.clock.unixTimestamp.toInt<c.clock.unixTimestamp.toInt+lockTier.lockDurationSeconds.toInt) :
    amount.toNat≤ stakedAt e t.bank k := by
  by_cases hamount : amount=0#64
  · rw [hamount]
    exact Nat.zero_le _
  have hclock : c.clock.unixTimestamp.toInt≤t.clock.unixTimestamp.toInt :=
    hrun.invariant (I := fun t => c.clock.unixTimestamp.toInt≤t.clock.unixTimestamp.toInt) le_rfl
      fun hle hstep => hle.trans hstep.before.2
  have hnot : lockTier≠.flexible := by
    rintro rfl
    change _<_+0 at hlock
    omega
  obtain ⟨unlock,hpos,hend,hheld⟩ := stake_held hc hk hnot hcover hx hamount
  obtain ⟨s,hs,-,hstaked⟩ : Held e k amount unlock t :=
    hrun.invariant (I := Held e k amount unlock) hheld fun hheld hstep => hheld.step hpos hstep
  unfold stakedAt
  rw [hs]
  exact hstaked (hlock.trans_le hend)

def lockedStake (lockTier : LockTier) : Call Instruction :=
  {stakeCall 2#256 sampleStake 3#64 with instruction := .stake 1000000000#64 lockTier false false}

def laterCrank : Call Instruction := {crankCall 63072003#64 with clock := ⟨63072003#64,865000#64⟩}

def lockBank : Bank :=
  ((program sampleEnv).execute (lockedStake .locked30) initBank).toOption.getD initBank

theorem lock_executes : (program sampleEnv).execute (lockedStake .locked30) initBank=.ok lockBank :=
  eq_ok_of_isOk initBank (by decide +kernel)

theorem stake_locked_for_ten_days : ∃ tr t,
    Run ((program sampleEnv).Step (NoSlash sampleStake))
      ⟨lockBank,(lockedStake .locked30).clock⟩ tr t ∧
      t.clock.unixTimestamp=865000#64 ∧ 1000000000≤ stakedAt sampleEnv t.bank sampleStake := by
  obtain ⟨⟨tr,t⟩,hhistory,hclock⟩ :
      ∃ x,(program sampleEnv).history [laterCrank] ⟨lockBank,(lockedStake .locked30).clock⟩=some x ∧
      x.2.clock.unixTimestamp=865000#64 := by decide +kernel
  have hrun : Run ((program sampleEnv).Step (NoSlash sampleStake))
      ⟨lockBank,(lockedStake .locked30).clock⟩ tr t := by
    refine history_run_calls hhistory fun c hc b amount hi => ?_
    rw [List.mem_singleton.mp hc] at hi
    cases hi
  refine ⟨tr,t,hrun,hclock,?_⟩
  have hcover :
    LockCovers sampleEnv initBank sampleStake (lockedStake .locked30).clock.unixTimestamp
      .locked30 := by
    have hnone : (stakeAt sampleEnv initBank sampleStake).isNone=true := by decide +kernel
    refine Or.inr ?_
    rw [isNone_iff_eq_none.mp hnone]
    change (0 : Int)<lockEnd _ _
    decide
  exact lock_tier_honoured (e := sampleEnv) rfl rfl hcover lock_executes hrun (by
    change t.clock.unixTimestamp=865000#64 at hclock
    rw [hclock]
    decide)

/-- A PRISM staked for a year on top of a flexible position is withdrawn at once. -/
theorem locked_stake_withdrawn_at_once : ∃ tr₀ t₀ b' tr t,
    Run ((program sampleEnv).Step anyCall) genesis tr₀ t₀ ∧
      (program sampleEnv).execute (lockedStake .locked365) t₀.bank=.ok b' ∧
      Run ((program sampleEnv).Step (NoSlash sampleStake))
        ⟨b',(lockedStake .locked365).clock⟩ tr t ∧
      t.clock.unixTimestamp.toInt<(lockedStake .locked365).clock.unixTimestamp.toInt+
        LockTier.locked365.lockDurationSeconds.toInt ∧
      stakedAt sampleEnv t.bank sampleStake=0 := by
  obtain ⟨⟨tr₀,t₀⟩,hbefore,b',hb',⟨tr,t⟩,hafter,hstaked,hclock⟩ :
      ∃ x,(program sampleEnv).history [initCall 2#64,stakeCall 2#256 sampleStake 3#64] genesis=
        some x ∧ ∃ b',(program sampleEnv).execute (lockedStake .locked365) x.2.bank=.ok b' ∧
      ∃ y,(program sampleEnv).history [unstakeCall 2000000000#64]
        ⟨b',(lockedStake .locked365).clock⟩=some y ∧ stakedAt sampleEnv y.2.bank sampleStake=0 ∧
      y.2.clock.unixTimestamp=1000#64 := by decide +kernel
  refine ⟨tr₀,t₀,b',tr,t,history_anyCall hbefore,hb',?_,?_,hstaked⟩
  · refine history_run_calls hafter fun c hc b amount hi => ?_
    rw [List.mem_singleton.mp hc] at hi
    cases hi
  · change t.clock.unixTimestamp=1000#64 at hclock
    rw [hclock]
    decide

end PrismChain.Staking
