import PrismChain.Programs.Vesting.Release

namespace PrismChain.Vesting

open FixedWidth Aggregate Option List Program

theorem schedule_marked : Marked scheduleCodec VestingSchedule.isInitialized := by
  intro s hinit
  change 1#8∈Codec.bool.encode s.isInitialized++_
  rw [hinit]
  exact mem_append_left _ (by decide)

theorem registry_marked : Marked registryCodec VestingRegistry.isInitialized := by
  intro r hinit
  change 1#8∈Codec.bool.encode r.isInitialized++_
  rw [hinit]
  exact mem_append_left _ (by decide)

def Instruction.registryIndex : Instruction → Option Nat
  | .initializeRegistry | .createSchedule .. | .transferAuthority _ => some 1
  | .claim | .revoke => some 2
  | .querySchedule => none

def RegistryPassed (e : Deployment) (c : Call Instruction) : Prop :=
  ∀ i,c.instruction.registryIndex=some i → c.key? i=some (registryPda e).1

def ClaimsOwned (e : Deployment) (b : Bank) (c : Call Instruction) : Prop :=
  c.instruction=.claim → ∀ k,c.key? 1=some k → (b k).owner=e.programId

def TracksSchedules (e : Deployment) (b : Bank) (c : Call Instruction) : Prop :=
  RegistryPassed e c ∧ ClaimsOwned e b c

/-- The registry's totals are those of the schedules on the books. -/
structure Balanced (r : VestingRegistry) (book : Pubkey → Option VestingSchedule) : Prop where
  deposits : r.totalDeposited.toNat=r.totalRevoked.toNat+sumOver (fun s => s.totalAmount.toNat) book
  claims : r.totalClaimed.toNat=sumOver (fun s => s.claimedAmount.toNat) book

def Within (s : VestingSchedule) (now : Int) : Prop :=
  s.claimedAmount.toNat≤ s.totalAmount.toNat ∧
    (s.status=.active → s.claimedAmount.toNat≤ s.vestedAt now)

structure Books (e : Deployment) (b : Bank) (now : Int) : Prop where
  unopened : registryAt e b (registryPda e).1=none → ∀ k,scheduleAt e b k=none
  balanced : ∀ r,registryAt e b (registryPda e).1=some r → Balanced r (scheduleAt e b)
  within : ∀ k s,scheduleAt e b k=some s → Within s now

section Schedules

variable {c : Call Instruction}

theorem Within.later (h : Within s now) (hle : now≤now') : Within s now' :=
  ⟨h.1,fun hactive => (h.2 hactive).trans (s.vestedAt_mono hle)⟩

theorem vested_le_total (hvested : calculateVestedAmount s time=.ok vested) :
    vested.toNat≤ s.totalAmount.toNat := by
  by_cases hrevoked : s.status=.revoked
  · rw [calculateVestedAmount,if_pos hrevoked] at hvested
    rw [Except.ok.inj hvested]
  · rw [calculate_spec hrevoked hvested]
    exact s.vestedAt_le _

theorem Within.next (h : Within s now) (hle : now≤c.clock.unixTimestamp.toInt)
    (hnext : Next c k s s') : Within s' c.clock.unixTimestamp.toInt := by
  cases hnext with
  | kept => exact h.later hle
  | claimed hi hk hstatus hvested hrest hresult =>
    have htotal := vested_le_total hvested
    have hsub := checkedSub_eq_some.mp hrest
    obtain ⟨hamount,amount,status,rfl,hkind⟩ := claimed_spec hresult
    have hpaid : amount.toNat=_ := hamount
    refine ⟨?_,fun hactive => ?_⟩
    · dsimp only
      omega
    change status=.active at hactive
    rw [hactive] at hkind
    have hno : s.status≠.revoked := by
      rw [← hkind.resolve_left (by decide)]
      decide
    have hcurve := calculate_spec hno hvested
    change amount.toNat≤ s.vestedAt _
    omega
  | revoked hi hk hrevoked hstatus hvested =>
    have hactive : s.status=.active := by
      cases hs : s.status with
      | active => rfl
      | completed => exact absurd hs hstatus
      | revoked => exact absurd hs hrevoked
    refine ⟨?_,fun hno => by cases hno⟩
    change s.claimedAmount.toNat≤_
    rw [calculate_spec hrevoked hvested]
    exact (h.later hle).2 hactive

end Schedules

section Entries

variable {e : Deployment} {b b' : Bank} {sk rk : Pubkey} {s s' : VestingSchedule}
  {r r' : VestingRegistry}

theorem schedule_of_registry (hr : (b k).data=registryCodec.encode r) : scheduleAt e b k=none := by
  refine recordAt_of_length schedule_size ?_
  rw [hr,registry_size r]
  decide

structure Entered (e : Deployment) (b b' : Bank) (sk rk : Pubkey) (s s' : VestingSchedule)
    (r r' : VestingRegistry) : Prop where
  schedule : scheduleAt e b sk=some s
  registry : registryAt e b rk=some r
  schedule' : scheduleAt e b' sk=some s'
  registry' : registryAt e b' rk=some r'
  others : ∀ j,j≠sk → scheduleAt e b' j=scheduleAt e b j

theorem entered (hs : scheduleAt e b sk=some s) (hr : registryAt e b rk=some r)
    (hlive : s'.isInitialized=true) (hlive' : r'.isInitialized=true) :
    Entered e b ((b.setData sk (scheduleCodec.encode s')).setData rk (registryCodec.encode r'))
      sk rk s s' r r' := by
  obtain ⟨hsowner,hsdata,-⟩ := recordAt_eq_some.mp hs
  obtain ⟨hrowner,hrdata,-⟩ := recordAt_eq_some.mp hr
  have hne : sk≠rk := keys_ne hsdata hrdata
  refine ⟨hs,hr,?_,?_,fun j hj => ?_⟩
  · exact (recordAt_setData_other _ hne).trans (recordAt_setData_same hsowner hlive)
  · exact recordAt_setData_same ((b.setData_owner _ _ _).trans hrowner) hlive'
  · by_cases hjr : j=rk
    · subst hjr
      rw [schedule_of_registry (Bank.setData_same _ _ _),schedule_of_registry hrdata]
    · exact (recordAt_setData_other _ hjr).trans (recordAt_setData_other _ hj)

theorem Entered.balanced (o : Entered e b b' sk rk s s' r r')
    (hbefore : Balanced r (scheduleAt e b))
    (hdeposits : r'.totalDeposited.toNat+(r.totalRevoked.toNat+s.totalAmount.toNat)=
      r.totalDeposited.toNat+(r'.totalRevoked.toNat+s'.totalAmount.toNat))
    (hclaims : r'.totalClaimed.toNat+s.claimedAmount.toNat=
      r.totalClaimed.toNat+s'.claimedAmount.toNat) : Balanced r' (scheduleAt e b') := by
  have htotal := sumOver_change (g := fun s => s.totalAmount.toNat) o.schedule o.schedule' o.others
  have hclaimed :=
    sumOver_change (g := fun s => s.claimedAmount.toNat) o.schedule o.schedule' o.others
  have hd := hbefore.deposits
  have hc := hbefore.claims
  exact ⟨by omega,by omega⟩

theorem countClaim_spec (h : countClaim r claimable status=.ok r') :
    r'.isInitialized=r.isInitialized ∧ r'.totalClaimed.toNat=r.totalClaimed.toNat+claimable.toNat ∧
      r'.totalDeposited=r.totalDeposited ∧ r'.totalRevoked=r.totalRevoked := by
  simp only [countClaim,steps_ok] at h
  obtain ⟨_,htotal,rfl⟩ := h
  exact ⟨rfl,checkedAdd_eq_some.mp htotal,rfl,rfl⟩

theorem countRevocation_spec (h : countRevocation r unvested=.ok r') :
    r'.isInitialized=r.isInitialized ∧ r'.totalClaimed=r.totalClaimed ∧
      r'.totalDeposited=r.totalDeposited ∧
      r'.totalRevoked.toNat=r.totalRevoked.toNat+unvested.toNat := by
  simp only [countRevocation,steps_ok] at h
  obtain ⟨_,htotal,rfl⟩ := h
  exact ⟨rfl,rfl,rfl,checkedAdd_eq_some.mp htotal⟩

theorem deposited_spec (h : deposited r amount=.ok r') :
    r'.isInitialized=r.isInitialized ∧ r'.totalClaimed=r.totalClaimed ∧
      r'.totalDeposited.toNat=r.totalDeposited.toNat+amount.toNat ∧
      r'.totalRevoked=r.totalRevoked := by
  simp only [deposited,steps_ok] at h
  obtain ⟨_,htotal,_,-,_,-,rfl⟩ := h
  exact ⟨rfl,rfl,checkedAdd_eq_some.mp htotal,rfl⟩

end Entries

section Step

variable {e : Deployment} {c : Call Instruction} {s : VestingSchedule} {r : VestingRegistry}

theorem Books.registry (h : Books e b now) (hs : scheduleAt e b sk=some s) :
    ∃ r,registryAt e b (registryPda e).1=some r := by
  cases hr : registryAt e b (registryPda e).1 with
  | some r => exact ⟨r,rfl⟩
  | none =>
    rw [h.unopened hr sk] at hs
    cases hs

theorem Outside.books (h : Books e b now) (hout : Outside e.programId b b') : Books e b' now := by
  have hbook (k : Pubkey) : scheduleAt e b' k=scheduleAt e b k := hout.records schedule_marked k
  have hregistry :
      registryAt e b' (registryPda e).1=registryAt e b (registryPda e).1 :=
    hout.records registry_marked _
  have hsame : scheduleAt e b'=scheduleAt e b := funext hbook
  exact ⟨fun hnone k => (hbook k).trans (h.unopened (hregistry.symm.trans hnone) k),
    fun r hr => hsame ▸ h.balanced r (hregistry.symm.trans hr),
    fun k s hs => h.within k s ((hbook k).symm.trans hs)⟩

theorem Claimed.entered
    (o : Claimed e c b b1 b' sk (registryPda e).1 s s' r r' vested claimable)
    (h : Books e b now) (howner : (b sk).owner=e.programId) :
    Entered e b1 b' sk (registryPda e).1 s s' r r' := by
  have hs : scheduleAt e b sk=some s := recordAt_eq_some.mpr ⟨howner,o.schedule,o.live⟩
  have hs1 : scheduleAt e b1 sk=some s := (o.outside.records schedule_marked sk).trans hs
  obtain ⟨q,hq⟩ := h.registry hs
  have hq1 : registryAt e b1 (registryPda e).1=some q :=
    (o.outside.records registry_marked _).trans hq
  obtain ⟨-,hsdata,-⟩ := recordAt_eq_some.mp hs1
  obtain ⟨-,hqdata,hqlive⟩ := recordAt_eq_some.mp hq1
  have hne := keys_ne hsdata hqdata
  obtain ⟨d,hd,hr,rfl⟩ := o.written
  rw [hsdata,Codec.writeTo_of_size schedule_size (schedule_size s)] at hd
  cases hd
  rw [b1.setData_other _ hne.symm] at hr
  obtain rfl := registryCodec.encode_inj (hr.symm.trans hqdata)
  have hlive : s'.isInitialized=true := by
    obtain ⟨-,_,_,rfl,-⟩ := claimed_spec o.result
    exact o.live
  exact Vesting.entered hs1 hq1 hlive ((countClaim_spec o.counted).1.trans hqlive)

theorem Claimed.balanced
    (o : Claimed e c b b1 b' sk (registryPda e).1 s s' r r' vested claimable)
    (h : Books e b now) (howner : (b sk).owner=e.programId) : Balanced r' (scheduleAt e b') := by
  have he := o.entered h howner
  obtain ⟨hamount,_,_,rfl,-⟩ := claimed_spec o.result
  obtain ⟨-,hclaimed,hdeposited,hrevoked⟩ := countClaim_spec o.counted
  refine he.balanced ((Outside.books h o.outside).balanced r he.registry) ?_ ?_
  · rw [hdeposited,hrevoked]
  · rw [hclaimed,hamount]
    omega

theorem Revoked.entered (o : Revoked e c b b' sk (registryPda e).1 s r r' vested unvested)
    (h : Books e b now) : Entered e b b' sk (registryPda e).1 s
      {s with totalAmount := vested,status := .revoked} r r' := by
  have hs : scheduleAt e b sk=some s := recordAt_eq_some.mpr ⟨o.scheduleOwned,o.schedule,o.live⟩
  obtain ⟨q,hq⟩ := h.registry hs
  obtain rfl := registryCodec.encode_inj (o.registry.symm.trans (recordAt_eq_some.mp hq).2.1)
  rw [o.written]
  exact Vesting.entered hs hq o.live ((countRevocation_spec o.counted).1.trans o.registryLive)

theorem Revoked.balanced (o : Revoked e c b b' sk (registryPda e).1 s r r' vested unvested)
    (h : Books e b now) : Balanced r' (scheduleAt e b') := by
  have he := o.entered h
  obtain ⟨-,hclaimed,hdeposited,hrevoked⟩ := countRevocation_spec o.counted
  have hrest := checkedSub_eq_some.mp o.rest
  refine he.balanced (h.balanced r he.registry) ?_ ?_
  · dsimp only
    rw [hdeposited,hrevoked,hrest]
    omega
  · rw [hclaimed]

theorem Created.balanced (o : Created e c b b' (registryPda e).1 sk r r' s)
    (h : Books e b now) : registryAt e b' (registryPda e).1=some r' ∧
      Balanced r' (scheduleAt e b') := by
  obtain ⟨hlive,hclaimed,hdeposited,hrevoked⟩ := deposited_spec o.result
  obtain ⟨_,_,_,_,_,_,_,_,-,hnew⟩ := o.schedule.terms
  have hr : registryAt e b (registryPda e).1=some r :=
    recordAt_eq_some.mpr ⟨o.registryOwned,o.registry,o.live⟩
  have hne : (registryPda e).1≠sk := by
    intro he
    have hfresh := o.fresh
    rw [← he,o.registry] at hfresh
    exact absurd (congrArg length hfresh) (by rw [registry_size r]; decide)
  have hnone : scheduleAt e b sk=none := recordAt_of_empty schedule_size (by decide) o.fresh
  have hsome :
    scheduleAt e b' sk=some s := recordAt_eq_some.mpr ⟨o.owned',o.schedule',by rw [hnew]; rfl⟩
  have hothers (j : Pubkey) (hj : j≠sk) : scheduleAt e b' j=scheduleAt e b j := by
    by_cases hjr : j=(registryPda e).1
    · subst hjr
      rw [schedule_of_registry o.registry',schedule_of_registry o.registry]
    · exact recordAt_congr (o.owners j hj) (o.others j hj hjr)
  have htotal := sumOver_insert (g := fun s => s.totalAmount.toNat) hnone hsome hothers
  have hpaid := sumOver_insert (g := fun s => s.claimedAmount.toNat) hnone hsome hothers
  have hnothing : s.claimedAmount.toNat=0 := by
    rw [hnew]
    rfl
  obtain ⟨_,_⟩ := h.balanced r hr
  refine ⟨recordAt_eq_some.mpr ⟨(o.owners _ hne).trans o.registryOwned,o.registry',
    hlive.trans o.live⟩,?_,?_⟩
  · rw [hdeposited,hrevoked,htotal]
    omega
  · rw [hclaimed,hpaid]
    omega

theorem Initialized.balanced (i : Initialized e c b b' authority vault tokenMint)
    (h : Books e b now) :
    registryAt e b' (registryPda e).1=some (newRegistry e authority vault tokenMint) ∧
      Balanced (newRegistry e authority vault tokenMint) (scheduleAt e b') := by
  have hnone : registryAt e b (registryPda e).1=none :=
    recordAt_of_empty registry_size (by decide) i.fresh
  have hempty (j : Pubkey) : scheduleAt e b' j=none := by
    by_cases hj : j=(registryPda e).1
    · subst hj
      exact schedule_of_registry i.registry'
    · exact (recordAt_congr (i.others j hj).2 (i.others j hj).1).trans (h.unopened hnone j)
  refine ⟨recordAt_eq_some.mpr ⟨i.owned',i.registry',rfl⟩,?_,?_⟩
  · rw [sumOver_empty hempty]
    rfl
  · rw [sumOver_empty hempty]
    rfl

theorem Reassigned.kept {newAuthority : Pubkey}
    (o : Reassigned e c b b' (registryPda e).1 r newAuthority) (h : Books e b now) :
    scheduleAt e b'=scheduleAt e b ∧
      (registryAt e b' (registryPda e).1=registryAt e b (registryPda e).1 ∨
        registryAt e b' (registryPda e).1=some {r with authority := newAuthority} ∧
        Balanced {r with authority := newAuthority} (scheduleAt e b)) := by
  rw [o.written]
  refine ⟨funext fun j => ?_,?_⟩
  · by_cases hj : j=(registryPda e).1
    · subst hj
      rw [schedule_of_registry (Bank.setData_same _ _ _),schedule_of_registry o.registry]
    · exact recordAt_setData_other _ hj
  · obtain howner | hsame := o.registryOwned
    · obtain ⟨hd,hc⟩ := h.balanced r (recordAt_eq_some.mpr ⟨howner,o.registry,o.live⟩)
      exact .inr ⟨recordAt_setData_same howner o.live,hd,hc⟩
    · refine .inl (recordAt_congr (b.setData_owner _ _ _) ?_)
      rw [hsame,b.setData_same,o.registry]

theorem RegistryPassed.key (h : RegistryPassed e c) (hi : c.instruction.registryIndex=some i)
    (hk : c.key? i=some rk) : rk=(registryPda e).1 :=
  some.inj (hk.symm.trans (h i hi))

theorem books_kept_or_balanced (h : Books e b now) (hok : TracksSchedules e b c)
    (ha : Accepted e c b b') :
    registryAt e b' (registryPda e).1=registryAt e b (registryPda e).1 ∧
        scheduleAt e b'=scheduleAt e b ∨
      ∃ r,registryAt e b' (registryPda e).1=some r ∧ Balanced r (scheduleAt e b') := by
  cases ha with
  | initialized i => exact .inr ⟨_,i.balanced h⟩
  | created o =>
    obtain ⟨_,_,_,_,_,_,_,_,hi,-⟩ := o.schedule.terms
    obtain rfl := hok.1.key (by rw [hi]; rfl) o.registryKey
    exact .inr ⟨_,o.balanced h⟩
  | claimed o =>
    obtain rfl := hok.1.key (by rw [o.instruction]; rfl) o.registryKey
    have howner := hok.2 o.instruction _ o.scheduleKey
    exact .inr ⟨_,(o.entered h howner).registry',o.balanced h howner⟩
  | revoked o =>
    obtain rfl := hok.1.key (by rw [o.instruction]; rfl) o.registryKey
    exact .inr ⟨_,(o.entered h).registry',o.balanced h⟩
  | queried _ hsame => exact .inl ⟨by rw [hsame],by rw [hsame]⟩
  | reassigned o =>
    obtain rfl := hok.1.key (by rw [o.instruction]; rfl) o.registryKey
    obtain ⟨hbook,hkept | ⟨hr,hbalanced⟩⟩ := o.kept h
    · exact .inl ⟨hkept,hbook⟩
    · exact .inr ⟨_,hr,hbook ▸ hbalanced⟩

theorem new_schedule_unclaimed (h : Books e b now) (hok : TracksSchedules e b c)
    (ha : Accepted e c b b')
    (hnone : scheduleAt e b k=none) (hx : scheduleAt e b' k=some x) : x.claimedAmount.toNat=0 := by
  have hsame (hkept : scheduleAt e b' k=scheduleAt e b k) : x.claimedAmount.toNat=0 := by
    rw [hkept,hnone] at hx
    cases hx
  have hne {sk : Pubkey} {s : VestingSchedule} (hs : scheduleAt e b sk=some s) : k≠sk := by
    intro he
    rw [← he,hnone] at hs
    cases hs
  cases ha with
  | initialized i =>
    by_cases hk : k=(registryPda e).1
    · subst hk
      rw [schedule_of_registry i.registry'] at hx
      cases hx
    · exact hsame (recordAt_congr (i.others k hk).2 (i.others k hk).1)
  | @created rk sk _ _ s o =>
    by_cases hk : k=sk
    · subst hk
      obtain rfl := scheduleCodec.encode_inj (o.schedule'.symm.trans (recordAt_eq_some.mp hx).2.1)
      obtain ⟨_,_,_,_,_,_,_,_,-,hnew⟩ := o.schedule.terms
      rw [hnew]
      rfl
    · by_cases hrk : k=rk
      · subst hrk
        rw [schedule_of_registry o.registry'] at hx
        cases hx
      · exact hsame (recordAt_congr (o.owners k hk) (o.others k hk hrk))
  | claimed o =>
    obtain rfl := hok.1.key (by rw [o.instruction]; rfl) o.registryKey
    have howner := hok.2 o.instruction _ o.scheduleKey
    have hk := hne (recordAt_eq_some.mpr ⟨howner,o.schedule,o.live⟩)
    exact hsame (((o.entered h howner).others k hk).trans (o.outside.records schedule_marked k))
  | revoked o =>
    obtain rfl := hok.1.key (by rw [o.instruction]; rfl) o.registryKey
    exact hsame ((o.entered h).others k (hne (o.entered h).schedule))
  | queried _ hb => exact hsame (by rw [hb])
  | reassigned o =>
    obtain rfl := hok.1.key (by rw [o.instruction]; rfl) o.registryKey
    exact hsame (congrFun (o.kept h).1 k)

theorem Books.next (h : Books e b now) (hle : now≤c.clock.unixTimestamp.toInt)
    (hok : TracksSchedules e b c)
    (ha : Accepted e c b b') : Books e b' c.clock.unixTimestamp.toInt := by
  have hwithin (k : Pubkey) (x : VestingSchedule) (hx : scheduleAt e b' k=some x) :
      Within x c.clock.unixTimestamp.toInt := by
    cases hs : scheduleAt e b k with
    | none =>
      have hzero := new_schedule_unclaimed h hok ha hs hx
      exact ⟨by omega,fun _ => by omega⟩
    | some s =>
      obtain ⟨_,hs',hnext⟩ := ha.next hs
      cases hs'.symm.trans hx
      exact (h.within k s hs).next hle hnext
  obtain ⟨hregistry,hbook⟩ | ⟨r,hr,hbalanced⟩ := books_kept_or_balanced h hok ha
  · refine ⟨fun hnone k => ?_,fun r hr => ?_,hwithin⟩
    · rw [hbook]
      exact h.unopened (hregistry.symm.trans hnone) k
    · rw [hbook]
      exact h.balanced r (hregistry.symm.trans hr)
  · refine ⟨fun hnone => ?_,fun q hq => ?_,hwithin⟩
    · rw [hr] at hnone
      cases hnone
    · rw [← some.inj (hr.symm.trans hq)]
      exact hbalanced

end Step

theorem books_run {e : Deployment} {s : Ledger} (h0 : Untouched e.programId s.bank)
    (hrun : Run ((program e).Step (TracksSchedules e)) s tr t) :
    Books e t.bank t.clock.unixTimestamp.toInt := by
  refine hrun.invariant (I := fun t => Books e t.bank t.clock.unixTimestamp.toInt) ?_ ?_
  · have hnone (k : Pubkey) : scheduleAt e s.bank k=none := h0.records schedule_marked k
    have hregistry :
      registryAt e s.bank (registryPda e).1=none := h0.records registry_marked _
    refine ⟨fun _ => hnone,fun r hr => ?_,fun k x hx => ?_⟩
    · rw [hregistry] at hr
      cases hr
    · rw [hnone k] at hx
      cases hx
  · intro t a u h hstep
    cases hstep with
    | call hclock hok hexec => exact h.next hclock.2 hok (execute_spec hexec)
    | outside hclock hout =>
      obtain ⟨hunopened,hbalanced,hwithin⟩ := Outside.books h hout
      exact ⟨hunopened,hbalanced,fun k s hs => (hwithin k s hs).later hclock.2⟩

/-- The registry's three totals, as long as claims are made on schedules of the program. -/
theorem registry_totals_exact {e : Deployment} {s t : Ledger} {tr : Trace Instruction}
    {r : VestingRegistry} (h0 : Untouched e.programId s.bank)
    (hrun : Run ((program e).Step (TracksSchedules e)) s tr t)
    (hr : registryAt e t.bank (registryPda e).1=some r) :
    r.totalDeposited.toNat=
        r.totalRevoked.toNat+sumOver (fun s => s.totalAmount.toNat) (scheduleAt e t.bank) ∧
      r.totalClaimed.toNat=sumOver (fun s => s.claimedAmount.toNat) (scheduleAt e t.bank) ∧
      r.totalClaimed.toNat+r.totalRevoked.toNat≤ r.totalDeposited.toNat := by
  have hbooks := books_run h0 hrun
  obtain ⟨hdeposits,hclaims⟩ := hbooks.balanced r hr
  have hle := sumOver_le fun k s hs => (hbooks.within k s hs).1
  exact ⟨hdeposits,hclaims,by omega⟩

def registryCalls : List (Call Instruction) := initCall::createCall::revokedCalls

def tracked (b : Bank) (c : Call Instruction) : Bool :=
  (c.instruction.registryIndex.all fun i => c.key? i==some sampleRegistry) &&
    (c.instruction != .claim || (c.key? 1).all fun k => (b k).owner==1#256)

theorem tracked_sound {e : Deployment} (he : e=sampleHost) (h : tracked b c=true) :
    TracksSchedules e b c := by
  simp only [tracked,Bool.and_eq_true,Bool.or_eq_true,bne_iff_ne,Option.all_eq_true,beq_iff_eq] at h
  have hpda : (registryPda e).1=sampleRegistry := by
    rw [he]
    rfl
  have hid : e.programId=1#256 := by
    rw [he]
    rfl
  refine ⟨fun i hi => ?_,fun hi k hk => ?_⟩
  · rw [hpda]
    exact h.1 i hi
  · rw [hid]
    exact h.2.resolve_left (fun hno => hno hi) k hk

theorem totals_after_revocation : ∃ tr t r,
    Run ((program sampleDeployment).Step (TracksSchedules sampleDeployment)) genesis tr t ∧
      registryAt sampleDeployment t.bank sampleRegistry=some r ∧ r.totalRevoked=454546#64 ∧
      r.totalClaimed.toNat+r.totalRevoked.toNat≤ r.totalDeposited.toNat := by
  obtain ⟨⟨tr,t⟩,hhistory,htracked,r,hr,hrevoked⟩ :
      ∃ x,(program sampleDeployment).history registryCalls genesis=some x ∧
      (x.1.all fun y => y.label.casesOn (tracked y.pre.bank) false)=true ∧
      ∃ r,registryAt sampleDeployment x.2.bank sampleRegistry=some r ∧
      r.totalRevoked=454546#64 := by decide +kernel
  have hrun :
      Run ((program sampleDeployment).Step (TracksSchedules sampleDeployment)) genesis tr t := by
    refine history_run hhistory fun x hx c hc => tracked_sound rfl ?_
    have hone := all_eq_true.mp htracked x hx
    rw [hc] at hone
    exact hone
  exact ⟨tr,t,r,hrun,hr,hrevoked,(registry_totals_exact genesis_untouched hrun hr).2.2⟩

/-- A schedule that the program never made, and what a claim makes of it. -/
def forgedSchedule : VestingSchedule :=
  ⟨true,sampleRegistry,3#256,5000000#64,0#64,0#64,0#64,0#64,.linear,.active,false,0#64,0#8⟩

def forgedAfter : VestingSchedule :=
  {forgedSchedule with claimedAmount := 5000000#64,status := .completed}

def forgingDeployment : Deployment where
  toHost := sampleHost
  callee p _ ks b :=
    if p=9#256 ∧ (b 7#256).owner=9#256 ∧ 7#256∈ks then
      .ok (b.setData 7#256 (scheduleCodec.encode forgedAfter))
    else .error .incorrectProgramId
  confined {p d ks b b'} h := by
    split at h
    case isFalse => cases h
    rename_i hcond
    cases h
    refine ⟨fun k => ⟨fun ho => ?_,fun hno ho => ?_⟩,fun k hk => ?_⟩
    · have hk : k≠7#256 := by
        intro he
        rw [he,hcond.2.1] at ho
        cases ho
      rw [b.setData_owner,b.setData_other _ hk,b.setData_lamports]
      exact ⟨ho,rfl,le_rfl⟩
    · rw [b.setData_owner] at ho
      exact absurd ho hno
    · have hne : k≠7#256 := fun he => hk (by rw [he]; exact hcond.2.2)
      simp [Bank.setData,hne]

def forgedGenesis : Ledger where
  bank k :=
    if k=7#256 then ⟨1705200#64,scheduleCodec.encode forgedSchedule,9#256⟩ else genesis.bank k
  clock := genesis.clock

theorem forgedGenesis_untouched : Untouched forgingDeployment.programId forgedGenesis.bank := by
  intro k hk
  by_cases h7 : k=7#256
  · subst h7
    cases hk
  · simp only [forgedGenesis,h7,if_false] at hk ⊢
    exact genesis_untouched k hk

/-- The forged schedule also stands where the token account of the beneficiary is expected, and the
program that owns it is named as the token program. -/
def forgedClaim : Call Instruction where
  clock := ⟨4#64,2000#64⟩
  accounts := [⟨3#256,true,true⟩,⟨7#256,false,true⟩,⟨sampleRegistry,false,true⟩,⟨6#256,false,true⟩,
    ⟨7#256,false,true⟩,⟨sampleAuthority,false,false⟩,⟨9#256,false,false⟩,⟨4#256,false,false⟩]
  instruction := .claim

/-- Five million are counted as claimed where one million was deposited. -/
theorem forged_claim_counted : ∃ tr t r,Untouched forgingDeployment.programId forgedGenesis.bank ∧
      Run ((program forgingDeployment).Step fun _ c => RegistryPassed forgingDeployment c)
        forgedGenesis tr t ∧
      registryAt forgingDeployment t.bank (registryPda forgingDeployment).1=some r ∧
      r.totalDeposited=1000000#64 ∧ r.totalClaimed=5000000#64 ∧
      ¬r.totalClaimed.toNat+r.totalRevoked.toNat≤ r.totalDeposited.toNat := by
  simp only [exists_and_left]
  refine ⟨forgedGenesis_untouched,
    exists_run [initCall,createCall,forgedClaim] (fun c hc _ i hi => ?_)
    (by decide +kernel)⟩
  have hpassed : ∀ c∈[initCall,createCall,forgedClaim],c.instruction.registryIndex.all fun i =>
      c.key? i==some sampleRegistry := by decide +kernel
  have hone := hpassed c hc
  rw [hi] at hone
  exact beq_iff_eq.mp hone

end PrismChain.Vesting
