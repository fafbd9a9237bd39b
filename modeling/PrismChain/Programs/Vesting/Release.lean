import PrismChain.Programs.Vesting.Curve
import PrismChain.Programs.Vesting.Transition

namespace PrismChain.Vesting

open FixedWidth Option List Program

inductive Next (c : Call Instruction) (k : Pubkey) (s : VestingSchedule) : VestingSchedule → Prop
  | kept (hno : c.instruction=.claim ∨ c.instruction=.revoke → c.key? 1≠some k) : Next c k s s
  | claimed {s' : VestingSchedule} {vested claimable : U64} (hi : c.instruction=.claim)
      (hk : c.key? 1=some k) (hstatus : s.status≠.completed)
      (hvested : calculateVestedAmount s c.clock.unixTimestamp=.ok vested)
      (hrest : checkedSub vested s.claimedAmount=some claimable)
      (hresult : claimed s claimable=.ok s') : Next c k s s'
  | revoked {vested : U64} (hi : c.instruction=.revoke) (hk : c.key? 1=some k)
      (hrevoked : s.status≠.revoked) (hstatus : s.status≠.completed)
      (hvested : calculateVestedAmount s c.clock.unixTimestamp=.ok vested) :
      Next c k s {s with totalAmount := vested,status := .revoked}

section Step

variable {e : Deployment} {s : VestingSchedule} {vested : U64}

theorem claimed_spec (h : claimed s claimable=.ok s') :
    s'.claimedAmount.toNat=s.claimedAmount.toNat+claimable.toNat ∧
      ∃ amount status,s'={s with claimedAmount := amount,status := status} ∧
        (status=.completed ∨ status=s.status) := by
  simp only [claimed,steps_ok] at h
  obtain ⟨amount,hamount,rfl⟩ := h
  refine ⟨checkedAdd_eq_some.mp hamount,_,_,rfl,?_⟩
  split
  · exact .inl rfl
  · exact .inr rfl

theorem Claimed.next (o : Claimed e c b b1 b' sk rk s s' r r' vested claimable)
    (hx : scheduleAt e b k=some x) : ∃ x',scheduleAt e b' k=some x' ∧ Next c k x x' := by
  obtain ⟨howner,hdata,hlive⟩ := recordAt_eq_some.mp hx
  obtain ⟨howner1,hdata1,-⟩ := o.outside.owned howner
  rw [hdata] at hdata1
  obtain ⟨d,hd,hr,rfl⟩ := o.written
  by_cases hk : k=sk
  · subst hk
    obtain rfl : s=x := scheduleCodec.encode_inj (o.schedule.symm.trans hdata)
    rw [hdata1,Codec.writeTo_of_size schedule_size (schedule_size s)] at hd
    cases hd
    have hne : k≠rk := keys_ne (b1.setData_same k _) hr
    have hlive' : s'.isInitialized=true := by
      obtain ⟨-,_,_,rfl,-⟩ := claimed_spec o.result
      exact hlive
    refine ⟨s',?_,.claimed o.instruction o.scheduleKey o.unfinished o.vests o.rest o.result⟩
    exact (recordAt_setData_other _ hne).trans (recordAt_setData_same howner1 hlive')
  · have hne : k≠rk := keys_ne ((b1.setData_other d hk).trans hdata1) hr
    refine ⟨x,?_,.kept fun _ hkey => hk (some.inj (hkey.symm.trans o.scheduleKey))⟩
    exact (recordAt_setData_other _ hne).trans
      ((recordAt_setData_other d hk).trans (recordAt_eq_some.mpr ⟨howner1,hdata1,hlive⟩))

theorem Revoked.next (o : Revoked e c b b' sk rk s r r' vested unvested)
    (hx : scheduleAt e b k=some x) : ∃ x',scheduleAt e b' k=some x' ∧ Next c k x x' := by
  obtain ⟨howner,hdata,hlive⟩ := recordAt_eq_some.mp hx
  have hne : k≠rk := keys_ne hdata o.registry
  rw [o.written]
  by_cases hk : k=sk
  · subst hk
    obtain rfl : s=x := scheduleCodec.encode_inj (o.schedule.symm.trans hdata)
    refine ⟨_,?_,.revoked o.instruction o.scheduleKey o.unrevoked o.unfinished o.vests⟩
    exact (recordAt_setData_other _ hne).trans (recordAt_setData_same howner hlive)
  · refine ⟨x,?_,.kept fun _ hkey => hk (some.inj (hkey.symm.trans o.scheduleKey))⟩
    exact (recordAt_setData_other _ hne).trans ((recordAt_setData_other _ hk).trans hx)

theorem Accepted.next (h : Accepted e c b b') (hx : scheduleAt e b k=some x) :
    ∃ x',scheduleAt e b' k=some x' ∧ Next c k x x' := by
  obtain ⟨_,hdata,_⟩ := recordAt_eq_some.mp hx
  have hused {j : Pubkey} (hj : (b j).data=[]) : k≠j := by
    intro he
    rw [← he,hdata] at hj
    exact absurd (congrArg length hj) (by rw [schedule_size x]; decide)
  cases h with
  | initialized i =>
    obtain ⟨hsame,howner'⟩ := i.others k (hused i.fresh)
    exact ⟨x,(recordAt_congr howner' hsame).trans hx,.kept fun hi => by simp [i.instruction] at hi⟩
  | created o =>
    have hsk := hused o.fresh
    have hrk := keys_ne hdata o.registry
    refine ⟨x,(recordAt_congr (o.owners k hsk) (o.others k hsk hrk)).trans hx,.kept fun hi => ?_⟩
    obtain ⟨_,_,_,_,_,_,_,_,hinstruction,-⟩ := o.schedule.terms
    simp [hinstruction] at hi
  | claimed o => exact o.next hx
  | revoked o => exact o.next hx
  | queried hi hsame => exact ⟨x,hsame ▸ hx,.kept fun hi' => by simp [hi] at hi'⟩
  | reassigned o =>
    rw [o.written]
    exact ⟨x,(recordAt_setData_other _ (keys_ne hdata o.registry)).trans hx,
      .kept fun hi => by simp [o.instruction] at hi⟩

end Step

def acceptedAt (i : Instruction) (k : Pubkey) (x : LogEntry Instruction) :
    Option Int :=
  match x.label with
  | .call c =>
    if c.instruction=i ∧ c.key? 1=some k then some c.clock.unixTimestamp.toInt else none
  | .outside => none

def lastAt (i : Instruction) (k : Pubkey) (tr : Trace Instruction) : Option Int :=
  (tr.filterMap (acceptedAt i k)).getLast?

theorem lastAt_next (i : Instruction) (k : Pubkey) (tr : Trace Instruction)
    (x : LogEntry Instruction) :
    lastAt i k (tr++[x])=(acceptedAt i k x).or (lastAt i k tr) := by
  have hone : [x].filterMap (acceptedAt i k)=(acceptedAt i k x).toList := by
    cases hx : acceptedAt i k x <;> simp [hx]
  rw [lastAt,filterMap_append,hone,getLast?_append,lastAt]
  cases acceptedAt i k x <;> rfl

namespace VestingSchedule

def releasedBy (s : VestingSchedule) (last revoked : Option Int) : Nat :=
  match last with
  | none => 0
  | some t => s.vestedAt (revoked.elim t (min t))

theorem vestedAt_congr {s s0 : VestingSchedule} (hstart : s.startTimestamp=s0.startTimestamp)
    (hcliff : s.cliffSeconds=s0.cliffSeconds) (hduration : s.durationSeconds=s0.durationSeconds)
    (hschedule : s.schedule=s0.schedule) (htotal : s.totalAmount=s0.totalAmount) :
    s.vestedAt=s0.vestedAt := by
  funext t
  simp only [vestedAt,cliffEnd,vestingEnd,window,inWindow,hstart,hcliff,hduration,hschedule,htotal]
  rfl

end VestingSchedule

structure Progress (s₀ s : VestingSchedule) (last revoked : Option Int) (now : Int) : Prop where
  start : s.startTimestamp=s₀.startTimestamp
  cliff : s.cliffSeconds=s₀.cliffSeconds
  duration : s.durationSeconds=s₀.durationSeconds
  schedule : s.schedule=s₀.schedule
  claimed : s.claimedAmount.toNat=s₀.releasedBy last revoked
  total : s.totalAmount.toNat=revoked.elim s₀.totalAmount.toNat s₀.vestedAt
  status : s.status≠.completed → (s.status=.revoked ↔ revoked.isSome)
  claimedBefore : ∀ t,last=some t → t≤now
  revokedBefore : ∀ t,revoked=some t → t≤now

section Progress

variable {c : Call Instruction} {revoked : Option Int}

theorem Progress.later (p : Progress s0 s last revoked now) (h : now≤now') :
    Progress s0 s last revoked now' :=
  {p with
    claimedBefore := fun t ht => (p.claimedBefore t ht).trans h
    revokedBefore := fun t ht => (p.revokedBefore t ht).trans h}

theorem Progress.vested (p : Progress s0 s last revoked now) (hstatus : s.status≠.completed)
    {time vested : I64} (htime : now≤time.toInt)
    (hvested : calculateVestedAmount s time=.ok vested) :
    vested.toNat=s0.vestedAt (revoked.elim time.toInt (min time.toInt)) := by
  have hiff := p.status hstatus
  have htotal := p.total
  cases hr : revoked with
  | none =>
    rw [hr] at hiff htotal
    have hno : s.status≠.revoked := by simpa using hiff
    rw [calculate_spec hno hvested,VestingSchedule.vestedAt_congr p.start p.cliff p.duration
      p.schedule (BitVec.eq_of_toNat_eq htotal)]
    rfl
  | some r =>
    rw [hr] at hiff htotal
    have hyes : s.status=.revoked := hiff.mpr rfl
    rw [calculateVestedAmount,if_pos hyes] at hvested
    have hmin : min time.toInt r=r := min_eq_right ((p.revokedBefore r hr).trans htime)
    rw [← Except.ok.inj hvested]
    simpa [hmin] using htotal

theorem Progress.claimed_le (p : Progress s0 s last revoked now) (htime : now≤time) :
    s.claimedAmount.toNat≤ s0.vestedAt (revoked.elim time (min time)) := by
  rw [p.claimed]
  cases hl : last with
  | none => exact Nat.zero_le _
  | some t =>
    have ht := (p.claimedBefore t hl).trans htime
    refine s0.vestedAt_mono ?_
    cases revoked with
    | none => exact ht
    | some r => exact min_le_min_right r ht

theorem Progress.returns (p : Progress s0 s last revoked now) (hfits : s0.Fits)
    (hcliff : 0≤ s0.cliffSeconds.toInt) (hduration : 0≤ s0.durationSeconds.toInt) (time : I64) :
    ∃ vested,calculateVestedAmount s time=.ok vested := by
  refine calculate_returns ?_ (p.cliff ▸ hcliff) (p.duration ▸ hduration) time
  unfold VestingSchedule.Fits VestingSchedule.cliffEnd VestingSchedule.vestingEnd
  rw [p.start,p.cliff,p.duration]
  exact hfits

theorem Progress.next (p : Progress s0 s last revoked now) (hnow : now≤c.clock.unixTimestamp.toInt)
    (h : Next c k s s') (t u : Ledger) :
    Progress s0 s' ((acceptedAt .claim k ⟨t,.call c,u⟩).or last)
      ((acceptedAt .revoke k ⟨t,.call c,u⟩).or revoked) c.clock.unixTimestamp.toInt := by
  simp only [acceptedAt]
  cases h with
  | kept hno =>
    rw [if_neg fun h => hno (.inl h.1) h.2,if_neg fun h => hno (.inr h.1) h.2]
    exact p.later hnow
  | claimed hi hk hstatus hvested hrest hresult =>
    rw [if_pos ⟨hi,hk⟩,if_neg fun h => by simp [hi] at h]
    have hv := p.vested hstatus hnow hvested
    have hsub := checkedSub_eq_some.mp hrest
    obtain ⟨hamount,_,status,rfl,hkind⟩ := claimed_spec hresult
    refine ⟨p.start,p.cliff,p.duration,p.schedule,?_,p.total,fun hopen => ?_,?_,
      (p.later hnow).revokedBefore⟩
    · rw [hamount,Nat.add_comm,← hsub,hv]
      rfl
    · rw [hkind.resolve_left hopen]
      exact p.status hstatus
    · intro t ht
      exact (some.inj ht).ge
  | revoked hi hk hrevoked hstatus hvested =>
    rw [if_neg fun h => by simp [hi] at h,if_pos ⟨hi,hk⟩]
    have hv := p.vested hstatus hnow hvested
    have hnone : revoked=none := by
      have hiff := p.status hstatus
      rw [isSome_iff_ne_none] at hiff
      exact not_not.mp fun hsome => hrevoked (hiff.mpr hsome)
    have hclaimed := p.claimed
    subst hnone
    refine ⟨p.start,p.cliff,p.duration,p.schedule,?_,hv,fun _ => by
      simp,(p.later hnow).claimedBefore,?_⟩
    · change s.claimedAmount.toNat=_
      rw [hclaimed]
      cases hl : last with
      | none => rfl
      | some t =>
        have hmin : min t c.clock.unixTimestamp.toInt=t :=
          min_eq_left ((p.claimedBefore t hl).trans hnow)
        simp [VestingSchedule.releasedBy,hmin]
    · intro t ht
      exact (some.inj ht).ge

end Progress

section Run

variable {e : Deployment} {k : Pubkey} {s₀ : VestingSchedule} {t : Ledger} {tr : Trace Instruction}

def Released (e : Deployment) (k : Pubkey) (s₀ : VestingSchedule) (tr : Trace Instruction)
    (t : Ledger) : Prop :=
  ∃ s,scheduleAt e t.bank k=some s ∧
    Progress s₀ s (lastAt .claim k tr) (lastAt .revoke k tr) t.clock.unixTimestamp.toInt

theorem released_step (h : Released e k s0 tr t) (hstep : (program e).Step anyCall t a u) :
    Released e k s0 (tr++[⟨t,a,u⟩]) u := by
  obtain ⟨s,hs,p⟩ := h
  unfold Released
  rw [lastAt_next,lastAt_next]
  cases hstep with
  | call hclock _ hexec =>
    obtain ⟨s',hs',hnext⟩ := (execute_spec hexec).next hs
    exact ⟨s',hs',p.next hclock.2 hnext _ _⟩
  | outside hclock hout =>
    obtain ⟨howner,_,-⟩ := recordAt_eq_some.mp hs
    obtain ⟨howner',hdata',-⟩ := hout.owned howner
    exact ⟨s,(recordAt_congr (howner'.trans howner.symm) hdata').trans hs,p.later hclock.2⟩

theorem released_run (h0 : Released e k s0 [] t) (hrun : Run ((program e).Step anyCall) t tr u) :
    Released e k s0 tr u :=
  hrun.traced (I := Released e k s0) h0 fun _ hi hstep => released_step hi hstep

end Run

theorem created_progress {e : Deployment} {c : Call Instruction} {b : Bank} {beneficiary : Pubkey}
    {totalAmount : U64}
    (hi : c.instruction=.createSchedule beneficiary totalAmount cliffMonths durationMonths schedule
      revocable) (hk : c.key? 2=some k) (hexec : (program e).execute c b=.ok b')
    (hs0 : scheduleAt e b' k=some s0) :
    0≤ s0.cliffSeconds.toInt ∧ 0≤ s0.durationSeconds.toInt ∧ s0.status=.active ∧
      Released e k s0 [] ⟨b',c.clock⟩ := by
  cases execute_spec hexec with
  | initialized i => cases hi.symm.trans i.instruction
  | claimed o => cases hi.symm.trans o.instruction
  | revoked o => cases hi.symm.trans o.instruction
  | queried hq => cases hi.symm.trans hq
  | reassigned o => cases hi.symm.trans o.instruction
  | created o =>
    cases o.scheduleKey.symm.trans hk
    obtain ⟨-,hdata,-⟩ := recordAt_eq_some.mp hs0
    obtain rfl := scheduleCodec.encode_inj (o.schedule'.symm.trans hdata)
    obtain ⟨_,_,_,_,_,_,_,_,-,hs⟩ := o.schedule.terms
    have hactive := congrArg VestingSchedule.status hs
    have hnothing := congrArg VestingSchedule.claimedAmount hs
    refine ⟨o.schedule.cliff,o.schedule.duration,hactive,_,hs0,rfl,rfl,rfl,rfl,?_,rfl,fun _ => ?_,
      (fun t ht => by cases ht),(fun t ht => by cases ht)⟩
    · rw [hnothing]
      rfl
    · rw [hactive]
      simp [newSchedule,lastAt]

/-- Claims pay out the curve and nothing else. -/
theorem releases_the_curve {e : Deployment} {c : Call Instruction} {b b' : Bank} {k : Pubkey}
    {s₀ : VestingSchedule} {beneficiary : Pubkey} {totalAmount : U64}
    {cliffMonths durationMonths : U32} {schedule : ReleaseSchedule} {revocable : Bool} {t : Ledger}
    {tr : Trace Instruction}
    (hi : c.instruction=.createSchedule beneficiary totalAmount cliffMonths durationMonths schedule
      revocable) (hk : c.key? 2=some k) (hexec : (program e).execute c b=.ok b')
    (hs₀ : scheduleAt e b' k=some s₀) (hfits : s₀.Fits)
    (hrun : Run ((program e).Step anyCall) ⟨b',c.clock⟩ tr t) :
    (∃ s,scheduleAt e t.bank k=some s ∧
      s.claimedAmount.toNat=s₀.releasedBy (lastAt .claim k tr) (lastAt .revoke k tr) ∧
      (s.status≠.completed → ∀ now : I64,t.clock.unixTimestamp.toInt≤now.toInt →
        ∃ vested,calculateVestedAmount s now=.ok vested ∧ s.claimedAmount.toNat≤vested.toNat)) ∧
    (∀ d b'',t.clock.before d.clock → d.instruction=.claim → d.key? 1=some k →
      (program e).execute d t.bank=.ok b'' → ∃ s',scheduleAt e b'' k=some s' ∧
        s'.claimedAmount.toNat=s₀.vestedAt ((lastAt .revoke k tr).elim d.clock.unixTimestamp.toInt
          (min d.clock.unixTimestamp.toInt))) ∧
    (∀ now : I64,∃ vested,calculateVestedAmount s₀ now=.ok vested ∧
    vested.toNat=s₀.vestedAt now.toInt) ∧
    (∀ time,time< s₀.startTimestamp.toInt+s₀.cliffSeconds.toInt → s₀.vestedAt time=0) ∧
    Monotone s₀.vestedAt ∧ (∀ time,s₀.vestedAt time≤ s₀.totalAmount.toNat) ∧
    ∀ time,s₀.startTimestamp.toInt+max s₀.cliffSeconds.toInt s₀.durationSeconds.toInt≤time →
      s₀.vestedAt time=s₀.totalAmount.toNat := by
  obtain ⟨hcliff,hduration,hactive,h0⟩ := created_progress hi hk hexec hs₀
  have hreleased := released_run h0 hrun
  obtain ⟨s,hs,p⟩ := hreleased
  refine ⟨⟨s,hs,p.claimed,fun hstatus now hnow => ?_⟩,?_,fun now => ?_,
    fun time => s₀.vestedAt_before_cliff,fun _ _ => s₀.vestedAt_mono,s₀.vestedAt_le,
    fun time => s₀.vestedAt_full⟩
  · obtain ⟨vested,hvested⟩ := p.returns hfits hcliff hduration now
    refine ⟨vested,hvested,?_⟩
    rw [p.vested hstatus hnow hvested]
    exact p.claimed_le hnow
  · intro d b'' hclock hclaim hkey hd
    have hstep : (program e).Step anyCall t (.call d) ⟨b'',d.clock⟩ := .call hclock trivial hd
    obtain ⟨s',hs',p'⟩ := released_step ⟨s,hs,p⟩ hstep
    refine ⟨s',hs',?_⟩
    have hlast : acceptedAt .claim k ⟨t,.call d,⟨b'',d.clock⟩⟩=some d.clock.unixTimestamp.toInt :=
      if_pos ⟨hclaim,hkey⟩
    have hrevoke : acceptedAt .revoke k ⟨t,.call d,⟨b'',d.clock⟩⟩=none :=
      if_neg fun h => by simp [hclaim] at h
    rw [p'.claimed,lastAt_next,lastAt_next,hlast,hrevoke]
    rfl
  · obtain ⟨vested,hvested⟩ := calculate_returns hfits hcliff hduration now
    exact ⟨vested,hvested,calculate_spec (by rw [hactive]; decide) hvested⟩

def sampleRegistry :
    Pubkey := 0xb8d8c782bea1fceaf29cf8c433f2a3516eb57274e06091af43a60ef10876569e#256
def sampleSchedule :
    Pubkey := 0xdbb1533bae7a6421810c2f0d60bb8b44fe5e2acae20bb25f4b7d388e8b1ed9f4#256
def sampleAuthority :
    Pubkey := 0x6af204dadcd0a6c8c33c8c4d6a3c211dd606b0d2db7261feccdbcbe40ec48a92#256

def sampleHost : Host where
  programId := 1#256
  findProgramAddress seeds _ :=
    if seeds=[registrySeed] then (sampleRegistry,254#8)
    else if seeds=[scheduleSeed,sampleRegistry.bytes,leBytes 8 0] then (sampleSchedule,254#8)
    else (sampleAuthority,255#8)
  minimumBalance n := BitVec.ofNat 64 ((n+128)*6960)
  clockSysvar := 4#256

def sampleDeployment : Deployment where
  toHost := sampleHost
  callee p _ _ b := if p=5#256 then .ok b else .error .incorrectProgramId
  confined {p d ks b b'} h := by
    split at h
    case isFalse => cases h
    cases h
    exact ⟨Outside.refl _ _,fun _ _ => rfl⟩

def genesis : Ledger where
  bank k := if k=2#256 ∨ k=3#256 then ⟨10000000000#64,[],systemProgram⟩ else ⟨0#64,[],systemProgram⟩
  clock := ⟨1#64,1000#64⟩

theorem genesis_untouched : Untouched sampleHost.programId genesis.bank := by
  refine untouched_of_foreign fun k => ?_
  unfold genesis
  dsimp only
  split_ifs <;> decide

def initCall : Call Instruction where
  clock := ⟨2#64,1000#64⟩
  accounts := [⟨2#256,true,true⟩,⟨sampleRegistry,false,true⟩,⟨6#256,false,true⟩,⟨7#256,false,false⟩,
    systemInfo]
  instruction := .initializeRegistry

def createCall : Call Instruction where
  clock := ⟨3#64,1000#64⟩
  accounts := [⟨2#256,true,true⟩,⟨sampleRegistry,false,true⟩,⟨sampleSchedule,false,true⟩,
    ⟨3#256,false,false⟩,systemInfo]
  instruction := .createSchedule 3#256 1000000#64 1#32 12#32 .linear true

def claimCall (account tokenProgram : Pubkey) (slot : U64) (now : I64) : Call Instruction where
  clock := ⟨slot,now⟩
  accounts :=
    [⟨3#256,true,true⟩,⟨account,false,true⟩,⟨sampleRegistry,false,true⟩,⟨6#256,false,true⟩,
    ⟨8#256,false,true⟩,⟨sampleAuthority,false,false⟩,⟨tokenProgram,false,false⟩,⟨4#256,false,false⟩]
  instruction := .claim

def revokeCall (slot : U64) (now : I64) : Call Instruction where
  clock := ⟨slot,now⟩
  accounts := [⟨2#256,true,true⟩,⟨sampleSchedule,false,true⟩,⟨sampleRegistry,false,true⟩,
    ⟨4#256,false,false⟩]
  instruction := .revoke

def initBank : Bank :=
  ((program sampleDeployment).execute initCall genesis.bank).toOption.getD genesis.bank

def createdBank : Bank :=
  ((program sampleDeployment).execute createCall initBank).toOption.getD genesis.bank

theorem create_executes : (program sampleDeployment).execute createCall initBank=.ok createdBank :=
  eq_ok_of_isOk genesis.bank (by decide +kernel)

def revokedCalls : List (Call Instruction) :=
  [claimCall sampleSchedule 5#256 4#64 15553000#64,revokeCall 5#64 18145000#64,
    claimCall sampleSchedule 5#256 6#64 23329000#64]

theorem curve_until_revocation : ∃ s₀ tr t s,
    scheduleAt sampleDeployment createdBank sampleSchedule=some s₀ ∧ s₀.Fits ∧
      Run ((program sampleDeployment).Step anyCall) ⟨createdBank,createCall.clock⟩ tr t ∧
      scheduleAt sampleDeployment t.bank sampleSchedule=some s ∧ s.claimedAmount=545454#64 ∧
      s.claimedAmount.toNat=
        s₀.releasedBy (lastAt .claim sampleSchedule tr) (lastAt .revoke sampleSchedule tr) := by
  obtain ⟨s₀,hs₀,hfits⟩ : ∃ s,scheduleAt sampleDeployment createdBank sampleSchedule=some s ∧
      s.Fits := by decide +kernel
  obtain ⟨⟨tr,t⟩,hhistory,s,hs,hclaimed⟩ : ∃ x,(program sampleDeployment).history revokedCalls
      ⟨createdBank,createCall.clock⟩=some x ∧
      ∃ s,scheduleAt sampleDeployment x.2.bank sampleSchedule=some s ∧
      s.claimedAmount=545454#64 := by decide +kernel
  have hrun := history_anyCall hhistory
  obtain ⟨⟨_,hs',hamount,-⟩,-⟩ := releases_the_curve rfl rfl create_executes hs₀ hfits hrun
  cases hs.symm.trans hs'
  exact ⟨s₀,tr,t,s,hs₀,hfits,hrun,hs,hclaimed,hamount⟩

end PrismChain.Vesting
