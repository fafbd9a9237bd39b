import PrismChain.Programs.Vesting.Processor

namespace PrismChain.Vesting

open FixedWidth List Program Invocation Bank PrismChain.Frame

def scheduleAt (e : Deployment) : Bank → Pubkey → Option VestingSchedule :=
  recordAt scheduleCodec VestingSchedule.isInitialized e.programId

def registryAt (e : Deployment) : Bank → Pubkey → Option VestingRegistry :=
  recordAt registryCodec VestingRegistry.isInitialized e.programId

structure Initialized (e : Deployment) (c : Call Instruction) (b b' : Bank)
    (authority vault tokenMint : Pubkey) : Prop where
  instruction : c.instruction=.initializeRegistry
  fresh : (b (registryPda e).1).data=[]
  owned' : (b' (registryPda e).1).owner=e.programId
  registry' : (b' (registryPda e).1).data=
    registryCodec.encode (newRegistry e authority vault tokenMint)
  others : ∀ k,k≠(registryPda e).1 → (b' k).data=(b k).data ∧ (b' k).owner=(b k).owner

structure Drafted (h : Host) (c : Call Instruction) (registry : Pubkey) (index : U64)
    (s : VestingSchedule) : Prop where
  terms : ∃ beneficiary totalAmount cliffMonths durationMonths schedule revocable cliff duration,
    c.instruction=
      .createSchedule beneficiary totalAmount cliffMonths durationMonths schedule revocable ∧
      s=newSchedule h registry beneficiary totalAmount c.clock.unixTimestamp cliff duration schedule
        revocable index
  cliff : 0≤ s.cliffSeconds.toInt
  duration : 0≤ s.durationSeconds.toInt

structure Created (e : Deployment) (c : Call Instruction) (b b' : Bank) (rk sk : Pubkey)
    (r r' : VestingRegistry) (s : VestingSchedule) : Prop where
  registryKey : c.key? 1=some rk
  scheduleKey : c.key? 2=some sk
  registry : (b rk).data=registryCodec.encode r
  live : r.isInitialized=true
  fresh : (b sk).data=[]
  schedule : Drafted e c rk r.scheduleCounter s
  result : deposited r s.totalAmount=.ok r'
  registryOwned : (b rk).owner=e.programId
  schedule' : (b' sk).data=scheduleCodec.encode s
  owned' : (b' sk).owner=e.programId
  registry' : (b' rk).data=registryCodec.encode r'
  owners : ∀ k,k≠sk → (b' k).owner=(b k).owner
  others : ∀ k,k≠sk → k≠rk → (b' k).data=(b k).data

/-- An accepted `Claim`. Between the reading of the schedule and its writing the named token
program has run and left the bank `b₁`. -/
structure Claimed (e : Deployment) (c : Call Instruction) (b b₁ b' : Bank) (sk rk : Pubkey)
    (s s' : VestingSchedule) (r r' : VestingRegistry) (vested claimable : U64) : Prop where
  instruction : c.instruction=.claim
  scheduleKey : c.key? 1=some sk
  registryKey : c.key? 2=some rk
  schedule : (b sk).data=scheduleCodec.encode s
  live : s.isInitialized=true
  unfinished : s.status≠.completed
  vests : calculateVestedAmount s c.clock.unixTimestamp=.ok vested
  rest : checkedSub vested s.claimedAmount=some claimable
  positive : claimable≠0#64
  result : claimed s claimable=.ok s'
  counted : countClaim r claimable s'.status=.ok r'
  outside : Outside e.programId b b₁
  written : ∃ d,scheduleCodec.writeTo s' (b₁ sk).data=some d ∧
    (b₁.setData sk d rk).data=registryCodec.encode r ∧
    b'=(b₁.setData sk d).setData rk (registryCodec.encode r')
  scheduleOwned : (b₁ sk).owner=e.programId ∨ (b' sk).data=(b₁ sk).data
  registryOwned : (b₁ rk).owner=e.programId ∨ (b' rk).data=(b₁ rk).data

structure Revoked (e : Deployment) (c : Call Instruction) (b b' : Bank) (sk rk : Pubkey)
    (s : VestingSchedule) (r r' : VestingRegistry) (vested unvested : U64) : Prop where
  instruction : c.instruction=.revoke
  scheduleKey : c.key? 1=some sk
  registryKey : c.key? 2=some rk
  schedule : (b sk).data=scheduleCodec.encode s
  live : s.isInitialized=true
  unrevoked : s.status≠.revoked
  unfinished : s.status≠.completed
  vests : calculateVestedAmount s c.clock.unixTimestamp=.ok vested
  rest : checkedSub s.totalAmount vested=some unvested
  registry : (b rk).data=registryCodec.encode r
  registryLive : r.isInitialized=true
  counted : countRevocation r unvested=.ok r'
  scheduleOwned : (b sk).owner=e.programId
  registryOwned : (b rk).owner=e.programId ∨ r'=r
  written : b'=(b.setData sk (scheduleCodec.encode
    {s with totalAmount := vested,status := .revoked})).setData rk (registryCodec.encode r')

structure Reassigned (e : Deployment) (c : Call Instruction) (b b' : Bank) (rk : Pubkey)
    (r : VestingRegistry) (newAuthority : Pubkey) : Prop where
  instruction : c.instruction=.transferAuthority newAuthority
  registryKey : c.key? 1=some rk
  registry : (b rk).data=registryCodec.encode r
  live : r.isInitialized=true
  registryOwned : (b rk).owner=e.programId ∨ {r with authority := newAuthority}=r
  written : b'=b.setData rk (registryCodec.encode {r with authority := newAuthority})

inductive Accepted (e : Deployment) (c : Call Instruction) (b b' : Bank) : Prop
  | initialized {authority vault tokenMint : Pubkey}
      (i : Initialized e c b b' authority vault tokenMint)
  | created {rk sk : Pubkey} {r r' : VestingRegistry} {s : VestingSchedule}
      (o : Created e c b b' rk sk r r' s)
  | claimed {b₁ : Bank} {sk rk : Pubkey} {s s' : VestingSchedule} {r r' : VestingRegistry}
      {vested claimable : U64} (o : Claimed e c b b₁ b' sk rk s s' r r' vested claimable)
  | revoked {sk rk : Pubkey} {s : VestingSchedule} {r r' : VestingRegistry} {vested unvested : U64}
      (o : Revoked e c b b' sk rk s r r' vested unvested)
  | queried (hi : c.instruction=.querySchedule) (hsame : b'=b)
  | reassigned {rk : Pubkey} {r : VestingRegistry} {newAuthority : Pubkey}
      (o : Reassigned e c b b' rk r newAuthority)

section Parts

variable {b : Bank} {r : VestingRegistry}

theorem loadRegistry_eq_ok : loadRegistry f k=.ok r ↔ (f.view k).data=registryCodec.encode r := by
  rw [loadRegistry,okOr_eq_ok,Codec.tryFromSlice_eq_some]

theorem loadOwnRegistry_spec (h : loadOwnRegistry f k authority=.ok r) :
    (f.view k).data=registryCodec.encode r ∧ r.isInitialized=true := by
  simp only [loadOwnRegistry,steps_ok,loadRegistry_eq_ok] at h
  obtain ⟨w,hdata,-,hlive,-,-,rfl⟩ := h
  exact ⟨hdata,hlive⟩

theorem loadSchedule_spec (h : loadSchedule f k=.ok s) :
    (f.view k).data=scheduleCodec.encode s ∧ s.isInitialized=true := by
  simp only [loadSchedule,steps_ok,Codec.tryFromSlice_eq_some] at h
  obtain ⟨w,hdata,-,hlive,rfl⟩ := h
  exact ⟨hdata,hlive⟩

theorem keys_ne (hs : (b sk).data=scheduleCodec.encode s)
    (hr : (b rk).data=registryCodec.encode r) : sk≠rk := by
  intro he
  rw [he,hr] at hs
  have hlen := congrArg length hs
  rw [registry_size r,schedule_size s] at hlen
  cases hlen

theorem monthsToSeconds_eq (h : monthsToSeconds months=.ok period) :
    period.toInt=months.toNat*2592000 := by
  rw [monthsToSeconds,okOr_eq_ok,checkedMulSigned_eq_some] at h
  have hmonths : (months.setWidth 64).toInt=months.toNat := by
    rw [BitVec.toInt_eq_toNat_of_lt,toNat_widen (by decide)]
    rw [toNat_widen (by decide)]
    have := months.isLt
    omega
  have hsecond : secondsPerMonth.toInt=2592000 := by decide
  rw [h,hmonths,hsecond]

theorem monthsToSeconds_nonneg (h : monthsToSeconds months=.ok period) : 0≤period.toInt := by
  rw [monthsToSeconds_eq h]
  omega

theorem deposited_ne (h : deposited r amount=.ok r') : r'≠r := by
  simp only [deposited,steps_ok] at h
  obtain ⟨_,-,_,-,counter,hcounter,rfl⟩ := h
  intro he
  have hsame : counter=r.scheduleCounter := congrArg VestingRegistry.scheduleCounter he
  have hadd := checkedAdd_eq_some.mp hcounter
  rw [hsame] at hadd
  have hone : (1#64).toNat=1 := rfl
  omega

end Parts

section Handlers

variable {e : Deployment} {c : Call Instruction} {b : Bank}

theorem initialized_of (hi : c.instruction=.initializeRegistry)
    (h : processInitializeRegistry e c.accounts ⟨b,b⟩=.ok f) : Accepted e c b f.view := by
  unfold processInitializeRegistry at h
  split at h <;> simp only [steps_ok] at h
  obtain ⟨-,-,-,hkey,_,hinvoke,hstore⟩ := h
  rw [← hkey] at hinvoke hstore
  obtain ⟨_,-,-,⟨hfresh,-⟩,howner,hregistry,hothers⟩ := created_record registry_size hinvoke hstore
  exact .initialized ⟨hi,hfresh,howner,hregistry,hothers⟩

theorem created_of
    (hi : c.instruction=.createSchedule beneficiary totalAmount cliffMonths durationMonths schedule
      revocable) (hsync : Synced e.programId c.accounts f)
    (h : processCreateSchedule e c.clock c.accounts beneficiary totalAmount cliffMonths
      durationMonths schedule revocable ⟨b,b⟩=.ok f) : Accepted e c b f.view := by
  unfold processCreateSchedule at h
  split at h <;> simp only [steps_ok] at h
  rename_i registry account _ _ _ hacc
  obtain ⟨-,-,r,hload,-,-,-,-,cliff,hcliff,duration,hduration,-,-,-,-,_,hinvoke,_,hstore,_,
    hresult,hstore'⟩ := h
  obtain ⟨hr,hlive⟩ := loadOwnRegistry_spec hload
  dsimp only at hr
  obtain ⟨b1,hcreate,rfl⟩ := invoke_create hinvoke
  obtain ⟨-,hfresh,-,-,-,-,hzeros,howner,hothers,-⟩ := createAccount_spec hcreate
  rw [store_eq_ok schedule_size (by rw [hzeros]; exact length_replicate)] at hstore
  subst hstore
  have hne : registry.key≠account.key := by
    intro he
    rw [he,hfresh] at hr
    have hlen := congrArg length hr
    rw [registry_size r] at hlen
    cases hlen
  have hsize : ((b1.setData account.key (scheduleCodec.encode (newSchedule e registry.key
      beneficiary totalAmount c.clock.unixTimestamp cliff duration schedule revocable
      r.scheduleCounter)) registry.key).data).length=registryLen := by
    rw [b1.setData_other _ hne,(hothers _ hne).1,hr]
    exact registry_size r
  rw [store_eq_ok registry_size hsize] at hstore'
  subst hstore'
  have hcheck := (sync_account (P := program e) hsync (k := registry.key) (by simp [hacc])).2
  dsimp only at hcheck
  rw [setData_same,(hothers _ hne).1,(hothers _ hne).2,hr] at hcheck
  have hregistry : (b registry.key).owner=e.programId :=
    hcheck.resolve_left fun heq => deposited_ne hresult (registryCodec.encode_inj heq).symm
  refine .created ⟨by simp [Call.key?,hacc],by simp [Call.key?,hacc],hr,hlive,hfresh,
    ⟨⟨_,_,_,_,_,_,cliff,duration,hi,rfl⟩,monthsToSeconds_nonneg hcliff,
      monthsToSeconds_nonneg hduration⟩,hresult,hregistry,?_,?_,?_,fun k hk => ?_,
    fun k hk hrk => ?_⟩
  · dsimp only
    rw [setData_other _ _ hne.symm,setData_same]
  · dsimp only
    rw [setData_owner,setData_owner]
    exact howner
  · exact setData_same _ _ _
  · dsimp only
    rw [setData_owner,setData_owner]
    exact (hothers k hk).2
  · dsimp only
    rw [setData_other _ _ hrk,setData_other _ _ hk]
    exact (hothers k hk).1

theorem claimed_of (hi : c.instruction=.claim) (hsync : Synced e.programId c.accounts f)
    (h : processClaim e c.clock c.accounts ⟨b,b⟩=.ok f) : Accepted e c b f.view := by
  unfold processClaim at h
  split at h <;> simp only [steps_ok,loadRegistry_eq_ok] at h
  rename_i account registry _ _ _ _ _ _ hacc
  obtain ⟨-,-,s,hload,-,-,-,hstatus,-,-,_,hvested,_,hclaimable,-,hpositive,-,-,_,
    hinvoke,s',hresult,f2,hstore,r,hr,r',hcounted,hstore'⟩ := h
  obtain ⟨hs,hlive⟩ := loadSchedule_spec hload
  obtain ⟨_,-,hout,rfl⟩ := Deployment.invoke_token hinvoke
  simp only [store,steps_ok] at hstore
  obtain ⟨d,hd,rfl⟩ := hstore
  rw [store_eq_ok registry_size (by rw [hr]; exact registry_size r)] at hstore'
  subst hstore'
  have hcheck {k : Pubkey} (hk : k∈c.accounts.map AccountInfo.key) :=
    (sync_account (P := program e) hsync hk).2
  refine .claimed ⟨hi,by simp [Call.key?,hacc],
    by simp [Call.key?,hacc],hs,hlive,hstatus,hvested,hclaimable,hpositive,hresult,hcounted,
    hout,⟨d,hd,hr,rfl⟩,?_,?_⟩
  · exact (hcheck (k := account.key) (by simp [hacc])).symm.imp id Eq.symm
  · exact (hcheck (k := registry.key) (by simp [hacc])).symm.imp id Eq.symm

theorem revoked_of (hi : c.instruction=.revoke) (hsync : Synced e.programId c.accounts f)
    (h : processRevoke e c.clock c.accounts ⟨b,b⟩=.ok f) : Accepted e c b f.view := by
  unfold processRevoke at h
  split at h <;> simp only [steps_ok,loadRegistry_eq_ok] at h
  rename_i account registry _ _ hacc
  obtain ⟨-,-,w,hown,s,hload,-,-,-,hunrevoked,-,hstatus,-,-,vested,hvested,_,hunvested,_,
    hstore,r,hr,r',hcounted,hstore'⟩ := h
  obtain ⟨hw,hwlive⟩ := loadOwnRegistry_spec hown
  obtain ⟨hs,hlive⟩ := loadSchedule_spec hload
  dsimp only at hw hs
  have hne := keys_ne hs hw
  rw [store_eq_ok schedule_size (by rw [hs]; exact schedule_size s)] at hstore
  subst hstore
  dsimp only at hr
  rw [b.setData_other _ hne.symm] at hr
  obtain rfl : w=r := registryCodec.encode_inj (hw.symm.trans hr)
  rw [store_eq_ok registry_size
    (by rw [b.setData_other _ hne.symm,hr]; exact registry_size w)] at hstore'
  subst hstore'
  have hschedule : (b account.key).owner=e.programId ∨
      {s with totalAmount := vested,status := .revoked}=s :=
    record_owned hsync (by simp [hacc]) (SameState.refl b) hs
      (by dsimp only; rw [setData_other _ _ hne,setData_same])
  have hregistry : (b registry.key).owner=e.programId ∨ r'=w :=
    record_owned hsync (by simp [hacc]) (SameState.refl b) hw (setData_same _ _ _)
  refine .revoked
    ⟨hi,by simp [Call.key?,hacc],by simp [Call.key?,hacc],hs,hlive,hunrevoked,hstatus,hvested,
    hunvested,hw,hwlive,hcounted,?_,hregistry,rfl⟩
  exact hschedule.resolve_right fun heq =>
    hunrevoked (congrArg VestingSchedule.status heq).symm

theorem queried_of (hi : c.instruction=.querySchedule)
    (h : processQuerySchedule e c.clock c.accounts ⟨b,b⟩=.ok f) : Accepted e c b f.view := by
  unfold processQuerySchedule at h
  split at h <;> simp only [steps_ok] at h
  obtain ⟨-,-,-,-,-,-,rfl⟩ := h
  exact .queried hi rfl

theorem reassigned_of (hi : c.instruction=.transferAuthority newAuthority)
    (hsync : Synced e.programId c.accounts f)
    (h : processTransferAuthority c.accounts newAuthority ⟨b,b⟩=.ok f) : Accepted e c b f.view := by
  unfold processTransferAuthority at h
  split at h <;> simp only [steps_ok] at h
  rename_i authority registry _ hacc
  obtain ⟨-,-,r,hload,hstore⟩ := h
  obtain ⟨hr,hlive⟩ := loadOwnRegistry_spec hload
  dsimp only at hr
  rw [store_eq_ok registry_size (by rw [hr]; exact registry_size r)] at hstore
  subst hstore
  have howned : (b registry.key).owner=e.programId ∨ {r with authority := newAuthority}=r :=
    record_owned hsync (by simp [hacc]) (SameState.refl b) hr (setData_same _ _ _)
  exact .reassigned ⟨hi,by simp [Call.key?,hacc],hr,hlive,howned,rfl⟩

theorem execute_spec (h : (program e).execute c b=.ok b') : Accepted e c b b' := by
  obtain ⟨f,hf,hsync,rfl⟩ := execute_eq_ok.mp h
  change processInstruction e c.clock c.accounts c.instruction ⟨b,b⟩=.ok f at hf
  cases hi : c.instruction with
  | initializeRegistry =>
    rw [hi] at hf
    exact initialized_of hi hf
  | createSchedule =>
    rw [hi] at hf
    exact created_of hi hsync hf
  | claim =>
    rw [hi] at hf
    exact claimed_of hi hsync hf
  | revoke =>
    rw [hi] at hf
    exact revoked_of hi hsync hf
  | querySchedule =>
    rw [hi] at hf
    exact queried_of hi hf
  | transferAuthority =>
    rw [hi] at hf
    exact reassigned_of hi hsync hf

end Handlers
end PrismChain.Vesting
