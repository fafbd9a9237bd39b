import PrismChain.Programs.Scusd.Transition

namespace PrismChain.Scusd

open FixedWidth Aggregate Option List BitVec Program

def globalAt (e : Env) (b : Bank) : Option GlobalState :=
  recordAt globalCodec (fun _ => true) e.programId b (globalPda e)

def vaultAt (e : Env) (b : Bank) (k : Pubkey) : Option Vault :=
  recordAt vaultCodec Vault.isInitialized e.programId b k

def zeroGlobal : GlobalState :=
  ⟨0#256,0#256,0#256,0#256,0#64,0#64,0#64,0#64,0#64,0#8,false⟩

theorem zeroGlobal_encode : globalCodec.encode zeroGlobal=List.replicate globalLen 0#8 := by
  decide +kernel

theorem eq_zeroGlobal (h : ∀ x∈globalCodec.encode g,x=0#8) : g=zeroGlobal := by
  refine globalCodec.encode_inj ?_
  rw [zeroGlobal_encode]
  exact eq_replicate_iff.mpr ⟨global_size g,h⟩

structure Tally where
  part : Vault → U64
  total : GlobalState → U64
  opened : ∀ h owner now,part (newVault h owner now)=0#64
  initial : ∀ h authority scusdMint prismMint pool,
    total (newGlobal h authority scusdMint prismMint pool)=0#64
  blank : total zeroGlobal=0#64

def debtTally : Tally :=
  ⟨Vault.debtAmount,GlobalState.totalDebt,fun _ _ _ => rfl,fun _ _ _ _ _ => rfl,rfl⟩

def collateralTally : Tally :=
  ⟨Vault.collateralAmount,GlobalState.totalCollateral,fun _ _ _ => rfl,fun _ _ _ _ _ => rfl,rfl⟩

namespace Tally

def sum (q : Tally) (e : Env) (b : Bank) : Nat := sumOver (fun v => (q.part v).toNat) (vaultAt e b)

def recorded (q : Tally) (e : Env) (b : Bank) :
    Nat := (globalAt e b).elim 0 fun g => (q.total g).toNat

end Tally

def PassedGlobal (e : Env) (_ : Bank) (c : Call Instruction) : Prop :=
  c.key? c.instruction.globalIndex=some (globalPda e)

structure FeeFree (e : Env) (b : Bank) (c : Call Instruction) : Prop where
  passed : PassedGlobal e b c
  free : ∀ {k v g},c.key? 1=some k → vaultAt e b k=some v → globalAt e b=some g →
    (accrueStabilityFee v g c.clock.unixTimestamp).debtAmount=v.debtAmount

theorem vault_marked : Marked vaultCodec Vault.isInitialized := by
  intro v hinit
  change 1#8∈_++(_++(_++(_++(_++(_++Codec.bool.encode v.isInitialized)))))
  rw [hinit]
  iterate 6 apply mem_append_right
  decide

/-- What an instruction moves between a vault and the totals: it gives both the same, except that
the fee has reached the vault before. -/
structure Moves (now : I64) (v : Vault) (g : GlobalState) (x : Vault×GlobalState) : Prop where
  live : x.1.isInitialized=v.isInitialized
  stamped : x.1.lastUpdate=now
  collateral : x.2.totalCollateral.toNat+v.collateralAmount.toNat=
    g.totalCollateral.toNat+x.1.collateralAmount.toNat
  debt : x.2.totalDebt.toNat+(accrueStabilityFee v g now).debtAmount.toNat=
    g.totalDebt.toNat+x.1.debtAmount.toNat

section Changes

variable {v : Vault}

theorem checkedRatio_eq_ok (h : checkedRatio v g newCollateral oracle=.ok v1) :
    ∃ ratio,v1={v with collateralRatio := ratio} := by
  unfold checkedRatio at h
  split at h
  · simp only [steps_ok] at h
    obtain ⟨_,-,_,-,rfl⟩ := h
    exact ⟨_,rfl⟩
  · obtain rfl := pure_eq_ok.mp h
    exact ⟨v.collateralRatio,rfl⟩

theorem Effect.moves (he : Effect now v g i x) : Moves now v g x := by
  have hlive := accrueStabilityFee_isInitialized v g now
  have hcollateral := accrueStabilityFee_collateral v g now
  cases he with
  | deposited hx =>
    simp only [Scusd.deposited,steps_ok,checkedAdd_eq_some] at hx
    obtain ⟨c,hc,t,ht,rfl⟩ := hx
    refine ⟨hlive,rfl,?_,rfl⟩
    rw [hcollateral] at hc
    dsimp only
    omega
  | minted hdebt hx =>
    simp only [Scusd.minted,steps_ok,checkedAdd_eq_some] at hx
    obtain ⟨t,ht,rfl⟩ := hx
    have hd := checkedAdd_eq_some.mp hdebt
    refine ⟨hlive,rfl,?_,?_⟩
    · dsimp only
      rw [hcollateral]
    · dsimp only
      omega
  | repaid hx =>
    simp only [Scusd.repaid,steps_ok,checkedSub_eq_some] at hx
    obtain ⟨d,hd,t,ht,rfl⟩ := hx
    refine ⟨hlive,rfl,?_,?_⟩
    · dsimp only
      rw [hcollateral]
    · dsimp only
      omega
  | withdrawn hcol hratio hx =>
    obtain ⟨_,rfl⟩ := checkedRatio_eq_ok hratio
    simp only [Scusd.withdrawn,steps_ok,checkedSub_eq_some] at hx
    obtain ⟨t,ht,rfl⟩ := hx
    have hc := checkedSub_eq_some.mp hcol
    rw [hcollateral] at hc
    refine ⟨hlive,rfl,?_,rfl⟩
    dsimp only
    omega
  | liquidated _ hx =>
    simp only [Scusd.liquidated,steps_ok,checkedSub_eq_some] at hx
    obtain ⟨c,hc,d,hd,t,ht,rfl⟩ := hx
    rw [hcollateral] at hc
    refine ⟨hlive,rfl,?_,?_⟩
    · dsimp only
      omega
    · have hzero : (0#64 : U64).toNat=0 := rfl
      dsimp only
      omega

theorem accrue_stamped (h : v.lastUpdate=now) : accrueStabilityFee v g now=v :=
  if_pos (.inr (by rw [h]))

theorem accrue_debtless (h : v.debtAmount=0#64) : accrueStabilityFee v g now=v := if_pos (.inl h)

end Changes

section Books

variable {e : Env} {c : Call Instruction} {owner : Pubkey}

theorem vaultAt_of_global (hg : (b k).data=globalCodec.encode g) : vaultAt e b k=none :=
  recordAt_eq_none fun v _ hv _ => global_ne_vault g v (hg.symm.trans hv)

theorem globalAt_of_vault (hv : (b (globalPda e)).data=vaultCodec.encode v) :
    globalAt e b=none :=
  recordAt_eq_none fun g _ hg _ => global_ne_vault g v (hg.symm.trans hv)

theorem recordAt_kept {α : Type} {c : Codec α} {live : α → Bool} {id : Pubkey}
    (howner : (b' k).owner=(b k).owner) (hdata : (b k).owner=id → (b' k).data=(b k).data) :
    recordAt c live id b' k=recordAt c live id b k := by
  by_cases hid : (b k).owner=id
  · exact recordAt_congr howner (hdata hid)
  · rw [recordAt_eq_none fun _ h _ _ => hid h,
    recordAt_eq_none fun _ h _ _ => hid (howner.symm.trans h)]

theorem Written.vaults (w : Written e b b' k gk v g x) (hlive : v.isInitialized=true)
    (hlive' : x.1.isInitialized=v.isInitialized) :
    Rewritten vaultCodec Vault.isInitialized e.programId b b' k v x.1 := by
  refine rewritten (w.owners k) w.vault w.vault' hlive hlive' w.vaultOwned fun j hj => ?_
  by_cases hg : j=gk
  · subst hg
    exact (vaultAt_of_global w.global').trans (vaultAt_of_global w.global).symm
  · exact recordAt_kept (w.owners j) (w.others j hj hg)

theorem Written.globals (w : Written e b b' k gk v g x) :
    Rewritten globalCodec (fun _ => true) e.programId b b' gk g x.2 := by
  refine rewritten (w.owners gk) w.global w.global' rfl rfl w.globalOwned fun j hj => ?_
  by_cases hk : j=k
  · subst hk
    rw [recordAt_eq_none fun a _ ha _ => global_ne_vault a x.1 (ha.symm.trans w.vault'),
      recordAt_eq_none fun a _ ha _ => global_ne_vault a v (ha.symm.trans w.vault)]
  · exact recordAt_kept (w.owners j) (w.others j hk hj)

theorem Opened.global (o : Opened e c b b' owner) : globalAt e b'=globalAt e b := by
  by_cases hk : globalPda e=vaultPda e owner
  · rw [globalAt_of_vault (by rw [hk]; exact o.vault')]
    exact (recordAt_of_empty global_size (by decide) (by rw [hk]; exact o.fresh)).symm
  · exact recordAt_congr (o.others _ hk).2 (o.others _ hk).1

theorem Initialized.vaults (i : Initialized e c b b' authority scusdMint prismMint pool)
    (j : Pubkey) : vaultAt e b' j=vaultAt e b j := by
  by_cases hj : j=globalPda e
  · subst hj
    rw [vaultAt_of_global i.global']
    exact (recordAt_of_empty vault_size (by decide) i.fresh).symm
  · exact recordAt_congr (i.others j hj).2 (i.others j hj).1

theorem outside_global (hout : Outside e.programId b b') :
    globalAt e b'=globalAt e b ∨ globalAt e b=none ∧ globalAt e b'=some zeroGlobal := by
  by_cases howner : (b (globalPda e)).owner=e.programId
  · obtain ⟨howner',hdata,-⟩ := hout.owned howner
    exact .inl (recordAt_congr (howner'.trans howner.symm) hdata)
  have hnone : globalAt e b=none := recordAt_eq_none fun _ h _ _ => howner h
  cases hg : globalAt e b' with
  | none => exact .inl hnone.symm
  | some =>
    obtain ⟨howner',hdata,-⟩ := recordAt_eq_some.mp hg
    have hzeros := (hout _).2 howner howner'
    rw [hdata] at hzeros
    exact .inr ⟨hnone,congrArg some (eq_zeroGlobal hzeros)⟩

end Books

namespace Tally

variable {q : Tally} {e : Env} {b : Bank}

def Exact (q : Tally) (e : Env) (b : Bank) : Prop := q.sum e b=q.recorded e b

theorem recorded_outside (q : Tally) (hout : Outside e.programId b b') :
    q.recorded e b'=q.recorded e b := by
  unfold recorded
  obtain hsame | ⟨hnone,hzero⟩ := outside_global hout
  · rw [hsame]
  · rw [hnone,hzero,elim_some,q.blank]
    rfl

theorem Exact.outside (hexact : q.Exact e b) (hout : Outside e.programId b b') : q.Exact e b' := by
  unfold Exact
  rw [q.recorded_outside hout,← hexact]
  exact sumOver_congr fun k => hout.records vault_marked k

theorem Exact.initialized {authority scusdMint prismMint pool : Pubkey} (hexact : q.Exact e b)
    (i : Initialized e c b b' authority scusdMint prismMint pool) : q.Exact e b' := by
  have hnone : globalAt e b=none := recordAt_of_empty global_size (by decide) i.fresh
  have hsome : globalAt e b'=some _ := recordAt_eq_some.mpr ⟨i.owned',i.global',rfl⟩
  have hsum : q.sum e b'=q.sum e b := sumOver_congr i.vaults
  unfold Exact recorded at hexact ⊢
  rw [hsome,elim_some,q.initial,hsum,hexact,hnone]
  rfl

theorem Exact.opened {owner : Pubkey} (hexact : q.Exact e b) (o : Opened e c b b' owner) :
    q.Exact e b' := by
  have hnone : vaultAt e b (vaultPda e owner)=none :=
    recordAt_of_empty vault_size (by decide) o.fresh
  have hsome : vaultAt e b' (vaultPda e owner)=some _ :=
    recordAt_eq_some.mpr ⟨o.owned',o.vault',rfl⟩
  have hsum := sumOver_insert (g := fun v => (q.part v).toNat) hnone hsome fun j hj =>
    recordAt_congr (o.others j hj).2 (o.others j hj).1
  rw [q.opened,toNat_zero,Nat.add_zero] at hsum
  unfold Exact recorded at hexact ⊢
  rw [o.global,← hexact]
  exact hsum

/-- An instruction that gives the vault and the total the same keeps them in step, also when the
account at the global state's address is not the program's. -/
theorem Exact.written (hexact : q.Exact e b) (w : Written e b b' k (globalPda e) v g x)
    (hlive : v.isInitialized=true) (hlive' : x.1.isInitialized=v.isInitialized)
    (hmoves : (q.total x.2).toNat+(q.part v).toNat=(q.total g).toNat+(q.part x.1).toNat) :
    q.Exact e b' := by
  have hsum : q.sum e b'+(q.part v).toNat=q.sum e b+(q.part x.1).toNat :=
    (w.vaults hlive hlive').sumOver fun v => (q.part v).toNat
  have htotal : q.recorded e b'+(q.total g).toNat=q.recorded e b+(q.total x.2).toNat := by
    cases w.globals with
    | foreign hsame hbook =>
      have hglobal : globalAt e b'=globalAt e b := hbook _
      unfold recorded
      rw [hglobal,hsame]
    | own hbefore hafter =>
      have hbefore' : globalAt e b=some g := hbefore
      have hafter' : globalAt e b'=some x.2 := hafter
      unfold recorded
      rw [hbefore',hafter',elim_some,elim_some]
      omega
  unfold Exact at hexact ⊢
  omega

theorem Exact.start (h0 : Untouched e.programId b) : q.Exact e b := by
  have hsum : q.sum e b=0 := sumOver_empty fun k => h0.records vault_marked k
  unfold Exact recorded
  rw [hsum]
  cases hg : globalAt e b with
  | none => rfl
  | some =>
    obtain ⟨howner,hdata,-⟩ := recordAt_eq_some.mp hg
    have hzeros := h0 _ howner
    rw [hdata] at hzeros
    rw [eq_zeroGlobal hzeros,elim_some,q.blank]
    rfl

end Tally

section Runs

variable {e : Env} {s : Ledger}

/-- No fee reaches a vault: either it is one of the program's and no fee accrues, or it was
stamped with the present before. -/
theorem Updated.uncharged (hexact : debtTally.Exact e b) (hfree : FeeFree e b c)
    (u : Updated e c b b' k (globalPda e) v g x) :
    (accrueStabilityFee v g c.clock.unixTimestamp).debtAmount=v.debtAmount := by
  cases u.written.vaults u.live u.effect.moves.live with
  | foreign hsame =>
    rw [accrue_stamped]
    rw [← hsame]
    exact u.effect.moves.stamped
  | own hv =>
    cases hg : globalAt e b with
    | some =>
      obtain ⟨-,hdata,-⟩ := recordAt_eq_some.mp hg
      obtain rfl := globalCodec.encode_inj (u.written.global.symm.trans hdata)
      exact hfree.free u.vaultKey hv hg
    | none =>
      -- without a global state there is no debt
      have hle : v.debtAmount.toNat≤debtTally.sum e b :=
        le_sumOver (g := fun v : Vault => v.debtAmount.toNat) hv
      unfold Tally.Exact Tally.recorded at hexact
      rw [hexact,hg,elim_none] at hle
      rw [accrue_debtless (eq_of_toNat_eq (Nat.le_zero.mp hle))]

theorem Effect.globalIndex (he : Effect now v g i x) : i.globalIndex=2 := by
  cases he <;> rfl

theorem Updated.passed (u : Updated e c b b' k gk v g x) (hpassed : PassedGlobal e b c) :
    gk=globalPda e := by
  unfold PassedGlobal at hpassed
  rw [u.effect.globalIndex] at hpassed
  exact some.inj (u.globalKey.symm.trans hpassed)

theorem debt_step (hexact : debtTally.Exact e s.bank) (hstep : (program e).Step (FeeFree e) s a t) :
    debtTally.Exact e t.bank := by
  cases hstep with
  | outside _ hout => exact hexact.outside hout
  | call _ hfree hx =>
    cases execute_spec hx with
    | initialized _ i => exact hexact.initialized i
    | opened _ o => exact hexact.opened o
    | updated u =>
      obtain rfl := u.passed hfree.passed
      have hmoves := u.effect.moves.debt
      rw [u.uncharged hexact hfree] at hmoves
      exact hexact.written u.written u.live u.effect.moves.live hmoves

theorem collateral_step (hexact : collateralTally.Exact e s.bank)
    (hstep : (program e).Step (PassedGlobal e) s a t) : collateralTally.Exact e t.bank := by
  cases hstep with
  | outside _ hout => exact hexact.outside hout
  | call _ hpassed hx =>
    cases execute_spec hx with
    | initialized _ i => exact hexact.initialized i
    | opened _ o => exact hexact.opened o
    | updated u =>
      obtain rfl := u.passed hpassed
      exact hexact.written u.written u.live u.effect.moves.live u.effect.moves.collateral

theorem collateral_total_exact (h0 : Untouched e.programId s.bank)
    (hrun : Run ((program e).Step (PassedGlobal e)) s tr t) : collateralTally.Exact e t.bank :=
  hrun.invariant (I := fun t => collateralTally.Exact e t.bank)
    (Tally.Exact.start h0) collateral_step

end Runs

structure Repayment where
  owner : AccountInfo
  vault : AccountInfo
  globalState : AccountInfo
  scusdMint : AccountInfo
  ownerScusd : AccountInfo
  tokenProgram : AccountInfo
  clockSysvar : AccountInfo
  rest : List AccountInfo

namespace Repayment

def accounts (r : Repayment) : List AccountInfo :=
  r.owner::r.vault::r.globalState::r.scusdMint::r.ownerScusd::r.tokenProgram::r.clockSysvar::r.rest

def call (r : Repayment) (clock : Clock) (amount : U64) : Call Instruction :=
  ⟨clock,r.accounts,.repayScusd amount⟩

structure Ready (r : Repayment) (e : Env) (b : Bank) (clock : Clock) (amount : U64) (v : Vault)
    (g : GlobalState) : Prop where
  signer : r.owner.isSigner=true
  vault : vaultAt e b r.vault.key=some v
  owner : v.owner=r.owner.key
  passed : r.globalState.key=globalPda e
  global : globalAt e b=some g
  token : r.tokenProgram.key=e.tokenProgram
  writable : r.vault.isWritable=true ∧ r.globalState.isWritable=true ∧
    r.ownerScusd.isWritable=true ∧ r.scusdMint.isWritable=true
  burn : ∃ b₁,e.tokenCall [] (TokenOp.burn.index::leBytes 8
    (umin amount (accrueStabilityFee v g clock.unixTimestamp).debtAmount).toNat)
    [r.ownerScusd.key,r.scusdMint.key,r.owner.key] b=.ok b₁

theorem Ready.executes {r : Repayment} {e : Env} (hr : r.Ready e b clock amount v g)
    (hx : ∃ x,repaid (accrueStabilityFee v g clock.unixTimestamp) g
      (umin amount (accrueStabilityFee v g clock.unixTimestamp).debtAmount)
      clock.unixTimestamp=.ok x) : ∃ b',(program e).execute (r.call clock amount) b=.ok b' := by
  obtain ⟨x,hx⟩ := hx
  obtain ⟨hvowned,hv,hlive⟩ := recordAt_eq_some.mp hr.vault
  obtain ⟨hgowned,hg,-⟩ := recordAt_eq_some.mp hr.global
  rw [← hr.passed] at hgowned hg
  obtain ⟨hwv,hwg,hws,hwm⟩ := hr.writable
  obtain ⟨_,hcall⟩ := hr.burn
  have hburn := @invokeToken_ok e ⟨e.programId,r.accounts⟩ _ _ _ _ _ _ _ _ _ hr.token
    ⟨writable_of_mem (by simp [accounts]) hws,writable_of_mem (by simp [accounts]) hwm⟩ hcall
  obtain ⟨_,he,ht⟩ := invokeToken_spec hburn
  cases he
  obtain ⟨f,hstore,hsync⟩ := commit_ok r.accounts x hv hg ht hvowned hgowned
    (writable_of_mem (by simp [accounts]) hwv) (writable_of_mem (by simp [accounts]) hwg)
  refine ⟨f.view,execute_eq_ok.mpr ⟨f,?_,hsync,rfl⟩⟩
  change processRepayScusd e clock r.accounts amount ⟨b,b⟩=.ok f
  have hown : loadOwnVault ⟨b,b⟩ r.vault.key r.owner.key=.ok v :=
    loadOwnVault_eq_ok.mpr ⟨hv,hlive,hr.owner⟩
  have hload : loadGlobal ⟨b,b⟩ r.globalState.key=.ok g := loadGlobal_eq_ok.mpr hg
  unfold processRepayScusd accounts
  simp only [require_pos hr.signer,hown,hload,ok_bind]
  unfold accounts at hburn
  rw [hburn,ok_bind,hx,ok_bind]
  exact hstore

end Repayment

/-- As long as no fee accrues the total is the debt of all vaults, and a vault's debt can be
repaid. -/
theorem debt_total_exact {e : Env} {s t : Ledger} {tr : Trace Instruction}
    (h0 : Untouched e.programId s.bank) (hrun : Run ((program e).Step (FeeFree e)) s tr t) :
    (∀ g,globalAt e t.bank=some g →
      g.totalDebt.toNat=sumOver (fun v => v.debtAmount.toNat) (vaultAt e t.bank)) ∧
    ∀ (r : Repayment) (clock : Clock) (amount : U64) (v : Vault) (g : GlobalState),
      r.Ready e t.bank clock amount v g → FeeFree e t.bank (r.call clock amount) →
        ∃ b,(program e).execute (r.call clock amount) t.bank=.ok b := by
  have hexact : debtTally.Exact e t.bank :=
    hrun.invariant (I := fun t => debtTally.Exact e t.bank) (Tally.Exact.start h0) debt_step
  have htotal {g : GlobalState} (hg : globalAt e t.bank=some g) :
      g.totalDebt.toNat=sumOver (fun v => v.debtAmount.toNat) (vaultAt e t.bank) := by
    unfold Tally.Exact Tally.recorded at hexact
    rw [hg,elim_some] at hexact
    exact hexact.symm
  refine ⟨fun g hg => htotal hg,fun r clock amount v g hr hfree => ?_⟩
  have hdebt : (accrueStabilityFee v g clock.unixTimestamp).debtAmount=v.debtAmount :=
    hfree.free rfl hr.vault hr.global
  have hle : v.debtAmount.toNat≤g.totalDebt.toNat := by
    rw [htotal hr.global]
    exact le_sumOver (g := fun v : Vault => v.debtAmount.toNat) hr.vault
  have hmin : (umin amount v.debtAmount).toNat≤v.debtAmount.toNat := by
    rw [toNat_umin]
    exact min_le_right _ _
  refine hr.executes ?_
  simp only [repaid,hdebt,checkedSub_of_le hmin,checkedSub_of_le (hmin.trans hle),okOr_some,ok_bind]
  exact ⟨_,rfl⟩

def sampleGlobal : Pubkey := 0x6d94ac1b6a219ee1f31bef28754f74d2905f58767ea03f1a382b097235a6d899#256
def sampleVault : Pubkey := 0xa1048a79823453696f9af851a961cbaa2b62cecf8ce3da075b2fe7c8481e4dfe#256
def otherVault : Pubkey := 0x2d623785bb8e0afac307cfe214a4b69d279982c23978845c3bb49fa6d52e2d72#256

def sampleEnv : Env where
  programId := 1#256
  findProgramAddress seeds _ :=
    if seeds=[globalStateSeed] then (sampleGlobal,255#8)
    else if seeds=[vaultSeed,Pubkey.bytes 2#256] then (sampleVault,253#8)
    else (otherVault,254#8)
  minimumBalance n := BitVec.ofNat 64 ((n+128)*6960)
  clockSysvar := 5#256
  tokenProgram := 9#256
  foreign := by decide
  tokenCall _ _ _ b := .ok b
  confined h k := by
    cases h
    exact ⟨rfl,.inl rfl,fun _ => rfl⟩

def feed (price : U64) : List Byte := List.replicate 64 0#8++leBytes 8 price.toNat

def genesis : Ledger where
  bank k :=
    if k=2#256 ∨ k=3#256 then ⟨1000000000#64,[],systemProgram⟩
    else if k=7#256 then ⟨0#64,feed 100000000#64,systemProgram⟩
    else if k=8#256 then ⟨0#64,feed 50000000#64,systemProgram⟩
    else ⟨0#64,[],systemProgram⟩
  clock := ⟨1#64,1000#64⟩

theorem genesis_untouched : Untouched sampleEnv.programId genesis.bank := by
  refine untouched_of_foreign fun k => ?_
  unfold genesis
  dsimp only
  split_ifs <;> decide

def initCall : Call Instruction where
  clock := ⟨2#64,1000#64⟩
  accounts := [⟨2#256,true,true⟩,⟨sampleGlobal,false,true⟩,⟨11#256,false,true⟩,⟨12#256,false,false⟩,
    ⟨13#256,false,true⟩,⟨9#256,false,false⟩,systemInfo,⟨6#256,false,false⟩]
  instruction := .initializeSystem

def openCall (owner vault : Pubkey) : Call Instruction where
  clock := ⟨2#64,1000#64⟩
  accounts :=
    [⟨owner,true,true⟩,⟨vault,false,true⟩,⟨sampleGlobal,false,false⟩,systemInfo]
  instruction := .openVault

def depositCall (owner vault : Pubkey) (amount : U64) (now : I64) : Call Instruction where
  clock := ⟨2#64,now⟩
  accounts := [⟨owner,true,true⟩,⟨vault,false,true⟩,⟨sampleGlobal,false,true⟩,⟨14#256,false,true⟩,
    ⟨13#256,false,true⟩,⟨9#256,false,false⟩,⟨5#256,false,false⟩]
  instruction := .depositCollateral amount

def mintCall (owner vault : Pubkey) (amount : U64) (now : I64) : Call Instruction where
  clock := ⟨2#64,now⟩
  accounts := [⟨owner,true,true⟩,⟨vault,false,true⟩,⟨sampleGlobal,false,true⟩,⟨11#256,false,true⟩,
    ⟨15#256,false,true⟩,⟨7#256,false,false⟩,⟨9#256,false,false⟩,⟨5#256,false,false⟩]
  instruction := .mintScusd amount

def sampleRepayment : Repayment :=
  ⟨⟨2#256,true,true⟩,⟨sampleVault,false,true⟩,⟨sampleGlobal,false,true⟩,⟨11#256,false,true⟩,
    ⟨15#256,false,true⟩,⟨9#256,false,false⟩,⟨5#256,false,false⟩,[]⟩

def loanCalls (collateral debt : U64) : List (Call Instruction) :=
  [initCall,openCall 2#256 sampleVault,depositCall 2#256 sampleVault collateral 1000#64,
    mintCall 2#256 sampleVault debt 1000#64]

def afterYear : I64 := 31558600#64

def touchCalls : List (Call Instruction) :=
  loanCalls 3000#64 2000#64++[depositCall 2#256 sampleVault 0#64 afterYear]

theorem passed_of_keys {cs : List (Call Instruction)}
    (h : cs.all fun c => c.key? c.instruction.globalIndex==some sampleGlobal)
    {c : Call Instruction} (hc : c∈cs) (b : Bank) : PassedGlobal sampleEnv b c :=
  beq_iff_eq.mp (all_eq_true.mp h c hc)

def feeFree (e : Env) (b : Bank) (c : Call Instruction) : Bool :=
  c.key? c.instruction.globalIndex==some (globalPda e) &&
    ((c.key? 1).bind (vaultAt e b)).all fun v => (globalAt e b).all fun g =>
      (accrueStabilityFee v g c.clock.unixTimestamp).debtAmount==v.debtAmount

theorem feeFree_spec {e : Env} (h : feeFree e b c=true) : FeeFree e b c := by
  simp only [feeFree,Bool.and_eq_true,beq_iff_eq] at h
  refine ⟨h.1,fun hk hv hg => ?_⟩
  have hfree := h.2
  rw [hk,bind_some,hv,all_some,hg,all_some] at hfree
  exact beq_iff_eq.mp hfree

def freeOnTheWay (e : Env) (tr : Trace Instruction) : Bool :=
  tr.all fun x => match x.label with
    | .call c => feeFree e x.pre.bank c
    | .outside => true

theorem loan_repaid_at_once :
    ∃ tr t v g b,Run ((program sampleEnv).Step (FeeFree sampleEnv)) genesis tr t ∧
      vaultAt sampleEnv t.bank sampleVault=some v ∧ globalAt sampleEnv t.bank=some g ∧
      g.totalDebt=2000#64 ∧
      g.totalDebt.toNat=sumOver (fun v => v.debtAmount.toNat) (vaultAt sampleEnv t.bank) ∧
      (program sampleEnv).execute (sampleRepayment.call ⟨2#64,1000#64⟩ 2000#64) t.bank=.ok b := by
  obtain ⟨⟨tr,t⟩,hhistory,hway,hrepay,v,hv,howner,g,hg,htotal⟩ :
      ∃ x,(program sampleEnv).history (loanCalls 3000#64 2000#64) genesis=some x ∧
      freeOnTheWay sampleEnv x.1=true ∧
      feeFree sampleEnv x.2.bank (sampleRepayment.call ⟨2#64,1000#64⟩ 2000#64)=true ∧
      ∃ v,vaultAt sampleEnv x.2.bank sampleVault=some v ∧ v.owner=2#256 ∧
      ∃ g,globalAt sampleEnv x.2.bank=some g ∧ g.totalDebt=2000#64 := by decide +kernel
  have hrun : Run ((program sampleEnv).Step (FeeFree sampleEnv)) genesis tr t := by
    refine history_run hhistory fun x hx c hc => ?_
    have hfree := all_eq_true.mp hway x hx
    rw [hc] at hfree
    exact feeFree_spec hfree
  obtain ⟨hsum,hexecutes⟩ := debt_total_exact genesis_untouched hrun
  obtain ⟨b,hb⟩ := hexecutes sampleRepayment ⟨2#64,1000#64⟩ 2000#64 v g
    ⟨rfl,hv,howner,rfl,hg,rfl,⟨rfl,rfl,rfl,rfl⟩,⟨_,rfl⟩⟩ (feeFree_spec hrepay)
  exact ⟨tr,t,v,g,b,hrun,hv,hg,htotal,hsum g hg,hb⟩

theorem deposits_in_total :
    ∃ tr t,Run ((program sampleEnv).Step (PassedGlobal sampleEnv)) genesis tr t ∧
    (globalAt sampleEnv t.bank).map GlobalState.totalCollateral=some 3000#64 ∧
    collateralTally.Exact sampleEnv t.bank := by
  obtain ⟨tr,t,hrun,hg⟩ := exists_run (P := program sampleEnv) (s := genesis) (p := fun _ t =>
    (globalAt sampleEnv t.bank).map GlobalState.totalCollateral=some 3000#64) touchCalls
    (fun _ => passed_of_keys (by decide)) (by decide +kernel)
  exact ⟨tr,t,hrun,hg,collateral_total_exact genesis_untouched hrun⟩

/-- The fee makes the vaults owe more than the total says, and the debt cannot be repaid. -/
theorem fee_outgrows_total : ∃ tr t v g,Untouched sampleEnv.programId genesis.bank ∧
      Run ((program sampleEnv).Step (PassedGlobal sampleEnv)) genesis tr t ∧
      vaultAt sampleEnv t.bank sampleVault=some v ∧ globalAt sampleEnv t.bank=some g ∧
      v.debtAmount=2040#64 ∧ g.totalDebt=2000#64 ∧
      g.totalDebt.toNat≠sumOver (fun v => v.debtAmount.toNat) (vaultAt sampleEnv t.bank) ∧
      sampleRepayment.Ready sampleEnv t.bank ⟨2#64,afterYear⟩ 2040#64 v g ∧
      (program sampleEnv).execute (sampleRepayment.call ⟨2#64,afterYear⟩ 2040#64) t.bank=
        .error .arithmeticOverflow := by
  obtain ⟨⟨tr,t⟩,hhistory,v,hv,hdebt,howner,g,hg,htotal,hrepay⟩ :
      ∃ x,(program sampleEnv).history touchCalls genesis=some x ∧
      ∃ v,vaultAt sampleEnv x.2.bank sampleVault=some v ∧ v.debtAmount=2040#64 ∧ v.owner=2#256 ∧
      ∃ g,globalAt sampleEnv x.2.bank=some g ∧ g.totalDebt=2000#64 ∧
      (program sampleEnv).execute (sampleRepayment.call ⟨2#64,afterYear⟩ 2040#64) x.2.bank=
        .error .arithmeticOverflow := by decide +kernel
  have hrun : Run ((program sampleEnv).Step (PassedGlobal sampleEnv)) genesis tr t :=
    history_run_calls hhistory fun c hc b => passed_of_keys (by decide) hc b
  refine ⟨tr,t,v,g,genesis_untouched,hrun,hv,hg,hdebt,htotal,?_,
    ⟨rfl,hv,howner,rfl,hg,rfl,⟨rfl,rfl,rfl,rfl⟩,⟨_,rfl⟩⟩,hrepay⟩
  have hle := le_sumOver (g := fun v : Vault => v.debtAmount.toNat) hv
  rw [hdebt] at hle
  rw [htotal]
  intro heq
  rw [← heq] at hle
  exact absurd hle (by decide)

end PrismChain.Scusd
