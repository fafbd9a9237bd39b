import PrismChain.Framework.Records
import PrismChain.Programs.Scusd.Processor

namespace PrismChain.Scusd

open FixedWidth Invocation Bank PrismChain.Frame

def TokenStep (e : Env) (b b' : Bank) : Prop :=
  ∀ k,(b' k).owner=(b k).owner ∧ ((b' k).data=(b k).data ∨ (b k).owner=e.tokenProgram ∧
      ((b k).data.length=82 ∨ (b k).data.length=165))

structure Written (e : Env) (b b' : Bank) (k gk : Pubkey) (v : Vault) (g : GlobalState)
    (x : Vault×GlobalState) : Prop where
  vault : (b k).data=vaultCodec.encode v
  global : (b gk).data=globalCodec.encode g
  vault' : (b' k).data=vaultCodec.encode x.1
  global' : (b' gk).data=globalCodec.encode x.2
  vaultOwned : (b k).owner=e.programId ∨ x.1=v
  globalOwned : (b gk).owner=e.programId ∨ x.2=g
  owners : ∀ j,(b' j).owner=(b j).owner
  others : ∀ j,j≠k → j≠gk → (b j).owner=e.programId → (b' j).data=(b j).data

inductive Effect (now : I64) (v : Vault) (g : GlobalState) : Instruction → Vault×GlobalState → Prop
  | deposited {amount : U64} {x : Vault×GlobalState}
      (hx : deposited (accrueStabilityFee v g now) g amount now=.ok x) :
      Effect now v g (.depositCollateral amount) x
  | minted {amount newDebt ratio : U64} {x : Vault×GlobalState}
      (hdebt : checkedAdd (accrueStabilityFee v g now).debtAmount amount=some newDebt)
      (hx : minted (accrueStabilityFee v g now) g newDebt ratio amount now=.ok x) :
      Effect now v g (.mintScusd amount) x
  | repaid {amount : U64} {x : Vault×GlobalState} (hx : repaid (accrueStabilityFee v g now) g
        (umin amount (accrueStabilityFee v g now).debtAmount) now=.ok x) :
      Effect now v g (.repayScusd amount) x
  | withdrawn {amount newCollateral : U64} {oracle : List Byte} {v₁ : Vault} {x : Vault×GlobalState}
      (hcollateral : checkedSub (accrueStabilityFee v g now).collateralAmount amount=
        some newCollateral)
      (hratio : checkedRatio (accrueStabilityFee v g now) g newCollateral oracle=.ok v₁)
      (hx : withdrawn v₁ g newCollateral amount now=.ok x) :
      Effect now v g (.withdrawCollateral amount) x
  | liquidated {price seized : U64} {x : Vault×GlobalState}
      (hseized : collateralToLiquidate (accrueStabilityFee v g now) price=.ok seized)
      (hx : liquidated (accrueStabilityFee v g now) g seized now=.ok x) :
      Effect now v g .liquidateVault x

structure Initialized (e : Env) (c : Call Instruction) (b b' : Bank)
    (authority scusdMint prismMint collateralPool : Pubkey) : Prop where
  globalKey : c.key? 1=some (globalPda e)
  fresh : (b (globalPda e)).data=[]
  global' : (b' (globalPda e)).data=
    globalCodec.encode (newGlobal e authority scusdMint prismMint collateralPool)
  owned' : (b' (globalPda e)).owner=e.programId
  others : ∀ j,j≠globalPda e → (b' j).data=(b j).data ∧ (b' j).owner=(b j).owner

structure Opened (e : Env) (c : Call Instruction) (b b' : Bank) (owner : Pubkey) : Prop where
  vaultKey : c.key? 1=some (vaultPda e owner)
  fresh : (b (vaultPda e owner)).data=[]
  vault' : (b' (vaultPda e owner)).data=
    vaultCodec.encode (newVault e owner c.clock.unixTimestamp)
  owned' : (b' (vaultPda e owner)).owner=e.programId
  others : ∀ j,j≠vaultPda e owner → (b' j).data=(b j).data ∧ (b' j).owner=(b j).owner

structure Updated (e : Env) (c : Call Instruction) (b b' : Bank) (k gk : Pubkey) (v : Vault)
    (g : GlobalState) (x : Vault×GlobalState) : Prop where
  vaultKey : c.key? 1=some k
  globalKey : c.key? 2=some gk
  live : v.isInitialized=true
  effect : Effect c.clock.unixTimestamp v g c.instruction x
  written : Written e b b' k gk v g x

inductive Accepted (e : Env) (c : Call Instruction) (b b' : Bank) : Prop
  | initialized {authority scusdMint prismMint collateralPool : Pubkey}
      (hc : c.instruction=.initializeSystem)
      (i : Initialized e c b b' authority scusdMint prismMint collateralPool)
  | opened {owner : Pubkey} (hc : c.instruction=.openVault) (o : Opened e c b b' owner)
  | updated {k gk : Pubkey} {v : Vault} {g : GlobalState} {x : Vault×GlobalState}
      (u : Updated e c b b' k gk v g x)

section Parts

variable {e : Env} {iv : Invocation} {op : TokenOp} {seeds : List (List Byte)}
  {tokenProgram first second authority : Pubkey} {amount : U64} {b b1 : Bank} {f : Frame}
  {x : Vault×GlobalState} {accounts : List AccountInfo}

theorem TokenStep.trans (h1 : TokenStep e b b1) (h2 : TokenStep e b1 b2) : TokenStep e b b2 := by
  intro k
  obtain ⟨howner1,hdata1⟩ := h1 k
  obtain ⟨howner2,hdata2⟩ := h2 k
  refine ⟨howner2.trans howner1,?_⟩
  obtain hsame | htoken := hdata1
  · rw [hsame,howner1] at hdata2
    exact hdata2
  · exact .inr htoken

theorem TokenStep.vault (h : TokenStep e b b1) (hv : (b k).data=vaultCodec.encode v) :
    (b1 k).data=vaultCodec.encode v := by
  obtain ⟨-,hsame | ⟨-,_⟩⟩ := h k
  · exact hsame.trans hv
  · have hvlen := vault_size v
    rw [← hv] at hvlen
    have hvault : vaultLen=66 := by decide
    omega

theorem TokenStep.global (h : TokenStep e b b1) (hg : (b k).data=globalCodec.encode g) :
    (b1 k).data=globalCodec.encode g := by
  obtain ⟨-,hsame | ⟨-,_⟩⟩ := h k
  · exact hsame.trans hg
  · have hglen := global_size g
    rw [← hg] at hglen
    have hglobal : globalLen=170 := by decide
    omega

theorem invokeToken_spec
    (h : invokeToken e iv op seeds tokenProgram first second authority amount ⟨b,b⟩=.ok f) :
    ∃ b1,f=⟨b1,b1⟩ ∧ TokenStep e b b1 := by
  simp only [invokeToken,steps_ok] at h
  obtain ⟨-,-,hinvoke⟩ := h
  obtain ⟨b1,hcall,rfl⟩ := invoke_clean hinvoke fun hc k hk => by
    simp only [steps_ok] at hc
    obtain ⟨-,-,hc⟩ := hc
    exact (e.confined hc k).2.2 hk
  simp only [steps_ok] at hcall
  obtain ⟨-,-,hcall⟩ := hcall
  exact ⟨b1,rfl,fun k => ⟨(e.confined hcall k).1,(e.confined hcall k).2.1⟩⟩

theorem invokeToken_ok (hprogram : tokenProgram=e.tokenProgram)
    (hwritable : iv.writable first=true ∧ iv.writable second=true)
    (hcall : e.tokenCall seeds (op.index::leBytes 8 amount.toNat)
    [first,second,authority] b=.ok b1) :
    invokeToken e iv op seeds tokenProgram first second authority amount ⟨b,b⟩=.ok ⟨b1,b1⟩ := by
  have hsync : iv.sync [first,second,authority] ⟨b,b⟩=.ok () :=
    sync_eq_ok.mpr ⟨fun k _ => checkAccount_eq_ok.mpr (by simp),rfl⟩
  have hsame : (fun k => if k∈[first,second,authority] then b1 k else b k)=b1 := by
    funext k
    by_cases hk : k∈[first,second,authority]
    · rw [if_pos hk]
    · rw [if_neg hk,(e.confined hcall k).2.2 hk]
  simp only [invokeToken,require_pos hprogram,ok_bind]
  refine invoke_eq_ok.mpr ⟨hsync,b1,?_,by rw [hsame]⟩
  simp only [require_pos hwritable,ok_bind]
  exact hcall

theorem loadVault_eq_ok : loadVault f k=.ok v ↔ (f.view k).data=vaultCodec.encode v := by
  simp only [loadVault,okOr_eq_ok,Codec.tryFromSlice_eq_some]

theorem loadGlobal_eq_ok : loadGlobal f k=.ok g ↔ (f.view k).data=globalCodec.encode g := by
  simp only [loadGlobal,okOr_eq_ok,Codec.tryFromSlice_eq_some]

theorem loadOwnVault_eq_ok : loadOwnVault f k owner=.ok v ↔
    (f.view k).data=vaultCodec.encode v ∧ v.isInitialized=true ∧ v.owner=owner := by
  simp only [loadOwnVault,steps_ok,loadVault_eq_ok]
  constructor
  · rintro ⟨_,hv,_,hlive,rfl⟩
    exact ⟨hv,hlive⟩
  · rintro ⟨hv,hlive⟩
    exact ⟨v,hv,(),hlive,rfl⟩

theorem vault_ne_global (hv : (b k).data=vaultCodec.encode v)
    (hg : (b gk).data=globalCodec.encode g) : gk≠k := by
  rintro rfl
  exact global_ne_vault g v (hg.symm.trans hv)

theorem storeBoth_eq_ok (hv : (b k).data=vaultCodec.encode v)
    (hg : (b gk).data=globalCodec.encode g) : storeBoth x k gk ⟨b,b⟩=.ok f ↔
      f=⟨b,(b.setData k (vaultCodec.encode x.1)).setData gk (globalCodec.encode x.2)⟩ := by
  have hne := vault_ne_global hv hg
  have hvlen : (b k).data.length=vaultLen := by rw [hv]; exact vault_size v
  have hglen : ((b.setData k (vaultCodec.encode x.1)) gk).data.length=globalLen := by
    rw [b.setData_other _ hne,hg]
    exact global_size g
  simp only [storeBoth,bind_eq_ok]
  constructor
  · rintro ⟨_,hf1,hf⟩
    obtain rfl := (store_eq_ok vault_size hvlen).mp hf1
    exact (store_eq_ok global_size hglen).mp hf
  · rintro rfl
    exact ⟨_,(store_eq_ok vault_size hvlen).mpr rfl,(store_eq_ok global_size hglen).mpr rfl⟩

theorem written_spec (hv : (b k).data=vaultCodec.encode v) (hg : (b gk).data=globalCodec.encode g)
    (ht : TokenStep e b b1) (hstore : storeBoth x k gk ⟨b1,b1⟩=.ok f)
    (hsync : Synced e.programId accounts f)
    (hk : k∈accounts.map AccountInfo.key) (hgk : gk∈accounts.map AccountInfo.key) :
    Written e b f.view k gk v g x := by
  have hv1 := ht.vault hv
  have hg1 := ht.global hg
  have hne := vault_ne_global hv hg
  obtain rfl := (storeBoth_eq_ok hv1 hg1).mp hstore
  have hvault' : ((b1.setData k (vaultCodec.encode x.1)).setData gk
      (globalCodec.encode x.2) k).data=vaultCodec.encode x.1 := by
    rw [setData_other _ _ (Ne.symm hne),setData_same]
  have hglobal' : ((b1.setData k (vaultCodec.encode x.1)).setData gk
      (globalCodec.encode x.2) gk).data=globalCodec.encode x.2 := setData_same _ _ _
  refine ⟨hv,hg,hvault',hglobal',?_,?_,fun j => ?_,fun j hjk hjg howned => ?_⟩
  · rw [← (ht k).1]
    exact record_owned hsync hk (SameState.refl b1) hv1 hvault'
  · rw [← (ht gk).1]
    exact record_owned hsync hgk (SameState.refl b1) hg1 hglobal'
  · rw [setData_owner,setData_owner]
    exact (ht j).1
  · rw [setData_other _ _ hjg,setData_other _ _ hjk]
    obtain ⟨-,hsame | ⟨htoken,-⟩⟩ := ht j
    · exact hsame
    · exact absurd (htoken.symm.trans howned) e.foreign

theorem commit_ok (accounts : List AccountInfo) (x : Vault×GlobalState)
    (hv : (b k).data=vaultCodec.encode v) (hg : (b gk).data=globalCodec.encode g)
    (ht : TokenStep e b b1)
    (hvowned : (b k).owner=e.programId) (hgowned : (b gk).owner=e.programId)
    (hvw : writable ⟨e.programId,accounts⟩ k=true) (hgw : writable ⟨e.programId,accounts⟩ gk=true) :
    ∃ f,storeBoth x k gk ⟨b1,b1⟩=.ok f ∧ Synced e.programId accounts f := by
  refine ⟨_,(storeBoth_eq_ok (ht.vault hv) (ht.global hg)).mpr rfl,?_⟩
  refine sync_eq_ok.mpr ⟨fun j _ => ?_,by simp [lamportsIn]⟩
  rw [checkAccount_eq_ok]
  have hsame (hjk : j≠k) (hjg : j≠gk) : (((b1.setData k (vaultCodec.encode x.1)).setData gk
      (globalCodec.encode x.2)) j).data=(b1 j).data := by
    rw [setData_other _ _ hjg,setData_other _ _ hjk]
  refine ⟨.inr (by simp),.inl (by simp),?_,?_⟩
  · by_cases hjk : j=k
    · exact .inr (by rw [hjk]; exact hvw)
    · by_cases hjg : j=gk
      · exact .inr (by rw [hjg]; exact hgw)
      · exact .inl (hsame hjk hjg).symm
  · by_cases hjk : j=k
    · exact .inr (by rw [hjk]; exact (ht k).1.trans hvowned)
    · by_cases hjg : j=gk
      · exact .inr (by rw [hjg]; exact (ht gk).1.trans hgowned)
      · exact .inl (hsame hjk hjg).symm

theorem writable_of_mem (ha : a∈accounts) (hw : a.isWritable=true) :
    writable ⟨e.programId,accounts⟩ a.key=true := by
  refine List.any_eq_true.mpr ⟨a,ha,?_⟩
  simp [hw]

end Parts

section Handlers

variable {e : Env} {clock : Clock} {accounts : List AccountInfo} {f : Frame}

theorem initialize_spec (clock : Clock) (hp : processInitialize e accounts ⟨b,b⟩=.ok f) :
    ∃ authority scusdMint prismMint collateralPool,
      Initialized e ⟨clock,accounts,.initializeSystem⟩ b f.view authority scusdMint prismMint
        collateralPool := by
  unfold processInitialize at hp
  split at hp <;> simp only [steps_ok] at hp
  obtain ⟨-,-,-,hkey,_,hcreate,hstore⟩ := hp
  rw [hkey] at hcreate hstore
  obtain ⟨_,-,-,⟨hfresh,-⟩,howner,hglobal,hothers⟩ := created_record global_size hcreate hstore
  exact ⟨_,_,_,_,congrArg some hkey,hfresh,hglobal,howner,hothers⟩

theorem open_spec (hp : processOpenVault e clock accounts ⟨b,b⟩=.ok f) :
    ∃ owner,Opened e ⟨clock,accounts,.openVault⟩ b f.view owner := by
  unfold processOpenVault at hp
  split at hp <;> simp only [steps_ok] at hp
  obtain ⟨-,-,_,-,-,-,-,hkey,_,hcreate,hstore⟩ := hp
  rw [hkey] at hcreate hstore
  obtain ⟨_,-,-,⟨hfresh,-⟩,howner,hvault,hothers⟩ := created_record vault_size hcreate hstore
  exact ⟨_,congrArg some hkey,hfresh,hvault,howner,hothers⟩

variable (hsync : Synced e.programId accounts f)
include hsync

theorem deposit_spec (hp : processDepositCollateral e clock accounts amount ⟨b,b⟩=.ok f) :
    Accepted e ⟨clock,accounts,.depositCollateral amount⟩ b f.view := by
  unfold processDepositCollateral at hp
  split at hp <;> simp only [steps_ok,loadOwnVault_eq_ok,loadGlobal_eq_ok] at hp
  rename_i owner vault globalState _ _ _ _ _
  obtain ⟨-,-,v,⟨hv,hlive,-⟩,g,hg,_,htoken,x,hx,hstore⟩ := hp
  obtain ⟨_,rfl,ht⟩ := invokeToken_spec htoken
  exact .updated
    ⟨rfl,rfl,hlive,.deposited hx,written_spec hv hg ht hstore hsync (by simp) (by simp)⟩

theorem mint_spec (hp : processMintScusd e clock accounts amount ⟨b,b⟩=.ok f) :
    Accepted e ⟨clock,accounts,.mintScusd amount⟩ b f.view := by
  unfold processMintScusd at hp
  split at hp <;> simp only [steps_ok,loadOwnVault_eq_ok,loadGlobal_eq_ok] at hp
  rename_i owner vault globalState _ _ _ _ _ _
  obtain ⟨-,-,v,⟨hv,hlive,-⟩,g,hg,_,-,_,hdebt,-,-,_,htoken,x,hx,hstore⟩ := hp
  obtain ⟨_,rfl,ht⟩ := invokeToken_spec htoken
  exact .updated
    ⟨rfl,rfl,hlive,.minted hdebt hx,written_spec hv hg ht hstore hsync (by simp) (by simp)⟩

theorem repay_spec (hp : processRepayScusd e clock accounts amount ⟨b,b⟩=.ok f) :
    Accepted e ⟨clock,accounts,.repayScusd amount⟩ b f.view := by
  unfold processRepayScusd at hp
  split at hp <;> simp only [steps_ok,loadOwnVault_eq_ok,loadGlobal_eq_ok] at hp
  rename_i owner vault globalState _ _ _ _ _
  obtain ⟨-,-,v,⟨hv,hlive,-⟩,g,hg,_,htoken,x,hx,hstore⟩ := hp
  obtain ⟨_,rfl,ht⟩ := invokeToken_spec htoken
  exact .updated ⟨rfl,rfl,hlive,.repaid hx,written_spec hv hg ht hstore hsync (by simp) (by simp)⟩

theorem withdraw_spec (hp : processWithdrawCollateral e clock accounts amount ⟨b,b⟩=.ok f) :
    Accepted e ⟨clock,accounts,.withdrawCollateral amount⟩ b f.view := by
  unfold processWithdrawCollateral at hp
  split at hp <;> simp only [steps_ok,loadOwnVault_eq_ok,loadGlobal_eq_ok] at hp
  rename_i owner vault globalState _ _ _ _ _ _
  obtain ⟨-,-,v,⟨hv,hlive,-⟩,g,hg,-,-,_,hnc,_,hv1,_,htoken,x,hx,hstore⟩ := hp
  obtain ⟨_,rfl,ht⟩ := invokeToken_spec htoken
  exact .updated ⟨rfl,rfl,hlive,.withdrawn hnc hv1 hx,
    written_spec hv hg ht hstore hsync (by simp) (by simp)⟩

theorem liquidate_spec (hp : processLiquidateVault e clock accounts ⟨b,b⟩=.ok f) :
    Accepted e ⟨clock,accounts,.liquidateVault⟩ b f.view := by
  unfold processLiquidateVault at hp
  split at hp <;> simp only [steps_ok,loadVault_eq_ok,loadGlobal_eq_ok] at hp
  rename_i liquidator vault globalState _ _ _ _ _ _ _ _
  obtain ⟨-,-,v,hv,-,hlive,g,hg,_,-,-,-,_,hseized,_,hburn,_,htransfer,x,hx,hstore⟩ := hp
  obtain ⟨_,rfl,ht1⟩ := invokeToken_spec hburn
  obtain ⟨_,rfl,ht2⟩ := invokeToken_spec htransfer
  exact .updated ⟨rfl,rfl,hlive,.liquidated hseized hx,
    written_spec hv hg (ht1.trans ht2) hstore hsync (by simp) (by simp)⟩

end Handlers

theorem execute_spec {e : Env} (he : (program e).execute c b=.ok b') : Accepted e c b b' := by
  obtain ⟨f,hp,hsync,rfl⟩ := Program.execute_eq_ok.mp he
  obtain ⟨clock,_,i⟩ := c
  cases i with
  | initializeSystem =>
    obtain ⟨_,_,_,_,hi⟩ := initialize_spec clock hp
    exact .initialized rfl hi
  | openVault =>
    obtain ⟨_,ho⟩ := open_spec hp
    exact .opened rfl ho
  | depositCollateral amount => exact deposit_spec hsync hp
  | mintScusd amount => exact mint_spec hsync hp
  | repayScusd amount => exact repay_spec hsync hp
  | withdrawCollateral amount => exact withdraw_spec hsync hp
  | liquidateVault => exact liquidate_spec hsync hp

end PrismChain.Scusd
