import PrismChain.Framework.Records
import PrismChain.Programs.Pusd.Processor

namespace PrismChain.Pusd

open FixedWidth List Invocation Bank PrismChain.Frame

/-- What an accepted instruction on an open vault does at time `now` to the vault and to the
totals, given the data of its oracle account and the balance of its pool. The last index is
what leaves the pool. -/
inductive Effect (now : I64) (oracle : List Byte) (pool : U64) :
    Instruction → Vault → PusdConfig → Vault → PusdConfig → U64 → Prop
  | deposit {v : Vault} {g : PusdConfig} {amount collateral locked : U64} (hpos : amount≠0#64)
      (hcollateral : checkedAdd v.collateral amount=some collateral)
      (hlocked : checkedAdd g.totalCollateralLocked amount=some locked) :
      Effect now oracle pool (.depositCollateral amount) v g {v with collateral := collateral}
        {g with totalCollateralLocked := locked} 0#64
  | mint {v : Vault} {g : PusdConfig} {amount debt price ratio supply : U64} (hpos : amount≠0#64)
      (hdebt : checkedAdd (v.accrueFee now).debt amount=some debt)
      (hprice : readOraclePrice oracle=.ok price)
      (hratio : {v.accrueFee now with debt := debt}.collateralRatioBps price=.ok ratio)
      (hmin : minCollateralRatioBps.toNat≤ ratio.toNat) (hdust : minDebt.toNat≤debt.toNat)
      (hsupply : checkedAdd g.totalPusdSupply amount=some supply) :
      Effect now oracle pool (.mintPusd amount) v g {v.accrueFee now with debt := debt}
        {g with totalPusdSupply := supply} 0#64
  | burn {v w : Vault} {g : PusdConfig} {amount : U64} (hpos : amount≠0#64)
      (hle : amount.toNat≤(v.accrueFee now).totalDebt.toNat)
      (hpay : (v.accrueFee now).pay checkedSub amount=.ok w)
      (hdust : w.debt=0#64 ∨ minDebt.toNat≤w.debt.toNat) :
      Effect now oracle pool (.burnPusd amount) v g w {g with
          totalPusdSupply := saturatingSub g.totalPusdSupply amount
          totalFeesCollected := saturatingAdd g.totalFeesCollected
            (umin amount (saturatingAdd w.accruedFee amount))} 0#64
  | withdraw {v : Vault} {g : PusdConfig} {amount collateral : U64} (hpos : amount≠0#64)
      (hle : amount.toNat≤v.collateral.toNat)
      (hcheck : checkWithdrawal (v.accrueFee now) amount oracle=.ok ())
      (hpool : amount.toNat≤pool.toNat)
      (hcollateral : checkedSub (v.accrueFee now).collateral amount=some collateral) :
      Effect now oracle pool (.withdrawCollateral amount) v g
        {v.accrueFee now with collateral := collateral}
        {g with totalCollateralLocked := saturatingSub g.totalCollateralLocked amount} amount
  | liquidate {v : Vault} {g : PusdConfig} {price ratio seize : U64}
      (hprice : readOraclePrice oracle=.ok price)
      (hratio : (v.accrueFee now).collateralRatioBps price=.ok ratio)
      (hlow : ratio.toNat<liquidationThresholdBps.toNat)
      (hseize : totalSeize (v.accrueFee now) price=.ok seize) :
      Effect now oracle pool .liquidate v g {v.accrueFee now with
          debt := 0#64
          accruedFee := 0#64
          collateral := saturatingSub (v.accrueFee now).collateral (umin seize pool)}
        {g with
          totalPusdSupply := saturatingSub g.totalPusdSupply (v.accrueFee now).totalDebt
          totalCollateralLocked := saturatingSub g.totalCollateralLocked (umin seize pool)}
        (umin seize pool)
  | redeem {v w : Vault} {g : PusdConfig} {amount price prism : U64} (hpos : amount≠0#64)
      (hle : amount.toNat≤(v.accrueFee now).totalDebt.toNat)
      (hprice : readOraclePrice oracle=.ok price) (hprism : usdToPrism amount price=.ok prism)
      (hcollateral : prism.toNat≤(v.accrueFee now).collateral.toNat)
      (hpool : prism.toNat≤pool.toNat)
      (hpay : (v.accrueFee now).pay (fun debt remaining => some (saturatingSub debt remaining))
        amount=.ok w) :
      Effect now oracle pool (.redeem amount) v g
        {w with collateral := saturatingSub w.collateral prism}
        {g with
          totalPusdSupply := saturatingSub g.totalPusdSupply amount
          totalCollateralLocked := saturatingSub g.totalCollateralLocked prism} prism

section Parts

variable {f : Frame} {k vk ck : Pubkey} {v' : Vault} {g g' : PusdConfig}

theorem loadVault_eq_ok : loadVault h f k=.ok v ↔
    (f.view k).owner=h.programId ∧ (f.view k).data=vaultCodec.encode v ∧ v.isInitialized=true := by
  simp only [loadVault,steps_ok,Codec.tryFromSlice_eq_some]
  constructor
  · rintro ⟨_,howner,w,hdata,_,hinit,hw⟩
    subst hw
    exact ⟨howner,hdata,hinit⟩
  · rintro ⟨howner,hdata,hinit⟩
    exact ⟨(),howner,v,hdata,(),hinit,rfl⟩

theorem loadConfig_eq_ok : loadConfig f k=.ok g ↔ (f.view k).data=configCodec.encode g := by
  rw [loadConfig,okOr_eq_ok,Codec.tryFromSlice_eq_some]

theorem payOut_spec (hp : payOut pool payee amount f=.ok f1) :
    f1.synced=f.synced ∧ SameState f.view f1.view ∧
      Moved f.view f1.view pool payee amount.toNat := by
  simp only [payOut,steps_ok] at hp
  obtain ⟨left,hleft,_,hcredit,rfl⟩ := hp
  have hsum := checkedSub_eq_some.mp hleft
  have hle : amount.toNat≤(f.view pool).lamports.toNat := by omega
  have heq : left=(f.view pool).lamports-amount := by
    apply BitVec.eq_of_toNat_eq
    rw [BitVec.toNat_sub_of_le (BitVec.le_def.mpr hle)]
    omega
  subst heq
  exact ⟨rfl,fun k => by simp,moved_of_debit_credit hle hcredit⟩

structure Saved (b b' : Bank) (vk ck : Pubkey) (v' : Vault) (g g' : PusdConfig) : Prop where
  config : (b ck).data=configCodec.encode g
  vault' : (b' vk).data=vaultCodec.encode v'
  config' : (b' ck).data=configCodec.encode g'
  lamports : ∀ k,(b' k).lamports=(b k).lamports
  owners : ∀ k,(b' k).owner=(b k).owner
  others : ∀ k,k≠vk → k≠ck → (b' k).data=(b k).data

theorem keys_ne {b : Bank} (hv : (b vk).data=vaultCodec.encode v)
    (hg : (b ck).data=configCodec.encode g) : vk≠ck := by
  intro he
  rw [he,hg] at hv
  exact config_ne_vault g v hv

theorem saved_vault_config (hv : (f.view vk).data.length=vaultSpace)
    (h1 : f.store vaultCodec v' vk=.ok f1)
    (hload : loadConfig f1 ck=.ok g) (h2 : f1.store configCodec g' ck=.ok f2) :
    f2.synced=f.synced ∧ Saved f.view f2.view vk ck v' g g' := by
  rw [store_eq_ok vault_size hv] at h1
  subst h1
  rw [loadConfig_eq_ok] at hload
  have hne : vk≠ck := keys_ne (f.view.setData_same vk (vaultCodec.encode v')) hload
  have hconfig : (f.view ck).data=configCodec.encode g := by
    rw [← hload]
    exact (f.view.setData_other _ hne.symm).symm
  rw [store_eq_ok config_size (by rw [hload]; exact config_size g)] at h2
  subst h2
  refine ⟨rfl,hconfig,?_,?_,fun k => by simp,fun k => by simp,?_⟩
  · simp [setData_data,hne]
  · simp
  · intro k hk hc
    simp [setData_data,hk,hc]

theorem saved_config_vault (hv : (f.view vk).data=vaultCodec.encode v)
    (hload : loadConfig f ck=.ok g)
    (h1 : f.store configCodec g' ck=.ok f1) (h2 : f1.store vaultCodec v' vk=.ok f2) :
    f2.synced=f.synced ∧ Saved f.view f2.view vk ck v' g g' := by
  rw [loadConfig_eq_ok] at hload
  have hne : vk≠ck := keys_ne hv hload
  rw [store_eq_ok config_size (by rw [hload]; exact config_size g)] at h1
  subst h1
  have hvault : ((f.view.setData ck (configCodec.encode g')) vk).data.length=vaultSpace := by
    rw [f.view.setData_other _ hne,hv]
    exact vault_size v
  rw [store_eq_ok vault_size hvault] at h2
  subst h2
  refine ⟨rfl,hload,by simp,?_,fun k => by simp,fun k => by simp,?_⟩
  · simp [setData_data,hne.symm]
  · intro k hk hc
    simp [setData_data,hk,hc]

end Parts

def accountAt (b : Bank) (k : Option Pubkey) : Account := k.elim ⟨0#64,[],systemProgram⟩ b

inductive Flow (b b' : Bank) : Instruction → Option Pubkey → U64 → Prop
  | paidIn {amount : U64} {src pool : Pubkey} (hsrc : (b src).owner=systemProgram)
      (hmoved : Moved b b' src pool amount.toNat) :
      Flow b b' (.depositCollateral amount) (some pool) 0#64
  | still {i : Instruction} (hi : i.paidIn=0#64) (hsame : ∀ k,(b' k).lamports=(b k).lamports) :
      Flow b b' i none 0#64
  | paidOut {i : Instruction} {pool payee : Pubkey} {out : U64} (hi : i.paidIn=0#64)
      (hmoved : Moved b b' pool payee out.toNat) : Flow b b' i (some pool) out

theorem Flow.congr (hflow : Flow b b1 i pool out) (hsame : ∀ k,(b' k).lamports=(b1 k).lamports) :
    Flow b b' i pool out := by
  cases hflow with
  | paidIn hsrc hmoved => exact .paidIn hsrc fun k => by rw [hsame k]; exact hmoved k
  | still hi hstill => exact .still hi fun k => by rw [hsame k,hstill k]
  | paidOut hi hmoved => exact .paidOut hi fun k => by rw [hsame k]; exact hmoved k

structure Updated (h : Host) (c : Call Instruction) (b b' : Bank) (vk ck : Pubkey)
    (v v' : Vault) (g g' : PusdConfig) (out : U64) : Prop where
  vaultKey : c.instruction.vaultIndex.bind c.key?=some vk
  configKey : c.key? c.instruction.configIndex=some ck
  signer : ∃ a∈c.accounts.head?,a.isSigner=true ∧ (c.instruction.ownerOnly=true → v.owner=a.key)
  vaultOwned : (b vk).owner=h.programId
  vault : (b vk).data=vaultCodec.encode v
  isOpen : v.isInitialized=true
  config : (b ck).data=configCodec.encode g
  configOwned : (b ck).owner=h.programId ∨ g'=g
  vault' : (b' vk).data=vaultCodec.encode v'
  config' : (b' ck).data=configCodec.encode g'
  owners : ∀ k,(b' k).owner=(b k).owner
  others : ∀ k,k≠vk → k≠ck → (b' k).data=(b k).data
  effect : Effect c.clock.unixTimestamp (accountAt b (c.instruction.oracleIndex.bind c.key?)).data
    (accountAt b (c.instruction.poolIndex.bind c.key?)).lamports c.instruction v g v' g' out
  flow : Flow b b' c.instruction (c.instruction.poolIndex.bind c.key?) out

def configPda (h : Host) : Pubkey := (h.findProgramAddress [configSeed] h.programId).1

def collateralPda (h : Host) (vk : Pubkey) : Pubkey :=
  (h.findProgramAddress [collateralSeed,vk.bytes] h.programId).1

structure Initialized (h : Host) (c : Call Instruction) (b b' : Bank) (g : PusdConfig) : Prop where
  instruction : ∃ oracleFeed pusdMint,c.instruction=.initializeSystem oracleFeed pusdMint
  configKey : c.key? c.instruction.configIndex=some (configPda h)
  fresh : (b (configPda h)).data=[] ∧ (b (configPda h)).owner=systemProgram
  owned' : (b' (configPda h)).owner=h.programId
  config' : (b' (configPda h)).data=configCodec.encode g
  active : g.isInitialized=true
  empty : g.totalPusdSupply=0#64 ∧ g.totalCollateralLocked=0#64 ∧ g.totalVaults=0#64 ∧
    g.totalFeesCollected=0#64
  others : ∀ k,k≠configPda h → (b' k).data=(b k).data ∧ (b' k).owner=(b k).owner
  debit : ∀ k,(b k).owner≠systemProgram → (b k).lamports.toNat≤(b' k).lamports.toNat

structure Opened (h : Host) (c : Call Instruction) (b b' : Bank) (vk ck : Pubkey) (amount : U64)
    (v : Vault) (g g' : PusdConfig) : Prop where
  instruction : ∃ nonce,c.instruction=.openVault amount nonce
  positive : amount≠0#64
  vaultKey : c.instruction.vaultIndex.bind c.key?=some vk
  configKey : c.key? c.instruction.configIndex=some ck
  configOwned : (b ck).owner=h.programId
  config : (b ck).data=configCodec.encode g
  active : g.isInitialized=true ∧ g'.isInitialized=true
  vaultFresh : (b vk).data=[] ∧ (b vk).owner=systemProgram
  poolFresh : (b (collateralPda h vk)).data=[] ∧ (b (collateralPda h vk)).owner=systemProgram
  vault' : (b' vk).data=vaultCodec.encode v
  vaultOwned' : (b' vk).owner=h.programId
  values : v.isInitialized=true ∧ v.collateral=amount ∧ v.debt=0#64 ∧ v.accruedFee=0#64 ∧
    v.lastFeeUpdate=c.clock.unixTimestamp
  poolOwned' : (b' (collateralPda h vk)).owner=h.programId
  poolData' : (b' (collateralPda h vk)).data=[]
  deposit : amount.toNat≤(b' (collateralPda h vk)).lamports.toNat
  config' : (b' ck).data=configCodec.encode g'
  locked : g'.totalCollateralLocked.toNat=g.totalCollateralLocked.toNat+amount.toNat
  totals : g'.totalPusdSupply=g.totalPusdSupply ∧ g'.totalFeesCollected=g.totalFeesCollected
  owners : ∀ k,k≠vk → k≠collateralPda h vk → (b' k).owner=(b k).owner
  others : ∀ k,k≠vk → k≠collateralPda h vk → k≠ck → (b' k).data=(b k).data
  debit : ∀ k,(b k).owner≠systemProgram → (b k).lamports.toNat≤(b' k).lamports.toNat

inductive Accepted (h : Host) (c : Call Instruction) (b b' : Bank) : Prop
  | initialized {g : PusdConfig} (hi : Initialized h c b b' g)
  | opened {vk ck : Pubkey} {amount : U64} {v : Vault} {g g' : PusdConfig}
      (ho : Opened h c b b' vk ck amount v g g')
  | updated {vk ck : Pubkey} {v v' : Vault} {g g' : PusdConfig} {out : U64}
      (hu : Updated h c b b' vk ck v v' g g' out)

section Handlers

variable {h : Host} {accounts : List AccountInfo} {f : Frame}

theorem Saved.updated {c : Call Instruction} {b1 : Bank} {f0 : Frame} {vk ck : Pubkey}
    {v v' : Vault}
    {g g' : PusdConfig} {out : U64} (hsaved : f.synced=f0.synced ∧ Saved b1 f.view vk ck v' g g')
    (hsync : Synced h.programId c.accounts f)
    (hvk : c.instruction.vaultIndex.bind c.key?=some vk)
    (hck : c.key? c.instruction.configIndex=some ck)
    (hsigner : ∃ a∈c.accounts.head?,a.isSigner=true ∧
    (c.instruction.ownerOnly=true → v.owner=a.key))
    (hload : loadVault h ⟨b,b⟩ vk=.ok v) (hsame : SameState b b1) (hsynced : SameState b f0.synced)
    (heffect : Effect c.clock.unixTimestamp
    (accountAt b (c.instruction.oracleIndex.bind c.key?)).data
      (accountAt b (c.instruction.poolIndex.bind c.key?)).lamports c.instruction v g v' g' out)
    (hflow : Flow b b1 c.instruction (c.instruction.poolIndex.bind c.key?) out) :
    Accepted h c b f.view := by
  obtain ⟨heq,hsaved⟩ := hsaved
  obtain ⟨howned,hvault,hopen⟩ := loadVault_eq_ok.mp hload
  have hg : (b ck).data=configCodec.encode g := by
    rw [← (hsame ck).1]
    exact hsaved.config
  have hconfig :=
    record_owned hsync (Call.key_mem hck) (by rw [heq]; exact hsynced) hg hsaved.config'
  have howners (k : Pubkey) : (f.view k).owner=(b k).owner := by
    rw [hsaved.owners k,(hsame k).2]
  have hothers (k : Pubkey) (hk : k≠vk) (hc : k≠ck) : (f.view k).data=(b k).data := by
    rw [hsaved.others k hk hc,(hsame k).1]
  exact .updated ⟨hvk,hck,hsigner,howned,hvault,hopen,hg,hconfig,hsaved.vault',hsaved.config',
    howners,hothers,heffect,hflow.congr hsaved.lamports⟩

theorem vault_length (hload : loadVault h ⟨b,b⟩ vk=.ok v) (hsame : SameState b b1) :
    (b1 vk).data.length=vaultSpace := by
  rw [(hsame vk).1,(loadVault_eq_ok.mp hload).2.1]
  exact vault_size v

theorem initialize_spec (hp : processInitialize h accounts oracleFeed pusdMint ⟨b,b⟩=.ok f) :
    ∃ g,Initialized h ⟨clock,accounts,.initializeSystem oracleFeed pusdMint⟩ b f.view g := by
  unfold processInitialize at hp
  split at hp <;> simp only [steps_ok] at hp
  rename_i config _ _ _ _
  obtain ⟨_,_,_,hpda,_,hinvoke,hstore⟩ := hp
  change configPda h=config.key at hpda
  rw [← hpda] at hinvoke hstore
  obtain ⟨_,hcreate,rfl,hfresh,howner,hconfig,hothers⟩ := created_record config_size hinvoke hstore
  refine ⟨_,⟨_,_,rfl⟩,congrArg some hpda.symm,hfresh,howner,hconfig,rfl,⟨rfl,rfl,rfl,rfl⟩,hothers,
    ?_⟩
  intro k hk
  simpa using create_debit hcreate hk

theorem open_spec (hp : processOpenVault h clock accounts amount nonce ⟨b,b⟩=.ok f) :
    ∃ vk ck v g g',
      Opened h ⟨clock,accounts,.openVault amount nonce⟩ b f.view vk ck amount v g g' := by
  unfold processOpenVault at hp
  split at hp <;> simp only [steps_ok] at hp
  rename_i owner config vault pool _ _
  obtain ⟨_,_,_,hpos,_,hcowner,g,hload,_,hactive,_,_,_,hpool,_,hinvoke1,_,hinvoke2,_,hstore,locked,
    hlocked,vaults,_,hfinal⟩ := hp
  change collateralPda h vault.key=pool.key at hpool
  have hg : (b config.key).data=configCodec.encode g := loadConfig_eq_ok.mp hload
  have hglen : (b config.key).data.length=configSpace := by rw [hg]; exact config_size g
  obtain ⟨_,hcreate1,rfl⟩ := invoke_create hinvoke1
  obtain ⟨b2,hcreate2,rfl⟩ := invoke_create hinvoke2
  obtain ⟨-,hvdata,hvowner,-,-,-,hvdata',hvowner',hvother,-,-⟩ :=
    createAccount_spec hcreate1
  obtain ⟨hpzero,hpdata,hpowner,-,-,hple,hpdata',hpowner',hpother,hpmoved,-⟩ :=
    createAccount_spec hcreate2
  -- the three accounts differ: one is full, one has just been filled, one is still empty
  have hcv : config.key≠vault.key := by
    intro he
    rw [he,hvdata] at hglen
    cases hglen
  have hpv : pool.key≠vault.key := by
    intro he
    rw [he,hvdata'] at hpdata
    cases congrArg length hpdata
  have hcp : config.key≠pool.key := by
    intro he
    rw [← he,(hvother config.key hcv).1] at hpdata
    rw [hpdata] at hglen
    cases hglen
  have hvlen : (b2 vault.key).data.length=vaultSpace := by
    rw [(hpother vault.key hpv.symm).1,hvdata']
    exact length_replicate
  rw [store_eq_ok vault_size hvlen] at hstore
  subst hstore
  have hclen : ((b2.setData vault.key (vaultCodec.encode
      (newVault h clock owner.key amount nonce))) config.key).data.length=configSpace := by
    rw [setData_other _ _ hcv,(hpother config.key hcp).1,(hvother config.key hcv).1]
    exact hglen
  rw [store_eq_ok config_size hclen] at hfinal
  subst hfinal
  have hpaid : amount.toNat≤(b2 pool.key).lamports.toNat := by
    have hm := hpmoved pool.key
    by_cases hpayer : pool.key=owner.key
    · rw [← hpayer,hpzero] at hple
      exact absurd (BitVec.eq_of_toNat_eq (Nat.le_zero.mp hple)) hpos
    · rw [if_neg hpayer,if_pos rfl] at hm
      omega
  refine ⟨vault.key,config.key,newVault h clock owner.key amount nonce,g,
    {g with totalCollateralLocked := locked, totalVaults := vaults},⟨_,rfl⟩,hpos,rfl,rfl,hcowner,hg,
    ⟨hactive.1,hactive.1⟩,⟨hvdata,hvowner⟩,?_,?_,?_,
    ⟨rfl,rfl,rfl,rfl,rfl⟩,?_,?_,?_,?_,checkedAdd_eq_some.mp hlocked,⟨rfl,rfl⟩,?_,?_,?_⟩
  · rw [hpool,← (hvother pool.key hpv).1,← (hvother pool.key hpv).2]
    exact ⟨hpdata,hpowner⟩
  · simp [setData_data,hcv.symm]
  · simp [(hpother vault.key hpv.symm).2,hvowner']
  · rw [hpool]; simpa using hpowner'
  · rw [hpool]
    simp only [setData_data,hpv,hcp.symm,if_false]
    exact hpdata'
  · rw [hpool]; simpa using hpaid
  · simp
  · intro k hk hkp
    rw [hpool] at hkp
    simp [(hpother k hkp).2,(hvother k hk).2]
  · intro k hk hkp hkc
    rw [hpool] at hkp
    simp [setData_data,hk,hkc,(hpother k hkp).1,(hvother k hk).1]
  · intro k hk
    have hkv : k≠vault.key := fun he => hk (by rw [he]; exact hvowner)
    have h1 := create_debit hcreate1 hk
    have h2 := create_debit hcreate2 (k := k) (by rw [(hvother k hkv).2]; exact hk)
    simpa using h1.trans h2

variable (hsync : Synced h.programId accounts f)
include hsync

theorem deposit_spec (hp : processDepositCollateral h accounts amount ⟨b,b⟩=.ok f) :
    Accepted h ⟨clock,accounts,.depositCollateral amount⟩ b f.view := by
  unfold processDepositCollateral at hp
  split at hp <;> simp only [steps_ok] at hp
  rename_i owner _ _ _ _ _
  obtain ⟨_,hsigner,_,hpos,v,hload,_,hauth,_,hinvoke,_,hcollateral,_,hstore,g,
    hconfig,locked,hlocked,hfinal⟩ := hp
  obtain ⟨_,htransfer,rfl⟩ := invoke_clean hinvoke (by
    intro c hc k hk
    simp only [mem_cons,not_mem_nil,or_false,not_or] at hk
    exact (transfer_spec hc).2.2.2.2.2 k hk.1 hk.2)
  obtain ⟨-,hsrc,-,hsame,hmoved,-⟩ := transfer_spec htransfer
  exact Saved.updated (saved_vault_config (vault_length hload hsame) hstore hconfig hfinal) hsync
    rfl rfl ⟨owner,rfl,hsigner,fun _ => hauth⟩ hload hsame hsame
    (.deposit hpos hcollateral hlocked) (.paidIn (hsrc.resolve_right hpos) hmoved)

theorem mint_spec (hp : processMintPusd h clock accounts amount ⟨b,b⟩=.ok f) :
    Accepted h ⟨clock,accounts,.mintPusd amount⟩ b f.view := by
  unfold processMintPusd at hp
  split at hp <;> simp only [steps_ok,lift_eq_ok] at hp
  rename_i owner _ _ _ _ _ _ _ _
  obtain ⟨_,hsigner,_,hpos,v,hload,_,hauth,_,hdebt,_,hprice,_,hratio,_,hmin,_,hdust,
    f1,hstore,g,hconfig,supply,hsupply,hfinal⟩ := hp
  have hsame := SameState.refl b
  exact Saved.updated (saved_vault_config (vault_length hload hsame) hstore hconfig hfinal) hsync
    rfl rfl ⟨owner,rfl,hsigner,fun _ => hauth⟩ hload hsame hsame
    (.mint hpos hdebt hprice hratio hmin hdust hsupply) (.still rfl fun _ => rfl)

theorem burn_spec (hp : processBurnPusd h clock accounts amount ⟨b,b⟩=.ok f) :
    Accepted h ⟨clock,accounts,.burnPusd amount⟩ b f.view := by
  unfold processBurnPusd at hp
  split at hp <;> simp only [steps_ok] at hp
  rename_i owner _ _ _ _ _ _
  obtain ⟨_,hsigner,_,hpos,v,hload,_,hauth,_,hle,w,hpay,_,hdust,_,hstore,g,hconfig,hfinal⟩ := hp
  have hsame := SameState.refl b
  exact Saved.updated (saved_vault_config (vault_length hload hsame) hstore hconfig hfinal) hsync
    rfl rfl ⟨owner,rfl,hsigner,fun _ => hauth⟩ hload hsame hsame
    (.burn hpos hle hpay hdust) (.still rfl fun _ => rfl)

theorem withdraw_spec (hp : processWithdrawCollateral h clock accounts amount ⟨b,b⟩=.ok f) :
    Accepted h ⟨clock,accounts,.withdrawCollateral amount⟩ b f.view := by
  unfold processWithdrawCollateral at hp
  split at hp <;> simp only [steps_ok] at hp
  rename_i owner _ _ _ _ _ _
  obtain ⟨_,hsigner,_,hpos,v,hload,_,hauth,_,hle,_,hcheck,_,hpool,_,hpayout,_,
    hcollateral,f2,hstore,g,hconfig,hfinal⟩ := hp
  obtain ⟨hsynced,hsame,hmoved⟩ := payOut_spec hpayout
  exact Saved.updated (saved_vault_config (vault_length hload hsame) hstore hconfig hfinal) hsync
    rfl rfl ⟨owner,rfl,hsigner,fun _ => hauth⟩ hload hsame
    (by rw [hsynced]; exact SameState.refl b)
    (.withdraw hpos hle hcheck hpool hcollateral) (.paidOut rfl hmoved)

theorem liquidate_spec (hp : processLiquidate h clock accounts ⟨b,b⟩=.ok f) :
    Accepted h ⟨clock,accounts,.liquidate⟩ b f.view := by
  unfold processLiquidate at hp
  split at hp <;> simp only [steps_ok,lift_eq_ok] at hp
  rename_i liquidator vault _ _ _ _ _ _ _ _
  obtain ⟨_,hsigner,v,hload,_,hprice,_,hratio,_,hlow,_,hseize,f1,hpayout,g,hconfig,
    f2,hstore,hfinal⟩ := hp
  obtain ⟨hsynced,hsame,hmoved⟩ := payOut_spec hpayout
  have hvault : (f1.view vault.key).data=vaultCodec.encode v := by
    rw [(hsame vault.key).1]
    exact (loadVault_eq_ok.mp hload).2.1
  exact Saved.updated (saved_config_vault hvault hconfig hstore hfinal) hsync
    rfl rfl ⟨liquidator,rfl,hsigner,fun hno => by cases hno⟩ hload hsame
    (by rw [hsynced]; exact SameState.refl b)
    (.liquidate hprice hratio hlow hseize) (.paidOut rfl hmoved)

theorem redeem_spec (hp : processRedeem h clock accounts amount ⟨b,b⟩=.ok f) :
    Accepted h ⟨clock,accounts,.redeem amount⟩ b f.view := by
  unfold processRedeem at hp
  split at hp <;> simp only [steps_ok,lift_eq_ok] at hp
  rename_i redeemer _ _ _ _ _ _ _ _ _
  obtain ⟨_,hsigner,_,hpos,v,hload,_,hle,_,hprice,_,hprism,_,hcollateral,_,hpool,_,
    hpayout,w,hpay,f2,hstore,g,hconfig,hfinal⟩ := hp
  obtain ⟨hsynced,hsame,hmoved⟩ := payOut_spec hpayout
  exact Saved.updated (saved_vault_config (vault_length hload hsame) hstore hconfig hfinal) hsync
    rfl rfl ⟨redeemer,rfl,hsigner,fun hno => by cases hno⟩ hload hsame
    (by rw [hsynced]; exact SameState.refl b)
    (.redeem hpos hle hprice hprism hcollateral hpool hpay) (.paidOut rfl hmoved)

end Handlers

theorem execute_spec (he : (program h).execute c b=.ok b') : Accepted h c b b' := by
  obtain ⟨f,hp,hsync,rfl⟩ := Program.execute_eq_ok.mp he
  obtain ⟨clock,accounts,i⟩ := c
  cases i with
  | initializeSystem =>
    obtain ⟨g,hi⟩ : ∃ g,Initialized h ⟨clock,accounts,_⟩ b f.view g := initialize_spec hp
    exact .initialized hi
  | openVault amount =>
    obtain ⟨_,_,v,g,_,ho⟩ := open_spec hp
    exact .opened ho
  | depositCollateral amount => exact deposit_spec hsync hp
  | mintPusd amount => exact mint_spec hsync hp
  | burnPusd amount => exact burn_spec hsync hp
  | withdrawCollateral amount => exact withdraw_spec hsync hp
  | liquidate => exact liquidate_spec hsync hp
  | redeem amount => exact redeem_spec hsync hp

end PrismChain.Pusd
