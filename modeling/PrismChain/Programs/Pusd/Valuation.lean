import PrismChain.Programs.Pusd.Transition

namespace PrismChain.Pusd

open FixedWidth BitVec Nat

section Values

variable {v : Vault}

theorem totalDebt_pos (hdebt : v.debt≠0#64) : 0<v.totalDebt.toNat := by
  have hpos := toNat_pos.mpr hdebt
  rw [Vault.totalDebt,toNat_saturatingAdd]
  omega

theorem mul_lt_u128 (a b : U64) : a.toNat*b.toNat<2^128 := by
  have h := Nat.mul_lt_mul'' a.isLt b.isLt
  calc a.toNat*b.toNat<2^64*2^64 := h
    _ = 2^128 := by norm_num

theorem collateralRatioBps_eq_ok (hdebt : v.debt≠0#64) :
    v.collateralRatioBps p=.ok q ↔ v.collateral.toNat*p.toNat*10000<2^128 ∧
      q.toNat=v.collateral.toNat*p.toNat*10000/(v.totalDebt.toNat*10^9)%2^64 := by
  have hdv : v.totalDebt.toNat*1000000000<2^128 := by
    have := v.totalDebt.isLt
    omega
  have hpos := totalDebt_pos hdebt
  simp only [Vault.collateralRatioBps,if_neg hdebt,steps_ok,checkedMul_eq_some,checkedDiv_eq_some,
    toNat_widen (show 64≤128 by decide)]
  constructor
  · intro ⟨cv,hcv,dv,hdv',scaled,hscaled,ratio,⟨_,hratio⟩,hq⟩
    have hten : (bpsDenominator).toNat=10000 := rfl
    have hnine : (1000000000#128).toNat=10^9 := rfl
    rw [hcv,hten] at hscaled
    rw [hnine] at hdv'
    refine ⟨by rw [← hscaled]; exact scaled.isLt,?_⟩
    rw [← hq,toNat_setWidth,hratio,hscaled,hdv']
  · intro ⟨hfit,hq⟩
    have hcv := mul_lt_u128 v.collateral p
    have hquot : v.collateral.toNat*p.toNat*10000/(v.totalDebt.toNat*1000000000)<2^128 :=
      (Nat.div_le_self _ _).trans_lt hfit
    refine ⟨BitVec.ofNat 128 (v.collateral.toNat*p.toNat),?_,
      BitVec.ofNat 128 (v.totalDebt.toNat*1000000000),?_,
      BitVec.ofNat 128 (v.collateral.toNat*p.toNat*10000),?_,
      BitVec.ofNat 128 (v.collateral.toNat*p.toNat*10000/(v.totalDebt.toNat*1000000000)),
      ⟨?_,?_⟩,?_⟩
    · rw [toNat_ofNat,mod_eq_of_lt hcv]
    · rw [toNat_ofNat,mod_eq_of_lt hdv]; rfl
    · rw [toNat_ofNat,toNat_ofNat,mod_eq_of_lt hfit,mod_eq_of_lt hcv]; rfl
    · rw [toNat_ofNat,mod_eq_of_lt hdv]; omega
    · rw [toNat_ofNat,toNat_ofNat,toNat_ofNat,mod_eq_of_lt hquot,mod_eq_of_lt hfit,mod_eq_of_lt hdv]
    · apply eq_of_toNat_eq
      rw [toNat_setWidth,toNat_ofNat,mod_eq_of_lt hquot,hq]
      norm_num

theorem usdToPrism_eq_ok (hp : p≠0#64) :
    usdToPrism amount p=.ok d ↔ d.toNat=amount.toNat*10^11/p.toNat%2^64 := by
  have hpos := toNat_pos.mpr hp
  have hfit : amount.toNat*100000000000<2^128 := by
    have := amount.isLt
    omega
  have hquot : amount.toNat*100000000000/p.toNat<2^128 := (Nat.div_le_self _ _).trans_lt hfit
  simp only
    [usdToPrism,steps_ok,checkedMul_eq_some,checkedDiv_eq_some,toNat_widen (show 64≤128 by decide)]
  constructor
  · intro ⟨scaled,hscaled,prism,⟨_,hprism⟩,hd⟩
    rw [← hd,toNat_setWidth,hprism,hscaled]
    rfl
  · intro hd
    refine ⟨BitVec.ofNat 128 (amount.toNat*100000000000),?_,
      BitVec.ofNat 128 (amount.toNat*100000000000/p.toNat),⟨by omega,?_⟩,?_⟩
    · rw [toNat_ofNat,mod_eq_of_lt hfit]; rfl
    · rw [toNat_ofNat,toNat_ofNat,mod_eq_of_lt hquot,mod_eq_of_lt hfit]
    · apply eq_of_toNat_eq
      rw [toNat_setWidth,toNat_ofNat,mod_eq_of_lt hquot,hd]
      norm_num

end Values

def Uncut (v : Vault) (p : U64) : Prop :=
  v.collateral.toNat*p.toNat*10000/(v.totalDebt.toNat*10^9)<2^64 ∧
    v.totalDebt.toNat*10^11/p.toNat<2^64

/-- Every ratio that the check grants is one that paying out the debt respects. -/
def ValuedAlike (v : Vault) (p : U64) : Prop :=
  ∀ (r : Nat) (q d : U64),v.collateralRatioBps p=.ok q → r≤q.toNat →
    usdToPrism v.totalDebt p=.ok d → Uncut v p → r*d.toNat≤v.collateral.toNat*10000

/-- The check scales debt by `10^9` and the payment by `10^11`: once both quotients are positive,
rounding cannot make up for the factor between them. -/
theorem scales_differ (hp : 0<p) (hq : B≤A) (hB : 0<B) (hd : p≤100*B) : A<A/B*(100*B/p)*p := by
  have hq1 : 0<A/B := Nat.div_pos hq hB
  have hd1 : 0<100*B/p := Nat.div_pos hd hp
  have hA : A<(A/B+1)*B := by
    rw [Nat.mul_comm]
    exact lt_mul_div_succ A hB
  have hN : 100*B<(100*B/p+1)*p := by
    rw [Nat.mul_comm _ p]
    exact lt_mul_div_succ (100*B) hp
  generalize A/B=q at *
  generalize 100*B/p=d at *
  have h1 : A<2*(q*B) := by nlinarith
  have h2 : 50*B<d*p := by nlinarith
  have h3 : q*(50*B)≤q*(d*p) := Nat.mul_le_mul_left q h2.le
  nlinarith

theorem valuedAlike_iff {v : Vault} (hdebt : v.debt≠0#64) (hp : p≠0#64) :
    ValuedAlike v p ↔ 2^128≤v.collateral.toNat*p.toNat*10000 ∨ ¬Uncut v p ∨
      v.collateral.toNat*p.toNat*10000<v.totalDebt.toNat*10^9 ∨
      v.totalDebt.toNat*10^11<p.toNat := by
  have hppos := toNat_pos.mpr hp
  have hB : 0<v.totalDebt.toNat*10^9 := Nat.mul_pos (totalDebt_pos hdebt) (by norm_num)
  have hscale : v.totalDebt.toNat*10^11=100*(v.totalDebt.toNat*10^9) := by ring
  constructor
  · intro halike
    by_contra hno
    push Not at hno
    obtain ⟨hfit,hcut,hq,hd⟩ := hno
    have hlt := scales_differ hppos hq hB (by omega)
    have hr := halike _ (BitVec.ofNat 64 _) (BitVec.ofNat 64 _)
      ((collateralRatioBps_eq_ok hdebt).mpr ⟨hfit,toNat_ofNat _ _⟩) le_rfl
      ((usdToPrism_eq_ok hp).mpr (toNat_ofNat _ _)) hcut
    rw [toNat_ofNat,toNat_ofNat,mod_eq_of_lt hcut.1,mod_eq_of_lt hcut.2,hscale] at hr
    have hmul := Nat.mul_le_mul_right p.toNat hr
    have hassoc : v.collateral.toNat*10000*p.toNat=v.collateral.toNat*p.toNat*10000 := by ring
    omega
  · intro hcases r q d hratio hr hprism hcut
    obtain ⟨hfit,hq⟩ := (collateralRatioBps_eq_ok hdebt).mp hratio
    have hd := (usdToPrism_eq_ok hp).mp hprism
    rw [mod_eq_of_lt hcut.1] at hq
    rw [mod_eq_of_lt hcut.2] at hd
    obtain _ | hcut' | hlow | hlow := hcases
    · omega
    · exact absurd hcut hcut'
    · rw [div_eq_of_lt hlow] at hq
      have hzero : r=0 := by omega
      simp [hzero]
    · rw [div_eq_of_lt hlow] at hd
      simp [hd]

def asked (now : I64) : Instruction → Vault → Vault
  | .mintPusd amount,v => {v.accrueFee now with debt := v.debt+amount}
  | .withdrawCollateral amount,v => {v.accrueFee now with collateral := v.collateral-amount}
  | _,v => v

def Ratioed (i : Instruction) : Prop :=
  ∃ amount,i=.mintPusd amount ∨ i=.withdrawCollateral amount

theorem Effect.asked (he : Effect now oracle pool i v g v' g' out) (hi : Ratioed i)
    (hprice : readOraclePrice oracle=.ok price) (hdebt : (asked now i v).debt≠0#64) :
    v'=asked now i v ∧ ∃ q,v'.collateralRatioBps price=.ok q ∧ 15000≤q.toNat := by
  obtain ⟨amount,rfl | rfl⟩ := hi
  · cases he with
    | @mint _ _ amount debt _ ratio _ hpos hsum hread hratio hmin =>
      rw [hprice] at hread
      cases hread
      have heq : debt=v.debt+amount := by
        rw [Vault.accrueFee_debt] at hsum
        have hs := checkedAdd_eq_some.mp hsum
        apply eq_of_toNat_eq
        rw [toNat_add_of_lt (by rw [← hs]; exact debt.isLt),hs]
      subst heq
      exact ⟨rfl,ratio,hratio,hmin⟩
  · cases he with
    | @withdraw _ _ _ collateral hpos hle hcheck _ hsub =>
      -- the amount withdrawn is what leaves the pool
      have heq : collateral=v.collateral-out := by
        rw [Vault.accrueFee_collateral] at hsub
        have hs := checkedSub_eq_some.mp hsub
        apply eq_of_toNat_eq
        rw [toNat_sub_of_le (le_def.mpr hle)]
        omega
      subst heq
      have howed : 0<(v.accrueFee now).totalDebt.toNat := totalDebt_pos hdebt
      simp only [checkWithdrawal,if_pos howed,steps_ok,lift_eq_ok,hprice,Except.ok.injEq,
        exists_eq_left'] at hcheck
      obtain ⟨c,hc,ratio,hratio,hmin⟩ := hcheck
      rw [hsub] at hc
      cases hc
      exact ⟨rfl,ratio,hratio,hmin⟩

theorem prism_le_of_ratio {v : Vault} (hdebt : v.debt≠0#64) (hp : p≠0#64)
    (hratio : v.collateralRatioBps p=.ok q) (hmin : 15000≤q.toNat)
    (hprism : usdToPrism v.totalDebt p=.ok d) : 15000*d.toNat≤100*(v.collateral.toNat*10000) := by
  have hppos := toNat_pos.mpr hp
  have hB : 0<v.totalDebt.toNat*10^9 := Nat.mul_pos (totalDebt_pos hdebt) (by norm_num)
  obtain ⟨-,hq⟩ := (collateralRatioBps_eq_ok hdebt).mp hratio
  have hd := (usdToPrism_eq_ok hp).mp hprism
  have hquot : 15000≤v.collateral.toNat*p.toNat*10000/(v.totalDebt.toNat*10^9) :=
    hmin.trans (hq.trans_le (mod_le _ _))
  have hA := (Nat.le_div_iff_mul_le hB).mp hquot
  have hdle : d.toNat*p.toNat≤v.totalDebt.toNat*10^11 :=
    (Nat.mul_le_mul_right _ (hd.trans_le (mod_le _ _))).trans (div_mul_le_self _ _)
  have hmul : 15000*d.toNat*p.toNat≤100*(v.collateral.toNat*10000)*p.toNat := by nlinarith
  exact Nat.le_of_mul_le_mul_right hmul hppos

theorem mul_div_le_iff (hr : 0< r) (hp : 0<p) : r*(N/p)≤C ↔ N<(C/r+1)*p := by
  rw [Nat.mul_comm r,← Nat.le_div_iff_mul_le hr,← Nat.lt_succ_iff,Nat.div_lt_iff_lt_mul hp]

theorem readOraclePrice_ne_zero (hread : readOraclePrice data=.ok p) : p≠0#64 := by
  simp only [readOraclePrice,steps_ok] at hread
  obtain ⟨_,_,_,hpos,rfl⟩ := hread
  exact hpos

theorem execute_asked (he : (program h).execute c b=.ok b') (hi : Ratioed c.instruction)
    (hk : c.key? 1=some vk) (hv : (b vk).data=vaultCodec.encode v)
    (hdebt : (asked c.clock.unixTimestamp c.instruction v).debt≠0#64)
    (hread : readOraclePrice (accountAt b (c.instruction.oracleIndex.bind c.key?)).data=.ok p)
    (hprism : usdToPrism (asked c.clock.unixTimestamp c.instruction v).totalDebt p=.ok d) :
    (b' vk).data=vaultCodec.encode (asked c.clock.unixTimestamp c.instruction v) ∧ 15000*d.toNat≤
        100*((asked c.clock.unixTimestamp c.instruction v).collateral.toNat*10000) := by
  cases execute_spec he with
  | initialized hinit =>
    obtain ⟨o,m,hinstr⟩ := hinit.instruction
    obtain ⟨amount,hm | hw⟩ := hi
    · rw [hinstr] at hm; cases hm
    · rw [hinstr] at hw; cases hw
  | opened ho =>
    obtain ⟨_,hinstr⟩ := ho.instruction
    obtain ⟨amount,hm | hw⟩ := hi
    · rw [hinstr] at hm; cases hm
    · rw [hinstr] at hw; cases hw
  | updated hu =>
    have hkey : c.instruction.vaultIndex.bind c.key?=some vk := by
      obtain ⟨amount,hm | hw⟩ := hi
      · rw [hm]; exact hk
      · rw [hw]; exact hk
    have hvk := Option.some.inj (hu.vaultKey.symm.trans hkey)
    subst hvk
    have hveq := vaultCodec.encode_inj (hu.vault.symm.trans hv)
    subst hveq
    obtain ⟨heq,q,hratio,hmin⟩ := hu.effect.asked hi hread hdebt
    subst heq
    exact ⟨hu.vault',prism_le_of_ratio hdebt (readOraclePrice_ne_zero hread) hratio hmin hprism⟩

/-- Where the ratio check and the payment agree about what the debt of `v` is worth at the price
`p`. The first part is about all ratios at once; the second about the minimum ratio, when `v` is
what an accepted `MintPusd` or `WithdrawCollateral` at that price asked for. -/
theorem debt_valuation_agrees_iff (v : Vault) (p : U64) (hdebt : v.debt≠0#64) (hp : p≠0#64) :
    (ValuedAlike v p ↔ 2^128≤v.collateral.toNat*p.toNat*10000 ∨ ¬Uncut v p ∨
      v.collateral.toNat*p.toNat*10000<v.totalDebt.toNat*10^9 ∨
      v.totalDebt.toNat*10^11<p.toNat) ∧
    ∀ (h : Host) (c : Call Instruction) (b b' : Bank) (vk : Pubkey) (v₀ : Vault) (d : U64),
      (program h).execute c b=.ok b' → Ratioed c.instruction → c.key? 1=some vk →
      (b vk).data=vaultCodec.encode v₀ → v=asked c.clock.unixTimestamp c.instruction v₀ →
      readOraclePrice (accountAt b (c.instruction.oracleIndex.bind c.key?)).data=.ok p →
      usdToPrism v.totalDebt p=.ok d → v.totalDebt.toNat*10^11/p.toNat<2^64 →
      (b' vk).data=vaultCodec.encode v ∧ 15000*d.toNat≤100*(v.collateral.toNat*10000) ∧
        (minCollateralRatioBps.toNat*d.toNat≤v.collateral.toNat*10000 ↔
          v.totalDebt.toNat*10^11<(v.collateral.toNat*10000/15000+1)*p.toNat) := by
  refine ⟨valuedAlike_iff hdebt hp,?_⟩
  intro h c b b' vk v₀ d he hi hk hv hask hread hprism hcut
  subst hask
  obtain ⟨hstored,hbound⟩ := execute_asked he hi hk hv hdebt hread hprism
  have hd := (usdToPrism_eq_ok hp).mp hprism
  rw [mod_eq_of_lt hcut] at hd
  refine ⟨hstored,hbound,?_⟩
  rw [hd]
  exact mul_div_le_iff (by decide) (toNat_pos.mpr hp)

def sampleConfig : Pubkey := 0xedb2270f307dab8901aacb7dd158f50c61196abc177e11e8f4099da7341fba7#256
def sampleVault : Pubkey := 0xb64f371469342f27697efc02b78919138549a76d0d16178ec5697d2268ad10f5#256
def samplePool : Pubkey := 0x7c3adf1a1cc06a093986f851a7ecf7a98bb8c20886c9c5ce690938b34f23888e#256
def otherVault : Pubkey := 0xd38ee3db695abf72d3764c16dd2379b28d7b3a880375c18d3721fd926380a66b#256
def otherPool : Pubkey := 0x618082d528ccf4a612a4c813bf38f3bba5c2a14c6e7c1234b86f379ba3cb30e1#256

def sampleHost : Host where
  programId := 1#256
  findProgramAddress seeds _ :=
    if seeds=[configSeed] then (sampleConfig,255#8)
    else if seeds=[vaultSeed,Pubkey.bytes 2#256,leBytes 8 0] then (sampleVault,253#8)
    else if seeds=[collateralSeed,sampleVault.bytes] then (samplePool,253#8)
    else if seeds=[vaultSeed,Pubkey.bytes 3#256,leBytes 8 0] then (otherVault,255#8)
    else (otherPool,255#8)
  minimumBalance n := BitVec.ofNat 64 ((n+128)*6960)
  clockSysvar := 4#256

def mintVault : Vault := ⟨true,2#256,1000000000#64,0#64,0#64,1000#64,1000#64,253#8,0#64⟩

def mintBank : Bank := fun k =>
  if k=sampleVault then ⟨1461600#64,vaultCodec.encode mintVault,1#256⟩
  else if k=sampleConfig then ⟨1802640#64,configCodec.encode ⟨true,2#256,5#256,6#256,0#64,
    1000000000#64,1#64,0#64,true,255#8⟩,1#256⟩
  else if k=5#256 then ⟨1000000#64,leBytes 8 1000000000,9#256⟩
  else ⟨0#64,[],systemProgram⟩

def mintCall : Call Instruction where
  clock := ⟨10#64,1000#64⟩
  accounts := [⟨2#256,true,true⟩,⟨sampleVault,false,true⟩,⟨sampleConfig,false,true⟩,
    ⟨5#256,false,false⟩,⟨6#256,false,true⟩,⟨7#256,false,true⟩,⟨8#256,false,false⟩,
    ⟨9#256,false,false⟩]
  instruction := .mintPusd 100000000#64

def mintResult : Bank := ((program sampleHost).execute mintCall mintBank).toOption.getD mintBank

def mintedVault : Vault := {mintVault with debt := 100000000#64}

theorem mint_executes : (program sampleHost).execute mintCall mintBank=.ok mintResult :=
  eq_ok_of_isOk mintBank (by decide +kernel)

theorem debt_valuation_at_mint :
    (ValuedAlike mintedVault 1000000000#64 ↔ 2^128≤1000000000*1000000000*10000 ∨
      ¬Uncut mintedVault 1000000000#64 ∨ 1000000000*1000000000*10000<100000000*10^9 ∨
      100000000*10^11<1000000000) ∧
    (mintResult sampleVault).data=vaultCodec.encode mintedVault ∧
    15000*10000000000≤100*(1000000000*10000) ∧
    (15000*10000000000≤1000000000*10000 ↔ 100000000*10^11<(1000000000*10000/15000+1)*1000000000) :=
  have hall := debt_valuation_agrees_iff mintedVault 1000000000#64 (by decide) (by decide)
  ⟨hall.1,hall.2 sampleHost mintCall mintBank mintResult sampleVault mintVault 10000000000#64
    mint_executes ⟨_,Or.inl rfl⟩ rfl (by decide +kernel) (by decide +kernel) (by rfl) (by rfl)
    (by decide)⟩

/-- A hundred dollars are minted against ten: the check sees a ratio of 1000% where paying the
debt out takes ten times the collateral. -/
theorem mint_beyond_collateral : (program sampleHost).execute mintCall mintBank=.ok mintResult ∧
    (mintResult sampleVault).data=vaultCodec.encode mintedVault ∧ Uncut mintedVault 1000000000#64 ∧
    mintedVault.collateralRatioBps 1000000000#64=.ok 100000#64 ∧
    usdToPrism mintedVault.totalDebt 1000000000#64=.ok 10000000000#64 ∧
    ¬minCollateralRatioBps.toNat*(10000000000#64).toNat≤ mintedVault.collateral.toNat*10000 :=
  ⟨mint_executes,by decide +kernel,⟨by decide,by decide⟩,by rfl,by rfl,by decide⟩

end PrismChain.Pusd
