import PrismChain.Programs.Pusd.Book
import PrismChain.Programs.Pusd.Valuation

namespace PrismChain.Pusd

open Aggregate Option Program

def poolBook (h : Host) (b : Bank) (p k : Pubkey) : Option Vault :=
  if collateralPda h k=p then vaultAt h b k else none

def owed (h : Host) (b : Bank) (p : Pubkey) : Nat :=
  sumOver (fun v : Vault => v.collateral.toNat) (poolBook h b p)

/-- Every pool of an open vault belongs to the program and holds what its vaults are credited
with. Nothing is assumed about different vaults having different pools. -/
structure Backed (h : Host) (b : Bank) : Prop where
  owned : ∀ {k v},vaultAt h b k=some v → (b (collateralPda h k)).owner=h.programId
  covered : ∀ p,owed h b p≤(b p).lamports.toNat

def OwnPool (h : Host) (_ : Bank) (c : Call Instruction) : Prop :=
  ∀ vk pk,c.instruction.vaultIndex.bind c.key?=some vk →
    c.instruction.poolIndex.bind c.key?=some pk → pk=collateralPda h vk

section Steps

variable {h : Host} {v : Vault}

theorem owed_congr (hbook : ∀ k,vaultAt h b' k=vaultAt h b k) : owed h b' p=owed h b p :=
  sumOver_congr fun k => by unfold poolBook; rw [hbook k]

theorem owed_other (hbook : ∀ k,k≠vk → vaultAt h b' k=vaultAt h b k)
    (hp : collateralPda h vk≠p) : owed h b' p=owed h b p := by
  refine sumOver_congr fun k => ?_
  unfold poolBook
  by_cases hk : k=vk
  · subst hk
    rw [if_neg hp,if_neg hp]
  · rw [hbook k hk]

theorem owed_own (hbook : ∀ k,k≠vk → vaultAt h b' k=vaultAt h b k) :
    owed h b' (collateralPda h vk)+(vaultAt h b vk).elim 0 (fun v => v.collateral.toNat)=
      owed h b (collateralPda h vk)+(vaultAt h b' vk).elim 0 (fun v => v.collateral.toNat) := by
  have hrest (j : Pubkey) (hj : j≠vk) :
      poolBook h b' (collateralPda h vk) j=poolBook h b (collateralPda h vk) j := by
    unfold poolBook
    rw [hbook j hj]
  have hsum := sumOver_replace (g := fun v : Vault => v.collateral.toNat) vk hrest
  simpa only [owed,poolBook,if_true] using hsum

theorem Backed.owed_foreign (hb : Backed h b) (hp : (b p).owner≠h.programId) : owed h b p=0 := by
  refine sumOver_empty fun k => ?_
  unfold poolBook
  by_cases hk : collateralPda h k=p
  · rw [if_pos hk]
    cases hv : vaultAt h b k with
    | none => rfl
    | some => exact absurd (by rw [← hk]; exact hb.owned hv) hp
  · rw [if_neg hk]

theorem Backed.untouched (h0 : Untouched h.programId b) : Backed h b where
  owned hv := by
    rw [untouched_book h0] at hv
    cases hv
  covered p := by
    have hzero : owed h b p=0 := sumOver_empty fun k => by
      unfold poolBook
      rw [untouched_book h0]
      exact ite_self none
    omega

theorem Backed.outside (hb : Backed h b) (hout : Outside h.programId b b') : Backed h b' where
  owned hv := by
    rw [outside_book hout] at hv
    exact (hout.owned (hb.owned hv)).1
  covered p := by
    rw [owed_congr (outside_book hout)]
    by_cases hp : (b p).owner=h.programId
    · exact (hb.covered p).trans (hout.owned hp).2.2
    · rw [hb.owed_foreign hp]
      exact Nat.zero_le _

theorem Backed.initialized (hb : Backed h b) (hid : h.programId≠systemProgram)
    (hi : Initialized h c b b' g) : Backed h b' where
  owned {k v} hv := by
    rw [hi.book] at hv
    by_cases hk : collateralPda h k=configPda h
    · rw [hk]
      exact hi.owned'
    · rw [(hi.others _ hk).2]
      exact hb.owned hv
  covered p := by
    rw [owed_congr hi.book]
    by_cases hp : (b p).owner=h.programId
    · exact (hb.covered p).trans (hi.debit p (by rw [hp]; exact hid))
    · rw [hb.owed_foreign hp]
      exact Nat.zero_le _

theorem Backed.opened (hb : Backed h b) (hid : h.programId≠systemProgram)
    (ho : Opened h c b b' vk ck amount v g g') : Backed h b' := by
  obtain ⟨hnone,hsome,hbook⟩ := ho.book
  have hfresh : owed h b (collateralPda h vk)=0 :=
    hb.owed_foreign (by rw [ho.poolFresh.2]; exact hid.symm)
  refine ⟨?_,?_⟩
  · intro k w hw
    by_cases hk : collateralPda h k=collateralPda h vk
    · rw [hk]
      exact ho.poolOwned'
    have hkv : k≠vk := fun he => hk (by rw [he])
    rw [hbook k hkv] at hw
    have howned := hb.owned hw
    have hpv : collateralPda h k≠vk := by
      intro he
      rw [he,ho.vaultFresh.2] at howned
      exact hid howned.symm
    rw [ho.owners _ hpv hk]
    exact howned
  · intro p
    by_cases hp : collateralPda h vk=p
    · subst hp
      have hown := owed_own hbook
      rw [hnone,hsome] at hown
      simp only [elim_none,elim_some,ho.values.2.1] at hown
      have := ho.deposit
      omega
    · rw [owed_other hbook hp]
      by_cases hpo : (b p).owner=h.programId
      · exact (hb.covered p).trans (ho.debit p (by rw [hpo]; exact hid))
      · rw [hb.owed_foreign hpo]
        exact Nat.zero_le _

theorem Backed.updated (hb : Backed h b) (hid : h.programId≠systemProgram)
    (hok : OwnPool h b c) (hu : Updated h c b b' vk ck v v' g g' out) : Backed h b' := by
  obtain ⟨hbefore,hafter,hbook⟩ := hu.book
  have hcollateral := hu.effect.collateral
  have hown := owed_own hbook
  rw [hbefore,hafter] at hown
  simp only [elim_some] at hown
  refine ⟨?_,?_⟩
  · intro k w hw
    rw [hu.owners]
    by_cases hk : k=vk
    · subst hk
      exact hb.owned hbefore
    · rw [hbook k hk] at hw
      exact hb.owned hw
  · intro p
    have hcov := hb.covered p
    by_cases hpo : (b p).owner=h.programId
    · have hflow := hu.flow
      generalize hpool : c.instruction.poolIndex.bind c.key?=pool at hflow
      generalize c.instruction=i at hflow hcollateral
      cases hflow with
      | @paidIn amount src pk hsrc hmoved =>
        have hpk := hok vk pk hu.vaultKey hpool
        have hne : p≠src := fun he => hid (by rw [← hpo,he,hsrc])
        have hm := hmoved p
        rw [if_neg hne] at hm
        by_cases hp : collateralPda h vk=p
        · subst hp
          rw [if_pos hpk.symm] at hm
          change _+0=_+amount.toNat at hcollateral
          omega
        · rw [owed_other hbook hp]
          omega
      | still hi hsame =>
        rw [hi] at hcollateral
        rw [hsame p]
        by_cases hp : collateralPda h vk=p
        · subst hp
          omega
        · rw [owed_other hbook hp]
          exact hcov
      | @paidOut _ pk _ _ hi hmoved =>
        have hpk := hok vk pk hu.vaultKey hpool
        rw [hi] at hcollateral
        change _=_+0 at hcollateral
        have hm := hmoved p
        by_cases hp : collateralPda h vk=p
        · subst hp
          rw [if_pos hpk.symm] at hm
          omega
        · rw [owed_other hbook hp]
          rw [if_neg (fun he => hp (he.trans hpk).symm)] at hm
          omega
    · have hp : collateralPda h vk≠p := by
        intro he
        rw [← he] at hpo
        exact hpo (hb.owned hbefore)
      rw [owed_other hbook hp,hb.owed_foreign hpo]
      exact Nat.zero_le _

theorem Backed.step {s : Ledger} (hid : h.programId≠systemProgram) (hb : Backed h s.bank)
    (hs : (program h).Step (OwnPool h) s a t) : Backed h t.bank := by
  cases hs with
  | call _ hok he =>
    cases execute_spec he with
    | initialized hi => exact hb.initialized hid hi
    | opened ho => exact hb.opened hid ho
    | updated hu => exact hb.updated hid hok hu
  | outside _ hout => exact hb.outside hout

end Steps

/-- As long as every instruction is passed the pool of the vault it is passed, every open vault
is backed by its own pool. -/
theorem vaults_individually_backed {h : Host} {s t : Ledger} {tr : Trace Instruction}
    (hid : h.programId≠systemProgram) (h0 : Untouched h.programId s.bank)
    (hrun : Run ((program h).Step (OwnPool h)) s tr t) {k : Pubkey} {v : Vault}
    (hv : vaultAt h t.bank k=some v) :
    v.collateral.toNat≤(t.bank (collateralPda h k)).lamports.toNat := by
  have hb : Backed h t.bank := hrun.invariant (I := fun s => Backed h s.bank)
    (Backed.untouched h0) (fun hb hs => hb.step hid hs)
  have hle : v.collateral.toNat≤owed h t.bank (collateralPda h k) := by
    refine le_sumOver (g := fun v : Vault => v.collateral.toNat) (k := k) ?_
    unfold poolBook
    rw [if_pos rfl,hv]
  exact hle.trans (hb.covered _)

def genesis : Ledger where
  bank k :=
    if k=2#256 ∨ k=3#256 then ⟨10000000000#64,[],systemProgram⟩
    else if k=5#256 then ⟨1000000#64,leBytes 8 100000000000,9#256⟩
    else ⟨0#64,[],systemProgram⟩
  clock := ⟨1#64,1000#64⟩

theorem genesis_untouched : Untouched sampleHost.programId genesis.bank := by
  refine untouched_of_foreign fun k => ?_
  unfold genesis
  dsimp only
  split_ifs <;> decide

def initCall : Call Instruction where
  clock := ⟨2#64,1000#64⟩
  accounts := [⟨2#256,true,true⟩,⟨sampleConfig,false,true⟩,⟨5#256,false,false⟩,
    ⟨6#256,false,false⟩,systemInfo]
  instruction := .initializeSystem 5#256 6#256

def openCall (owner vault pool : Pubkey) : Call Instruction where
  clock := ⟨3#64,1000#64⟩
  accounts := [⟨owner,true,true⟩,⟨sampleConfig,false,true⟩,⟨vault,false,true⟩,⟨pool,false,true⟩,
    systemInfo]
  instruction := .openVault 1000000000#64 0#64

def theftCall : Call Instruction where
  clock := ⟨4#64,1000#64⟩
  accounts := [⟨3#256,true,true⟩,⟨otherVault,false,true⟩,⟨sampleConfig,false,true⟩,
    ⟨samplePool,false,true⟩,⟨5#256,false,false⟩,systemInfo]
  instruction := .withdrawCollateral 1000000000#64

def topUpCall : Call Instruction where
  clock := ⟨4#64,1000#64⟩
  accounts := [⟨2#256,true,true⟩,⟨sampleVault,false,true⟩,⟨samplePool,false,true⟩,
    ⟨sampleConfig,false,true⟩,systemInfo]
  instruction := .depositCollateral 500000000#64

def takeOutCall : Call Instruction where
  clock := ⟨4#64,1000#64⟩
  accounts := [⟨2#256,true,true⟩,⟨sampleVault,false,true⟩,⟨sampleConfig,false,true⟩,
    ⟨samplePool,false,true⟩,⟨5#256,false,false⟩,systemInfo]
  instruction := .withdrawCollateral 200000000#64

def savingsCalls : List (Call Instruction) :=
  [initCall,openCall 2#256 sampleVault samplePool,topUpCall,takeOutCall]

theorem used_vault_backed :
    ∃ tr t v,Run ((program sampleHost).Step (OwnPool sampleHost)) genesis tr t ∧
      vaultAt sampleHost t.bank sampleVault=some v ∧ v.collateral=1300000000#64 ∧
      v.collateral.toNat≤(t.bank (collateralPda sampleHost sampleVault)).lamports.toNat := by
  have hown : ∀ c∈savingsCalls,∀ b,OwnPool sampleHost b c := by
    intro c hc b vk pk hvk hpk
    simp only [savingsCalls,List.mem_cons,List.not_mem_nil,or_false] at hc
    obtain rfl | rfl | rfl | rfl := hc
    · cases hvk
    all_goals
      cases hvk
      cases hpk
      decide +kernel
  obtain ⟨tr,t,hrun,v,hv,hcollateral⟩ := exists_run (P := program sampleHost) (s := genesis)
    (p := fun _ t => ∃ v,vaultAt sampleHost t.bank sampleVault=some v ∧
      v.collateral=1300000000#64) savingsCalls hown (by decide +kernel)
  exact ⟨tr,t,v,hrun,hv,hcollateral,
    vaults_individually_backed (by decide) genesis_untouched hrun hv⟩

/-- Nothing stops the second user: the first one's vault is left without backing. -/
theorem theft_leaves_vault_unbacked : ∃ tr t v,Untouched sampleHost.programId genesis.bank ∧
      Run ((program sampleHost).Step anyCall) genesis tr t ∧
      vaultAt sampleHost t.bank sampleVault=some v ∧ v.collateral=1000000000#64 ∧
      (t.bank (collateralPda sampleHost sampleVault)).lamports=0#64 ∧
      ¬v.collateral.toNat≤(t.bank (collateralPda sampleHost sampleVault)).lamports.toNat := by
  simp only [exists_and_left]
  exact ⟨genesis_untouched,exists_run_any [initCall,openCall 2#256 sampleVault samplePool,
    openCall 3#256 otherVault otherPool,theftCall] (by decide +kernel)⟩

end PrismChain.Pusd
