import PrismChain.Framework.Transactions
import PrismChain.Programs.Pusd.Book

namespace PrismChain.Pusd

open Aggregate

/-- What the stablecoin is about once bytes and accounts are forgotten: the config, if there is
one yet, and the open vaults. -/
structure System where
  config : Option PusdConfig
  vaults : Pubkey → Option Vault

namespace System

def Founded (S : System) : Prop := S.config=none → ∀ k,S.vaults k=none

def sum (f : Vault → Nat) (S : System) : Nat := sumOver f S.vaults

inductive Step : Action Instruction → System → System → Prop
  | quiet {S T : System} (hconfig : T.config=S.config)
      (hvaults : ∀ k,T.vaults k=S.vaults k) : Step .outside S T
  | initialized {S T : System} {c : Call Instruction} {g : PusdConfig} (hnone : S.config=none)
      (hsome : T.config=some g) (hempty : g.totalPusdSupply=0#64 ∧ g.totalCollateralLocked=0#64)
      (hi : ∃ oracleFeed pusdMint,c.instruction=.initializeSystem oracleFeed pusdMint)
      (hvaults : ∀ k,T.vaults k=S.vaults k) : Step (.call c) S T
  | opened {S T : System} {c : Call Instruction} {vk : Pubkey} {v : Vault} {g g' : PusdConfig}
      (hconfig : S.config=some g) (hconfig' : T.config=some g') (hnone : S.vaults vk=none)
      (hsome : T.vaults vk=some v) (hdebt : v.debt=0#64)
      (hi : ∃ amount nonce,c.instruction=.openVault amount nonce)
      (hlocked : g'.totalCollateralLocked.toNat=g.totalCollateralLocked.toNat+v.collateral.toNat)
      (hsupply : g'.totalPusdSupply=g.totalPusdSupply)
      (hrest : ∀ k,k≠vk → T.vaults k=S.vaults k) : Step (.call c) S T
  | updated {S T : System} {c : Call Instruction} {vk : Pubkey} {v v' : Vault}
      {g g' : PusdConfig} {oracle : List Byte} {pool out : U64}
      (hkey : c.instruction.vaultIndex.bind c.key?=some vk)
      (hconfig : S.config=some g) (hconfig' : T.config=some g') (hbefore : S.vaults vk=some v)
      (hafter : T.vaults vk=some v')
      (heffect : Effect c.clock.unixTimestamp oracle pool c.instruction v g v' g' out)
      (hrest : ∀ k,k≠vk → T.vaults k=S.vaults k) : Step (.call c) S T

theorem sum_congr {S T : System} (hvaults : ∀ k,T.vaults k=S.vaults k) : T.sum f=S.sum f :=
  sumOver_congr hvaults

theorem sum_opened {S T : System} (hnone : S.vaults vk=none) (hsome : T.vaults vk=some v)
    (hrest : ∀ k,k≠vk → T.vaults k=S.vaults k) : T.sum f=S.sum f+f v := by
  unfold sum
  exact sumOver_insert hnone hsome hrest

theorem sum_updated {S T : System} (hbefore : S.vaults vk=some v) (hafter : T.vaults vk=some v')
    (hrest : ∀ k,k≠vk → T.vaults k=S.vaults k) : T.sum f+f v=S.sum f+f v' := by
  unfold sum
  exact sumOver_change hbefore hafter hrest

theorem le_sum {S : System} (hv : S.vaults vk=some v) : f v≤S.sum f := by
  unfold sum
  exact le_sumOver hv

theorem Founded.step {S : System} (hf : S.Founded) (hs : Step a S T) : T.Founded := by
  intro hnone k
  cases hs with
  | quiet hconfig hvaults =>
    rw [hvaults k]
    exact hf (hconfig.symm.trans hnone) k
  | initialized _ hsome => rw [hsome] at hnone; cases hnone
  | opened _ hconfig' => rw [hconfig'] at hnone; cases hnone
  | updated _ _ hconfig' => rw [hconfig'] at hnone; cases hnone

end System

def systemOf (h : Host) (b : Bank) : System := ⟨configAt h b,vaultAt h b⟩

/-- Neither the config nor an open vault is without lamports, so that the end of a transaction
drops none of them. -/
def Funded (h : Host) (b : Bank) : Prop :=
  (∀ g,configAt h b=some g → (b (configPda h)).lamports≠0#64) ∧
    ∀ k v,vaultAt h b k=some v → (b k).lamports≠0#64

theorem Funded.of_empty (hempty : ∀ k,(systemOf h b).vaults k=none)
    (hconfig : (b (configPda h)).lamports≠0#64) : Funded h b := by
  refine ⟨fun _ _ => hconfig,fun k v hv => ?_⟩
  have hnone : vaultAt h b k=none := hempty k
  rw [hnone] at hv
  cases hv

def AtConfig (h : Host) (_ : Bank) (c : Call Instruction) : Prop :=
  c.key? c.instruction.configIndex=some (configPda h)

instance (h : Host) (b : Bank) (c : Call Instruction) : Decidable (AtConfig h b c) :=
  inferInstanceAs (Decidable (_=_))

theorem Effect.config_isInitialized (he : Effect now oracle pool i v g v' g' out) :
    g'.isInitialized=g.isInitialized := by
  cases he <;> rfl

theorem untouched_founded {h : Host} (h0 : Untouched h.programId b) :
    (systemOf h b).config=none ∧ (systemOf h b).Founded :=
  ⟨h0.records config_marked _,fun _ k => untouched_book h0 k⟩

theorem step_refines {s : Ledger} (hf : (systemOf h s.bank).Founded)
    (hs : (program h).Step (AtConfig h) s a t) :
    System.Step a (systemOf h s.bank) (systemOf h t.bank) := by
  cases hs with
  | outside _ hout => exact .quiet (hout.records config_marked _) (outside_book hout)
  | call _ hok he =>
    cases execute_spec he with
    | initialized hi =>
      have hnone : configAt h s.bank=none :=
        recordAt_of_empty config_size (by decide) hi.fresh.1
      exact .initialized hnone (configAt_eq_some.mpr ⟨hi.owned',hi.config',hi.active⟩)
        ⟨hi.empty.1,hi.empty.2.1⟩ hi.instruction hi.book
    | @opened vk ck amount v g g' ho =>
      have hck := Option.some.inj (ho.configKey.symm.trans hok)
      subst hck
      obtain ⟨hnone,hsome,hrest⟩ := ho.book
      -- the config holds a full record, so it is neither of the two new accounts
      have hne {k : Pubkey} (hk : (s.bank k).data=[]) : configPda h≠k := by
        intro heq
        have hlen := config_size g
        rw [← ho.config,heq,hk] at hlen
        cases hlen
      have howner : (_ : Account).owner=h.programId :=
        (ho.owners (configPda h) (hne ho.vaultFresh.1) (hne ho.poolFresh.1)).trans ho.configOwned
      obtain ⟨nonce,hinstr⟩ := ho.instruction
      refine .opened (configAt_eq_some.mpr ⟨ho.configOwned,ho.config,ho.active.1⟩)
        (configAt_eq_some.mpr ⟨howner,ho.config',ho.active.2⟩) hnone hsome ho.values.2.2.1
        ⟨amount,nonce,hinstr⟩ ?_ ho.totals.1 hrest
      rw [ho.locked,ho.values.2.1]
    | @updated vk ck v _ g g' _ hu =>
      have hck := Option.some.inj (hu.configKey.symm.trans hok)
      subst hck
      obtain ⟨hbefore,hafter,hrest⟩ := hu.book
      cases hconfig : configAt h s.bank with
      | none =>
        have hempty := hf hconfig vk
        change vaultAt h s.bank vk=none at hempty
        rw [hbefore] at hempty
        cases hempty
      | some =>
        obtain ⟨howner,hdata,hinit⟩ := configAt_eq_some.mp hconfig
        have heq := configCodec.encode_inj (hdata.symm.trans hu.config)
        subst heq
        have hconfig' : configAt h _=some g' := configAt_eq_some.mpr
          ⟨(hu.owners _).trans howner,hu.config',hu.effect.config_isInitialized.trans hinit⟩
        exact .updated hu.vaultKey hconfig hconfig' hbefore hafter hu.effect hrest

theorem settling_refines {s : Ledger} (hf : (systemOf h s.bank).Founded)
    (hs : (program h).Settling (AtConfig h) (Funded h) s a t) :
    System.Step a (systemOf h s.bank) (systemOf h t.bank) := by
  cases hs with
  | step hs => exact step_refines hf hs
  | settle hkept =>
    exact .quiet (recordAt_settle_of config_size (by decide) hkept.1)
      fun k => recordAt_settle_of vault_size (by decide) (hkept.2 k)

theorem initialize_refines {h : Host} {s : Ledger} {c : Call Instruction}
    (h0 : Untouched h.programId s.bank)
    (hi : ∃ oracleFeed pusdMint,c.instruction=.initializeSystem oracleFeed pusdMint)
    (hs : (program h).Step (AtConfig h) s (.call c) t) :
    (systemOf h t.bank).Founded ∧ (∀ k,(systemOf h t.bank).vaults k=none) ∧
      ∃ g,(systemOf h t.bank).config=some g ∧ g.totalPusdSupply=0#64 ∧
        g.totalCollateralLocked=0#64 := by
  obtain ⟨_,hf⟩ := untouched_founded h0
  have habstract := step_refines hf hs
  refine ⟨hf.step habstract,?_⟩
  obtain ⟨o,m,hinstr⟩ := hi
  cases hs with
  | call _ _ he =>
    cases execute_spec he with
    | initialized hi =>
      refine ⟨fun k => ?_,_,configAt_eq_some.mpr ⟨hi.owned',hi.config',hi.active⟩,hi.empty.1,
        hi.empty.2.1⟩
      exact (hi.book k).trans (untouched_book h0 k)
    | opened ho =>
      obtain ⟨_,hopen⟩ := ho.instruction
      rw [hinstr] at hopen
      cases hopen
    | updated hu =>
      have hkey := hu.vaultKey
      rw [hinstr] at hkey
      cases hkey

/-- Along a run that is always passed the config and drops none of the program's accounts, an
invariant of the abstract system and of what has happened holds if its steps keep it. -/
theorem run_refines {h : Host} {s t : Ledger} {tr : Trace Instruction}
    {J : Trace Instruction → System → Prop} (hfound : (systemOf h s.bank).Founded)
    (hstart : J [] (systemOf h s.bank))
    (hstep : ∀ {tr : Trace Instruction} {t u : Ledger} {a : Action Instruction},
      J tr (systemOf h t.bank) → (systemOf h t.bank).Founded →
      System.Step a (systemOf h t.bank) (systemOf h u.bank) →
      J (tr++[⟨t,a,u⟩]) (systemOf h u.bank))
    (hrun : Run ((program h).Settling (AtConfig h) (Funded h)) s tr t) :
    J tr (systemOf h t.bank) ∧ (systemOf h t.bank).Founded := by
  refine hrun.traced (I := fun tr t => J tr (systemOf h t.bank) ∧ (systemOf h t.bank).Founded)
    ⟨hstart,hfound⟩ ?_
  intro tr t a u _ hi hs
  have habstract := settling_refines hi.2 hs
  exact ⟨hstep hi.1 hi.2 habstract,hi.2.step habstract⟩

end PrismChain.Pusd
