import PrismChain.Programs.Pusd.Transition

namespace PrismChain.Pusd

open FixedWidth

def vaultAt (h : Host) (b : Bank) (k : Pubkey) : Option Vault :=
  recordAt vaultCodec Vault.isInitialized h.programId b k

def configAt (h : Host) (b : Bank) : Option PusdConfig :=
  recordAt configCodec PusdConfig.isInitialized h.programId b (configPda h)

theorem vault_marked : Marked vaultCodec Vault.isInitialized := by
  intro v hinit
  change 1#8∈Codec.bool.encode v.isInitialized++_
  rw [hinit]
  exact List.mem_append_left _ (by decide)

theorem config_marked : Marked configCodec PusdConfig.isInitialized := by
  intro g hinit
  change 1#8∈Codec.bool.encode g.isInitialized++_
  rw [hinit]
  exact List.mem_append_left _ (by decide)

section Lookup

theorem vaultAt_eq_some : vaultAt h b k=some v ↔
    (b k).owner=h.programId ∧ (b k).data=vaultCodec.encode v ∧ v.isInitialized=true :=
  recordAt_eq_some

theorem configAt_eq_some : configAt h b=some g ↔ (b (configPda h)).owner=h.programId ∧
    (b (configPda h)).data=configCodec.encode g ∧ g.isInitialized=true :=
  recordAt_eq_some

theorem vaultAt_of_config (hg : (b k).data=configCodec.encode g) : vaultAt h b k=none :=
  recordAt_eq_none fun v _ hv _ => config_ne_vault g v (hg.symm.trans hv)

theorem vaultAt_of_empty (hd : (b k).data=[]) : vaultAt h b k=none :=
  recordAt_of_empty vault_size (by decide) hd

theorem vaultAt_congr (howner : (b' k).owner=(b k).owner) (hdata : (b' k).data=(b k).data) :
    vaultAt h b' k=vaultAt h b k :=
  recordAt_congr howner hdata

end Lookup

section Changes

variable {h : Host} {v : Vault}

theorem pay_spec (hpay : v.pay subtract amount=.ok w) :
    w.isInitialized=v.isInitialized ∧ w.collateral=v.collateral ∧
      w.lastFeeUpdate=v.lastFeeUpdate := by
  unfold Vault.pay at hpay
  split at hpay
  · simp only [steps_ok] at hpay
    obtain ⟨_,_,rfl⟩ := hpay
    exact ⟨rfl,rfl,rfl⟩
  · simp only [steps_ok] at hpay
    obtain ⟨_,_,_,_,rfl⟩ := hpay
    exact ⟨rfl,rfl,rfl⟩

theorem Effect.isInitialized (he : Effect now oracle pool i v g v' g' out) :
    v'.isInitialized=v.isInitialized := by
  cases he with
  | deposit => rfl
  | mint => exact v.accrueFee_isInitialized now
  | burn _ _ hpay => exact (pay_spec hpay).1.trans (v.accrueFee_isInitialized now)
  | withdraw => exact v.accrueFee_isInitialized now
  | liquidate => exact v.accrueFee_isInitialized now
  | redeem _ _ _ _ _ _ hpay => exact (pay_spec hpay).1.trans (v.accrueFee_isInitialized now)

theorem totalSeize_le (hs : totalSeize v price=.ok seize) : seize.toNat≤v.collateral.toNat := by
  simp only [totalSeize,steps_ok,lift_eq_ok] at hs
  obtain ⟨_,_,_,_,_,_,rfl⟩ := hs
  rw [toNat_umin]
  exact min_le_right _ _

theorem Effect.collateral (he : Effect now oracle pool i v g v' g' out) :
    v'.collateral.toNat+out.toNat=v.collateral.toNat+i.paidIn.toNat := by
  cases he with
  | deposit _ hcollateral =>
    have hsum := checkedAdd_eq_some.mp hcollateral
    change _+0=_
    exact hsum
  | mint => simp [Instruction.paidIn]
  | burn _ _ hpay => simp [Instruction.paidIn,(pay_spec hpay).2.1]
  | withdraw _ _ _ _ hcollateral =>
    have hsum := checkedSub_eq_some.mp hcollateral
    rw [Vault.accrueFee_collateral] at hsum
    exact hsum.symm
  | @liquidate _ _ _ _ seize _ _ _ hseize =>
    have hle := totalSeize_le hseize
    rw [Vault.accrueFee_collateral] at hle
    have hmin : (umin seize pool).toNat≤ seize.toNat := by
      rw [toNat_umin]
      exact min_le_left _ _
    change (saturatingSub (v.accrueFee now).collateral (umin seize pool)).toNat+_=_+0
    rw [toNat_saturatingSub,Vault.accrueFee_collateral]
    omega
  | redeem _ _ _ _ hcollateral _ hpay =>
    rw [Vault.accrueFee_collateral] at hcollateral
    change (saturatingSub _ out).toNat+_=_+0
    rw [toNat_saturatingSub,(pay_spec hpay).2.1,Vault.accrueFee_collateral]
    omega

theorem Updated.book (hu : Updated h c b b' vk ck v v' g g' out) :
    vaultAt h b vk=some v ∧ vaultAt h b' vk=some v' ∧ ∀ k,k≠vk → vaultAt h b' k=vaultAt h b k := by
  refine ⟨vaultAt_eq_some.mpr ⟨hu.vaultOwned,hu.vault,hu.isOpen⟩,
    vaultAt_eq_some.mpr ⟨(hu.owners vk).trans hu.vaultOwned,hu.vault',?_⟩,?_⟩
  · rw [hu.effect.isInitialized]
    exact hu.isOpen
  intro k hk
  by_cases hc : k=ck
  · subst hc
    rw [vaultAt_of_config hu.config',vaultAt_of_config hu.config]
  · exact vaultAt_congr (hu.owners k) (hu.others k hk hc)

theorem Opened.book (ho : Opened h c b b' vk ck amount v g g') :
    vaultAt h b vk=none ∧ vaultAt h b' vk=some v ∧ ∀ k,k≠vk → vaultAt h b' k=vaultAt h b k := by
  refine ⟨vaultAt_of_empty ho.vaultFresh.1,
    vaultAt_eq_some.mpr ⟨ho.vaultOwned',ho.vault',ho.values.1⟩,?_⟩
  intro k hk
  by_cases hp : k=collateralPda h vk
  · subst hp
    rw [vaultAt_of_empty ho.poolData',vaultAt_of_empty ho.poolFresh.1]
  · by_cases hc : k=ck
    · subst hc
      rw [vaultAt_of_config ho.config',vaultAt_of_config ho.config]
    · exact vaultAt_congr (ho.owners k hk hp) (ho.others k hk hp hc)

theorem Initialized.book (hi : Initialized h c b b' g) (k : Pubkey) :
    vaultAt h b' k=vaultAt h b k := by
  by_cases hk : k=configPda h
  · subst hk
    rw [vaultAt_of_config hi.config',vaultAt_of_empty hi.fresh.1]
  · exact vaultAt_congr (hi.others k hk).2 (hi.others k hk).1

theorem outside_book (hout : Outside h.programId b b') (k : Pubkey) :
    vaultAt h b' k=vaultAt h b k :=
  hout.records vault_marked k

theorem untouched_book (h0 : Untouched h.programId b) (k : Pubkey) : vaultAt h b k=none :=
  h0.records vault_marked k

end Changes

end PrismChain.Pusd
