import PrismChain.Programs.SolLend.Transition

namespace PrismChain.SolLend

open List

def Usable (data : List Byte) : Prop :=
  ∃ m,marketCodec.tryFromSlice data=some m ∧ m.ltvRatio=ltvRatioBps ∧
    m.liquidationThreshold=liquidationThresholdBps ∧ m.liquidationBonus=liquidationBonusBps ∧
    m.cumulativeDepositIndex=indexScale ∧ m.cumulativeBorrowIndex=indexScale

def zeroMarket : LendingMarket :=
  ⟨false,0#256,0#256,0#64,0#64,0#64,0#64,0#64,0#64,0#64,0#64,0#64,0#64,0#64⟩

theorem zeroMarket_encode : marketCodec.encode zeroMarket=replicate marketLen 0#8 := by
  decide +kernel

section Reading

variable {data : List Byte}

theorem zeros_read (hlen : data.length=marketLen) (hz : ∀ x∈data,x=0#8) :
    marketCodec.tryFromSlice data=some zeroMarket := by
  rw [Codec.tryFromSlice_eq_some,zeroMarket_encode]
  exact eq_replicate_iff.mpr ⟨hlen,hz⟩

theorem unread_of_length (hlen : data.length≠marketLen) : marketCodec.tryFromSlice data=none := by
  cases hm : marketCodec.tryFromSlice data with
  | none => rfl
  | some m =>
    rw [Codec.tryFromSlice_eq_some] at hm
    exact absurd (by rw [hm]; exact market_size m) hlen

end Reading

section Opening

variable {id mk : Pubkey}

theorem Opened.blank (o : Opened id c b b' mk authority tokenMint m)
    (hlen : (b mk).data.length=marketLen)
    (hz : ∀ x∈(b mk).data,x=0#8) : marketCodec.tryFromSlice (b' mk).data=
      some (openedMarket zeroMarket authority tokenMint c.clock.slot) := by
  have hread := o.read
  rw [zeros_read hlen hz,Option.getD_some] at hread
  rw [Codec.tryFromSlice_eq_some,o.market',hread,drop_of_length_le hlen.le,append_nil]

theorem Opened.unread (o : Opened id c b b' mk authority tokenMint m)
    (hlen : (b mk).data.length≠marketLen) : marketCodec.tryFromSlice (b' mk).data=none := by
  refine unread_of_length ?_
  have hroom := o.room
  rw [o.market',length_append,market_size,length_drop]
  omega

theorem Opened.unusable (o : Opened id c b b' mk authority tokenMint m)
    (hz : ∀ x∈(b mk).data,x=0#8) : ¬Usable (b' mk).data := by
  rintro ⟨_,hread,hltv,-⟩
  by_cases hlen : (b mk).data.length=marketLen
  · rw [o.blank hlen hz] at hread
    rw [← Option.some.inj hread] at hltv
    have hzero : 0#64=ltvRatioBps := hltv
    cases hzero
  · rw [o.unread hlen] at hread
    cases hread

end Opening

/-- No account that starts out with zeros, of whatever length, becomes a usable market. -/
theorem no_market_usable {id mk : Pubkey} {c : Call Instruction} {b b' : Bank}
    (hc : c.instruction=.initializeMarket) (hkey : c.key? 0=some mk)
    (hz : ∀ x∈(b mk).data,x=0#8) (hx : (program id).execute c b=.ok b') :
    ¬Usable (b' mk).data := by
  cases execute_spec hx with
  | opened _ o =>
    cases o.marketKey.symm.trans hkey
    exact o.unusable hz
  | changed u =>
    have heffect := u.effect
    rw [hc] at heffect
    cases heffect
  | cranked hcrank =>
    rw [hc] at hcrank
    cases hcrank

def zeroedBank (n : Nat) : Bank := fun k =>
  if k=3#256 then ⟨1000000#64,List.replicate n 0#8,1#256⟩ else ⟨0#64,[],systemProgram⟩

def openCall : Call Instruction :=
  ⟨⟨5#64,0#64⟩,[⟨3#256,false,true⟩,⟨2#256,true,false⟩,⟨4#256,false,false⟩],.initializeMarket⟩

theorem longer_market_unusable : ∃ b',(program 1#256).execute openCall (zeroedBank 160)=.ok b' ∧
    ¬Usable (b' 3#256).data := by
  have hok : ((program 1#256).execute openCall (zeroedBank 160)).isOk=true := by decide +kernel
  have hx := eq_ok_of_isOk (zeroedBank 160) hok
  exact ⟨_,hx,no_market_usable rfl rfl (fun x hx => eq_of_mem_replicate hx) hx⟩

/-- An account of exactly the documented length is opened with a loan-to-value ratio and indices of
zero. -/
theorem sized_market_blank : ∃ b',(program 1#256).execute openCall (zeroedBank 153)=.ok b' ∧
    marketCodec.tryFromSlice (b' 3#256).data=
      some ⟨true,2#256,4#256,0#64,0#64,0#64,0#64,5#64,0#64,0#64,0#64,0#64,0#64,0#64⟩ ∧
    ¬Usable (b' 3#256).data := by
  obtain ⟨b',hb',hread⟩ :
    ∃ b',((program 1#256).execute openCall (zeroedBank 153)).toOption=some b' ∧
      marketCodec.tryFromSlice (b' 3#256).data=some
        ⟨true,2#256,4#256,0#64,0#64,0#64,0#64,5#64,0#64,0#64,0#64,0#64,0#64,0#64⟩ := by
      decide +kernel
  refine ⟨b',toOption_eq_some.mp hb',hread,?_⟩
  rintro ⟨m,hm,hltv,-⟩
  rw [hread] at hm
  rw [← Option.some.inj hm] at hltv
  cases hltv

end PrismChain.SolLend
