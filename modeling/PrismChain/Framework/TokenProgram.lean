import PrismChain.Framework.Spl

namespace PrismChain

open FixedWidth List

namespace TokenAccount

def withAmount (d : List Byte) (n : U64) : List Byte := d.take 64++leBytes 8 n.toNat++d.drop 72

section Fields

variable {d : List Byte}

theorem withAmount_length (h : d.length=len) : (withAmount d n).length=len := by
  simp only [withAmount,length_append,length_take,leBytes_length,length_drop,h,len]
  omega

theorem field_after (h : d.length=len) (hi : 72≤ i) : field (withAmount d n) i m=field d i m := by
  have hfront : (d.take 64++leBytes 8 n.toNat).length=72 := by
    rw [length_append,length_take,leBytes_length,h]
    rfl
  have hdrop : (withAmount d n).drop i=d.drop i := by
    rw [withAmount,drop_append,hfront,drop_eq_nil_of_le (hfront.trans_le hi),nil_append,drop_drop]
    congr 1
    omega
  rw [field,field,hdrop]

theorem field_before (h : d.length=len) (hi : i+m≤64) : field (withAmount d n) i m=field d i m := by
  have hfront : (d.take 64).length=64 := by
    rw [length_take,h]
    rfl
  have hslice : ((withAmount d n).drop i).take m=(d.drop i).take m := by
    rw [withAmount,append_assoc,drop_append_of_le_length (by omega),
      take_append_of_le_length (by rw [length_drop]; omega),drop_take,take_take,
      Nat.min_eq_left (by omega)]
  rw [field,field,hslice]

theorem field_amount (h : d.length=len) : field (withAmount d n) 64 8=n.toNat := by
  have hfront : (d.take 64).length=64 := by
    rw [length_take,h]
    rfl
  have hn := n.isLt
  have hslice : ((withAmount d n).drop 64).take 8=leBytes 8 n.toNat := by
    rw [withAmount,append_assoc,drop_append,hfront,
      drop_eq_nil_of_le hfront.le,nil_append,Nat.sub_self,drop_zero,
      take_append_of_le_length (by rw [leBytes_length]),
      take_of_length_le (by rw [leBytes_length])]
  rw [field,hslice,leValue_leBytes]
  omega

end Fields

theorem unpack_withAmount (n : U64) (h : unpack d=.ok a) :
    unpack (withAmount d n)=.ok {a with amount := n} := by
  simp only [unpack,steps_ok] at h ⊢
  obtain ⟨-,hlen,-,⟨h1,h2,h3,h4⟩,-,h5,rfl⟩ := h
  refine ⟨(),withAmount_length hlen,(),⟨?_,?_,?_,?_⟩,(),?_,?_⟩
  · rw [field_after hlen (by omega)]
    exact h1
  · rw [field_after hlen (by omega)]
    exact h2
  · rw [field_after hlen (by omega)]
    exact h3
  · rw [field_after hlen (by omega)]
    exact h4
  · rw [field_after hlen (by omega)]
    exact h5
  · rw [field_before hlen (by omega),field_before hlen (by omega),field_amount hlen]
    simp

end TokenAccount

namespace TokenProgram

open TokenAccount (withAmount)

def setAmount (b : Bank) (k : Pubkey) (n : U64) : Bank := b.setData k (withAmount (b k).data n)

def mintAuthority (b : Bank) (k : Pubkey) : Option Pubkey :=
  let d := (b k).data
  if ((b k).owner=splToken ∧ d.length=mintLen) ∧ TokenAccount.field d 45 1=1 ∧
    TokenAccount.field d 0 4=1 then
    some (BitVec.ofNat 256 (TokenAccount.field d 4 32))
  else none

def packMint (authority : Pubkey) : List Byte :=
  [1#8,0#8,0#8,0#8]++authority.bytes++List.replicate 9 0#8++[1#8]++List.replicate 36 0#8

def transfer (src dst authority : Pubkey) (n : U64) (b : Bank) : Except ProgramError Bank := do
  let a ← okOr (tokenIn b src) .invalidAccountData
  let c ← okOr (tokenIn b dst) .invalidAccountData
  require (n.toNat≤a.amount.toNat) (.custom 1)
  require (a.mint=c.mint) (.custom 3)
  require (a.owner=authority) (.custom 4)
  if src=dst then pure b
  else do
    let credit ← okOr (checkedAdd c.amount n) (.custom 14)
    pure (setAmount (setAmount b src (a.amount-n)) dst credit)

/-- The supply that the mint records is left out: nothing reads it. -/
def mintTo (mint dst authority : Pubkey) (n : U64) (b : Bank) : Except ProgramError Bank := do
  let c ← okOr (tokenIn b dst) .invalidAccountData
  require (c.mint=mint) (.custom 3)
  require (mintAuthority b mint=some authority) (.custom 4)
  let credit ← okOr (checkedAdd c.amount n) (.custom 14)
  pure (setAmount b dst credit)

def burn (src mint authority : Pubkey) (n : U64) (b : Bank) : Except ProgramError Bank := do
  let a ← okOr (tokenIn b src) .invalidAccountData
  require (n.toNat≤a.amount.toNat) (.custom 1)
  require (a.mint=mint) (.custom 3)
  require (a.owner=authority) (.custom 4)
  require ((b mint).owner=splToken ∧ (b mint).data.length=mintLen) .incorrectProgramId
  pure (setAmount b src (a.amount-n))

def process (p : Pubkey) (d : List Byte) (ks : List Pubkey) (b : Bank) : Except ProgramError Bank :=
  match d,ks with
  | index::amount,[first,second,authority] =>
    let n : U64 := BitVec.ofNat 64 (leValue amount)
    if p≠splToken then .error .incorrectProgramId
    else if index=transferIndex then transfer first second authority n b
    else if index=mintToIndex then mintTo first second authority n b
    else if index=burnIndex then burn first second authority n b
    else .error .invalidInstructionData
  | _,_ => .error .invalidInstructionData

section Laws

variable {b : Bank} {k j mint : Pubkey} {a : TokenAccount} {n : U64}

theorem setAmount_other (h : j≠k) : setAmount b k n j=b j := Function.update_of_ne h _ _

theorem setAmount_owner (b : Bank) (k j : Pubkey) (n : U64) :
    (setAmount b k n j).owner=(b j).owner :=
  b.setData_owner k j _

theorem tokenIn_setAmount (ha : tokenIn b k=some a) :
    tokenIn (setAmount b k n) k=some {a with amount := n} := by
  obtain ⟨howner,hread⟩ := tokenIn_eq_some.mp ha
  refine tokenIn_eq_some.mpr ⟨(setAmount_owner b k k n).trans howner,?_⟩
  rw [setAmount,Bank.setData_same]
  exact TokenAccount.unpack_withAmount n hread

theorem holding_setAmount (ha : tokenIn b k=some a) (j : Pubkey) :
    (tokenIn (setAmount b k n) j).map TokenAccount.holding=
    (tokenIn b j).map TokenAccount.holding := by
  by_cases hj : j=k
  · rw [hj,tokenIn_setAmount ha,ha]
    rfl
  · rw [tokenIn_congr (setAmount_other hj)]

theorem tokenAmount_setAmount (ha : tokenIn b k=some a) (j : Pubkey) :
    tokenAmount (setAmount b k n) j=if j=k then n.toNat else tokenAmount b j := by
  by_cases hj : j=k
  · rw [hj,tokenAmount_of (tokenIn_setAmount ha),if_pos rfl]
  · rw [if_neg hj,tokenAmount,tokenIn_congr (setAmount_other hj)]
    rfl

theorem transfer_spec (h : transfer src dst authority n b=.ok b') :
    TokensMoved b b' src dst n.toNat := by
  simp only [transfer,steps_ok] at h
  obtain ⟨a,ha,c,hc,-,hle,-,hmint,-,-,h⟩ := h
  have haccounts : ∃ a c,tokenIn b src=some a ∧ tokenIn b dst=some c ∧ a.mint=c.mint ∧
      n.toNat≤a.amount.toNat := ⟨a,c,ha,hc,hmint,hle⟩
  by_cases hself : src=dst
  · rw [if_pos hself,pure_eq_ok] at h
    subst h
    exact ⟨haccounts,fun k => by rw [hself],fun _ => rfl,fun _ _ _ => rfl⟩
  · rw [if_neg hself] at h
    simp only [steps_ok] at h
    obtain ⟨_,hcredit,rfl⟩ := h
    have hc' : tokenIn (setAmount b src (a.amount-n)) dst=some c := by
      rw [tokenIn_congr (setAmount_other (Ne.symm hself))]
      exact hc
    refine ⟨haccounts,fun k => ?_,fun k => ?_,fun k hs hd => ?_⟩
    · have hsum := checkedAdd_eq_some.mp hcredit
      have hdiff : (a.amount-n).toNat=a.amount.toNat-n.toNat :=
        BitVec.toNat_sub_of_le (BitVec.le_def.mpr hle)
      rw [tokenAmount_setAmount hc',tokenAmount_setAmount ha]
      by_cases hd : k=dst
      · subst hd
        rw [if_pos rfl,if_neg (Ne.symm hself),if_pos rfl,tokenAmount_of hc]
        omega
      · rw [if_neg hd,if_neg hd]
        by_cases hs : k=src
        · rw [hs,if_pos rfl,if_pos rfl,tokenAmount_of ha]
          omega
        · rw [if_neg hs,if_neg hs]
    · rw [holding_setAmount hc',holding_setAmount ha]
    · rw [setAmount_other hd,setAmount_other hs]

theorem mintAuthority_mint (h : mintAuthority b mint=some authority) :
    (b mint).owner=splToken ∧ (b mint).data.length=mintLen := by
  unfold mintAuthority at h
  dsimp only at h
  split_ifs at h with hmint
  exact hmint.1

theorem mintTo_spec (h : mintTo mint dst authority n b=.ok b') :
    TokensMinted b b' mint dst n.toNat := by
  simp only [mintTo,steps_ok] at h
  obtain ⟨c,hc,-,hmint,-,hauthority,_,hcredit,rfl⟩ := h
  refine ⟨⟨c,hc,hmint⟩,mintAuthority_mint hauthority,fun k => ?_,holding_setAmount hc,
    fun k _ hd => setAmount_other hd⟩
  have hsum := checkedAdd_eq_some.mp hcredit
  rw [tokenAmount_setAmount hc]
  by_cases hd : k=dst
  · rw [if_pos hd,if_pos hd,hsum,hd,tokenAmount_of hc]
  · rw [if_neg hd,if_neg hd,Nat.add_zero]

theorem burn_spec (h : burn src mint authority n b=.ok b') :
    TokensBurned b b' src mint n.toNat := by
  simp only [burn,steps_ok] at h
  obtain ⟨a,ha,-,hle,-,hmint,-,-,-,howned,rfl⟩ := h
  refine ⟨⟨a,ha,hmint,hle⟩,howned,fun k => ?_,holding_setAmount ha,fun k hs _ => setAmount_other hs⟩
  have hdiff : (a.amount-n).toNat=a.amount.toNat-n.toNat :=
    BitVec.toNat_sub_of_le (BitVec.le_def.mpr hle)
  rw [tokenAmount_setAmount ha]
  by_cases hs : k=src
  · rw [if_pos hs,if_pos hs,hs,tokenAmount_of ha]
    omega
  · rw [if_neg hs,if_neg hs,Nat.add_zero]

theorem setAmount_outside {id : Pubkey} (hne : id≠splToken) (ha : tokenIn b k=some a) :
    Outside id b (setAmount b k n) := by
  intro j
  refine ⟨fun hmine => ⟨(setAmount_owner b k j n).trans hmine,?_,?_⟩,fun hother hmine => ?_⟩
  · have hj : j≠k := by
      rintro rfl
      exact hne (hmine.symm.trans (tokenIn_eq_some.mp ha).1)
    rw [setAmount_other hj]
  · rw [setAmount,Bank.setData_lamports]
  · exact absurd ((setAmount_owner b k j n).symm.trans hmine) hother

theorem process_confined {id : Pubkey} (hne : id≠splToken) (h : process p d ks b=.ok b') :
    Outside id b b' ∧ ∀ k,k∉ks → b' k=b k := by
  unfold process at h
  split at h
  case h_2 => cases h
  rename_i amount first second authority
  dsimp only at h
  have hlisted {k} (hk : k∉[first,second,authority]) : k≠first ∧ k≠second := by
    simp only [mem_cons,not_or] at hk
    exact ⟨hk.1,hk.2.1⟩
  split_ifs at h
  · refine ⟨?_,fun k hk => (transfer_spec h).others k (hlisted hk).1 (hlisted hk).2⟩
    simp only [transfer,steps_ok] at h
    obtain ⟨a,ha,c,hc,-,-,-,-,-,-,h⟩ := h
    split_ifs at h with hself
    · rw [pure_eq_ok] at h
      rw [← h]
      exact Outside.refl id b
    · simp only [steps_ok] at h
      obtain ⟨credit,-,rfl⟩ := h
      have hc' : tokenIn (setAmount b first (a.amount-BitVec.ofNat 64 (leValue amount))) second=
          some c := by
        rw [tokenIn_congr (setAmount_other (Ne.symm hself))]
        exact hc
      exact (setAmount_outside hne ha).trans (setAmount_outside hne hc')
  · refine ⟨?_,fun k hk => (mintTo_spec h).others k (hlisted hk).1 (hlisted hk).2⟩
    simp only [mintTo,steps_ok] at h
    obtain ⟨c,hc,-,-,-,-,credit,-,rfl⟩ := h
    exact setAmount_outside hne hc
  · refine ⟨?_,fun k hk => (burn_spec h).others k (hlisted hk).1 (hlisted hk).2⟩
    simp only [burn,steps_ok] at h
    obtain ⟨a,ha,-,-,-,-,-,-,-,-,rfl⟩ := h
    exact setAmount_outside hne ha

end Laws
end TokenProgram

/-- A runtime on which the token program is the only other program. -/
def Host.withTokens (h : Host) (hne : h.programId≠splToken) : Deployment where
  toHost := h
  callee := TokenProgram.process
  confined := fun hcall => TokenProgram.process_confined hne hcall

theorem Host.withTokens_spl (h : Host) (hne : h.programId≠splToken) :
    (h.withTokens hne).SplToken := by
  have hamount (n : U64) : BitVec.ofNat 64 (leValue (leBytes 8 n.toNat))=n := by
    have hn := n.isLt
    rw [leValue_leBytes,Nat.mod_eq_of_lt (by omega),BitVec.ofNat_toNat,BitVec.setWidth_eq]
  have hmint : mintToIndex≠transferIndex := by decide
  have hburn : burnIndex≠transferIndex ∧ burnIndex≠mintToIndex := by decide
  refine ⟨?_,?_,?_⟩
  · intro src dst authority n b b' hcall
    simp only [withTokens,TokenProgram.process,Deployment.tokenData,hamount,ne_eq,not_true_eq_false,
      if_false,if_true] at hcall
    exact TokenProgram.transfer_spec hcall
  · intro mint dst authority n b b' hcall
    simp only [withTokens,TokenProgram.process,Deployment.tokenData,hamount,ne_eq,not_true_eq_false,
      if_false,if_true,hmint] at hcall
    exact TokenProgram.mintTo_spec hcall
  · intro src mint authority n b b' hcall
    simp only [withTokens,TokenProgram.process,Deployment.tokenData,hamount,ne_eq,not_true_eq_false,
      if_false,if_true,hburn.1,hburn.2] at hcall
    exact TokenProgram.burn_spec hcall

end PrismChain
