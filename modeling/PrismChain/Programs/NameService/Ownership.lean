import PrismChain.Programs.NameService.Processor

namespace PrismChain.NameService

open FixedWidth Codec Option List Program

/-- The name that stands at the front of an account of the program, whatever follows it. -/
def nameAt (h : Host) (b : Bank) (k : Pubkey) : Option Name :=
  if (b k).owner=h.programId then nameCodec.front (b k).data else none

/-- Name addresses are no others of the program. -/
structure Separate (h : Host) : Prop where
  registry : ∀ x,(namePda h x).1≠(registryPda h).1
  reverse : ∀ x owner,(namePda h x).1≠(reversePda h owner).1
  subdomain : ∀ x label y,(namePda h x).1≠(subdomainPda h label y).1

/-- A live name at its own address. -/
structure Registered (h : Host) (b : Bank) (k : Pubkey) (n : Name) : Prop where
  name : nameAt h b k=some n
  live : n.isInitialized=true
  place : ∃ x,(namePda h x).1=k

/-- A registered name is passed to `RegisterName` only in an account that it fills, and not to
`DeleteSubdomain`. -/
structure Clean (h : Host) (b : Bank) (c : Call Instruction) : Prop where
  filled : ∀ {name k n},c.instruction=.registerName name → c.key? 1=some k →
    Registered h b k n → (b k).data=nameCodec.encode n
  subdomain : ∀ {k n},c.instruction=.deleteSubdomain → c.key? 1=some k → ¬Registered h b k n

/-- How a name can change hands. -/
inductive Fate (c : Call Instruction) (k : Pubkey) (n n' : Name) : Prop
  | kept (howner : n'.owner=n.owner)
  | transferred (hc : c.instruction=.transferName n'.owner) (hk : c.key? 0=some k)
      (hsigned : ∃ info∈c.accounts,info.key=n.owner ∧ info.isSigner=true)
  | expired (hexpired : n.expiresAt.toInt+gracePeriodSecs.toInt≤c.clock.unixTimestamp.toInt)

section Writes

variable {h : Host} {b : Bank} {f g : Frame} {k : Pubkey} {n : Name}

theorem nameAt_eq_some : nameAt h b k=some n ↔
    (b k).owner=h.programId ∧ nameCodec.front (b k).data=some n := by
  unfold nameAt
  by_cases ho : (b k).owner=h.programId <;> simp [ho]

theorem name_long (hn : nameAt h b k=some n) : 91≤(b k).data.length := by
  obtain ⟨_,hdata⟩ := (nameCodec.front_eq_some).mp (nameAt_eq_some.mp hn).2
  have hname := vec_length (c := u8) (uint_size 1) n.name
  have hrecords : 4≤((vec recordCodec).encode n.records).length := by
    change 4≤(u32.encode _++_).length
    rw [length_append,u32_length]
    omega
  rw [hdata,length_append]
  simp only [nameCodec,record_length,pair_length,bool_length,uint_length,pubkey_length,i64_length,
    u8_length,hname]
  omega

theorem short_ne {α : Type} {a : α} {c : Codec α} {size : Nat} (hn : nameAt h b k=some n)
    (hc : c.HasSize size) (hsize : size<91) (hload : c.tryFromSlice (b j).data=some a) : k≠j := by
  rintro rfl
  have hlong := name_long hn
  rw [c.tryFromSlice_eq_some.mp hload,hc a] at hlong
  omega

theorem registry_size : registryCodec.HasSize 74 := fun _ => by simp [registryCodec]

theorem reverse_size : reverseCodec.HasSize 66 := fun _ => by simp [reverseCodec]

theorem save_other {α : Type} {s : Storage α} {a : α} (hsave : f.save s a j=.ok g) (hk : k≠j) :
    g.view k=f.view k := by
  obtain ⟨d,-,rfl⟩ := Frame.save_eq_ok.mp hsave
  exact Function.update_of_ne hk _ _

theorem nameAt_congr (hk : b' k=b k) : nameAt h b' k=nameAt h b k := by
  unfold nameAt
  rw [hk]

theorem nameAt_saved (hsave : f.save (.inPlace nameCodec) m' k=.ok g)
    (howner : (f.view k).owner=h.programId) : nameAt h g.view k=some m' := by
  obtain ⟨d,hd,rfl⟩ := Frame.save_eq_ok.mp hsave
  refine nameAt_eq_some.mpr ⟨by rw [Bank.setData_owner]; exact howner,?_⟩
  rw [Bank.setData_same,nameCodec.front_eq_some]
  change nameCodec.writeTo m' _=some d at hd
  unfold writeTo at hd
  split_ifs at hd
  exact ⟨_,(some.inj hd).symm⟩

theorem load_eq_ok {α : Type} {s : Storage α} {a : α} :
    load s f k=.ok a ↔ s.load (f.view k).data=some a := okOr_eq_ok

theorem loadOwned_eq_ok {fm : Formats} {owner : Pubkey} :
    loadOwned fm f k owner=.ok n ↔ fm.name.load (f.view k).data=some n ∧ n.owner=owner := by
  simp only [loadOwned,steps_ok,load_eq_ok]
  constructor
  · rintro ⟨n,hload,_,howner,rfl⟩
    exact ⟨hload,howner⟩
  · rintro ⟨hload,howner⟩
    exact ⟨n,hload,(),howner,rfl⟩

theorem deadline_eq_ok {t : I64} :
    n.deadline=.ok t ↔ t.toInt=n.expiresAt.toInt+gracePeriodSecs.toInt :=
  okOr_eq_ok.trans checkedAddSigned_eq_some

theorem available_expired {clock : Clock} (hc : checkAvailable .borsh clock (b k).data=.ok ())
    (hdata : (b k).data=nameCodec.encode n) (hlive : n.isInitialized=true) :
    n.expiresAt.toInt+gracePeriodSecs.toInt≤clock.unixTimestamp.toInt := by
  have hload : Formats.borsh.name.load (b k).data=some n := nameCodec.tryFromSlice_eq_some.mpr hdata
  rw [checkAvailable,hload] at hc
  simp only [hlive,if_true,steps_ok,deadline_eq_ok] at hc
  obtain ⟨_,hdeadline,hnow⟩ := hc
  exact hdeadline ▸ hnow

/-- What a call makes of the name at `k`. -/
abbrev Continues (h : Host) (b' : Bank) (c : Call Instruction) (k : Pubkey) (n : Name) : Prop :=
  ∃ n',Registered h b' k n' ∧ Fate c k n n'

theorem Registered.same (hr : Registered h b k n) (hg : g.view k=b k) :
    Continues h g.view c k n :=
  ⟨n,⟨(nameAt_congr hg).trans hr.name,hr.live,hr.place⟩,.kept rfl⟩

theorem Registered.rewritten (hr : Registered h b k n) (hkept : f.view k=b k)
    (hload : nameCodec.tryFromSlice (b j).data=some m)
    (hsave : f.save (.inPlace nameCodec) m' j=.ok g)
    (hinit : m'.isInitialized=m.isInitialized) (hfate : k=j → m=n → Fate c k n m') :
    Continues h g.view c k n := by
  by_cases hk : k=j
  · subst hk
    obtain ⟨howner,hfront⟩ := nameAt_eq_some.mp hr.name
    rw [nameCodec.tryFromSlice_eq_some.mp hload,nameCodec.front_eq_some] at hfront
    obtain ⟨_,hrest⟩ := hfront
    obtain ⟨rfl,-⟩ := nameCodec.encode_append_inj ((append_nil _).trans hrest)
    exact ⟨m',
      ⟨nameAt_saved hsave (by rw [hkept]; exact howner),hinit.trans hr.live,hr.place⟩,hfate rfl rfl⟩
  · exact hr.same ((save_other hsave hk).trans hkept)

theorem registerName_fate {hash : List Byte → BitVec 256} (hr : Registered h b (namePda h x).1 n)
    (hclean : Clean h b ⟨clock,accounts,.registerName name⟩)
    (hp : processRegisterName h hash .borsh clock accounts name ⟨b,b⟩=.ok f) :
    Continues h f.view ⟨clock,accounts,.registerName name⟩ (namePda h x).1 n := by
  unfold processRegisterName at hp
  split at hp <;> simp only [steps_ok,load_eq_ok] at hp
  rename_i nameInfo _ _ _ _ _ rest
  obtain ⟨_,-,_,-,_,-,_,hkey,_,havailable,_,-,r,hload,_,-,f1,hregistry,hsave⟩ := hp
  have hother := save_other hregistry (short_ne hr.name registry_size (by decide) hload)
  by_cases hk : (namePda h x).1=nameInfo.key
  · -- the account is read, so the name has to have expired
    have hfilled : (b nameInfo.key).data=nameCodec.encode n := hclean.filled rfl rfl (hk ▸ hr)
    have hexpired := available_expired havailable hfilled hr.live
    rw [← hk] at hsave
    exact ⟨_,⟨nameAt_saved hsave (by rw [hother]; exact (nameAt_eq_some.mp hr.name).1),rfl,x,rfl⟩,
      .expired hexpired⟩
  · exact hr.same ((save_other hsave hk).trans hother)

theorem transferName_fate (hr : Registered h b k n)
    (hp : processTransferName .borsh accounts newOwner ⟨b,b⟩=.ok f) :
    Continues h f.view ⟨clock,accounts,.transferName newOwner⟩ k n := by
  unfold processTransferName at hp
  split at hp <;> simp only [steps_ok,loadOwned_eq_ok] at hp
  rename_i owner _ rest
  obtain ⟨_,hsigner,m,⟨hload,howner⟩,hsave⟩ := hp
  refine hr.rewritten rfl hload hsave rfl fun hk hm => ?_
  subst hm
  exact .transferred rfl (congrArg some hk.symm) ⟨owner,by simp,howner.symm,hsigner⟩

theorem claimExpiredName_fate (hr : Registered h b k n)
    (hp : processClaimExpiredName h .borsh clock accounts ⟨b,b⟩=.ok f) :
    Continues h f.view ⟨clock,accounts,.claimExpiredName⟩ k n := by
  unfold processClaimExpiredName at hp
  split at hp <;> simp only [steps_ok,load_eq_ok,deadline_eq_ok] at hp
  obtain ⟨_,-,_,-,m,hload,_,-,_,hdeadline,_,hnow,_,-,hsave⟩ := hp
  refine hr.rewritten rfl hload hsave rfl fun _ hm => ?_
  subst hm
  exact .expired (hdeadline ▸ hnow)

end Writes

theorem name_fate {h : Host} {hash : List Byte → BitVec 256} (hsep : Separate h)
    {c : Call Instruction} {b b' : Bank} (hx : (program h hash .borsh).execute c b=.ok b')
    (hclean : Clean h b c) {k : Pubkey} {n : Name} (hr : Registered h b k n) :
    Continues h b' c k n := by
  obtain ⟨x,rfl⟩ := hr.place
  obtain ⟨f,hp,-,rfl⟩ := execute_eq_ok.mp hx
  obtain ⟨_,_,i⟩ := c
  cases i with
  | initializeRegistry =>
    dsimp only [program,processInstruction,processInitializeRegistry] at hp
    split at hp <;> simp only [steps_ok] at hp
    obtain ⟨_,-,_,hkey,_,-,hsave⟩ := hp
    exact hr.same (save_other hsave (hkey ▸ hsep.registry x))
  | registerName => exact registerName_fate hr hclean hp
  | renewName =>
    dsimp only [program,processInstruction,processRenewName] at hp
    split at hp <;> simp only [steps_ok,load_eq_ok] at hp
    obtain ⟨_,-,m,hload,_,_,_,-,_,-,_,-,_,-,_,-,hsave⟩ := hp
    exact hr.rewritten rfl hload hsave rfl fun _ hm => .kept (by rw [← hm])
  | transferName => exact transferName_fate hr hp
  | setRecord key =>
    dsimp only [program,processInstruction,processSetRecord] at hp
    split at hp <;> simp only [steps_ok,loadOwned_eq_ok] at hp
    obtain ⟨_,-,_,-,_,-,m,⟨hload,-⟩,_,-,_,-,_,-,hsave⟩ := hp
    exact hr.rewritten rfl hload hsave rfl fun _ hm => .kept (by rw [← hm])
  | deleteRecord key =>
    dsimp only [program,processInstruction,processDeleteRecord] at hp
    split at hp <;> simp only [steps_ok,loadOwned_eq_ok] at hp
    obtain ⟨_,-,m,⟨hload,-⟩,_,-,_,-,hsave⟩ := hp
    exact hr.rewritten rfl hload hsave rfl fun _ hm => .kept (by rw [← hm])
  | createSubdomain _ owner =>
    dsimp only [program,processInstruction,processCreateSubdomain] at hp
    split at hp <;> simp only [steps_ok] at hp
    obtain ⟨_,-,_,-,_,-,m,-,_,-,_,-,_,-,_,-,_,hkey,hsave⟩ := hp
    exact hr.same (save_other hsave (hkey ▸ hsep.subdomain x _ _))
  | deleteSubdomain =>
    dsimp only [program,processInstruction,processDeleteSubdomain] at hp
    split at hp <;> simp only [steps_ok] at hp
    rename_i owner rest
    obtain ⟨_,-,_,-,_,-,_,-,hsave⟩ := hp
    exact hr.same (save_other hsave fun he => hclean.subdomain rfl rfl (he ▸ hr))
  | setReverseLookup =>
    dsimp only [program,processInstruction,processSetReverseLookup] at hp
    split at hp <;> simp only [steps_ok,loadOwned_eq_ok] at hp
    obtain ⟨_,-,m,⟨hload,-⟩,_,hkey,f1,hreverse,hsave⟩ := hp
    exact hr.rewritten (save_other hreverse (hkey ▸ hsep.reverse x _)) hload hsave rfl
      fun _ hm => .kept (by rw [← hm])
  | removeReverseLookup =>
    dsimp only [program,processInstruction,processRemoveReverseLookup] at hp
    split at hp <;> simp only [steps_ok,load_eq_ok] at hp
    obtain ⟨_,-,r,hload,_,-,hsave⟩ := hp
    exact hr.same (save_other hsave (short_ne hr.name reverse_size (by decide) hload))
  | claimExpiredName => exact claimExpiredName_fate hr hp

/-- As long as names fill the accounts that are passed for registering them and are not deleted as
subdomains, nobody becomes the owner of a registered name before the end of its grace period without
a transfer that the owner signs. -/
theorem registered_name_kept {h : Host} {hash : List Byte → BitVec 256} (hsep : Separate h)
    {s t : Ledger} {tr : Trace Instruction}
    (hrun : Run ((program h hash .borsh).Step (Clean h)) s tr t)
    {x : LogEntry Instruction} (hx : x∈tr) {k : Pubkey} {n : Name}
    (hn : Registered h x.pre.bank k n)
    (hnow : x.post.clock.unixTimestamp.toInt<n.expiresAt.toInt+gracePeriodSecs.toInt) :
    ∃ n',Registered h x.post.bank k n' ∧ (n'.owner=n.owner ∨ ∃ c,x.label=.call c ∧
      c.instruction=.transferName n'.owner ∧ c.key? 0=some k ∧
      ∃ info∈c.accounts,info.key=n.owner ∧ info.isSigner=true) := by
  obtain ⟨pre,label,post⟩ := x
  have hstep := hrun.step_of_mem hx
  dsimp only at hn hnow hstep ⊢
  cases hstep with
  | outside _ hout =>
    obtain ⟨howner,hfront⟩ := nameAt_eq_some.mp hn.name
    obtain ⟨howner',hdata,-⟩ := hout.owned howner
    exact ⟨n,⟨nameAt_eq_some.mpr ⟨howner',hdata ▸ hfront⟩,hn.live,hn.place⟩,.inl rfl⟩
  | @call c b _ hok hexec =>
    obtain ⟨n',hn',hfate⟩ := name_fate hsep hexec hok hn
    refine ⟨n',hn',?_⟩
    cases hfate with
    | kept howner => exact .inl howner
    | transferred hc hk hsigned => exact .inr ⟨c,rfl,hc,hk,hsigned⟩
    | expired hexpired => exact absurd hexpired (not_le.mpr hnow)

def sampleHost : Host where
  programId := 1#256
  findProgramAddress seeds _ :=
    if seeds.head?=some nameSeed then (20#256,255#8)
    else if seeds.head?=some registrySeed then (10#256,255#8)
    else (30#256,255#8)
  minimumBalance n := BitVec.ofNat 64 ((n+128)*6960)
  clockSysvar := 5#256

theorem sampleHost_separate : Separate sampleHost := by
  have hseeds : reverseSeed≠nameSeed ∧ reverseSeed≠registrySeed ∧ subdomainSeed≠nameSeed ∧
      subdomainSeed≠registrySeed ∧ registrySeed≠nameSeed := by decide +kernel
  refine ⟨fun x => ?_,fun x owner => ?_,fun x label y => ?_⟩ <;>
    simp [namePda,registryPda,reversePda,subdomainPda,sampleHost,hseeds]

def genesis (size : Nat) : Ledger where
  bank k :=
    if k=10#256 then ⟨1000000#64,List.replicate 74 0#8,1#256⟩
    else if k=20#256 then ⟨1000000#64,List.replicate size 0#8,1#256⟩
    else ⟨0#64,[],systemProgram⟩
  clock := ⟨0#64,0#64⟩

def initCall : Call Instruction where
  clock := ⟨1#64,100#64⟩
  accounts := [⟨10#256,false,true⟩,⟨2#256,true,false⟩,⟨6#256,false,false⟩,
    systemInfo,⟨7#256,false,false⟩]
  instruction := .initializeRegistry

def registerCall (who : Pubkey) : Call Instruction where
  clock := ⟨2#64,1000#64⟩
  accounts := [⟨10#256,false,true⟩,⟨20#256,false,true⟩,⟨who,true,false⟩,⟨6#256,false,true⟩,
    ⟨5#256,false,false⟩,systemInfo,⟨7#256,false,false⟩]
  instruction := .registerName ⟨[97#8],by decide⟩

def transferCall : Call Instruction where
  clock := ⟨3#64,2000#64⟩
  accounts := [⟨20#256,false,true⟩,⟨3#256,true,false⟩,⟨4#256,false,false⟩]
  instruction := .transferName 4#256

def nameHistory (size : Nat) : Option (Trace Instruction×Ledger) :=
  (program sampleHost (fun _ => 9#256) .borsh).history [initCall,registerCall 3#256] (genesis size)

def registration (b : Bank) : Option (Pubkey×BitVec 64) :=
  (nameAt sampleHost b 20#256).bind fun n =>
    if n.isInitialized then some (n.owner,n.expiresAt) else none

theorem registration_eq_some (hb : registration b=some (owner,expiry)) :
    ∃ n,Registered sampleHost b 20#256 n ∧ n.owner=owner ∧ n.expiresAt=expiry := by
  obtain ⟨n,hn,hvalue⟩ := bind_eq_some_iff.mp hb
  split_ifs at hvalue with hlive
  cases hvalue
  exact ⟨n,⟨hn,hlive,0#256,rfl⟩,rfl,rfl⟩

def executed (c : Call Instruction) (b : Bank) : Option Bank :=
  ((program sampleHost (fun _ => 9#256) .borsh).execute c b).toOption

def clean (b : Bank) (c : Call Instruction) : Bool :=
  match c.instruction with
  | .registerName _ => (c.key? 1).all fun k => (nameAt sampleHost b k).all fun n => !n.isInitialized
  | .deleteSubdomain => false
  | _ => true

theorem clean_sound (hc : clean b c=true) : Clean sampleHost b c where
  filled hi hk hr := by simp [clean,hi,hk,hr.name,hr.live] at hc
  subdomain hi := by simp [clean,hi] at hc

def cleanTrace (tr : Trace Instruction) : Bool :=
  tr.all fun x => match x.label with
    | .call c => clean x.pre.bank c
    | .outside => true

theorem transfer_of_registered_name : ∃ tr t b' n n',
    Run ((program sampleHost (fun _ => 9#256) .borsh).Step (Clean sampleHost)) (genesis 92) tr t ∧
      (program sampleHost (fun _ => 9#256) .borsh).execute transferCall t.bank=.ok b' ∧
      Registered sampleHost t.bank 20#256 n ∧ n.owner=3#256 ∧ Registered sampleHost b' 20#256 n' ∧
      (n'.owner=n.owner ∨ ∃ c,Action.call transferCall=.call c ∧
        c.instruction=.transferName n'.owner ∧ c.key? 0=some 20#256 ∧
        ∃ info∈c.accounts,info.key=n.owner ∧ info.isSigner=true) := by
  obtain ⟨⟨tr,t⟩,hhistory,htr,hclock,hname,hexec⟩ : ∃ x,nameHistory 92=some x ∧
      cleanTrace x.1=true ∧ x.2.clock=⟨2#64,1000#64⟩ ∧
      registration x.2.bank=some (3#256,31537000#64) ∧
      (executed transferCall x.2.bank).isSome=true := by decide +kernel
  obtain ⟨b',hb'⟩ := isSome_iff_exists.mp hexec
  have hx := toOption_eq_some.mp hb'
  obtain ⟨n,hn,howner,hexpiry⟩ := registration_eq_some hname
  have hrun := history_run hhistory fun x hx c hc =>
    clean_sound (by simpa only [hc] using all_eq_true.mp htr x hx)
  have hbefore : t.clock.before transferCall.clock := by
    rw [hclock]
    decide
  have hnow : transferCall.clock.unixTimestamp.toInt<n.expiresAt.toInt+gracePeriodSecs.toInt := by
    rw [hexpiry]
    decide
  obtain ⟨n',hn',hfate⟩ := registered_name_kept sampleHost_separate
    (hrun.next (.call hbefore (clean_sound rfl) hx)) (mem_append_right _ mem_cons_self)
    hn hnow
  exact ⟨tr,t,b',n,n',hrun,hx,hn,howner,hn',hfate⟩

/-- Registered by `3` in an account of one byte more, the name is registered again by `4`. -/
theorem registered_name_taken : ∃ tr t b' n n',
    Run ((program sampleHost (fun _ => 9#256) .borsh).Step anyCall) (genesis 93) tr t ∧
      t.clock.before (registerCall 4#256).clock ∧
      (program sampleHost (fun _ => 9#256) .borsh).execute (registerCall 4#256) t.bank=.ok b' ∧
      Registered sampleHost t.bank 20#256 n ∧ n.owner=3#256 ∧
      (registerCall 4#256).clock.unixTimestamp.toInt<n.expiresAt.toInt ∧
      Registered sampleHost b' 20#256 n' ∧ n'.owner=4#256 := by
  obtain ⟨⟨tr,t⟩,hhistory,hclock,hname,hexec⟩ : ∃ x,nameHistory 93=some x ∧
      x.2.clock=⟨2#64,1000#64⟩ ∧ registration x.2.bank=some (3#256,31537000#64) ∧
      (executed (registerCall 4#256) x.2.bank).map registration=some (some (4#256,31537000#64)) :=
        by decide +kernel
  obtain ⟨b',hb',hname'⟩ := map_eq_some_iff.mp hexec
  obtain ⟨n,hn,howner,hexpiry⟩ := registration_eq_some hname
  obtain ⟨n',hn',howner',-⟩ := registration_eq_some hname'
  refine ⟨tr,t,b',n,n',history_anyCall hhistory,?_,toOption_eq_some.mp hb',hn,howner,?_,hn',howner'⟩
  · rw [hclock]
    decide
  · rw [hexpiry]
    decide

end PrismChain.NameService
