import PrismChain.Programs.Multisig.Transition

namespace PrismChain.PrismMultisig

open Option List Program

def Separate (h : Runtime) : Prop :=
  ∀ label m i,(multisigPda h label).1≠(transactionPda h m i).1

/-- The account holds a multisig of the program, at the address and with the bump of its label. -/
def Genuine (h : Runtime) (fm : Formats) (b : Bank) (k : Pubkey) : Prop :=
  ∃ m∈fm.multisig.load (b k).data,(b k).owner=h.programId ∧ m.isInitialized=true ∧
    (k,m.bump)=multisigPda h m.label

/-- The account holds a transaction of the program, at its own address, and if a multisig is passed
with it then it is the one that the transaction names. -/
def Filed (h : Runtime) (fm : Formats) (b : Bank) (k : Pubkey) (multisig : Option Pubkey) : Prop :=
  ∃ t∈fm.transaction.load (b k).data,(b k).owner=h.programId ∧ t.isInitialized=true ∧
    k=(transactionPda h t.multisig t.txId).1 ∧ ∀ m∈multisig,t.multisig=m

def Proper (h : Runtime) (fm : Formats) (e : Event) : Prop :=
  (∀ k∈multisigKey? e.call,Genuine h fm e.bank k) ∧
    ∀ k∈transactionKey? e.call,Filed h fm e.bank k (multisigKey? e.call)

instance (h : Runtime) (fm : Formats) (b : Bank) (k : Pubkey) : Decidable (Genuine h fm b k) :=
  inferInstanceAs (Decidable (∃ m∈_,_))

-- what is asked of every key is asked of the one key there is; there are too many keys to try all
instance (h : Runtime) (fm : Formats) (b : Bank) (k : Pubkey) (multisig : Option Pubkey) :
    Decidable (Filed h fm b k multisig) :=
  decidable_of_iff (∃ t∈fm.transaction.load (b k).data,(b k).owner=h.programId ∧
    t.isInitialized=true ∧ k=(transactionPda h t.multisig t.txId).1 ∧
    multisig.all (fun m => t.multisig==m)=true) (by cases multisig <;> simp [Filed])

instance (h : Runtime) (fm : Formats) (e : Event) : Decidable (Proper h fm e) :=
  decidable_of_iff ((multisigKey? e.call).all (fun k => Genuine h fm e.bank k)=true ∧
    (transactionKey? e.call).all (fun k => Filed h fm e.bank k (multisigKey? e.call))=true) (by
      cases hm : multisigKey? e.call <;> cases ht : transactionKey? e.call <;> simp [Proper,hm,ht])

/-- One approval: who gave it and what the multisig account passed with it held. -/
structure Aye where
  account : Pubkey
  multisig : Multisig
  signer : Pubkey
  deriving DecidableEq

def ayeOf (fm : Formats) (e : Event) : Option Aye := do
  let account ← e.call.key? 0
  let multisig ← fm.multisig.load (e.bank account).data
  let signer ← e.call.key? 2
  pure ⟨account,multisig,signer⟩

/-- What is known of a transaction from what has happened: which multisig it was proposed for and
who has approved it since. -/
structure Dossier where
  proposedFor : Pubkey
  ayes : List Aye
  deriving DecidableEq

def Dossier.after (fm : Formats) (k : Pubkey) (d : Option Dossier) (e : Event) : Option Dossier :=
  if e.call.key? 1=some k then
    match e.call.instruction with
    | .proposeTransaction _ => (ayeOf fm e).map fun a => ⟨a.account,[a]⟩
    | .approveTransaction => d.bind fun d => (ayeOf fm e).map fun a => {d with ayes := d.ayes++[a]}
    | _ => d
  else d

def dossier (fm : Formats) (k : Pubkey) (log : List Event) : Option Dossier :=
  log.foldl (Dossier.after fm k) none

structure Endorsed (t : MultisigTransaction) (d : Dossier) : Prop where
  proposed : d.proposedFor=t.multisig
  voices : d.ayes.map Aye.signer=t.approvals.val
  entitled : ∀ a∈d.ayes,a.account=t.multisig ∧ a.signer∈a.multisig.signers.val
  distinct : t.approvals.val.Nodup
  reached : t.status=.approved → ∃ a∈d.ayes.getLast?,a.multisig.threshold.toNat≤d.ayes.length

def Recorded (h : Runtime) (fm : Formats) (log : List Event) (b : Bank) : Prop :=
  ∀ ⦃k m i t⦄,k=(transactionPda h m i).1 → cellAt fm.transaction h.programId b k=some t →
    t.isInitialized=true → t.status=.pending ∨ t.status=.approved →
    ∃ d,dossier fm k log=some d ∧ Endorsed t d

def Fired (fm : Formats) (e : Event) : Prop :=
  e.call.instruction=.executeTransaction → ∃ k t,e.call.key? 1=some k ∧
    fm.transaction.load (e.bank k).data=some t ∧ t.status=.approved

section Dossiers

variable {e : Event}

theorem dossier_append_one : dossier fm k (log++[e])=Dossier.after fm k (dossier fm k log) e := by
  simp [dossier]

theorem dossier_quiet (hquiet : e.call.instruction.approves=false) :
    dossier fm k (log++[e])=dossier fm k log := by
  rw [dossier_append_one]
  unfold Dossier.after
  split
  case isFalse => rfl
  split
  case h_1 hi => simp [hi,Instruction.approves] at hquiet
  case h_2 hi => simp [hi,Instruction.approves] at hquiet
  case h_3 => rfl

theorem dossier_elsewhere (hkey : e.call.key? 1≠some k) :
    dossier fm k (log++[e])=dossier fm k log := by
  rw [dossier_append_one]
  exact if_neg hkey

theorem Proposed.dossier (u : Proposed h fm c b b' km k proposer m ix) :
    dossier fm k (log++[⟨c,b⟩])=some ⟨km,[⟨km,m,proposer⟩]⟩ := by
  rw [dossier_append_one]
  simp [Dossier.after,ayeOf,u.instruction,u.multisigKey,u.transactionKey,u.proposerKey,u.multisig]

theorem Approved.dossier (u : Approved h fm c b b' km k approver m t approvals)
    (hd : dossier fm k log=some d) : PrismMultisig.dossier fm k (log++[⟨c,b⟩])=
      some {d with ayes := d.ayes++[⟨km,m,approver⟩]} := by
  rw [dossier_append_one,hd]
  simp [Dossier.after,ayeOf,u.instruction,u.multisigKey,u.transactionKey,u.approverKey,u.multisig]

end Dossiers

section Steps

variable {h : Runtime} {fm : Formats}

theorem newTransaction_endorsed {m : Multisig} (hentitled : proposer∈m.signers.val) :
    Endorsed (newTransaction km proposer txId ix now bump) ⟨km,[⟨km,m,proposer⟩]⟩ where
  proposed := rfl
  voices := rfl
  entitled := by
    intro a ha
    obtain rfl := mem_singleton.mp ha
    exact ⟨rfl,hentitled⟩
  distinct := nodup_singleton proposer
  reached := nofun

theorem Approved.endorsed (u : Approved h fm c b b' km kt approver m t approvals)
    (hkm : t.multisig=km)
    (hd : Endorsed t d) : Endorsed (endorsed t approvals m.threshold c.clock.unixTimestamp)
      {d with ayes := d.ayes++[⟨km,m,approver⟩]} := by
  obtain ⟨happrovals,hmultisig,-⟩ := endorsed_fields t approvals m.threshold c.clock.unixTimestamp
  have hvoices : (d.ayes++[Aye.mk km m approver]).map Aye.signer=approvals.val := by
    rw [map_append,hd.voices,u.pushed]
    rfl
  refine ⟨?_,?_,?_,?_,?_⟩
  · rw [hmultisig]
    exact hd.proposed
  · rw [happrovals]
    exact hvoices
  · rw [hmultisig]
    intro a ha
    obtain ha | ha := mem_append.mp ha
    · exact hd.entitled a ha
    · obtain rfl := mem_singleton.mp ha
      exact ⟨hkm.symm,u.entitled⟩
  · rw [happrovals,u.pushed,← concat_eq_append]
    exact hd.distinct.concat u.first
  · intro hstatus
    refine ⟨⟨km,m,approver⟩,by simp,?_⟩
    have hlength : (d.ayes++[Aye.mk km m approver]).length=approvals.val.length := by
      rw [← hvoices,length_map]
    dsimp only
    rw [hlength]
    by_contra hshort
    unfold PrismMultisig.endorsed at hstatus
    rw [if_neg hshort] at hstatus
    cases u.pending.symm.trans hstatus

variable (hsep : Separate h)
include hsep

theorem Genuine.ne (hg : Genuine h fm b km) (hk : k=(transactionPda h m i).1) : k≠km := by
  obtain ⟨ms,-,-,-,hplace⟩ := hg
  rintro rfl
  exact hsep ms.label m i ((congrArg Prod.fst hplace).symm.trans hk)

theorem Recorded.accepted (hr : Recorded h fm log b) (u : Accepted h fm c b b')
    (hproper : Proper h fm ⟨c,b⟩) : Recorded h fm (log++[⟨c,b⟩]) b' := by
  intro k m i t' hk ht' hlive hopen
  obtain ⟨hgenuine,hfiled⟩ := hproper
  cases u with
  | @kept km ms u =>
    have hne : k≠km := by
      obtain ⟨label,hlabel⟩ | hkey := u.place
      · rw [hk,hlabel]
        exact (hsep label m i).symm
      · exact (hgenuine km hkey).ne hsep hk
    rw [dossier_quiet u.quiet]
    rw [cellAt_congr (u.wrote.other hne)] at ht'
    exact hr hk ht' hlive hopen
  | @proposed km kt _ ms _ u =>
    obtain ⟨_,_,_,hw1,hw2⟩ := u.wrote
    obtain ⟨rfl,-,rfl⟩ | ⟨hne,hold⟩ := hw2.cell_before ht'
    · exact ⟨_,u.dossier,newTransaction_endorsed u.entitled⟩
    have hkm : k≠km :=
      (hgenuine km (by simp [multisigKey?,u.instruction,u.multisigKey])).ne hsep hk
    rw [cellAt_congr (hw1.other hkm)] at hold
    rw [dossier_elsewhere (by simp [u.transactionKey,Ne.symm hne])]
    exact hr hk hold hlive hopen
  | @approved km kt _ ms t approvals u =>
    obtain ⟨rfl,howner,rfl⟩ | ⟨hne,hold⟩ := u.wrote.cell_before ht'
    · obtain ⟨_,ht0,-,-,-,hsame⟩ :=
        hfiled k (by simp [transactionKey?,u.instruction,u.transactionKey])
      cases u.transaction.symm.trans ht0
      have hkm : t.multisig=km := hsame km (by simp [multisigKey?,u.instruction,u.multisigKey])
      rw [(endorsed_fields t approvals ms.threshold c.clock.unixTimestamp).2.2] at hlive
      obtain ⟨d,hd,hendorsed⟩ :=
        hr hk (cellAt_eq_some.mpr ⟨howner,u.transaction⟩) hlive (.inl u.pending)
      exact ⟨_,u.dossier hd,u.endorsed hkm hendorsed⟩
    · rw [dossier_elsewhere (by simp [u.transactionKey,Ne.symm hne])]
      exact hr hk hold hlive hopen
  | @opposed kt t _ u =>
    rw [dossier_quiet u.quiet]
    obtain ⟨rfl,howner,rfl⟩ | ⟨-,hold⟩ := u.wrote.cell_before ht'
    · rw [u.sameLife] at hlive
      obtain ⟨d,hd,he⟩ := hr hk (cellAt_eq_some.mpr ⟨howner,u.transaction⟩) hlive (.inl u.pending)
      refine ⟨d,hd,?_,?_,?_,?_,fun hstatus => absurd hstatus u.unapproved⟩
      · rw [u.sameMultisig]
        exact he.proposed
      · rw [u.sameApprovals]
        exact he.voices
      · rw [u.sameMultisig]
        exact he.entitled
      · rw [u.sameApprovals]
        exact he.distinct
    · exact hr hk hold hlive hopen
  | idle hkey hplace => exact absurd rfl ((hgenuine _ hkey).ne hsep hplace)

omit hsep

theorem Recorded.noted {kt : Pubkey} {t : MultisigTransaction} {now : I64} {d : List Byte}
    (hr : Recorded h fm log b)
    (hstore : fm.transaction.store {t with status := .executed,executedAt := now} (b kt).data=
      some d) : Recorded h fm log (b.setData kt d) := by
  intro k m i t' hk ht' hlive hopen
  by_cases hkt : k=kt
  · subst hkt
    obtain ⟨-,hload⟩ := cellAt_eq_some.mp ht'
    rw [Bank.setData_same] at hload
    obtain rfl := fm.transaction.load_store hstore hload
    obtain h | h := hopen <;> cases h
  · have hsame : b.setData kt d k=b k := by simp [Bank.setData,hkt]
    rw [cellAt_congr hsame] at ht'
    exact hr hk ht' hlive hopen

theorem Recorded.outside (hfm : fm.Blank) (hr : Recorded h fm log b)
    (hout : Outside h.programId b b') : Recorded h fm log b' := by
  intro k m i t hk ht hlive hopen
  by_cases howner : (b k).owner=h.programId
  · exact hr hk ((hout.cell_owned howner).symm.trans ht) hlive hopen
  · obtain ⟨howner',hload⟩ := cellAt_eq_some.mp ht
    cases (hfm ((hout k).2 howner howner') hload).symm.trans hlive

theorem recorded_start (hfm : fm.Blank) (h0 : Untouched h.programId b) : Recorded h fm [] b := by
  intro k m i t hk ht hlive hopen
  obtain ⟨howner,hload⟩ := cellAt_eq_some.mp ht
  cases (hfm (h0 k howner) hload).symm.trans hlive

end Steps

def Traced (h : Runtime) (fm : Formats) (before log : List Event) : Prop :=
  ∀ ⦃l e l'⦄,log=l++e::l' → Recorded h fm (before++l) e.bank ∧ Fired fm e

section Processing

variable {h : Runtime} {fm : Formats} {e : Event}

theorem Traced.nil : Traced h fm before [] := by
  intro l e l' heq
  cases l <;> cases heq

theorem Traced.cons (hr : Recorded h fm before e.bank) (hf : Fired fm e)
    (hl : Traced h fm (before++[e]) log) : Traced h fm before (e::log) := by
  intro l x l' heq
  cases l with
  | nil =>
    cases heq
    rw [append_nil]
    exact ⟨hr,hf⟩
  | cons _ l =>
    obtain ⟨rfl,htail⟩ := cons.inj heq
    have hx := hl htail
    rwa [append_assoc] at hx

theorem Traced.append (hl : Traced h fm before log) (hl' : Traced h fm (before++log) log') :
    Traced h fm before (log++log') := by
  induction log generalizing before with
  | nil =>
    rw [append_nil] at hl'
    exact hl'
  | cons x log ih =>
    obtain ⟨hr,hf⟩ := hl (l := []) rfl
    rw [append_nil] at hr
    refine .cons hr hf (ih ?_ ?_)
    · intro l e l' heq
      have he := hl (l := x::l) (congrArg (x::·) heq)
      rwa [← singleton_append,← append_assoc] at he
    · rwa [append_assoc]

/-- Processing an instruction, however deep it calls back into the program, keeps the records and
begins every instruction of the program in a recorded state. -/
theorem Recorded.processTo (hlaw : h.Lawful) (hsep : Separate h) (hfm : fm.Blank) {n : Nat}
    {c : Call Instruction} {b b' : Bank} (hp : processTo h fm n c b=.ok (b',log))
    (hr : Recorded h fm before b) (hproper : ∀ e∈log,Proper h fm e) :
    Recorded h fm (before++log) b' ∧ Traced h fm before log := by
  induction n generalizing c b b' log before with
  | zero => cases hp
  | succ n ih =>
    obtain ⟨rfl,haccepted,hplain⟩ | ⟨_,kt,m,t,b1,nested,rfl,u⟩ := processTo_spec hp
    · exact ⟨hr.accepted hsep haccepted (hproper _ mem_cons_self),
        .cons hr (fun hi => absurd hi hplain) .nil⟩
    -- the call is made from the state before, with the execution already begun
    have hquiet : c.instruction.approves=false := by rw [u.instruction]; rfl
    have hr0 : Recorded h fm (before++[⟨c,b⟩]) b := by
      intro k m i t hk ht hlive hopen
      rw [dossier_quiet hquiet]
      exact hr hk ht hlive hopen
    have hcalled :
        Recorded h fm ((before++[⟨c,b⟩])++nested) b1 ∧ Traced h fm (before++[⟨c,b⟩]) nested := by
      obtain ⟨_,hc'⟩ | ⟨rfl,p,_,_,_,hp',hforeign⟩ := u.called
      · exact ih hc' hr0 fun e he => hproper e (mem_cons_of_mem _ he)
      · rw [append_nil]
        exact ⟨hr0.outside hfm (hlaw.foreign_outside hp' hforeign),.nil⟩
    obtain ⟨d,hstore,rfl⟩ := u.wrote
    refine ⟨?_,.cons hr ?_ hcalled.2⟩
    · rw [← singleton_append,← append_assoc]
      exact hcalled.1.noted hstore
    · exact fun _ => ⟨kt,t,u.transactionKey,u.transaction,u.approved⟩

end Processing

/-- The call that the event makes in the name of `M` was proposed for `M` and approved by as many of
its signers as its threshold asked for. -/
structure Authorised (fm : Formats) (log : List Event) (e : Event) (M : Pubkey) : Prop where
  execution : e.call.instruction=.executeTransaction
  transaction : ∃ k t d,e.call.key? 1=some k ∧ fm.transaction.load (e.bank k).data=some t ∧
    t.multisig=M ∧ dossier fm k log=some d ∧ d.proposedFor=M ∧
    (∀ a∈d.ayes,a.account=M ∧ a.signer∈a.multisig.signers.val) ∧
    (d.ayes.map Aye.signer).Nodup ∧
    ∃ a∈d.ayes.getLast?,a.multisig.threshold.toNat≤d.ayes.length

section Runs

variable {h : Runtime} {fm : Formats} {s : Ledger}

theorem events_append : events h fm (tr++[x])=events h fm tr++events h fm [x] := by
  simp [events]

/-- The records agree with what has happened, at the end of a run and whenever an instruction of the
program was begun in it. -/
theorem recorded_run (hlaw : h.Lawful) (hsep : Separate h) (hfm : fm.Blank)
    (h0 : Untouched h.programId s.bank) (hrun : Run ((program h fm).Step anyCall) s tr t)
    (hproper : ∀ e∈events h fm tr,Proper h fm e) :
    Recorded h fm (events h fm tr) t.bank ∧ Traced h fm [] (events h fm tr) := by
  induction hrun with
  | start => exact ⟨recorded_start hfm h0,.nil⟩
  | @next tr t u a _ hstep ih =>
    rw [events_append] at hproper ⊢
    obtain ⟨hr,htraced⟩ := ih fun e he => hproper e (mem_append_left _ he)
    cases hstep with
    | @call c b' hclock _ hx =>
      obtain ⟨log,hp⟩ := execute_eq_ok.mp hx
      have hlog : events h fm [⟨t,.call c,⟨b',c.clock⟩⟩]=log := by
        simp [events,eventsOf_eq hp]
      rw [hlog] at hproper ⊢
      obtain ⟨hr',htraced'⟩ := hr.processTo hlaw hsep hfm hp fun e he =>
        hproper e (mem_append_right _ he)
      exact ⟨hr',htraced.append htraced'⟩
    | @outside b' clk hclock hout =>
      have hlog : events h fm [⟨t,.outside,⟨b',clk⟩⟩]=[] := rfl
      rw [hlog,append_nil]
      exact ⟨hr.outside hfm hout,htraced⟩

end Runs

/-- If every instruction is passed a genuine multisig and a transaction that was filed for it, then
nothing is called in the name of a multisig that was not proposed and approved for it. -/
theorem calls_authorised {h : Runtime} {fm : Formats} (hlaw : h.Lawful) (hsep : Separate h)
    (hfm : fm.Blank) {s t : Ledger} {tr : Trace Instruction} (h0 : Untouched h.programId s.bank)
    (hrun : Run ((program h fm).Step anyCall) s tr t)
    (hproper : ∀ e∈events h fm tr,Proper h fm e) {l l' : List Event} {e : Event}
    (hevents : events h fm tr=l++e::l') {M : Pubkey} (hsigns : signs h fm e=some M) :
    Authorised fm l e M := by
  obtain ⟨-,htraced⟩ := recorded_run hlaw hsep hfm h0 hrun hproper
  obtain ⟨hrecorded,hfired⟩ := htraced hevents
  rw [nil_append] at hrecorded
  obtain ⟨hgenuine,hfiled⟩ := hproper e (hevents ▸ mem_append_right _ mem_cons_self)
  unfold signs at hsigns
  split at hsigns
  case h_2 => cases hsigns
  rename_i hi
  obtain ⟨km,hkm,hsigns⟩ := bind_eq_some_iff.mp hsigns
  obtain ⟨m,hm,hsigner⟩ := bind_eq_some_iff.mp hsigns
  -- a genuine multisig signs as itself
  obtain ⟨_,hm₀,-,-,hplace⟩ := hgenuine km (by simp [multisigKey?,hi,hkm])
  cases hm.symm.trans hm₀
  have hM : M=km := by
    have hcreate := hlaw.create_find [multisigSeed,labelBytes m.label]
    have hpda : h.findProgramAddress [multisigSeed,labelBytes m.label] h.programId=(km,m.bump) :=
      hplace.symm
    rw [hpda] at hcreate
    exact some.inj (hsigner.symm.trans hcreate)
  subst hM
  obtain ⟨k,t,hk,ht,happroved⟩ := hfired hi
  obtain ⟨_,ht₀,howner,hlive,haddress,hsame⟩ :=
    hfiled k (by simp [transactionKey?,hi,hk])
  cases ht.symm.trans ht₀
  have hmultisig : t.multisig=M := hsame M (by simp [multisigKey?,hi,hkm])
  obtain ⟨d,hd,he⟩ := hrecorded haddress (cellAt_eq_some.mpr ⟨howner,ht⟩) hlive (.inr happroved)
  refine ⟨hi,k,t,d,hk,ht,hmultisig,hd,he.proposed.trans hmultisig,?_,?_,he.reached happroved⟩
  · rw [← hmultisig]
    exact he.entitled
  · rw [he.voices]
    exact he.distinct

def sampleAddress (seeds : List (List Byte)) (_ : Pubkey) : Pubkey×U8 :=
  match seeds with
  | [_,x] => (BitVec.ofNat 256 (2*leValue x+1),255#8)
  | [_,x,y] => (BitVec.ofNat 256 (2*(1000*leValue x+leValue y)),255#8)
  | _ => (0#256,0#8)

/-- Multisigs have odd addresses and transactions even ones. The program 500 wants the signature of
the multisig with the label 1 and then does nothing. -/
def sampleRuntime : Runtime where
  programId := 100#256
  findProgramAddress := sampleAddress
  minimumBalance _ := 0#64
  clockSysvar := 4#256
  createProgramAddress seeds p := some (sampleAddress seeds.dropLast p).1
  foreign _ _ accounts _ b :=
    if ∃ a∈accounts,a.key=3#256 ∧ a.isSigner=true then .ok b else .error .missingRequiredSignature

theorem sampleRuntime_lawful : sampleRuntime.Lawful where
  create_find seeds := by simp [sampleRuntime]
  foreign_outside := by
    intro p clk accounts data b b' _ hok
    dsimp only [sampleRuntime] at hok
    split_ifs at hok
    cases hok
    exact fun k => ⟨fun howner => ⟨howner,rfl,le_rfl⟩,fun hne howner => absurd howner hne⟩

theorem sampleRuntime_separate : Separate sampleRuntime := by
  intro label m i heq
  have hmod := congrArg (fun x : Pubkey => x.toNat%2) heq
  simp only [multisigPda,transactionPda,sampleRuntime,sampleAddress,BitVec.toNat_ofNat] at hmod
  omega

/-- A record of a transaction that nobody has proposed: the program 500 is to be called with the
signature of the multisig 3. -/
def forgedTransaction : MultisigTransaction :=
  ⟨true,1281#256,0#64,7#256,⟨500#256,⟨[⟨3#256,true,false⟩],by decide⟩,⟨[0#8,0#8],by decide⟩⟩,
    .approved,.single 0#256,⟨[],short_nil⟩,0#64,0#64,1#64,255#8⟩

def forgedSigner (i : Nat) : Pubkey :=
  BitVec.ofNat 256 (leValue (((transactionCodec.encode forgedTransaction).drop (6+32*i)).take 32))

def forgedSigners : Vec Pubkey :=
  ⟨[forgedSigner 0,forgedSigner 1,forgedSigner 2,forgedSigner 3,forgedSigner 4],by decide⟩

def forgedLabel : BitVec 256 := BitVec.ofNat 256 (2^192)

def forgedKey : Pubkey := (multisigPda sampleRuntime forgedLabel).1

def sampleBank : Bank := fun k =>
  if k=3#256 then ⟨1000#64,List.replicate 151 0#8,100#256⟩
  else if k=6000#256 then ⟨1000#64,[],100#256⟩
  else if k=forgedKey then ⟨1000#64,List.replicate 215 0#8,100#256⟩
  else if k=600#256 then
    ⟨1000#64,multisigCodec.encode ⟨true,1#8,.single 7#256,0#64,0#64,1#256,255#8⟩,999#256⟩
  else ⟨0#64,[],systemProgram⟩

def sampleStart : Ledger := ⟨sampleBank,⟨0#64,0#64⟩⟩

theorem sample_untouched : Untouched sampleRuntime.programId sampleStart.bank := by
  intro k howner x hx
  change (sampleBank k).owner=100#256 at howner
  change x∈(sampleBank k).data at hx
  unfold sampleBank at howner hx
  split_ifs at howner hx
  · exact (mem_replicate.mp hx).2
  · cases hx
  · exact (mem_replicate.mp hx).2
  · cases howner
  · cases hx

def createCall (k payer : Pubkey) (threshold : U8) (signers : Vec Pubkey) (label : BitVec 256) :
    Call Instruction :=
  ⟨⟨1#64,10#64⟩,[⟨k,false,true⟩,⟨payer,true,false⟩,systemInfo,
    ⟨5#256,false,false⟩],.createMultisig threshold signers 0#64 label⟩

def ownCall : Call Instruction :=
  createCall 3#256 80#256 2#8 ⟨[31#256,32#256,33#256],by decide⟩ 1#256

theorem short_metas :
    [(⟨3#256,false,true⟩ : MultisigAccountMeta),⟨3#256,true,false⟩].length<2^32 := by decide

def proposeCall : Call Instruction :=
  ⟨⟨1#64,100#64⟩,[⟨3#256,false,true⟩,⟨6000#256,false,true⟩,⟨31#256,true,false⟩,⟨4#256,false,false⟩,
    systemInfo,⟨5#256,false,false⟩],
    .proposeTransaction ⟨100#256,⟨_,short_metas⟩,
      ⟨6#8::Pubkey.bytes 34#256,by decide⟩⟩⟩

def approveCall : Call Instruction :=
  ⟨⟨1#64,200#64⟩,
    [⟨3#256,false,false⟩,⟨6000#256,false,true⟩,⟨32#256,true,false⟩,⟨4#256,false,false⟩],
    .approveTransaction⟩

def executeCall (multisig transaction executor callee : Pubkey) : Call Instruction :=
  ⟨⟨1#64,300#64⟩,[⟨multisig,false,false⟩,⟨transaction,false,true⟩,⟨executor,true,false⟩,
    ⟨4#256,false,false⟩,⟨callee,false,false⟩,⟨3#256,false,true⟩],.executeTransaction⟩

structure Reading where
  instruction : Instruction
  account : Option Pubkey
  signs : Option Pubkey
  deriving DecidableEq

def reading (fm : Formats) (e : Event) : Reading :=
  ⟨e.call.instruction,e.call.key? 0,signs sampleRuntime fm e⟩

theorem added_signer_authorised : ∃ tr t l e l',
    Run ((program sampleRuntime .values).Step anyCall) sampleStart tr t ∧
    events sampleRuntime .values tr=l++e::l' ∧ l'.map (reading .values)=
      [⟨.addSigner 34#256,some 3#256,none⟩] ∧ Authorised .values l e 3#256 := by
  obtain ⟨⟨tr,t⟩,hhistory,hproper,hsplit⟩ : ∃ x,(program sampleRuntime .values).history
        [ownCall,proposeCall,approveCall,executeCall 3#256 6000#256 33#256 100#256] sampleStart=
        some x ∧ (∀ e∈events sampleRuntime .values x.1,Proper sampleRuntime .values e) ∧
      (events sampleRuntime .values x.1).map (reading .values)=
        [⟨ownCall.instruction,some 3#256,none⟩,⟨proposeCall.instruction,some 3#256,none⟩,
          ⟨.approveTransaction,some 3#256,none⟩]++⟨.executeTransaction,some 3#256,some 3#256⟩::
          [⟨.addSigner 34#256,some 3#256,none⟩] := by decide +kernel
  have hrun := history_anyCall hhistory
  obtain ⟨l,_,hevents,-,hrest⟩ := map_eq_append_iff.mp hsplit
  obtain ⟨e,l',rfl,he,hl'⟩ := map_eq_cons_iff.mp hrest
  exact ⟨tr,t,l,e,l',hrun,hevents,hl',calls_authorised sampleRuntime_lawful sampleRuntime_separate
    Formats.values_blank sample_untouched hrun hproper hevents (congrArg Reading.signs he)⟩

/-- A multisig whose bytes are those of the forged record is executed as a transaction, with a look
alike of the multisig 3: the call is made in the name of 3, and nobody has ever proposed or approved
anything. -/
theorem forged_record_executed : ∃ tr t l e,
    Run ((program sampleRuntime .borsh).Step anyCall) sampleStart tr t ∧
    events sampleRuntime .borsh tr=l++[e] ∧
    l.map (reading .borsh)=[⟨ownCall.instruction,some 3#256,none⟩,
      ⟨.createMultisig 1#8 forgedSigners 0#64 forgedLabel,some forgedKey,none⟩] ∧
    reading .borsh e=⟨.executeTransaction,some 600#256,some 3#256⟩ ∧
    ¬Authorised .borsh l e 3#256 := by
  obtain ⟨⟨tr,t⟩,hhistory,hlist⟩ : ∃ x,(program sampleRuntime .borsh).history [ownCall,createCall
        forgedKey 7#256 1#8 forgedSigners forgedLabel, executeCall 600#256 forgedKey 7#256 500#256]
        sampleStart=some x ∧ (events sampleRuntime .borsh x.1).map (reading
        .borsh)=[⟨ownCall.instruction,some 3#256,none⟩, ⟨.createMultisig 1#8 forgedSigners 0#64
        forgedLabel,some forgedKey,none⟩, ⟨.executeTransaction,some 600#256,some 3#256⟩] := by
      decide +kernel
  have hsplit : (events sampleRuntime .borsh tr).map (reading .borsh)=
    [⟨ownCall.instruction,some 3#256,none⟩,
      ⟨.createMultisig 1#8 forgedSigners 0#64 forgedLabel,some forgedKey,none⟩]++
      [⟨.executeTransaction,some 600#256,some 3#256⟩] := hlist
  obtain ⟨l,_,hevents,hl,hrest⟩ := map_eq_append_iff.mp hsplit
  obtain ⟨e,_,rfl,he,hl'⟩ := map_eq_cons_iff.mp hrest
  obtain rfl := map_eq_nil_iff.mp hl'
  refine ⟨tr,t,l,e,history_anyCall hhistory,hevents,hl,he,?_⟩
  rintro ⟨-,k,_,d,-,-,-,hd,-⟩
  obtain ⟨e₁,_,rfl,he₁,hl₁⟩ := map_eq_cons_iff.mp hl
  obtain ⟨e₂,_,rfl,he₂,hl₂⟩ := map_eq_cons_iff.mp hl₁
  obtain rfl := map_eq_nil_iff.mp hl₂
  -- neither of the two instructions before it proposes anything
  have hquiet₁ : e₁.call.instruction.approves=false := by
    rw [show e₁.call.instruction=_ from congrArg Reading.instruction he₁]
    rfl
  have hquiet₂ : e₂.call.instruction.approves=false := by
    rw [show e₂.call.instruction=_ from congrArg Reading.instruction he₂]
    rfl
  have hnone : dossier .borsh k ([]++[e₁]++[e₂])=none := by
    rw [dossier_quiet hquiet₂,dossier_quiet hquiet₁]
    rfl
  cases hnone.symm.trans hd

end PrismChain.PrismMultisig
