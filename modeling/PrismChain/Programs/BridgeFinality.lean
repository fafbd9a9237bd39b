import PrismChain.Programs.BitcoinBridge.Backing
import PrismChain.Programs.EthereumBridge.Agreement

namespace PrismChain

open Function Program

namespace BitcoinBridge

def confirms (k : Pubkey) (x : LogEntry Instruction) : Bool :=
  match x.label with
  | .outside => false
  | .call c =>
    match c.instruction with
    | .confirmDeposit _ _ => decide (c.key? 2=some k)
    | _ => false

def NotReattested (e : Deployment) (fm : Formats) (k : Pubkey) (b : Bank) (c : Call Instruction) :
    Prop :=
  ∀ btcTxid vout amountSats recipient confirmations p,
    c.instruction=.submitDepositProof btcTxid vout amountSats recipient confirmations →
    c.key? 2=some k → proofAt e fm b k=some p → p.status≠.minted

def MintedAt (e : Deployment) (fm : Formats) (k : Pubkey) (s : Ledger) : Prop :=
  ∃ p,proofAt e fm s.bank k=some p ∧ p.status=.minted

section Steps

variable {e : Deployment} {fm : Formats} {t : Ledger}

theorem MintedAt.update (h : MintedAt e fm k s)
    (hproofs : proofAt e fm t.bank=update (proofAt e fm s.bank) j (some p'))
    (hj : j=k → p'.status=.minted) : MintedAt e fm k t := by
  obtain ⟨p,hp,hstatus⟩ := h
  unfold MintedAt
  rw [hproofs]
  by_cases hk : k=j
  · subst hk
    exact ⟨p',update_self ..,hj rfl⟩
  · exact ⟨p,by rw [update_of_ne hk]; exact hp,hstatus⟩

theorem MintedAt.same (h : MintedAt e fm k s) (hproofs : proofAt e fm t.bank=proofAt e fm s.bank) :
    MintedAt e fm k t := by
  unfold MintedAt
  rw [hproofs]
  exact h

theorem minted_kept (hfm : fm.Decoded) (hspl : e.SplToken)
    (hstep : (program e fm).Step (NotReattested e fm k) s a t) (h : MintedAt e fm k s) :
    MintedAt e fm k t := by
  cases hstep with
  | outside hclock hout => exact h.same (hout.cells_eq hfm.proof)
  | call hclock hok hexec =>
    cases execute_spec hfm hspl hexec with
    | initialized u => exact h.same u.proofs
    | @attested _ _ _ u =>
      refine h.update u.proofs ?_
      rintro rfl
      obtain ⟨p0,hp0,hminted⟩ := h
      obtain ⟨_,_,_,_,_,hi⟩ := u.instruction
      exact absurd hminted (hok _ _ _ _ _ p0 hi u.proofKey hp0)
    | confirmed u => exact h.update u.proofs fun _ => rfl
    | requested u => exact h.same u.proofs
    | signed u => exact h.same u.proofs

theorem confirms_once (hfm : fm.Decoded) (hspl : e.SplToken)
    (hstep : (program e fm).Step (NotReattested e fm k) s a t) (hmark : confirms k ⟨s,a,t⟩=true) :
    ¬MintedAt e fm k s ∧ MintedAt e fm k t := by
  cases hstep with
  | outside hclock => cases hmark
  | @call _ _ hclock _ hexec =>
    simp only [confirms] at hmark
    split at hmark
    case h_2 => cases hmark
    rename_i hi
    obtain ⟨_,j,_,_,_,p,u⟩ := (execute_spec hfm hspl hexec).confirmed_of hi
    cases u.proofKey.symm.trans (of_decide_eq_true hmark)
    refine ⟨?_,{p with status := .minted},by rw [u.proofs]; exact update_self ..,rfl⟩
    rintro ⟨_,hp0,hminted⟩
    cases u.proof.symm.trans hp0
    cases u.confirmed.symm.trans hminted

end Steps

theorem deposit_final {e : Deployment} {fm : Formats} (hfm : fm.Decoded) (hspl : e.SplToken)
    {start : Ledger} (hrun : Run ((program e fm).Step (NotReattested e fm k)) start tr t) :
    tr.countP (confirms k)≤1 ∧ ∀ x∈tr,MintedAt e fm k x.post → MintedAt e fm k t := by
  obtain ⟨hcount,-,hfinal⟩ := hrun.once (MintedAt e fm k) (confirms k)
    (fun _ hstep h => minted_kept hfm hspl hstep h)
    (fun _ hstep hmark => confirms_once hfm hspl hstep hmark)
  exact ⟨hcount,hfinal⟩

theorem sample_minted : ∃ tr t,Run ((program sampleNet .values).Step
      (NotReattested sampleNet .values 7#256)) sampleStart tr t ∧ tr.length=3 ∧
    MintedAt sampleNet .values 7#256 t := by
  obtain ⟨⟨tr,t⟩,hhistory,p,hp,hstatus,hlength,hopen⟩ : ∃ x,(program sampleNet .values).history
        [initializeCall (Vec.single 51#256),submitCall 51#256 30000#64,confirmCall 9#256 61#256]
        sampleStart=some x ∧
      ∃ p,proofAt sampleNet .values x.2.bank 7#256=some p ∧ p.status=.minted ∧ x.1.length=3 ∧
      ∀ y∈x.1,(proofAt sampleNet .values y.pre.bank 7#256).all (·.status≠.minted) := by
    decide +kernel
  refine ⟨tr,t,history_run hhistory ?_,hlength,p,hp,hstatus⟩
  intro x hx c hc btcTxid vout amountSats recipient confirmations p hi hkey hp
  have hone := hopen x hx
  rw [hp] at hone
  exact of_decide_eq_true hone

end BitcoinBridge

namespace EthereumBridge

def completes (k : Pubkey) (x : LogEntry Instruction) : Bool :=
  match x.label with
  | .outside => false
  | .call c =>
    match c.instruction with
    | .completeTransfer _ => decide (c.key? 2=some k)
    | _ => false

def NotReopened (e : Deployment) (fm : Formats) (k : Pubkey) (b : Bank) (c : Call Instruction) :
    Prop :=
  ∀ nonce amount sender recipient token r,
    c.instruction=.submitVaa nonce amount sender recipient token →
    c.key? 2=some k → txAt e fm b k=some r → r.status≠.completed

def CompletedAt (e : Deployment) (fm : Formats) (k : Pubkey) (s : Ledger) : Prop :=
  ∃ r,txAt e fm s.bank k=some r ∧ r.status=.completed

section Steps

variable {e : Deployment} {fm : Formats} {s t : Ledger}

theorem CompletedAt.update (h : CompletedAt e fm k s)
    (htxs : txAt e fm t.bank=update (txAt e fm s.bank) j (some r'))
    (hj : j=k → r'.status=.completed) : CompletedAt e fm k t := by
  obtain ⟨r,hr,hstatus⟩ := h
  unfold CompletedAt
  rw [htxs]
  by_cases hk : k=j
  · subst hk
    exact ⟨r',update_self ..,hj rfl⟩
  · exact ⟨r,by rw [update_of_ne hk]; exact hr,hstatus⟩

theorem CompletedAt.same (h : CompletedAt e fm k s) (htxs : txAt e fm t.bank=txAt e fm s.bank) :
    CompletedAt e fm k t := by
  unfold CompletedAt
  rw [htxs]
  exact h

theorem completed_kept (hfm : fm.Decoded) (hspl : e.SplToken) (hall : AllInitialized e fm s.bank)
    (hstep : (program e fm).Step (NotReopened e fm k) s a t) (h : CompletedAt e fm k s) :
    CompletedAt e fm k t := by
  cases hstep with
  | outside hclock hout => exact h.same (hout.cells_eq hfm.tx)
  | call hclock hok hexec =>
    cases execute_spec hfm hspl hall hexec with
    | initialized u => exact h.same u.txs
    | registered u => exact h.same u.txs
    | @sentOut ks j st _ r u =>
      refine h.update u.txs ?_
      rintro rfl
      obtain ⟨r0,hr0,-⟩ := h
      cases u.fresh.symm.trans hr0
    | @attested ks j _ _ _ _ _ st r _ u =>
      obtain htxs | ⟨-,htxs⟩ := u.txs
      · refine h.update htxs ?_
        rintro rfl
        obtain ⟨r0,hr0,hcompleted⟩ := h
        obtain ⟨_,hi⟩ := u.instruction
        exact absurd hcompleted (hok _ _ _ _ _ r0 hi u.txKey hr0)
      · exact h.same htxs
    | completed u => exact h.update u.txs fun _ => rfl

theorem completes_once (hfm : fm.Decoded) (hspl : e.SplToken) (hall : AllInitialized e fm s.bank)
    (hstep : (program e fm).Step (NotReopened e fm k) s a t) (hmark : completes k ⟨s,a,t⟩=true) :
    ¬CompletedAt e fm k s ∧ CompletedAt e fm k t := by
  cases hstep with
  | outside hclock => cases hmark
  | @call _ _ hclock _ hexec =>
    simp only [completes] at hmark
    split at hmark
    case h_2 => cases hmark
    rename_i hi
    obtain ⟨_,j,_,_,_,r,u⟩ := (execute_spec hfm hspl hall hexec).completed_of hi
    cases u.txKey.symm.trans (of_decide_eq_true hmark)
    refine ⟨?_,{r with status := .completed},by rw [u.txs]; exact update_self ..,rfl⟩
    rintro ⟨_,hr0,hcompleted⟩
    cases u.tx.symm.trans hr0
    cases u.confirmed.symm.trans hcompleted

end Steps

theorem transfer_final {e : Deployment} {fm : Formats} (hfm : fm.Decoded) (hspl : e.SplToken)
    {start : Ledger} (h0 : Untouched e.programId start.bank)
    (hrun : Run ((program e fm).Step (NotReopened e fm k)) start tr t) :
    tr.countP (completes k)≤1 ∧ ∀ x∈tr,CompletedAt e fm k x.post → CompletedAt e fm k t := by
  obtain ⟨hcount,-,hfinal⟩ := hrun.once (CompletedAt e fm k) (completes k)
    (fun hbefore hstep h => completed_kept hfm hspl (initialized_run hfm hspl h0 hbefore) hstep h)
    (fun hbefore hstep hmark =>
    completes_once hfm hspl (initialized_run hfm hspl h0 hbefore) hstep hmark)
  exact ⟨hcount,hfinal⟩

theorem sample_completed : ∃ tr t,Run ((program sampleNet .values).Step
      (NotReopened sampleNet .values 7#256)) sampleStart tr t ∧ tr.length=4 ∧
    CompletedAt sampleNet .values 7#256 t := by
  obtain ⟨⟨tr,t⟩,hhistory,r,hr,hstatus,hlength,hopen⟩ : ∃ x,(program sampleNet .values).history
        [initializeCall 2#8,vaaCall 51#256 100#64 50#256,vaaCall 52#256 100#64 50#256,
          completeCall 60#256] sampleStart=some x ∧
      ∃ r,txAt sampleNet .values x.2.bank 7#256=some r ∧ r.status=.completed ∧ x.1.length=4 ∧
      ∀ y∈x.1,(txAt sampleNet .values y.pre.bank 7#256).all (·.status≠.completed) := by
    decide +kernel
  refine ⟨tr,t,history_run hhistory ?_,hlength,r,hr,hstatus⟩
  intro x hx c hc nonce amount sender recipient token r hi hkey hr
  have hone := hopen x hx
  rw [hr] at hone
  exact of_decide_eq_true hone

end EthereumBridge

/-- While nobody signs it once it is minted, a transfer from Ethereum and a deposit of bitcoins is
minted at most once, and stays minted. -/
theorem minted_once_per_deposit {e e' : Deployment} {fm : EthereumBridge.Formats}
    {fm' : BitcoinBridge.Formats} (hfm : fm.Decoded) (hfm' : fm'.Decoded) (hspl : e.SplToken)
    (hspl' : e'.SplToken) (k : Pubkey) :
    (∀ {start t tr},Untouched e.programId start.bank →
      Run ((EthereumBridge.program e fm).Step (EthereumBridge.NotReopened e fm k)) start tr t →
      tr.countP (EthereumBridge.completes k)≤1 ∧
        ∀ x∈tr,EthereumBridge.CompletedAt e fm k x.post → EthereumBridge.CompletedAt e fm k t) ∧
    ∀ {start t tr},
      Run ((BitcoinBridge.program e' fm').Step (BitcoinBridge.NotReattested e' fm' k)) start tr t →
      tr.countP (BitcoinBridge.confirms k)≤1 ∧
        ∀ x∈tr,BitcoinBridge.MintedAt e' fm' k x.post → BitcoinBridge.MintedAt e' fm' k t :=
  ⟨fun h0 hrun => EthereumBridge.transfer_final hfm hspl h0 hrun,
    fun hrun => BitcoinBridge.deposit_final hfm' hspl' hrun⟩

theorem transfer_and_deposit_minted_once :
    (∃ tr t,Run ((EthereumBridge.program EthereumBridge.sampleNet .values).Step
        (EthereumBridge.NotReopened EthereumBridge.sampleNet .values 7#256))
        EthereumBridge.sampleStart tr t ∧ tr.length=4 ∧
      tr.countP (EthereumBridge.completes 7#256)≤1 ∧
      EthereumBridge.CompletedAt EthereumBridge.sampleNet .values 7#256 t) ∧
    ∃ tr t,Run ((BitcoinBridge.program BitcoinBridge.sampleNet .values).Step
        (BitcoinBridge.NotReattested BitcoinBridge.sampleNet .values 7#256))
        BitcoinBridge.sampleStart tr t ∧ tr.length=3 ∧
      tr.countP (BitcoinBridge.confirms 7#256)≤1 ∧
      BitcoinBridge.MintedAt BitcoinBridge.sampleNet .values 7#256 t := by
  obtain ⟨htransfer,hdeposit⟩ := minted_once_per_deposit EthereumBridge.Formats.values_decoded
    BitcoinBridge.Formats.values_decoded EthereumBridge.sampleNet_spl BitcoinBridge.sampleNet_spl
    7#256
  obtain ⟨tr,t,hrun,hlength,hdone⟩ := EthereumBridge.sample_completed
  obtain ⟨tr',t',hrun',hlength',hdone'⟩ := BitcoinBridge.sample_minted
  exact ⟨⟨tr,t,hrun,hlength,(htransfer EthereumBridge.sampleStart_untouched hrun).1,hdone⟩,
    tr',t',hrun',hlength',(hdeposit hrun').1,hdone'⟩

/-- One more signature reopens what is minted, and it is minted again. -/
theorem late_signature_mints_again :
    (∃ tr t,Run ((EthereumBridge.program EthereumBridge.sampleNet .values).Step anyCall)
        EthereumBridge.sampleStart tr t ∧ tr.countP (EthereumBridge.completes 7#256)=2) ∧
    ∃ tr t,Run ((BitcoinBridge.program BitcoinBridge.sampleNet .values).Step anyCall)
        BitcoinBridge.sampleStart tr t ∧ tr.countP (BitcoinBridge.confirms 7#256)=2 := by
  constructor
  · exact exists_run_any [EthereumBridge.initializeCall 1#8,EthereumBridge.vaaCall 51#256 100#64
      50#256,EthereumBridge.completeCall 60#256,EthereumBridge.vaaCall 52#256 100#64 50#256,
      EthereumBridge.completeCall 60#256] (by decide +kernel)
  · exact exists_run_any [BitcoinBridge.initializeCall ⟨[51#256,52#256],by decide⟩,
      BitcoinBridge.submitCall 51#256 30000#64,BitcoinBridge.confirmCall 9#256 61#256,
      BitcoinBridge.submitCall 52#256 30000#64,BitcoinBridge.confirmCall 9#256 61#256]
      (by decide +kernel)

end PrismChain
