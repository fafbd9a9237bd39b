import PrismChain.Framework.Records

namespace PrismChain

open List Option

variable {I α : Type}

def Bank.settle (b : Bank) : Bank :=
  fun k => if (b k).lamports=0#64 then ⟨0#64,[],systemProgram⟩ else b k

/-- An address derived from the program's own id. No key exists for it. -/
def Host.Derived (h : Host) (k : Pubkey) : Prop :=
  ∃ seeds,(h.findProgramAddress seeds h.programId).1=k

abbrev Host.KeysSign (h : Host) (c : Call I) : Prop :=
  ∀ a∈c.accounts,a.isSigner=true → ¬h.Derived a.key

inductive Event (I : Type) where
  | call (c : Call I)
  | outside
  | settle

abbrev TxTrace (I : Type) := List (Transition Ledger (Event I))

section Settle

variable {b : Bank} {k : Pubkey} {c : Codec α} {id : Pubkey}

theorem Bank.settle_of_ne (h : (b k).lamports≠0#64) : b.settle k=b k := if_neg h

theorem Bank.settle_of_zero (h : (b k).lamports=0#64) :
    b.settle k=⟨0#64,[],systemProgram⟩ := if_pos h

theorem Bank.settle_lamports (b : Bank) (k : Pubkey) : (b.settle k).lamports=(b k).lamports := by
  by_cases h : (b k).lamports=0#64
  · rw [settle_of_zero h,h]
  · rw [settle_of_ne h]

/-- What is still found after the end of a transaction was there before, in an account that
holds lamports. -/
theorem recordAt_settle (hc : c.HasSize n) (hn : 0<n) (h : recordAt c live id b.settle k=some a) :
    (b k).lamports≠0#64 ∧ recordAt c live id b k=some a := by
  by_cases hzero : (b k).lamports=0#64
  · have hempty : recordAt c live id b.settle k=none :=
      recordAt_of_empty hc hn (by rw [Bank.settle_of_zero hzero])
    rw [hempty] at h
    cases h
  · have hsame := Bank.settle_of_ne hzero
    exact ⟨hzero,(recordAt_congr (by rw [hsame]) (by rw [hsame])).symm.trans h⟩

theorem recordAt_settle_of (hc : c.HasSize n) (hn : 0<n)
    (hkept : ∀ a,recordAt c live id b k=some a → (b k).lamports≠0#64) :
    recordAt c live id b.settle k=recordAt c live id b k := by
  by_cases hzero : (b k).lamports=0#64
  · have hnone : recordAt c live id b k=none :=
      eq_none_iff_forall_ne_some.mpr fun a ha => hkept a ha hzero
    rw [hnone]
    exact recordAt_of_empty hc hn (by rw [Bank.settle_of_zero hzero])
  · have hsame := Bank.settle_of_ne hzero
    exact recordAt_congr (by rw [hsame]) (by rw [hsame])

theorem frontAt_settle (hne : c.encode a≠[]) (h : frontAt c live id b.settle k=some a) :
    (b k).lamports≠0#64 ∧ frontAt c live id b k=some a := by
  by_cases hzero : (b k).lamports=0#64
  · obtain ⟨-,⟨_,hdata⟩,-⟩ := frontAt_eq_some.mp h
    rw [Bank.settle_of_zero hzero] at hdata
    exact absurd (append_eq_nil_iff.mp hdata.symm).1 hne
  · have hsame := Bank.settle_of_ne hzero
    exact ⟨hzero,(frontAt_congr (by rw [hsame]) (by rw [hsame])).symm.trans h⟩

end Settle

namespace Program

variable {P : Program I} {keyless : Pubkey → Prop}

/-- Accepted instructions, outside activity and ends of transactions in any order. Nobody signs
for an address without a key, and so nobody else takes lamports from it. -/
inductive TxStep (P : Program I) (keyless : Pubkey → Prop) : Ledger → Event I → Ledger → Prop
  | call {s : Ledger} {c : Call I} {b : Bank} (hclock : s.clock.before c.clock)
      (hsigners : ∀ a∈c.accounts,a.isSigner=true → ¬keyless a.key)
      (h : P.execute c s.bank=.ok b) : TxStep P keyless s (.call c) ⟨b,c.clock⟩
  | outside {s : Ledger} {b : Bank} {clk : Clock} (hclock : s.clock.before clk)
      (h : Outside P.id s.bank b)
      (hkept : ∀ k,keyless k → (s.bank k).lamports.toNat≤(b k).lamports.toNat) :
      TxStep P keyless s .outside ⟨b,clk⟩
  | settle {s : Ledger} : TxStep P keyless s .settle ⟨s.bank.settle,s.clock⟩

/-- Only an instruction of the program takes lamports from an address without a key. -/
theorem TxStep.debit {e : Event I} (hstep : P.TxStep keyless s e t) (hk : keyless k)
    (hless : (t.bank k).lamports.toNat<(s.bank k).lamports.toNat) :
    ∃ c,e=.call c ∧ (∀ a∈c.accounts,a.isSigner=true → ¬keyless a.key) ∧
      P.execute c s.bank=.ok t.bank := by
  cases hstep with
  | call _ hsigners hexec => exact ⟨_,rfl,hsigners,hexec⟩
  | outside _ _ hkept => exact absurd hless (Nat.not_lt.mpr (hkept k hk))
  | settle =>
    rw [Bank.settle_lamports] at hless
    exact absurd hless (lt_irrefl _)

/-- As `Step`, with ends of transactions, which drop the accounts without lamports. They count as
outside activity; of the bank before one of them `kept` is asked. -/
inductive Settling (P : Program I) (ok : Bank → Call I → Prop) (kept : Bank → Prop) :
    Ledger → Action I → Ledger → Prop
  | step {s t : Ledger} {a : Action I} (h : P.Step ok s a t) : Settling P ok kept s a t
  | settle {s : Ledger} (h : kept s.bank) :
      Settling P ok kept s .outside ⟨s.bank.settle,s.clock⟩

theorem settling_run (h : Run (P.Step ok) s tr t) : Run (P.Settling ok kept) s tr t :=
  h.mono .step

theorem settling_after {b : Bank} (hkept : kept b) (h : Run (P.Step ok) ⟨b.settle,clk⟩ tr t) :
    Run (P.Settling ok kept) ⟨b,clk⟩ (⟨⟨b,clk⟩,.outside,⟨b.settle,clk⟩⟩::tr) t :=
  (Run.start.next (.settle hkept)).append (settling_run h)

/-- A step to be evaluated: an instruction, a payment between users or the end of a
transaction. -/
inductive Move (I : Type) where
  | call (c : Call I)
  | pay (src dst : Pubkey) (amount : U64)
  | settle

def paid (b : Bank) (src dst : Pubkey) (amount : U64) : Option Bank :=
  if (b src).owner=systemProgram ∧ amount.toNat≤(b src).lamports.toNat ∧ src≠dst then
    (FixedWidth.checkedAdd (b dst).lamports amount).map fun credit =>
      (b.setLamports src ((b src).lamports-amount)).setLamports dst credit
  else none

def move (P : Program I) (s : Ledger) : Move I → Option (Event I×Ledger)
  | .call c =>
    match P.execute c s.bank with
    | .error _ => none
    | .ok b => if s.clock.before c.clock then some (.call c,⟨b,c.clock⟩) else none
  | .pay src dst amount => (paid s.bank src dst amount).map fun b => (.outside,⟨b,s.clock⟩)
  | .settle => some (.settle,⟨s.bank.settle,s.clock⟩)

def script (P : Program I) : List (Move I) → Ledger → Option (TxTrace I×Ledger)
  | [],s => some ([],s)
  | m::ms,s => (P.move s m).bind fun x =>
      (script P ms x.2).map fun y => (⟨s,x.1,x.2⟩::y.1,y.2)

def Move.event : Move I → Event I
  | .call c => .call c
  | .pay _ _ _ => .outside
  | .settle => .settle

/-- Nobody signs for an address without a key, and users do not live at one. -/
def Keyed (keyless : Pubkey → Prop) : Move I → Prop
  | .call c => ∀ a∈c.accounts,a.isSigner=true → ¬keyless a.key
  | .pay src _ _ => ¬keyless src
  | .settle => True

theorem paid_spec (hid : P.id≠systemProgram) (hsrc : ¬keyless src)
    (h : paid b src dst amount=some b') :
    Outside P.id b b' ∧ ∀ k,keyless k → (b k).lamports.toNat≤(b' k).lamports.toNat := by
  unfold paid at h
  split at h
  case isFalse => cases h
  rename_i hcond
  obtain ⟨howner,hle,hne⟩ := hcond
  obtain ⟨credit,hcredit,rfl⟩ := map_eq_some_iff.mp h
  have hcredited : FixedWidth.checkedAdd
      ((b.setLamports src ((b src).lamports-amount)) dst).lamports amount=some credit := by
    rw [Bank.setLamports_lamports,if_neg (Ne.symm hne)]
    exact hcredit
  have hmoved := Invocation.moved_of_debit_credit hle hcredited
  have hkept (k : Pubkey) (hk : k≠src) : (b k).lamports.toNat≤
      (((b.setLamports src ((b src).lamports-amount)).setLamports dst credit)
        k).lamports.toNat := by
    have hm := hmoved k
    rw [if_neg hk] at hm
    omega
  refine ⟨fun k => ⟨fun hown => ⟨by simpa using hown,by simp,hkept k ?_⟩,fun hno hown => ?_⟩,
    fun k hk => hkept k ?_⟩
  · rintro rfl
    exact hid (hown.symm.trans howner)
  · exact absurd (by simpa using hown) hno
  · rintro rfl
    exact hsrc hk

theorem move_step {e : Event I} (hid : P.id≠systemProgram) (hm : Keyed keyless m)
    (h : P.move s m=some (e,t)) : P.TxStep keyless s e t := by
  cases m with
  | call c =>
    simp only [move] at h
    cases hx : P.execute c s.bank with
    | error => simp [hx] at h
    | ok b =>
      rw [hx] at h
      dsimp only at h
      split at h
      · cases h
        exact .call ‹_› hm hx
      · cases h
  | pay =>
    obtain ⟨b,hb,he⟩ := map_eq_some_iff.mp h
    cases he
    obtain ⟨hout,hkept⟩ := paid_spec hid hm hb
    exact .outside ⟨le_rfl,le_rfl⟩ hout hkept
  | settle =>
    cases h
    exact .settle

theorem script_run (hid : P.id≠systemProgram) (hms : ∀ m∈ms,Keyed keyless m)
    (h : P.script ms s=some (tr,t)) : Run (P.TxStep keyless) s tr t := by
  induction ms generalizing s tr with
  | nil =>
    cases h
    exact .start
  | cons m ms ih =>
    obtain ⟨⟨e,u⟩,hmove,hrest⟩ := bind_eq_some_iff.mp h
    obtain ⟨⟨_,_⟩,htail,he⟩ := map_eq_some_iff.mp hrest
    cases he
    have hfirst : Run (P.TxStep keyless) s [⟨s,e,u⟩] u :=
      Run.start.next (move_step hid (hms m mem_cons_self) hmove)
    exact hfirst.append (ih (fun x hx => hms x (mem_cons_of_mem _ hx)) htail)

def Move.byUsers (users : List Pubkey) : Move I → Bool
  | .call c => c.accounts.all fun a => !a.isSigner||users.contains a.key
  | .pay src _ _ => users.contains src
  | .settle => true

theorem keyed_of_users (husers : ∀ k∈users,¬keyless k)
    (hm : Move.byUsers users m=true) : Keyed (I := I) keyless m := by
  cases m with
  | call =>
    intro a ha hsigner
    have haccount := all_eq_true.mp hm a ha
    rw [hsigner,Bool.not_true,Bool.false_or,contains_iff_mem] at haccount
    exact husers a.key haccount
  | pay src => exact husers src (contains_iff_mem.mp hm)
  | settle => trivial

theorem script_by {ms : List (Move I)} (hid : P.id≠systemProgram) (husers : ∀ k∈users,¬keyless k)
    (hms : ms.all (Move.byUsers users)=true) (h : P.script ms s=some (tr,t)) :
    Run (P.TxStep keyless) s tr t :=
  script_run hid (fun m hm => keyed_of_users husers (all_eq_true.mp hms m hm)) h

theorem move_event {e : Event I} (h : P.move s m=some (e,t)) : e=m.event := by
  cases m with
  | call =>
    simp only [move] at h
    split at h
    · cases h
    · split at h
      · exact (Prod.mk.inj (some.inj h)).1.symm
      · cases h
  | pay =>
    obtain ⟨_,-,he⟩ := map_eq_some_iff.mp h
    exact (Prod.mk.inj he).1.symm
  | settle => exact (Prod.mk.inj (some.inj h)).1.symm

theorem exists_script_step {q : Ledger → Ledger → Prop} (ms : List (Move I)) (c : Call I)
    (hid : P.id≠systemProgram) (husers : ∀ k∈users,¬keyless k)
    (hms : (.call c::ms).all (Move.byUsers users)=true)
    (h : ∃ x,P.script ms s=some x ∧ ∃ y,P.move x.2 (.call c)=some y ∧ q x.2 y.2) :
    ∃ tr t u,Run (P.TxStep keyless) s tr t ∧ P.TxStep keyless t (.call c) u ∧ q t u := by
  obtain ⟨⟨tr,t⟩,hscript,⟨a,u⟩,hmove,hq⟩ := h
  rw [all_cons,Bool.and_eq_true] at hms
  obtain rfl : a=.call c := move_event hmove
  exact ⟨tr,t,u,script_by hid husers hms.2 hscript,
    move_step hid (keyed_of_users husers hms.1) hmove,hq⟩

theorem script_labels (h : P.script ms s=some (tr,t)) :
    tr.map Transition.label=ms.map Move.event := by
  induction ms generalizing s tr with
  | nil =>
    cases h
    rfl
  | cons _ ms ih =>
    obtain ⟨⟨e,u⟩,hmove,hrest⟩ := bind_eq_some_iff.mp h
    obtain ⟨⟨_,_⟩,htail,he⟩ := map_eq_some_iff.mp hrest
    cases he
    rw [map_cons,map_cons,ih htail,move_event hmove]

end Program
end PrismChain
