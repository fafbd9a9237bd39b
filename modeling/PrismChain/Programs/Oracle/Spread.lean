import PrismChain.Programs.Oracle.Freshness

namespace PrismChain.Oracle

open List Program

/-- The two values in the middle of the sorted ones, one value twice when their number is odd. -/
def middle (values : List I128) : Option (I128×I128) :=
  let sorted := values.insertionSort fun a b => a.toInt≤b.toInt
  sorted[(sorted.length-1)/2]?.bind fun lower => sorted[sorted.length/2]?.map fun upper =>
    (lower,upper)

/-- The median is the average of the two in the middle, no difference to it overflows, and the
confidence is as large as any submission's and as any price is far from the median. -/
def Covers (l : List OracleSubmission) (lower upper m : I128) : Prop :=
  m.toInt=(lower.toInt+upper.toInt)/2 ∧ ∀ s∈l,-2^127≤ s.price.toInt-m.toInt ∧
    s.price.toInt-m.toInt<2^127 ∧ s.confidence.toNat≤(aggregateConfidence l m).toNat ∧
    (s.price.toInt-m.toInt).natAbs≤(aggregateConfidence l m).toNat

theorem median_of_middle (h : middle values=some (lower,upper)) :
    lower∈values ∧ upper∈values ∧ (values.length%2=1 → lower=upper) ∧
    median values=some (if values.length%2=0 then (lower+upper).sdiv 2#128 else upper) := by
  obtain ⟨x,hx,hrest⟩ := Option.bind_eq_some_iff.mp h
  obtain ⟨y,hy,heq⟩ := Option.map_eq_some_iff.mp hrest
  cases heq
  have hmem {z} (hz : z∈values.insertionSort fun a b => a.toInt≤b.toInt) : z∈values :=
    (perm_insertionSort _ _).mem_iff.mp hz
  refine ⟨hmem (mem_of_getElem? hx),hmem (mem_of_getElem? hy),fun hodd => ?_,?_⟩
  · rw [length_insertionSort,show (values.length-1)/2=values.length/2 by omega] at hx
    rw [length_insertionSort] at hy
    exact Option.some.inj (hx.symm.trans hy)
  · rw [length_insertionSort] at hx hy
    simp only [median,length_insertionSort]
    split_ifs with heven
    · rw [show values.length/2-1=(values.length-1)/2 by omega,hx,hy]
      rfl
    · exact hy

/-- The sum of two positive prices is exact when it fits, and negative when it does not. -/
theorem average_iff {a b : I128} (ha : 0<a.toInt) (hb : 0<b.toInt) :
    ((a+b).sdiv 2#128).toInt=(a.toInt+b.toInt)/2 ↔ a.toInt+b.toInt<2^127 := by
  have hda := a.toInt_lt
  have hdb := b.toInt_lt
  have hsum := BitVec.toInt_add a b
  rw [Int.bmod_def] at hsum
  rw [BitVec.toInt_sdiv_of_ne_or_ne _ _ (.inr (by decide)),Int.tdiv_eq_ediv,
    show (2#128).toInt=2 from rfl,show Int.sign 2=1 from rfl]
  simp only [Nat.reducePow,Nat.add_one_sub_one] at hda hdb hsum
  split_ifs at hsum ⊢ <;> omega

theorem le_largest (values : List U64) : ∀ x∈values,x.toNat≤(largest values).toNat := by
  suffices hall : ∀ m : U64,m.toNat≤(values.foldl (fun m x => if m.toNat<x.toNat then x else m)
      m).toNat ∧ ∀ x∈values,x.toNat≤(values.foldl (fun m x => if m.toNat<x.toNat then x else m)
      m).toNat from (hall 0#64).2
  induction values with
  | nil => simp
  | cons y _ ih =>
    intro m
    obtain ⟨hle,hall⟩ := ih (if m.toNat<y.toNat then y else m)
    have hboth : m.toNat≤(if m.toNat<y.toNat then y else m).toNat ∧
        y.toNat≤(if m.toNat<y.toNat then y else m).toNat := by
      split_ifs <;> omega
    exact ⟨hboth.1.trans hle,forall_mem_cons.mpr ⟨hboth.2.trans hle,hall⟩⟩

theorem le_aggregateConfidence {s : OracleSubmission} (hs : s∈l) (m : I128) :
    s.confidence.toNat≤(aggregateConfidence l m).toNat ∧
      (deviation m s.price).toNat≤(aggregateConfidence l m).toNat := by
  have hconfidence := le_largest _ _ (mem_map_of_mem (f := OracleSubmission.confidence) hs)
  have hdeviation := le_largest _ _ (mem_map_of_mem (f := fun s => deviation m s.price) hs)
  exact ⟨hconfidence.trans (le_largest _ _ mem_cons_self),
    hdeviation.trans (le_largest _ _ (mem_cons_of_mem _ mem_cons_self))⟩

/-- The cast to 64 bits keeps what is below 2^64. -/
theorem deviation_exact {m price : I128} (h : (price.toInt-m.toInt).natAbs<2^64) :
    (deviation m price).toNat=(price.toInt-m.toInt).natAbs := by
  have hdiff : (price-m).toInt=price.toInt-m.toInt := by
    rw [BitVec.toInt_sub,Int.bmod_def]
    simp only [Nat.reducePow] at h ⊢
    split_ifs <;> omega
  have hvalue := BitVec.toInt_eq_toNat_cond (price-m)
  have hlt := (price-m).isLt
  simp only [deviation,hdiff]
  rw [hdiff] at hvalue
  split_ifs at hvalue ⊢ <;> simp only
    [BitVec.toNat_setWidth,BitVec.toNat_neg,Nat.reducePow] at * <;>
    omega

/-- The confidence covers the spread exactly when the sum of the two middle prices fits in 128 bits
and no price is 2^64 or more from the median. -/
theorem confidence_covers_iff {l : List OracleSubmission} (hpos : ∀ s∈l,0< s.price.toInt) :
    (∃ lower upper m,middle (l.map OracleSubmission.price)=some (lower,upper) ∧
      median (l.map OracleSubmission.price)=some m ∧ Covers l lower upper m) ↔
    ∃ lower upper,middle (l.map OracleSubmission.price)=some (lower,upper) ∧
      (l.length%2=0 → lower.toInt+upper.toInt<2^127) ∧
      ∀ s∈l,(s.price.toInt-(lower.toInt+upper.toInt)/2).natAbs<2^64 := by
  have hmedian {lower upper m : I128} (hmid : middle (l.map OracleSubmission.price)=
      some (lower,upper)) (hm : median (l.map OracleSubmission.price)=some m) :
      m.toInt=(lower.toInt+upper.toInt)/2 ↔ (l.length%2=0 → lower.toInt+upper.toInt<2^127) := by
    obtain ⟨hlower,hupper,hodd,heq⟩ := median_of_middle hmid
    obtain ⟨s,hs,rfl⟩ := mem_map.mp hlower
    obtain ⟨s',hs',rfl⟩ := mem_map.mp hupper
    rw [length_map] at hodd heq
    rw [← Option.some.inj (heq.symm.trans hm)]
    split_ifs with heven
    · rw [average_iff (hpos s hs) (hpos s' hs')]
      exact ⟨fun h _ => h,fun h => h heven⟩
    · rw [hodd (by omega)]
      exact ⟨fun _ h => absurd h heven,fun _ => by omega⟩
  constructor
  · rintro ⟨lower,upper,m,hmid,hm,hexact,hall⟩
    refine ⟨lower,upper,hmid,(hmedian hmid hm).mp hexact,fun s hs => ?_⟩
    rw [← hexact]
    exact (hall s hs).2.2.2.trans_lt (aggregateConfidence l m).isLt
  · rintro ⟨lower,upper,hmid,hfits,hall⟩
    obtain ⟨-,-,-,hm⟩ := median_of_middle hmid
    have hexact := (hmedian hmid hm).mpr hfits
    refine ⟨lower,upper,_,hmid,hm,hexact,fun s hs => ?_⟩
    have hclose := hall s hs
    rw [← hexact] at hclose
    obtain ⟨hconfidence,hdeviation⟩ := le_aggregateConfidence hs _
    rw [deviation_exact hclose] at hdeviation
    exact ⟨by omega,by omega,hconfidence,hdeviation⟩

/-- Two prices that differ by 200. -/
theorem modest_spread_covered : ∃ lower upper m,middle [1000#128,1200#128]=some (lower,upper) ∧
    median [1000#128,1200#128]=some m ∧
    Covers [⟨3#256,1000#128,5#64,0#64,0#64⟩,⟨4#256,1200#128,5#64,0#64,0#64⟩] lower upper m :=
  (confidence_covers_iff (l := [⟨3#256,1000#128,5#64,0#64,0#64⟩,⟨4#256,1200#128,5#64,0#64,0#64⟩])
    (by decide)).mpr ⟨1000#128,1200#128,by decide +kernel,by decide,by decide⟩

def roundCalls (first second : I128) : List (Call Instruction) :=
  [adminCall (.initializeFeed 7#256 .crypto 60#64 2#32),adminCall (.addOracle 3#256),
    adminCall (.addOracle 4#256),submitCall 3#256 first 1000#64,submitCall 4#256 second 1000#64]

/-- The sum of two prices of 2^127-1 wraps around, and the median is negative. A price of 1 is 2^64
from the median of 1 and 2^65+1, and the confidence is 1. -/
theorem spread_uncovered :
    (∃ tr t feed,Run ((program sampleHost sampleStorage).Step anyCall) genesis tr t ∧
      tr.map Transition.label=(roundCalls (.intMax 128) (.intMax 128)).map .call ∧
      feedAt sampleHost sampleStorage t.bank 20#256=some feed ∧ feed.latestPrice=-1#128) ∧
    ∃ tr t feed,Run ((program sampleHost sampleStorage).Step anyCall) genesis tr t ∧
      tr.map Transition.label=(roundCalls 1#128 36893488147419103233#128).map .call ∧
      feedAt sampleHost sampleStorage t.bank 20#256=some feed ∧
      feed.latestPrice=18446744073709551617#128 ∧ feed.latestConfidence=1#64 := by
  simp only [exists_and_left]
  exact ⟨exists_run_any (roundCalls (.intMax 128) (.intMax 128)) (by decide +kernel),
    exists_run_any (roundCalls 1#128 36893488147419103233#128) (by decide +kernel)⟩

end PrismChain.Oracle
