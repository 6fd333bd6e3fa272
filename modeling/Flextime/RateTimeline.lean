import Flextime.Fault

/-! # Rates that change from day to day

A timeline holds rate changes in date order. A rate is in effect from its day until the next
change; before the first change it is zero. Changes of one day keep the order they came in, and
the last of them counts.
-/
namespace Flextime

structure RateChange where
  effective : Date
  rate : Binary64
deriving DecidableEq

namespace RateChange

def isNegative (c : RateChange) : Bool := c.rate.lt (.zero false)

def precedes (a b : RateChange) : Bool := decide (a.effective ≤ b.effective)

theorem precedes_trans (a b c : RateChange) (h : precedes a b) (k : precedes b c) :
    precedes a c := by
  simp only [precedes, decide_eq_true_eq] at *
  exact Nat.le_trans h k

theorem precedes_total (a b : RateChange) : precedes a b || precedes b a := by
  simp only [precedes, Bool.or_eq_true, decide_eq_true_eq]
  exact Nat.le_total _ _

end RateChange

structure RateTimeline where
  changes : List RateChange
  sorted : changes.Pairwise fun a b => a.precedes b = true
  admissible : ∀ c ∈ changes, c.isNegative = false
deriving DecidableEq

namespace RateTimeline

def empty : RateTimeline := ⟨[], .nil, fun _ h => absurd h List.not_mem_nil⟩

instance : Inhabited RateTimeline := ⟨empty⟩

/-- The timeline of the given changes; a negative rate is refused, the first one in the order
given. -/
def ofChanges (cs : List RateChange) : Except Fault RateTimeline :=
  match h : cs.find? (·.isNegative) with
  | some c => .error (.negativeRate c.rate c.effective)
  | none => .ok
    { changes := cs.mergeSort RateChange.precedes
      sorted := List.pairwise_mergeSort RateChange.precedes_trans RateChange.precedes_total cs
      admissible := fun c hc =>
        Bool.eq_false_iff.mpr (List.find?_eq_none.mp h c (List.mem_mergeSort.mp hc)) }

theorem ofChanges_eq_ok_iff {cs : List RateChange} {t : RateTimeline} :
    ofChanges cs = .ok t ↔
      (∀ c ∈ cs, c.isNegative = false) ∧ t.changes = cs.mergeSort RateChange.precedes := by
  unfold ofChanges
  split
  next c hc =>
    constructor
    · exact fun h => nomatch h
    intro h
    have hneg := List.find?_some hc
    rw [h.1 c (List.mem_of_find?_eq_some hc)] at hneg
    exact nomatch hneg
  next hc =>
    have hall : ∀ c ∈ cs, c.isNegative = false := fun c h =>
      Bool.eq_false_iff.mpr (List.find?_eq_none.mp hc c h)
    constructor
    · intro h
      cases h
      exact ⟨hall, rfl⟩
    · intro h
      obtain ⟨changes, sorted, admissible⟩ := t
      cases h.2
      rfl

theorem exists_ofChanges_iff {cs : List RateChange} :
    (∃ t, ofChanges cs = .ok t) ↔ ∀ c ∈ cs, c.isNegative = false := by
  constructor
  · intro ⟨t, ht⟩
    exact (ofChanges_eq_ok_iff.mp ht).1
  · intro h
    let t : RateTimeline :=
      { changes := cs.mergeSort RateChange.precedes
        sorted := List.pairwise_mergeSort RateChange.precedes_trans RateChange.precedes_total cs
        admissible := fun c hc => h c (List.mem_mergeSort.mp hc) }
    exact ⟨t, ofChanges_eq_ok_iff.mpr ⟨h, rfl⟩⟩

/-- A timeline is made of its own changes. -/
theorem ofChanges_changes (t : RateTimeline) : ofChanges t.changes = .ok t :=
  ofChanges_eq_ok_iff.mpr ⟨t.admissible, (List.mergeSort_of_pairwise t.sorted).symm⟩

theorem changes_perm {cs : List RateChange} {t : RateTimeline} (h : ofChanges cs = .ok t) :
    t.changes.Perm cs := by
  rw [(ofChanges_eq_ok_iff.mp h).2]
  exact List.mergeSort_perm cs _

/-- The rate in effect on a day. -/
def rateAt (t : RateTimeline) (day : Date) : Binary64 :=
  match (t.changes.takeWhile fun c => decide (c.effective ≤ day)).getLast? with
  | some c => c.rate
  | none => .zero false

def dropRepeats : List Date → List Date
  | a :: b :: rest => if a = b then dropRepeats (b :: rest) else a :: dropRepeats (b :: rest)
  | ds => ds

theorem mem_dropRepeats {d : Date} (ds : List Date) : d ∈ dropRepeats ds ↔ d ∈ ds := by
  induction ds with
  | nil => rfl
  | cons a rest ih =>
    cases rest with
    | nil => rfl
    | cons b rest =>
      unfold dropRepeats
      by_cases h : a = b
      · rw [if_pos h, ih, h]
        simp
      · rw [if_neg h, List.mem_cons, ih, List.mem_cons (a := d) (b := a)]

/-- The days strictly between `start` and `stop` on which a change takes effect, each once. -/
def changesWithin (t : RateTimeline) (start stop : Date) : List Date :=
  dropRepeats ((t.changes.map (·.effective)).filter fun d => decide (start < d) && decide (d < stop))

/-- The timeline with further changes given before and after its own. -/
def amend (t : RateTimeline) (before after : List RateChange) : Except Fault RateTimeline :=
  ofChanges (before ++ t.changes ++ after)

/-- The same days with numerically equal rates. -/
def agrees (s t : RateTimeline) : Bool :=
  s.changes.length == t.changes.length &&
    (s.changes.zip t.changes).all fun p => p.1.effective = p.2.effective && p.1.rate.beq p.2.rate

/-- How many timelines remain when those that agree count once. -/
def countDistinct (ts : List RateTimeline) : Nat :=
  (ts.foldl (fun seen t => if seen.any t.agrees then seen else t :: seen) []).length

def text (t : RateTimeline) : String :=
  let change (c : RateChange) : String := s!"{c.effective}={c.rate}"
  "RateTimeline(" ++ String.intercalate ", " (t.changes.map change) ++ ")"

end RateTimeline
end Flextime
