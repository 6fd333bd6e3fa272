import Flextime.Entry
import Flextime.Proofs.Calendar.Days
import Flextime.Proofs.Outcome

/-! # Logged time

What entries log in a period is the sum of their parts inside it. A summary holds exactly that, for
each category and in total, and it adds up when the period is cut.
-/
namespace Flextime

theorem Assoc.sum_put {κ α : Type} [DecidableEq κ] (f : α → Int) (es : List (κ × α)) (k : κ) (v : α) :
    ((Assoc.put es k v).map fun e => f e.2).sum + ((es.lookup k).map f).getD 0 =
      (es.map fun e => f e.2).sum + f v := by
  induction es with
  | nil => simp [Assoc.put]
  | cons e es ih =>
    rw [Assoc.lookup_cons]
    unfold Assoc.put
    by_cases h : e.1 = k
    · rw [if_pos h, if_pos h.symm]
      simp only [List.map_cons, List.sum_cons, Option.map_some, Option.getD_some]
      omega
    · rw [if_neg h, if_neg fun hk => h hk.symm]
      simp only [List.map_cons, List.sum_cons]
      omega

theorem Assoc.mem_values_put {κ α : Type} [DecidableEq κ] {es : List (κ × α)} {k : κ} {v w : α}
    (h : w ∈ (Assoc.put es k v).map Prod.snd) : w = v ∨ w ∈ es.map Prod.snd := by
  induction es with
  | nil => exact Or.inl (by simpa [Assoc.put] using h)
  | cons e es ih =>
    unfold Assoc.put at h
    split at h
    · rcases List.mem_cons.mp h with rfl | h
      · exact Or.inl rfl
      · exact Or.inr (List.mem_cons_of_mem _ h)
    · rcases List.mem_cons.mp h with rfl | h
      · exact Or.inr List.mem_cons_self
      · exact (ih h).imp_right fun h => List.mem_cons_of_mem _ h

namespace Tally

def sum (t : Tally) : Int := (t.durations.map Duration.micros).sum

@[simp] theorem sum_empty : empty.sum = 0 := rfl
@[simp] theorem get_empty (c : Category) : empty.get c = .zero := rfl

theorem sum_put (t : Tally) (c : Category) (d : Duration) :
    (t.put c d).sum + (t.get c).micros = t.sum + d.micros := by
  have h := Assoc.sum_put Duration.micros t.entries c d
  have hget : ((t.entries.lookup c).map Duration.micros).getD 0 = (t.get c).micros := by
    rw [get, get?]
    cases t.entries.lookup c <;> rfl
  rw [hget] at h
  simpa only [sum, durations, put, List.map_map, Function.comp_def] using h

end Tally

theorem Duration.micros_of_sum {ds : List Duration} {d : Duration} (h : Duration.sum ds = .ok d) :
    d.micros = (ds.map micros).sum := by
  have hfold : ∀ (ds : List Duration) (a : Duration), ds.foldlM add a = .ok d →
      d.micros = a.micros + (ds.map micros).sum := by
    intro ds
    induction ds with
    | nil =>
      intro a ha
      obtain rfl := pure_eq_ok_iff.mp ha
      simp
    | cons b ds ih =>
      intro a ha
      rw [List.foldlM_cons, bind_eq_ok_iff] at ha
      obtain ⟨c,hc,hd⟩ := ha
      rw [ih c hd, micros_of_add hc, List.map_cons, List.sum_cons]
      omega
  rw [hfold ds zero h]
  exact zero_add _

theorem Moment.midnight_le {a b : Date} (h : a ≤ b) : (midnight a).micros ≤ (midnight b).micros := by
  rw [Date.le_iff] at h
  have ha := a.one_le
  simp only [micros, midnight, microsPerDay]
  omega

namespace Entry

/-- Microseconds with which an entry counts in a period. -/
def share (p : Period) (e : Entry) : Int := max 0 (e.overlap p)

theorem share_nonneg (p : Period) (e : Entry) : 0 ≤ e.share p := by
  unfold share
  omega

def isOf (c : Category) (e : Entry) : Bool := (Category.ofName e.label).toOption == some c

theorem ordered_of_check {e : Entry} (h : e.check = .ok ()) : e.start.micros < e.stop.micros := by
  unfold check at h
  split at h
  · exact nomatch h
  · split at h
    · exact nomatch h
    · omega

theorem clip_split {s t a b c : Int} (hst : s < t) (hab : a ≤ b) (hbc : b ≤ c) :
    max 0 (min t b - max s a) + max 0 (min t c - max s b) = max 0 (min t c - max s a) := by omega

/-- An entry that spans a cut counts on both sides of it, as much as without the cut. -/
theorem share_split {e : Entry} (he : e.start.micros < e.stop.micros) {a b c : Date} (hab : a ≤ b)
    (hbc : b ≤ c) : e.share ⟨a,b⟩ + e.share ⟨b,c⟩ = e.share ⟨a,c⟩ :=
  clip_split he (Moment.midnight_le hab) (Moment.midnight_le hbc)

/-- A step either leaves the tally, for an entry outside the period, or adds the overlap to the
category of the entry. -/
theorem tallyInto_eq_ok_iff {p : Period} {t t' : Tally} {e : Entry} :
    e.tallyInto p t = .ok t' ↔ e.check = .ok () ∧
      (e.overlap p ≤ 0 ∧ t' = t ∨ 0 < e.overlap p ∧ ∃ c, Category.ofName e.label = .ok c ∧
        ∃ u, Duration.ofMicros (e.overlap p) = .ok u ∧
          ∃ v, (t.get c).add u = .ok v ∧ t' = t.put c v) := by
  unfold tallyInto
  rw [bind_eq_ok_iff]
  constructor
  · rintro ⟨⟨⟩,hcheck,h⟩
    refine ⟨hcheck,?_⟩
    by_cases ho : e.overlap p ≤ 0
    · rw [if_pos ho] at h
      exact Or.inl ⟨ho,(pure_eq_ok_iff.mp h).symm⟩
    · rw [if_neg ho] at h
      simp only [bind_eq_ok_iff, pure_eq_ok_iff] at h
      obtain ⟨c,hc,u,hu,v,hv,rfl⟩ := h
      exact Or.inr ⟨by omega,c,hc,u,hu,v,hv,rfl⟩
  · rintro ⟨hcheck,h⟩
    refine ⟨(),hcheck,?_⟩
    rcases h with ⟨ho,rfl⟩ | ⟨ho,c,hc,u,hu,v,hv,rfl⟩
    · rw [if_pos ho]
      rfl
    · rw [if_neg (by omega)]
      simp only [bind_eq_ok_iff, pure_eq_ok_iff]
      exact ⟨c,hc,u,hu,v,hv,rfl⟩

theorem sum_tallyInto {p : Period} {t t' : Tally} {e : Entry} (h : e.tallyInto p t = .ok t') :
    t'.sum = t.sum + e.share p := by
  obtain ⟨-,⟨ho,rfl⟩ | ⟨ho,c,-,u,hu,v,hv,rfl⟩⟩ := tallyInto_eq_ok_iff.mp h
  · rw [share]
    omega
  · have hput := t.sum_put c v
    rw [Duration.micros_of_add hv, Duration.micros_of_ofMicros hu] at hput
    rw [share]
    omega

theorem get_tallyInto {p : Period} {t t' : Tally} {e : Entry} (h : e.tallyInto p t = .ok t')
    (c : Category) : (t'.get c).micros = (t.get c).micros + if e.isOf c then e.share p else 0 := by
  obtain ⟨-,⟨ho,rfl⟩ | ⟨ho,c',hc,u,hu,v,hv,rfl⟩⟩ := tallyInto_eq_ok_iff.mp h
  · rw [share, Int.max_eq_left ho, ite_self, add_zero]
  · have hof : e.isOf c = true ↔ c = c' := by
      rw [isOf, hc, beq_iff_eq]
      exact ⟨fun h => (Option.some.inj h).symm,fun h => congrArg some h.symm⟩
    rw [Tally.get_put]
    by_cases hcc : c = c'
    · rw [if_pos hcc, if_pos (hof.mpr hcc), Duration.micros_of_add hv, Duration.micros_of_ofMicros hu, hcc,
        share, Int.max_eq_right (Int.le_of_lt ho)]
    · rw [if_neg hcc, if_neg fun h => hcc (hof.mp h), add_zero]

end Entry

/-- Microseconds that entries log in a period. -/
def logged (es : List Entry) (p : Period) : Int := (es.map (Entry.share p)).sum

/-- Microseconds that entries log in a period under one category. -/
def loggedAs (es : List Entry) (p : Period) (c : Category) : Int := logged (es.filter (Entry.isOf c)) p

@[simp] theorem logged_nil (p : Period) : logged [] p = 0 := rfl

theorem logged_cons (e : Entry) (es : List Entry) (p : Period) :
    logged (e :: es) p = e.share p + logged es p := by rw [logged, List.map_cons, List.sum_cons, logged]

@[simp] theorem loggedAs_nil (p : Period) (c : Category) : loggedAs [] p c = 0 := rfl

theorem loggedAs_cons (e : Entry) (es : List Entry) (p : Period) (c : Category) :
    loggedAs (e :: es) p c = (if e.isOf c then e.share p else 0) + loggedAs es p c := by
  rw [loggedAs, List.filter_cons]
  cases e.isOf c with
  | false => rw [if_neg Bool.false_ne_true, if_neg Bool.false_ne_true, zero_add, loggedAs]
  | true => rw [if_pos rfl, if_pos rfl, logged_cons, loggedAs]

theorem logged_nonneg (es : List Entry) (p : Period) : 0 ≤ logged es p :=
  sum_map_nonneg fun e _ => e.share_nonneg p

theorem logged_reversed (es : List Entry) {p : Period} (h : p.stop ≤ p.start) : logged es p = 0 := by
  have hmidnight := Moment.midnight_le h
  refine List.sum_eq_zero fun n hn => ?_
  obtain ⟨e,-,rfl⟩ := List.mem_map.mp hn
  rw [Entry.share, Entry.overlap]
  omega

/-- Logged time adds up when the period is cut. -/
theorem logged_split {es : List Entry} (hes : ∀ e ∈ es, e.check = .ok ()) {a b c : Date} (hab : a ≤ b)
    (hbc : b ≤ c) : logged es ⟨a,b⟩ + logged es ⟨b,c⟩ = logged es ⟨a,c⟩ := by
  induction es with
  | nil => rfl
  | cons e es ih =>
    have hsplit := Entry.share_split (Entry.ordered_of_check (hes e List.mem_cons_self)) hab hbc
    have hrest := ih fun f hf => hes f (List.mem_cons_of_mem _ hf)
    rw [logged_cons, logged_cons, logged_cons, add_add_add_comm, hsplit, hrest]

theorem tallied {p : Period} {es : List Entry} {t t' : Tally}
    (h : es.foldlM (Entry.tallyInto p) t = .ok t') :
    t'.sum = t.sum + logged es p ∧ (∀ c, (t'.get c).micros = (t.get c).micros + loggedAs es p c) ∧
      ∀ e ∈ es, e.check = .ok () := by
  induction es generalizing t with
  | nil =>
    obtain rfl := pure_eq_ok_iff.mp h
    exact ⟨(add_zero _).symm,fun _ => (add_zero _).symm,fun e he => absurd he List.not_mem_nil⟩
  | cons e es ih =>
    rw [List.foldlM_cons, bind_eq_ok_iff] at h
    obtain ⟨next,he,hes⟩ := h
    obtain ⟨hsum,hget,hcheck⟩ := ih hes
    refine ⟨?_,fun c => ?_,?_⟩
    · rw [hsum, Entry.sum_tallyInto he, logged_cons, add_assoc]
    · rw [hget c, Entry.get_tallyInto he c, loggedAs_cons, add_assoc]
    · intro f hf
      rcases List.mem_cons.mp hf with rfl | hf
      · exact (Entry.tallyInto_eq_ok_iff.mp he).1
      · exact hcheck f hf

theorem summarize_eq_ok_iff {es : List Entry} {p : Period} {s : WorkSummary} :
    summarize es p = .ok s ↔ s.period = p ∧ es.foldlM (Entry.tallyInto p) .empty = .ok s.tally := by
  unfold summarize
  simp only [bind_eq_ok_iff, pure_eq_ok_iff]
  constructor
  · rintro ⟨t,ht,rfl⟩
    exact ⟨rfl,ht⟩
  · rintro ⟨rfl,ht⟩
    exact ⟨s.tally,ht,rfl⟩

theorem sum_of_summarize {es : List Entry} {p : Period} {s : WorkSummary} (h : summarize es p = .ok s) :
    s.tally.sum = logged es p := by
  obtain ⟨-,ht⟩ := summarize_eq_ok_iff.mp h
  exact (tallied ht).1.trans (zero_add _)

/-- The total of a summary is what its entries log in its period. -/
theorem micros_of_total {es : List Entry} {p : Period} {s : WorkSummary} {d : Duration}
    (hs : summarize es p = .ok s) (h : s.total = .ok d) : d.micros = logged es p := by
  exact (Duration.micros_of_sum h).trans (sum_of_summarize hs)

end Flextime
