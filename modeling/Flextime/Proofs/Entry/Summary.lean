import Flextime.Intake.Entry
import Flextime.Proofs.Balance.DayRates
import Flextime.Proofs.Entry.Logged
import Flextime.Proofs.Intake.Field

/-! # When a summary exists

Entries that intake accepts are in order and of a known category. They are summed without a fault
exactly when what they log is a duration: under each category for a summary, in all for its total.
-/
namespace Flextime
open Duration

theorem Moment.midnight_bounds (d : Date) :
    0 ≤ (midnight d).micros ∧ (midnight d).micros ≤ calendarMicros := by
  have hlast := d.le_last
  simp only [micros, midnight, calendarMicros, microsPerDay, lastDayNumber] at hlast ⊢
  omega

namespace Entry

/-- What is checked of an entry when it is summed. -/
def IsValid (e : Entry) : Prop := e.check = .ok () ∧ ∃ c, Category.ofName e.label = .ok c

/-- No entry counts with more than the whole calendar. -/
theorem overlap_le (p : Period) (e : Entry) : e.overlap p ≤ calendarMicros := by
  have hlow := (Moment.midnight_bounds p.start).1
  have hhigh := (Moment.midnight_bounds p.stop).2
  unfold overlap
  generalize (Moment.midnight p.start).micros = a at hlow ⊢
  generalize (Moment.midnight p.stop).micros = b at hhigh ⊢
  omega

theorem exists_tallyInto {p : Period} {t : Tally} {e : Entry} (he : e.IsValid)
    (h0 : ∀ c, 0 ≤ (t.get c).micros)
    (h : ∀ c, (t.get c).micros + (if e.isOf c then e.share p else 0) < 1000000000 * 86400000000) :
    ∃ t', e.tallyInto p t = .ok t' := by
  obtain ⟨hcheck,c,hc⟩ := he
  by_cases ho : e.overlap p ≤ 0
  · exact ⟨t,tallyInto_eq_ok_iff.mpr ⟨hcheck,Or.inl ⟨ho,rfl⟩⟩⟩
  · have hle := e.overlap_le p
    have hlarge := calendarMicros_lt
    have hof : e.isOf c = true := by
      rw [isOf, hc]
      exact beq_self_eq_true _
    have hsum := h c
    rw [if_pos hof, share, Int.max_eq_right (by omega)] at hsum
    have hget := h0 c
    obtain ⟨u,hu⟩ := exists_ofMicros_iff (n := e.overlap p).mpr ⟨by omega,by omega⟩
    have hmicros := micros_of_ofMicros hu
    obtain ⟨w,hw⟩ := exists_add_iff (a := t.get c) (b := u).mpr ⟨by omega,by omega⟩
    exact ⟨t.put c w,tallyInto_eq_ok_iff.mpr ⟨hcheck,Or.inr ⟨by omega,c,hc,u,hu,w,hw,rfl⟩⟩⟩

end Entry

theorem loggedAs_nonneg (es : List Entry) (p : Period) (c : Category) : 0 ≤ loggedAs es p c :=
  logged_nonneg _ p

theorem loggedAs_le (es : List Entry) (p : Period) (c : Category) : loggedAs es p c ≤ logged es p := by
  induction es with
  | nil => exact le_refl _
  | cons e es ih =>
    have hshare := e.share_nonneg p
    rw [loggedAs_cons, logged_cons]
    split <;> omega

theorem exists_tallied_iff {p : Period} {es : List Entry} (hes : ∀ e ∈ es, e.IsValid) {t : Tally}
    (h0 : ∀ c, 0 ≤ (t.get c).micros) :
    (∃ t', es.foldlM (Entry.tallyInto p) t = .ok t') ↔
      ∀ c, (t.get c).micros + loggedAs es p c < 1000000000 * 86400000000 := by
  constructor
  · rintro ⟨t',ht⟩ c
    rw [← (tallied ht).2.1 c]
    exact (t'.get c).upper
  · intro h
    induction es generalizing t with
    | nil => exact ⟨t,rfl⟩
    | cons e es ih =>
      have hnext : ∀ c, (t.get c).micros + (if e.isOf c then e.share p else 0) <
          1000000000 * 86400000000 := by
        intro c
        have hc := h c
        have hrest := loggedAs_nonneg es p c
        rw [loggedAs_cons] at hc
        omega
      obtain ⟨next,he⟩ := Entry.exists_tallyInto (hes e List.mem_cons_self) h0 hnext
      have hget := Entry.get_tallyInto he
      obtain ⟨t',ht⟩ := ih (fun f hf => hes f (List.mem_cons_of_mem _ hf)) (t := next) (by
          intro c
          have hshare := e.share_nonneg p
          have hc := h0 c
          rw [hget c]
          split <;> omega) (by
          intro c
          have hc := h c
          rw [loggedAs_cons] at hc
          rw [hget c]
          omega)
      exact ⟨t',by rw [List.foldlM_cons, he]; exact ht⟩

/-- Valid entries have a summary exactly when each category is a duration. -/
theorem exists_summarize_iff {es : List Entry} (hes : ∀ e ∈ es, e.IsValid) (p : Period) :
    (∃ s, summarize es p = .ok s) ↔ ∀ c, InRange (loggedAs es p c) := by
  have htally := exists_tallied_iff (p := p) hes (t := .empty) fun c => le_refl _
  have hrange : ∀ c, (Tally.empty.get c).micros + loggedAs es p c < 1000000000 * 86400000000 ↔
      InRange (loggedAs es p c) := by
    intro c
    have hnonneg := loggedAs_nonneg es p c
    change 0 + loggedAs es p c < _ ↔ _
    unfold InRange
    omega
  simp only [hrange] at htally
  rw [← htally]
  constructor
  · rintro ⟨s,hs⟩
    exact ⟨s.tally,(summarize_eq_ok_iff.mp hs).2⟩
  · rintro ⟨t,ht⟩
    exact ⟨⟨p,t⟩,summarize_eq_ok_iff.mpr ⟨rfl,ht⟩⟩

theorem micros_of_elapsed {es : List Entry} {p : Period} {s : WorkSummary} (hs : summarize es p = .ok s)
    (c : Category) : (s.elapsed c).micros = loggedAs es p c := by
  obtain ⟨-,ht⟩ := summarize_eq_ok_iff.mp hs
  exact ((tallied ht).2.1 c).trans (zero_add _)

theorem exists_foldlM_add {ds : List Duration} (h : ∀ d ∈ ds, 0 ≤ d.micros) (a : Duration) (ha : 0 ≤ a.micros)
    (hsum : a.micros + (ds.map micros).sum < 1000000000 * 86400000000) : ∃ d, ds.foldlM add a = .ok d := by
  induction ds generalizing a with
  | nil => exact ⟨a,rfl⟩
  | cons b ds ih =>
    have hb := h b List.mem_cons_self
    have hds := fun d hd => h d (List.mem_cons_of_mem b hd)
    have hrest := sum_map_nonneg hds
    rw [List.map_cons, List.sum_cons] at hsum
    obtain ⟨c,hc⟩ := exists_add_iff (a := a) (b := b).mpr ⟨by omega,by omega⟩
    have hmicros := micros_of_add hc
    obtain ⟨d,hd⟩ := ih hds c (by omega) (by omega)
    exact ⟨d,by rw [List.foldlM_cons, hc]; exact hd⟩

theorem exists_sum_iff {ds : List Duration} (h : ∀ d ∈ ds, 0 ≤ d.micros) :
    (∃ d, Duration.sum ds = .ok d) ↔ InRange (ds.map micros).sum := by
  constructor
  · rintro ⟨d,hd⟩
    rw [← micros_of_sum hd]
    exact ⟨d.lower,d.upper⟩
  · rintro ⟨-,hupper⟩
    have hzero : Duration.zero.micros = 0 := rfl
    exact exists_foldlM_add h .zero hzero.ge (by rwa [hzero, zero_add])

namespace Tally

def Nonneg (t : Tally) : Prop := ∀ d ∈ t.durations, 0 ≤ d.micros

instance (t : Tally) : Decidable t.Nonneg := inferInstanceAs (Decidable (∀ d ∈ t.durations, 0 ≤ d.micros))

theorem Nonneg.get {t : Tally} (h : t.Nonneg) (c : Category) : 0 ≤ (t.get c).micros := by
  rw [Tally.get, get?]
  cases hc : t.entries.lookup c with
  | none => exact le_refl _
  | some d =>
    obtain ⟨l,r,hsplit,-⟩ := List.lookup_eq_some_iff.mp hc
    apply h
    rw [durations, hsplit]
    simp

theorem Nonneg.put {t : Tally} (h : t.Nonneg) (c : Category) {d : Duration} (hd : 0 ≤ d.micros) :
    (t.put c d).Nonneg := by
  intro e he
  rcases Assoc.mem_values_put he with rfl | he
  · exact hd
  · exact h e he

end Tally

theorem Entry.nonneg_tallyInto {p : Period} {t t' : Tally} {e : Entry} (ht : t.Nonneg)
    (h : e.tallyInto p t = .ok t') : t'.Nonneg := by
  obtain ⟨-,⟨-,rfl⟩ | ⟨ho,c,-,u,hu,v,hv,rfl⟩⟩ := tallyInto_eq_ok_iff.mp h
  · exact ht
  · apply ht.put
    have hget := ht.get c
    rw [micros_of_add hv, micros_of_ofMicros hu]
    omega

theorem nonneg_tallied {p : Period} {es : List Entry} {t t' : Tally} (ht : t.Nonneg)
    (h : es.foldlM (Entry.tallyInto p) t = .ok t') : t'.Nonneg := by
  induction es generalizing t with
  | nil =>
    obtain rfl := pure_eq_ok_iff.mp h
    exact ht
  | cons e es ih =>
    rw [List.foldlM_cons, bind_eq_ok_iff] at h
    obtain ⟨next,he,hes⟩ := h
    exact ih (Entry.nonneg_tallyInto ht he) hes

theorem nonneg_of_summarize {es : List Entry} {p : Period} {s : WorkSummary} (hs : summarize es p = .ok s) :
    s.tally.Nonneg :=
  nonneg_tallied (fun _ hd => absurd hd List.not_mem_nil) (summarize_eq_ok_iff.mp hs).2

/-- A summary has a total exactly when all that is logged is a duration. -/
theorem exists_total_iff {es : List Entry} {p : Period} {s : WorkSummary} (hs : summarize es p = .ok s) :
    (∃ d, s.total = .ok d) ↔ InRange (logged es p) := by
  rw [← sum_of_summarize hs]
  exact exists_sum_iff (nonneg_of_summarize hs)

namespace Intake

theorem entry_isValid {v : Json} {d : EntryDraft} (h : Intake.entry v = .ok d) : d.entry.IsValid := by
  obtain ⟨ms,-,hms⟩ := bind_eq_ok_iff.mp h
  obtain ⟨d',hfields,hcheck⟩ := bind_eq_ok_iff.mp hms
  split at hcheck
  · exact nomatch hcheck
  next horder =>
    obtain rfl := pure_eq_ok_iff.mp hcheck
    obtain ⟨p,hp,rfl⟩ := map_eq_ok_iff.mp hfields
    obtain ⟨-,hp⟩ := both_eq_ok_iff.mp hp
    obtain ⟨hstart,hp⟩ := both_eq_ok_iff.mp hp
    obtain ⟨hstop,-⟩ := both_eq_ok_iff.mp hp
    obtain ⟨v₁,-,h₁⟩ := required_eq_ok_iff.mp hstart
    obtain ⟨v₂,-,h₂⟩ := required_eq_ok_iff.mp hstop
    refine ⟨?_,p.1,Category.ofName_name p.1⟩
    have hzone : ¬(p.2.1.isZoned = true ∨ p.2.2.1.isZoned = true) := by
      rw [localMoment_eq_ok h₁, localMoment_eq_ok h₂]
      decide
    rw [Entry.check, EntryDraft.entry, if_neg hzone, if_neg horder]

theorem entries_isValid {v : Json} {ds : List EntryDraft} (h : entries v = .ok ds) :
    ∀ e ∈ ds.map EntryDraft.entry, e.IsValid := by
  intro e he
  obtain ⟨d,hd,rfl⟩ := List.mem_map.mp he
  obtain ⟨vs,rfl,hvs⟩ := list_eq_ok_iff.mp h
  have hvalid := hvs.imp fun _ _ hw => And.intro hw (entry_isValid hw)
  exact (forall₂_and_right.mp hvalid).2 d hd

end Intake
end Flextime
