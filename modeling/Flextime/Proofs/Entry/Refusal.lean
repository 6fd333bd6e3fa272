import Flextime.Proofs.Entry.Overlap

/-! # Refused entries

The times of an entry are looked at wherever it lies, its category only in a period that it overlaps. So the same
entries are refused in every period for their times, but for a label that is the name of no category only in the
periods in which they count.
-/
namespace Flextime
open Duration

namespace Entry

/-- The label is the name of no category. -/
def IsUnknown (e : Entry) : Prop := (Category.ofName e.label).isOk = false

instance (e : Entry) : Decidable e.IsUnknown := inferInstanceAs (Decidable (_ = _))

/-- What ends the summing of a period: times that are not sound, and inside the period an unknown label. -/
def IsRefused (p : Period) (e : Entry) : Prop := ¬e.IsSound ∨ e.IsUnknown ∧ 0 < e.overlap p

instance (p : Period) (e : Entry) : Decidable (e.IsRefused p) := inferInstanceAs (Decidable (_ ∨ _ ∧ _))

/-- What an entry that is refused is refused with. -/
def refusal (e : Entry) : Fault := if e.IsSound then .unknownCategory e.label else e.fault

section
variable {p : Period} {e : Entry}

theorem exists_category_of_known (h : ¬e.IsUnknown) : ∃ c, Category.ofName e.label = .ok c :=
  exists_of_isOk (Bool.eq_true_of_not_eq_false h)

theorem ofName_of_isUnknown (h : e.IsUnknown) : Category.ofName e.label = .error (.unknownCategory e.label) := by
  unfold IsUnknown Category.ofName at *
  split
  next hc => simp [hc, Except.isOk, Except.toBool] at h
  next => rfl

theorem tallyInto_of_outside (he : e.IsSound) (ho : e.overlap p ≤ 0) (t : Tally) : e.tallyInto p t = .ok t :=
  tallyInto_eq_ok_iff.mpr ⟨check_eq_ok_iff.mpr he,Or.inl ⟨ho,rfl⟩⟩

theorem tallyInto_of_isRefused (h : e.IsRefused p) (t : Tally) : e.tallyInto p t = .error e.refusal := by
  unfold tallyInto refusal
  by_cases hsound : e.IsSound
  · obtain ⟨hunknown,ho⟩ := h.resolve_left (not_not_intro hsound)
    rw [check_eq_ok_iff.mpr hsound, ok_bind, if_neg (by omega), ofName_of_isUnknown hunknown, if_pos hsound]
    rfl
  · rw [check_of_not_isSound hsound, if_neg hsound]
    rfl

end
end Entry

/-- The entries that overlap a period. -/
def overlapping (p : Period) (es : List Entry) : List Entry := es.filter fun e => decide (0 < e.overlap p)

theorem overlapping_cons (p : Period) (e : Entry) (es : List Entry) :
    overlapping p (e :: es) = if 0 < e.overlap p then e :: overlapping p es else overlapping p es := by
  simp [overlapping, List.filter_cons]

section
variable {p : Period} {es : List Entry}

theorem isValid_of_mem_overlapping (h : ∀ e ∈ es, ¬e.IsRefused p) {e : Entry} (he : e ∈ overlapping p es) :
    e.IsValid := by
  obtain ⟨hmem,ho⟩ := List.mem_filter.mp he
  obtain ⟨hsound,hknown⟩ := not_or.mp (h e hmem)
  refine Entry.isValid_of_isSound (not_not.mp hsound) (Entry.exists_category_of_known fun hunknown => ?_)
  exact hknown ⟨hunknown,of_decide_eq_true ho⟩

/-- An entry outside the period leaves the tally as it is. -/
theorem tallied_overlapping (h : ∀ e ∈ es, e.IsSound) (t : Tally) :
    (overlapping p es).foldlM (Entry.tallyInto p) t = es.foldlM (Entry.tallyInto p) t := by
  induction es generalizing t with
  | nil => rfl
  | cons e es ih =>
    obtain ⟨he,hes⟩ := List.forall_mem_cons.mp h
    rw [overlapping_cons]
    split
    next ho =>
      rw [List.foldlM_cons, List.foldlM_cons]
      exact bind_congr fun t' => ih hes t'
    next ho =>
      rw [List.foldlM_cons, Entry.tallyInto_of_outside he (not_lt.mp ho), ok_bind]
      exact ih hes t

theorem loggedAs_overlapping (p : Period) (es : List Entry) (c : Category) :
    loggedAs (overlapping p es) p c = loggedAs es p c := by
  induction es with
  | nil => rfl
  | cons e es ih =>
    rw [overlapping_cons, loggedAs_cons, ← ih]
    split
    next ho => rw [loggedAs_cons]
    next ho => rw [Entry.share, max_eq_left (not_lt.mp ho), ite_self, zero_add]

/-- Where none is refused the entries are summed, or a category of them is too long for a duration. -/
theorem summarize_of_none_refused (h : ∀ e ∈ es, ¬e.IsRefused p) :
    ((∀ c, InRange (loggedAs es p c)) → ∃ s, summarize es p = .ok s) ∧
      (¬(∀ c, InRange (loggedAs es p c)) → ∃ days, summarize es p = .error (.durationRange days)) := by
  have hsound : ∀ e ∈ es, e.IsSound := fun e he => not_not.mp (not_or.mp (h e he)).1
  have hvalid := summarize_of_valid (fun e he => isValid_of_mem_overlapping h he) p
  simp only [loggedAs_overlapping] at hvalid
  unfold summarize at *
  rwa [tallied_overlapping hsound] at hvalid

end

theorem exists_refused_split (es : List Entry) (p : Period) : (∃ e ∈ es, e.IsRefused p) ↔
    (∃ e ∈ es, ¬e.IsSound) ∨ ∃ e ∈ es, e.IsUnknown ∧ 0 < e.overlap p := by
  simp only [Entry.IsRefused, and_or_left, exists_or]

theorem exists_first_refused {es : List Entry} {p : Period} (h : ∃ e ∈ es, e.IsRefused p) :
    ∃ front e rest, es = front ++ e :: rest ∧ (∀ g ∈ front, ¬g.IsRefused p) ∧ e.IsRefused p := by
  have hfind : (es.find? fun e => decide (e.IsRefused p)).isSome = true := by simpa using h
  obtain ⟨e,he⟩ := Option.isSome_iff_exists.mp hfind
  obtain ⟨hrefused,front,rest,rfl,hfront⟩ := List.find?_eq_some_iff_append.mp he
  exact ⟨front,e,rest,rfl,by simpa using hfront,of_decide_eq_true hrefused⟩

/-- The first entry that is refused ends the summing, unless those in front of it are too long. -/
theorem summarize_of_refused {front : List Entry} {p : Period} (hfront : ∀ g ∈ front, ¬g.IsRefused p) {e : Entry}
    (he : e.IsRefused p) (rest : List Entry) :
    ((∀ c, InRange (loggedAs front p c)) → summarize (front ++ e :: rest) p = .error e.refusal) ∧
      (¬(∀ c, InRange (loggedAs front p c)) →
        ∃ days, summarize (front ++ e :: rest) p = .error (.durationRange days)) := by
  obtain ⟨hin,hout⟩ := summarize_of_none_refused hfront
  obtain ⟨hstop,hbefore⟩ := summarize_of_stop (Entry.tallyInto_of_isRefused he) front rest
  exact ⟨fun hrange => hstop (hin hrange),fun hrange => (hout hrange).imp fun _ => hbefore _⟩

/-- A sum leaves the range of durations before any entry is refused. -/
def Overflows (es : List Entry) (p : Period) : Prop := ∃ days, summarize es p = .error (.durationRange days)

/-- So many entries are no longer than a duration even when each of them takes the whole calendar. -/
theorem inRange_loggedAs {es : List Entry} (h : es.length ≤ 273) (p : Period) (c : Category) :
    InRange (loggedAs es p c) := by
  have hnonneg := loggedAs_nonneg es p c
  have hle := loggedAs_le es p c
  have hshares : logged es p ≤ (es.map (Entry.share p)).length • calendarMicros := by
    refine List.sum_le_card_nsmul _ _ fun n hn => ?_
    obtain ⟨e,-,rfl⟩ := List.mem_map.mp hn
    exact max_le (by decide) (e.overlap_le p)
  rw [List.length_map, nsmul_eq_mul] at hshares
  have hcalendar : (es.length : Int) * calendarMicros ≤ 273 * calendarMicros :=
    mul_le_mul_of_nonneg_right (by exact_mod_cast h) (by decide)
  have hlarge : 273 * calendarMicros < 1000000000 * 86400000000 := by decide
  exact ⟨by omega,by omega⟩

theorem refusal_ne_durationRange (e : Entry) (days : Int) : e.refusal ≠ .durationRange days := by
  unfold Entry.refusal Entry.fault
  split
  · exact nofun
  · split <;> exact nofun

theorem not_overflows {es : List Entry} (h : es.length ≤ 273) (p : Period) : ¬Overflows es p := by
  rintro ⟨days,hdays⟩
  by_cases hrefused : ∃ e ∈ es, e.IsRefused p
  · obtain ⟨front,e,rest,rfl,hfront,he⟩ := exists_first_refused hrefused
    have hlength : front.length ≤ 273 := le_trans (by simp) h
    have hstop := (summarize_of_refused hfront he rest).1 (inRange_loggedAs hlength p)
    exact refusal_ne_durationRange e days (Except.error.inj (hstop.symm.trans hdays))
  · push Not at hrefused
    obtain ⟨s,hs⟩ := (summarize_of_none_refused hrefused).1 (inRange_loggedAs h p)
    exact nomatch hs.symm.trans hdays

/-- Apart from the size of sums, a fault is that of an entry. -/
theorem exists_fault_iff {es : List Entry} {p : Period} (h : ¬Overflows es p) :
    (∃ f, summarize es p = .error f) ↔ ∃ e ∈ es, e.IsRefused p := by
  constructor
  · rintro ⟨f,hf⟩
    by_contra hnone
    push Not at hnone
    obtain ⟨hin,hout⟩ := summarize_of_none_refused hnone
    obtain ⟨s,hs⟩ := hin (not_not.mp (mt hout h))
    exact nomatch hs.symm.trans hf
  · intro hrefused
    obtain ⟨front,e,rest,rfl,hfront,he⟩ := exists_first_refused hrefused
    obtain ⟨hin,hout⟩ := summarize_of_refused hfront he rest
    exact ⟨_,hin (not_not.mp (mt hout h))⟩

/-- Entries are summed when none of them is refused in the period, and else the first one that is ends the
summing, unless a category has become too long for a duration before. What is refused for its times is refused
in every period, and an unknown label in the periods that its entry overlaps. So two periods, as long as no sum is
too long, can differ in whether entries are refused only when all times are sound, and then they do exactly when
an entry with an unknown label overlaps the one and none overlaps the other. -/
theorem summarize_refusal (es : List Entry) :
    (∀ p, (∀ e ∈ es, ¬e.IsRefused p) →
      ((∀ c, InRange (loggedAs es p c)) → ∃ s, summarize es p = .ok s) ∧
      (¬(∀ c, InRange (loggedAs es p c)) → Overflows es p)) ∧
    (∀ p front e rest, es = front ++ e :: rest → (∀ g ∈ front, ¬g.IsRefused p) → e.IsRefused p →
      ((∀ c, InRange (loggedAs front p c)) → summarize es p = .error e.refusal) ∧
      (¬(∀ c, InRange (loggedAs front p c)) → Overflows es p)) ∧
    ∀ p q, ¬Overflows es p → ¬Overflows es q →
      (((∃ f, summarize es p = .error f) ↔ ∃ f, summarize es q = .error f) ↔
        (∃ e ∈ es, ¬e.IsSound) ∨
          ((∃ e ∈ es, e.IsUnknown ∧ 0 < e.overlap p) ↔ ∃ e ∈ es, e.IsUnknown ∧ 0 < e.overlap q)) := by
  refine ⟨fun p h => summarize_of_none_refused h,?_,fun p q hp hq => ?_⟩
  · rintro p front e rest rfl hfront he
    exact summarize_of_refused hfront he rest
  · rw [exists_fault_iff hp, exists_fault_iff hq, exists_refused_split, exists_refused_split]
    by_cases hunsound : ∃ e ∈ es, ¬e.IsSound
    · simp only [hunsound, true_or]
    · simp only [hunsound, false_or]

/-- A Friday under a label that is no category. -/
def sickLeave : Entry where
  label := "sick"
  start := Moment.midnight (dayIn2023 13)
  stop := Moment.midnight (dayIn2023 14)

def thursday : Period := ⟨dayIn2023 12,dayIn2023 13⟩

/-- The label is refused on the Friday and not on the Thursday. With an empty entry behind it, the entries are
refused on both. -/
theorem summarize_refusal_sick :
    summarize [standby,sickLeave] friday = .error (.unknownCategory "sick") ∧
      (∃ s, summarize [standby,sickLeave] thursday = .ok s) ∧
      ((∃ f, summarize [standby,sickLeave,emptyRest] friday = .error f) ↔
        ∃ f, summarize [standby,sickLeave,emptyRest] thursday = .error f) := by
  obtain ⟨hnone,hfirst,-⟩ := summarize_refusal [standby,sickLeave]
  have hshort : [standby,sickLeave].length ≤ 273 := by decide
  refine ⟨?_,(hnone thursday (by decide +kernel)).1 (inRange_loggedAs hshort _),?_⟩
  · exact (hfirst friday [standby] sickLeave [] rfl (by decide +kernel) (by decide +kernel)).1
      (inRange_loggedAs (by decide) _)
  · have hlength : [standby,sickLeave,emptyRest].length ≤ 273 := by decide
    exact ((summarize_refusal _).2.2 friday thursday (not_overflows hlength _) (not_overflows hlength _)).mpr
      (Or.inl ⟨emptyRest,by simp,by decide +kernel⟩)

/-- An unknown label is refused in one period and not in another. -/
theorem sickLeave_refused_once :
    summarize [sickLeave] friday = .error (.unknownCategory "sick") ∧
      summarize [sickLeave] thursday = .ok ⟨thursday,.empty⟩ ∧
      ¬∀ (es : List Entry) (p q : Period), ¬Overflows es p → ¬Overflows es q →
        ((∃ f, summarize es p = .error f) ↔ ∃ f, summarize es q = .error f) := by
  have hfriday : summarize [sickLeave] friday = .error (.unknownCategory "sick") := by decide +kernel
  have hthursday : summarize [sickLeave] thursday = .ok ⟨thursday,.empty⟩ := by decide +kernel
  refine ⟨hfriday,hthursday,fun hperiods => ?_⟩
  have hshort : [sickLeave].length ≤ 273 := by decide
  have hsame := hperiods [sickLeave] friday thursday (not_overflows hshort _) (not_overflows hshort _)
  obtain ⟨f,hf⟩ := hsame.mp ⟨_,hfriday⟩
  exact nomatch hf.symm.trans hthursday

end Flextime
