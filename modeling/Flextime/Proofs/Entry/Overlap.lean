import Flextime.Proofs.Entry.Reordering

/-! # What a summary measures

A summary has a category exactly when some entry of it overlaps the period, and under it the sum of the
overlaps. Entries are looked at one after the other, so the first one whose times are not sound ends the
summing, inside the period or not, unless a sum has left the range of durations before.
-/
namespace Flextime
open Duration

theorem Duration.fault_of_ofMicros {n : Int} {f : Fault} (h : ofMicros n = .error f) :
    ∃ days, f = .durationRange days := by
  unfold ofMicros at h
  split at h
  · cases h
  · cases h
    exact ⟨_,rfl⟩

namespace Entry

/-- Times without offset, the end after the start. -/
def IsSound (e : Entry) : Prop :=
  e.start.isZoned = false ∧ e.stop.isZoned = false ∧ e.start.micros < e.stop.micros

instance (e : Entry) : Decidable e.IsSound := inferInstanceAs (Decidable (_ ∧ _ ∧ _))

/-- What times that are not sound are refused with. -/
def fault (e : Entry) : Fault :=
  if e.start.isZoned ∨ e.stop.isZoned then .zonedEntry e.start e.stop else .emptyEntry e.start e.stop

theorem check_eq_ok_iff {e : Entry} : e.check = .ok () ↔ e.IsSound := by
  unfold check IsSound
  split
  next hzone =>
    simp only [reduceCtorEq, false_iff]
    rintro ⟨hstart,hstop,-⟩
    simp [hstart, hstop] at hzone
  next hzone =>
    obtain ⟨hstart,hstop⟩ := not_or.mp hzone
    split
    next horder => simp [hstart, hstop, horder]
    next horder => simp [hstart, hstop, Int.not_le.mp horder]

theorem check_of_not_isSound {e : Entry} (h : ¬e.IsSound) : e.check = .error e.fault := by
  rw [← check_eq_ok_iff] at h
  unfold check fault at *
  split
  · rfl
  next hzone =>
    rw [if_neg hzone] at h
    split
    · rfl
    next horder => exact absurd (if_neg horder) h

theorem isValid_of_isSound {e : Entry} (h : e.IsSound) (hc : ∃ c, Category.ofName e.label = .ok c) :
    e.IsValid := ⟨check_eq_ok_iff.mpr h,hc⟩

/-- A valid entry can fail only by the size of a sum. -/
theorem fault_of_tallyInto {p : Period} {t : Tally} {e : Entry} (he : e.IsValid) {f : Fault}
    (h : e.tallyInto p t = .error f) : ∃ days, f = .durationRange days := by
  obtain ⟨hcheck,c,hc⟩ := he
  unfold tallyInto at h
  rw [hcheck, ok_bind] at h
  split at h
  · exact nomatch h
  · rw [hc, ok_bind] at h
    cases hu : ofMicros (e.overlap p) with
    | error g =>
      rw [hu] at h
      cases h
      exact fault_of_ofMicros hu
    | ok u =>
      rw [hu, ok_bind] at h
      cases hv : (t.get c).add u with
      | error g =>
        rw [hv] at h
        cases h
        exact fault_of_ofMicros hv
      | ok v =>
        rw [hv] at h
        exact nomatch h

/-- A step brings up the category of an entry that overlaps the period, and no other. -/
theorem isSome_tallyInto {p : Period} {t t' : Tally} {e : Entry} (h : e.tallyInto p t = .ok t')
    (c : Category) :
    (t'.get? c).isSome = true ↔ (t.get? c).isSome = true ∨ 0 < if e.isOf c then e.share p else 0 := by
  obtain ⟨-,⟨ho,rfl⟩ | ⟨ho,c',hc,u,-,v,-,rfl⟩⟩ := tallyInto_eq_ok_iff.mp h
  · simp [share, ho]
  · have hof : e.isOf c = true ↔ c = c' := by
      rw [isOf, hc, beq_iff_eq]
      exact ⟨fun h => (Option.some.inj h).symm,fun h => congrArg some h.symm⟩
    rw [Tally.get?_put]
    by_cases hcc : c = c'
    · rw [if_pos hcc, if_pos (hof.mpr hcc), share]
      simp [ho]
    · simp [hcc, mt hof.mp hcc]

end Entry

theorem isSome_tallied {p : Period} {es : List Entry} {t t' : Tally}
    (h : es.foldlM (Entry.tallyInto p) t = .ok t') (c : Category) :
    (t'.get? c).isSome = true ↔ (t.get? c).isSome = true ∨ 0 < loggedAs es p c := by
  induction es generalizing t with
  | nil =>
    obtain rfl := pure_eq_ok_iff.mp h
    simp
  | cons e es ih =>
    rw [List.foldlM_cons, bind_eq_ok_iff] at h
    obtain ⟨next,he,hes⟩ := h
    have hshare := e.share_nonneg p
    have hrest := loggedAs_nonneg es p c
    rw [ih hes, Entry.isSome_tallyInto he, or_assoc, loggedAs_cons]
    apply or_congr_right
    split <;> omega

theorem fault_of_tallied {p : Period} {es : List Entry} (hes : ∀ e ∈ es, e.IsValid) {t : Tally} {f : Fault}
    (h : es.foldlM (Entry.tallyInto p) t = .error f) : ∃ days, f = .durationRange days := by
  induction es generalizing t with
  | nil => exact nomatch h
  | cons e es ih =>
    rw [List.foldlM_cons] at h
    cases he : e.tallyInto p t with
    | error g =>
      rw [he] at h
      cases h
      exact Entry.fault_of_tallyInto (hes e List.mem_cons_self) he
    | ok next =>
      rw [he] at h
      exact ih (fun g hg => hes g (List.mem_cons_of_mem _ hg)) h

theorem loggedAs_pos_iff {es : List Entry} {p : Period} {c : Category} :
    0 < loggedAs es p c ↔ ∃ e ∈ es, e.isOf c = true ∧ 0 < e.overlap p := by
  induction es with
  | nil => simp
  | cons e es ih =>
    have hrest := loggedAs_nonneg es p c
    rw [loggedAs_cons, List.exists_mem_cons_iff, ← ih]
    cases e.isOf c with
    | false => simp
    | true => simp only [Entry.share, ↓reduceIte, true_and]; omega

theorem isSome_get?_of_summarize {es : List Entry} {p : Period} {s : WorkSummary} (hs : summarize es p = .ok s)
    (c : Category) : (s.tally.get? c).isSome = true ↔ 0 < loggedAs es p c := by
  rw [isSome_tallied (summarize_eq_ok_iff.mp hs).2 c]
  exact or_iff_right Bool.false_ne_true

/-- What a summary has under a category: the time logged as it, if there is any. -/
theorem micros_get?_of_summarize {es : List Entry} {p : Period} {s : WorkSummary}
    (hs : summarize es p = .ok s) (c : Category) :
    (s.tally.get? c).map micros = if 0 < loggedAs es p c then some (loggedAs es p c) else none := by
  have hkey := isSome_get?_of_summarize hs c
  have hmicros := micros_of_elapsed hs c
  rw [WorkSummary.elapsed, Tally.get] at hmicros
  cases hget : s.tally.get? c with
  | none =>
    have hzero : ¬0 < loggedAs es p c := by simpa [hget] using hkey
    simp [hzero]
  | some d =>
    have hpos : 0 < loggedAs es p c := hkey.mp (by rw [hget]; rfl)
    rw [hget] at hmicros
    simpa [hpos] using hmicros

/-- Valid entries are summed, or a category of them is too long for a duration. -/
theorem summarize_of_valid {es : List Entry} (hes : ∀ e ∈ es, e.IsValid) (p : Period) :
    ((∀ c, InRange (loggedAs es p c)) → ∃ s, summarize es p = .ok s) ∧
      (¬(∀ c, InRange (loggedAs es p c)) → ∃ days, summarize es p = .error (.durationRange days)) := by
  rw [← exists_summarize_iff hes]
  refine ⟨id,fun hno => ?_⟩
  cases hfold : es.foldlM (Entry.tallyInto p) .empty with
  | ok t => exact absurd ⟨⟨p,t⟩,summarize_eq_ok_iff.mpr ⟨rfl,hfold⟩⟩ hno
  | error f =>
    obtain ⟨days,rfl⟩ := fault_of_tallied hes hfold
    refine ⟨days,?_⟩
    rw [summarize, hfold]
    rfl

theorem summarize_append (pre es : List Entry) (p : Period) :
    summarize (pre ++ es) p = summarize pre p >>= fun s => return ⟨p,← es.foldlM (Entry.tallyInto p) s.tally⟩ := by
  unfold summarize
  rw [List.foldlM_append]
  cases pre.foldlM (Entry.tallyInto p) .empty <;> rfl

/-- An entry that no tally takes in ends the summing, unless it has ended before. -/
theorem summarize_of_stop {p : Period} {e : Entry} {f : Fault} (he : ∀ t, e.tallyInto p t = .error f)
    (pre post : List Entry) :
    ((∃ s, summarize pre p = .ok s) → summarize (pre ++ e :: post) p = .error f) ∧
      ∀ g, summarize pre p = .error g → summarize (pre ++ e :: post) p = .error g := by
  rw [summarize_append]
  constructor
  · rintro ⟨s,hs⟩
    rw [hs, ok_bind, List.foldlM_cons, he]
    rfl
  · intro g hg
    rw [hg]
    rfl

/-- Behind valid entries, one that is not sound is refused, unless those before it are too long. -/
theorem summarize_of_unsound {pre : List Entry} (hpre : ∀ e ∈ pre, e.IsValid) {e : Entry} (he : ¬e.IsSound)
    (post : List Entry) (p : Period) :
    ((∀ c, InRange (loggedAs pre p c)) → summarize (pre ++ e :: post) p = .error e.fault) ∧
      (¬(∀ c, InRange (loggedAs pre p c)) →
        ∃ days, summarize (pre ++ e :: post) p = .error (.durationRange days)) := by
  have hstep : ∀ t, e.tallyInto p t = .error e.fault := fun t => by
    rw [Entry.tallyInto, Entry.check_of_not_isSound he]
    rfl
  obtain ⟨hin,hout⟩ := summarize_of_valid hpre p
  obtain ⟨hstop,hbefore⟩ := summarize_of_stop hstep pre post
  exact ⟨fun hrange => hstop (hin hrange),fun hrange => (hout hrange).imp fun _ => hbefore _⟩

/-- Sound entries of known categories are summed unless a category is too long for a duration. The summary
has the categories of the entries that overlap the period, under each the sum of the overlaps, and these
do not depend on the order of the entries. Among entries that are not all sound, the first that is not is
refused, wherever it lies. -/
theorem summarize_overlaps {es : List Entry} (hknown : ∀ e ∈ es, ∃ c, Category.ofName e.label = .ok c)
    (p : Period) :
    ((∀ e ∈ es, e.IsSound) →
      ((∀ c, InRange (loggedAs es p c)) → ∃ s, summarize es p = .ok s) ∧
      (¬(∀ c, InRange (loggedAs es p c)) → ∃ days, summarize es p = .error (.durationRange days)) ∧
      ∀ s, summarize es p = .ok s →
        s.period = p ∧
        (∀ c, (s.tally.get? c).isSome = true ↔ ∃ e ∈ es, e.isOf c = true ∧ 0 < e.overlap p) ∧
        (∀ c d, s.tally.get? c = some d → 0 < d.micros ∧
          d.micros = ((es.filter (Entry.isOf c)).map fun e =>
            max 0 (min e.stop.micros (Moment.midnight p.stop).micros -
              max e.start.micros (Moment.midnight p.start).micros)).sum) ∧
        ∀ es', es.Perm es' → ∃ s', summarize es' p = .ok s' ∧ s'.period = p ∧
          ∀ c, s'.tally.get? c = s.tally.get? c) ∧
    ∀ pre e post, es = pre ++ e :: post → (∀ f ∈ pre, f.IsSound) → ¬e.IsSound →
      ((∀ c, InRange (loggedAs pre p c)) → summarize es p = .error e.fault) ∧
      (¬(∀ c, InRange (loggedAs pre p c)) → ∃ days, summarize es p = .error (.durationRange days)) := by
  constructor
  · intro hsound
    have hvalid : ∀ e ∈ es, e.IsValid := fun e he => Entry.isValid_of_isSound (hsound e he) (hknown e he)
    obtain ⟨hin,hout⟩ := summarize_of_valid hvalid p
    refine ⟨hin,hout,fun s hs => ⟨(summarize_eq_ok_iff.mp hs).1,fun c => ?_,fun c d hd => ?_,?_⟩⟩
    · rw [isSome_get?_of_summarize hs, loggedAs_pos_iff]
    · have hpos := (isSome_get?_of_summarize hs c).mp (by rw [hd]; rfl)
      have hmicros := micros_get?_of_summarize hs c
      rw [hd, if_pos hpos] at hmicros
      have hlogged : d.micros = loggedAs es p c := Option.some.inj hmicros
      exact ⟨hlogged ▸ hpos,hlogged⟩
    · intro es' hperm
      obtain ⟨s',hs',-⟩ := summarize_perm hperm hvalid hs
      refine ⟨s',hs',(summarize_eq_ok_iff.mp hs').1,fun c => ?_⟩
      apply Option.map_injective fun _ _ => ext_micros
      rw [micros_get?_of_summarize hs', micros_get?_of_summarize hs, loggedAs_perm hperm]
  · rintro pre e post rfl hpre he
    have hvalid : ∀ f ∈ pre, f.IsValid := fun f hf =>
      Entry.isValid_of_isSound (hpre f hf) (hknown f (List.mem_append_left _ hf))
    exact summarize_of_unsound hvalid he post p

/-- From a Thursday noon to the Saturday noon. -/
def standby : Entry where
  label := "work"
  start := ⟨dayIn2023 12,43200000000,none,by decide⟩
  stop := ⟨dayIn2023 14,43200000000,none,by decide⟩

def earlierTrip : Entry where
  label := "travel"
  start := Moment.midnight (dayIn2023 12)
  stop := standby.start

/-- An entry that ends when it begins, long before. -/
def emptyRest : Entry where
  label := "holiday"
  start := Moment.midnight (dayIn2023 2)
  stop := Moment.midnight (dayIn2023 2)

def friday : Period := ⟨dayIn2023 13,dayIn2023 14⟩

/-- Of the Friday the standby takes all and the trip nothing. Behind them, the empty entry is refused. -/
theorem summarize_overlaps_friday :
    (∃ s, summarize [earlierTrip,standby] friday = .ok s ∧
      s.tally.get? .work = some ⟨86400000000,by decide,by decide⟩ ∧ s.tally.get? .travel = none) ∧
    summarize [earlierTrip,standby,emptyRest] friday =
      .error (.emptyEntry emptyRest.start emptyRest.stop) := by
  have hknown : ∀ e ∈ [earlierTrip,standby,emptyRest], ∃ c, Category.ofName e.label = .ok c := by
    simp only [List.forall_mem_cons]
    exact ⟨⟨_,Category.ofName_name .travel⟩,⟨_,Category.ofName_name .work⟩,⟨_,Category.ofName_name .holiday⟩,
      List.forall_mem_nil _⟩
  obtain ⟨s,hs⟩ : ∃ s, summarize [earlierTrip,standby] friday = .ok s := exists_of_isOk (by decide +kernel)
  constructor
  · have hfirst : ∀ e ∈ [earlierTrip,standby], ∃ c, Category.ofName e.label = .ok c := fun e he =>
      hknown e (List.mem_append_left [emptyRest] he)
    obtain ⟨-,-,hsum⟩ := (summarize_overlaps hfirst friday).1 (by decide +kernel)
    obtain ⟨-,hkeys,hvalues,-⟩ := hsum s hs
    obtain ⟨d,hd⟩ := Option.isSome_iff_exists.mp ((hkeys .work).mpr (by decide +kernel))
    have hday : d = ⟨86400000000,by decide,by decide⟩ :=
      Duration.ext_micros ((hvalues .work d hd).2.trans (by decide +kernel))
    refine ⟨s,hs,hday ▸ hd,?_⟩
    rw [← Option.not_isSome_iff_eq_none, hkeys]
    decide +kernel
  · refine ((summarize_overlaps hknown friday).2 [earlierTrip,standby] emptyRest [] rfl (by decide +kernel)
      (by decide +kernel)).1 fun c => ?_
    rw [← micros_of_elapsed hs]
    exact ⟨(s.elapsed c).lower,(s.elapsed c).upper⟩

end Flextime
