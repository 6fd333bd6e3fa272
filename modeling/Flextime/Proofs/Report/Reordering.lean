import Flextime.Proofs.Entry.Reordering
import Flextime.Proofs.Intake.Reordering
import Flextime.Proofs.Report.Build

/-! # A report of the input in another order

Whether the rates of the contract, or the entries, or both are put in another order: the payload is
accepted as before, and the report has the same text.
-/
namespace Flextime.Report

/-- A part of a payload as it was, or with its lists in another order. -/
inductive PartReordered : Text → Json → Json → Prop
  | same (name : Text) (v : Json) : PartReordered name v v
  | contract {ms ms' : List (Text × Json)} : Json.MembersAlike RatesReordered ms ms' →
      PartReordered "contract" (.object ms) (.object ms')
  | entries {vs ws : List Json} : vs.Perm ws → PartReordered "entries" (.array vs) (.array ws)

/-- A payload with its lists of rates and its entries in another order, each for itself. -/
def Reordered (payload payload' : List (Text × Json)) : Prop := Json.MembersAlike PartReordered payload payload'

theorem PartReordered.isVoid {name : Text} {v w : Json} (h : PartReordered name v w) : w.isVoid = v.isVoid := by
  cases h with
  | same => rfl
  | contract h => cases h <;> rfl
  | entries h => rw [Json.isVoid, Json.isVoid, h.isEmpty_eq]

section
variable {payload payload' : List (Text × Json)}

theorem Reordered.part (h : Reordered payload payload') (name : String) (empty : Json) :
    PartReordered name (part payload name empty) (part payload' name empty) := by
  have hrel := Json.MembersAlike.lookup h (Text.ofString name)
  unfold Report.part
  generalize payload.lookup (Text.ofString name) = v at hrel ⊢
  generalize payload'.lookup (Text.ofString name) = w at hrel ⊢
  cases hrel with
  | none => exact .same _ _
  | some hvw =>
    simp only [hvw.isVoid]
    split
    · exact .same _ _
    · exact hvw

theorem contract_reordered {v w : Json} (h : PartReordered "contract" v w) {d : ContractDraft}
    (hd : Intake.contract v = .ok d) : ∃ e, Intake.contract w = .ok e ∧ d.Reordered e := by
  cases h with
  | same => exact ⟨d,hd,⟨rfl,rfl,rfl,.refl _,.refl _⟩⟩
  | contract h => exact Intake.contract_reordered h hd

theorem entries_reordered {v w : Json} (h : PartReordered "entries" v w) {ds : List EntryDraft}
    (hds : Intake.entries v = .ok ds) : ∃ es, Intake.entries w = .ok es ∧ ds.Perm es := by
  cases h with
  | same => exact ⟨ds,hds,.refl _⟩
  | entries h => exact Intake.entries_reordered h hds

theorem draft_reordered (h : Reordered payload payload') {d : Draft} (hd : draft payload = .ok d) :
    ∃ e, draft payload' = .ok e ∧ d.contract.Reordered e.contract ∧ d.entries.Perm e.entries := by
  obtain ⟨hcontract,hentries⟩ := draft_eq_ok_iff.mp hd
  obtain ⟨contract',hcontract',hc⟩ := contract_reordered (h.part _ _) hcontract
  obtain ⟨entries',hentries',he⟩ := entries_reordered (h.part _ _) hentries
  exact ⟨⟨contract',entries'⟩,draft_eq_ok_iff.mpr ⟨hcontract',hentries'⟩,hc,he⟩

end

theorem text_perm {s : Settings} {d e : Draft} {c : Contract} (hd : d.contract.terms = .ok c)
    (he : e.contract.terms = .ok c) (hperm : d.entries.Perm e.entries)
    (hvalid : ∀ e ∈ d.entries.map EntryDraft.entry, e.IsValid) {asOf : Date} {year month : Int}
    {report : String} (h : (text s d asOf year month).outcome = .ok report) :
    text s e asOf year month = text s d asOf year month := by
  have hsummarize := fun (p : Period) (life : WorkSummary) =>
    summarize_perm (hperm.map EntryDraft.entry) hvalid (p := p) (s := life)
  simp only [text, hd, he, Traced.ok_bind, Traced.outcome_bind, Traced.outcome_liftM, Traced.outcome_pure,
    bind_eq_ok_iff] at h ⊢
  obtain ⟨life,hlife,soFar,hsoFar,p,hp,monthSummary,hmonthSummary,-⟩ := h
  -- Step by step: both summaries exist and agree, and each balance looks only at what agrees.
  obtain ⟨life',hlife',hlifeAgrees⟩ := hsummarize _ _ hlife
  obtain ⟨monthSummary',hmonthSummary',hmonthAgrees⟩ := hsummarize _ _ hmonthSummary
  simp only [hlife, hlife', hp, hmonthSummary, hmonthSummary', Traced.ok_bind,
    lifetimeBalance_congr hlifeAgrees hsoFar, monthBalance_congr hmonthAgrees]

/-- The order of rates and entries in a payload does not matter: it is accepted with the same terms, and
when a report is made of it, the same report is made of the other, with the same events. -/
theorem build_reordered {payload payload' : List (Text × Json)} (h : Reordered payload payload') {d : Draft}
    (hd : draft payload = .ok d) :
    ∃ e c, draft payload' = .ok e ∧ d.contract.terms = .ok c ∧ e.contract.terms = .ok c ∧
      ∀ (s : Settings) (asOf : Date) (year month : Int) (t : Traced Fault String) (report : String),
        build s payload asOf year month = .ok t → t.outcome = .ok report →
          build s payload' asOf year month = .ok t := by
  obtain ⟨e,he,hcontract,hentries⟩ := draft_reordered h hd
  obtain ⟨⟨c,hc,-⟩,hvalid⟩ := accepted_of_draft hd
  have hc' := hcontract.terms (Intake.contract_wellFormed (draft_eq_ok_iff.mp hd).1) hc
  refine ⟨e,c,he,hc,hc',fun s asOf year month t report ht hreport => ?_⟩
  obtain rfl := Except.ok.inj ((build_of_draft hd s asOf year month).symm.trans ht)
  rw [build_of_draft he, text_perm hc hc' hentries hvalid hreport]

/-- A contract from March 2023 on with the given rates, and entries. -/
def springPayload (hours days entries : List Json) : List (Text × Json) := [
  ("contract",.object [("first_day",.string "2023-03-01"),("working_hours",.array hours),
    ("vacation_days",.array days)]),
  ("entries",.array entries)]

theorem reordered_springPayload {hours hours' days days' entries entries' : List Json}
    (hhours : hours.Perm hours') (hdays : days.Perm days') (hentries : entries.Perm entries') :
    Reordered (springPayload hours days entries) (springPayload hours' days' entries') := by
  refine .cons ⟨rfl,.contract ?_⟩ (.cons ⟨rfl,.entries hentries⟩ .nil)
  exact .cons ⟨rfl,.same _ _⟩ (.cons ⟨rfl,.hours hhours⟩ (.cons ⟨rfl,.days hdays⟩ .nil))

def springRate (name day : String) (n : Int) : Json := .object [("first_day",.string day),(name,.int n)]

def springEntry (category start stop : String) : Json :=
  .object [("category",.string category),("start_time",.string start),("end_time",.string stop)]

def springHours : List Json := [springRate "hours" "2023-03-01" 8,springRate "hours" "2023-04-01" 6]

def springDays : List Json := [springRate "days" "2023-02-01" 2,springRate "days" "2023-04-01" 3]

def springEntries : List Json := [
  springEntry "travel" "2023-03-01T07:00:00" "2023-03-01T08:30:20",
  springEntry "work" "2023-03-01T08:30:20" "2023-03-01T17:00:00",
  springEntry "vacation" "2023-03-02T09:00:00" "2023-03-02T17:00:00",
  springEntry "work" "2023-04-03T22:00:00" "2023-04-04T04:00:00"]

def springContract : Contract where
  firstDay := dayIn2023 60
  initialOvertime := .zero false
  initialVacation := .zero false
  workingHours :=
    ⟨[⟨dayIn2023 60,Binary64.ofInt 8⟩,⟨dayIn2023 91,Binary64.ofInt 6⟩],by decide,by decide +kernel⟩
  vacationDays :=
    ⟨[⟨dayIn2023 32,Binary64.ofInt 2⟩,⟨dayIn2023 91,Binary64.ofInt 3⟩],by decide,by decide +kernel⟩

def springDraft : Draft :=
  ⟨springContract.draft,(Intake.entries (.array springEntries)).toOption.getD []⟩

theorem build_reordered_reversed :
    ∃ (t : Traced Fault String) (report : String), t.outcome = .ok report ∧
      build {} (springPayload springHours springDays springEntries) (dayIn2023 94) 2023 4 = .ok t ∧
      build {} (springPayload springHours.reverse springDays.reverse springEntries.reverse)
        (dayIn2023 94) 2023 4 = .ok t := by
  have hdraft : draft (springPayload springHours springDays springEntries) = .ok springDraft := by
    decide +kernel
  have hbuild := build_of_draft hdraft {} (dayIn2023 94) 2023 4
  obtain ⟨report,hreport⟩ : ∃ report, (text {} springDraft (dayIn2023 94) 2023 4).outcome = .ok report := by
    apply exists_of_isOk
    rw [text, springDraft, Contract.terms_draft]
    decide +kernel
  obtain ⟨_,_,-,-,-,hreordered⟩ := build_reordered (reordered_springPayload
    springHours.reverse_perm.symm springDays.reverse_perm.symm springEntries.reverse_perm.symm) hdraft
  exact ⟨_,report,hreport,hbuild,hreordered _ _ _ _ _ _ hbuild hreport⟩

end Flextime.Report
