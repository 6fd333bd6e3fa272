/-! # Values under keys

A list of pairs in the order in which the keys came up. Setting a key that is there keeps its place.
-/
namespace Flextime.Assoc
variable {κ α : Type} [DecidableEq κ]

def put : List (κ × α) → κ → α → List (κ × α)
  | [], k, v => [(k, v)]
  | e :: es, k, v => if e.1 = k then (k, v) :: es else e :: put es k v

theorem lookup_cons (e : κ × α) (es : List (κ × α)) (k : κ) :
    (e :: es).lookup k = if k = e.1 then some e.2 else es.lookup k := by
  obtain ⟨a, v⟩ := e
  by_cases h : k = a
  · rw [List.lookup_cons, beq_iff_eq.mpr h, if_pos h]
  · rw [List.lookup_cons, beq_eq_false_iff_ne.mpr h, if_neg h]

theorem lookup_put (es : List (κ × α)) (k k' : κ) (v : α) :
    (put es k v).lookup k' = if k' = k then some v else es.lookup k' := by
  induction es with
  | nil => exact lookup_cons (k, v) [] k'
  | cons e es ih =>
    unfold put
    by_cases he : e.1 = k
    · rw [if_pos he, lookup_cons, lookup_cons, he]
      by_cases h : k' = k
      · simp only [if_pos h]
      · simp only [if_neg h]
    · rw [if_neg he, lookup_cons, lookup_cons, ih]
      by_cases h : k' = e.1
      · have hk : k' ≠ k := fun hk => he (h.symm.trans hk)
        rw [if_pos h, if_neg hk, if_pos h]
      · simp only [if_neg h]

theorem mem_keys_put {es : List (κ × α)} {k k' : κ} {v : α} :
    k' ∈ (put es k v).map Prod.fst ↔ k' = k ∨ k' ∈ es.map Prod.fst := by
  induction es with
  | nil => simp [put]
  | cons e es ih =>
    unfold put
    by_cases he : e.1 = k
    · rw [if_pos he, List.map_cons, List.map_cons, List.mem_cons, List.mem_cons, he]
      exact ⟨Or.inr, fun h => h.elim Or.inl id⟩
    · rw [if_neg he, List.map_cons, List.map_cons, List.mem_cons, List.mem_cons, ih]
      exact or_left_comm

theorem nodup_put {es : List (κ × α)} (k : κ) (v : α) (h : (es.map Prod.fst).Nodup) :
    ((put es k v).map Prod.fst).Nodup := by
  induction es with
  | nil => exact List.nodup_cons.mpr ⟨List.not_mem_nil, List.nodup_nil⟩
  | cons e es ih =>
    obtain ⟨hm, hn⟩ := List.nodup_cons.mp h
    unfold put
    by_cases he : e.1 = k
    · rw [if_pos he, List.map_cons, ← he]
      exact List.nodup_cons.mpr ⟨hm, hn⟩
    · rw [if_neg he, List.map_cons]
      refine List.nodup_cons.mpr ⟨fun hk => ?_, ih hn⟩
      exact (mem_keys_put.mp hk).elim he hm

end Flextime.Assoc
