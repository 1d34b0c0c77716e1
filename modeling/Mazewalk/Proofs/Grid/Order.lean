import Mathlib.Data.List.Pairwise
import Mazewalk.Proofs.Grid.Lookup

/-!
# Row after row

A position comes before another one if its row is further up, or in the same row if its column is
further left.  Inside the rectangle of a grid this is the order of the numbers
(`index_lt_index_iff`), so the entries of a well formed grid are all its positions in this order,
each of them once (`mem_places`, `pairwise_places`), and a search finds the least position that
matches (`find?_eq_some_iff_least`).
-/

namespace Mazewalk

/-- The position is further up, or as far up and further left. -/
def Position.Before (p q : Position) : Prop :=
  p.y < q.y ∨ p.y = q.y ∧ p.x < q.x

instance (p q : Position) : Decidable (p.Before q) :=
  inferInstanceAs (Decidable (_ ∨ _))

theorem Position.not_before_self (p : Position) : ¬ p.Before p := by
  unfold Before
  omega

theorem Position.before_trichotomy (p q : Position) : p.Before q ∨ p = q ∨ q.Before p := by
  obtain ⟨x, y⟩ := p
  obtain ⟨u, v⟩ := q
  simp only [Before, mk.injEq]
  omega

namespace Grid

variable {α : Type} {g : Grid α} {p q : Position}

/-! ### The order of the numbers -/

/-- A row is used up before the next one begins. -/
theorem number_lt_number_of_before (hp : g.Contains p) (h : p.Before q) :
    g.number p < g.number q := by
  rcases h with hy | ⟨hy, hx⟩
  · calc g.number p < (p.y + 1) * g.width := number_lt_succ_mul hp
      _ ≤ q.y * g.width := Nat.mul_le_mul_right _ hy
      _ ≤ g.number q := Nat.le_add_right _ _
  · rw [number, number, hy]
    exact Nat.add_lt_add_left hx _

theorem index_lt_index_iff (hg : g.WellFormed) (hp : g.Contains p) (hq : g.Contains q) :
    g.index p < g.index q ↔ p.Before q := by
  rw [index_eq_number hg hp, index_eq_number hg hq]
  refine ⟨?_, number_lt_number_of_before hp⟩
  intro h
  rcases p.before_trichotomy q with hb | he | hb
  · exact hb
  · rw [he] at h
    omega
  · have := number_lt_number_of_before hq hb
    omega

theorem index_le_index_iff (hg : g.WellFormed) (hp : g.Contains p) (hq : g.Contains q) :
    g.index p ≤ g.index q ↔ q = p ∨ p.Before q := by
  rw [Nat.le_iff_lt_or_eq, index_lt_index_iff hg hp hq]
  refine ⟨?_, ?_⟩
  · intro h
    rcases h with hb | he
    · exact Or.inr hb
    · exact Or.inl (hg.separates q p hq hp he.symm)
  · intro h
    rcases h with he | hb
    · exact Or.inr (by rw [he])
    · exact Or.inl hb

/-! ### The positions of the entries -/

/-- The positions of the entries, in their order. -/
def places (g : Grid α) : List Position :=
  g.entries.map Prod.fst

theorem places_eq (g : Grid α) : g.places = (List.range g.cells.size).map g.positionAt := by
  refine List.ext_getElem? fun i => ?_
  rw [places, List.getElem?_map, getElem?_entries, List.getElem?_map]
  by_cases hi : i < g.cells.size
  · rw [Array.getElem?_eq_getElem hi, List.getElem?_range hi]
    rfl
  · rw [Array.getElem?_eq_none (by omega), List.getElem?_eq_none (by simp; omega)]
    rfl

/-- **Every position of the rectangle is listed**, and no other. -/
theorem mem_places (hg : g.WellFormed) : p ∈ g.places ↔ g.Contains p := by
  rw [places_eq, List.mem_map]
  refine ⟨?_, ?_⟩
  · intro h
    obtain ⟨i, hi, he⟩ := h
    rw [← he]
    exact contains_positionAt hg (List.mem_range.1 hi)
  · intro hp
    exact ⟨g.index p, List.mem_range.2 (index_lt hg hp), by
      rw [index_eq_number hg hp, positionAt_number hp]⟩

/-- **The positions are listed row after row.** -/
theorem pairwise_places (hg : g.WellFormed) : g.places.Pairwise Position.Before := by
  rw [places_eq, List.pairwise_map]
  refine List.pairwise_lt_range.imp_of_mem ?_
  intro i j hi hj hlt
  have hi := List.mem_range.1 hi
  have hj := List.mem_range.1 hj
  rw [← index_lt_index_iff hg (contains_positionAt hg hi) (contains_positionAt hg hj),
    index_positionAt hi, index_positionAt hj]
  exact hlt

theorem nodup_places (hg : g.WellFormed) : g.places.Nodup := by
  refine (pairwise_places hg).imp ?_
  intro p q h he
  rw [he] at h
  exact q.not_before_self h

/-! ### Searches -/

/-- The position shows a cell that passes a test. -/
def Matches (g : Grid α) (test : α → Bool) (p : Position) : Prop :=
  ∃ cell, g.get? p = some cell ∧ test cell = true

theorem Matches.contains {test : α → Bool} (h : g.Matches test p) : g.Contains p := by
  obtain ⟨cell, hp, -⟩ := h
  exact contains_of_get? hp

/-- **A search finds the least match** in the order of the rows. -/
theorem find?_eq_some_iff_least (hg : g.WellFormed) {test : α → Bool} :
    g.find? test = some p ↔
      g.Matches test p ∧ ∀ q, g.Matches test q → q = p ∨ p.Before q := by
  rw [find?_eq_some_iff hg]
  refine and_congr_right fun hp => ?_
  refine ⟨?_, ?_⟩
  · intro h q hq
    have hcq := hq.contains
    obtain ⟨cell, hc, ht⟩ := hq
    exact (index_le_index_iff hg (Matches.contains hp) hcq).1 (h q cell hc ht)
  · intro h q cell hc ht
    have hq : g.Matches test q := ⟨cell, hc, ht⟩
    exact (index_le_index_iff hg (Matches.contains hp) hq.contains).2 (h q hq)

theorem find?_eq_none_iff (hg : g.WellFormed) {test : α → Bool} :
    g.find? test = none ↔ ∀ p, ¬ g.Matches test p := by
  rw [find?, Option.map_eq_none_iff, List.find?_eq_none]
  refine ⟨?_, ?_⟩
  · intro h p hp
    obtain ⟨cell, hp, ht⟩ := hp
    exact h _ ((mem_entries hg).2 hp) ht
  · intro h e he ht
    exact h e.1 ⟨e.2, (mem_entries hg).1 he, ht⟩

end Grid

end Mazewalk
