import Mazewalk.Roster

/-!
# Rosters as maps

A roster is a list of entries in increasing order of their ids, and all that can be asked of it is
what it holds for an id.  Inserting changes that for one id (`Roster.get?_insert`).  The entries
are the pairs that a look-up finds (`Roster.mem_entries`), and since their order is fixed, two
rosters that answer alike are the same (`Roster.ext_get?`).  So a roster can be built again from
its entries (`Roster.insertAll_entries`).
-/

namespace Mazewalk.Roster

variable {α : Type}

theorem lookup_cons_eq_ite (id other : LevelId) (value : α) (entries : List (LevelId × α)) :
    ((id, value) :: entries).lookup other =
      if other = id then some value else entries.lookup other := by
  rw [List.lookup_cons]
  by_cases h : other = id
  · rw [if_pos h, beq_iff_eq.2 h]
  · rw [if_neg h, beq_eq_false_iff_ne.2 h]

theorem lookup_put (id other : LevelId) (value : α) (entries : List (LevelId × α)) :
    (put id value entries).lookup other =
      if other = id then some value else entries.lookup other := by
  induction entries with
  | nil => exact lookup_cons_eq_ite id other value []
  | cons head rest ih =>
    obtain ⟨key, held⟩ := head
    rw [put]
    split
    · exact lookup_cons_eq_ite id other value _
    · split
      · rename_i h
        subst h
        rw [lookup_cons_eq_ite, lookup_cons_eq_ite]
        split <;> rfl
      · rename_i h
        rw [lookup_cons_eq_ite, lookup_cons_eq_ite, ih]
        -- an id is not both the one put in and the one in front
        by_cases hk : other = key
        · rw [if_pos hk, if_pos hk, if_neg fun ho => h (ho.symm.trans hk)]
        · rw [if_neg hk, if_neg hk]

/-- Inserting changes the value of one id. -/
theorem get?_insert (roster : Roster α) (id other : LevelId) (value : α) :
    (roster.insert id value).get? other = if other = id then some value else roster.get? other :=
  lookup_put id other value roster.entries

theorem mem_iff_lookup {entries : List (LevelId × α)} (h : entries.Pairwise (·.1 ≠ ·.1))
    {id : LevelId} {value : α} : (id, value) ∈ entries ↔ entries.lookup id = some value := by
  induction entries with
  | nil => simp
  | cons head rest ih =>
    obtain ⟨key, held⟩ := head
    obtain ⟨hne, hrest⟩ := List.pairwise_cons.1 h
    rw [List.mem_cons, lookup_cons_eq_ite]
    by_cases hk : id = key
    · subst hk
      -- what comes behind has other ids
      have hn : (id, value) ∉ rest := fun hm => hne _ hm rfl
      simp [hn, eq_comm]
    · simp [hk, ih hrest]

theorem mem_entries {roster : Roster α} {id : LevelId} {value : α} :
    (id, value) ∈ roster.entries ↔ roster.get? id = some value :=
  mem_iff_lookup (roster.ordered.imp UInt32.ne_of_lt)

theorem nodup_ids (roster : Roster α) : (roster.entries.map Prod.fst).Nodup := by
  rw [List.Nodup, List.pairwise_map]
  exact roster.ordered.imp fun h => UInt32.ne_of_lt h

theorem nodup_entries (roster : Roster α) : roster.entries.Nodup :=
  roster.ordered.imp fun h he => UInt32.ne_of_lt h (congrArg Prod.fst he)

/-- **Rosters that answer alike are the same.** -/
theorem ext_get? {a b : Roster α} (h : ∀ id, a.get? id = b.get? id) : a = b := by
  have hm : ∀ entry, entry ∈ a.entries ↔ entry ∈ b.entries := by
    rintro ⟨id, value⟩
    rw [mem_entries, mem_entries, h]
  have hp : a.entries.Perm b.entries :=
    (List.perm_ext_iff_of_nodup a.nodup_entries b.nodup_entries).2 hm
  have he : a.entries = b.entries := by
    refine hp.eq_of_pairwise (fun x y _ _ hxy hyx => ?_) a.ordered b.ordered
    exact absurd (UInt32.lt_trans hxy hyx) (UInt32.lt_irrefl x.1)
  cases a
  cases b
  simp_all

/-! ### Many entries -/

theorem lookup_reverse {entries : List (LevelId × α)} (h : entries.Pairwise (·.1 ≠ ·.1))
    (id : LevelId) : entries.reverse.lookup id = entries.lookup id := by
  have hr : entries.reverse.Pairwise (·.1 ≠ ·.1) := List.pairwise_reverse.2 (h.imp Ne.symm)
  refine Option.ext fun value => ?_
  rw [← mem_iff_lookup hr, List.mem_reverse, mem_iff_lookup h]

/-- Of several entries with one id the last one stays. -/
theorem get?_insertAll (roster : Roster α) (entries : List (LevelId × α)) (id : LevelId) :
    (roster.insertAll entries).get? id = (entries.reverse.lookup id).or (roster.get? id) := by
  induction entries generalizing roster with
  | nil => rfl
  | cons entry rest ih =>
    have hi : roster.insertAll (entry :: rest) =
        (roster.insert entry.1 entry.2).insertAll rest := rfl
    rw [hi, ih, List.reverse_cons, List.lookup_append, Option.or_assoc, get?_insert,
      lookup_cons_eq_ite]
    split <;> rfl

/-- **A roster is what its entries make.** -/
theorem insertAll_entries (roster : Roster α) : empty.insertAll roster.entries = roster := by
  refine ext_get? fun id => ?_
  rw [get?_insertAll, lookup_reverse (roster.ordered.imp UInt32.ne_of_lt)]
  exact Option.or_none

end Mazewalk.Roster
