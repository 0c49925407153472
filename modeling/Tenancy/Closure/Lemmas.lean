import Tenancy.Closure.Basic

namespace Tenancy

/-!
# Laws of the closure table

Each operation is described by what it does to `Closure.depth?`, and the listing of rows by which
rows it holds and in which order.

* `Closure.ext` — tables with the same depths are equal.
* `Closure.mem_rows` — the rows listed are the rows stored.
* `Closure.foldl_put_rows` — the rows listed make up the table again.
* `Closure.depth?_put`, `Closure.depth?_remove` — writing and deleting, through the view.
-/

namespace Closure

variable {t u : Closure} {r : Row} {a d n : Int} {k : Nat}

/-- Tables are the same if each pair has the same depth in both, or none in both. -/
@[ext] theorem ext (h : ∀ a d, t.depth? a d = u.depth? a d) : t = u := by
  obtain ⟨t⟩ := t; obtain ⟨u⟩ := u
  congr 1
  exact Std.ExtTreeMap.ext_getElem? fun p => h p.ancestor p.descendant

/-- A row is in the table if its pair has its depth. -/
theorem mem_iff : r ∈ t ↔ t.depth? r.ancestor r.descendant = some r.depth := Iff.rfl

/-- No pair has a depth in the empty table. -/
@[simp] theorem depth?_empty : empty.depth? a d = none := by simp [depth?, empty]

/-- **Writing a row** gives its pair this depth, and leaves all others as they were. -/
theorem depth?_put :
    (t.put r).depth? a d
      = if r.ancestor = a ∧ r.descendant = d then some r.depth else t.depth? a d := by
  simp [depth?, put, Row.pair, Std.ExtTreeMap.getElem?_insert]

/-- The row that was written is there. -/
@[simp] theorem depth?_put_self : (t.put r).depth? r.ancestor r.descendant = some r.depth := by
  simp [depth?_put]

/-- After writing a row, the rows are this one and those of other pairs. -/
theorem mem_put {s : Row} : s ∈ t.put r ↔ s = r ∨ s.pair ≠ r.pair ∧ s ∈ t := by
  obtain ⟨a, d, k⟩ := r
  obtain ⟨a', d', k'⟩ := s
  rw [mem_iff, mem_iff, depth?_put]
  by_cases hp : a = a' ∧ d = d'
  · obtain ⟨rfl, rfl⟩ := hp
    simp [Row.pair, eq_comm]
  · rw [if_neg hp]
    -- a row of another pair is another row
    have hne : (⟨a', d'⟩ : Pair) ≠ ⟨a, d⟩ := fun he => by
      obtain ⟨rfl, rfl⟩ := Pair.mk.inj he
      exact hp ⟨rfl, rfl⟩
    have hrow : (⟨a', d', k'⟩ : Row) ≠ ⟨a, d, k⟩ := fun he => hne (congrArg Row.pair he)
    rw [or_iff_right hrow]
    exact (and_iff_right hne).symm

/-! ### The listing of rows -/

/-- **The rows listed are the rows stored.** -/
@[simp] theorem mem_rows : r ∈ t.rows ↔ r ∈ t := by
  constructor
  · intro h
    obtain ⟨⟨p, k⟩, hp, rfl⟩ := List.mem_map.1 h
    exact Std.ExtTreeMap.mem_toList_iff_getElem?_eq_some.1 hp
  · intro h
    exact List.mem_map.2 ⟨(r.pair, r.depth), Std.ExtTreeMap.mem_toList_iff_getElem?_eq_some.2 h,
      rfl⟩

/-- Rows are listed by ancestor, then by descendant, and no pair comes twice. -/
theorem rows_ordered : t.rows.Pairwise fun r s => compare r.pair s.pair = .lt := by
  rw [rows, List.pairwise_map]
  exact Std.ExtTreeMap.ordered_keys_toList

/-- The ids of a table are the two ends of its rows. -/
theorem mem_ids : n ∈ t.ids ↔ ∃ r ∈ t, r.ancestor = n ∨ r.descendant = n := by
  simp [ids, Std.ExtTreeSet.mem_ofList, eq_comm]

/-- Looking for an id in each row finds the ids of the table. -/
theorem mentions_iff : t.mentions n = true ↔ n ∈ t.ids := by
  simp [mentions, mem_ids]

/-! ### Writing rows in order -/

/-- Writing rows of different pairs: each pair gets its row, and the others keep theirs. -/
theorem depth?_foldl_put {rows : List Row}
    (h : rows.Pairwise fun r s => compare r.pair s.pair = .lt) :
    (rows.foldl put u).depth? a d = some k ↔
      ⟨a, d, k⟩ ∈ rows ∨ (∀ r ∈ rows, r.pair ≠ ⟨a, d⟩) ∧ u.depth? a d = some k := by
  induction rows generalizing u with
  | nil => simp
  | cons r rows ih =>
    obtain ⟨hr, hrows⟩ := List.pairwise_cons.1 h
    rw [List.foldl_cons, ih hrows, depth?_put]
    -- the first row is for this pair, and then none of those to come is, or it is for another
    by_cases hp : r.ancestor = a ∧ r.descendant = d
    · obtain ⟨rfl, rfl⟩ := hp
      have hnot : ∀ s ∈ rows, s.pair ≠ ⟨r.ancestor, r.descendant⟩ := fun s hs he => by
        have := hr s hs
        rw [he] at this
        exact absurd (Std.compare_self (a := r.pair)) (this ▸ by decide)
      have hk : (⟨r.ancestor, r.descendant, k⟩ : Row) ∉ rows := fun hm => hnot _ hm rfl
      rw [if_pos ⟨rfl, rfl⟩]
      constructor
      · rintro (hm | ⟨-, hm⟩)
        · exact absurd hm hk
        · cases hm
          exact .inl List.mem_cons_self
      · rintro (hm | ⟨hm, -⟩)
        · rcases List.mem_cons.1 hm with he | hm
          · exact .inr ⟨hnot, by rw [← he]⟩
          · exact absurd hm hk
        · exact absurd rfl (hm r List.mem_cons_self)
    · have hne : r.pair ≠ ⟨a, d⟩ := fun he =>
        hp ⟨congrArg Pair.ancestor he, congrArg Pair.descendant he⟩
      have hk : (⟨a, d, k⟩ : Row) ≠ r := fun he => hne (by rw [← he]; rfl)
      simp [hp, hne, hk]

/-- The rows that are listed make up the table again. -/
theorem foldl_put_rows : t.rows.foldl put empty = t := by
  refine ext fun a d => Option.ext fun k => ?_
  rw [depth?_foldl_put rows_ordered, depth?_empty, mem_rows]
  simp [mem_iff]

/-! ### Conditions -/

/-- A row is lacking if its pair has no depth; another depth counts as the row being there. -/
theorem lacks_iff : t.lacks r = true ↔ t.depth? r.ancestor r.descendant = none := by
  simp [lacks]

/-- The table exceeds a row if it has a deeper one for the pair. -/
theorem exceeds_iff :
    t.exceeds r = true ↔ ∃ k, t.depth? r.ancestor r.descendant = some k ∧ r.depth < k := by
  simp [exceeds, Option.any_eq_true]

/-! ### Deleting -/

/-- **Deleting rows** is a filter on the depth of each pair. -/
theorem depth?_remove {gone : Row → Bool} :
    (t.remove gone).closure.depth? a d = (t.depth? a d).filter fun k => !gone ⟨a, d, k⟩ := by
  simp [depth?, remove]

end Closure

end Tenancy
