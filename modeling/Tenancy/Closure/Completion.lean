import Tenancy.Cell.Sum
import Tenancy.Closure.Lemmas
import Tenancy.Measure

namespace Tenancy

/-!
# Completing a table

Two rows that meet in the middle, each of a positive depth, stand for a third one.  A pass adds the
rows that are missing in this sense and lowers those that are too deep; passes are repeated until
one of them changes nothing.  This ends, because a pass that changes the table either fills a gap
among the finitely many pairs of ids that the rows mention, or leaves the gaps and lowers the sum
of the depths.

* `Closure.hops` — the rows that two rows stand for.
* `Closure.complete`, `Closure.minimize` — the two statements of a pass.
* `Closure.saturate` — the passes, up to the one that changes nothing.
-/

/-- What one pass changed. -/
structure Pass where
  inserted : Nat
  lowered : Nat
deriving DecidableEq, Repr

namespace Closure

/-- The self rows of all ids that the table mentions. -/
def selfRows (t : Closure) : List Row := t.ids.toList.map Row.self

/-- The rows of a list by their ancestor. -/
def byAncestor (rows : List Row) : Std.ExtTreeMap Int (List Row) :=
  rows.foldr (fun r m => m.insert r.ancestor (r :: m.getD r.ancestor [])) ∅

/-- What two rows of positive depth that meet stand for, between different ids. -/
def hops (t : Closure) : List Row :=
  let rows := t.rows.filter fun r => 0 < r.depth
  let onwards := byAncestor rows
  rows.flatMap fun r =>
    ((onwards.getD r.descendant []).filter fun s => s.descendant != r.ancestor).map fun s =>
      ⟨r.ancestor, s.descendant, Cell.sum r.depth s.depth⟩

/-- Adds the rows that hops stand for and that are missing, as short as a hop makes them. -/
def complete (t : Closure) : Written := t.fill (shortest t.hops).rows

/-- Lowers the rows for which there is a shorter hop, as far as one hop can. -/
def minimize (t : Closure) : Written := t.lower (shortest t.hops).rows

/-! ### The measure of the passes -/

/-- All pairs of ids that the table mentions. -/
def pairs (t : Closure) : List Pair :=
  t.ids.toList.flatMap fun a => t.ids.toList.map (Pair.mk a)

/-- The number of pairs of mentioned ids without a row. -/
def gaps (t : Closure) : Nat :=
  t.pairs.countP fun p => (t.depth? p.ancestor p.descendant).isNone

/-- The sum of all depths. -/
def totalDepth (t : Closure) : Nat :=
  t.pairs.foldr (fun p n => (t.depth? p.ancestor p.descendant).getD 0 + n) 0

variable {t u : Closure} {r : Row} {rows : List Row} {accepts : Closure → Row → Bool}

/-- The pairs of a table are those of ids that it mentions. -/
theorem mem_pairs {p : Pair} : p ∈ t.pairs ↔ p.ancestor ∈ t.ids ∧ p.descendant ∈ t.ids := by
  simp [pairs, Std.ExtTreeSet.mem_toList]
  constructor
  · rintro ⟨a, ha, d, hd, rfl⟩; exact ⟨ha, hd⟩
  · rintro ⟨ha, hd⟩; exact ⟨_, ha, _, hd, rfl⟩

/-- A property that writing an accepted row keeps holds when the statement is done. -/
theorem write_induction (P : Written → Prop) (start : P ⟨t, 0⟩)
    (next : ∀ w, ∀ r ∈ rows, accepts w.closure r = true → P w →
      P ⟨w.closure.put r, w.count + 1⟩) : P (t.write accepts rows) := by
  unfold write
  generalize (Written.mk t 0) = w at start
  induction rows generalizing w with
  | nil => exact start
  | cons r rs ih =>
    refine ih (fun w s hs => next w s (List.mem_cons_of_mem _ hs)) _ ?_
    unfold offer
    split
    · exact next w r List.mem_cons_self ‹_› start
    · exact start

/-- Writing a row between ids that are mentioned mentions no other id. -/
theorem ids_put (ha : r.ancestor ∈ t.ids) (hd : r.descendant ∈ t.ids) : (t.put r).ids = t.ids := by
  refine Std.ExtTreeSet.ext_mem fun n => ?_
  constructor
  · intro hn
    obtain ⟨s, hs, hend⟩ := mem_ids.1 hn
    rw [mem_iff, depth?_put] at hs
    split at hs
    · rename_i hp
      rcases hend with rfl | rfl
      · exact hp.1 ▸ ha
      · exact hp.2 ▸ hd
    · exact mem_ids.2 ⟨s, hs, hend⟩
  -- the row that mentions the id may have been written over, but then by one of the same ends
  · intro hn
    obtain ⟨s, hs, hend⟩ := mem_ids.1 hn
    by_cases hp : r.ancestor = s.ancestor ∧ r.descendant = s.descendant
    · exact mem_ids.2 ⟨r, depth?_put_self, by rw [hp.1, hp.2]; exact hend⟩
    · exact mem_ids.2 ⟨s, by rw [mem_iff, depth?_put, if_neg hp]; exact hs, hend⟩

/-- A statement whose rows join mentioned ids mentions no other id. -/
theorem ids_write (h : ∀ r ∈ rows, r.ancestor ∈ t.ids ∧ r.descendant ∈ t.ids) :
    (t.write accepts rows).closure.ids = t.ids := by
  refine write_induction (fun w => w.closure.ids = t.ids) rfl fun w r hr _ hw => ?_
  rw [ids_put (hw ▸ (h r hr).1) (hw ▸ (h r hr).2), hw]

/-- The pairs of a table depend on the ids that it mentions alone. -/
theorem pairs_eq (h : u.ids = t.ids) : u.pairs = t.pairs := by
  rw [pairs, pairs, h]

/-- Adding rows keeps those that are there, and fills a gap if it adds any. -/
theorem fill_spec :
    (∀ a d k, t.depth? a d = some k → (t.fill rows).closure.depth? a d = some k) ∧
    ((t.fill rows).count = 0 → (t.fill rows).closure = t) ∧
    ((t.fill rows).count ≠ 0 → ∃ r ∈ rows, t.depth? r.ancestor r.descendant = none ∧
      ((t.fill rows).closure.depth? r.ancestor r.descendant).isSome) := by
  refine write_induction (fun w =>
    (∀ a d k, t.depth? a d = some k → w.closure.depth? a d = some k) ∧
    (w.count = 0 → w.closure = t) ∧
    (w.count ≠ 0 → ∃ r ∈ rows, t.depth? r.ancestor r.descendant = none ∧
      (w.closure.depth? r.ancestor r.descendant).isSome)) ⟨fun _ _ _ h => h, fun _ => rfl, fun h =>
      absurd rfl h⟩ ?_
  rintro w r hr hacc ⟨hkeep, -, -⟩
  rw [lacks_iff] at hacc
  refine ⟨fun a d k h => ?_, fun h => absurd h (Nat.succ_ne_zero _), fun _ => ⟨r, hr, ?_, by simp⟩⟩
  · rw [depth?_put, if_neg]
    · exact hkeep a d k h
    · rintro ⟨rfl, rfl⟩
      rw [hkeep _ _ k h] at hacc
      cases hacc
  · cases h : t.depth? r.ancestor r.descendant with
    | none => rfl
    | some k => rw [hkeep _ _ k h] at hacc; cases hacc

/-- Lowering keeps the pairs that have a row, raises no depth, and lowers one if it counts any. -/
theorem lower_spec :
    (∀ a d, ((t.lower rows).closure.depth? a d).isSome = (t.depth? a d).isSome) ∧
    (∀ a d, ((t.lower rows).closure.depth? a d).getD 0 ≤ (t.depth? a d).getD 0) ∧
    ((t.lower rows).count = 0 → (t.lower rows).closure = t) ∧
    ((t.lower rows).count ≠ 0 → ∃ r ∈ rows,
      ((t.lower rows).closure.depth? r.ancestor r.descendant).getD 0
        < (t.depth? r.ancestor r.descendant).getD 0) := by
  refine write_induction (fun w =>
    (∀ a d, (w.closure.depth? a d).isSome = (t.depth? a d).isSome) ∧
    (∀ a d, (w.closure.depth? a d).getD 0 ≤ (t.depth? a d).getD 0) ∧
    (w.count = 0 → w.closure = t) ∧
    (w.count ≠ 0 → ∃ r ∈ rows, (w.closure.depth? r.ancestor r.descendant).getD 0
        < (t.depth? r.ancestor r.descendant).getD 0))
    ⟨fun _ _ => rfl, fun _ _ => Nat.le_refl _, fun _ => rfl, fun h => absurd rfl h⟩ ?_
  rintro w r hr hacc ⟨hsome, hle, -, -⟩
  obtain ⟨k, hk, hlt⟩ := exceeds_iff.1 hacc
  refine ⟨fun a d => ?_, fun a d => ?_, fun h => absurd h (Nat.succ_ne_zero _), fun _ =>
    ⟨r, hr, ?_⟩⟩
  · rw [depth?_put]
    split
    · rename_i hp
      rw [← hsome, ← hp.1, ← hp.2, hk]; rfl
    · exact hsome a d
  · rw [depth?_put]
    split
    · rename_i hp
      have := hle r.ancestor r.descendant
      rw [hk] at this
      rw [← hp.1, ← hp.2]
      exact Nat.le_trans (Nat.le_of_lt hlt) this
    · exact hle a d
  · have := hle r.ancestor r.descendant
    rw [hk] at this
    simp only [depth?_put_self, Option.getD_some] at this ⊢
    omega

/-- The rows of a table of least depths join pairs that were offered to it. -/
theorem mem_of_mem_shortest : ∀ s ∈ shortest rows, s ∈ rows := by
  refine write_induction (fun w => ∀ s ∈ w.closure, s ∈ rows) ?_ fun w r hr _ hw s hs => ?_
  · intro s hs
    rw [mem_iff, depth?_empty] at hs
    cases hs
  · rw [mem_iff, depth?_put] at hs
    split at hs
    · rename_i hp
      have : r = s := by
        obtain ⟨a, d, k⟩ := r; obtain ⟨a', d', k'⟩ := s
        simp_all
      exact this ▸ hr
    · exact hw s hs

/-- Looked up by their ancestor, the rows of a list are found in the order of the list. -/
theorem getD_byAncestor {n : Int} :
    (byAncestor rows).getD n [] = rows.filter fun r => r.ancestor == n := by
  induction rows with
  | nil => rfl
  | cons r rows ih =>
    rw [byAncestor, List.foldr_cons, Std.ExtTreeMap.getD_insert, List.filter_cons]
    by_cases h : r.ancestor = n
    · rw [if_pos (Std.compare_eq_iff_eq.2 h), if_pos (beq_iff_eq.2 h), h]
      exact congrArg _ ih
    · rw [if_neg fun hc => h (Std.compare_eq_iff_eq.1 hc), if_neg fun hb => h (beq_iff_eq.1 hb)]
      exact ih

/-- **Hops**, without the look-up: rows from one id to another that two rows of positive depth stand
    for. -/
theorem mem_hops : r ∈ t.hops ↔ r.ancestor ≠ r.descendant ∧ ∃ b i j, 0 < i ∧ 0 < j ∧
    t.depth? r.ancestor b = some i ∧ t.depth? b r.descendant = some j ∧
    r.depth = Cell.sum i j := by
  obtain ⟨a, d, k⟩ := r
  simp only [hops, getD_byAncestor, List.mem_flatMap, List.mem_filter, mem_rows, List.mem_map,
    decide_eq_true_eq, beq_iff_eq, bne_iff_ne, Row.mk.injEq]
  constructor
  · rintro ⟨r, ⟨hr, hri⟩, s, ⟨⟨⟨hs, hsj⟩, hmeet⟩, hne⟩, rfl, rfl, rfl⟩
    exact ⟨fun h => hne h.symm, _, _, _, hri, hsj, hr, hmeet ▸ hs, rfl⟩
  · rintro ⟨hne, b, i, j, hi, hj, hr, hs, rfl⟩
    exact ⟨⟨a, b, i⟩, ⟨hr, hi⟩, ⟨b, d, j⟩, ⟨⟨⟨hs, hj⟩, rfl⟩, fun h => hne h.symm⟩, rfl, rfl,
      rfl⟩

/-- A hop joins ids that are mentioned, since the two rows that it stands for do. -/
theorem ends_of_mem_hops (h : r ∈ t.hops) : r.ancestor ∈ t.ids ∧ r.descendant ∈ t.ids := by
  obtain ⟨-, b, i, j, -, -, hi, hj, -⟩ := mem_hops.1 h
  exact ⟨mem_ids.2 ⟨⟨_, b, i⟩, hi, .inl rfl⟩, mem_ids.2 ⟨⟨b, _, j⟩, hj, .inr rfl⟩⟩

/-- So do the shortest hops. -/
theorem ends_of_mem_shortest_hops (h : r ∈ (shortest t.hops).rows) :
    r.ancestor ∈ t.ids ∧ r.descendant ∈ t.ids :=
  ends_of_mem_hops (mem_of_mem_shortest r (mem_rows.1 h))

/-- Adding what hops stand for mentions no other id. -/
theorem ids_complete : t.complete.closure.ids = t.ids :=
  ids_write fun _ => ends_of_mem_shortest_hops

/-- Neither does lowering. -/
theorem ids_minimize : t.minimize.closure.ids = t.ids :=
  ids_write fun _ => ends_of_mem_shortest_hops

/-! ### What statements do to the measure -/

/-- A pass that adds rows leaves fewer gaps: the pairs that it fills are among those counted. -/
theorem gaps_complete_lt (h : t.complete.count ≠ 0) : t.complete.closure.gaps < t.gaps := by
  obtain ⟨hkeep, -, hnew⟩ := @fill_spec t (shortest t.hops).rows
  obtain ⟨r, hr, hnone, hsome⟩ := hnew h
  rw [gaps, gaps, pairs_eq ids_complete]
  -- the pair of a row that was added is a gap no more; no pair that had a row lost it
  refine countP_lt_of_mem (x := r.pair) (fun p hp => ?_)
    (mem_pairs.2 (ends_of_mem_shortest_hops hr)) (by simp [Row.pair, hnone]) ?_
  · cases hd : t.depth? p.ancestor p.descendant with
    | none => rfl
    | some k => rw [complete, hkeep _ _ k hd] at hp; cases hp
  · rw [← Option.not_isSome]
    exact congrArg (!·) hsome

/-- Lowering depths leaves just the gaps that there were. -/
theorem gaps_minimize : t.minimize.closure.gaps = t.gaps := by
  rw [gaps, gaps, pairs_eq ids_minimize]
  refine List.countP_congr fun p _ => ?_
  rw [← Option.not_isSome, ← Option.not_isSome, minimize, lower_spec.1]

/-- Lowering depths makes their sum smaller, if any is lowered. -/
theorem totalDepth_minimize_lt (h : t.minimize.count ≠ 0) :
    t.minimize.closure.totalDepth < t.totalDepth := by
  obtain ⟨-, hle, -, hlt⟩ := @lower_spec t (shortest t.hops).rows
  obtain ⟨r, hr, hlt⟩ := hlt h
  rw [totalDepth, totalDepth, pairs_eq ids_minimize]
  exact foldr_add_lt_of_mem (x := r.pair) (fun p => hle p.ancestor p.descendant)
    (mem_pairs.2 (ends_of_mem_shortest_hops hr)) hlt

/-! ### The passes -/

/-- A pass that changes the table comes closer to the end. -/
theorem pass_lt (h : ¬(t.complete.count = 0 ∧ t.complete.closure.minimize.count = 0)) :
    Prod.Lex (· < ·) (· < ·)
      (t.complete.closure.minimize.closure.gaps, t.complete.closure.minimize.closure.totalDepth)
      (t.gaps, t.totalDepth) := by
  rw [gaps_minimize]
  by_cases hc : t.complete.count = 0
  -- nothing was added, so that something was lowered, with the gaps as they were
  · have hsame : t.complete.closure = t := fill_spec.2.1 hc
    rw [hsame] at h ⊢
    exact .right _ (totalDepth_minimize_lt fun hm => h ⟨hc, hm⟩)
  -- however much deeper the new rows are, fewer gaps are left
  · exact .left _ _ (gaps_complete_lt hc)

/-- Repeats passes until one changes nothing.  Gives the table and what each pass changed. -/
def saturate (t : Closure) : Closure × List Pass :=
  let added := t.complete
  let lowered := added.closure.minimize
  if added.count = 0 ∧ lowered.count = 0 then (lowered.closure, [⟨0, 0⟩])
  else
    let rest := saturate lowered.closure
    (rest.1, ⟨added.count, lowered.count⟩ :: rest.2)
termination_by (t.gaps, t.totalDepth)
decreasing_by exact pass_lt ‹_›

end Closure

end Tenancy
