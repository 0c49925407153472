import Tenancy.Proofs.Presence
import Tenancy.Proofs.Refinement

namespace Tenancy

/-!
# Histories

The table of a store came about by changes of an empty one.  Some of the changes may have failed, be
it that they were refused or that someone else held a lock.  All tables on the way order their ids,
however many they mention, so that no id ever gets lost; therefore it is enough to count the ids
that are there now, to know that the store keeps a forest.

* `Closure.ordered_next`, `Closure.mem_ids_next` — what one change keeps.
* `Store.closure?_next` — one change of a store that may have been locked.
* `Store.population` — the number of ids that are there.
* `Store.History` — stores whose tables came about by changes.
* `Store.History.keeps` — the store keeps a forest.
-/

variable {s : Store} {t u : Closure} {f : Forest} {r : Request} {c : Change} {cs : List Change}
  {n : Int}

namespace Closure

/-! ### Tables on the way -/

/-- A change keeps the order of a table. -/
theorem ordered_next (h : t.Ordered) : (t.next (.change c)).Ordered := by
  cases ho : (Request.change c).outcome t with
  | error e => rwa [next_of_error ho]
  | ok o =>
    rw [next_of_ok ho]
    cases c with
    | insert parent id =>
      obtain ⟨hfault, ho⟩ := Change.insert_eq_ok ho
      exact ho ▸ h.planted (Hierarchy.plantable_of_insertFault? hfault)
    | move tenant parent verbose =>
      obtain ⟨hfault, ho⟩ := Change.move_eq_ok ho
      exact ho ▸ h.moved (Hierarchy.movable_of_moveFault? h.rootless hfault)
    | repairAll =>
      cases ho
      exact h.untangled.ordered_repaired

/-- A change of a table in order loses no id: self rows are never missing. -/
theorem mem_ids_next (h : t.Ordered) (hn : n ∈ t.ids) : n ∈ (t.next (.change c)).ids := by
  cases ho : (Request.change c).outcome t with
  | error e => rwa [next_of_error ho]
  | ok o =>
    rw [next_of_ok ho]
    have hself : t.depth? n n = some 0 := h.self n hn
    exact (Request.mem_ids_outcome_iff ho hn).2 (Request.not_sheds_of_self hself)

/-- A table mentions at least as many ids as another one of which it mentions all. -/
theorem size_ids_le (h : ∀ n ∈ t.ids, n ∈ u.ids) : t.ids.size ≤ u.ids.size := by
  have hsub : t.ids.toList ⊆ u.ids.toList := fun n hn =>
    Std.ExtTreeSet.mem_toList.2 (h n (Std.ExtTreeSet.mem_toList.1 hn))
  rw [← Std.ExtTreeSet.length_toList, ← Std.ExtTreeSet.length_toList]
  exact (nodup_ids.subperm hsub).length_le

end Closure

/-- The closure of a forest mentions each of its ids. -/
theorem Forest.size_ids_closure : f.closure.ids.size = f.nodes.card := by
  have hset : f.closure.ids.toList.toFinset = f.nodes := by
    ext n
    rw [List.mem_toFinset, Std.ExtTreeSet.mem_toList, mem_ids_closure]
  rw [← Std.ExtTreeSet.length_toList, ← hset, List.toFinset_card_of_nodup Closure.nodup_ids]

namespace Store

/-! ### Stores with a history -/

/-- **One change of a store that may be locked.** It is made, or the table stays as it was. -/
theorem closure?_next (hwrites : s.readOnly = false) (ht : s.database.closure? = some t) :
    (s.next r).readOnly = false ∧ ((s.next r).database.closure? = some t ∨
      (s.next r).database.closure? = some (t.next r)) := by
  obtain ⟨es, hserve⟩ := r.serve_transact (s := s)
  have hscope : s.scope = { database := s.database } := by rw [scope, hwrites]; rfl
  have hholds : s.scope.Holds t := by
    rw [hscope]
    exact ⟨ht, rfl⟩
  obtain ⟨u, fs, hwork, hu⟩ := r.work_on hholds
  rw [next, hserve, transact_on, hwork]
  refine ⟨hwrites, ?_⟩
  -- the way of a transaction: it begins, its work succeeds, it is committed
  cases s.beginFault? with
  | some e => exact .inl ht
  | none =>
    cases ho : r.outcome t with
    | error e => exact .inl ht
    | ok o =>
      cases s.commitFault? with
      | some e => exact .inl ht
      | none =>
        refine .inr ?_
        show (s.scope.database.setClosure u).closure? = _
        rw [Database.closure?_setClosure, hscope, ht, hu o ho, Closure.next_of_ok ho]
        rfl

/-- The number of ids that the table mentions. -/
def population (s : Store) : Nat := s.database.closure?.elim 0 fun t => t.ids.size

/-- The table of the store was empty once, and has been changed since.  In between, others may have
    taken connections on lease, read or written, and given them back. -/
inductive History : Store → Prop
  | empty {s : Store} (hwrites : s.readOnly = false) (hempty : s.database.closure? = some .empty) :
      History s
  | change {s : Store} (h : History s) (c : Change) : History (s.next (.change c))
  | meanwhile {s : Store} (h : History s) (lease : Option Lease) : History { s with lease := lease }

namespace History

/-- Every run of changes is a history. -/
theorem afterAll (h : s.History) : (s.afterAll (cs.map .change)).History := by
  induction cs generalizing s with
  | nil => exact h
  | cons c cs ih => exact ih (h.change c)

/-- **Tables with a history** order their ids, and are closures of forests if there are few.  A
    table that has few ids after a change had no more of them before. -/
theorem closure?_eq (h : s.History) : s.readOnly = false ∧
    ∃ t : Closure, s.database.closure? = some t ∧ t.Ordered ∧
      (t.ids.size < 2 ^ 32 → ∃ f : Forest, t = f.closure ∧ f.Named) := by
  induction h with
  | @empty s hwrites hempty =>
    rw [← Forest.closure_empty] at hempty
    exact ⟨hwrites, _, hempty, Forest.ordered_closure, fun _ =>
      ⟨_, rfl, fun n hn => absurd hn (Finset.notMem_empty n)⟩⟩
  | @change s h c ih =>
    obtain ⟨hwrites, t, ht, hord, hforest⟩ := ih
    obtain ⟨hwrites', hsame | hnext⟩ := closure?_next (r := .change c) hwrites ht
    · exact ⟨hwrites', t, hsame, hord, hforest⟩
    · refine ⟨hwrites', _, hnext, Closure.ordered_next hord, fun hsmall => ?_⟩
      -- the bound goes back to the table before: all of its ids are still there
      have hbefore : t.ids.size < 2 ^ 32 := Nat.lt_of_le_of_lt
        (Closure.size_ids_le fun n hn => Closure.mem_ids_next hord hn) hsmall
      obtain ⟨f, rfl, hnamed⟩ := hforest hbefore
      exact ⟨_, Forest.next_closure (Forest.size_ids_closure ▸ hbefore) hnamed, hnamed.next c⟩
  | meanwhile h lease ih => exact ih

/-- **A store keeps a forest**, whatever its history is. -/
theorem keeps (h : s.History) (hready : s.Ready) (hsmall : s.population < 2 ^ 32) :
    ∃ f : Forest, s.Keeps f ∧ f.nodes.card < 2 ^ 32 := by
  obtain ⟨-, t, ht, -, hforest⟩ := h.closure?_eq
  rw [population, ht] at hsmall
  obtain ⟨f, rfl, hnamed⟩ := hforest hsmall
  exact ⟨f, ⟨hready, ht, hnamed⟩, Forest.size_ids_closure ▸ hsmall⟩

end History

/-- An empty table has a history. -/
theorem history_initial : initial.History := .empty rfl closure?_initial

end Store

end Tenancy
