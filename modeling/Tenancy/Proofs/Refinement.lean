import Tenancy.Proofs.Acceptance
import Tenancy.Proofs.Forest
import Tenancy.Proofs.Requests

namespace Tenancy

/-!
# A store keeps a forest

From an empty table on, insertions, moves and repairs of the whole table keep the closure of a
forest.  Which requests are refused, and why, can be told from the forest alone.

* `Forest.insertFault?`, `Forest.moveFault?` — the first fault of a request, from the forest.
* `Forest.answer`, `Forest.next` — what a change comes to on a forest.
* `Change.outcome_closure` — on the closure of a forest, it comes to the same.
* `Store.refines_forest` — so it does after any list of changes.
-/

open Hierarchy

variable {f : Forest} {t : Closure} {tenant parent id : TenantId} {n x : Int}

namespace Forest

/-- Every id names a tenant that a table can hold. -/
def Named (f : Forest) : Prop := ∀ n ∈ f.nodes, ∃ id : TenantId, id.Storable ∧ id.cell = n

/-- Nodes with names are cells in range. -/
theorem Named.range (h : f.Named) (hn : n ∈ f.nodes) : 1 ≤ n ∧ n ≤ TenantId.maxCell := by
  obtain ⟨id, hs, rfl⟩ := h n hn
  have hz : id.cell ≠ 0 := fun he => f.rootless (he ▸ hn)
  unfold TenantId.Storable at hs
  unfold TenantId.cell at hz ⊢
  omega

/-! ### Requests on a forest -/

/-- The id `n` is the tenant or lies below it. -/
def Below (f : Forest) (tenant n : Int) : Prop := ∃ k, f.up k n = some tenant

/-- It suffices to look at as many levels as there are ids. -/
theorem below_iff : f.Below x n ↔ ∃ k < f.nodes.card + 1, f.up k n = some x := by
  refine ⟨fun ⟨k, hk⟩ => ⟨k, ?_, hk⟩, fun ⟨k, _, hk⟩ => ⟨k, hk⟩⟩
  cases k with
  | zero => omega
  | succ k =>
    have hlt := lt_card_of_up (mem_of_up_succ hk) hk
    omega

instance : Decidable (f.Below x n) := decidable_of_iff _ below_iff.symm

/-- The first fault of an insertion. -/
def insertFault? (f : Forest) (parent id : TenantId) : Option Failure :=
  if id = .root then some (.invalid (.zero "new_id"))
  else if ¬id.Storable then some (.invalid (.tooLarge "new_id" id))
  else if ¬parent.Storable then some (.invalid (.tooLarge "parent_id" parent))
  else if parent = id then some (.invalid (.ownParent id))
  else if id.cell ∈ f.nodes then some (.conflict (.present id))
  else if parent ≠ .root ∧ parent.cell ∉ f.nodes then some (.conflict (.parentAbsent parent))
  else none

/-- The first fault of a move. -/
def moveFault? (f : Forest) (tenant parent : TenantId) : Option Failure :=
  if tenant = .root then some (.invalid (.zero "tenant_id"))
  else if ¬tenant.Storable then some (.invalid (.tooLarge "tenant_id" tenant))
  else if ¬parent.Storable then some (.invalid (.tooLarge "new_parent_id" parent))
  else if parent ≠ .root ∧ f.Below tenant.cell parent.cell then
    some (.conflict (.circular tenant parent))
  else if tenant.cell ∉ f.nodes then some (.conflict (.absent tenant))
  else if parent ≠ .root ∧ parent.cell ∉ f.nodes then some (.conflict (.parentAbsent parent))
  else none

/-- What the forest accepts as a leaf can be planted in it. -/
theorem plantable_of_insertFault? (h : f.insertFault? parent id = none) :
    f.Plantable parent.cell id.cell ∧ id.Storable := by
  unfold insertFault? at h
  split_ifs at h with hz hs hp hself hmem hpar
  refine ⟨⟨fun he => hz (cell_eq_zero_iff.1 he), hmem, ?_⟩, hs⟩
  by_cases hroot : parent = .root
  · exact .inl (cell_eq_zero_iff.2 hroot)
  · exact .inr (by_contra fun hn => hpar ⟨hroot, hn⟩)

/-- Nothing lies above or below the id that names no tenant. -/
theorem not_below_root (hx : x ∈ f.nodes) : ¬f.Below x 0 := by
  rintro ⟨k, hk⟩
  cases k with
  | zero =>
    have hzero : 0 = x := Option.some.inj hk
    exact f.rootless (hzero ▸ hx)
  | succ k => exact f.rootless (mem_of_up_succ hk)

/-- A move is refused unless its ids can be stored and the subtree can be put there. -/
theorem moveFault?_eq_none_iff : f.moveFault? tenant parent = none ↔
    tenant.Storable ∧ parent.Storable ∧ f.Graftable tenant.cell parent.cell := by
  have hroot : parent.cell = 0 ↔ parent = .root := cell_eq_zero_iff
  unfold moveFault?
  constructor
  · intro h
    -- the checks in the order in which they are made; the root is caught by the first
    split_ifs at h with hz hs hp hbelow hmem hpar
    refine ⟨hs, hp, hmem, ?_, fun k hk => ?_⟩
    · by_contra hn
      rw [not_or, hroot] at hn
      exact hpar hn
    · refine hbelow ⟨fun he => ?_, k, hk⟩
      exact not_below_root hmem ⟨k, hroot.2 he ▸ hk⟩
  · rintro ⟨hs, hp, hmem, hpar, hap⟩
    have hz : tenant ≠ .root := fun he => f.rootless (cell_eq_zero_iff.2 he ▸ hmem)
    have hbelow : ¬(parent ≠ .root ∧ f.Below tenant.cell parent.cell) := fun h =>
      h.2.elim fun k hk => hap k hk
    have hpar' : ¬(parent ≠ .root ∧ parent.cell ∉ f.nodes) := fun h =>
      hpar.elim (fun he => h.1 (hroot.1 he)) h.2
    simp only [hz, hs, hp, hbelow, hmem, hpar', if_false, not_true_eq_false]

theorem graftable_of_moveFault? (h : f.moveFault? tenant parent = none) :
    f.Graftable tenant.cell parent.cell := (moveFault?_eq_none_iff.1 h).2.2

/-- The answer to a change. -/
def answer (f : Forest) : Change → Except Failure (Option RepairReport)
  | .insert parent id =>
    match f.insertFault? parent id with
    | some e => .error e
    | none => .ok none
  | .move tenant parent _ =>
    match f.moveFault? tenant parent with
    | some e => .error e
    | none => .ok none
  | .repairAll => .ok (some { passes := 1 })

/-- The forest after a change: an insertion adds a leaf, a move gives the tenant its new parent. -/
def next (f : Forest) : Change → Forest
  | .insert parent id =>
    if h : f.insertFault? parent id = none then
      f.plant parent.cell id.cell (plantable_of_insertFault? h).1
    else f
  | .move tenant parent _ =>
    if h : f.moveFault? tenant parent = none then
      f.graft tenant.cell parent.cell (graftable_of_moveFault? h)
    else f
  | .repairAll => f

/-! ### Requests on the closure -/

theorem mentions_closure : f.closure.mentions n = decide (n ∈ f.nodes) := by
  rw [Bool.eq_iff_iff, Closure.mentions_iff, mem_ids_closure, decide_eq_true_iff]

/-- A forest whose depths can all be read has no more levels than a cell can count. -/
theorem card_le_maxCell (hcard : f.nodes.card < 2 ^ 32) : f.nodes.card ≤ TenantId.maxCell :=
  Nat.le_of_lt (Nat.lt_of_lt_of_le hcard (by decide))

/-- On the closure of a forest, an insertion is refused as on the forest. -/
theorem insertFault?_closure :
    Hierarchy.insertFault? f.closure parent id = f.insertFault? parent id := by
  unfold Hierarchy.insertFault? insertFault? tenantFault? storableFault? parentFault?
  rw [mentions_closure, mentions_closure]
  split_ifs <;> simp_all

/-- The guard against cycles looks at one row only; in a closure this row tells all. -/
theorem cycleFault?_closure (hcard : f.nodes.card < 2 ^ 32) :
    cycleFault? f.closure tenant parent = if parent ≠ .root ∧ f.Below tenant.cell parent.cell then
      some (.conflict (.circular tenant parent)) else none := by
  unfold cycleFault?
  by_cases hroot : parent = .root
  · simp [hroot]
  by_cases hself : parent = tenant
  · have hbelow : f.Below tenant.cell parent.cell := ⟨0, by rw [hself]; rfl⟩
    simp [hself, hself ▸ hbelow]
  rw [if_neg hroot, if_neg hself]
  by_cases hbelow : f.Below tenant.cell parent.cell
  · -- the way up is one row, at a depth that can be read
    obtain ⟨k, hk⟩ := hbelow
    have hpos : parent.cell ∈ f.nodes := by
      cases k with
      | zero => exact absurd (TenantId.cell_inj.1 (Option.some.inj hk)) hself
      | succ k => exact mem_of_up_succ hk
    have hlt : k < 2 ^ 32 := Nat.lt_trans (lt_card_of_up hpos hk) hcard
    have hdepth : f.closure.depth? tenant.cell parent.cell = some k :=
      depth?_closure_eq_some_iff.2 ⟨hpos, hk⟩
    rw [if_pos ⟨hroot, k, hk⟩, reachFault?, readDepth_of_lt hdepth hlt]
  · rw [if_neg fun h => hbelow h.2, reachFault?_eq_none_iff]
    refine Option.eq_none_iff_forall_ne_some.2 fun k hk => hbelow ⟨k, ?_⟩
    exact (depth?_closure_eq_some_iff.1 hk).2

/-- On the closure of a forest, a move is refused as on the forest. -/
theorem moveFault?_closure (hcard : f.nodes.card < 2 ^ 32) :
    Hierarchy.moveFault? f.closure tenant parent = f.moveFault? tenant parent := by
  unfold Hierarchy.moveFault? moveFault? tenantFault? storableFault? parentFault?
  rw [mentions_closure, mentions_closure, cycleFault?_closure hcard]
  split_ifs <;> simp_all

/-- The plan of a move can always be told. -/
theorem exists_forewarning (verbose : Bool) (hcard : f.nodes.card < 2 ^ 32)
    (hnamed : verbose = true → f.Named) (hm : f.Graftable tenant.cell parent.cell) :
    ∃ es, forewarning f.closure tenant parent verbose = .ok es := by
  refine exists_forewarning_iff.2 fun hv => ?_
  -- both ends of a row are ids of tenants, fewer levels apart than there are ids
  have hkin : ∀ a d k, f.closure.depth? a d = some k →
      (⟨a, k⟩ : Kin).Readable ∧ (⟨d, k⟩ : Kin).Readable := by
    intro a d k hk
    obtain ⟨hd, ha⟩ := depth?_closure_eq_some_iff.1 hk
    have hlt : k < UInt32.size := Nat.lt_trans (lt_card_of_up hd ha) hcard
    exact ⟨⟨hnamed hv a (mem_of_up hd ha), hlt⟩, ⟨hnamed hv d hd, hlt⟩⟩
  refine ⟨fun m hm' => ?_, fun hz m hm' => ?_⟩
  · have hself := ordered_closure.self tenant.cell (mem_ids_closure.2 hm.tenant_mem)
    exact (hkin _ _ _ ((Closure.mem_subtree_of_self hself).1 hm')).2
  · have hpar : parent.cell ∈ f.nodes := hm.parent_mem.resolve_left (mt cell_eq_zero_iff.1 hz)
    have hself := ordered_closure.self parent.cell (mem_ids_closure.2 hpar)
    exact (hkin _ _ _ ((Closure.mem_supertree_of_self hself).1 hm')).1

end Forest

/-- **One change.** On the closure of a forest, a change comes to what it comes to on the forest. -/
theorem Change.outcome_closure (c : Change) (hcard : f.nodes.card < 2 ^ 32) (hnamed : f.Named) :
    c.outcome f.closure = (f.answer c).map fun a => ((f.next c).closure, a) := by
  cases c with
  | insert parent id =>
    dsimp only [Change.outcome, Forest.answer, Forest.next]
    rw [Forest.insertFault?_closure]
    by_cases h : f.insertFault? parent id = none
    · rw [dif_pos h, h, Forest.closure_plant (Forest.card_le_maxCell hcard)]
      rfl
    · obtain ⟨e, he⟩ := Option.ne_none_iff_exists'.1 h
      rw [dif_neg h, he]
      rfl
  | move tenant parent verbose =>
    dsimp only [Change.outcome, Forest.answer, Forest.next]
    rw [Forest.moveFault?_closure hcard]
    by_cases h : f.moveFault? tenant parent = none
    -- a plan can always be told: the nodes have names and the depths are below their number
    · obtain ⟨es, hes⟩ := Forest.exists_forewarning verbose hcard (fun _ => hnamed)
        (Forest.graftable_of_moveFault? h)
      rw [dif_pos h, h, hes, Forest.closure_graft (Forest.card_le_maxCell hcard)]
      rfl
    · obtain ⟨e, he⟩ := Option.ne_none_iff_exists'.1 h
      rw [dif_neg h, he]
      rfl
  | repairAll =>
    dsimp only [Change.outcome, Forest.answer, Forest.next]
    -- the table of a forest is sound, and so a repair finds nothing to do
    have hsound := Forest.sound_closure (Forest.card_le_maxCell hcard)
    rw [hsound.repaired_eq, repairReport_of_repaired_eq hsound.repaired_eq]
    rfl

namespace Forest

/-! ### Lists of changes -/

/-- The forest without ids. -/
def empty : Forest where
  nodes := ∅
  parent _ := none
  rootless := Finset.notMem_empty 0
  mem_of_parent _ _ h := nomatch h
  acyclic _ _ h := nomatch h

/-- The table of the empty forest is the empty table. -/
theorem closure_empty : empty.closure = .empty := by
  refine Eq.symm (eq_closure_iff.2 fun a d k => ?_)
  rw [Closure.depth?_empty]
  simp [empty]

/-- The forest after a list of changes. -/
def afterAll (f : Forest) (cs : List Change) : Forest := cs.foldl next f

/-- A change leaves the ids as they are, or brings in one that a table can hold. -/
theorem nodes_next (c : Change) : (f.next c).nodes = f.nodes ∨
    ∃ id : TenantId, id.Storable ∧ (f.next c).nodes = insert id.cell f.nodes := by
  cases c with
  | insert parent id =>
    dsimp only [next]
    split
    · rename_i hfault
      exact .inr ⟨id, (plantable_of_insertFault? hfault).2, rfl⟩
    · exact .inl rfl
  | move tenant parent verbose =>
    dsimp only [next]
    split
    · exact .inl rfl
    · exact .inl rfl
  | repairAll => exact .inl rfl

/-- No change takes an id away. -/
theorem nodes_subset_next (c : Change) : f.nodes ⊆ (f.next c).nodes := by
  rcases nodes_next (f := f) c with h | ⟨id, -, h⟩
  · rw [h]
  · rw [h]
    exact Finset.subset_insert _ _

/-- No change takes a node away. -/
theorem nodes_subset_afterAll (cs : List Change) : f.nodes ⊆ (f.afterAll cs).nodes := by
  induction cs generalizing f with
  | nil => exact Finset.Subset.refl _
  | cons c cs ih => exact (nodes_subset_next c).trans ih

/-- Each change adds one id at most. -/
theorem card_afterAll_le (cs : List Change) :
    (f.afterAll cs).nodes.card ≤ f.nodes.card + cs.length := by
  induction cs generalizing f with
  | nil => exact Nat.le_refl _
  | cons c cs ih =>
    -- a change adds one node at most
    have hnext : (f.next c).nodes.card ≤ f.nodes.card + 1 := by
      rcases nodes_next (f := f) c with h | ⟨id, -, h⟩
      · rw [h]
        exact Nat.le_succ _
      · rw [h]
        exact Finset.card_insert_le _ _
    have hrest := ih (f := f.next c)
    show ((f.next c).afterAll cs).nodes.card ≤ _
    rw [List.length_cons]
    omega

/-- The ids that come in by an insertion are names of tenants. -/
theorem Named.next (h : f.Named) (c : Change) : (f.next c).Named := by
  intro n hn
  rcases nodes_next (f := f) c with hsame | ⟨id, hs, hmore⟩
  · exact h n (hsame ▸ hn)
  · rw [hmore] at hn
    rcases Finset.mem_insert.1 hn with rfl | hn
    · exact ⟨id, hs, rfl⟩
    · exact h n hn

/-- A change that fails leaves the forest alone. -/
theorem next_eq_self {c : Change} {e : Failure} (h : f.answer c = .error e) :
    f.next c = f := by
  cases c with
  | insert parent id =>
    dsimp only [answer, next] at h ⊢
    refine dif_neg fun hfault => ?_
    rw [hfault] at h
    cases h
  | move tenant parent verbose =>
    dsimp only [answer, next] at h ⊢
    refine dif_neg fun hfault => ?_
    rw [hfault] at h
    cases h
  | repairAll => rfl

/-- The closure of a forest of tenants goes with the forest. -/
theorem next_closure {c : Change} (hcard : f.nodes.card < 2 ^ 32) (hnamed : f.Named) :
    f.closure.next (.change c) = (f.next c).closure := by
  have houtcome : (Request.change c).outcome f.closure
      = (f.answer c).map fun a => ((f.next c).closure, a) := c.outcome_closure hcard hnamed
  cases ha : f.answer c with
  | ok a =>
    rw [ha] at houtcome
    exact Closure.next_of_ok houtcome
  | error e =>
    rw [ha] at houtcome
    rw [next_eq_self ha]
    exact Closure.next_of_error houtcome

end Forest

/-! ### The store and its forest -/

/-- The table of the store is the closure of a forest of tenants, with depths that can be read. -/
structure Store.Keeps (s : Store) (f : Forest) : Prop where
  ready : s.Ready
  closure? : s.database.closure? = some f.closure
  named : f.Named

namespace Store

variable {s : Store} {c : Change} {cs : List Change}

/-- The store answers as the forest does. -/
theorem Keeps.answer (h : s.Keeps f) (hcard : f.nodes.card < 2 ^ 32) :
    s.answer (.change c) = f.answer c := by
  rw [answer_eq h.ready h.closure?]
  show (c.outcome f.closure).map Prod.snd = _
  rw [c.outcome_closure hcard h.named]
  cases f.answer c <;> rfl

/-- **One change.** The store goes with the forest. -/
theorem Keeps.next (h : s.Keeps f) (hcard : f.nodes.card < 2 ^ 32) :
    (s.next (.change c)).Keeps (f.next c) := by
  obtain ⟨hready, hclosure⟩ := ready_next (r := .change c) h.ready h.closure?
  exact ⟨hready, hclosure.trans (congrArg some (Forest.next_closure hcard h.named)), h.named.next c⟩

/-- **Many changes.** Forests only grow, so that the last one bounds the size of all. -/
theorem Keeps.afterAll (h : s.Keeps f) (hcard : (f.afterAll cs).nodes.card < 2 ^ 32) :
    (s.afterAll (cs.map .change)).Keeps (f.afterAll cs) := by
  induction cs generalizing s f with
  | nil => exact h
  | cons c cs ih =>
    have hgrow : f.nodes ⊆ (f.afterAll (c :: cs)).nodes := Forest.nodes_subset_afterAll (c :: cs)
    have hnow : f.nodes.card < 2 ^ 32 := Nat.lt_of_le_of_lt (Finset.card_le_card hgrow) hcard
    exact ih (h.next hnow) hcard

/-- **A store keeps a forest.** Start with an empty table, and make any list of changes that leads
    to fewer than 2^32 tenants.  At every point the table is the closure of the forest that the
    changes so far have led to, and the forest alone decides what any next change is answered. -/
theorem refines_forest (hready : s.Ready) (hempty : s.database.closure? = some .empty)
    (hcard : (Forest.empty.afterAll cs).nodes.card < 2 ^ 32) {now : List Change}
      (hnow : now <+: cs) :
    (s.afterAll (now.map .change)).database.closure? = some (Forest.empty.afterAll now).closure ∧
      (∀ n ∈ (Forest.empty.afterAll now).nodes, 1 ≤ n ∧ n ≤ TenantId.maxCell) ∧
      ∀ c, (s.afterAll (now.map .change)).answer (.change c)
        = (Forest.empty.afterAll now).answer c := by
  have hkeeps : s.Keeps .empty := by
    refine ⟨hready, ?_, fun n hn => absurd hn (Finset.notMem_empty n)⟩
    rw [hempty, Forest.closure_empty]
  -- the forest so far has no id that the last one has not
  have hsize : (Forest.empty.afterAll now).nodes.card < 2 ^ 32 := by
    obtain ⟨rest, rfl⟩ := hnow
    have hgrow :
      (Forest.empty.afterAll now).nodes ⊆ (Forest.empty.afterAll (now ++ rest)).nodes := by
      unfold Forest.afterAll
      rw [List.foldl_append]
      exact Forest.nodes_subset_afterAll rest
    exact Nat.lt_of_le_of_lt (Finset.card_le_card hgrow) hcard
  have hthen := hkeeps.afterAll hsize
  exact ⟨hthen.closure?, fun n hn => hthen.named.range hn, fun c => hthen.answer hsize⟩

/-- Tenant 2 was below tenant 1 and is now above it: putting it back is refused. -/
theorem refines_forest_of_swap :
    let changes : List Change := [.insert (.ofNat 0) (.ofNat 1), .insert (.ofNat 1) (.ofNat 2),
      .move (.ofNat 2) (.ofNat 0) true, .move (.ofNat 1) (.ofNat 2) true]
    let s := initial.afterAll (changes.map .change)
    s.database.closure? = some (Forest.empty.afterAll changes).closure ∧
      s.answer (.change (.move (.ofNat 2) (.ofNat 1) false))
        = .error (.conflict (.circular (.ofNat 2) (.ofNat 1))) := by
  intro changes s
  have hcard : (Forest.empty.afterAll changes).nodes.card < 2 ^ 32 := by
    have hle := Forest.card_afterAll_le (f := .empty) changes
    have hlen : changes.length = 4 := rfl
    have hnone : Forest.empty.nodes.card = 0 := rfl
    omega
  obtain ⟨hclosure, -, hanswer⟩ := refines_forest ready_initial closure?_initial hcard
    (List.prefix_refl changes)
  exact ⟨hclosure, (hanswer _).trans rfl⟩

end Store

end Tenancy
