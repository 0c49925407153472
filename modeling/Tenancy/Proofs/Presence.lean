import Tenancy.Proofs.Acyclicity
import Tenancy.Proofs.Soundness

namespace Tenancy

/-!
# Tenants that stay

A tenant is there as long as some row mentions it.  Insertions and repairs only add rows, so that
nobody gets lost.  A move deletes rows, and puts back only those that lead over the new parent: an
id whose rows are all deleted is gone, unless it is the tenant or the parent of a move that has
one.  A self row at depth 0 is never deleted, so that this takes a table in which self rows are
missing.

* `Closure.mem_ids_of_mem_moved` — a move brings in no id.
* `Closure.Sheds` — the ids that a move loses.
* `Closure.mem_ids_moved_iff` — it loses no others, on any table.
* `Closure.sheds_tenant_iff`, `Closure.sheds_iff_of_ne` — which ids these are, on a table that does
  not mention 0.
* `Request.isPresent_after_iff` — who is there after a request.
-/

variable {s : Scope} {t u : Closure} {r : Request} {id : TenantId}

namespace Closure

variable {tenant parent a d n : Int} {k : Nat}

/-- Rows that stay keep the ids at their ends. -/
theorem mem_ids_of_joins_imp (h : ∀ a d, t.joins a d = true → u.joins a d = true) (hn : n ∈ t.ids) :
    n ∈ u.ids := by
  obtain ⟨m, hm⟩ := mem_ids_iff_joins.1 hn
  exact mem_ids_iff_joins.2 ⟨m, hm.imp (h n m) (h m n)⟩

/-! ### Ids that a move loses -/

/-- The rows that a move writes end at the parent and at the tenant, or where a row was left. -/
theorem ends_of_moved {P : Int → Prop}
    (hleft : ∀ a d k, (t.cut tenant parent).depth? a d = some k → P a ∧ P d)
    (hplace : parent ≠ 0 → P tenant ∧ P parent) :
    ∀ a d k, (t.moved tenant parent).depth? a d = some k → P a ∧ P d := by
  intro a d k hk
  by_cases hz : parent = 0
  · subst hz
    rw [moved_zero] at hk
    exact hleft a d k hk
  · rw [moved_of_ne_zero hz, depth?_attach_eq_some_iff] at hk
    obtain ⟨htenant, hparent⟩ := hplace hz
    -- a row that attaching writes has its ends in the supertree and in the subtree, hence the
    -- anchors count as well
    rcases hk.1 with hold | hnew
    · exact hleft a d k hold
    · obtain ⟨i, j, hi, hj, -⟩ := mem_links.1 hnew
      constructor
      · rcases mem_supertree.1 hi with he | hrow
        · exact (Kin.mk.inj he).1 ▸ hparent
        · exact (hleft _ _ _ hrow).1
      · rcases mem_subtree.1 hj with he | hrow
        · exact (Kin.mk.inj he).1 ▸ htenant
        · exact (hleft _ _ _ hrow).2

/-- A move brings in no id that was not there, if its own two were. -/
theorem mem_ids_of_mem_moved (ht : tenant ∈ t.ids) (hp : parent = 0 ∨ parent ∈ t.ids)
    (hn : n ∈ (t.moved tenant parent).ids) : n ∈ t.ids := by
  have hleft : ∀ a d k, (t.cut tenant parent).depth? a d = some k → a ∈ t.ids ∧ d ∈ t.ids :=
    fun a d k hk => mem_ids_of_joins (joins_of_depth? (depth?_cut_eq_some_iff.1 hk).1)
  have hends := ends_of_moved (P := fun m => m ∈ t.ids) hleft fun hz => ⟨ht, hp.resolve_left hz⟩
  obtain ⟨m, hm | hm⟩ := mem_ids_iff_joins.1 hn
  · obtain ⟨k, hk⟩ := joins_iff.1 hm
    exact (hends n m k hk).1
  · obtain ⟨k, hk⟩ := joins_iff.1 hm
    exact (hends m n k hk).2

/-- All rows that mention `n` are deleted by a move, and no row of its own is written for it. -/
structure Sheds (t : Closure) (tenant parent n : Int) : Prop where
  cut : ∀ r ∈ t, r.ancestor = n ∨ r.descendant = n → t.Cuts tenant parent r
  unlinked : parent = 0 ∨ n ≠ tenant ∧ n ≠ parent

/-- A move sheds an id if it cuts all its rows and writes none for it. -/
theorem sheds_iff_rows : t.Sheds tenant parent n ↔
    (∀ r ∈ t.rows, r.ancestor = n ∨ r.descendant = n → t.Cuts tenant parent r) ∧
      (parent = 0 ∨ n ≠ tenant ∧ n ≠ parent) :=
  ⟨fun h => ⟨fun r hr => h.cut r (mem_rows.1 hr), h.unlinked⟩,
    fun h => ⟨fun r hr => h.1 r (mem_rows.2 hr), h.2⟩⟩

instance : Decidable (t.Sheds tenant parent n) := decidable_of_iff _ sheds_iff_rows.symm

/-- An id that is shed has no rows after the move. -/
theorem Sheds.not_joins (h : t.Sheds tenant parent n) :
    (t.moved tenant parent).joins n a = false ∧ (t.moved tenant parent).joins a n = false := by
  have hleft : ∀ a d k, (t.cut tenant parent).depth? a d = some k → a ≠ n ∧ d ≠ n := by
    intro a d k hk
    obtain ⟨hrow, hcut⟩ := depth?_cut_eq_some_iff.1 hk
    exact ⟨fun he => hcut (h.cut _ hrow (.inl he)), fun he => hcut (h.cut _ hrow (.inr he))⟩
  have hends := ends_of_moved (P := fun m => m ≠ n) hleft fun hz =>
    (h.unlinked.resolve_left hz).imp Ne.symm Ne.symm
  have hno : ∀ a d, (a = n ∨ d = n) → (t.moved tenant parent).joins a d = false := by
    intro a d he
    rw [← Bool.not_eq_true, joins_iff]
    rintro ⟨k, hk⟩
    exact he.elim (hends a d k hk).1 (hends a d k hk).2
  exact ⟨hno n a (.inl rfl), hno a n (.inr rfl)⟩

/-- **What a move loses.** On any table, an id that was there is gone exactly if the move sheds
    it. -/
theorem mem_ids_moved_iff :
    n ∈ (t.moved tenant parent).ids ↔ ¬t.Sheds tenant parent n := by
  constructor
  · intro hmem hsheds
    obtain ⟨m, hm | hm⟩ := mem_ids_iff_joins.1 hmem
    · rw [hsheds.not_joins.1] at hm
      cases hm
    · rw [hsheds.not_joins.2] at hm
      cases hm
  -- an id that is gone would meet all the conditions of one that is shed
  · intro hnot
    by_contra hgone
    refine hnot ⟨fun r hr hend => by_contra fun hcut => ?_, ?_⟩
    · have hj := mem_ids_of_joins (joins_moved_of_not_cuts hr hcut)
      exact hgone (hend.elim (fun he => he ▸ hj.1) fun he => he ▸ hj.2)
    · refine or_iff_not_imp_left.2 fun hz => ?_
      have hedge : (t.moved tenant parent).joins parent tenant = true := joins_moved_edge hz
      exact ⟨fun he => hgone (he ▸ (mem_ids_of_joins hedge).2),
        fun he => hgone (he ▸ (mem_ids_of_joins hedge).1)⟩

/-- An id with its self row at depth 0 is not lost. -/
theorem not_sheds_of_self (h : t.depth? n n = some 0) : ¬t.Sheds tenant parent n :=
  fun hsheds => not_cuts_self (hsheds.cut (.self n) h (.inl rfl))

/-! ### Who is lost -/

/-- On a table that does not mention 0, a row that has the depth of the new place comes from the
    parent or from above it. -/
theorem joins_parent_of_link (hroot : (0 : Int) ∉ t.ids)
    (hlink : (⟨a, d, k⟩ : Row) ∈ links (t.ancestry parent) (t.subtree tenant)) :
    parent ≠ 0 ∧ (a = parent ∨ t.joins a parent = true) := by
  obtain ⟨i, j, hi, -, -⟩ := mem_links.1 hlink
  unfold ancestry at hi
  by_cases hz : parent = 0
  · rw [if_pos hz] at hi
    exact absurd (mem_ids_of_joins (joins_of_depth? (mem_above.1 hi))).2 hroot
  · rw [if_neg hz] at hi
    exact ⟨hz, (mem_supertree.1 hi).imp (fun he => (Kin.mk.inj he).1) joins_of_depth?⟩

/-- **The tenant itself** is lost if it is to have no parent, and has no row but a self row at depth
    1, which is deleted as if it were a parent edge. -/
theorem sheds_tenant_iff (hroot : (0 : Int) ∉ t.ids) (htenant : tenant ∈ t.ids) :
    t.Sheds tenant parent tenant ↔
      parent = 0 ∧ ∀ d k, t.depth? tenant d = some k → d = tenant ∧ k = 1 := by
  constructor
  · intro h
    refine ⟨h.unlinked.resolve_right fun hboth => hboth.1 rfl, fun d k hk => ?_⟩
    have hcut := h.cut ⟨tenant, d, k⟩ hk (.inl rfl)
    refine ⟨by_contra fun hd => not_cuts_of_tenant hd hcut, ?_⟩
    rcases hcut with ⟨-, hout, -⟩ | ⟨-, hdepth, -⟩
    · exact absurd (.inl rfl) hout
    · exact hdepth
  · rintro ⟨rfl, hself⟩
    refine ⟨?_, .inl rfl⟩
    rintro ⟨a, d, k⟩ hrow hend
    have hrow : t.depth? a d = some k := hrow
    dsimp only at hend
    by_cases ha : a = tenant
    · subst ha
      obtain ⟨rfl, rfl⟩ := hself d k hrow
      exact .inr ⟨rfl, rfl, fun he => hroot (he ▸ htenant)⟩
    · -- any other row comes from outside: nothing lies below the tenant
      obtain rfl := hend.resolve_left ha
      have hout : ¬t.InSubtree d a := by
        rintro (he | hj)
        · exact ha he
        · obtain ⟨i, hi⟩ := joins_iff.1 hj
          exact ha (hself a i hi).1
      exact .inl ⟨.inl rfl, hout, fun hlink => (joins_parent_of_link hroot hlink).1 rfl⟩

/-- **Any other id** is lost if it is not the parent, no row leads to it, and all its rows lead into
    the subtree. -/
theorem sheds_iff_of_ne (hroot : (0 : Int) ∉ t.ids) (hguard : ¬t.InSubtree tenant parent)
    (hn : n ∈ t.ids) (hne : n ≠ tenant) : t.Sheds tenant parent n ↔
      n ≠ parent ∧ (∀ a, ¬t.joins a n = true) ∧ ∀ d, t.joins n d = true → t.InSubtree tenant d := by
  constructor
  · intro h
    refine ⟨?_, fun a hj => ?_, fun d hj => ?_⟩
    · rcases h.unlinked with hz | hboth
      · rintro rfl
        exact hroot (hz ▸ hn)
      · exact hboth.2
    · obtain ⟨k, hk⟩ := joins_iff.1 hj
      rcases h.cut ⟨a, n, k⟩ hk (.inr rfl) with ⟨hin, -, -⟩ | ⟨he, -, -⟩
      · -- below the tenant the row from the tenant would be left
        obtain ⟨i, hi⟩ := joins_iff.1 (hin.resolve_left hne)
        exact not_cuts_of_tenant hne (h.cut ⟨tenant, n, i⟩ hi (.inr rfl))
      · exact hne he
    · obtain ⟨k, hk⟩ := joins_iff.1 hj
      rcases h.cut ⟨n, d, k⟩ hk (.inl rfl) with ⟨hin, -, -⟩ | ⟨he, -, -⟩
      · exact hin
      · exact .inl he
  · rintro ⟨hpar, hnone, hbelow⟩
    refine ⟨?_, .inr ⟨hne, hpar⟩⟩
    rintro ⟨a, d, k⟩ hrow hend
    have hj : t.joins a d = true := joins_of_depth? hrow
    have ha : a = n := hend.resolve_right fun he => hnone a (he ▸ hj)
    subst ha
    have hout : ¬t.InSubtree tenant a := fun hin => hin.elim hne (hnone tenant)
    refine .inl ⟨hbelow d hj, hout, fun hlink => ?_⟩
    -- a row to the parent would lead out of the subtree
    rcases (joins_parent_of_link hroot hlink).2 with he | hup
    · exact hpar he
    · exact hguard (hbelow parent hup)

end Closure

/-! ### Who is there after a request -/

/-- An id that can be asked for is there if some row mentions it. -/
theorem Hierarchy.isPresent_eq_ok_true_iff (h : s.Holds t) :
    ((isPresent id).on s).1 = .ok true ↔ id.Storable ∧ id.cell ∈ t.ids := by
  by_cases hid : id.Storable
  · rw [on_isPresent h.closure? hid, ← Closure.mentions_iff]
    simp [hid]
  · refine iff_of_false ?_ fun hboth => hid hboth.1
    rw [isPresent, Work.on_bind_ok (Work.on_read h), cellOf, Cell.bind, if_neg hid]
    intro he
    cases he

/-- The request loses `n`: it is a move that does. -/
def Request.Sheds (t : Closure) (r : Request) (n : Int) : Prop :=
  match r with
  | .change (.move tenant parent _) => t.Sheds tenant.cell parent.cell n
  | _ => False

/-- An id with a self row at depth 0 is never shed. -/
theorem Request.not_sheds_of_self {n : Int} (h : t.depth? n n = some 0) : ¬r.Sheds t n := by
  cases r with
  | change c =>
    cases c with
    | move tenant parent verbose => exact Closure.not_sheds_of_self h
    | insert parent id => exact not_false
    | repairAll => exact not_false
  | repairPair tenant parent => exact not_false

/-- A request that succeeds loses no ids but those that it sheds. -/
theorem Request.mem_ids_outcome_iff {o : Closure × Option RepairReport} {n : Int}
    (ho : r.outcome t = .ok o) (hn : n ∈ t.ids) : n ∈ o.1.ids ↔ ¬r.Sheds t n := by
  -- a move alone can lose an id; everything else adds rows or lowers them
  have hplant : ∀ (t : Closure) (m a d : Int), t.joins a d = true →
      (t.plant m).closure.joins a d = true := fun t m a d hj => Closure.joins_plant.2 (.inl hj)
  cases r with
  | change c =>
    cases c with
    | insert parent id =>
      obtain ⟨hfault, ho⟩ := Change.insert_eq_ok ho
      have hne := (Hierarchy.plantable_of_insertFault? hfault).parent_ne
      refine iff_of_true ?_ not_false
      rw [ho]
      refine Closure.mem_ids_of_joins_imp (fun a d hj => ?_) hn
      unfold Closure.planted
      split
      · exact hplant t id.cell a d hj
      · exact Closure.joins_adopt_of_joins hne (hplant t id.cell a d hj)
    | move tenant parent verbose =>
      rw [(Change.move_eq_ok ho).2]
      exact Closure.mem_ids_moved_iff
    | repairAll =>
      cases ho
      exact iff_of_true (Closure.ids_repaired.symm ▸ hn) not_false
  | repairPair tenant parent =>
    obtain ⟨hfault, ho⟩ := Request.repairPair_eq_ok ho
    have hne : parent.cell ≠ tenant.cell := fun he =>
      (Hierarchy.pairFault?_eq_none_iff.1 hfault).2.2.1 (TenantId.cell_inj.1 he.symm)
    refine iff_of_true ?_ not_false
    rw [ho]
    exact Closure.mem_ids_of_joins_imp (fun a d hj =>
      Closure.joins_adopt_of_joins hne (hplant _ _ a d (hplant _ _ a d hj))) hn

/-- **Who is there after a request.** Whatever rows a table holds, a request that succeeds leaves
    there all who were, except for those that a move sheds; and it sheds nobody whose self row is
    there. -/
theorem Request.isPresent_after_iff {a : Option RepairReport} (h : s.Holds t)
    (hok : (r.work.on s).1 = .ok a) (hid : ((Hierarchy.isPresent id).on s).1 = .ok true) :
    (((Hierarchy.isPresent id).on (r.work.on s).2).1 = .ok true ↔ ¬r.Sheds t id.cell) ∧
      (t.depth? id.cell id.cell = some 0 → ¬r.Sheds t id.cell) := by
  obtain ⟨hstore, hmem⟩ := (Hierarchy.isPresent_eq_ok_true_iff h).1 hid
  obtain ⟨u, es, hwork, hu⟩ := r.work_on h
  rw [hwork] at hok ⊢
  cases ho : r.outcome t with
  | error e =>
    rw [ho] at hok
    cases hok
  | ok o =>
    refine ⟨?_, Request.not_sheds_of_self⟩
    rw [Hierarchy.isPresent_eq_ok_true_iff h.after, hu o ho, and_iff_right hstore]
    exact Request.mem_ids_outcome_iff ho hmem

/-- A table with an edge between two tenants without self rows, and a third tenant. -/
def bareEdge : Closure := (Closure.empty.fill [⟨1, 2, 1⟩, ⟨3, 3, 0⟩]).closure

/-- Tenant 2 stays when it is put under 3, and its old parent is lost. -/
theorem Request.isPresent_after_iff_bareEdge :
    let s : Scope := { database := { table := some { closure := bareEdge } } }
    let s' := ((Request.change (.move (.ofNat 2) (.ofNat 3) false)).work.on s).2
    ((Hierarchy.isPresent (.ofNat 2)).on s').1 = .ok true ∧
      ¬((Hierarchy.isPresent (.ofNat 1)).on s').1 = .ok true := by
  intro s s'
  have h : s.Holds bareEdge := ⟨rfl, rfl⟩
  have hok : ((Request.change (.move (.ofNat 2) (.ofNat 3) false)).work.on s).1 = .ok none := by
    obtain ⟨u, es, hwork, -⟩ := (Request.change (.move (.ofNat 2) (.ofNat 3) false)).work_on h
    have hfault : Hierarchy.moveFault? bareEdge (.ofNat 2) (.ofNat 3) = none := by decide +kernel
    rw [hwork, Request.outcome, Change.outcome, hfault]
    rfl
  have hthere : ∀ id : TenantId, id.Storable → id.cell ∈ bareEdge.ids →
      ((Hierarchy.isPresent id).on s).1 = .ok true := fun id hid hmem =>
    (Hierarchy.isPresent_eq_ok_true_iff h).2 ⟨hid, hmem⟩
  have htwo := hthere (.ofNat 2) (by decide) (by decide +kernel)
  have hone := hthere (.ofNat 1) (by decide) (by decide +kernel)
  have hstays : ¬bareEdge.Sheds 2 3 2 := by decide +kernel
  have hlost : bareEdge.Sheds 2 3 1 := by decide +kernel
  exact ⟨(Request.isPresent_after_iff h hok htwo).1.2 hstays,
    fun hstill => (Request.isPresent_after_iff h hok hone).1.1 hstill hlost⟩

/-- Taking 2 from its parent loses both of them. -/
theorem Hierarchy.isPresent_after_move_bareEdge :
    let s : Scope := { database := { table := some { closure := bareEdge } } }
    let s' := ((move (.ofNat 2) .root false).on s).2
    ((move (.ofNat 2) .root false).on s).1 = .ok () ∧
      ((isPresent (.ofNat 1)).on s).1 = .ok true ∧ ((isPresent (.ofNat 2)).on s).1 = .ok true ∧
      ((isPresent (.ofNat 1)).on s').1 = .ok false ∧
        ((isPresent (.ofNat 2)).on s').1 = .ok false := by
  intro s s'
  have h : s.Holds bareEdge := ⟨rfl, rfl⟩
  have hfault : moveFault? bareEdge (.ofNat 2) .root = none := by decide +kernel
  have hmove : (move (.ofNat 2) .root false).on s = (.ok (), s.after (bareEdge.moved 2 0)
      [.told (moveApplied bareEdge (.ofNat 2) .root)]) := by
    rw [move_on h, hfault]
    rfl
  have hthen : s'.Holds (bareEdge.moved 2 0) := by
    show Scope.Holds ((move (.ofNat 2) .root false).on s).2 _
    rw [hmove]
    exact h.after
  refine ⟨by rw [hmove], ?_⟩
  have hbefore : bareEdge.mentions 1 = true ∧ bareEdge.mentions 2 = true := by decide +kernel
  have hafter :
    (bareEdge.moved 2 0).mentions 1 = false ∧ (bareEdge.moved 2 0).mentions 2 = false := by
    decide +kernel
  rw [on_isPresent h.closure? (by decide), on_isPresent h.closure? (by decide),
    on_isPresent hthen.closure? (by decide), on_isPresent hthen.closure? (by decide)]
  exact ⟨congrArg _ hbefore.1, congrArg _ hbefore.2, congrArg _ hafter.1, congrArg _ hafter.2⟩

end Tenancy
