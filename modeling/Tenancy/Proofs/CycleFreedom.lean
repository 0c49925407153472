import Tenancy.Proofs.Acyclicity
import Tenancy.Proofs.Soundness

namespace Tenancy

/-!
# Runs without cycles

The repair of one parent edge gives the tenant the ancestors of its new parent, but not the tenants
below it: a gap is left until the whole table is repaired.  While there is none, the guards of moves
and of repairs see every cycle.  While there is one, a parent that the tenant reaches can slip past
them, and then two tenants end up above each other.

* `Request.LeavesGap`, `Request.ClosesCycle` — requests that open a gap, and that slip past a guard.
* `Careful` — a list of requests none of which slips past a guard while there is a gap.
* `Calm.next`, `Calm.mutual_repaired` — a request that slips past no guard, and one that does.
* `Store.careful_iff_clear` — careful requests are those that never lead to rows both ways.
* `Store.circular_of_gap` — requests that are not careful, and the cycle that they make.
-/

open Hierarchy

variable {t : Closure} {s : Store} {gap : Prop} {rs now : List Request}
    {tenant parent id : TenantId}

/-! ### Gaps -/

/-- The request does not fail. -/
def Request.Succeeds (t : Closure) (r : Request) : Prop := (r.outcome t).isOk = true

/-- The request puts a tenant under a parent that it reaches. -/
def Request.ClosesCycle (t : Closure) (r : Request) : Prop :=
  r.Succeeds t ∧
    match r with
    | change (.move tenant parent _) | repairPair tenant parent =>
      t.Reaches tenant.cell parent.cell
    | _ => False

/-- The request gives a tenant a parent, but not all that lies below the tenant. -/
def Request.LeavesGap (t : Closure) (r : Request) : Prop :=
  r.Succeeds t ∧
    match r with
    | repairPair tenant parent =>
      ∃ d, d ≠ tenant.cell ∧ t.joins tenant.cell d = true ∧ ¬t.joins parent.cell d = true
    | change _ => False

/-- There is a gap after the request, given whether there was one before: only a repair of the whole
    table closes it. -/
def Request.GapAfter (gap : Prop) (t : Closure) (r : Request) : Prop :=
  match r with
  | change .repairAll => False
  | r => gap ∨ r.LeavesGap t

/-- No request slips past a guard while there is a gap. -/
def Careful (gap : Prop) (t : Closure) : List Request → Prop
  | [] => True
  | r :: rs => (gap → ¬r.ClosesCycle t) ∧ Careful (r.GapAfter gap t) (t.next r) rs

/-- A careful run has been careful so far. -/
theorem Careful.of_prefix (h : Careful gap t rs) (hnow : now <+: rs) : Careful gap t now := by
  induction now generalizing gap t rs with
  | nil => trivial
  | cons r now ih =>
    obtain ⟨rest, rfl⟩ := hnow
    exact ⟨h.1, ih h.2 (List.prefix_append now rest)⟩

/-! ### One request -/

/-- What holds between requests: there are no cycles, and without a gap the rows are ordered. -/
structure Calm (gap : Prop) (t : Closure) : Prop where
  untangled : t.Untangled
  ordered : ¬gap → t.Ordered

/-- On an ordered table, the repair of a parent edge that leaves no gap keeps the order, whether or
    not its ids were there before. -/
theorem ordered_adopt_rooted {x p : Int} (h : t.Ordered) (hx : x ≠ 0) (hp : p ≠ 0) (hne : p ≠ x)
    (hguard : ¬t.joins x p = true)
    (hall : ∀ d, d ≠ x → t.joins x d = true → t.joins p d = true) :
    ((rooted t p x).adopt p x).Ordered := by
  have hjoins : ∀ a d, (rooted t p x).joins a d = true ↔
      (t.joins a d = true ∨ a = p ∧ d = p) ∨ a = x ∧ d = x := fun a d => by
    rw [rooted, Closure.joins_plant, Closure.joins_plant]
  have hself : ∀ n, n = p ∨ n = x → n ∈ (rooted t p x).ids := by
    intro n hn
    have hj : (rooted t p x).joins n n = true :=
      (hjoins n n).2 (hn.elim (fun he => .inl (.inr ⟨he, he⟩)) fun he => .inr ⟨he, he⟩)
    exact (Closure.mem_ids_of_joins hj).1
  -- the two self rows change neither the guard nor what lies below the child
  refine ((h.plant hp).plant hx).adopt (hself p (.inl rfl)) (hself x (.inr rfl)) hne ?_ ?_
  · intro hj
    rcases (hjoins x p).1 hj with (hj | ⟨he, -⟩) | ⟨-, he⟩
    · exact hguard hj
    · exact hne he.symm
    · exact hne he
  · intro d hd hj
    rcases (hjoins x d).1 hj with (hj | ⟨he, -⟩) | ⟨-, he⟩
    · exact (hjoins p d).2 (.inl (.inl (hall d hd hj)))
    · exact absurd he.symm hne
    · exact absurd he hd

/-- A parent that a guard lets pass is not reached, unless the request closes a cycle over a gap. -/
theorem Calm.not_reaches (h : Calm gap t) (hpass : gap → ¬t.Reaches tenant.cell parent.cell)
    (hne : t.Ordered → tenant.cell ≠ parent.cell)
    (hguard : ¬t.joins tenant.cell parent.cell = true) : ¬t.Reaches tenant.cell parent.cell := by
  by_cases hg : gap
  · exact hpass hg
  · rw [(h.ordered hg).reaches_iff, not_or]
    exact ⟨hne (h.ordered hg), hguard⟩

/-- An insertion keeps the calm: a new leaf has nothing below it. -/
theorem Calm.insert (h : Calm gap t) :
    Calm ((Request.change (.insert parent id)).GapAfter gap t)
      (t.next (.change (.insert parent id))) := by
  have hgap : ¬(Request.change (.insert parent id)).GapAfter gap t → ¬gap :=
    fun hn hg => hn (.inl hg)
  cases houtcome : (Request.change (.insert parent id)).outcome t with
  | error e =>
    rw [Closure.next_of_error houtcome]
    exact ⟨h.untangled, fun hn => h.ordered (hgap hn)⟩
  | ok o =>
    obtain ⟨hfault, hplanted⟩ := Change.insert_eq_ok houtcome
    have hp := plantable_of_insertFault? hfault
    rw [Closure.next_of_ok houtcome, hplanted]
    exact ⟨h.untangled.planted hp, fun hn => (h.ordered (hgap hn)).planted hp⟩

/-- A move keeps the calm, if it closes no cycle where there is a gap. -/
theorem Calm.move {verbose : Bool} (h : Calm gap t)
    (hclose : gap → ¬(Request.change (.move tenant parent verbose)).ClosesCycle t) :
    Calm ((Request.change (.move tenant parent verbose)).GapAfter gap t)
      (t.next (.change (.move tenant parent verbose))) := by
  have hgap : ¬(Request.change (.move tenant parent verbose)).GapAfter gap t → ¬gap :=
    fun hn hg => hn (.inl hg)
  cases houtcome : (Request.change (.move tenant parent verbose)).outcome t with
  | error e =>
    rw [Closure.next_of_error houtcome]
    exact ⟨h.untangled, fun hn => h.ordered (hgap hn)⟩
  | ok o =>
    obtain ⟨hfault, hmoved⟩ := Change.move_eq_ok houtcome
    have hm := movable_of_moveFault? h.untangled.rootless hfault
    have hz : tenant.cell ≠ 0 := fun he => h.untangled.rootless (he ▸ hm.tenant_mem)
    have hsucceeds : (Request.change (.move tenant parent verbose)).Succeeds t :=
      congrArg Except.isOk houtcome
    have hne : t.Ordered → tenant.cell ≠ parent.cell := by
      intro ho he
      refine hm.apart ?_
      rw [← he]
      exact ho.joins_self hm.tenant_mem
    -- with a gap the guard of the move is not enough, and the run has to be careful; without one it
    -- is
    have hnot : ¬t.Reaches tenant.cell parent.cell :=
      h.not_reaches (fun hg hr => hclose hg ⟨hsucceeds, hr⟩) hne hm.apart
    rw [Closure.next_of_ok houtcome, hmoved]
    exact ⟨h.untangled.of_links hz hnot Closure.links_moved, fun hn =>
      (h.ordered (hgap hn)).moved hm⟩

theorem Calm.repairAll (h : Calm gap t) :
    Calm ((Request.change .repairAll).GapAfter gap t) (t.next (.change .repairAll)) :=
  ⟨h.untangled.ordered_repaired.untangled, fun _ => h.untangled.ordered_repaired⟩

/-- The repair of a pair keeps the calm, if it closes no cycle where there is a gap; it may leave
    one. -/
theorem Calm.repairPair (h : Calm gap t)
    (hclose : gap → ¬(Request.repairPair tenant parent).ClosesCycle t) :
    Calm ((Request.repairPair tenant parent).GapAfter gap t)
      (t.next (.repairPair tenant parent)) := by
  have hgap : ¬(Request.repairPair tenant parent).GapAfter gap t → ¬gap := fun hn hg => hn (.inl hg)
  cases houtcome : (Request.repairPair tenant parent).outcome t with
  | error e =>
    rw [Closure.next_of_error houtcome]
    exact ⟨h.untangled, fun hn => h.ordered (hgap hn)⟩
  | ok o =>
    obtain ⟨hfault, hadopted⟩ := Request.repairPair_eq_ok houtcome
    obtain ⟨⟨ht, -⟩, ⟨hp, -⟩, hne, hnone⟩ := pairFault?_eq_none_iff.1 hfault
    have hsucceeds : (Request.repairPair tenant parent).Succeeds t := congrArg Except.isOk houtcome
    have hz : tenant.cell ≠ 0 := fun he => ht (cell_eq_zero_iff.1 he)
    have hz' : parent.cell ≠ 0 := fun he => hp (cell_eq_zero_iff.1 he)
    have hne' : parent.cell ≠ tenant.cell := fun he => hne (TenantId.cell_inj.1 he).symm
    have hguard : ¬t.joins tenant.cell parent.cell = true := by
      rw [Closure.joins, hnone]
      exact Bool.false_ne_true
    have hnot : ¬t.Reaches tenant.cell parent.cell :=
      h.not_reaches (fun hg hr => hclose hg ⟨hsucceeds, hr⟩) (fun _ => Ne.symm hne') hguard
    have hselves : t.Selves (rooted t parent.cell tenant.cell) :=
      ((Closure.Selves.refl t).plant hz').plant hz
    rw [Closure.next_of_ok houtcome, hadopted]
    refine ⟨h.untangled.of_links hz hnot (hselves.links_adopt hne' hz'), fun hn => ?_⟩
    -- without a gap, all that lies below the tenant lies below the parent as well
    have hall : ∀ d, d ≠ tenant.cell → t.joins tenant.cell d = true →
      t.joins parent.cell d = true := by
      intro d hd hj
      by_contra hno
      exact hn (.inr ⟨hsucceeds, d, hd, hj, hno⟩)
    exact ordered_adopt_rooted (h.ordered (hgap hn)) hz hz' hne' hguard hall

/-- **One request** keeps the calm. -/
theorem Calm.next {r : Request} (h : Calm gap t) (hclose : gap → ¬r.ClosesCycle t) :
    Calm (r.GapAfter gap t) (t.next r) := by
  cases r with
  | change c =>
    cases c with
    | insert parent id => exact h.insert
    | move tenant parent verbose => exact h.move hclose
    | repairAll => exact h.repairAll
  | repairPair tenant parent => exact h.repairPair hclose

/-- A move that slips past the guard leaves the way from its tenant to the parent, and adds the row
    back. -/
theorem Calm.mutual_of_move {verbose : Bool} {o : Closure × Option RepairReport} (h : Calm gap t)
    (houtcome : (Request.change (.move tenant parent verbose)).outcome t = .ok o)
    (hreach : t.Reaches tenant.cell parent.cell) :
    ∃ a b, a ≠ b ∧ o.1.repaired.joins a b = true ∧ o.1.repaired.joins b a = true := by
  obtain ⟨hfault, hmoved⟩ := Change.move_eq_ok houtcome
  have hm := movable_of_moveFault? h.untangled.rootless hfault
  have hz : tenant.cell ≠ 0 := fun he => h.untangled.rootless (he ▸ hm.tenant_mem)
  have hz' : parent.cell ≠ 0 := by
    intro he
    rcases Closure.mem_ids_of_reaches hreach with hsame | hids
    · exact hz (hsame.trans he)
    · exact h.untangled.rootless (he ▸ hids.2)
  have hout := (outside_of_cycleFault? (cycleFault?_of_moveFault? hfault)).resolve_left hz'
  have hne' : parent.cell ≠ tenant.cell := fun he => hout (.inl he)
  rw [hmoved]
  exact ⟨_, _, Ne.symm hne', Closure.links_moved.mutual_repaired h.untangled.pos (Ne.symm hne')
    (Closure.reaches_moved hreach) (Closure.joins_moved_edge hz')⟩

/-- The repair of a parent edge takes no way away. -/
theorem Calm.mutual_of_repairPair {o : Closure × Option RepairReport} (h : Calm gap t)
    (houtcome : (Request.repairPair tenant parent).outcome t = .ok o)
    (hreach : t.Reaches tenant.cell parent.cell) :
    ∃ a b, a ≠ b ∧ o.1.repaired.joins a b = true ∧ o.1.repaired.joins b a = true := by
  obtain ⟨hfault, hadopted⟩ := Request.repairPair_eq_ok houtcome
  obtain ⟨⟨ht, -⟩, ⟨hp, -⟩, hne, -⟩ := pairFault?_eq_none_iff.1 hfault
  have hz : tenant.cell ≠ 0 := fun he => ht (cell_eq_zero_iff.1 he)
  have hz' : parent.cell ≠ 0 := fun he => hp (cell_eq_zero_iff.1 he)
  have hne' : parent.cell ≠ tenant.cell := fun he => hne (TenantId.cell_inj.1 he).symm
  have hselves : t.Selves (rooted t parent.cell tenant.cell) :=
    ((Closure.Selves.refl t).plant hz').plant hz
  have hkeep : ∀ a d, t.Above a d →
      ((rooted t parent.cell tenant.cell).adopt parent.cell tenant.cell).Above a d := by
    intro a d habove
    have hrow : (rooted t parent.cell tenant.cell).joins a d = true :=
      Closure.joins_plant.2 (.inl (Closure.joins_plant.2 (.inl habove.2)))
    exact ⟨habove.1, Closure.joins_adopt_of_joins hne' hrow⟩
  rw [hadopted]
  exact ⟨_, _, Ne.symm hne', (hselves.links_adopt hne' hz').mutual_repaired h.untangled.pos
    (Ne.symm hne') (Relation.ReflTransGen.mono hkeep _ _ hreach) (Closure.joins_adopt_edge hne')⟩

/-- **A request that closes a cycle** leaves a table that has rows both ways once it is repaired. -/
theorem Calm.mutual_repaired {r : Request} (h : Calm gap t) (hclose : r.ClosesCycle t) :
    ∃ a b, a ≠ b ∧ (t.next r).repaired.joins a b = true ∧ (t.next r).repaired.joins b a = true := by
  obtain ⟨hsucceeds, hreach⟩ := hclose
  cases houtcome : r.outcome t with
  | error e =>
    rw [Request.Succeeds, houtcome] at hsucceeds
    cases hsucceeds
  | ok o =>
    rw [Closure.next_of_ok houtcome]
    cases r with
    | change c =>
      cases c with
      | insert parent id => exact False.elim hreach
      | move tenant parent verbose => exact h.mutual_of_move houtcome hreach
      | repairAll => exact False.elim hreach
    | repairPair tenant parent => exact h.mutual_of_repairPair houtcome hreach

/-! ### Many requests -/

/-- **Careful requests** keep a table free of cycles. -/
theorem Calm.foldl (h : Calm gap t) (hcareful : Careful gap t rs) :
    (rs.foldl Closure.next t).Untangled := by
  induction rs generalizing gap t with
  | nil => exact h.untangled
  | cons r rs ih => exact ih (h.next hcareful.1) hcareful.2

/-- No two different ids have rows both ways. -/
def Closure.OneWay (t : Closure) : Prop :=
  ∀ a b, a ≠ b → ¬(t.joins a b = true ∧ t.joins b a = true)

theorem Closure.Untangled.oneWay (h : t.Untangled) : t.OneWay :=
  fun _ _ hne hboth => hne (h.antisymm hboth.1 hboth.2)

/-- **Only careful requests** do: the first one that is not would show at the next repair. -/
theorem Calm.careful (h : Calm gap t)
    (hone : ∀ now, now <+: rs → (now.foldl Closure.next t).repaired.OneWay) : Careful gap t rs := by
  induction rs generalizing gap t with
  | nil => trivial
  | cons r rs ih =>
    have hfirst : gap → ¬r.ClosesCycle t := by
      intro _ hclose
      obtain ⟨a, b, hne, hab, hba⟩ := h.mutual_repaired hclose
      exact hone [r] ⟨rs, rfl⟩ a b hne ⟨hab, hba⟩
    refine ⟨hfirst, ih (h.next hfirst) fun now hnow => ?_⟩
    exact hone (r :: now) (List.cons_prefix_cons.2 ⟨rfl, hnow⟩)

namespace Store

/-- The store has a table in which no two different ids have rows both ways, and a scan of it finds
    nothing. -/
def Clear (s : Store) : Prop :=
  ∃ t, s.database.closure? = some t ∧ t.OneWay ∧ ((look circularReferences).on s).1 = .ok []

/-- A table without cycles has no mutual ancestors. -/
theorem scanResult_of_untangled (h : t.Untangled) : scanResult t = .ok [] := by
  have hnone :
    t.rows.filter (fun r => r.ancestor != r.descendant && t.joins r.descendant r.ancestor)
      = [] := by
    rw [List.filter_eq_nil_iff]
    intro r hr hmutual
    rw [Bool.and_eq_true, bne_iff_ne] at hmutual
    have hrow : t.joins r.ancestor r.descendant = true :=
      Closure.joins_of_depth? (Closure.mem_rows.1 hr)
    exact hmutual.1 (h.antisymm hrow hmutual.2)
  rw [scanResult, Closure.mutualIds, hnone]
  rfl

/-- A table without a cycle is clear: the scan finds nothing on it. -/
theorem clear_of_untangled (hready : s.Ready) (ht : s.database.closure? = some t)
    (h : t.Untangled) : s.Clear := by
  refine ⟨t, ht, h.oneWay, ?_⟩
  rw [look_circularReferences hready ht, scanResult_of_untangled h]

/-- **No two ids above each other.**  Start with an empty table, and make any list of requests.
    They are careful just if at no point two different ids have rows both ways or would have them
    after a repair of the whole table; then a scan finds nothing either. -/
theorem careful_iff_clear (hready : s.Ready) (hempty : s.database.closure? = some .empty) :
    Careful False .empty rs ↔ ∀ now, now <+: rs →
      (s.afterAll now).Clear ∧ (s.afterAll (now ++ [.change .repairAll])).Clear := by
  have hcalm : Calm False .empty :=
    ⟨Closure.ordered_empty.untangled, fun _ => Closure.ordered_empty⟩
  have hrepaired : ∀ now, (now ++ [Request.change .repairAll]).foldl Closure.next .empty
      = (now.foldl Closure.next .empty).repaired := fun now => List.foldl_append
  constructor
  · intro hcareful now hnow
    have hun := hcalm.foldl (hcareful.of_prefix hnow)
    obtain ⟨hthen, htable⟩ := ready_afterAll now hready hempty
    obtain ⟨hthen', htable'⟩ := ready_afterAll (now ++ [Request.change .repairAll]) hready hempty
    rw [hrepaired] at htable'
    exact ⟨clear_of_untangled hthen htable hun,
      clear_of_untangled hthen' htable' hun.ordered_repaired.untangled⟩
  -- a step that closes a cycle shows in the repaired table, since the repair joins what can be
  -- reached
  · intro hclear
    refine hcalm.careful fun now hnow => ?_
    obtain ⟨-, u, hu, hone, -⟩ := hclear now hnow
    obtain ⟨-, htable⟩ := ready_afterAll (now ++ [Request.change .repairAll]) hready hempty
    rw [htable, Option.some.injEq, hrepaired] at hu
    rw [hu]
    exact hone

/-- A gap that opens with the parent edge from 3 to 1, leaves 2 out, and is closed before 2
    matters. -/
theorem clear_around_gap :
    let requests : List Request := [.change (.insert (.ofNat 0) (.ofNat 1)),
      .change (.insert (.ofNat 1) (.ofNat 2)), .change (.insert (.ofNat 0) (.ofNat 3)),
      .repairPair (.ofNat 1) (.ofNat 3), .change (.insert (.ofNat 2) (.ofNat 4)),
      .change .repairAll, .change (.move (.ofNat 3) (.ofNat 2) false)]
    (initial.afterAll requests).Clear := by
  intro requests
  have hcareful : Careful False .empty requests := by
    simp [requests, Careful, Request.GapAfter, Request.LeavesGap, Request.ClosesCycle]
  exact ((careful_iff_clear ready_initial closure?_initial).1 hcareful requests
    (List.prefix_refl requests)).1

/-- **A cycle over a gap.**  Tenant 1 gets the parent 3, but 2, which lies below 1, does not get the
    ancestor 3.  So nothing keeps 3 from being put under 2. -/
theorem circular_of_gap :
    let s := initial.afterAll [.change (.insert (.ofNat 0) (.ofNat 1)),
      .change (.insert (.ofNat 1) (.ofNat 2)), .change (.insert (.ofNat 0) (.ofNat 3)),
      .repairPair (.ofNat 1) (.ofNat 3), .change (.move (.ofNat 3) (.ofNat 2) false)]
    (s.database.closure?.any fun t => t.joins 1 3 && t.joins 3 1) = true ∧
      ((look circularReferences).on s).1 = .ok [.ofNat 1, .ofNat 2, .ofNat 3] := by
  decide +kernel

end Store

end Tenancy
