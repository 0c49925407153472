import Mathlib.Logic.Relation
import Tenancy.Proofs.Requests

namespace Tenancy

/-!
# Tables without cycles

A table can be free of cycles although rows are missing from it.  Every operation keeps it so, as
long as no subtree is put under an id that it reaches: the new rows only join what lies above the
new parent to what lies below the tenant.  The guards of the operations look at one row, which tells
whether the tenant reaches the parent on an ordered table, and not in general.

* `Closure.Reaches` — one id lies below another, over any number of rows.
* `Closure.Untangled` — no id reaches itself.
* `Closure.Links` — the rows that an operation may add when it puts a tenant under a parent; moves,
  insertions and the repair of a parent edge add no others.
* `Untangled.of_links`, `Untangled.ordered_repaired` — what the operations keep, and what a repair
  of the whole table makes of it.
* `Links.mutual_repaired` — what becomes of a tenant that is put under an id that it reaches.
* `Ordered.adopt` — the repair of a parent edge that leaves no gap keeps a table ordered.
-/

open Relation

/-! ### Links between two parts of a relation -/

/-- Add links from what leads to `p` to what `x` leads to.  If `x` does not lead to `p`, then no way
    takes two of them. -/
theorem transGen_of_links {R S : Int → Int → Prop} {x p a d : Int} (hnot : ¬ReflTransGen R x p)
    (hlink : ∀ a d, S a d → R a d ∨ ReflTransGen R a p ∧ ReflTransGen R x d) (h : TransGen S a d) :
    TransGen R a d ∨ ReflTransGen R a p ∧ ReflTransGen R x d := by
  induction h with
  | single hs => exact (hlink _ _ hs).imp_left .single
  | tail _ hs ih =>
    rcases ih with hab | ⟨hap, hxb⟩
    · rcases hlink _ _ hs with hbc | ⟨hbp, hxc⟩
      · exact .inl (hab.tail hbc)
      · exact .inr ⟨hab.to_reflTransGen.trans hbp, hxc⟩
    · rcases hlink _ _ hs with hbc | ⟨hbp, -⟩
      · exact .inr ⟨hap, hxb.tail hbc⟩
      · -- between two links the way would lead from `x` to `p`
        exact absurd (hxb.trans hbp) hnot

namespace Closure

variable {t u : Closure} {tenant parent child leaf a b d n : Int} {k : Nat}

/-! ### Reaching -/

/-- There is a row from `a` to another id `d`. -/
def Above (t : Closure) (a d : Int) : Prop := a ≠ d ∧ t.joins a d = true

/-- The id `d` is `a`, or lies below it over one or more rows. -/
def Reaches (t : Closure) (a d : Int) : Prop := ReflTransGen t.Above a d

/-- No id lies below itself, no row between different ids has depth 0, and no row mentions 0. -/
structure Untangled (t : Closure) : Prop where
  acyclic : ∀ a, ¬TransGen t.Above a a
  pos : ∀ a d, t.depth? a d = some 0 → a = d
  rootless : (0 : Int) ∉ t.ids

/-- A row reaches as far as it joins. -/
theorem reaches_of_joins (h : t.joins a d = true) : t.Reaches a d := by
  by_cases he : a = d
  · exact he ▸ .refl
  · exact .single ⟨he, h⟩

/-- An id that is not mentioned reaches only itself. -/
theorem eq_of_reaches_of_notMem (hn : n ∉ t.ids) (h : t.Reaches n d) : n = d := by
  rcases ReflTransGen.cases_head h with he | ⟨b, hb, -⟩
  · exact he
  · exact absurd (mem_ids_of_joins hb.2).1 hn

/-- No two ids of a table without cycles have rows both ways. -/
theorem Untangled.antisymm (h : t.Untangled) (hab : t.joins a b = true) (hba : t.joins b a = true) :
    a = b := by
  by_contra hne
  exact h.acyclic a (.tail (.single ⟨hne, hab⟩) ⟨Ne.symm hne, hba⟩)

/-- On an ordered table, one row tells of all ways. -/
theorem Ordered.joins_of_transGen (h : t.Ordered) (hw : TransGen t.Above a d) :
    a ≠ d ∧ t.joins a d = true := by
  induction hw with
  | single hs => exact hs
  | tail _ hs ih =>
    refine ⟨?_, h.trans _ _ _ ih.2 hs.2⟩
    rintro rfl
    exact ih.1 (h.antisymm _ _ ih.2 hs.2)

theorem Ordered.untangled (h : t.Ordered) : t.Untangled :=
  ⟨fun _ hw => (h.joins_of_transGen hw).1 rfl, h.pos, h.rootless⟩

/-- In order, what can be reached is joined by one row. -/
theorem Ordered.reaches_iff (h : t.Ordered) : t.Reaches a d ↔ a = d ∨ t.joins a d = true := by
  constructor
  · intro hr
    rcases reflTransGen_iff_eq_or_transGen.1 hr with he | hw
    · exact .inl he.symm
    · exact .inr (h.joins_of_transGen hw).2
  · rintro (rfl | hj)
    · exact .refl
    · exact reaches_of_joins hj

/-- Ways of at least one row lead between ids of the table. -/
theorem mem_ids_of_reaches (h : t.Reaches a d) : a = d ∨ a ∈ t.ids ∧ d ∈ t.ids := by
  rcases reflTransGen_iff_eq_or_transGen.1 h with he | hw
  · exact .inl he.symm
  · obtain ⟨b, hb, -⟩ := TransGen.head'_iff.1 hw
    obtain ⟨c, -, hc⟩ := TransGen.tail'_iff.1 hw
    exact .inr ⟨(mem_ids_of_joins hb.2).1, (mem_ids_of_joins hc.2).2⟩

/-! ### New rows -/

/-- What an operation may do to a table when it puts `tenant` under `parent`: keep rows, give ids
    their self rows, and link what reaches the parent to what the tenant reaches. -/
def Links (t u : Closure) (tenant parent : Int) : Prop :=
  ∀ a d k, u.depth? a d = some k → t.depth? a d = some k ∨ a = d ∧ a ≠ 0 ∨
    0 < k ∧ parent ≠ 0 ∧ t.Reaches a parent ∧ t.Reaches tenant d

/-- Links lead at least one step down. -/
theorem Links.pos (hlinks : t.Links u tenant parent) (hpos : ∀ a d, t.depth? a d = some 0 → a = d) :
    ∀ a d, u.depth? a d = some 0 → a = d := by
  intro a d hk
  rcases hlinks a d 0 hk with hold | hself | hlink
  · exact hpos a d hold
  · exact hself.1
  · exact absurd hlink.1 (Nat.lt_irrefl 0)

/-- **Links make no cycle**, unless the tenant reaches its new parent. -/
theorem Untangled.of_links (h : t.Untangled) (hz : tenant ≠ 0) (hnot : ¬t.Reaches tenant parent)
    (hlinks : t.Links u tenant parent) : u.Untangled where
  acyclic a hw := by
    have hrow : ∀ a d, u.Above a d → t.Above a d ∨ t.Reaches a parent ∧ t.Reaches tenant d := by
      rintro a d ⟨hne, hj⟩
      obtain ⟨k, hk⟩ := joins_iff.1 hj
      rcases hlinks a d k hk with hold | hself | ⟨-, -, hap, htd⟩
      · exact .inl ⟨hne, joins_of_depth? hold⟩
      · exact absurd hself.1 hne
      · exact .inr ⟨hap, htd⟩
    rcases transGen_of_links hnot hrow hw with hw | ⟨hap, hta⟩
    · exact h.acyclic a hw
    · exact hnot (hta.trans hap)
  pos := hlinks.pos h.pos
  rootless h0 := by
    have key : ∀ a d, u.joins a d = true → a ≠ 0 ∧ d ≠ 0 := by
      intro a d hj
      have hmem : ∀ n ∈ t.ids, n ≠ 0 := fun n hn he => h.rootless (he ▸ hn)
      obtain ⟨k, hk⟩ := joins_iff.1 hj
      -- the ends of a link are the parent and the tenant themselves, or were there before
      rcases hlinks a d k hk with hold | ⟨he, hne⟩ | ⟨-, hp, hap, htd⟩
      · obtain ⟨ha, hd⟩ := mem_ids_of_joins (joins_of_depth? hold)
        exact ⟨hmem a ha, hmem d hd⟩
      · exact ⟨hne, he ▸ hne⟩
      · constructor
        · rcases mem_ids_of_reaches hap with he | hids
          · exact he ▸ hp
          · exact hmem a hids.1
        · rcases mem_ids_of_reaches htd with he | hids
          · exact he ▸ hz
          · exact hmem d hids.2
    obtain ⟨m, hm | hm⟩ := mem_ids_iff_joins.1 h0
    · exact (key _ _ hm).1 rfl
    · exact (key _ _ hm).2 rfl

/-- A move on any table: rows are cut, and then links are added. -/
theorem links_moved : t.Links (t.moved tenant parent) tenant parent := by
  intro a d k hk
  -- cutting only takes rows away, so a row is old or it is one of those that attaching writes
  have hcut : ∀ a d k, (t.cut tenant parent).depth? a d = some k → t.depth? a d = some k :=
    fun a d k hk => (depth?_cut_eq_some_iff.1 hk).1
  by_cases hz : parent = 0
  · subst hz
    rw [moved_zero] at hk
    exact .inl (hcut a d k hk)
  · rw [moved_of_ne_zero hz, depth?_attach_eq_some_iff] at hk
    rcases hk.1 with hold | hlink
    · exact .inl (hcut a d k hold)
    · obtain ⟨i, j, hi, hj, rfl⟩ := mem_links.1 hlink
      refine .inr (.inr ⟨Cell.link_pos, hz, ?_, ?_⟩)
      · rcases mem_supertree.1 hi with he | hrow
        · rw [(Kin.mk.inj he).1]
          exact .refl
        · exact reaches_of_joins (joins_of_depth? (hcut _ _ _ hrow))
      · rcases mem_subtree.1 hj with he | hrow
        · rw [(Kin.mk.inj he).1]
          exact .refl
        · exact reaches_of_joins (joins_of_depth? (hcut _ _ _ hrow))

/-- A new parent edge brings rows for the child only. -/
theorem depth?_of_adopt (hne : parent ≠ child) (hk : (t.adopt parent child).depth? a d = some k) :
    t.depth? a d = some k ∨ 0 < k ∧ d = child ∧ (a = parent ∨ t.joins a parent = true) := by
  rw [depth?_adopt hne] at hk
  by_cases hd : d = child
  · subst hd
    rw [if_pos rfl] at hk
    by_cases hap : a = parent
    · subst hap
      rw [if_pos rfl, Option.some.injEq] at hk
      cases hold : t.depth? a d with
      | none =>
        rw [hold] at hk
        exact .inr ⟨by simp at hk; omega, rfl, .inl rfl⟩
      | some j =>
        rw [hold] at hk
        simp only [Option.map_some, Option.getD_some] at hk
        rcases Nat.eq_zero_or_pos j with rfl | hj
        · exact .inl (by simp at hk; rw [hk])
        · exact .inr ⟨by omega, rfl, .inl rfl⟩
    · rw [if_neg hap] at hk
      by_cases had : a = d
      · subst had
        rw [if_pos rfl] at hk
        exact .inl hk
      · rw [if_neg had, Option.or_eq_some_iff] at hk
        rcases hk with hold | ⟨-, hnew⟩
        · exact .inl hold
        · obtain ⟨i, hi, rfl⟩ := Option.map_eq_some_iff.1 hnew
          exact .inr ⟨Cell.sum_pos i.succ_pos, rfl, .inr (joins_of_depth? hi)⟩
  · rw [if_neg hd] at hk
    exact .inl hk

/-- The table `u` has rows of `t` and self rows only. -/
def Selves (t u : Closure) : Prop :=
  ∀ a d k, u.depth? a d = some k → t.depth? a d = some k ∨ a = d ∧ a ≠ 0

theorem Selves.refl (t : Closure) : t.Selves t := fun _ _ _ hk => .inl hk

/-- Planting adds a self row and nothing else. -/
theorem Selves.plant (h : t.Selves u) (hn : n ≠ 0) : t.Selves (u.plant n).closure := by
  intro a d k hk
  rw [depth?_plant, Option.or_eq_some_iff] at hk
  rcases hk with hold | ⟨-, hnew⟩
  · exact h a d k hold
  · split at hnew
    · rename_i hself
      exact .inr ⟨hself.1.trans hself.2.symm, hself.1 ▸ hn⟩
    · cases hnew

theorem Selves.links (h : t.Selves u) : t.Links u tenant parent :=
  fun a d k hk => (h a d k hk).imp_right .inl

/-- A parent edge on top of self rows links the parent to the child. -/
theorem Selves.links_adopt (h : t.Selves u) (hne : parent ≠ child) (hp : parent ≠ 0) :
    t.Links (u.adopt parent child) child parent := by
  intro a d k hk
  rcases depth?_of_adopt hne hk with hold | ⟨hpos, rfl, ha⟩
  · exact h.links a d k hold
  · refine .inr (.inr ⟨hpos, hp, ?_, .refl⟩)
    rcases ha with rfl | hj
    · exact .refl
    · obtain ⟨i, hi⟩ := joins_iff.1 hj
      rcases h a parent i hi with hrow | ⟨rfl, -⟩
      · exact reaches_of_joins (joins_of_depth? hrow)
      · exact .refl

/-- An insertion on any table: the leaf is linked to its parent. -/
theorem links_planted (hl : leaf ≠ 0) (hne : parent ≠ leaf) :
    t.Links (t.planted parent leaf) leaf parent := by
  have hself : t.Selves (t.plant leaf).closure := (Selves.refl t).plant hl
  unfold planted
  by_cases hz : parent = 0
  · rw [if_pos hz]
    exact hself.links
  · rw [if_neg hz]
    exact hself.links_adopt hne hz

/-- **An insertion makes no cycle**: nothing lies below the new leaf. -/
theorem Untangled.planted (h : t.Untangled) (hp : t.Plantable parent leaf) :
    (t.planted parent leaf).Untangled := by
  have hne := hp.parent_ne
  refine h.of_links hp.leaf_ne (fun hr => ?_) (links_planted hp.leaf_ne hne)
  exact hne (eq_of_reaches_of_notMem hp.leaf_notMem hr).symm

/-! ### Repairs -/

/-- A repair brings a row for every way. -/
theorem joins_repaired_of_reaches (hpos : ∀ a d, t.depth? a d = some 0 → a = d)
    (h : t.Reaches a d) : a = d ∨ t.repaired.joins a d = true := by
  induction h with
  | refl => exact .inl rfl
  | @tail b c _ hbc ih =>
    have hrow : t.repaired.joins b c = true := joins_repaired hbc.2
    rcases ih with rfl | hab
    · exact .inr hrow
    · exact .inr (joins_trans_repaired hpos hab hrow)

/-- A repair adds rows along ways only. -/
theorem transGen_of_repaired :
    ∀ a d k, t.repaired.depth? a d = some k → a ≠ d → TransGen t.Above a d := by
  refine repaired_induction ?_ (fun n _ hne => absurd rfl hne) ?_
  · intro a b c i j _ _ hne hab hbc _
    by_cases heq : a = b
    · subst heq
      exact hbc hne
    · by_cases heq' : b = c
      · subst heq'
        exact hab hne
      · exact (hab heq).trans (hbc heq')
  · intro a d k hne hk _
    exact .single ⟨hne, joins_of_depth? hk⟩

/-- **A repair orders** every table without cycles. -/
theorem Untangled.ordered_repaired (h : t.Untangled) : t.repaired.Ordered where
  self n hn := depth?_repaired_self (ids_repaired (t := t) ▸ hn)
  pos := eq_of_depth?_repaired h.pos
  trans _ _ _ := joins_trans_repaired h.pos
  antisymm a b hab hba := by
    by_contra hne
    obtain ⟨i, hi⟩ := joins_iff.1 hab
    obtain ⟨j, hj⟩ := joins_iff.1 hba
    exact h.acyclic a ((transGen_of_repaired a b i hi hne).trans
      (transGen_of_repaired b a j hj (Ne.symm hne)))
  rootless h0 := h.rootless (ids_repaired (t := t) ▸ h0)

/-! ### Closing a cycle -/

/-- **A repair shows a cycle.**  Once a tenant is put under a parent that it reaches, the repaired
    table has rows both ways. -/
theorem Links.mutual_repaired (hlinks : t.Links u tenant parent)
    (hpos : ∀ a d, t.depth? a d = some 0 → a = d) (hne : tenant ≠ parent)
    (hway : u.Reaches tenant parent) (hedge : u.joins parent tenant = true) :
    u.repaired.joins tenant parent = true ∧ u.repaired.joins parent tenant = true :=
  ⟨(joins_repaired_of_reaches (hlinks.pos hpos) hway).resolve_left hne, joins_repaired hedge⟩

/-- A move cuts only rows into the subtree, and none from its tenant to what lies below it. -/
theorem joins_moved_of_kept (h : t.joins a d = true)
    (hkeep : ¬t.InSubtree tenant d ∨ a = tenant ∧ d ≠ tenant) :
    (t.moved tenant parent).joins a d = true := by
  obtain ⟨k, hk⟩ := joins_iff.1 h
  refine joins_moved_of_not_cuts hk ?_
  rcases hkeep with hout | ⟨rfl, hd⟩
  · exact not_cuts_of_outside hout
  · exact not_cuts_of_tenant hd

/-- A move leaves a way from its tenant to the parent, if there was one: behind the last id of the
    subtree nothing is cut. -/
theorem reaches_moved (h : t.Reaches tenant parent) :
    (t.moved tenant parent).Reaches tenant parent := by
  have key : ∀ b, t.Reaches b parent → (t.moved tenant parent).Reaches b parent ∨
      (t.moved tenant parent).Reaches tenant parent := by
    intro b hb
    induction hb using ReflTransGen.head_induction_on with
    | refl => exact .inl .refl
    | @head b c hbc _ ih =>
      rcases ih with hc | hx
      · by_cases hct : c = tenant
        · exact .inr (hct ▸ hc)
        · by_cases hin : t.InSubtree tenant c
          · have hrow : t.joins tenant c = true := hin.resolve_left hct
            exact .inr (.head ⟨Ne.symm hct, joins_moved_of_kept hrow (.inr ⟨rfl, hct⟩)⟩ hc)
          · exact .inl (.head ⟨hbc.1, joins_moved_of_kept hbc.2 (.inl hin)⟩ hc)
      · exact .inr hx
  exact (key tenant h).elim id id

/-- The repair of a parent edge keeps rows. -/
theorem joins_adopt_of_joins (hne : parent ≠ child) (h : t.joins a d = true) :
    (t.adopt parent child).joins a d = true := by
  obtain ⟨k, hk⟩ := joins_iff.1 h
  rw [joins, depth?_adopt hne]
  by_cases hd : d = child
  · subst hd
    by_cases hap : a = parent
    · simp [hap]
    · by_cases had : a = d
      · subst had
        simp [hap, hk]
      · simp [hap, had, hk]
  · simp [hd, hk]

theorem joins_adopt_edge (hne : parent ≠ child) :
    (t.adopt parent child).joins parent child = true := by
  simp [joins, depth?_adopt hne]

/-! ### The repair of a parent edge -/

namespace Ordered

variable (h : t.Ordered)

include h

/-- A self row more keeps the order. -/
theorem plant (hn : n ≠ 0) : (t.plant n).closure.Ordered := by
  by_cases hmem : n ∈ t.ids
  · rw [plant_eq_self (h.self n hmem)]
    exact h
  · have hplanted : (t.planted 0 n).Ordered := h.planted ⟨hn, hmem, .inl rfl⟩
    exact hplanted

/-- Which pairs an adoption joins: those of before, and to the child those above the parent. -/
theorem joins_adopt (hp : parent ∈ t.ids) (hne : parent ≠ child)
    (hap : ¬t.joins child parent = true) :
    (t.adopt parent child).joins a d = true ↔
      t.joins a d = true ∨ d = child ∧ t.joins a parent = true := by
  rw [joins, depth?_adopt hne]
  by_cases hd : d = child
  · subst hd
    by_cases ha : a = parent
    · subst ha
      simp [h.joins_self hp]
    · by_cases had : a = d
      · subst had
        rw [if_pos rfl, if_neg ha, if_pos rfl, ← joins]
        exact (or_iff_left fun hj => hap hj.2).symm
      · simp [ha, had, joins]
  · simp [hd, joins]

/-- **A parent edge without a gap keeps the order.**  All that lies below the child lies below the
    parent already; so what lies above the parent is above it too. -/
theorem adopt (hp : parent ∈ t.ids) (hc : child ∈ t.ids) (hne : parent ≠ child)
    (hap : ¬t.joins child parent = true)
    (hgap : ∀ d, d ≠ child → t.joins child d = true → t.joins parent d = true) :
    (t.adopt parent child).Ordered := by
  have hz : parent ≠ 0 := fun he => h.rootless (he ▸ hp)
  have hz' : child ≠ 0 := fun he => h.rootless (he ▸ hc)
  -- the guard looks for one row only; in order that is enough, since what can be reached is joined
  -- by a row
  have hnot : ¬t.Reaches child parent := by
    rw [h.reaches_iff, not_or]
    exact ⟨fun he => hne he.symm, hap⟩
  have hlinks : t.Links (t.adopt parent child) child parent :=
    (Selves.refl t).links_adopt hne hz
  have hun := h.untangled.of_links hz' hnot hlinks
  refine ⟨fun n hn => ?_, hun.pos, fun a b c hab hbc => ?_, fun a b => hun.antisymm, hun.rootless⟩
  · have hmem : n ∈ t.ids := by
      obtain ⟨m, hm | hm⟩ := mem_ids_iff_joins.1 hn
      · rcases (h.joins_adopt hp hne hap).1 hm with hj | ⟨-, hj⟩
        · exact (mem_ids_of_joins hj).1
        · exact (mem_ids_of_joins hj).1
      · rcases (h.joins_adopt hp hne hap).1 hm with hj | ⟨he, -⟩
        · exact (mem_ids_of_joins hj).2
        · exact he ▸ hc
    rw [depth?_adopt hne]
    by_cases hnc : n = child
    · subst hnc
      simp [Ne.symm hne, h.self n hc]
    · rw [if_neg hnc]
      exact h.self n hmem
  · rw [h.joins_adopt hp hne hap] at hab hbc ⊢
    rcases hab with hab | ⟨rfl, hap'⟩
    · -- the first row is old: if the second one is new, the way leads to the parent first
      rcases hbc with hbc | ⟨rfl, hbp⟩
      · exact .inl (h.trans _ _ _ hab hbc)
      · exact .inr ⟨rfl, h.trans _ _ _ hab hbp⟩
    · -- the first row is new: what lies below the child already lay below the parent
      rcases hbc with hbc | ⟨rfl, -⟩
      · by_cases hcb : c = b
        · exact .inr ⟨hcb, hap'⟩
        · exact .inl (h.trans _ _ _ hap' (hgap c hcb hbc))
      · exact .inr ⟨rfl, hap'⟩

end Ordered

end Closure

end Tenancy
