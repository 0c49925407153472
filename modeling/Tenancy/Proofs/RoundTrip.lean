import Mathlib.Data.List.Nodup
import Tenancy.Json.Forms
import Tenancy.Proofs.Scalars

namespace Tenancy

/-!
# Records from their texts

A record is read from any object that holds its members: their order does not count, and neither do
members that the record does not know, wherever they stand and whatever they hold.  What a reader
has found behind some members is the list of those that it knows, and no key is in it twice.

* `Json.Member`, `Json.objectText` — a member as it can stand in a text, and an object of such
  members.
* `Json.readMembers_member` — what the reader does at one member.
* `Json.keys_readBehind`, `Json.readBehind_mixed` — what it has found behind all of them.
* `Json.Form.RoundTrips` — a record is read from its text, and from what becomes of it by another
  order and unknown members; `forms_round_trip` for edges, reports and settings, with what happens
  to fields that are missing or come twice.
-/

namespace Json

variable {ws rest cs : List Char} {m : Member} {ms extra : List Member} {fields : Fields}
  {found known more : Found} {s : String} {name : String} {α : Type} {form : Form α} {a : α}

/-! ### Members of an object -/

/-- A member of an object as it can stand in a text: its key in any spelling, any well-formed value,
    and blanks everywhere between them. -/
structure Member where
  key : String
  lead : List Char
  name : List Char
  gap : List Char
  value : List Char
  lead_blanks : Blanks lead
  name_spells : Spells name key.toList
  gap_blanks : Blanks gap
  value_derives : Derives .padded value

namespace Member

/-- The member from behind the quote that opens its key. -/
def tail (m : Member) : List Char := m.name ++ '"' :: (m.gap ++ ':' :: m.value)

/-- The text of the member. -/
def text (m : Member) : List Char := m.lead ++ '"' :: m.tail

/-- A member as it is written. -/
def ofValue (key : String) (v : Value) : Member where
  key := key
  lead := []
  name := key.toList.flatMap escape
  gap := []
  value := v.render.toList
  lead_blanks := List.forall_mem_nil _
  name_spells := spells_escape key.toList
  gap_blanks := List.forall_mem_nil _
  value_derives := v.derives_render.pad

/-- The member that is written for a field. -/
def ofEntry (e : String × Scalar) : Member := ofValue e.1 e.2.value

end Member

/-- An object with these members. -/
def objectText (ms : List Member) : String :=
  String.ofList ('\x7b' :: ([','].intercalate (ms.map Member.text) ++ ['\x7d']))

/-- What stands behind a member: the members after it, the end of the object, and the rest of the
    text. -/
def behindMember (ms : List Member) (rest : List Char) : List Char :=
  ms.foldr (fun m cs => ',' :: (m.text ++ cs)) ('\x7d' :: rest)

/-- What stands behind a member ends a number. -/
theorem ends_behindMember : Ends (behindMember ms rest) := by
  cases ms with
  | nil => exact ends_cons (by decide)
  | cons m ms => exact ends_cons (by decide)

/-- The members with their commas, as the first one and what stands behind it. -/
theorem intercalate_text (m : Member) (ms : List Member) :
    [','].intercalate ((m :: ms).map Member.text) ++ '\x7d' :: rest
      = m.text ++ behindMember ms rest := by
  induction ms generalizing m with
  | nil => rw [List.map_singleton, List.intercalate_singleton, behindMember, List.foldr_nil]
  | cons n ms ih =>
    rw [List.map_cons, List.map_cons, List.intercalate_cons_cons, ← List.map_cons,
      List.append_assoc, ih, List.append_assoc]
    rfl

/-! ### One member -/

theorem readBehind_append (h : Blanks ws) :
    readBehind fields found (ws ++ cs) = readBehind fields found cs := by
  rw [readBehind, skipBlanks_append h, ← readBehind]

/-- A comma leads to the next member. -/
theorem readBehind_cons :
    readBehind fields found (behindMember (m :: ms) rest)
      = readMembers fields found (m.text ++ behindMember ms rest) := by
  show readBehind fields found (',' :: _) = _
  rw [readBehind, skipBlanks_cons (by decide)]
  exact (if_neg (by decide)).trans (if_pos rfl)

/-- The closing brace ends the object with what has been found. -/
theorem readBehind_nil : readBehind fields found (behindMember [] rest) = .ok (found, rest) := by
  show readBehind fields found ('\x7d' :: rest) = _
  rw [readBehind, skipBlanks_cons (by decide)]
  exact if_pos rfl

/-- **One member.** An unknown member is skipped, a known one is refused if it has been found
    before, and otherwise its value is read. -/
theorem readMembers_member (hends : Ends cs) : readMembers fields found (m.text ++ cs) =
    match fields.lookup m.key with
    | none => readBehind fields found cs
    | some kind =>
      if (found.lookup m.key).isSome then .error .mismatch
      else readField kind (m.value ++ cs) >>= fun p =>
        readBehind fields (found ++ [(m.key, p.1)]) p.2 := by
  have htail : m.tail ++ cs = m.name ++ '"' :: (m.gap ++ ':' :: (m.value ++ cs)) := by
    simp only [Member.tail, List.append_assoc, List.cons_append]
  have hcolon : skipColon (m.gap ++ ':' :: (m.value ++ cs)) = .ok (m.value ++ cs) := by
    rw [skipColon, skipBlanks_append m.gap_blanks, skipBlanks_cons (by decide)]
    exact if_pos rfl
  rw [readMembers_eq, Member.text, List.append_assoc, skipBlanks_append m.lead_blanks,
    List.cons_append, skipBlanks_cons (by decide)]
  show readMember fields found (m.tail ++ cs) >>= _ = _
  -- the key is read from its spelling, whatever that is
  rw [htail, readMember, readString_append m.name_spells]
  simp only [bind, Except.bind, String.ofList_toList, hcolon]
  cases fields.lookup m.key with
  | none =>
    -- skipping may stop before blanks, which the next reader passes over
    obtain ⟨after, hafter, hskip⟩ := skipValue_append m.value_derives hends
    simp only [hskip]
    exact readBehind_append hafter
  | some kind =>
    cases (found.lookup m.key).isSome with
    | true => rfl
    | false =>
      dsimp only
      cases readField kind (m.value ++ cs) with
      | error f => rfl
      | ok p => rfl

/-- An object is read as though its brace were the comma behind a member. -/
theorem readFields_objectText : readFields fields ((objectText ms).toList ++ rest)
    = readBehind fields [] (behindMember ms rest) := by
  have hobject : ∀ cs, readFields fields ('\x7b' :: cs) = readObject fields cs := by
    intro cs
    rw [readFields, skipBlanks_cons (by decide)]
    rfl
  rw [objectText, String.toList_ofList, List.cons_append, List.append_assoc, hobject]
  cases ms with
  | nil =>
    rw [readBehind_nil]
    rfl
  | cons m ms =>
    rw [List.singleton_append, intercalate_text, readBehind_cons, readObject, Member.text,
      List.append_assoc, skipBlanks_append m.lead_blanks, List.cons_append,
        skipBlanks_cons (by decide)]
    rfl

/-! ### All members -/

/-- A reader that gets past a member has not known it, or has known it and found it for the first
    time. -/
theorem readMembers_member_cases (hends : Ends cs)
    (h : readMembers fields found (m.text ++ cs) = .ok (more, rest)) :
    (fields.lookup m.key = none ∧ readBehind fields found cs = .ok (more, rest)) ∨
    ((fields.lookup m.key).isSome = true ∧ found.lookup m.key = none ∧
      ∃ v, readBehind fields (found ++ [(m.key, v)]) cs = .ok (more, rest)) := by
  rw [readMembers_member hends] at h
  cases hkind : fields.lookup m.key with
  | none =>
    rw [hkind] at h
    exact .inl ⟨rfl, h⟩
  | some kind =>
    rw [hkind] at h
    dsimp only at h
    split at h
    -- a key that was found before makes the reading fail, and so does not occur
    · cases h
    · rename_i hnew
      obtain ⟨⟨v, behind⟩, hread, h⟩ := exists_of_bind h
      obtain ⟨after, hafter, rfl⟩ := readField_rest m.value_derives hends hread
      dsimp only at h
      rw [readBehind_append hafter] at h
      exact .inr ⟨rfl, Option.not_isSome_iff_eq_none.1 hnew, v, h⟩

/-- **Keys that were found.** A reader that gets to the end of an object has found just the keys
    that it knows, in their order, and none of them twice. -/
theorem keys_readBehind (h : readBehind fields found (behindMember ms rest) = .ok (more, cs))
    (hnodup : (found.map Prod.fst).Nodup) : (more.map Prod.fst).Nodup ∧
    more.map Prod.fst = found.map Prod.fst ++
      (ms.map Member.key).filter fun key => (fields.lookup key).isSome := by
  induction ms generalizing found with
  | nil =>
    rw [readBehind_nil] at h
    cases h
    exact ⟨hnodup, (List.append_nil _).symm⟩
  | cons m ms ih =>
    rw [readBehind_cons] at h
    rw [List.map_cons]
    rcases readMembers_member_cases ends_behindMember h with ⟨hunknown, h⟩ | ⟨hknown, hnew, v, h⟩
    · rw [List.filter_cons_of_neg (by simp [hunknown])]
      exact ih h hnodup
    · have hkeys : (found ++ [(m.key, v)]).map Prod.fst = found.map Prod.fst ++ [m.key] := by
        rw [List.map_append, List.map_singleton]
      have hnext : ((found ++ [(m.key, v)]).map Prod.fst).Nodup := by
        rw [hkeys, List.nodup_append]
        refine ⟨hnodup, List.nodup_singleton _, ?_⟩
        rintro key hkey _ hlast rfl
        -- the key is not among those that were found before
        obtain ⟨e, he, rfl⟩ := List.mem_map.1 hkey
        have hne := List.lookup_eq_none_iff.1 hnew e he
        exact absurd (List.mem_singleton.1 hlast).symm (by simpa using hne)
      obtain ⟨hmore, heq⟩ := ih h hnext
      refine ⟨hmore, ?_⟩
      rw [heq, hkeys, List.append_assoc, List.filter_cons_of_pos (by simp [hknown])]
      rfl

/-- The record has a field for the entry, and the field may hold its value. -/
def Fields.Accepts (fields : Fields) (e : String × Scalar) : Prop :=
  ∃ kind, fields.lookup e.1 = some kind ∧ kind.Narrow ∧ kind.admits e.2 = true

/-- The member of an accepted entry is found. -/
theorem readMembers_ofEntry {e : String × Scalar} (he : fields.Accepts e)
    (hfresh : found.lookup e.1 = none) (hends : Ends cs) :
    readMembers fields found ((Member.ofEntry e).text ++ cs)
      = readBehind fields (found ++ [e]) cs := by
  obtain ⟨kind, hkind, hnarrow, hadmits⟩ := he
  have hread : readField kind ((Member.ofEntry e).value ++ cs) = .ok (e.2, cs) :=
    readField_render hnarrow hadmits hends
  have hkey : (Member.ofEntry e).key = e.1 := rfl
  rw [readMembers_member hends, hkey, hkind]
  dsimp only
  rw [hfresh, hread]
  rfl

/-- A member of a list can be moved to its front. -/
theorem exists_perm_cons {β : Type} {b : β} {l : List β} (h : b ∈ l) : ∃ l', l.Perm (b :: l') := by
  obtain ⟨l₁, l₂, rfl⟩ := List.append_of_mem h
  exact ⟨l₁ ++ l₂, List.perm_middle⟩

/-- **Members in any order.** Behind accepted entries and unknown members, in any order, the entries
    have been found. -/
theorem readBehind_mixed (hms : ms.Perm (known.map Member.ofEntry ++ extra))
    (hextra : ∀ m ∈ extra, fields.lookup m.key = none) (hknown : ∀ e ∈ known, fields.Accepts e)
    (hnodup : (found.map Prod.fst ++ known.map Prod.fst).Nodup) :
    ∃ more : Found, more.Perm known ∧
      readBehind fields found (behindMember ms rest) = .ok (found ++ more, rest) := by
  -- the induction is on the members as they are written: each is the member of an entry or an
  -- unknown one, and its like is taken out of the permutation
  induction ms generalizing found known extra with
  | nil =>
    have hnil : known = [] := List.map_eq_nil_iff.1 (List.append_eq_nil_iff.1 hms.nil_eq.symm).1
    refine ⟨[], by rw [hnil], ?_⟩
    rw [readBehind_nil, List.append_nil]
  | cons m ms ih =>
    rw [readBehind_cons]
    rcases List.mem_append.1 (hms.subset List.mem_cons_self) with hm | hm
    · -- the member of an entry
      obtain ⟨e, he, rfl⟩ := List.mem_map.1 hm
      obtain ⟨known', hperm⟩ := exists_perm_cons he
      have hms' : ms.Perm (known'.map Member.ofEntry ++ extra) :=
        (hms.trans ((hperm.map _).append_right extra)).cons_inv
      have hkeys : (found.map Prod.fst ++ e.1 :: known'.map Prod.fst).Nodup :=
        ((hperm.map Prod.fst).append_left _).nodup_iff.1 hnodup
      have hfresh : found.lookup e.1 = none := by
        rw [List.lookup_eq_none_iff]
        intro p hp
        have hne := (List.nodup_append.1 hkeys).2.2 p.1 (List.mem_map_of_mem hp) e.1
          List.mem_cons_self
        simpa using hne.symm
      have hnext : ((found ++ [e]).map Prod.fst ++ known'.map Prod.fst).Nodup := by
        rwa [List.map_append, List.map_singleton, List.append_assoc]
      obtain ⟨more, hmore, hread⟩ :=
        ih hms' hextra (fun e' he' => hknown e' (hperm.symm.subset (List.mem_cons_of_mem e he')))
          hnext
      refine ⟨e :: more, (hmore.cons e).trans hperm.symm, ?_⟩
      rw [readMembers_ofEntry (hknown e he) hfresh ends_behindMember, hread, List.append_assoc]
      rfl
    · -- an unknown member
      obtain ⟨extra', hperm⟩ := exists_perm_cons hm
      have hms' : ms.Perm (known.map Member.ofEntry ++ extra') :=
        (hms.trans ((hperm.append_left _).trans List.perm_middle)).cons_inv
      have hextra' : ∀ m' ∈ extra', fields.lookup m'.key = none := fun m' hm' =>
        hextra m' (hperm.symm.subset (List.mem_cons_of_mem m hm'))
      rw [readMembers_member ends_behindMember, hextra m hm]
      exact ih hms' hextra' hknown hnodup

/-! ### Looking up -/

/-- Without repeated keys a look-up is membership, and so does not see the order of the entries. -/
theorem lookup_eq_some_iff_mem (hnodup : (known.map Prod.fst).Nodup) {v : Scalar} :
    known.lookup name = some v ↔ (name, v) ∈ known := by
  induction known with
  | nil => exact iff_of_false (fun h => nomatch h) List.not_mem_nil
  | cons e known ih =>
    obtain ⟨key, w⟩ := e
    obtain ⟨hfresh, hnodup⟩ := List.nodup_cons.1 hnodup
    rw [List.lookup_cons, List.mem_cons]
    cases hname : name == key with
    | true =>
      obtain rfl := beq_iff_eq.1 hname
      have hnot : (name, v) ∉ known := by
        intro hmem
        have hkey : name ∈ known.map Prod.fst := List.mem_map_of_mem hmem
        exact hfresh hkey
      simp [hnot, eq_comm]
    | false =>
      have hne : name ≠ key := beq_eq_false_iff_ne.1 hname
      simp [ih hnodup, hne]

/-- Without repeated keys the order of the entries does not count. -/
theorem lookup_eq_of_perm (h : more.Perm known) (hnodup : (known.map Prod.fst).Nodup) :
    more.lookup name = known.lookup name := by
  have hnodup' : (more.map Prod.fst).Nodup := (h.map Prod.fst).nodup_iff.2 hnodup
  refine Option.ext fun v => ?_
  rw [lookup_eq_some_iff_mem hnodup', lookup_eq_some_iff_mem hnodup, h.mem_iff]

/-- Entries that are dropped by their keys are the only ones that are missed. -/
theorem lookup_filter (keep : String → Bool) :
    (known.filter fun e => keep e.1).lookup name
      = if keep name then known.lookup name else none := by
  induction known with
  | nil => simp
  | cons e known ih =>
    obtain ⟨key, v⟩ := e
    rw [List.filter_cons, List.lookup_cons]
    cases hname : name == key with
    | true =>
      obtain rfl := beq_iff_eq.1 hname
      cases hkeep : keep name with
      | true => simp
      | false => simp [ih, hkeep]
    | false =>
      cases hkeep : keep key with
      | true => simp [List.lookup_cons, hname, ih]
      | false => simp [ih]

/-! ### Forms -/

/-- Joining with commas, character by character. -/
theorem toList_intercalate_comma (texts : List String) :
    (",".intercalate texts).toList = [','].intercalate (texts.map String.toList) :=
  String.toList_intercalate

/-- The member of a value is its quoted key, a colon and the value as it is written. -/
theorem Member.text_ofValue (key : String) (v : Value) :
    (Member.ofValue key v).text = (quote key ++ ":" ++ v.render).toList := by
  rw [toList_append_colon, toList_quote, List.cons_append, List.append_assoc]
  rfl

/-- A record is written as the object of its members. -/
theorem render_record (members : List (String × Value)) :
    (Value.record members).render = objectText (members.map fun p => Member.ofValue p.1 p.2) := by
  have htexts : (renderFields members).map String.toList
      = (members.map fun p => Member.ofValue p.1 p.2).map Member.text := by
    rw [renderFields_eq_map, List.map_map, List.map_map]
    exact List.map_congr_left fun p _ => (Member.text_ofValue p.1 p.2).symm
  apply String.toList_inj.1
  rw [toList_render_record, toList_intercalate_comma, htexts, objectText, String.toList_ofList]

namespace Form

/-- The fields that are written. -/
def entries (form : Form α) (a : α) : Found :=
  List.zipWith (fun field v => (field.1, v)) form.fields (form.scalars a)

/-- The members that are written. -/
def members (form : Form α) (a : α) : List Member := (form.entries a).map Member.ofEntry

/-- The keys that the form knows. -/
def names (form : Form α) : List String := form.fields.map Prod.fst

/-- These are the members of the first list in any order, with others in any places that the form
    does not know. -/
def Mixes (form : Form α) (known : List Member) (ms : List Member) : Prop :=
  ∃ extra : List Member, ms.Perm (known ++ extra) ∧ ∀ m ∈ extra, m.key ∉ form.names

/-- The record is written as an object, and read from this object and from any that has its members
    in another order and unknown ones among them. -/
structure RoundTrips (form : Form α) (a : α) : Prop where
  written : form.text a = objectText (form.members a)
  read : form.ofText? (form.text a) = .ok a
  mixed : ∀ ms, form.Mixes (form.members a) ms → form.ofText? (objectText ms) = .ok a

/-- No object is read that lacks a field. -/
def NeedsAll (form : Form α) : Prop :=
  ∀ ms : List Member, ∀ name ∈ form.names, name ∉ ms.map Member.key →
    ∃ fault, form.ofText? (objectText ms) = .error fault

/-- No object is read that has a field twice. -/
def RefusesRepeats (form : Form α) : Prop :=
  ∀ ms : List Member, ∀ name ∈ form.names, 2 ≤ (ms.map Member.key).count name →
    ∃ fault, form.ofText? (objectText ms) = .error fault

theorem value_eq : form.value a = .record ((form.entries a).map fun e => (e.1, e.2.value)) := by
  rw [value, entries, List.map_zipWith]

/-- The text of a form is that of an object with one member for each entry. -/
theorem text_eq_objectText : form.text a = objectText (form.members a) := by
  rw [text, value_eq, render_record, List.map_map]
  rfl

theorem lookup_fields_isSome : (form.fields.lookup name).isSome = true ↔ name ∈ form.names := by
  rw [List.lookup_isSome_iff, names, List.mem_map]
  simp only [beq_iff_eq, @eq_comm _ name]

/-- What is accepted field by field. -/
structure Takes (form : Form α) (known : Found) : Prop where
  accepts : ∀ e ∈ known, form.fields.Accepts e
  nodup : (known.map Prod.fst).Nodup

/-- Fewer entries are taken as well, each for itself. -/
theorem Takes.filter (h : form.Takes known) (p : String × Scalar → Bool) :
    form.Takes (known.filter p) where
  accepts := fun e he => h.accepts e (List.mem_filter.1 he).1
  nodup := h.nodup.sublist (List.filter_sublist.map Prod.fst)

/-- A record is read from an object if it is made of what can be looked up there. -/
theorem read_mixed (hknown : form.Takes known) (hms : form.Mixes (known.map Member.ofEntry) ms)
    (hfound : ∀ found : Found, (∀ name, found.lookup name = known.lookup name) →
      form.ofFound? found = some a) :
      form.read ((objectText ms).toList ++ rest) = .ok (a, rest) := by
  obtain ⟨extra, hperm, hextra⟩ := hms
  have hunknown : ∀ m ∈ extra, form.fields.lookup m.key = none := by
    intro m hm
    rw [← Option.not_isSome_iff_eq_none, lookup_fields_isSome]
    exact hextra m hm
  have hnodup : (([] : Found).map Prod.fst ++ known.map Prod.fst).Nodup := hknown.nodup
  obtain ⟨found, hfoundPerm, hread⟩ := readBehind_mixed hperm hunknown hknown.accepts hnodup
  have hmade : form.ofFound? found = some a :=
    hfound found fun name => lookup_eq_of_perm hfoundPerm hknown.nodup
  rw [read, readFields_objectText, hread]
  simp only [bind, Except.bind, List.nil_append, hmade]

theorem ofText?_of_read (h : form.read s.toList = .ok (a, [])) : form.ofText? s = .ok a := by
  rw [ofText?, readWhole, h]
  rfl

/-- Members in any order and among unknown ones are read, if the result depends on the look-ups
    only. -/
theorem ofText?_mixed (hknown : form.Takes known) (hms : form.Mixes (known.map Member.ofEntry) ms)
    (hfound : ∀ found : Found, (∀ name, found.lookup name = known.lookup name) →
      form.ofFound? found = some a) : form.ofText? (objectText ms) = .ok a := by
  have hread : form.read ((objectText ms).toList ++ []) = .ok (a, []) :=
    read_mixed hknown hms hfound
  rw [List.append_nil] at hread
  exact ofText?_of_read hread

/-- Round trips of a form, from its entries being taken and found again. -/
theorem roundTrips_of_takes (hknown : form.Takes (form.entries a))
    (hfound : ∀ found : Found, (∀ name, found.lookup name = (form.entries a).lookup name) →
      form.ofFound? found = some a) : form.RoundTrips a where
  written := text_eq_objectText
  read := by
    rw [text_eq_objectText]
    refine ofText?_mixed hknown ⟨[], ?_, List.forall_mem_nil _⟩ hfound
    rw [List.append_nil, members]
  mixed := fun _ hms => ofText?_mixed hknown hms hfound

/-- An object is refused if no record can be made of anything that may be found in it. -/
theorem ofText?_refused (h : ∀ found : Found, (found.map Prod.fst).Nodup →
      found.map Prod.fst = (ms.map Member.key).filter (fun key => (form.fields.lookup key).isSome) →
      form.ofFound? found = none) : ∃ fault, form.ofText? (objectText ms) = .error fault := by
  have hobject : readFields form.fields ((objectText ms).toList ++ [])
      = readBehind form.fields [] (behindMember ms []) := readFields_objectText
  rw [List.append_nil] at hobject
  cases hread : readBehind form.fields [] (behindMember ms []) with
  | error fault =>
    refine ⟨fault, ?_⟩
    rw [ofText?, readWhole, read, hobject, hread]
    rfl
  | ok p =>
    obtain ⟨found, rest⟩ := p
    obtain ⟨hnodup, hkeys⟩ := keys_readBehind hread List.nodup_nil
    refine ⟨.mismatch, ?_⟩
    rw [ofText?, readWhole, read, hobject, hread]
    simp only [bind, Except.bind, h found hnodup hkeys]

/-- **Repeated keys.** No form takes a field twice, not even if both times it has the same value. -/
theorem refusesRepeats (form : Form α) : form.RefusesRepeats := by
  intro ms name hname htwice
  refine ofText?_refused fun found hnodup hkeys => ?_
  have hcount : (found.map Prod.fst).count name = (ms.map Member.key).count name := by
    rw [hkeys]
    exact List.count_filter (lookup_fields_isSome.2 hname)
  have honce := List.nodup_iff_count_le_one.1 hnodup name
  omega

/-- **Missing keys.** A form whose records cannot be made without any of their fields needs them
    all. -/
theorem needsAll_of_ofFound? (h : ∀ found : Found, ∀ name ∈ form.names, found.lookup name = none →
    form.ofFound? found = none) : form.NeedsAll := by
  intro ms name hname hmissing
  refine ofText?_refused fun found _ hkeys => h found name hname ?_
  rw [List.lookup_eq_none_iff]
  intro e he
  have hkey : e.1 ∈ ms.map Member.key := by
    have hmem : e.1 ∈ found.map Prod.fst := List.mem_map_of_mem he
    rw [hkeys] at hmem
    exact (List.mem_filter.1 hmem).1
  have hne : name ≠ e.1 := fun heq => hmissing (heq ▸ hkey)
  simpa using hne

end Form

/-! ### Fields of forms -/

section

variable {n : Nat} {b : Bool}

theorem Fields.accepts_full (h : fields.lookup name = some .full) (hn : n < UInt64.size) :
    fields.Accepts (name, .whole n) :=
  ⟨.full, h, Nat.le_refl _, decide_eq_true (Nat.le_sub_one_of_lt hn)⟩

/-- A field of 32 bits takes every number that fits. -/
theorem Fields.accepts_half (h : fields.lookup name = some .half) (hn : n < UInt32.size) :
    fields.Accepts (name, .whole n) := by
  have hnarrow : UInt32.size - 1 ≤ maxWord := by decide
  exact ⟨.half, h, hnarrow, decide_eq_true (Nat.le_sub_one_of_lt hn)⟩

theorem Fields.accepts_flag (h : fields.lookup name = some .flag) :
    fields.Accepts (name, .flag b) :=
  ⟨.flag, h, trivial, rfl⟩

theorem Found.word?_eq (h : found.lookup name = some (.whole n)) : found.word? name = some n := by
  rw [Found.word?, h]

theorem Found.word?_eq_none (h : found.lookup name = none) : found.word? name = none := by
  rw [Found.word?, h]

/-- A number that is found if it is kept. -/
theorem Found.word?_kept {keep : Bool}
    (h : found.lookup name = if keep then known.lookup name else none)
    (hn : known.lookup name = some (.whole n)) :
    found.word? name = if keep then some n else none := by
  cases keep with
  | true => exact Found.word?_eq (h.trans hn)
  | false => exact Found.word?_eq_none h

/-- A truth value that is found if it is kept. -/
theorem Found.flag?_kept {keep : Bool}
    (h : found.lookup name = if keep then known.lookup name else none)
    (hb : known.lookup name = some (.flag b)) :
    found.flag? name = if keep then some b else none := by
  cases keep with
  | true =>
    have hfound : found.lookup name = some (.flag b) := h.trans hb
    rw [Found.flag?, hfound]
    rfl
  | false =>
    have hmissing : found.lookup name = none := h
    rw [Found.flag?, hmissing]
    rfl

end

end Json

open Json

variable {found : Found}

/-! ### Edges -/

namespace Edge

/-- The entries of an edge fit their fields: the types of an edge bound them. -/
theorem takes_entries (e : Edge) : form.Takes (form.entries e) where
  accepts := by
    have hancestor := e.ancestor.toNat_lt
    have hdescendant := e.descendant.toNat_lt
    have hdepth := e.depth.toNat_lt
    show ∀ p ∈ [("ancestor", Scalar.whole e.ancestor.toNat),
      ("descendant", .whole e.descendant.toNat), ("depth", .half e.depth)], _
    simp only [List.forall_mem_cons]
    exact ⟨Fields.accepts_full rfl hancestor, Fields.accepts_full rfl hdescendant,
      Fields.accepts_half rfl hdepth, List.forall_mem_nil _⟩
  nodup := by
    show ["ancestor", "descendant", "depth"].Nodup
    decide

/-- An edge is put together again from what its fields hold. -/
theorem ofFound?_entries {e : Edge} (h : ∀ name, found.lookup name = (form.entries e).lookup name) :
    form.ofFound? found = some e := by
  have hancestor : found.word? "ancestor" = some e.ancestor.toNat :=
    Found.word?_eq ((h _).trans rfl)
  have hdescendant : found.word? "descendant" = some e.descendant.toNat :=
    Found.word?_eq ((h _).trans rfl)
  have hdepth : found.word? "depth" = some e.depth.toNat := Found.word?_eq ((h _).trans rfl)
  have hid : ∀ id : TenantId, .ofNat id.toNat = id := fun id =>
    TenantId.ext (TenantId.toNat_ofNat id.toNat_lt)
  show (found.word? "ancestor").bind _ = _
  rw [hancestor, hdescendant, hdepth]
  show some (Edge.mk (.ofNat _) (.ofNat _) (.ofNat _)) = _
  rw [hid, hid, UInt32.ofNat_toNat]

/-- **Edges.** The written form of an edge is read back as that edge. -/
theorem roundTrips (e : Edge) : form.RoundTrips e :=
  Form.roundTrips_of_takes (takes_entries e) fun _ => ofFound?_entries

/-- An edge needs all three of its members. -/
theorem needsAll : form.NeedsAll := by
  refine Form.needsAll_of_ofFound? fun found name hname h => ?_
  have hnone : found.word? name = none := Found.word?_eq_none h
  have hnames : name ∈ ["ancestor", "descendant", "depth"] := hname
  simp only [List.mem_cons, List.not_mem_nil, or_false] at hnames
  rcases hnames with rfl | rfl | rfl <;> simp [form, hnone]

end Edge

/-! ### Reports -/

namespace RepairReport

/-- The counts fit the words that hold them. -/
structure InWords (r : RepairReport) : Prop where
  selfEdgesInserted : r.selfEdgesInserted < UInt64.size
  transitiveEdgesInserted : r.transitiveEdgesInserted < UInt64.size
  depthsLowered : r.depthsLowered < UInt64.size
  passes : r.passes < UInt32.size

variable {r : RepairReport}

/-- The entries of a report fit their fields if its counts fit words. -/
theorem takes_entries (h : r.InWords) : form.Takes (form.entries r) where
  accepts := by
    show ∀ p ∈ [("self_edges_inserted", Scalar.whole r.selfEdgesInserted),
      ("transitive_edges_inserted", .whole r.transitiveEdgesInserted),
      ("depths_lowered", .whole r.depthsLowered), ("passes", .whole r.passes)], _
    simp only [List.forall_mem_cons]
    exact ⟨Fields.accepts_full rfl h.selfEdgesInserted,
      Fields.accepts_full rfl h.transitiveEdgesInserted, Fields.accepts_full rfl h.depthsLowered,
        Fields.accepts_half rfl h.passes, List.forall_mem_nil _⟩
  nodup := by
    show ["self_edges_inserted", "transitive_edges_inserted", "depths_lowered", "passes"].Nodup
    decide

/-- **Reports.** The written form of a report with counts that fit is read back as that report. -/
theorem roundTrips (h : r.InWords) : form.RoundTrips r := by
  refine Form.roundTrips_of_takes (takes_entries h) fun found h => ?_
  have hself : found.word? "self_edges_inserted" = some r.selfEdgesInserted :=
    Found.word?_eq ((h _).trans rfl)
  have htransitive : found.word? "transitive_edges_inserted" = some r.transitiveEdgesInserted :=
    Found.word?_eq ((h _).trans rfl)
  have hlowered : found.word? "depths_lowered" = some r.depthsLowered :=
    Found.word?_eq ((h _).trans rfl)
  have hpasses : found.word? "passes" = some r.passes := Found.word?_eq ((h _).trans rfl)
  show (found.word? "self_edges_inserted").bind _ = _
  rw [hself, htransitive, hlowered, hpasses]
  rfl

/-- A report needs all four of its members. -/
theorem needsAll : form.NeedsAll := by
  refine Form.needsAll_of_ofFound? fun found name hname h => ?_
  have hnone : found.word? name = none := Found.word?_eq_none h
  have hnames :
    name ∈ ["self_edges_inserted", "transitive_edges_inserted", "depths_lowered", "passes"] :=
    hname
  simp only [List.mem_cons, List.not_mem_nil, or_false] at hnames
  rcases hnames with rfl | rfl | rfl | rfl <;> simp [form, hnone]

end RepairReport

/-! ### Settings -/

namespace Settings

/-- The settings with the default of each field whose name is not kept. -/
def keeping (s : Settings) (keep : String → Bool) : Settings :=
  let absent : Settings := {}
  { maxConnections := if keep "max_connections" then s.maxConnections else absent.maxConnections
    minConnections := if keep "min_connections" then s.minConnections else absent.minConnections
    connectionTimeout :=
      if keep "connection_timeout_ms" then s.connectionTimeout else absent.connectionTimeout
    busyTimeout := if keep "busy_timeout_ms" then s.busyTimeout else absent.busyTimeout
    enableWal := if keep "enable_wal" then s.enableWal else absent.enableWal
    checkCyclesAfterMove :=
      if keep "check_cycles_after_move" then s.checkCyclesAfterMove else absent.checkCyclesAfterMove
        }

theorem keeping_all (s : Settings) : s.keeping (fun _ => true) = s := rfl

/-- The entries of the settings fit their fields. -/
theorem takes_entries (s : Settings) : form.Takes (form.entries s) where
  accepts := by
    have hmost := s.maxConnections.toNat_lt
    have hleast := s.minConnections.toNat_lt
    have htimeout := s.connectionTimeout.toNat_lt
    have hbusy := s.busyTimeout.toNat_lt
    show ∀ p ∈ [("max_connections", Scalar.half s.maxConnections),
      ("min_connections", .half s.minConnections),
      ("connection_timeout_ms", .whole s.connectionTimeout.toNat),
      ("busy_timeout_ms", .half s.busyTimeout), ("enable_wal", .flag s.enableWal),
      ("check_cycles_after_move", .flag s.checkCyclesAfterMove)], _
    simp only [List.forall_mem_cons]
    exact ⟨Fields.accepts_half rfl hmost, Fields.accepts_half rfl hleast,
      Fields.accepts_full rfl htimeout, Fields.accepts_half rfl hbusy, Fields.accepts_flag rfl,
      Fields.accepts_flag rfl, List.forall_mem_nil _⟩
  nodup := by
    show ["max_connections", "min_connections", "connection_timeout_ms", "busy_timeout_ms",
      "enable_wal", "check_cycles_after_move"].Nodup
    decide

/-- What settings are made of if some of their fields are found. -/
theorem ofFound?_kept {s : Settings} {keep : String → Bool}
    (h : ∀ name, found.lookup name = if keep name then (form.entries s).lookup name else none) :
    form.ofFound? found = some (s.keeping keep) := by
  -- a field that is not kept is where the default comes in
  have helim : ∀ {α β : Type} {p : Prop} [Decidable p] (a : α) (d : β) (f : α → β),
      (if p then some a else none).elim d f = if p then f a else d := by
    intro α β p _ a d f
    split <;> rfl
  have hgetD : ∀ {p : Prop} [Decidable p] (b d : Bool),
      (if p then some b else none).getD d = if p then b else d := by
    intro p _ b d
    split <;> rfl
  have hmost : found.word? "max_connections" = _ := Found.word?_kept (h _) rfl
  have hleast : found.word? "min_connections" = _ := Found.word?_kept (h _) rfl
  have htimeout : found.word? "connection_timeout_ms" = _ := Found.word?_kept (h _) rfl
  have hbusy : found.word? "busy_timeout_ms" = _ := Found.word?_kept (h _) rfl
  have hwal : found.flag? "enable_wal" = _ := Found.flag?_kept (h _) rfl
  have hcheck : found.flag? "check_cycles_after_move" = _ := Found.flag?_kept (h _) rfl
  simp only [form, hmost, hleast, htimeout, hbusy, hwal, hcheck, helim, hgetD, UInt32.ofNat_toNat,
    UInt64.ofNat_toNat]
  rfl

/-- **Defaults fill the gaps.** Settings are read from an object that has some of their members, as
    the settings with the defaults of the others. -/
theorem ofText?_kept {s : Settings} {keep : String → Bool} {ms : List Member}
    (h : form.Mixes ((form.members s).filter fun m => keep m.key) ms) :
    form.ofText? (objectText ms) = .ok (s.keeping keep) := by
  have hkept : (form.members s).filter (fun m => keep m.key)
      = ((form.entries s).filter fun e => keep e.1).map Member.ofEntry := by
    rw [Form.members, List.filter_map]
    rfl
  rw [hkept] at h
  refine Form.ofText?_mixed ((takes_entries s).filter _) h fun found hfound => ofFound?_kept ?_
  intro name
  rw [hfound, lookup_filter]

/-- **Settings.** The written form of settings is read back as those settings. -/
theorem roundTrips (s : Settings) : form.RoundTrips s := by
  refine Form.roundTrips_of_takes (takes_entries s) fun found h => ?_
  have hkept : form.ofFound? found = some (s.keeping fun _ => true) := ofFound?_kept h
  rw [hkept, keeping_all]

end Settings

/-- **Texts of records.** Edges, reports whose counts fit their words, and settings are read from
    the text that is written for them, from the same members in any other order, and with any
    members among them that have other keys, in any spelling, and well-formed values.  Settings are
    read as well if any of their fields are missing, with just the defaults of these instead.  An
    edge or a report without one of its fields is refused, and each of the three if a field comes a
    second time. -/
theorem forms_round_trip :
    (∀ e : Edge, Edge.form.RoundTrips e) ∧
    (∀ r : RepairReport, r.InWords → RepairReport.form.RoundTrips r) ∧
    (∀ s : Settings, Settings.form.RoundTrips s) ∧
    (∀ (s : Settings) (keep : String → Bool) (ms : List Member),
      Settings.form.Mixes ((Settings.form.members s).filter fun m => keep m.key) ms →
        Settings.form.ofText? (objectText ms) = .ok (s.keeping keep)) ∧
    (Edge.form.NeedsAll ∧ RepairReport.form.NeedsAll) ∧
    Edge.form.RefusesRepeats ∧ RepairReport.form.RefusesRepeats ∧ Settings.form.RefusesRepeats := by
  refine ⟨Edge.roundTrips, fun r hr => RepairReport.roundTrips hr, Settings.roundTrips, ?_, ?_, ?_⟩
  · intro s keep ms hms
    exact Settings.ofText?_kept hms
  · exact ⟨Edge.needsAll, RepairReport.needsAll⟩
  · exact ⟨Form.refusesRepeats _, Form.refusesRepeats _, Form.refusesRepeats _⟩

/-- An edge in another order, with a note whose text looks like a field and a brace; the largest
    report; settings with two fields; an edge without its descendant; settings that say the same
    twice. -/
theorem forms_round_trip_texts :
    Edge.form.ofText?
      ("\x7b\"depth\":4294967295,\"a \\\"note\\\"\":[\x7b\"depth\":1\x7d,\"\\\"\x7d\"],"
        ++ "\"ancestor\":18446744073709551615,\"descendant\":2\x7d")
        = .ok ⟨.ofNat (UInt64.size - 1), .ofNat 2, .ofNat (UInt32.size - 1)⟩ ∧
      RepairReport.form.ofText? (RepairReport.form.text ⟨UInt64.size - 1, 1, 0, UInt32.size - 1⟩)
        = .ok ⟨UInt64.size - 1, 1, 0, UInt32.size - 1⟩ ∧
      Settings.form.ofText? "\x7b\"busy_timeout_ms\":1,\"enable_wal\":false\x7d"
        = .ok { busyTimeout := 1, enableWal := false } ∧
      (∃ fault, Edge.form.ofText? "\x7b\"depth\":0,\"ancestor\":1\x7d" = .error fault) ∧
      ∃ fault, Settings.form.ofText? "\x7b\"enable_wal\":true,\"enable_wal\":true\x7d"
        = .error fault := by
  obtain ⟨hedge, hreport, -, hgaps, ⟨hneeds, -⟩, -, -, hrepeats⟩ := forms_round_trip
  let e : Edge := ⟨.ofNat (UInt64.size - 1), .ofNat 2, .ofNat (UInt32.size - 1)⟩
  let s : Settings := { maxConnections := 7, busyTimeout := 1, enableWal := false }
  let keep : String → Bool := fun key => key ∈ ["busy_timeout_ms", "enable_wal"]
  let note : Member :=
    .ofValue "a \"note\"" (.list [.record [("depth", .number 1)], .text "\"\x7d"])
  let wal : Member := .ofEntry ("enable_wal", .flag true)
  refine ⟨?_, (hreport _ ⟨by decide, by decide, by decide, by decide⟩).read, ?_, ?_, ?_⟩
  · let depth : Member := .ofEntry ("depth", .whole (UInt32.size - 1))
    let ancestor : Member := .ofEntry ("ancestor", .whole (UInt64.size - 1))
    let descendant : Member := .ofEntry ("descendant", .whole 2)
    have hperm :
      ([depth, note] ++ [ancestor, descendant]).Perm ([ancestor, descendant] ++ [depth, note]) :=
      List.perm_append_comm
    have hmixed : Edge.form.Mixes (Edge.form.members e) [depth, note, ancestor, descendant] :=
      ⟨[note], hperm, by decide⟩
    refine Eq.trans (congrArg _ ?_) ((hedge e).mixed _ hmixed)
    decide +kernel
  · have hmixed : Settings.form.Mixes ((Settings.form.members s).filter fun m => keep m.key)
        [.ofEntry ("busy_timeout_ms", .whole 1), .ofEntry ("enable_wal", .flag false)] :=
      ⟨[], .refl _, List.forall_mem_nil _⟩
    have hkept : s.keeping keep = { busyTimeout := 1, enableWal := false } := by decide
    refine Eq.trans (congrArg _ ?_) ((hgaps s keep _ hmixed).trans (congrArg _ hkept))
    decide +kernel
  · obtain ⟨fault, h⟩ := hneeds [.ofEntry ("depth", .whole 0), .ofEntry ("ancestor", .whole 1)]
      "descendant" (by decide) (by decide)
    refine ⟨fault, Eq.trans (congrArg _ ?_) h⟩
    decide +kernel
  · obtain ⟨fault, h⟩ := hrepeats [wal, wal] "enable_wal" (by decide) (by decide)
    refine ⟨fault, Eq.trans (congrArg _ ?_) h⟩
    decide +kernel

end Tenancy
