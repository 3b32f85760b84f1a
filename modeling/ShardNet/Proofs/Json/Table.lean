-- SUMMARY: Tables are read back from objects, in whatever order the reader takes the members.
import Mathlib.Data.List.Perm.Basic
import ShardNet.Proofs.Gather
import ShardNet.Proofs.Json.Record

/-!
# Reading back tables

A table is written with the text of each key. These texts are distinct, so no member stands for
another one, but sorted as texts they come in an order of their own: 10 before 9. The table does not
depend on the order in which its entries are inserted, and so it comes back.
-/

namespace ShardNet

/-! ## Tables by any order of their entries -/

namespace Table

variable {κ α : Type} [Unsigned κ]

/-- Entries with different keys. -/
def Apart (a b : κ × α) : Prop := Unsigned.toNat a.1 ≠ Unsigned.toNat b.1

theorem Apart.symm {a b : κ × α} (h : Apart a b) : Apart b a := Ne.symm h

theorem nodup_of_apart {entries : List (κ × α)} (h : entries.Pairwise Apart) : entries.Nodup := by
  refine List.Pairwise.imp ?_ h
  rintro entry _ hapart rfl
  exact hapart rfl

theorem insertEntry_perm {key : κ} {value : α} {entries : List (κ × α)}
    (hnew : ∀ entry ∈ entries, Apart (key, value) entry) :
    (insertEntry key value entries).Perm ((key, value) :: entries) := by
  induction entries with
  | nil => exact .refl _
  | cons entry rest ih =>
      obtain ⟨k, v⟩ := entry
      have hk : Unsigned.toNat key ≠ Unsigned.toNat k := hnew (k, v) (by simp)
      simp only [insertEntry, if_neg hk]
      split
      · exact .refl _
      · have hrest := ih fun entry hentry => hnew entry (List.mem_cons_of_mem _ hentry)
        exact (hrest.cons _).trans (.swap ..)

theorem foldl_insert_perm {entries : List (κ × α)} {table : Table κ α}
    (hapart : (table.entries ++ entries).Pairwise Apart) :
    (entries.foldl (fun table entry => table.insert entry.1 entry.2) table).entries.Perm
      (table.entries ++ entries) := by
  induction entries generalizing table with
  | nil => simp
  | cons entry rest ih =>
      have hmiddle : (table.entries ++ entry :: rest).Perm (entry :: table.entries ++ rest) :=
        List.perm_middle
      have hall := (hmiddle.pairwise_iff Apart.symm).1 hapart
      have hnew : ∀ other ∈ table.entries, Apart entry other := fun other hother =>
        (List.pairwise_cons.1 hall).1 other (List.mem_append_left _ hother)
      have hinsert : (table.insert entry.1 entry.2).entries.Perm (entry :: table.entries) :=
        insertEntry_perm hnew
      have hfront := hinsert.append_right rest
      exact (ih ((hfront.pairwise_iff Apart.symm).2 hall)).trans (hfront.trans hmiddle.symm)

theorem apart_entries (table : Table κ α) : table.entries.Pairwise Apart :=
  table.ascending.imp fun h => Nat.ne_of_lt h

theorem entries_ofList_perm {entries : List (κ × α)} (hapart : entries.Pairwise Apart) :
    (ofList entries).entries.Perm entries := foldl_insert_perm hapart

/-- A table is made of its entries in any order. -/
theorem ofList_of_perm {entries : List (κ × α)} {table : Table κ α}
    (h : entries.Perm table.entries) :
    ofList entries = table := by
  have hapart : entries.Pairwise Apart := (h.pairwise_iff Apart.symm).2 table.apart_entries
  have hperm : (ofList entries).entries.Perm table.entries := (entries_ofList_perm hapart).trans h
  refine ext (hperm.eq_of_pairwise (fun a b _ _ hab hba => ?_) (ofList entries).ascending
    table.ascending)
  exact absurd hab (Nat.lt_asymm hba)

end Table

namespace Json

/-! ## Members with distinct keys -/

section

variable {key : String} {value : Json} {members others : List (String × Json)}
  {member : String × Json}

theorem addMember_perm
    (hnew : ∀ member ∈ members, key ≠ member.1) :
    (addMember key value members).Perm ((key, value) :: members) := by
  induction members with
  | nil => exact .refl _
  | cons member rest ih =>
      obtain ⟨name, other⟩ := member
      have hname : key ≠ name := hnew (name, other) (by simp)
      simp only [addMember, if_neg hname]
      split
      · exact .refl _
      · have hrest := ih fun member hmember => hnew member (List.mem_cons_of_mem _ hmember)
        exact (hrest.cons _).trans (.swap ..)

theorem distinctMembers_perm (hdistinct : members.Pairwise fun a b => a.1 ≠ b.1) :
    (distinctMembers members).Perm members := by
  induction members with
  | nil => exact .refl _
  | cons member rest ih =>
      obtain ⟨hnew, hrest⟩ := List.pairwise_cons.1 hdistinct
      have hperm := ih hrest
      exact (addMember_perm fun other hother => hnew other (hperm.mem_iff.1 hother)).trans
        (hperm.cons _)

/-- Distinct keys have the same members in any order. -/
theorem filter_eq_of_perm (hperm : members.Perm others)
    (hdistinct : members.Pairwise fun a b => a.1 ≠ b.1)
    (key : String) : members.filter (·.1 = key) = others.filter (·.1 = key) := by
  have hsingle : (members.filter (·.1 = key)).Pairwise fun _ _ => False := by
    refine (hdistinct.filter _).imp_of_mem fun {a b} ha hb hne => hne ?_
    have hkeys : a.1 = key ∧ b.1 = key := by
      simpa using And.intro (List.mem_filter.1 ha).2 (List.mem_filter.1 hb).2
    rw [hkeys.1, hkeys.2]
  have hperm := hperm.filter (·.1 = key)
  exact hperm.eq_of_pairwise (fun _ _ _ _ h => h.elim) hsingle ((hperm.pairwise_iff id).1 hsingle)

/-- Members in strictly ascending order of their keys. -/
def Ascending (members : List (String × Json)) : Prop := members.Pairwise fun a b => a.1 < b.1

theorem mem_addMember_iff (h : Ascending members) : member ∈ addMember key value members ↔
    member ∈ members ∨ member = (key, value) ∧ ∀ other ∈ members, other.1 ≠ key := by
  induction members with
  | nil => simp [addMember]
  | cons first rest ih =>
      obtain ⟨name, other⟩ := first
      obtain ⟨hbelow, hrest⟩ := List.pairwise_cons.1 h
      simp only [addMember, List.forall_mem_cons]
      split
      · next hlt =>
        have hnew : name ≠ key ∧ ∀ other ∈ rest, other.1 ≠ key :=
          ⟨fun hname => String.lt_irrefl _ (hname ▸ hlt),
            fun other hother hname => String.lt_asymm hlt (hname ▸ hbelow other hother)⟩
        rw [List.mem_cons, or_comm, and_iff_left hnew]
      · split
        · next hname => simp [hname]
        · next hname =>
          rw [List.mem_cons, List.mem_cons, ih hrest, or_assoc]
          simp [Ne.symm hname]

theorem ascending_addMember (h : Ascending members) : Ascending (addMember key value members) := by
  induction members with
  | nil => exact List.pairwise_singleton ..
  | cons first rest ih =>
      obtain ⟨name, other⟩ := first
      obtain ⟨hbelow, hrest⟩ := List.pairwise_cons.1 h
      simp only [addMember]
      split
      · next hlt =>
        refine List.pairwise_cons.2 ⟨fun member hmember => ?_, h⟩
        rcases List.mem_cons.1 hmember with rfl | hmember
        · exact hlt
        · exact String.lt_trans hlt (hbelow member hmember)
      · next hnot =>
        split
        · exact h
        · next hname =>
          refine List.pairwise_cons.2 ⟨fun member hmember => ?_, ih hrest⟩
          rcases (mem_addMember_iff hrest).1 hmember with hmember | ⟨rfl, -⟩
          · exact hbelow member hmember
          · exact Std.lt_of_le_of_ne (String.not_lt.1 hnot) (Ne.symm hname)

theorem ascending_distinctMembers (members : List (String × Json)) :
    Ascending (distinctMembers members) := by
  induction members with
  | nil => exact .nil
  | cons member rest ih => exact ascending_addMember ih

/-- Of each key, the last member is kept. -/
theorem mem_distinctMembers_iff :
    (key, value) ∈ distinctMembers members ↔ lookup key members = some value := by
  induction members generalizing key value with
  | nil => simp [distinctMembers]
  | cons member rest ih =>
      obtain ⟨name, other⟩ := member
      have hnone : (∀ member ∈ distinctMembers rest, member.1 ≠ name) ↔
          lookup name rest = none := by
        rw [Option.eq_none_iff_forall_ne_some]
        exact ⟨fun h value hvalue => h _ (ih.2 hvalue) rfl, fun h member hmember hname =>
          h member.2 (ih.1 (by rwa [← hname]))⟩
      rw [distinctMembers, mem_addMember_iff (ascending_distinctMembers rest), hnone, ih,
        Prod.mk.injEq]
      simp only [lookup]
      cases hlater : lookup key rest with
      | some later =>
          refine or_iff_left ?_
          rintro ⟨⟨rfl, -⟩, hname⟩
          cases hlater.symm.trans hname
      | none =>
          by_cases hname : name = key
          · subst hname
            simp [hlater, eq_comm]
          · simp [hname, Ne.symm hname]

theorem distinctMembers_congr (h : ∀ key, lookup key members = lookup key others) :
    distinctMembers members = distinctMembers others := by
  have hnodup : ∀ members, (distinctMembers members).Nodup := fun members => by
    refine List.Pairwise.imp ?_ (ascending_distinctMembers members)
    rintro member _ hlt rfl
    exact String.lt_irrefl _ hlt
  have hperm : (distinctMembers members).Perm (distinctMembers others) :=
    (List.perm_ext_iff_of_nodup (hnodup _) (hnodup _)).2 fun member => by
      rw [mem_distinctMembers_iff, mem_distinctMembers_iff, h]
  exact hperm.eq_of_pairwise (fun _ _ _ _ hab hba => absurd hab (String.lt_asymm hba))
    (ascending_distinctMembers _) (ascending_distinctMembers _)

end

namespace Codec

variable {κ α : Type} [Unsigned κ] {codec : Codec α} {depth : Nat}

theorem keyNumber?_text (key : κ) :
    keyNumber? κ (Text.Decimal.text (Unsigned.toNat key)) = some key := by
  have hread :
      Text.Decimal.readUnsigned κ (Text.Decimal.text (Unsigned.toNat key)).toList = .ok key := by
    rw [Text.Decimal.text, String.toList_ofList]
    exact Text.Decimal.readUnsigned_digits key
  simp [keyNumber?, hread]

theorem keyNumber?_eq_some_iff {key : String} {number : κ} :
    keyNumber? κ key = some number ↔ key = Text.Decimal.text (Unsigned.toNat number) := by
  refine ⟨fun h => ?_, fun hkey => hkey ▸ keyNumber?_text number⟩
  unfold keyNumber? at h
  split at h
  · split at h
    · next htext =>
      obtain rfl := Option.some.inj h
      exact htext.symm
    · cases h
  · cases h

/-- The member under which an entry of a table is written. -/
def tableMember (codec : Codec α) (entry : κ × α) : String × Json :=
  (Text.Decimal.text (Unsigned.toNat entry.1), codec.write entry.2)

/-- The entry that a member of an object stands for. -/
def memberEntry (κ : Type) [Unsigned κ] (codec : Codec α)
    (member : String × Json) : Option (κ × α) := do
  return (← keyNumber? κ member.1, ← codec.read? member.2)

theorem memberEntry_eq_some_iff {member : String × Json} {entry : κ × α} :
    memberEntry κ codec member = some entry ↔
      member.1 = Text.Decimal.text (Unsigned.toNat entry.1) ∧
        codec.read? member.2 = some entry.2 := by
  obtain ⟨key, value⟩ := entry
  simp [memberEntry, Option.bind_eq_some_iff, keyNumber?_eq_some_iff]

/-- What is gathered from members is what the last value of each key is read as. -/
theorem mem_iff_of_mapM_memberEntry {members : List (String × Json)} {entries : List (κ × α)}
    {entry : κ × α}
    (hentries : (distinctMembers members).mapM (memberEntry κ codec) = some entries) :
    entry ∈ entries ↔
      ∃ json, lookup (Text.Decimal.text (Unsigned.toNat entry.1)) members = some json ∧
        codec.read? json = some entry.2 := by
  rw [mem_iff_of_mapM hentries]
  simp [memberEntry_eq_some_iff, mem_distinctMembers_iff]

theorem apart_of_mapM_memberEntry {members : List (String × Json)} {entries : List (κ × α)}
    (hentries : (distinctMembers members).mapM (memberEntry κ codec) = some entries) :
    entries.Pairwise Table.Apart := by
  have hkeys : (distinctMembers members).map Prod.fst =
      entries.map fun entry => Text.Decimal.text (Unsigned.toNat entry.1) := by
    rw [← List.forall₂_eq_eq_eq, List.forall₂_map_left_iff, List.forall₂_map_right_iff]
    exact (mapM_eq_some_iff_forall₂.1 hentries).imp fun _ _ h => (memberEntry_eq_some_iff.1 h).1
  have hascending := List.pairwise_map.2 (ascending_distinctMembers members)
  rw [hkeys] at hascending
  refine (List.pairwise_map.1 hascending).imp fun {entry other} hlt hsame => ?_
  rw [hsame] at hlt
  exact String.lt_irrefl _ hlt

/-- The keys of the members are those of the entries that are gathered. -/
theorem keys_iff_of_mapM_memberEntry {members : List (String × Json)} {entries : List (κ × α)}
    {key : String}
    (hentries : (distinctMembers members).mapM (memberEntry κ codec) = some entries) :
    key ∈ members.map Prod.fst ↔
      ∃ entry ∈ entries, key = Text.Decimal.text (Unsigned.toNat entry.1) := by
  rw [← exists_lookup_iff]
  constructor
  · rintro ⟨value, hvalue⟩
    obtain ⟨entry, hentry, hmember⟩ :=
      exists_of_mem_mapM hentries (mem_distinctMembers_iff.2 hvalue)
    exact ⟨entry, hentry, (memberEntry_eq_some_iff.1 hmember).1⟩
  · rintro ⟨entry, hentry, rfl⟩
    obtain ⟨json, hjson, -⟩ := (mem_iff_of_mapM_memberEntry hentries).1 hentry
    exact ⟨json, hjson⟩

/-- Where entries have the keys of the members, and their values, each value of a key is that of an
entry. -/
theorem exists_entry_of_lookup {members : List (String × Json)} {entries : List (κ × α)}
    {key : String} {value : Json}
    (hkeys : ∀ key, key ∈ members.map Prod.fst ↔
      ∃ entry ∈ entries, key = Text.Decimal.text (Unsigned.toNat entry.1))
    (hvalues : ∀ entry ∈ entries, ∃ json,
      lookup (Text.Decimal.text (Unsigned.toNat entry.1)) members = some json ∧
      codec.read? json = some entry.2) (hvalue : lookup key members = some value) :
    ∃ entry ∈ entries, key = Text.Decimal.text (Unsigned.toNat entry.1) ∧
      codec.read? value = some entry.2 := by
  obtain ⟨entry, hentry, rfl⟩ := (hkeys key).1 (exists_lookup_iff.1 ⟨value, hvalue⟩)
  obtain ⟨json, hjson, hread⟩ := hvalues entry hentry
  obtain rfl := Option.some.inj (hvalue.symm.trans hjson)
  exact ⟨entry, hentry, rfl, hread⟩

/-- A table is read by gathering the entries of the members. -/
theorem table_read?_eq_some_iff {members : List (String × Json)} {read : Table κ α} :
    (table κ codec).read? (.obj members) = some read ↔ ∃ entries,
      (distinctMembers members).mapM (memberEntry κ codec) = some entries ∧
        Table.ofList entries = read := by
  show ((distinctMembers members).mapM (memberEntry κ codec)).bind
    (some ∘ Table.ofList) = some read ↔ _
  simp [Option.bind_eq_some_iff]

/-- A table is read from an object whose keys are those of its entries. Each entry has the value of
the last member with its key. -/
theorem table_read?_iff {members : List (String × Json)} {read : Table κ α} :
    (table κ codec).read? (.obj members) = some read ↔
      (∀ key, key ∈ members.map Prod.fst ↔
        ∃ entry ∈ read.entries, key = Text.Decimal.text (Unsigned.toNat entry.1)) ∧
      ∀ entry ∈ read.entries, ∃ json, lookup (Text.Decimal.text (Unsigned.toNat entry.1))
        members = some json ∧ codec.read? json = some entry.2 := by
  rw [table_read?_eq_some_iff]
  constructor
  · rintro ⟨entries, hentries, rfl⟩
    have hperm : (Table.ofList entries).entries.Perm entries :=
      Table.entries_ofList_perm (apart_of_mapM_memberEntry hentries)
    simp only [hperm.mem_iff]
    exact ⟨fun key => keys_iff_of_mapM_memberEntry hentries,
      fun entry => (mem_iff_of_mapM_memberEntry hentries).1⟩
  · rintro ⟨hkeys, hvalues⟩
    obtain ⟨entries, hentries⟩ :
        ∃ entries, (distinctMembers members).mapM (memberEntry κ codec) = some entries := by
      refine exists_mapM fun member hmember => ?_
      obtain ⟨entry, -, hkey, hvalue⟩ :=
        exists_entry_of_lookup hkeys hvalues (mem_distinctMembers_iff.1 hmember)
      exact ⟨entry, memberEntry_eq_some_iff.2 ⟨hkey, hvalue⟩⟩
    -- Both have one entry for each key, so they are the same in some order, and a table is in the
    -- order of its keys.
    refine ⟨entries, hentries, Table.ofList_of_perm ?_⟩
    refine (List.perm_ext_iff_of_nodup (Table.nodup_of_apart (apart_of_mapM_memberEntry hentries))
      (Table.nodup_of_apart read.apart_entries)).2 fun entry => ?_
    rw [mem_iff_of_mapM_memberEntry hentries]
    refine ⟨fun ⟨json, hjson, hentryRead⟩ => ?_, hvalues entry⟩
    obtain ⟨other, hother, hkey, hotherRead⟩ := exists_entry_of_lookup hkeys hvalues hjson
    have hsame : entry = other := Prod.ext (Unsigned.toNat_inj (Text.Decimal.text_inj hkey))
      (Option.some.inj (hentryRead.symm.trans hotherRead))
    exact hsame ▸ hother

theorem plainMembers_map_tableMember (h : codec.Lawful depth) (entries : List (κ × α)) :
    PlainMembers depth (entries.map (tableMember codec)) := by
  induction entries with
  | nil => trivial
  | cons entry rest ih => exact ⟨h.plain entry.2, ih⟩

/-- Each entry is written under its own key, and its member is read as the entry. -/
theorem exists_rereadMembers?_map (h : codec.Lawful depth) (entries : List (κ × α)) :
    ∃ written, rereadMembers? (entries.map (tableMember codec)) = some written ∧
      written.map (·.1) = entries.map (fun entry => Text.Decimal.text (Unsigned.toNat entry.1)) ∧
      List.Forall₂ (fun member entry => memberEntry κ codec member = some entry)
        written entries := by
  induction entries with
  | nil => exact ⟨[], rfl, rfl, .nil⟩
  | cons entry rest ih =>
      obtain ⟨written, hwritten, hkeys, hall⟩ := ih
      obtain ⟨json, hjson⟩ : ∃ json, reread? (codec.write entry.2) = some json :=
        h.exists_reread trivial
      have hread : codec.read? json = some entry.2 := (h.read?_iff hjson).2 ⟨rfl, trivial⟩
      refine ⟨_, rereadMembers?_cons.2 ⟨json, written, hjson, hwritten, rfl⟩, by simp [hkeys],
        .cons ?_ hall⟩
      simp [memberEntry, keyNumber?_text, hread]

theorem lawful_table (h : codec.Lawful depth) : (table κ codec).Lawful (depth + 1) where
  plain value := plainMembers_map_tableMember h value.entries
  reads value read := by
    obtain ⟨written, hwritten, hkeys, hall⟩ := exists_rereadMembers?_map h value.entries
    have hdistinct : written.Pairwise fun a b => a.1 ≠ b.1 := by
      rw [← List.pairwise_map, hkeys, List.pairwise_map]
      exact value.apart_entries.imp fun hapart hsame => hapart (Text.Decimal.text_inj hsame)
    -- The reader sorts the members by their texts, so it finds the entries in another order.
    obtain ⟨entries, hentries, hperm⟩ :=
      List.perm_comp_forall₂ (distinctMembers_perm hdistinct) hall
    have hread : (table κ codec).read? (.obj written) = some value :=
      table_read?_eq_some_iff.2 ⟨entries, mapM_eq_some_iff_forall₂.2 hentries,
        Table.ofList_of_perm hperm⟩
    have hreread : reread? ((table κ codec).write value) = some (.obj written) :=
      congrArg (Option.map Json.obj) hwritten
    rw [hreread, Option.bind_some, hread]
    simp [eq_comm]

end Codec

end Json

end ShardNet
