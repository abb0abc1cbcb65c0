import TapeBreeder.Json.Record

/-!
# Edited records

Whoever writes a configuration by hand starts from one that the program has written, leaves out
fields at any depth and puts the others into any order. What a reader sees of such a record does not
depend on the order: a field that has been left out is missing, and any other has its value, edited
in the same way.

* `FieldSet` — fields of nested records, by the keys that lead to them.
* `Json.delete`, `Json.Reorders` — leaving out fields, and changing the order of keys.
* `Json.Reads` — what is read of a value, whatever the order of its keys.
* `Json.exists_slots` — what a reader sees of an edited record.
* `Json.Slot.Shows.default_eq` — what it makes of a field.
-/

namespace TapeBreeder

/-! ## Sets of fields -/

/-- A set of fields of nested records: whether the field that some keys lead to is in it. -/
def FieldSet :=
  List String → Bool

namespace FieldSet

/-- The fields of the set within the field with a name. -/
def below (omitted : FieldSet) (name : String) : FieldSet :=
  fun path => omitted (name :: path)

/-- The value of a field, or its default if the field is in the set. -/
def choose {α : Type} (omitted : FieldSet) (name : String) (standard value : α) : α :=
  if omitted [name] then standard else value

end FieldSet

namespace Json

/-! ## Edits -/

mutual

/-- A value without some fields of the objects in it. -/
def delete (omitted : FieldSet) : Json → Json
  | object entries => object (deleteEntries omitted entries)
  | value => value

/-- The entries of an object without some fields. -/
def deleteEntries (omitted : FieldSet) : List (Text × Json) → List (Text × Json)
  | [] => []
  | (none, value) :: rest => (none, value) :: deleteEntries omitted rest
  | (some name, value) :: rest =>
    if omitted [name] then deleteEntries omitted rest
    else (some name, value.delete (omitted.below name)) :: deleteEntries omitted rest

end

mutual

/-- Whether two values differ in the order of keys only. -/
inductive Reorders : Json → Json → Prop where
  | refl (value : Json) : Reorders value value
  | object {entries middle others : List (Text × Json)} (hvalues : ReordersEach entries middle)
      (horder : middle.Perm others) : Reorders (object entries) (object others)

/-- Whether entries with the same keys have values that differ in the order of keys only. -/
inductive ReordersEach : List (Text × Json) → List (Text × Json) → Prop where
  | nil : ReordersEach [] []
  | cons {key : Text} {value other : Json} {entries others : List (Text × Json)}
      (hvalue : Reorders value other) (hrest : ReordersEach entries others) :
      ReordersEach ((key, value) :: entries) ((key, other) :: others)

end

/-- Whether a value is no object and has no keys to edit. -/
def isScalar : Json → Bool
  | object _ => false
  | _ => true

/-- A value without keys has nothing to leave out, so that a reader of numbers or names need not
know about edits. -/
theorem delete_of_isScalar {value : Json} (h : value.isScalar) (omitted : FieldSet) :
    value.delete omitted = value := by
  cases value with
  | object entries => exact absurd h Bool.false_ne_true
  | _ => rfl

/-- A value without keys has no order to change. With `delete_of_isScalar` it is met as it was
written. -/
theorem Reorders.eq_of_isScalar {value other : Json} (h : value.isScalar)
    (horder : Reorders value other) : other = value := by
  cases horder with
  | refl => rfl
  | object _ _ => exact absurd h Bool.false_ne_true

/-! ## Keys -/

/-- The two cases of looking up a field, an entry for it and any other, are all that the inductions
on entries below need. -/
theorem entriesFor_cons_self (name : String) (value : Json) (rest : List (Text × Json)) :
    entriesFor name ((some name, value) :: rest) = (some name, value) :: entriesFor name rest := by
  apply List.filter_cons_of_pos
  exact beq_self_eq_true (some name)

/-- An entry with another key, or with one that is no text, does not count for a field. -/
theorem entriesFor_cons_of_ne {key : Text} {name : String} (h : key ≠ some name) (value : Json)
    (rest : List (Text × Json)) :
    entriesFor name ((key, value) :: rest) = entriesFor name rest := by
  apply List.filter_cons_of_neg
  intro hkey
  exact h (eq_of_beq hkey)

/-- Deletion leaves the entries of other fields, with their values edited. -/
theorem entriesFor_deleteEntries (omitted : FieldSet) (name : String)
    (entries : List (Text × Json)) :
    entriesFor name (deleteEntries omitted entries) =
      if omitted [name] then []
      else (entriesFor name entries).map fun entry =>
        (entry.1, entry.2.delete (omitted.below name)) := by
  induction entries with
  | nil =>
    split <;> rfl
  | cons entry rest ih =>
    rcases entry with ⟨key, value⟩
    cases key with
    | none =>
      have hne : none ≠ some name := nofun
      rw [deleteEntries, entriesFor_cons_of_ne hne, entriesFor_cons_of_ne hne, ih]
    | some key =>
      rw [deleteEntries]
      by_cases hkey : key = name
      · subst hkey
        rw [entriesFor_cons_self]
        by_cases homitted : omitted [key]
        · rw [if_pos homitted, ih, if_pos homitted, if_pos homitted]
        · rw [if_neg homitted, entriesFor_cons_self, ih, if_neg homitted, if_neg homitted,
            List.map_cons]
      · -- An entry with another key is not counted, whether it is left out or not.
        have hne : some key ≠ some name := by
          intro hsame
          exact hkey (Option.some.inj hsame)
        rw [entriesFor_cons_of_ne hne, ← ih]
        by_cases homitted : omitted [key]
        · rw [if_pos homitted]
        · rw [if_neg homitted, entriesFor_cons_of_ne hne]

/-- Looking up a field does not see the order of keys within the values. -/
theorem ReordersEach.entriesFor {entries others : List (Text × Json)}
    (h : ReordersEach entries others) (name : String) :
    ReordersEach (entriesFor name entries) (entriesFor name others) := by
  induction entries generalizing others with
  | nil =>
    cases h
    exact .nil
  | cons entry rest ih =>
    cases h with
    | @cons key value other _ others hvalue hrest =>
      -- The key is the same on both sides, so an entry is found in both or in neither.
      by_cases hkey : key = some name
      · subst hkey
        rw [entriesFor_cons_self, entriesFor_cons_self]
        exact .cons hvalue (ih hrest)
      · rw [entriesFor_cons_of_ne hkey, entriesFor_cons_of_ne hkey]
        exact ih hrest

/-- Editing values leaves the keys, and their order, alone. -/
theorem ReordersEach.keys_eq {entries others : List (Text × Json)}
    (h : ReordersEach entries others) : others.map Prod.fst = entries.map Prod.fst := by
  induction entries generalizing others with
  | nil =>
    cases h
    rfl
  | cons entry rest ih =>
    cases h with
    | cons _ hrest => rw [List.map_cons, List.map_cons, ih hrest]

/-- Leaving out fields brings in no key, so that an edited record has no field that its reader does
not know. -/
theorem keys_deleteEntries (omitted : FieldSet) (entries : List (Text × Json)) :
    (deleteEntries omitted entries).map Prod.fst ⊆ entries.map Prod.fst := by
  induction entries with
  | nil => exact List.Subset.refl _
  | cons entry rest ih =>
    rcases entry with ⟨key, value⟩
    have hrest : (deleteEntries omitted rest).map Prod.fst ⊆ ((key, value) :: rest).map Prod.fst :=
      List.subset_cons_of_subset key ih
    cases key with
    | none =>
      rw [deleteEntries]
      exact List.cons_subset_cons _ ih
    | some name =>
      rw [deleteEntries]
      by_cases hdeleted : omitted [name]
      · rw [if_pos hdeleted]
        exact hrest
      · rw [if_neg hdeleted]
        exact List.cons_subset_cons _ ih

/-! ## Slots -/

/-- What the slot of a field holds once the record has been edited. -/
def Slot.Shows (omitted : FieldSet) (field : String × Json) (slot : Slot) : Prop :=
  omitted [field.1] = true ∧ slot = .keyMissing ∨
    omitted [field.1] = false ∧ ∃ value, slot = .given value ∧
      Reorders (field.2.delete (omitted.below field.1)) value

/-- What is read of a value, whatever the order of its keys. -/
def Reads {α : Type} (read : Json → Option α) (value : Json) (a : α) : Prop :=
  ∀ other, Reorders value other → read other = some a

/-- What is read of a value without keys is read of all its edits: nothing can be left out of it or
moved. -/
theorem reads_of_isScalar {α : Type} {read : Json → Option α} {value : Json} {a : α}
    (hscalar : value.isScalar) (h : read value = some a) (omitted : FieldSet) :
    Reads read (value.delete omitted) a := by
  intro other horder
  rw [delete_of_isScalar hscalar] at horder
  rw [horder.eq_of_isScalar hscalar]
  exact h

/-- A field that has been left out has its default, and any other one the value that is read. -/
theorem Slot.Shows.default_eq {α : Type} {omitted : FieldSet} {name : String} {value : Json}
    {slot : Slot} {read : Json → Option α} {a : α} (h : slot.Shows omitted (name, value))
    (hread : Reads read (value.delete (omitted.below name)) a) (standard : α) :
    slot.default standard read = some (omitted.choose name standard a) := by
  unfold FieldSet.choose
  rcases h with ⟨hdeleted, rfl⟩ | ⟨hkept, other, rfl, horder⟩
  · rw [if_pos hdeleted]
    rfl
  · rw [if_neg (Bool.eq_false_iff.mp hkept)]
    exact hread other horder

/-! ## Edited records -/

/-- A record has one entry for each of its fields. -/
theorem entriesFor_record {members : List (String × Json)} (hnames : (members.map Prod.fst).Nodup)
    {member : String × Json} (hmember : member ∈ members) :
    entriesFor member.1 (members.map fun member => (some member.1, member.2)) =
      [(some member.1, member.2)] := by
  induction members with
  | nil => cases hmember
  | cons first rest ih =>
    rw [List.map_cons, List.nodup_cons] at hnames
    rw [List.map_cons]
    rcases List.mem_cons.mp hmember with rfl | hrest
    · -- Names are not repeated, so the entry at the front is the only one.
      have hothers :
          entriesFor member.1 (rest.map fun member => (some member.1, member.2)) = [] := by
        apply List.filter_eq_nil_iff.mpr
        intro entry hentry hkey
        rcases List.mem_map.mp hentry with ⟨other, hother, rfl⟩
        apply hnames.1
        rw [← Option.some.inj (eq_of_beq hkey)]
        exact List.mem_map_of_mem hother
      rw [entriesFor_cons_self, hothers]
    · have hne : some first.1 ≠ some member.1 := by
        intro hsame
        apply hnames.1
        rw [Option.some.inj hsame]
        exact List.mem_map_of_mem hrest
      rw [entriesFor_cons_of_ne hne]
      exact ih hnames.2 hrest

theorem ReordersEach.refl (entries : List (Text × Json)) : ReordersEach entries entries := by
  induction entries with
  | nil => exact .nil
  | cons entry rest ih => exact .cons (.refl entry.2) ih

/-- Both ways of reordering an object, in one form: edited values first, then another order of the
entries. -/
theorem Reorders.exists_object {entries : List (Text × Json)} {value : Json}
    (h : Reorders (Json.object entries) value) :
    ∃ middle others, value = Json.object others ∧ ReordersEach entries middle ∧
      middle.Perm others := by
  cases h with
  | refl => exact ⟨entries, entries, rfl, .refl entries, .refl entries⟩
  | @object _ middle others hvalues horder => exact ⟨middle, others, rfl, hvalues, horder⟩

/-- What is left of the entry for a field. -/
theorem entriesFor_edited {omitted : FieldSet} {members : List (String × Json)}
    {middle others : List (Text × Json)} (hnames : (members.map Prod.fst).Nodup)
    (hvalues : ReordersEach
      (deleteEntries omitted (members.map fun member => (some member.1, member.2))) middle)
    (horder : middle.Perm others) {member : String × Json} (hmember : member ∈ members) :
    omitted [member.1] = true ∧ entriesFor member.1 others = [] ∨
      omitted [member.1] = false ∧ ∃ value,
        entriesFor member.1 others = [(some member.1, value)] ∧
          Reorders (member.2.delete (omitted.below member.1)) value := by
  have hentries : ReordersEach _ (entriesFor member.1 middle) := hvalues.entriesFor member.1
  have hfiltered : (entriesFor member.1 middle).Perm (entriesFor member.1 others) :=
    horder.filter _
  -- Leaving out, editing and moving each act on the one entry for the field, in this order.
  rw [entriesFor_deleteEntries, entriesFor_record hnames hmember] at hentries
  generalize entriesFor member.1 middle = found at hentries hfiltered
  cases homitted : omitted [member.1] with
  | true =>
    rw [if_pos homitted] at hentries
    cases hentries
    exact .inl ⟨rfl, hfiltered.nil_eq.symm⟩
  | false =>
    rw [if_neg (Bool.eq_false_iff.mp homitted), List.map_singleton] at hentries
    cases hentries with
    | @cons _ _ value _ _ hvalue hrest =>
      cases hrest
      exact .inr ⟨rfl, value, (List.singleton_perm.mp hfiltered).symm, hvalue⟩

/-- Whatever is left out of a record and however its keys are ordered, each field is missing or has
its value, edited in the same way. -/
theorem exists_slots {omitted : FieldSet} {names : List String} {members : List (String × Json)}
    {value : Json} (hnodup : names.Nodup) (h : Reorders ((record members).delete omitted) value)
    (hnames : members.map Prod.fst = names) :
    ∃ slot, value.slots? names = some slot ∧
      ∀ member ∈ members, (slot member.1).Shows omitted member := by
  subst hnames
  rcases Reorders.exists_object h with ⟨middle, others, rfl, hvalues, horder⟩
  -- A reader turns an object down for a key that is no text or for a field that stands in it twice.
  -- Neither comes from edits.
  have hkeys : others.all (·.1.isSome) = true := by
    apply List.all_eq_true.mpr
    intro entry hentry
    have hkept : entry.1 ∈ middle.map Prod.fst :=
      List.mem_map_of_mem (horder.mem_iff.mpr hentry)
    rw [hvalues.keys_eq] at hkept
    have hkey := keys_deleteEntries _ _ hkept
    rw [List.map_map] at hkey
    rcases List.mem_map.mp hkey with ⟨member, -, hmember⟩
    rw [← hmember]
    rfl
  have honce : (members.map Prod.fst).all
      (fun name => (entriesFor name others).length ≤ 1) = true := by
    apply List.all_eq_true.mpr
    intro name hname
    rcases List.mem_map.mp hname with ⟨member, hmember, rfl⟩
    apply decide_eq_true
    rcases entriesFor_edited hnodup hvalues horder hmember with ⟨-, hnone⟩ | ⟨-, value, hone, -⟩
    · rw [hnone]
      exact Nat.zero_le 1
    · rw [hone]
      exact Nat.le_refl 1
  have haccepted : (others.all (·.1.isSome) && (members.map Prod.fst).all
      (fun name => (entriesFor name others).length ≤ 1)) = true := by
    rw [hkeys, honce]
    rfl
  -- What remains are the slots, field by field.
  refine ⟨_, if_pos haccepted, ?_⟩
  intro member hmember
  rcases entriesFor_edited hnodup hvalues horder hmember with
    ⟨homitted, hnone⟩ | ⟨hkept, value, hone, hvalue⟩
  · rw [hnone]
    exact .inl ⟨homitted, rfl⟩
  · rw [hone]
    exact .inr ⟨hkept, value, rfl, hvalue⟩

end Json

end TapeBreeder
