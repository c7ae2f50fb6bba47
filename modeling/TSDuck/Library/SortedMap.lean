import Mathlib.Data.List.Sort

/-!
# Maps with ordered keys

A `SortedMap` is a list of entries with strictly increasing keys: what an ordered associative
container holds, with its iteration order.

The map which is loaded from a list of records by updating, for each record, the value of its key
depends for each key on the records of that key only (`find?_foldl_update`).
-/

universe u v w

/-- A map, as the list of its entries in the order of their keys. -/
structure SortedMap (Key : Type u) (Value : Type v) [LinearOrder Key] where
  entries : List (Key × Value)
  sorted : entries.Pairwise fun first second ↦ first.1 < second.1

namespace SortedMap

variable {Key : Type u} {Value : Type v} [LinearOrder Key]

instance [DecidableEq Value] : DecidableEq (SortedMap Key Value) := fun first second ↦
  decidable_of_iff (first.entries = second.entries) (by
    rw [SortedMap.mk.injEq])

def empty : SortedMap Key Value := ⟨[], List.Pairwise.nil⟩

def find? (map : SortedMap Key Value) (key : Key) : Option Value := map.entries.lookup key

@[simp] theorem find?_empty (key : Key) : (empty : SortedMap Key Value).find? key = none :=
  rfl

/-- Assumes: another first key. The value is further. -/
theorem lookup_cons_of_ne {key : Key} {head : Key × Value} (hne : key ≠ head.1)
    (rest : List (Key × Value)) : (head :: rest).lookup key = rest.lookup key := by
  obtain ⟨headKey, headValue⟩ := head
  have hskip : (key == headKey) = false := beq_eq_false_iff_ne.mpr hne
  rw [List.lookup_cons, hskip]

def updateEntries (key : Key) (change : Option Value → Value) :
    List (Key × Value) → List (Key × Value)
  | [] => [(key, change none)]
  | entry :: rest =>
    if key < entry.1 then (key, change none) :: entry :: rest
    else if key = entry.1 then (key, change (some entry.2)) :: rest
    else entry :: updateEntries key change rest

variable (key : Key) (change : Option Value → Value)

/-- The keys after an update are the updated key and those of before. -/
theorem mem_updateEntries {entries : List (Key × Value)} {entry : Key × Value}
    (hmem : entry ∈ updateEntries key change entries) : entry.1 = key ∨ entry ∈ entries := by
  induction entries with
  | nil =>
    left
    rw [List.mem_singleton.mp hmem]
  | cons head rest ih =>
    unfold updateEntries at hmem
    split_ifs at hmem with hlt heq
    · rcases List.mem_cons.mp hmem with hnew | hold
      · left
        rw [hnew]
      · exact Or.inr hold
    · rcases List.mem_cons.mp hmem with hnew | hold
      · left
        rw [hnew]
      · exact Or.inr (List.mem_cons_of_mem _ hold)
    · rcases List.mem_cons.mp hmem with hhead | hrest
      · right
        rw [hhead]
        exact List.mem_cons_self
      · rcases ih hrest with hkey | hold
        · exact Or.inl hkey
        · exact Or.inr (List.mem_cons_of_mem _ hold)

theorem pairwise_updateEntries {entries : List (Key × Value)}
    (hsorted : entries.Pairwise fun first second ↦ first.1 < second.1) :
    (updateEntries key change entries).Pairwise fun first second ↦ first.1 < second.1 := by
  induction entries with
  | nil => exact List.pairwise_singleton _ _
  | cons head rest ih =>
    obtain ⟨hhead, hrest⟩ := List.pairwise_cons.mp hsorted
    unfold updateEntries
    split_ifs with hlt heq
    · apply List.pairwise_cons.mpr
      constructor
      · intro entry hentry
        rcases List.mem_cons.mp hentry with rfl | hold
        · exact hlt
        · exact hlt.trans (hhead entry hold)
      · exact hsorted
    · apply List.pairwise_cons.mpr
      constructor
      · intro entry hentry
        rw [heq]
        exact hhead entry hentry
      · exact hrest
    · apply List.pairwise_cons.mpr
      constructor
      · intro entry hentry
        rcases mem_updateEntries key change hentry with hkey | hold
        · rw [hkey]
          exact lt_of_le_of_ne (not_lt.mp hlt) (Ne.symm heq)
        · exact hhead entry hold
      · exact ih hrest

/-- Updates the value of a key, from its previous value when there is one. -/
def update (map : SortedMap Key Value) : SortedMap Key Value :=
  ⟨updateEntries key change map.entries, pairwise_updateEntries key change map.sorted⟩

theorem find?_update_self (map : SortedMap Key Value) :
    (map.update key change).find? key = some (change (map.find? key)) := by
  obtain ⟨entries, hsorted⟩ := map
  show (updateEntries key change entries).lookup key = some (change (entries.lookup key))
  induction entries with
  | nil => exact List.lookup_cons_self
  | cons head rest ih =>
    obtain ⟨hhead, hrest⟩ := List.pairwise_cons.mp hsorted
    unfold updateEntries
    split_ifs with hlt heq
    · have hnone : (head :: rest).lookup key = none := by
        apply List.lookup_eq_none_iff.mpr
        intro entry hentry
        apply bne_iff_ne.mpr
        rcases List.mem_cons.mp hentry with rfl | hold
        · exact hlt.ne
        · exact (hlt.trans (hhead entry hold)).ne
      rw [List.lookup_cons_self, hnone]
    · subst heq
      rw [List.lookup_cons_self, List.lookup_cons_self]
    · rw [lookup_cons_of_ne heq, ih hrest, lookup_cons_of_ne heq]

/-- Assumes: another key. Its value is left as it is. -/
theorem find?_update_of_ne {other : Key} (hother : other ≠ key) (map : SortedMap Key Value) :
    (map.update key change).find? other = map.find? other := by
  obtain ⟨entries, hsorted⟩ := map
  show (updateEntries key change entries).lookup other = entries.lookup other
  clear hsorted
  induction entries with
  | nil => exact lookup_cons_of_ne hother []
  | cons head rest ih =>
    unfold updateEntries
    split_ifs with hlt heq
    · exact lookup_cons_of_ne hother (head :: rest)
    · rw [lookup_cons_of_ne (show other ≠ (key, _).1 from hother), lookup_cons_of_ne (heq ▸ hother)]
    · rw [List.lookup_cons, ih, List.lookup_cons]

theorem find?_update (map : SortedMap Key Value) (other : Key) :
    (map.update key change).find? other =
      if other = key then some (change (map.find? other)) else map.find? other := by
  split_ifs with heq
  · rw [heq]
    exact find?_update_self key change map
  · exact find?_update_of_ne key change heq map

variable {key} {map : SortedMap Key Value}

/-- Assumes: different keys. An entry is a key and its value. -/
theorem mem_iff_lookup {entries : List (Key × Value)}
    (hkeys : entries.Pairwise fun first second ↦ first.1 ≠ second.1) {value : Value} :
    (key, value) ∈ entries ↔ entries.lookup key = some value := by
  induction entries with
  | nil => simp
  | cons head rest ih =>
    obtain ⟨hhead, hrest⟩ := List.pairwise_cons.mp hkeys
    rw [List.mem_cons]
    by_cases heq : key = head.1
    · subst heq
      have hnotin : (head.1, value) ∉ rest := fun hin ↦ hhead (head.1, value) hin rfl
      rw [List.lookup_cons_self, Option.some.injEq]
      constructor
      · rintro (hhere | hin)
        · rw [← hhere]
        · exact absurd hin hnotin
      · rintro rfl
        exact Or.inl rfl
    · rw [lookup_cons_of_ne heq, ← ih hrest]
      constructor
      · rintro (hhere | hin)
        · exact absurd (congrArg Prod.fst hhere) heq
        · exact hin
      · exact Or.inr

theorem pairwise_ne (map : SortedMap Key Value) :
    map.entries.Pairwise fun first second ↦ first.1 ≠ second.1 :=
  map.sorted.imp fun hlt ↦ hlt.ne

/-- The entries are the keys with their values. -/
theorem mem_entries_iff {value : Value} :
    (key, value) ∈ map.entries ↔ map.find? key = some value :=
  mem_iff_lookup map.pairwise_ne

/-- Two maps with the same values are equal. -/
theorem ext_find? {other : SortedMap Key Value}
    (hsame : ∀ key, map.find? key = other.find? key) : map = other := by
  have hentries : map.entries = other.entries := by
    have hnodup : ∀ map : SortedMap Key Value, map.entries.Nodup := by
      intro map
      apply map.sorted.imp
      rintro first second hlt rfl
      exact lt_irrefl _ hlt
    apply List.Perm.eq_of_pairwise _ map.sorted other.sorted
    · apply (List.perm_ext_iff_of_nodup (hnodup map) (hnodup other)).mpr
      rintro ⟨key, value⟩
      rw [mem_entries_iff, mem_entries_iff, hsame]
    · intro first second _ _ hlt hgt
      exact absurd (hlt.trans hgt) (lt_irrefl _)
  obtain ⟨entries, hsorted⟩ := map
  obtain ⟨others, hothers⟩ := other
  simp only [SortedMap.mk.injEq]
  exact hentries

variable {Record : Type w} (keyOf : Record → Key) (put : Record → Option Value → Value)

/-- The value of a key depends on the records of that key. -/
theorem find?_foldl_update (records : List Record) (map : SortedMap Key Value) (key : Key) :
    (records.foldl (fun map record ↦ map.update (keyOf record) (put record)) map).find? key =
      (records.filter fun record ↦ keyOf record = key).foldl
        (fun value record ↦ some (put record value)) (map.find? key) := by
  induction records generalizing map with
  | nil => rfl
  | cons record rest ih =>
    rw [List.foldl_cons, ih, find?_update]
    by_cases hkey : key = keyOf record
    · subst hkey
      rw [if_pos rfl, List.filter_cons, if_pos (decide_eq_true rfl), List.foldl_cons]
    · have hskip : ¬ decide (keyOf record = key) = true := by
        rw [decide_eq_true_iff]
        exact fun heq ↦ hkey heq.symm
      rw [if_neg hkey, List.filter_cons, if_neg hskip]

/-- Assumes: records which make each value. They make the map. -/
theorem foldl_update_eq {records : List Record} {map : SortedMap Key Value}
    (hvalues : ∀ key, (records.filter fun record ↦ keyOf record = key).foldl
      (fun value record ↦ some (put record value)) none = map.find? key) :
    records.foldl (fun map record ↦ map.update (keyOf record) (put record)) empty = map := by
  apply ext_find?
  intro key
  rw [find?_foldl_update, find?_empty, hvalues]

/-- The records of an entry: they have its key, and they make its value. -/
def MakeEntry (entry : Key × Value) (part : List Record) : Prop :=
  (∀ record ∈ part, keyOf record = entry.1) ∧
    part.foldl (fun value record ↦ some (put record value)) none = some entry.2

variable {keyOf put}

omit [LinearOrder Key] in
/-- Assumes: records of some entries. They have their keys. -/
theorem exists_entry_of_mem {entries : List (Key × Value)} {parts : List (List Record)}
    (hparts : List.Forall₂ (MakeEntry keyOf put) entries parts) {record : Record}
    (hmem : record ∈ parts.flatten) : ∃ entry ∈ entries, keyOf record = entry.1 := by
  induction hparts with
  | nil => exact absurd hmem List.not_mem_nil
  | cons hpart _ ih =>
    rw [List.flatten_cons, List.mem_append] at hmem
    rcases hmem with hhere | hrest
    · exact ⟨_, List.mem_cons_self, hpart.1 record hhere⟩
    · obtain ⟨entry, hentry, hkey⟩ := ih hrest
      exact ⟨entry, List.mem_cons_of_mem _ hentry, hkey⟩

/-- The value of a key is made by the records of that key, in their order. -/
theorem foldl_filter_flatten {entries : List (Key × Value)} {parts : List (List Record)}
    (hkeys : entries.Pairwise fun first second ↦ first.1 ≠ second.1)
    (hparts : List.Forall₂ (MakeEntry keyOf put) entries parts) (key : Key) :
    (parts.flatten.filter fun record ↦ keyOf record = key).foldl
      (fun value record ↦ some (put record value)) none = entries.lookup key := by
  induction hparts with
  | nil => rfl
  | @cons entry part rest parts hpart hparts ih =>
    obtain ⟨hhead, hrest⟩ := List.pairwise_cons.mp hkeys
    rw [List.flatten_cons, List.filter_append]
    by_cases hkey : key = entry.1
    · subst hkey
      have hall : (part.filter fun record ↦ keyOf record = entry.1) = part := by
        apply List.filter_eq_self.mpr
        intro record hrecord
        exact decide_eq_true (hpart.1 record hrecord)
      have hnone : (parts.flatten.filter fun record ↦ keyOf record = entry.1) = [] := by
        apply List.filter_eq_nil_iff.mpr
        intro record hrecord hsame
        obtain ⟨other, hother, hkey⟩ := exists_entry_of_mem hparts hrecord
        exact hhead other hother ((of_decide_eq_true hsame).symm.trans hkey)
      rw [hall, hnone, List.append_nil, hpart.2]
      exact List.lookup_cons_self.symm
    · have hnone : (part.filter fun record ↦ keyOf record = key) = [] := by
        apply List.filter_eq_nil_iff.mpr
        intro record hrecord hsame
        exact hkey ((of_decide_eq_true hsame).symm.trans (hpart.1 record hrecord))
      rw [hnone, List.nil_append, lookup_cons_of_ne hkey]
      exact ih hrest

variable (keyOf put)

/-- A map is loaded from the records of its entries, in any order. -/
theorem foldl_update_flatten {entries : List (Key × Value)} {parts : List (List Record)}
    (hperm : entries.Perm map.entries)
    (hparts : List.Forall₂ (MakeEntry keyOf put) entries parts) :
    parts.flatten.foldl (fun map record ↦ map.update (keyOf record) (put record)) empty = map := by
  have hkeys : entries.Pairwise fun first second ↦ first.1 ≠ second.1 :=
    hperm.symm.pairwise map.pairwise_ne fun hne ↦ hne.symm
  apply foldl_update_eq
  intro key
  rw [foldl_filter_flatten hkeys hparts]
  apply Option.ext
  intro value
  show entries.lookup key = some value ↔ map.find? key = some value
  rw [← mem_iff_lookup hkeys, ← mem_entries_iff]
  exact hperm.mem_iff

/-- A map is loaded from its own entries. -/
theorem foldl_update_entries (map : SortedMap Key Value) :
    map.entries.foldl (fun map entry ↦ map.update entry.1 fun _ ↦ entry.2) empty = map := by
  have hparts : List.Forall₂ (MakeEntry Prod.fst fun entry _ ↦ entry.2) map.entries
      (map.entries.map fun entry ↦ [entry]) := by
    rw [List.forall₂_map_right_iff]
    apply List.forall₂_same.mpr
    intro entry _
    constructor
    · intro record hrecord
      rw [List.mem_singleton.mp hrecord]
    · rfl
  have hload := foldl_update_flatten _ _ (List.Perm.refl _) hparts
  rw [← List.flatMap_def, List.flatMap_singleton'] at hload
  exact hload

variable {Other : Type w}

def mapValues (change : Value → Other) (map : SortedMap Key Value) : SortedMap Key Other where
  entries := map.entries.map fun entry ↦ (entry.1, change entry.2)
  sorted := List.pairwise_map.mpr map.sorted

theorem mapValues_id (map : SortedMap Key Value) : map.mapValues id = map := by
  rw [SortedMap.mk.injEq]
  exact List.map_id' map.entries

theorem mapValues_mapValues {Third : Type*} (first : Value → Other) (second : Other → Third)
    (map : SortedMap Key Value) :
    (map.mapValues first).mapValues second = map.mapValues fun value ↦ second (first value) := by
  rw [SortedMap.mk.injEq]
  exact List.map_map

/-- A map with other values is loaded from the entries of a map. -/
theorem foldl_update_mapValues (change : Value → Other) (put : Key × Value → Option Other → Other)
    (hput : ∀ entry, put entry none = change entry.2) (map : SortedMap Key Value) :
    map.entries.foldl (fun loaded entry ↦ loaded.update entry.1 (put entry)) empty =
      map.mapValues change := by
  have hparts : List.Forall₂ (MakeEntry Prod.fst put) (map.mapValues change).entries
      (map.entries.map fun entry ↦ [entry]) := by
    show List.Forall₂ _ (map.entries.map _) _
    rw [List.forall₂_map_left_iff, List.forall₂_map_right_iff]
    apply List.forall₂_same.mpr
    intro entry _
    constructor
    · intro record hrecord
      rw [List.mem_singleton.mp hrecord]
    · show some (put entry none) = some (change entry.2)
      rw [hput]
  have hload := foldl_update_flatten _ _ (List.Perm.refl _) hparts
  rw [← List.flatMap_def, List.flatMap_singleton'] at hload
  exact hload

def filter (keep : Key × Value → Bool) (map : SortedMap Key Value) : SortedMap Key Value where
  entries := map.entries.filter keep
  sorted := map.sorted.filter keep

def upTo (bound : Key) (map : SortedMap Key Value) : List (Key × Value) :=
  map.entries.takeWhile fun entry ↦ entry.1 ≤ bound

def above (bound : Key) (map : SortedMap Key Value) : SortedMap Key Value where
  entries := map.entries.dropWhile fun entry ↦ entry.1 ≤ bound
  sorted := map.sorted.sublist (List.dropWhile_sublist _)

theorem mem_filter {keep : Key × Value → Bool} {entry : Key × Value} :
    entry ∈ (map.filter keep).entries ↔ entry ∈ map.entries ∧ keep entry = true :=
  List.mem_filter

theorem sorted_upTo (bound : Key) (map : SortedMap Key Value) :
    (map.upTo bound).Pairwise fun first second ↦ first.1 < second.1 :=
  map.sorted.sublist (List.takeWhile_sublist _)

/-- The entries up to a bound, and the other ones. -/
theorem mem_upTo_and_mem_above (bound : Key) (map : SortedMap Key Value) (entry : Key × Value) :
    (entry ∈ map.upTo bound ↔ entry ∈ map.entries ∧ entry.1 ≤ bound) ∧
      (entry ∈ (map.above bound).entries ↔ entry ∈ map.entries ∧ bound < entry.1) := by
  obtain ⟨entries, hsorted⟩ := map
  show (entry ∈ entries.takeWhile _ ↔ entry ∈ entries ∧ _) ∧
    (entry ∈ entries.dropWhile _ ↔ entry ∈ entries ∧ _)
  induction entries with
  | nil => simp
  | cons head rest ih =>
    obtain ⟨hhead, hrest⟩ := List.pairwise_cons.mp hsorted
    obtain ⟨hupTo, habove⟩ := ih hrest
    rcases le_or_gt head.1 bound with hle | hgt
    · rw [List.takeWhile_cons, List.dropWhile_cons, if_pos (decide_eq_true hle),
        if_pos (decide_eq_true hle), List.mem_cons, List.mem_cons, hupTo, habove]
      constructor
      · constructor
        · rintro (rfl | hin)
          · exact ⟨Or.inl rfl, hle⟩
          · exact ⟨Or.inr hin.1, hin.2⟩
        · rintro ⟨rfl | hin, hbound⟩
          · exact Or.inl rfl
          · exact Or.inr ⟨hin, hbound⟩
      · constructor
        · exact fun hin ↦ ⟨Or.inr hin.1, hin.2⟩
        · rintro ⟨rfl | hin, hbound⟩
          · exact absurd hbound (not_lt_of_ge hle)
          · exact ⟨hin, hbound⟩
    · have hnot : ¬decide (head.1 ≤ bound) = true := by
        rw [decide_eq_true_iff]
        exact not_le_of_gt hgt
      have hall : ∀ other ∈ head :: rest, bound < other.1 := by
        intro other hother
        rcases List.mem_cons.mp hother with rfl | hin
        · exact hgt
        · exact hgt.trans (hhead other hin)
      rw [List.takeWhile_cons, List.dropWhile_cons, if_neg hnot, if_neg hnot]
      constructor
      · refine iff_of_false List.not_mem_nil fun hin ↦ ?_
        exact absurd hin.2 (not_le_of_gt (hall entry hin.1))
      · exact (and_iff_left_of_imp (hall entry)).symm

theorem mem_upTo {bound : Key} {entry : Key × Value} :
    entry ∈ map.upTo bound ↔ entry ∈ map.entries ∧ entry.1 ≤ bound :=
  (mem_upTo_and_mem_above bound map entry).1

theorem mem_above {bound : Key} {entry : Key × Value} :
    entry ∈ (map.above bound).entries ↔ entry ∈ map.entries ∧ bound < entry.1 :=
  (mem_upTo_and_mem_above bound map entry).2

/-- The entries of a map where a key has a new value. -/
theorem mem_update_iff {value : Value} {entry : Key × Value} :
    entry ∈ (map.update key fun _ ↦ value).entries ↔
      entry = (key, value) ∨ entry ∈ map.entries ∧ entry.1 ≠ key := by
  obtain ⟨other, otherValue⟩ := entry
  rw [mem_entries_iff, find?_update, Prod.mk.injEq, mem_entries_iff]
  split_ifs with heq
  · rw [Option.some.injEq, and_iff_right heq, or_iff_left fun hin ↦ hin.2 heq, eq_comm]
  · rw [or_iff_right fun hin ↦ heq hin.1, and_iff_left heq]

end SortedMap
