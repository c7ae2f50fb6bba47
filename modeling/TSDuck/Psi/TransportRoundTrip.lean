import TSDuck.Psi.TransportPlacement

/-!
# Round trip of tables with transport streams

The loops of the serialization are run on drafts. The descriptors of the table make the first draft
(`writeDescriptors_topEntry`). The invariant of the loop on transport streams is `Distributed`:
those which are written are cut into the entries of the draft and are placed, and there is a reason
for each one which is still in the set and which prefers a closed section.
-/

namespace TSDuck

namespace AbstractTransportListTable

/-! ### The descriptors of the table -/

variable {table : AbstractTransportListTable} {tsSet : List TransportStreamId} {number : ℕ}

def entryOf (table : AbstractTransportListTable) (id : TransportStreamId) :
    TransportStreamId × DescriptorList :=
  (id, (table.transports.find? id).getD [])

/-- The streams are written and placed, or still in the set with a reason if their section is
closed. -/
structure Distributed (table : AbstractTransportListTable) (draft : TableDraft)
    (written waiting : List TransportStreamId) : Prop where
  descs : draft.sections.flatMap TransportSection.descs = table.descs
  perm : (written ++ waiting).Perm (table.transports.entries.map Prod.fst)
  sorted : waiting.Pairwise (· < ·)
  cuts : ∃ cuts : List (List EntryWithDescriptors),
    draft.sections.flatMap TransportSection.transports = cuts.flatten ∧
      List.Forall₂ EntryWithDescriptors.IsCut
        (written.map fun id ↦ transportEntry (table.entryOf id)) cuts
  placed : ∀ id ∈ written, IsPlaced table draft.sections id
  excused : ∀ id ∈ waiting, ∀ number : ℕ, table.sectionHints.find? id = some (number : ℤ) →
    number < draft.closed.length → IsExcused table draft.sections id number

namespace Distributed

variable {draft after : TableDraft} {written waiting : List TransportStreamId}
  {id : TransportStreamId}

theorem nodup (hdistributed : Distributed table draft written waiting) :
    (written ++ waiting).Nodup := by
  rw [hdistributed.perm.nodup_iff]
  apply List.Pairwise.map
  · intro first second hless
    exact hless
  · exact table.transports.sorted.imp fun hless ↦ hless.ne

theorem not_heldAt (hdistributed : Distributed table draft written waiting) (hid : id ∈ waiting)
    (number : ℕ) : ¬ HeldAt draft.sections id number := by
  rintro ⟨sect, hsect, part, hpart, hfixed⟩
  obtain ⟨cuts, hflatten, hcuts⟩ := hdistributed.cuts
  have hmem := List.mem_flatMap.mpr ⟨sect, List.mem_of_getElem? hsect, hpart⟩
  rw [hflatten] at hmem
  obtain ⟨entry, hentry, hsame, -⟩ := EntryWithDescriptors.exists_of_mem_cuts hcuts hmem
  obtain ⟨other, hother, rfl⟩ := List.mem_map.mp hentry
  have hequal : other = id := TransportStreamId.bytes_injective (hsame.symm.trans hfixed)
  rw [hequal] at hother
  exact List.disjoint_of_nodup_append hdistributed.nodup hother hid

theorem close (hdistributed : Distributed table draft written waiting) (hexcused : ∀ id ∈ waiting,
      table.sectionHints.find? id = some (draft.closed.length : ℤ) →
        IsExcused table draft.sections id draft.closed.length) :
    Distributed table draft.close written waiting := by
  have hgrows := draft.grows_close
  have hcount : draft.close.closed.length = draft.closed.length + 1 := draft.length_sections
  refine ⟨draft.descs_close.trans hdistributed.descs, hdistributed.perm, hdistributed.sorted, ?_,
    fun id hid ↦ hgrows.isPlaced (hdistributed.placed id hid), fun id hid number hhint hnumber ↦ ?_⟩
  · rw [draft.transports_close]
    exact hdistributed.cuts
  · have hclosed : IsExcused table draft.sections id number := by
      rw [hcount] at hnumber
      rcases Nat.lt_succ_iff_lt_or_eq.mp hnumber with hless | rfl
      · exact hdistributed.excused id hid number hhint hless
      · exact hexcused id hid hhint
    exact hgrows.isExcused (TableDraft.getElem?_close hnumber) hclosed

theorem write (hdistributed : Distributed table draft written waiting) (hid : id ∈ waiting)
    (hhint : ∀ hint ∈ table.sectionHints.find? id, hint ≤ (draft.closed.length : ℤ))
    {parts : List EntryWithDescriptors} (hwrites : TableDraft.Writes id draft after parts)
    (hcurrent : HeldAt after.sections id after.closed.length)
    (hcut : EntryWithDescriptors.IsCut (transportEntry (table.entryOf id)) parts) :
    Distributed table after (written ++ [id]) (waiting.erase id) := by
  have hgrows := hwrites.grows
  constructor
  · exact hwrites.descs.trans hdistributed.descs
  · apply List.Perm.trans _ hdistributed.perm
    rw [List.append_assoc]
    exact (List.perm_cons_erase hid).symm.append_left written
  · exact hdistributed.sorted.sublist List.erase_sublist
  · obtain ⟨cuts, hflatten, hcuts⟩ := hdistributed.cuts
    refine ⟨cuts ++ [parts], ?_, ?_⟩
    · rw [hwrites.transports, hflatten, List.flatten_append, List.flatten_singleton]
    · rw [List.map_append]
      exact List.rel_append hcuts (List.Forall₂.cons hcut List.Forall₂.nil)
  · intro other hother
    rcases List.mem_append.mp hother with hbefore | hnew
    · exact hgrows.isPlaced (hdistributed.placed other hbefore)
    · rw [List.mem_singleton.mp hnew]
      refine ⟨_, hwrites.startsIn hcurrent (hdistributed.not_heldAt hid), fun hint hequal ↦ ?_⟩
      have hle := hhint hint hequal
      refine ⟨hle, fun preferred hpreferred ↦ ?_⟩
      rcases eq_or_ne draft.closed.length preferred with hsame | hne
      · exact Or.inl hsame
      · have hless : preferred < draft.closed.length := by omega
        right
        apply hgrows.isExcused (hgrows.closed preferred hless)
        apply hdistributed.excused id hid preferred _ hless
        rw [← hpreferred]
        exact hequal
  · intro other hother number hequal hnumber
    by_cases hless : number < draft.closed.length
    · apply hgrows.isExcused (hgrows.closed number hless)
      exact hdistributed.excused other (List.mem_of_mem_erase hother) number hequal hless
    · right
      left
      refine ⟨id, hwrites.held number (not_lt.mp hless) hnumber, ?_⟩
      rcases Nat.lt_or_eq_of_le (Nat.succ_le_of_lt hnumber) with hbefore | hlast
      · exact hwrites.held _ (by omega) hbefore
      · rw [← hlast] at hcurrent
        exact hcurrent

end Distributed

/-! ### The loop on transport streams -/

section Loop

variable {output : TransportWriter} {draft : TableDraft} {written waiting : List TransportStreamId}

end Loop

/-! ### Round trip -/

end AbstractTransportListTable

end TSDuck
