import SandboxBridge.Proofs.Custody

/-!
Arguments of a call of a closure. They are put behind fresh handles one after the other; when the
table has no room for all of them, those that were placed are taken back, and no handle that lives
tells the difference.
-/

namespace SandboxBridge

namespace HandleTable

variable {t t₁ t' : HandleTable} {h : Handle} {value : Value} {handles more : List Handle}
  {values rest : List Value}

/-- A table has as many handles to hand out: those that are free, and those that the bound leaves. -/
def Room (t : HandleTable) (count : Nat) : Prop :=
  ∀ most, t.limit = some most → count ≤ t.freeHandles.length + (most - t.size)

theorem not_room_one_iff : ¬t.Room 1 ↔ t.Full := by
  unfold Room Full
  constructor
  · intro none
    push Not at none
    obtain ⟨most, limited, few⟩ := none
    exact ⟨List.eq_nil_of_length_eq_zero (by omega), most, limited, by omega⟩
  · rintro ⟨nothing, most, limited, past⟩ room
    have some_handle := room most limited
    rw [nothing, List.length_nil] at some_handle
    omega

theorem Room.mono {count fewer : Nat} (room : t.Room count) (le : fewer ≤ count) : t.Room fewer :=
  fun most limited => Nat.le_trans le (room most limited)

theorem limit_occupy (t : HandleTable) (value : Value) : (t.occupy value).limit = t.limit := by
  unfold occupy
  split <;> rfl

theorem WellFormed.room_occupy_iff (formed : t.WellFormed) (next : t.next = .ok h) (value : Value)
    (count : Nat) : (t.occupy value).Room count ↔ t.Room (count + 1) := by
  have one : t.Room 1 := by
    by_contra none
    have refused := (formed.next_error_iff .tableFull).mpr ⟨rfl, not_room_one_iff.mp none⟩
    rw [next] at refused
    cases refused
  obtain ⟨s, stands⟩ := formed
  unfold Room at one ⊢
  rw [limit_occupy]
  refine forall_congr' fun most => imp_congr_right fun limited => ?_
  have some_handle := one most limited
  rw [stands.freeHandles_eq] at some_handle ⊢
  cases stack : s.freed with
  | cons top freed =>
    obtain ⟨head, after⟩ := stands.occupy_freed stack value
    obtain ⟨link, found⟩ := (stands.mem_freed_iff top).mp (by simp [stack])
    have size : (t.occupy value).size = t.size := by
      simp [HandleTable.size, HandleTable.occupy, head, found]
    rw [after.freeHandles_eq, size, List.length_cons]
    dsimp only
    omega
  | nil =>
    obtain ⟨last, after⟩ := stands.occupy_unused stack value
    have size : (t.occupy value).size = t.size + 1 := by
      simp [HandleTable.size, HandleTable.occupy, last]
    rw [stack, List.length_nil] at some_handle
    rw [after.freeHandles_eq, size, stack, List.length_nil]
    omega

/-- From `t` to `t'`, values have been put behind fresh handles, each behind one of its own, and
nothing else has changed. -/
structure Places (handles : List Handle) (values : List Value) (t t' : HandleTable) : Prop where
  unreserved : ∀ h ∈ handles, Handle.reserved ≤ h.index
  fresh : ∀ h ∈ handles, t.isLive h = false
  nodup : handles.Nodup
  denotes : handles.map t'.get = values.map .ok
  others : ∀ h ∉ handles, t'.get h = t.get h
  live : t'.live = t.live + handles.length

theorem Places.refl (t : HandleTable) : t.Places [] [] t :=
  ⟨nofun, nofun, .nil, rfl, fun _ _ => rfl, rfl⟩

theorem Gains.places (gains : t.Gains h value t') : t.Places [h] [value] t' where
  unreserved := List.forall_mem_singleton.mpr gains.unreserved
  fresh := List.forall_mem_singleton.mpr gains.fresh
  nodup := List.nodup_singleton h
  denotes := congrArg (fun denoted => [denoted]) gains.denotes
  others other apart := gains.others other (List.ne_of_not_mem_cons apart)
  live := gains.live

namespace Places

theorem exists_value (places : t.Places handles values t') (member : h ∈ handles) :
    ∃ value, t'.get h = .ok value := by
  have denoted : t'.get h ∈ handles.map t'.get := List.mem_map_of_mem member
  rw [places.denotes] at denoted
  obtain ⟨value, -, same⟩ := List.mem_map.mp denoted
  exact ⟨value, same.symm⟩

theorem isLive (places : t.Places handles values t') (member : h ∈ handles) : t'.isLive h := by
  obtain ⟨value, found⟩ := places.exists_value member
  exact isLive_of_get found

theorem trans (first : t.Places handles values t₁) (second : t₁.Places more rest t') :
    t.Places (handles ++ more) (values ++ rest) t' := by
  have apart {h : Handle} (early : h ∈ handles) : h ∉ more := by
    intro late
    have dead := second.fresh h late
    rw [first.isLive early] at dead
    cases dead
  refine ⟨?_, ?_, ?_, ?_, ?_, ?_⟩
  · exact List.forall_mem_append.mpr ⟨first.unreserved, second.unreserved⟩
  · refine List.forall_mem_append.mpr ⟨first.fresh, fun h late => ?_⟩
    have same := first.others h fun early => apart early late
    rw [← isLive_congr same]
    exact second.fresh h late
  · exact first.nodup.append second.nodup fun h => apart
  · have kept : handles.map t'.get = handles.map t₁.get :=
      List.map_congr_left fun h early => second.others h (apart early)
    rw [List.map_append, List.map_append, kept, first.denotes, second.denotes]
  · intro h absent
    rw [List.mem_append, not_or] at absent
    exact (second.others h absent.2).trans (first.others h absent.1)
  · rw [second.live, first.live, List.length_append, Nat.add_assoc]

end Places

structure Alike (t t' : HandleTable) : Prop where
  get_ok_iff : ∀ h value, t'.get h = .ok value ↔ t.get h = .ok value
  live : t'.live = t.live

structure Withdraws (handles : List Handle) (t t' : HandleTable) : Prop where
  gone : ∀ h ∈ handles, t'.isLive h = false
  others : ∀ h ∉ handles, t'.get h = t.get h
  live : t.live = t'.live + handles.length

theorem Withdraws.cons (loses : t.Loses h t₁) (withdraws : t₁.Withdraws handles t') :
    t.Withdraws (h :: handles) t' where
  gone other member := by
    by_cases later : other ∈ handles
    · exact withdraws.gone other later
    · have first : other = h := (List.mem_cons.mp member).resolve_right later
      rw [isLive_congr (withdraws.others other later), first]
      exact loses.after
  others other absent := by
    rw [List.mem_cons, not_or] at absent
    exact (withdraws.others other absent.2).trans (loses.others other absent.1)
  live := by rw [loses.live, withdraws.live, List.length_cons, Nat.add_assoc]

theorem Places.alike (places : t.Places handles values t₁) (withdraws : t₁.Withdraws handles t') :
    t.Alike t' where
  get_ok_iff h value := by
    by_cases member : h ∈ handles
    · have dead := withdraws.gone h member
      have fresh := places.fresh h member
      constructor <;> intro found
      · rw [isLive_of_get found] at dead
        cases dead
      · rw [isLive_of_get found] at fresh
        cases fresh
    · rw [withdraws.others h member, places.others h member]
  live := by
    have before := places.live
    have after := withdraws.live
    omega

end HandleTable

/-! Work of a machine. -/

namespace Machine

open Work HandleTable

variable {m : Machine}

theorem run_releaseAll {handles : List Handle} (formed : m.table.WellFormed)
    (nodup : handles.Nodup) (unreserved : ∀ h ∈ handles, Handle.reserved ≤ h.index)
    (live : ∀ h ∈ handles, m.table.isLive h) :
    ∃ t journal, (releaseAll handles).run m = (.ok (), { m with table := t, journal }) ∧
      t.WellFormed ∧ m.table.Withdraws handles t := by
  induction handles generalizing m with
  | nil => exact ⟨m.table, m.journal, rfl, formed, nofun, fun _ _ => rfl, rfl⟩
  | cons h rest ih =>
    obtain ⟨apart, distinct⟩ := List.nodup_cons.mp nodup
    have alive : m.table.isLive h := live h List.mem_cons_self
    obtain ⟨value, found⟩ := exists_of_isLive alive
    obtain ⟨after, loses⟩ := formed.vacate (unreserved h List.mem_cons_self) alive
    obtain ⟨noted, released⟩ := run_release_ok (claim_ok_iff.mpr found)
    have still : ∀ other ∈ rest, (m.table.vacate h).isLive other := by
      intro other member
      have different : other ≠ h := fun same => apart (same ▸ member)
      rw [isLive_congr (loses.others other different)]
      exact live other (List.mem_cons_of_mem h member)
    obtain ⟨t, journal, ran, last, withdraws⟩ :=
      ih (m := { m with table := m.table.vacate h, journal := noted }) after distinct
        (fun other member => unreserved other (List.mem_cons_of_mem h member)) still
    refine ⟨t, journal, ?_, last, .cons loses withdraws⟩
    unfold releaseAll
    rw [run_bind, run_settle, released]
    exact ran

/-- How the arguments of a call come to handles: all of them, or none if there is no room for all. -/
inductive PlacesAll (t : HandleTable) (args : List Value) (m : Machine) :
    Except Error (List Handle) × Machine → Prop
  | placed {handles : List Handle} {t' : HandleTable} {journal : Journal}
    (formed : t'.WellFormed) (places : t.Places handles args t') :
    PlacesAll t args m (.ok handles, { m with table := t', journal })
  | full {t' : HandleTable} {journal : Journal} (formed : t'.WellFormed) (alike : t.Alike t') :
    PlacesAll t args m (.error .tableFull, { m with table := t', journal })

theorem PlacesAll.of_custody {t t₁ : HandleTable} {args : List Value} {noted : Journal}
    {ended : Except Error (List Handle) × Machine}
    (all : PlacesAll t args { m with table := t₁, journal := noted } ended) :
    PlacesAll t args m ended := by
  cases all with
  | placed formed places => exact .placed formed places
  | full formed alike => exact .full formed alike

theorem run_allocateAll {t : HandleTable} {placed : List Handle} {values : List Value}
    (formed : m.table.WellFormed) (places : t.Places placed.reverse values m.table)
    (args : List Value) :
    PlacesAll t (values ++ args) m ((allocateAll placed args).run m) ∧
      ((∃ handles, ((allocateAll placed args).run m).1 = .ok handles) ↔
        m.table.Room args.length) := by
  induction args generalizing m placed values with
  | nil =>
    refine ⟨.placed formed ?_, fun _ most _ => Nat.zero_le _, fun _ => ⟨_, rfl⟩⟩
    rwa [List.append_nil]
  | cons arg rest ih =>
    unfold allocateAll
    rw [run_bind, run_settle]
    cases next : m.table.next with
    | error e =>
      obtain ⟨rfl, full⟩ := (formed.next_error_iff e).mp next
      obtain ⟨t', journal, released, last, withdraws⟩ := run_releaseAll formed places.nodup
        places.unreserved fun h member => places.isLive member
      have failed : (releaseAll placed.reverse >>= fun _ => throw .tableFull :
          Local (List Handle)).run m = (.error .tableFull, { m with table := t', journal }) := by
        rw [run_bind, released]
        rfl
      rw [run_allocate_error arg next]
      dsimp only
      rw [failed]
      refine ⟨.full last (places.alike withdraws), nofun, fun room => ?_⟩
      exact absurd full (not_room_one_iff.not_right.mp (room.mono (Nat.le_add_left 1 _)))
    | ok h =>
      obtain ⟨after, gains⟩ := formed.occupy next arg
      obtain ⟨noted, allocated⟩ := run_allocate_ok arg next
      have more : t.Places (h :: placed).reverse (values ++ [arg]) (m.table.occupy arg) := by
        rw [List.reverse_cons]
        exact places.trans gains.places
      obtain ⟨all, placeable⟩ :=
        ih (m := { m with table := m.table.occupy arg, journal := noted }) after more
      rw [allocated]
      rw [List.append_assoc] at all
      exact ⟨all.of_custody, placeable.trans (formed.room_occupy_iff next arg _)⟩

variable {args : List Value}

theorem run_allocateAll_ok (formed : m.table.WellFormed) (room : m.table.Room args.length) :
    ∃ handles t journal,
      (allocateAll [] args).run m = (.ok handles, { m with table := t, journal }) ∧
      t.WellFormed ∧ m.table.Places handles args t := by
  obtain ⟨all, placeable⟩ := @run_allocateAll m m.table [] [] formed (.refl m.table) args
  obtain ⟨handles, placed⟩ := placeable.mpr room
  revert all placed
  rcases (allocateAll [] args).run m with ⟨result, m'⟩
  rintro all rfl
  cases all with
  | placed after places => exact ⟨handles, _, _, rfl, after, places⟩

theorem run_allocateAll_full (formed : m.table.WellFormed) (full : ¬m.table.Room args.length) :
    ∃ t journal,
      (allocateAll [] args).run m = (.error .tableFull, { m with table := t, journal }) ∧
      t.WellFormed ∧ m.table.Alike t := by
  obtain ⟨all, placeable⟩ := @run_allocateAll m m.table [] [] formed (.refl m.table) args
  revert all placeable
  rcases (allocateAll [] args).run m with ⟨result, m'⟩
  intro all placeable
  cases all with
  | placed => exact absurd (placeable.mp ⟨_, rfl⟩) full
  | full after alike => exact ⟨_, _, rfl, after, alike⟩

end Machine

end SandboxBridge
