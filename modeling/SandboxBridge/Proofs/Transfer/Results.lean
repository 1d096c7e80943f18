import SandboxBridge.Proofs.HandleTable.Exchange
import SandboxBridge.Proofs.Memory.Words
import SandboxBridge.Proofs.Storage
import SandboxBridge.Proofs.Transfer.Blocks

/-!
Strings that imports answer with. Module code finds the place of a string at a return slot, past the
end of all its blocks so far, and nothing else of its memory has changed.
-/

namespace SandboxBridge

open Work

namespace Machine

open Transfer (Extent)

variable {m m' : Machine} {slot : Nat} {text : String}

theorem onMemory_eq_ok {α : Type} {work : Memory.Action α} {value : α}
    (ran : (onMemory work).run m = (.ok value, m')) :
    work.run m.memory = (.ok value, m'.memory) ∧ m'.guest = m.guest ∧ m'.table = m.table ∧
      m'.store = m.store := by
  obtain ⟨journal, same⟩ := run_onMemory work m
  rw [same] at ran
  cases done : work.run m.memory with
  | mk result memory =>
    rw [done] at ran
    cases ran
    exact ⟨rfl, rfl, rfl, rfl⟩

/-- What becomes of the memory below the end of the last block: only the slot changes. -/
structure Spares (slot : Nat) (m m' : Machine) : Prop where
  table : m'.table = m.table
  bytes : ∀ address < m.guest.allocator.top, ¬(slot ≤ address ∧ address < slot + 8) →
    ∀ b ∈ m.memory.byte? address, m'.memory.byte? address = some b

/-- The slot has the place of the string, where it stands in a block of its own. -/
structure Hands (slot : Nat) (text : String) (m m' : Machine) (extent : Extent) : Prop where
  above : m.guest.allocator.top ≤ extent.start
  exact : extent.length = text.utf8ByteSize
  narrow : extent.start + extent.length < UInt32.size
  pair : m'.memory.HoldsPair slot extent.start.toUInt32 extent.length.toUInt32
  inside : extent.start + extent.length ≤ m'.memory.size
  holds : m'.memory.Holds extent.start text.toUTF8

theorem table_writeResult (slot : Nat) (result : Option String) (m : Machine) :
    ((writeResult slot result).run m).2.table = m.table := by
  have keeps : Keeps core (writeResult slot result).run := inferInstance
  exact congrArg Prod.fst (keeps.same m)

theorem writeResult_some (unscripted : m.Unscripted) (room : slot + 8 ≤ m.guest.allocator.top)
    (ran : (writeResult slot (some text)).run m = (.ok (), m')) :
    Spares slot m m' ∧ ∃ extent, Hands slot text m m' extent := by
  have table := table_writeResult slot (some text) m
  rw [ran] at table
  obtain ⟨extent, m₁, encoded, written⟩ := bind_eq_ok ran
  obtain ⟨fast, answer, after⟩ := encode_stands text (s := m.provision) ⟨rfl, unscripted⟩
  rw [encoded] at answer after
  have done : (Transfer.encode Transfer.native fast text).run m.provision =
      (.ok extent, m₁.provision) := Prod.ext answer.symm after.same.symm
  obtain ⟨above, exact, block, holds⟩ := Transfer.lastBlock_of_encode done
  have retains := Transfer.retains_encode (s := m.provision) (Nat.le_refl _) fast text
  rw [done] at retains
  obtain ⟨wrote, -⟩ := onMemory_eq_ok written
  have paired := Memory.writePair_eq_ok wrote
  refine ⟨⟨table, fun address below outside b found => ?_⟩, extent, above, exact, block.narrow,
    paired.holds, Nat.le_trans block.inside paired.size, fun offset inside => ?_⟩
  · rw [paired.bytes address outside]
    exact retains.memory.bytes address below b found
  · have above : m.guest.allocator.top ≤ extent.start := above
    rw [paired.bytes _ (by omega)]
    exact holds offset inside

theorem writeResult_none (ran : (writeResult slot none).run m = (.ok (), m')) :
    Spares slot m m' ∧ m'.memory.HoldsPair slot 0 0 := by
  have table := table_writeResult slot none m
  rw [ran] at table
  obtain ⟨extent, m₁, step, written⟩ := bind_eq_ok ran
  cases step
  obtain ⟨wrote, -⟩ := onMemory_eq_ok written
  have paired := Memory.writePair_eq_ok wrote
  refine ⟨⟨table, fun address _ outside b found => ?_⟩, paired.holds⟩
  rw [paired.bytes address outside]
  exact found

variable {h : Handle} {start length : Nat}

theorem stringNew_of_holds (attached : m.memory.buffer.detached = false)
    (fits : start + text.utf8ByteSize ≤ m.memory.size) (holds : m.memory.Holds start text.toUTF8)
    (next : m.table.next = .ok h) : ∃ m', (Adapter.stringNew start text.utf8ByteSize).run m =
      (.ok h, m') ∧ m'.table.get h = .ok (.string text) := by
  obtain ⟨journal, decoded⟩ := run_onMemory (Transfer.decode start text.utf8ByteSize) m
  rw [Transfer.decode_of_holds attached fits holds] at decoded
  unfold Adapter.stringNew decode
  rw [run_bind_ok decoded]
  obtain ⟨journal', allocated⟩ := run_allocate_ok (m := { m with
    memory := ((Transfer.decode start text.utf8ByteSize).run m.memory).2, journal })
    (.string text) next
  exact ⟨_, allocated, HandleTable.get_occupy next _⟩

theorem stringNew_eq_ok (ran : (Adapter.stringNew start length).run m = (.ok h, m')) :
    ∃ text, m.memory.read start length = .ok text.toUTF8 ∧ m'.table.get h = .ok (.string text) ∧
      m'.guest = m.guest := by
  unfold Adapter.stringNew decode at ran
  obtain ⟨text, m₁, decoded, allocated⟩ := bind_eq_ok ran
  obtain ⟨done, guest, -⟩ := onMemory_eq_ok decoded
  refine ⟨text, (Transfer.decode_eq_ok done).1, ?_⟩
  cases next : m₁.table.next with
  | error e =>
    rw [run_allocate_error _ next] at allocated
    cases allocated
  | ok fresh =>
    obtain ⟨journal, ran⟩ := run_allocate_ok (.string text) next
    rw [ran] at allocated
    cases allocated
    exact ⟨HandleTable.get_occupy next _, guest⟩

theorem run_object (h : Handle) (m : Machine) : (object h).run m = (m.table.get h, m) :=
  run_liftExcept _ _

theorem object_eq_ok {value : Value} (ran : (object h).run m = (.ok value, m')) :
    m.table.get h = .ok value ∧ m' = m := by
  rw [run_object] at ran
  exact ⟨congrArg Prod.fst ran, (congrArg Prod.snd ran).symm⟩

theorem stringGet_eq_ok (ran : (Adapter.stringGet slot h).run m = (.ok (), m')) :
    ∃ value, m.table.get h = .ok value ∧
      (writeResult slot value.asString?).run m = (.ok (), m') := by
  unfold Adapter.stringGet at ran
  obtain ⟨value, m₁, looked, wrote⟩ := bind_eq_ok ran
  obtain ⟨found, rfl⟩ := object_eq_ok looked
  exact ⟨value, found, wrote⟩

theorem debugString_eq_ok (ran : (Adapter.debugString slot h).run m = .done (.ok ()) m') :
    ∃ value text, m.table.get h = .ok value ∧ m.store.render? value = some text ∧
      (writeResult slot (some text)).run m = (.ok (), m') := by
  unfold Adapter.debugString at ran
  rw [Op.run_local_bind, run_object] at ran
  cases found : m.table.get h with
  | error e =>
    rw [found] at ran
    cases ran
  | ok value =>
    rw [found] at ran
    dsimp only at ran
    rw [Op.run_rendered_bind] at ran
    cases rendered : m.store.render? value with
    | none =>
      rw [rendered] at ran
      cases ran
    | some text =>
      rw [rendered] at ran
      exact ⟨value, text, rfl, rendered, Op.eq_of_run_local ran⟩

theorem run_guarded_bind_done {α β : Type} {operation : String} {neutral : β} {work : Host α}
    {value : α} {next : α → Host β} (ran : work.run m = .done (.ok value) m') :
    (guarded operation neutral (work >>= next)).run m =
      (guarded operation neutral (next value)).run m' := by
  unfold guarded
  rw [Op.run_outcome_bind, Host.run_bind_done ran, Op.run_outcome_bind]

theorem run_guarded_local {α : Type} (operation : String) (neutral : α) (work : Local α)
    (m : Machine) :
    (guarded operation neutral (liftM work)).run m = (liftM work : Op α).run m := by
  unfold guarded
  rw [Op.run_outcome_bind, Host.run_local, Op.run_local]
  rcases work.run m with ⟨e | value, m'⟩ <;> rfl

/-- Only an import's own notes, and views of the memory, are new. -/
structure Beside (m m' : Machine) : Prop where
  guest : m'.guest = m.guest
  table : m'.table = m.table
  buffer : m'.memory.buffer = m.memory.buffer

theorem storageGetItem_eq_ok {id : ObjectId} {items : Nat}
    (found : m.table.get h = .ok (.object id)) (gives : m.store.GivesItems id items)
    (ran : (Adapter.storageGetItem slot h start length).run m = .done (.ok ()) m') :
    ∃ key m₁, m.memory.read start length = .ok key.toUTF8 ∧ Beside m m₁ ∧
      (writeResult slot ((m.store.storage items).items.get? key)).run m₁ = (.ok (), m') := by
  unfold Adapter.storageGetItem at ran
  rw [Op.run_local_bind, run_object, found] at ran
  dsimp only at ran
  rw [Op.run_local_bind] at ran
  cases decoded : (decode start length).run m with
  | mk result m₀ =>
    rw [decoded] at ran
    cases result with
    | error e => cases ran
    | ok key =>
      obtain ⟨done, guest, table, store⟩ := onMemory_eq_ok decoded
      obtain ⟨read, buffer⟩ := Transfer.decode_eq_ok done
      rw [← store] at gives ⊢
      obtain ⟨journal, answered⟩ := run_invokeMethod_getItem key gives
      dsimp only at ran
      rw [run_guarded_bind_done answered] at ran
      refine ⟨key, { m₀ with journal }, read, ⟨guest, table, buffer⟩, Op.eq_of_run_local ?_⟩
      obtain ⟨absent, null⟩ | ⟨text, stored, string⟩ := m₀.store.getItem_cases items key
      · rw [null] at ran
        rw [absent]
        exact (run_guarded_local ..).symm.trans ran
      · rw [string] at ran
        rw [stored]
        exact (run_guarded_local ..).symm.trans ran

/-! What module code finds at the slot. -/

/-- The words lead to the string: its bytes stand past all blocks that there were, and a new string
that is made of them is equal to it. -/
structure Leads (text : String) (start length : UInt32) (m m' : Machine) : Prop where
  above : m.guest.allocator.top ≤ start.toNat
  present : start ≠ 0
  bytes : m'.memory.read start.toNat length.toNat = .ok text.toUTF8
  renews : ∀ h, m'.table.next = .ok h → ∃ m'',
    (Adapter.stringNew start.toNat length.toNat).run m' = (.ok h, m'') ∧
      m''.table.get h = .ok (.string text)

/-- The slot has the place of a string, or two zeros for none, and has been written to alone. -/
structure Answers (slot : Nat) (result : Option String) (m m' : Machine) : Prop extends
    Spares slot m m' where
  pair : ∃ start length m'', (onMemory (Memory.readPair slot)).run m' = (.ok (start, length), m'') ∧
    (result = none → start = 0 ∧ length = 0) ∧
    ∀ text, result = some text → Leads text start length m m''

theorem run_readPair {first second : UInt32} (pair : m.memory.HoldsPair slot first second) :
    ∃ m', (onMemory (Memory.readPair slot)).run m = (.ok (first, second), m') ∧
      m'.memory.buffer = m.memory.buffer := by
  obtain ⟨journal, ran⟩ := run_onMemory (Memory.readPair slot) m
  rw [pair.readPair] at ran
  exact ⟨_, ran, Memory.buffer_view m.memory .words⟩

theorem Hands.leads {extent : Extent} {m'' : Machine} (hands : Hands slot text m m' extent)
    (room : slot + 8 ≤ m.guest.allocator.top) (same : m''.memory.buffer = m'.memory.buffer) :
    Leads text extent.start.toUInt32 extent.length.toUInt32 m m'' := by
  obtain ⟨above, exact, narrow, pair, inside, holds⟩ := hands
  have start : extent.start.toUInt32.toNat = extent.start := by
    apply UInt32.toNat_ofNat_of_lt
    omega
  have length : extent.length.toUInt32.toNat = text.utf8ByteSize := by
    rw [← exact]
    apply UInt32.toNat_ofNat_of_lt
    omega
  have attached : m''.memory.buffer.detached = false := by
    rw [same]
    exact pair.attached
  have fits : extent.start + text.utf8ByteSize ≤ m''.memory.size := by
    rw [Memory.size, same, ← exact]
    exact inside
  have holds : m''.memory.Holds extent.start text.toUTF8 := by
    unfold Memory.Holds Memory.byte? at holds ⊢
    rw [same]
    exact holds
  refine ⟨?_, fun absent => ?_, ?_, fun h next => ?_⟩
  · rw [start]
    exact above
  · have zero : extent.start = 0 := by
      rw [← start, absent]
      rfl
    omega
  · rw [start, length]
    exact Memory.read_of_holds attached fits holds
  · rw [start, length]
    exact stringNew_of_holds attached fits holds next

theorem answers_of_writeResult {result : Option String} {m₁ : Machine} (unscripted : m.Unscripted)
    (room : slot + 8 ≤ m.guest.allocator.top) (beside : Beside m m₁)
    (ran : (writeResult slot result).run m₁ = (.ok (), m')) : Answers slot result m m' := by
  obtain ⟨guest, table, buffer⟩ := beside
  have unscripted := unscripted.of_guest guest
  have spares : ∀ m', Spares slot m₁ m' → Spares slot m m' := by
    rintro m' ⟨kept, bytes⟩
    rw [guest] at bytes
    unfold Memory.byte? at bytes
    rw [buffer] at bytes
    exact ⟨kept.trans table, bytes⟩
  have top : m₁.guest.allocator.top = m.guest.allocator.top := by rw [guest]
  cases result with
  | none =>
    obtain ⟨spared, pair⟩ := writeResult_none ran
    obtain ⟨m'', read, -⟩ := run_readPair pair
    exact ⟨spares m' spared, 0, 0, m'', read, fun _ => ⟨rfl, rfl⟩, nofun⟩
  | some text =>
    obtain ⟨spared, extent, hands⟩ := writeResult_some unscripted (by rw [top]; exact room) ran
    obtain ⟨m'', read, same⟩ := run_readPair hands.pair
    have leads := hands.leads (by rw [top]; exact room) same
    rw [← guest] at room
    refine ⟨spares m' spared, _, _, m'', read, nofun, fun _ found => ?_⟩
    cases found
    obtain ⟨above, present, bytes, renews⟩ := leads
    rw [guest] at above
    exact ⟨above, present, bytes, renews⟩

inductive TextImport where
  | stringGet (handle : Handle)
  | debugString (handle : Handle)
  | storageItem (storage : Handle) (start length : Nat)

namespace TextImport

def perform (slot : Nat) : TextImport → Op Unit
  | stringGet handle => Adapter.stringGet slot handle
  | debugString handle => Adapter.debugString slot handle
  | storageItem storage start length => Adapter.storageGetItem slot storage start length

/-- A storage that is asked for an item is one of those that the library makes. -/
def OnReference (m : Machine) : TextImport → Prop
  | storageItem storage _ _ =>
    ∃ id items, m.table.get storage = .ok (.object id) ∧ m.store.GivesItems id items
  | _ => True

/-- What there is to answer: a string itself, a rendering, or the item under the key. -/
inductive Gives (m : Machine) : TextImport → Option String → Prop
  | string {handle : Handle} {value : Value} (found : m.table.get handle = .ok value) :
    Gives m (.stringGet handle) value.asString?
  | rendering {handle : Handle} {value : Value} {text : String}
    (found : m.table.get handle = .ok value) (rendered : m.store.render? value = some text) :
    Gives m (.debugString handle) (some text)
  | item {storage : Handle} {start length items : Nat} {id : ObjectId} {key : String}
    (found : m.table.get storage = .ok (.object id)) (gives : m.store.GivesItems id items)
    (named : m.memory.read start length = .ok key.toUTF8) :
    Gives m (.storageItem storage start length) ((m.store.storage items).items.get? key)

theorem perform_eq_ok {i : TextImport} (reference : i.OnReference m)
    (ran : (i.perform slot).run m = .done (.ok ()) m') : ∃ result m₁, i.Gives m result ∧
      Beside m m₁ ∧ (writeResult slot result).run m₁ = (.ok (), m') := by
  cases i with
  | stringGet handle =>
    obtain ⟨value, found, wrote⟩ := stringGet_eq_ok (Op.eq_of_run_local ran)
    exact ⟨_, m, .string found, ⟨rfl, rfl, rfl⟩, wrote⟩
  | debugString handle =>
    obtain ⟨value, text, found, rendered, wrote⟩ := debugString_eq_ok ran
    exact ⟨_, m, .rendering found rendered, ⟨rfl, rfl, rfl⟩, wrote⟩
  | storageItem storage start length =>
    obtain ⟨id, items, found, gives⟩ := reference
    obtain ⟨key, m₁, named, beside, wrote⟩ := storageGetItem_eq_ok found gives ran
    exact ⟨_, m₁, .item found gives named, beside, wrote⟩

end TextImport

end Machine

open Machine

variable {settings : Settings} {memory : Memory} {guest : Guest} {store : Store} {global : ObjectId}

/-- An import that answers with a string gives module code the place of exactly its bytes, or two
zeros where there is no string, and the bytes make an equal string again. What module code has made
a string of comes back byte for byte. -/
theorem Execution.strings_answered {x : Execution} {slot : Nat}
    (unscripted : ∀ entry, guest.overrides entry = [])
    (reached : Reaches (start (create settings memory guest store global)) x)
    (room : slot + 8 ≤ x.machine.guest.allocator.top) :
    (∀ (i : TextImport) (m : Machine), i.OnReference x.machine →
      (i.perform slot).run x.machine = .done (.ok ()) m →
      ∃ result, i.Gives x.machine result ∧ Answers slot result x.machine m) ∧
    ∀ start length h m m', (Adapter.stringNew start length).run x.machine = (.ok h, m) →
      (Adapter.stringGet slot h).run m = (.ok (), m') →
      ∃ bytes place extent m'', x.machine.memory.read start length = .ok bytes ∧
        (onMemory (Memory.readPair slot)).run m' = (.ok (place, extent), m'') ∧
        m''.memory.read place.toNat extent.toNat = .ok bytes := by
  have created : (create settings memory guest store global).Unscripted := fun entry =>
    (congrArg (fun part => part.2.2.overrides entry)
      (frame_create settings memory guest store global)).trans (unscripted entry)
  have unscripted := unscripted_reaches created reached
  refine ⟨fun i m reference ran => ?_, fun start length h m m' made ran => ?_⟩
  · obtain ⟨result, m₁, gives, beside, wrote⟩ := TextImport.perform_eq_ok reference ran
    exact ⟨result, gives, answers_of_writeResult unscripted room beside wrote⟩
  · obtain ⟨text, bytes, found, same⟩ := stringNew_eq_ok made
    obtain ⟨value, taken, wrote⟩ := stringGet_eq_ok ran
    rw [found] at taken
    cases taken
    rw [← same] at room
    have unscripted := unscripted.of_guest same
    obtain ⟨-, place, extent, m'', read, -, leads⟩ :=
      answers_of_writeResult unscripted room ⟨rfl, rfl, rfl⟩ wrote
    exact ⟨text.toUTF8, place, extent, m'', bytes, read, (leads text rfl).bytes⟩

def lettered : Machine :=
  create {} (.ofBytes (.mk (.replicate 24 97))) {} {} ⟨0⟩

/-- A string of one letter comes back in a block of its own. -/
theorem Execution.strings_answered_letter : ∃ place extent m,
    (onMemory (Memory.readPair 0)).run ((Adapter.stringGet 0 ⟨4⟩).run
      ((Adapter.stringNew 16 1).run lettered).2).2 = (.ok (place, extent), m) ∧
      m.memory.read place.toNat extent.toNat = .ok (.mk #[97]) := by
  have made : ((Adapter.stringNew 16 1).run lettered).1 = .ok ⟨4⟩ := by decide +kernel
  have ran : ((Adapter.stringGet 0 ⟨4⟩).run ((Adapter.stringNew 16 1).run lettered).2).1 =
      .ok () := by decide +kernel
  have stood : lettered.memory.read 16 1 = .ok (.mk #[97]) := by decide +kernel
  have room : 0 + 8 ≤ lettered.guest.allocator.top := by decide +kernel
  have answered := strings_answered (x := start lettered) (fun _ => rfl) .refl room
  obtain ⟨bytes, place, extent, m, read, pair, back⟩ :=
    answered.2 16 1 ⟨4⟩ _ _ (Prod.ext made rfl) (Prod.ext ran rfl)
  rw [show (start lettered).machine = lettered from rfl, stood] at read
  cases read
  exact ⟨place, extent, m, pair, back⟩

end SandboxBridge
